/-
Which span does a token end? `cuCxlObservationDecodeBeginV1` clears the ledger with its token counter; a call still
running keeps its token and may end another call's span in the next decode span (`stale_token_ends_other`).

Beside the ledger run the calls given a token, and for every slot of the token table the call that entered it (`owner`).
-/
import CxlMemSim.Guest.Measure

namespace CxlMemSim.Guest.Observation.Tokens

open List Function
open CxlMemSim.Core

/-! ## Calls over many decode spans -/

structure Call where
  epoch : ℕ
  token : UInt64
  ended : Bool
deriving DecidableEq, Repr

structure Hist where
  ledger : Ledger
  epoch : ℕ
  calls : List Call
  owner : ℕ → Option ℕ

/-- what a thread can do. A public call reads `g_observation_fast_active` before it locks, so its begin may find the
ledger closed. -/
inductive Op where
  | decodeBegin (caseEpoch clockNs : UInt64)
  | decodeEnd (caseEpoch clockNs : UInt64)
  | spanBegin (r : SpanRequest) (clockNs : UInt64)
  | callBegin (symbol : List UInt8) (command : UInt32) (callId clockNs : UInt64)
  | spanEnd (call : ℕ) (clockNs : UInt64)
  | statusPolls (command pollCount : UInt32)
deriving DecidableEq, Repr

variable (h : Hist)

def begun (result : UInt64 × Ledger) : Hist :=
  if result.1 = 0 then { h with ledger := result.2 }
  else { h with
    ledger := result.2
    calls := h.calls ++ [⟨h.epoch, result.1, false⟩]
    owner := update h.owner (slot result.1) (some h.calls.length) }

def decodeBegun (caseEpoch clockNs : UInt64) : Hist :=
  let ledger := (decodeBegin h.ledger caseEpoch clockNs).2
  if h.ledger.active = true ∨ caseEpoch = 0 then { h with ledger }
  else { h with ledger, epoch := h.epoch + 1, owner := fun _ => none }

def markEnded (calls : List Call) (i : ℕ) (call : Call) : List Call := calls.set i { call with ended := true }

def spanEnded (i : ℕ) (call : Call) (clockNs : UInt64) : Hist :=
  let result := spanEndLocked h.ledger call.token clockNs
  { h with
    ledger := result.2
    calls := markEnded h.calls i call
    owner := if result.1 = .success then update h.owner (slot call.token) none else h.owner }

def step : Op → Hist
  | .decodeBegin caseEpoch clockNs => decodeBegun h caseEpoch clockNs
  | .decodeEnd caseEpoch clockNs => { h with ledger := (decodeEnd h.ledger caseEpoch clockNs).2 }
  | .spanBegin r clockNs => begun h (spanBeginLocked h.ledger r clockNs)
  | .callBegin symbol command callId clockNs => begun h (cudaCallBegin h.ledger symbol command callId clockNs)
  | .spanEnd i clockNs =>
    match h.calls[i]? with
    | none => h
    | some call => spanEnded h i call clockNs
  | .statusPolls command pollCount => { h with ledger := commandStatusPolls h.ledger command pollCount }

def start : Hist := ⟨{}, 0, [], fun _ => none⟩

/-! ## Statement -/

def Running (call : Call) : Prop := h.ledger.active = true ∧ call.epoch = h.epoch

instance (call : Call) : Decidable (Running h call) := by unfold Running; infer_instance

def ClosesOwn (i : ℕ) (call : Call) (result : CUresult × Ledger) : Prop :=
  result.1 = .success ∧ h.owner (slot call.token) = some i ∧
    result.2.openTokens = update h.ledger.openTokens (slot call.token) {}

def Refused (result : CUresult × Ledger) : Prop := result.1 ≠ .success ∧ ∃ e, result.2 = h.ledger.fail e

/-- every end closes its own call's span, or is refused because that call's decode span is over -/
def EndsOwnSpan (o : Op) : Prop :=
  match o with
  | .spanEnd i clockNs => ∀ call, h.calls[i]? = some call →
      ClosesOwn h i call (spanEndLocked h.ledger call.token clockNs) ∨
        ¬ Running h call ∧ Refused h (spanEndLocked h.ledger call.token clockNs)
  | _ => True

/-- the call ends for the first time, with a readable clock; if its decode span is over, no open call of the running one
has its number -/
def NoNamesake (o : Op) : Prop :=
  match o with
  | .spanEnd i clockNs => ∀ call ∈ h.calls[i]?, clockNs ≠ 0 ∧ call.ended = false ∧
      (call.epoch ≠ h.epoch → ∀ other ∈ h.calls, other.epoch = h.epoch → other.token = call.token → other.ended = true)
  | _ => True

instance (o : Op) : Decidable (NoNamesake h o) := by cases o <;> unfold NoNamesake <;> infer_instance

/-- a public call of decode span 1 still runs when a plan span begins in decode span 2; then it ends -/
def crossing : List Op :=
  [.decodeBegin 1 10, .callBegin [] 1 7 20, .decodeEnd 1 30, .decodeBegin 2 40,
    .spanBegin ⟨1, 0, 0, 0xFFFFFFFF, "llama", []⟩ 50, .spanEnd 0 60]

/-- A stale token ends another call's span. Both begins were given token 1. -/
theorem stale_token_ends_other : ¬ AllSteps step EndsOwnSpan start crossing := by
  rintro ⟨-, -, -, -, -, hend, -⟩
  rcases hend ⟨1, 1, false⟩ (by decide) with ⟨-, howner, -⟩ | ⟨-, hrefused, -⟩
  · exact absurd howner (by decide)
  · exact absurd (by decide) hrefused

/-! ## What the ledger does to its tokens -/

structure SameTokens (l l' : Ledger) : Prop where
  active : l'.active = l.active
  next : l'.nextToken = l.nextToken
  slots : l'.openTokens = l.openTokens

variable {l : Ledger} {clockNs : UInt64} {epoch i : ℕ} {h : Hist}

lemma SameTokens.trans {l' l'' : Ledger} (h : SameTokens l l') (h' : SameTokens l' l'') : SameTokens l l'' :=
  ⟨h'.active.trans h.active, h'.next.trans h.next, h'.slots.trans h.slots⟩

inductive Begins (l : Ledger) : UInt64 × Ledger → Prop where
  | fails {l' : Ledger} (hactive : l'.active = l.active) (hnext : l.nextToken ≤ l'.nextToken)
      (hslots : l'.openTokens = l.openTokens) : Begins l (0, l')
  | enters {l' : Ledger} {entry : OpenToken} (hactive : l.active = true) (hactive' : l'.active = true)
      (hmax : l.nextToken ≠ uint64Max) (hfree : (l.openTokens (slot (l.nextToken + 1))).token = 0)
      (hentry : entry.token = l.nextToken + 1) (hnext : l'.nextToken = l.nextToken + 1)
      (hslots : l'.openTokens = update l.openTokens (slot (l.nextToken + 1)) entry) :
      Begins l (l.nextToken + 1, l')

variable {t : UInt64}

lemma succ_toNat (h : t ≠ uint64Max) : (t + 1).toNat = t.toNat + 1 := by
  have hlt := t.toNat_lt
  have hne : t.toNat ≠ 18446744073709551615 := fun he => h (UInt64.toNat_inj.1 he)
  rw [UInt64.toNat_add]
  simp only [UInt64.toNat_one]
  omega

lemma succ_ne_zero (h : t ≠ uint64Max) : t + 1 ≠ 0 := by
  intro h0
  have hsucc := succ_toNat h
  rw [h0, UInt64.toNat_zero] at hsucc
  omega

section

variable (l : Ledger)

lemma spanBeginLocked_begins (r : SpanRequest) (clockNs : UInt64) : Begins l (spanBeginLocked l r clockNs) := by
  have hle : l.nextToken ≤ l.nextToken := UInt64.le_refl _
  unfold spanBeginLocked
  dsimp only
  split_ifs with hactive hcat hread hback hmax hfree hseq
  · exact .fails rfl hle rfl
  · exact .fails rfl hle rfl
  · exact .fails rfl hle rfl
  · exact .fails rfl hle rfl
  · exact .fails rfl hle rfl
  · refine .fails rfl ?_ rfl
    exact UInt64.le_iff_toNat_le.2 ((Nat.le_succ _).trans (succ_toNat hmax).ge)
  · refine .fails rfl ?_ rfl
    exact UInt64.le_iff_toNat_le.2 ((Nat.le_succ _).trans (succ_toNat hmax).ge)
  · have hon : l.active = true := by simpa using hactive
    exact .enters hon hon hmax (not_not.1 hfree) rfl rfl rfl

lemma cudaCallBegin_begins (symbol : List UInt8) (command : UInt32) (callId clockNs : UInt64) :
    Begins l (cudaCallBegin l symbol command callId clockNs) := by
  have hbegin := spanBeginLocked_begins l (callRequest symbol command callId) clockNs
  unfold cudaCallBegin
  generalize spanBeginLocked l (callRequest symbol command callId) clockNs = result at hbegin ⊢
  cases hbegin with
  | fails hactive hnext hslots => exact .fails hactive hnext hslots
  | enters hactive hactive' hmax hfree hentry hnext hslots =>
    exact .enters hactive hactive' hmax hfree hentry hnext hslots

lemma commandStatusPolls_same (command pollCount : UInt32) : SameTokens l (commandStatusPolls l command pollCount) := by
  unfold commandStatusPolls
  split_ifs <;> exact ⟨rfl, rfl, rfl⟩

lemma endAccounts_same (entry : OpenToken) (nowNs : UInt64) : SameTokens l (endAccounts l entry nowNs).value := by
  obtain ⟨categories, categoryPairs, allKnown, count, overflow, stored, hl⟩ := endAccounts_eq l entry nowNs
  rw [hl]
  exact ⟨rfl, rfl, rfl⟩

lemma endCommand_same (entry : OpenToken) (nowNs : UInt64) : SameTokens l (endCommand l entry nowNs).value := by
  unfold endCommand
  split_ifs <;> exact ⟨rfl, rfl, rfl⟩

lemma closeSpan_tokens (token nowNs : UInt64) :
    (closeSpan l token nowNs).active = l.active ∧ (closeSpan l token nowNs).nextToken = l.nextToken ∧
      (closeSpan l token nowNs).openTokens = update l.openTokens (slot token) {} := by
  have hsame := (endAccounts_same l (l.openTokens (slot token)) nowNs).trans
    (endCommand_same _ (l.openTokens (slot token)) nowNs)
  have hslots := congrArg (fun slots => update slots (slot token) ({} : OpenToken)) hsame.slots
  exact ⟨hsame.active, hsame.next, hslots⟩

end

variable {token : UInt64}

lemma spanEndLocked_closes (hactive : l.active = true) (htoken : token ≠ 0)
    (hfound : (l.openTokens (slot token)).token = token) (hclock : clockNs ≠ 0) :
    (spanEndLocked l token clockNs).1 = .success ∧ (spanEndLocked l token clockNs).2.active = l.active ∧
      (spanEndLocked l token clockNs).2.nextToken = l.nextToken ∧
      (spanEndLocked l token clockNs).2.openTokens = update l.openTokens (slot token) {} := by
  unfold spanEndLocked
  rw [if_neg (by simp [hactive, htoken]), if_neg (not_not.2 hfound), if_neg hclock]
  split_ifs
  · exact ⟨rfl, closeSpan_tokens { l.fail .clockReversal with lastClock := clockNs } token clockNs⟩
  · exact ⟨rfl, closeSpan_tokens { l with lastClock := clockNs } token clockNs⟩

lemma spanEndLocked_refused (clockNs : UInt64)
    (h : l.active = true → token ≠ 0 → (l.openTokens (slot token)).token ≠ token) :
    (spanEndLocked l token clockNs).1 ≠ .success ∧ ∃ e, (spanEndLocked l token clockNs).2 = l.fail e := by
  unfold spanEndLocked
  split_ifs with hoff hother
  · exact ⟨by simp, .spanEndWithoutDecode, rfl⟩
  · exact ⟨by simp, .spanPairing, rfl⟩
  all_goals
    simp only [not_or, Bool.not_eq_false] at hoff
    exact absurd (not_not.1 hother) (h hoff.1 hoff.2)

lemma decodeEnd_tokens (l : Ledger) (caseEpoch clockNs : UInt64) :
    (decodeEnd l caseEpoch clockNs).2.nextToken = l.nextToken ∧
      ((decodeEnd l caseEpoch clockNs).2.active = false ∨ SameTokens l (decodeEnd l caseEpoch clockNs).2) := by
  unfold decodeEnd
  dsimp only
  split_ifs with hoff hepoch
  · exact ⟨rfl, .inl hoff⟩
  · exact ⟨rfl, .inr ⟨rfl, rfl, rfl⟩⟩
  all_goals exact ⟨rfl, .inl rfl⟩

/-! ## The numbers of the running decode span -/

/-- no call is ahead of the running decode span; its numbers are at most the counter, none given twice -/
structure Numbers (calls : List Call) (epoch : ℕ) (nextToken : UInt64) : Prop where
  past : ∀ c ∈ calls, c.epoch ≤ epoch
  counted : ∀ c ∈ calls, c.epoch = epoch → c.token ≠ 0 ∧ c.token ≤ nextToken
  distinct : ∀ (i j : ℕ) (c d : Call), calls[i]? = some c → calls[j]? = some d → c.epoch = epoch → d.epoch = epoch →
    c.token = d.token → i = j

variable {calls : List Call} {next : UInt64}

lemma Numbers.mono {next' : UInt64} (h : Numbers calls epoch next) (hle : next ≤ next') : Numbers calls epoch next' :=
  ⟨h.past, fun c hc he => ⟨(h.counted c hc he).1, UInt64.le_trans (h.counted c hc he).2 hle⟩, h.distinct⟩

lemma getElem?_snoc_cases {α : Type} {xs : List α} {x y : α} (h : (xs ++ [x])[i]? = some y) :
    xs[i]? = some y ∨ i = xs.length ∧ y = x := by
  rw [getElem?_append] at h
  split_ifs at h with hlt
  · exact .inl h
  · right
    rw [getElem?_singleton] at h
    split_ifs at h with hz
    exact ⟨by omega, (Option.some.inj h).symm⟩

variable {c : Call}

lemma Numbers.fresh (h : Numbers calls epoch next)
    (hmax : next ≠ uint64Max) (hc : c ∈ calls) (he : c.epoch = epoch) : c.token ≠ next + 1 := by
  intro heq
  have hle := UInt64.le_iff_toNat_le.1 (h.counted c hc he).2
  rw [heq, succ_toNat hmax] at hle
  omega

lemma Numbers.begin (h : Numbers calls epoch next)
    (hmax : next ≠ uint64Max) : Numbers (calls ++ [⟨epoch, next + 1, false⟩]) epoch (next + 1) := by
  have hsucc := succ_toNat hmax
  constructor
  case past =>
    intro c hc
    rcases List.mem_append.1 hc with hc | hc
    · exact h.past c hc
    · rw [List.mem_singleton.1 hc]
  case counted =>
    intro c hc he
    rcases List.mem_append.1 hc with hc | hc
    · obtain ⟨hpos, hle⟩ := h.counted c hc he
      have hle' := UInt64.le_iff_toNat_le.1 hle
      exact ⟨hpos, UInt64.le_iff_toNat_le.2 (by omega)⟩
    · rw [List.mem_singleton.1 hc]
      exact ⟨succ_ne_zero hmax, UInt64.le_refl _⟩
  case distinct =>
    intro i j c d hci hdj hc hd heq
    rcases getElem?_snoc_cases hci with hci | ⟨hi, rfl⟩ <;> rcases getElem?_snoc_cases hdj with hdj | ⟨hj, rfl⟩
    · exact h.distinct i j c d hci hdj hc hd heq
    · exact absurd heq (h.fresh hmax (mem_of_getElem? hci) hc)
    · exact absurd heq.symm (h.fresh hmax (mem_of_getElem? hdj) hd)
    · rw [hi, hj]

variable {call : Call} {j : ℕ}

lemma markEnded_origin {d : Call} (hcall : calls[i]? = some call) (hd : (markEnded calls i call)[j]? = some d) :
    ∃ c, calls[j]? = some c ∧ c.epoch = d.epoch ∧ c.token = d.token ∧ (d.ended = false → j ≠ i ∧ c = d) := by
  by_cases hj : j = i
  · subst hj
    rw [markEnded, getElem?_set_self', hcall] at hd
    cases hd
    exact ⟨call, hcall, rfl, rfl, fun h => by cases h⟩
  · rw [markEnded, getElem?_set_ne (Ne.symm hj)] at hd
    exact ⟨d, hd, rfl, rfl, fun _ => ⟨hj, rfl⟩⟩

lemma markEnded_other (hj : j ≠ i) (hc : calls[j]? = some c) : (markEnded calls i call)[j]? = some c := by
  rw [markEnded, getElem?_set_ne (Ne.symm hj)]
  exact hc

lemma Numbers.ended (h : Numbers calls epoch next)
    (hcall : calls[i]? = some call) : Numbers (markEnded calls i call) epoch next := by
  constructor
  case past =>
    intro d hd
    obtain ⟨j, hj⟩ := getElem?_of_mem hd
    obtain ⟨c, hc, he, -, -⟩ := markEnded_origin hcall hj
    exact he ▸ h.past c (mem_of_getElem? hc)
  case counted =>
    intro d hd hepoch
    obtain ⟨j, hj⟩ := getElem?_of_mem hd
    obtain ⟨c, hc, he, ht, -⟩ := markEnded_origin hcall hj
    exact ht ▸ h.counted c (mem_of_getElem? hc) (he.trans hepoch)
  case distinct =>
    intro a b d d' ha hb hd hd' heq
    obtain ⟨c, hc, he, ht, -⟩ := markEnded_origin hcall ha
    obtain ⟨c', hc', he', ht', -⟩ := markEnded_origin hcall hb
    exact h.distinct a b c c' hc hc' (he.trans hd) (he'.trans hd') ((ht.trans heq).trans ht'.symm)

/-- while a decode span is open, the calls that have not ended hold the slots of their tokens, and no others -/
structure Inv (h : Hist) : Prop where
  numbers : Numbers h.calls h.epoch h.ledger.nextToken
  holds : h.ledger.active = true → ∀ (i : ℕ) (c : Call), h.calls[i]? = some c → c.epoch = h.epoch → c.ended = false →
    (h.ledger.openTokens (slot c.token)).token = c.token ∧ h.owner (slot c.token) = some i
  held : h.ledger.active = true → ∀ k, (h.ledger.openTokens k).token ≠ 0 → ∃ (i : ℕ) (c : Call), h.calls[i]? = some c ∧
    c.epoch = h.epoch ∧ c.ended = false ∧ c.token = (h.ledger.openTokens k).token ∧ k = slot c.token

lemma inv_start : Inv start where
  numbers := ⟨fun _ hc => (by cases hc), fun _ hc => (by cases hc), fun _ _ _ _ hi => (by simp [start] at hi)⟩
  holds := fun hactive => by cases hactive
  held := fun hactive => by cases hactive

variable (hi : Inv h)
include hi

lemma Inv.congr (hactive : l.active = true → h.ledger.active = true) (hnext : h.ledger.nextToken ≤ l.nextToken)
    (hslots : l.active = true → l.openTokens = h.ledger.openTokens) : Inv { h with ledger := l } where
  numbers := hi.numbers.mono hnext
  holds := fun ha => by
    dsimp only at ha ⊢
    rw [hslots ha]
    exact hi.holds (hactive ha)
  held := fun ha => by
    dsimp only at ha ⊢
    rw [hslots ha]
    exact hi.held (hactive ha)

lemma Inv.same (hs : SameTokens h.ledger l) : Inv { h with ledger := l } :=
  hi.congr (fun ha => hs.active ▸ ha) (UInt64.le_of_eq hs.next.symm) fun _ => hs.slots

lemma Inv.begun {result : UInt64 × Ledger} (hb : Begins h.ledger result) : Inv (begun h result) := by
  cases hb with
  | fails hactive hnext hslots =>
    rw [Tokens.begun, if_pos rfl]
    exact hi.congr (fun ha => hactive ▸ ha) hnext fun _ => hslots
  | @enters l' entry hactive hactive' hmax hfree hentry hnext hslots =>
    rw [Tokens.begun, if_neg (succ_ne_zero hmax)]
    constructor
    case numbers =>
      dsimp only
      rw [hnext]
      exact hi.numbers.begin hmax
    case holds =>
      intro _ i c hci hc hopen
      dsimp only at hc ⊢
      rw [hslots]
      rcases getElem?_snoc_cases hci with hci | ⟨rfl, rfl⟩
      · obtain ⟨hslot, howner⟩ := hi.holds hactive i c hci hc hopen
        -- the slot of the new token was free
        have hother : slot c.token ≠ slot (h.ledger.nextToken + 1) := by
          intro hsame
          rw [hsame, hfree] at hslot
          exact (hi.numbers.counted c (mem_of_getElem? hci) hc).1 hslot.symm
        rw [update_of_ne hother, update_of_ne hother]
        exact ⟨hslot, howner⟩
      · rw [update_self, update_self]
        exact ⟨hentry, rfl⟩
    case held =>
      intro _ k hk
      dsimp only at hk ⊢
      rw [hslots] at hk ⊢
      by_cases hsame : k = slot (h.ledger.nextToken + 1)
      · subst hsame
        rw [update_self]
        exact ⟨h.calls.length, _, getElem?_concat_length, rfl, rfl, hentry.symm, rfl⟩
      · rw [update_of_ne hsame] at hk ⊢
        obtain ⟨i, c, hci, hrest⟩ := hi.held hactive k hk
        have hlt : i < h.calls.length := (List.getElem?_eq_some_iff.1 hci).1
        exact ⟨i, c, (getElem?_append_left hlt).trans hci, hrest⟩

/-! ## Ends -/

section

variable (hcall : h.calls[i]? = some call)
include hcall

lemma Inv.endRefused (hover : ¬ Running h call) (e : LedgerError) :
    Inv { h with ledger := h.ledger.fail e, calls := markEnded h.calls i call } where
  numbers := hi.numbers.ended hcall
  holds := by
    intro hactive j d hd hepoch hopen
    obtain ⟨c, hc, -, -, hsame⟩ := markEnded_origin hcall hd
    obtain ⟨-, rfl⟩ := hsame hopen
    exact hi.holds hactive j c hc hepoch hopen
  held := by
    intro hactive k hk
    obtain ⟨j, c, hc, hepoch, hrest⟩ := hi.held hactive k hk
    have hji : j ≠ i := by
      rintro rfl
      rw [hcall] at hc
      cases hc
      exact hover ⟨hactive, hepoch⟩
    exact ⟨j, c, markEnded_other hji hc, hepoch, hrest⟩

lemma Inv.endClosed (hrun : Running h call) (hopen : call.ended = false) (hnext : l.nextToken = h.ledger.nextToken)
    (hslots : l.openTokens = update h.ledger.openTokens (slot call.token) {}) : Inv { h with
      ledger := l
      calls := markEnded h.calls i call
      owner := update h.owner (slot call.token) none } := by
  obtain ⟨hactive, hepoch⟩ := hrun
  obtain ⟨hfound, -⟩ := hi.holds hactive i call hcall hepoch hopen
  constructor
  case numbers =>
    dsimp only
    rw [hnext]
    exact hi.numbers.ended hcall
  case holds =>
    intro _ j d hd hd' hop
    obtain ⟨c, hc, -, -, hsame⟩ := markEnded_origin hcall hd
    obtain ⟨hji, rfl⟩ := hsame hop
    obtain ⟨hheld, howner⟩ := hi.holds hactive j c hc hd' hop
    -- another open call of this decode span has another slot
    have hne : slot c.token ≠ slot call.token := by
      intro hslot
      rw [hslot, hfound] at hheld
      exact hji (hi.numbers.distinct j i c call hc hcall hd' hepoch hheld.symm)
    dsimp only
    rw [hslots, update_of_ne hne, update_of_ne hne]
    exact ⟨hheld, howner⟩
  case held =>
    intro _ k hk
    dsimp only at hk ⊢
    rw [hslots] at hk ⊢
    by_cases hsame : k = slot call.token
    · subst hsame
      rw [update_self] at hk
      exact absurd rfl hk
    · rw [update_of_ne hsame] at hk ⊢
      obtain ⟨j, c, hc, he, hop, htoken, hslot⟩ := hi.held hactive k hk
      have hji : j ≠ i := by
        rintro rfl
        rw [hcall] at hc
        cases hc
        exact hsame hslot
      exact ⟨j, c, markEnded_other hji hc, he, hop, htoken, hslot⟩

lemma spanEnd_cases
    (hc : NoNamesake h (.spanEnd i clockNs)) : Running h call ∧ call.ended = false ∧
        (spanEndLocked h.ledger call.token clockNs).2.nextToken = h.ledger.nextToken ∧
        ClosesOwn h i call (spanEndLocked h.ledger call.token clockNs) ∨
      ¬ Running h call ∧ Refused h (spanEndLocked h.ledger call.token clockNs) := by
  obtain ⟨hclock, hopen, hname⟩ := hc call hcall
  by_cases hrun : Running h call
  · obtain ⟨hactive, hepoch⟩ := hrun
    obtain ⟨hfound, howner⟩ := hi.holds hactive i call hcall hepoch hopen
    have htoken := (hi.numbers.counted call (mem_of_getElem? hcall) hepoch).1
    obtain ⟨hok, -, hnext, hslots⟩ := spanEndLocked_closes hactive htoken hfound hclock
    exact .inl ⟨⟨hactive, hepoch⟩, hopen, hnext, hok, howner, hslots⟩
  · right
    refine ⟨hrun, spanEndLocked_refused clockNs fun hactive htoken hfound => ?_⟩
    -- the slot would be held by an open call with the same number
    have hepoch : call.epoch ≠ h.epoch := fun he => hrun ⟨hactive, he⟩
    obtain ⟨j, other, hj, he, hop, hsame, -⟩ := hi.held hactive (slot call.token) (by rw [hfound]; exact htoken)
    rw [hfound] at hsame
    have := hname hepoch other (mem_of_getElem? hj) he hsame
    rw [hop] at this
    cases this

lemma Inv.spanEnded (hc : NoNamesake h (.spanEnd i clockNs)) : Inv (spanEnded h i call clockNs) := by
  unfold Tokens.spanEnded
  rcases spanEnd_cases hi hcall hc with ⟨hrun, hopen, hnext, hok, -, hslots⟩ | ⟨hover, hrefused, e, hfail⟩
  · dsimp only
    rw [if_pos hok]
    exact hi.endClosed hcall hrun hopen hnext hslots
  · dsimp only
    rw [if_neg hrefused, hfail]
    exact hi.endRefused hcall hover e

end

lemma Inv.decodeBegun (caseEpoch clockNs : UInt64) : Inv (decodeBegun h caseEpoch clockNs) := by
  unfold Tokens.decodeBegun decodeBegin
  dsimp only
  by_cases hactive : h.ledger.active = true
  · rw [if_pos (.inl hactive), if_pos hactive]
    exact hi.same ⟨rfl, rfl, rfl⟩
  · by_cases hz : caseEpoch = 0
    · rw [if_pos (.inr hz), if_neg hactive, if_pos hz]
      exact hi.same ⟨rfl, rfl, rfl⟩
    · rw [if_neg (by simp [hactive, hz]), if_neg hactive, if_neg hz]
      have hnone : ∀ c ∈ h.calls, c.epoch ≠ h.epoch + 1 := fun c hc he => by
        have := hi.numbers.past c hc
        omega
      have hnone' : ∀ (i : ℕ) (c : Call), h.calls[i]? = some c → c.epoch ≠ h.epoch + 1 :=
        fun i c hc => hnone c (mem_of_getElem? hc)
      have hfree : ∀ k, ((opened caseEpoch clockNs).openTokens k).token = 0 := by
        intro k
        unfold opened
        split_ifs <;> rfl
      constructor
      case numbers =>
        exact ⟨fun c hc => (hi.numbers.past c hc).trans (Nat.le_succ _), fun c hc he => absurd he (hnone c hc),
          fun i j c d hci _ hc _ _ => absurd hc (hnone' i c hci)⟩
      case holds => exact fun _ i c hci hc _ => absurd hc (hnone' i c hci)
      case held => exact fun _ k hk => absurd (hfree k) hk

/-- A step whose end meets the condition keeps the calls and the slots together. -/
lemma Inv.step (o : Op) (hc : NoNamesake h o) : Inv (step h o) := by
  cases o with
  | decodeBegin caseEpoch clockNs => exact hi.decodeBegun caseEpoch clockNs
  | decodeEnd caseEpoch clockNs =>
    obtain ⟨hnext, hoff | hsame⟩ := decodeEnd_tokens h.ledger caseEpoch clockNs
    · have hclosed : ∀ {p : Prop}, (decodeEnd h.ledger caseEpoch clockNs).2.active = true → p := fun ha => by
        rw [hoff] at ha
        cases ha
      exact hi.congr hclosed (UInt64.le_of_eq hnext.symm) hclosed
    · exact hi.same hsame
  | spanBegin r clockNs => exact hi.begun (spanBeginLocked_begins h.ledger r clockNs)
  | callBegin symbol command callId clockNs =>
    exact hi.begun (cudaCallBegin_begins h.ledger symbol command callId clockNs)
  | spanEnd i clockNs =>
    simp only [Tokens.step]
    cases hcall : h.calls[i]? with
    | none => exact hi
    | some call => exact hi.spanEnded hcall hc
  | statusPolls command pollCount => exact hi.same (commandStatusPolls_same h.ledger command pollCount)

lemma endsOwnSpan_of_inv (o : Op) (hc : NoNamesake h o) : EndsOwnSpan h o := by
  cases o with
  | spanEnd i clockNs =>
    intro call hcall
    rcases spanEnd_cases hi hcall hc with ⟨-, -, -, hcloses⟩ | hrefused
    · exact .inl hcloses
    · exact .inr hrefused
  | _ => trivial

omit hi

/-- In such runs every end closes its own call's span, or changes no span. -/
theorem tokens_end_own_span (ops : List Op) (hc : AllSteps step NoNamesake start ops) :
    AllSteps step EndsOwnSpan start ops :=
  allSteps_of_inv (fun _ o hi h => hi.step o h) (fun _ o hi h => endsOwnSpan_of_inv hi o h) inv_start hc

theorem tokens_end_own_span_crossing : AllSteps step EndsOwnSpan start
      [.decodeBegin 1 10, .callBegin [] 1 7 20, .decodeEnd 1 30, .decodeBegin 2 40,
        .spanBegin ⟨1, 0, 0, 0xFFFFFFFF, "llama", []⟩ 50, .spanEnd 1 55, .spanEnd 0 60] :=
  tokens_end_own_span _ (by decide)

end CxlMemSim.Guest.Observation.Tokens
