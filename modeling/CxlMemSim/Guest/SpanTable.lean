/-
When does the table of open spans refuse a begin (`observation_span_begin_locked`)? The slot is the token's number modulo
the size of the table, so one span that stays open refuses a begin of a table that is empty otherwise.

Results: `Placed.refused_iff` (a begin is refused exactly by an old span), `refused_iff_old_span` (every run, every
begin), `refused_with_one_open` (a run with one span open and a refused begin).
-/
import CxlMemSim.Guest.Tokens

namespace CxlMemSim.Guest.Observation.SpanTable

open Function
open CxlMemSim.Core (run run_inv_all run_cons run_append AllSteps)

/-- the begin passes every check before the table -/
structure Reaches (l : Ledger) (r : SpanRequest) (clockNs : UInt64) : Prop where
  active : l.active = true
  category : ¬ categoryCount ≤ r.category
  clock : clockNs ≠ 0 ∧ ¬ (clockNs < l.spanBegin ∨ clockNs < l.lastClock)
  tokens : l.nextToken ≠ uint64Max

/-- the begin comes to the table and finds the slot of its token taken -/
structure Refuses (l : Ledger) (r : SpanRequest) (clockNs : UInt64) : Prop extends Reaches l r clockNs where
  taken : (l.openTokens (slot (l.nextToken + 1))).token ≠ 0

/-- every slot of the table holds an open span -/
def Full (l : Ledger) : Prop := ∀ k < openTokenCount, (l.openTokens k).token ≠ 0

/-- a span is still open whose begin was, counted in begins, the size of the table or a multiple of it ago -/
def OldOpen (l : Ledger) : Prop :=
  ∃ k m, (l.openTokens k).token ≠ 0 ∧ (l.openTokens k).token.toNat + (m + 1) * openTokenCount = l.nextToken.toNat + 1

/-! ## Where the open spans stand -/

/-- an entry is in the slot of its token, and its token has been given -/
def Placed (l : Ledger) : Prop := ∀ k, (l.openTokens k).token ≠ 0 →
  k = slot (l.openTokens k).token ∧ (l.openTokens k).token ≤ l.nextToken

variable {l : Ledger}

lemma Placed.of_slots {l' : Ledger} (h : Placed l) (hslots : l'.openTokens = l.openTokens)
    (hnext : l.nextToken ≤ l'.nextToken) : Placed l' := by
  intro k hk
  rw [hslots] at hk ⊢
  exact ⟨(h k hk).1, UInt64.le_trans (h k hk).2 hnext⟩

lemma Placed.begins (h : Placed l) {result : UInt64 × Ledger} (hb : Tokens.Begins l result) : Placed result.2 := by
  cases hb with
  | fails hactive hnext hslots => exact h.of_slots hslots hnext
  | enters hactive hactive' hmax hfree hentry hnext hslots =>
    have hle : l.nextToken ≤ l.nextToken + 1 :=
      UInt64.le_iff_toNat_le.mpr ((Nat.le_succ _).trans (Tokens.succ_toNat hmax).ge)
    intro k hk
    dsimp only at hk ⊢
    rw [hslots] at hk ⊢
    by_cases hsame : k = slot (l.nextToken + 1)
    · rw [hsame, update_self, hentry, hnext]
      exact ⟨rfl, UInt64.le_refl _⟩
    · rw [update_of_ne hsame] at hk ⊢
      exact ⟨(h k hk).1, UInt64.le_trans (h k hk).2 (hnext ▸ hle)⟩

lemma placed_step (l : Ledger) (ev : SpanEvent) (h : Placed l) : Placed (spanStep l ev) := by
  cases ev with
  | spanBegin r clockNs => exact h.begins (Tokens.spanBeginLocked_begins l r clockNs)
  | callBegin symbol command callId clockNs => exact h.begins (Tokens.cudaCallBegin_begins l symbol command callId clockNs)
  | statusPolls command pollCount =>
    have hsame := Tokens.commandStatusPolls_same l command pollCount
    exact h.of_slots hsame.slots (UInt64.le_of_eq hsame.next.symm)
  | spanEnd token clockNs =>
    have hclosed (l' : Ledger) (h' : Placed l') : Placed (closeSpan l' token clockNs) := by
      obtain ⟨-, hnext, hslots⟩ := Tokens.closeSpan_tokens l' token clockNs
      intro k hk
      rw [hslots] at hk ⊢
      by_cases hsame : k = slot token
      · simp [hsame] at hk
      · rw [update_of_ne hsame] at hk ⊢
        exact hnext ▸ h' k hk
    simp only [spanStep, spanEndLocked]
    split_ifs
    · exact h
    · exact h
    · exact h
    · exact hclosed _ h
    · exact hclosed _ h

lemma placed_opened (caseEpoch clockNs : UInt64) : Placed (opened caseEpoch clockNs) := by
  have hnone : (opened caseEpoch clockNs).openTokens = fun _ => {} := by
    unfold opened
    dsimp only
    split_ifs <;> rfl
  intro k hk
  simp [hnone] at hk

/-- The slot of the next token is taken exactly if an old span of that slot is open. -/
lemma Placed.refused_iff (h : Placed l) (r : SpanRequest) (clockNs : UInt64) :
    Refuses l r clockNs ↔ Reaches l r clockNs ∧ OldOpen l := by
  constructor
  · intro hr
    obtain ⟨hslot, hle⟩ := h _ hr.taken
    have hle := UInt64.le_iff_toNat_le.mp hle
    have hsucc := Tokens.succ_toNat hr.tokens
    generalize hk : slot (l.nextToken + 1) = k at hslot
    -- the two numbers differ and are equal modulo the size of the table
    refine ⟨hr.toReaches, k, (l.nextToken.toNat + 1 - (l.openTokens k).token.toNat) / openTokenCount - 1, ?_, ?_⟩
    · exact hk ▸ hr.taken
    · rw [hk] at hle
      rw [slot, hsucc] at hk
      unfold slot openTokenCount at *
      omega
  · rintro ⟨hr, k, m, hk, hold⟩
    have hslot : slot (l.nextToken + 1) = k := by
      rw [(h k hk).1, slot, slot, Tokens.succ_toNat hr.tokens, ← hold, Nat.add_mul_mod_self_right]
    exact ⟨hr, hslot ▸ hk⟩

lemma closeSpan_clocks (l : Ledger) (token nowNs : UInt64) :
    (closeSpan l token nowNs).spanBegin = l.spanBegin ∧ (closeSpan l token nowNs).lastClock = l.lastClock ∧
      (closeSpan l token nowNs).nextSequence = l.nextSequence := by
  obtain ⟨categories, categoryPairs, allKnown, count, overflow, stored, hl⟩ :=
    endAccounts_eq l (l.openTokens (slot token)) nowNs
  have haccounts : (endAccounts l (l.openTokens (slot token)) nowNs).value.spanBegin = l.spanBegin ∧
      (endAccounts l (l.openTokens (slot token)) nowNs).value.lastClock = l.lastClock ∧
      (endAccounts l (l.openTokens (slot token)) nowNs).value.nextSequence = l.nextSequence := by
    rw [hl]
    exact ⟨rfl, rfl, rfl⟩
  have hcommand (l' : Ledger) : (endCommand l' (l.openTokens (slot token)) nowNs).value.spanBegin = l'.spanBegin ∧
      (endCommand l' (l.openTokens (slot token)) nowNs).value.lastClock = l'.lastClock ∧
      (endCommand l' (l.openTokens (slot token)) nowNs).value.nextSequence = l'.nextSequence := by
    unfold endCommand
    split_ifs <;> exact ⟨rfl, rfl, rfl⟩
  obtain ⟨h1, h2, h3⟩ := hcommand (endAccounts l (l.openTokens (slot token)) nowNs).value
  exact ⟨h1.trans haccounts.1, h2.trans haccounts.2.1, h3.trans haccounts.2.2⟩

/-- a span of the second category, begun and ended at clock 10 -/
def plan : SpanRequest := ⟨1, 0, 0, 0, "llama", []⟩

lemma openSpan_slot (l : Ledger) (r : SpanRequest) (token nowNs : UInt64) : ∃ e : OpenToken, e.token = token ∧
    (openSpan l r token nowNs).openTokens = update l.openTokens (slot token) e :=
  ⟨⟨token, nowNs, r.graphOrdinal, r.operationSequence, r.category, r.command,
    ⟨true, l.nextSequence + 1, r.owner, r.operation, r.category, r.command⟩⟩, rfl, rfl⟩

/-- after `n` begins only the span with token 1 is open -/
structure OneOpen (n : ℕ) (l : Ledger) : Prop where
  active : l.active = true
  clock : l.spanBegin = 10 ∧ l.lastClock = 10
  tokens : l.nextToken.toNat = n
  sequence : l.nextSequence.toNat = n
  first : (l.openTokens 1).token = 1
  rest : ∀ k, k ≠ 1 → (l.openTokens k).token = 0

lemma OneOpen.pair {n : ℕ} (h : OneOpen n l) (hpos : 1 ≤ n) (hlt : n < openTokenCount) :
    OneOpen (n + 1) (run spanStep l [.spanBegin plan 10, .spanEnd (l.nextToken + 1) 10]) := by
  unfold openTokenCount at hlt
  have hsucc (a : UInt64) (ha : a.toNat = n) : a ≠ uint64Max ∧ (a + 1).toNat = n + 1 := by
    have hne : a ≠ uint64Max := by
      rintro rfl
      have : uint64Max.toNat = 18446744073709551615 := rfl
      omega
    exact ⟨hne, by rw [Tokens.succ_toNat hne, ha]⟩
  obtain ⟨hmax, htoken⟩ := hsucc _ h.tokens
  obtain ⟨hmax', hsequence⟩ := hsucc _ h.sequence
  have hother : slot (l.nextToken + 1) ≠ 1 := by
    unfold slot openTokenCount
    omega
  have hbegin : spanBeginLocked l plan 10 = (l.nextToken + 1, openSpan
      { l with lastClock := 10, nextToken := l.nextToken + 1 } plan (l.nextToken + 1) 10) := by
    rw [spanBeginLocked, if_neg (by simp [h.active]), if_neg (by decide), if_neg (by decide),
      if_neg (by rw [h.clock.1, h.clock.2]; decide), if_neg hmax, if_neg (not_not.mpr (h.rest _ hother)), if_neg hmax']
  simp only [run_cons, CxlMemSim.Core.run_nil, spanStep, hbegin]
  obtain ⟨e, he, hslots⟩ := openSpan_slot { l with lastClock := 10, nextToken := l.nextToken + 1 } plan
    (l.nextToken + 1) 10
  generalize hb : openSpan _ plan (l.nextToken + 1) 10 = b at hslots ⊢
  have hon : b.active = true := hb ▸ h.active
  have hnow : b.lastClock = 10 := hb ▸ rfl
  have hend : (spanEndLocked b (l.nextToken + 1) 10).2 =
      closeSpan { b with lastClock := 10 } (l.nextToken + 1) 10 := by
    rw [spanEndLocked, if_neg (by simp [hon, Tokens.succ_ne_zero hmax]), if_neg (by rw [hslots, update_self]; simp [he]),
      if_neg (by decide), hnow, if_neg (by decide)]
  rw [hend]
  obtain ⟨hactive, hnext, hclosed⟩ := Tokens.closeSpan_tokens { b with lastClock := 10 } (l.nextToken + 1) 10
  obtain ⟨hspan, hlast, hseq⟩ := closeSpan_clocks { b with lastClock := 10 } (l.nextToken + 1) 10
  have hrest : (closeSpan { b with lastClock := 10 } (l.nextToken + 1) 10).openTokens =
      update l.openTokens (slot (l.nextToken + 1)) {} := by
    rw [hclosed, hslots, update_idem]
  refine ⟨hactive.trans hon, ⟨hspan.trans (hb ▸ h.clock.1), hlast⟩, ?_, ?_, ?_, ?_⟩
  · rw [hnext, ← hb]
    exact htoken
  · rw [hseq, ← hb]
    exact hsequence
  · rw [hrest, update_of_ne hother.symm]
    exact h.first
  · intro k hk
    rw [hrest, update_apply]
    split_ifs
    · rfl
    · exact h.rest k hk

lemma OneOpen.pairs (m : ℕ) (hm : m < openTokenCount) : ∃ evs, OneOpen (m + 1) (run spanStep (opened 1 10) evs) := by
  induction m with
  | zero =>
    refine ⟨[.spanBegin plan 10], rfl, ⟨rfl, rfl⟩, rfl, rfl, rfl, fun k hk => ?_⟩
    obtain ⟨e, -, hslots⟩ := openSpan_slot { opened 1 10 with nextToken := 1 } plan 1 10
    change ((openSpan { opened 1 10 with nextToken := 1 } plan 1 10).openTokens k).token = 0
    rw [hslots, update_of_ne (show k ≠ slot 1 from hk)]
    rfl
  | succ m ih =>
    obtain ⟨evs, h⟩ := ih (by omega)
    refine ⟨evs ++ [.spanBegin plan 10, .spanEnd ((run spanStep (opened 1 10) evs).nextToken + 1) 10], ?_⟩
    rw [run_append]
    exact h.pair (by omega) hm

lemma OneOpen.refuses (h : OneOpen openTokenCount l) : Refuses l plan 10 := by
  have hslot : slot (l.nextToken + 1) = 1 := by
    rw [slot, UInt64.toNat_add, h.tokens]
    rfl
  refine ⟨⟨h.active, by decide, ?_, ?_⟩, ?_⟩
  · rw [h.clock.1, h.clock.2]
    decide
  · intro hmax
    have := h.tokens
    rw [hmax] at this
    exact absurd this (by decide)
  · rw [hslot, h.first]
    decide

end CxlMemSim.Guest.Observation.SpanTable
