/-
Can the request/response path deadlock? A worker locks a pending request's mutex while it holds `pending_mutex_`; a
caller whose wait has timed out locks them in the other order.

Model: taking and releasing a mutex, waiting and notifying are single steps. A waiting caller may come back at any
moment, `patience` times before its time is up. The messages are left out, and the handler returns.
-/
import CxlMemSim.Core.Fair
import CxlMemSim.Core.Run

namespace CxlMemSim.Dist.Deadlock

open CxlMemSim.Core List Function

inductive Lock where
  | table
  | entry (k : ℕ)
deriving DecidableEq, Repr

inductive Phase where
  | fresh
  /- `send_message_wait_response` -/
  | called (id patience : ℕ) (sent : Bool)
  | inserting (id patience : ℕ) (sent : Bool)
  | sending (id patience : ℕ) (sent : Bool)
  | dropping (id : ℕ)
  | erasing (id : ℕ)
  | toWait (id patience : ℕ)
  | first (id patience : ℕ)
  | waiting (id patience : ℕ)
  | woken (id patience : ℕ)
  | testing (id patience : ℕ)
  | timedOut (id : ℕ)
  | givingUp (id : ℕ)
  | gaveUp
  | leaving (id : ℕ)
  | cleaning (id : ℕ)
  | returned (ok : Bool)
  /- `process_message` -/
  | arrived (id : ℕ)
  | looking (id : ℕ)
  | found (k : ℕ)
  | marking (k : ℕ)
  | marked
  | handling
  | processed
deriving DecidableEq, Repr

structure State where
  table : ℕ → Option ℕ
  completed : ℕ → Bool
  owner : Lock → Option ℕ
  phase : ℕ → Phase

def State.start : State := ⟨fun _ => none, fun _ => false, fun _ => none, fun _ => .fresh⟩

/-! ## Steps -/

inductive Op where
  | call (x id patience : ℕ) (sent : Bool)
  | receive (x id : ℕ)
  | move (x : ℕ)
deriving DecidableEq, Repr

variable (s : State)

def State.goto (x : ℕ) (p : Phase) : State := { s with phase := update s.phase x p }

lemma State.goto_self (x : ℕ) (p : Phase) : (s.goto x p).phase x = p := by simp [State.goto]

lemma State.goto_others {x y : ℕ} (h : x ≠ y) (s : State) (p : Phase) : (s.goto x p).phase y = s.phase y := by
  simp [State.goto, h.symm]

def State.acquire (x : ℕ) (l : Lock) (p : Phase) : State :=
  if s.owner l = none then { s with owner := update s.owner l (some x) }.goto x p else s

def State.release (l : Lock) : State := { s with owner := update s.owner l none }

def State.setEntry (id : ℕ) (k : Option ℕ) : State := { s with table := update s.table id k }

def State.complete (k : ℕ) : State := { s with completed := update s.completed k true }

def move (x : ℕ) : State :=
  match s.phase x with
  | .fresh => s
  | .called id b sent => s.acquire x .table (.inserting id b sent)
  | .inserting id b sent => ((s.setEntry id (some x)).release .table).goto x (.sending id b sent)
  | .sending id b sent => s.goto x (if sent then .toWait id b else .dropping id)
  | .dropping id => s.acquire x .table (.erasing id)
  | .erasing id => ((s.setEntry id none).release .table).goto x (.returned false)
  | .toWait id b => s.acquire x (.entry x) (.first id b)
  -- the predicate is tested before the first wait
  | .first id b => (s.release (.entry x)).goto x (if s.completed x then .leaving id else .waiting id b)
  | .waiting id b => s.goto x (.woken id b)
  | .woken id b => s.acquire x (.entry x) (.testing id b)
  | .testing id b =>
    if s.completed x then (s.release (.entry x)).goto x (.leaving id)
    else
      match b with
      | 0 => s.goto x (.timedOut id)
      | b + 1 => (s.release (.entry x)).goto x (.waiting id b)
  -- `pending_lock` is taken while `lock` is still held
  | .timedOut id => s.acquire x .table (.givingUp id)
  | .givingUp id => ((s.setEntry id none).release .table).goto x .gaveUp
  | .gaveUp => (s.release (.entry x)).goto x (.returned false)
  | .leaving id => s.acquire x .table (.cleaning id)
  | .cleaning id => ((s.setEntry id none).release .table).goto x (.returned true)
  | .returned _ => s
  | .arrived id => s.acquire x .table (.looking id)
  | .looking id =>
    match s.table id with
    | some k => s.goto x (.found k)
    | none => (s.release .table).goto x .handling
  | .found k => s.acquire x (.entry k) (.marking k)
  | .marking k => ((s.complete k).release (.entry k)).goto x .marked
  | .marked => (s.release .table).goto x .processed
  | .handling => s.goto x .processed
  | .processed => s

def step : Op → State
  | .call x id b sent => if s.phase x = .fresh then s.goto x (.called id b sent) else s
  | .receive x id => if s.phase x = .fresh then s.goto x (.arrived id) else s
  | .move x => move s x

/-! ## Statement -/

def Enabled (x : ℕ) : Prop := move s x ≠ s

def Phase.locks (x : ℕ) : Phase → List Lock
  | .inserting _ _ _ => [.table]
  | .erasing _ => [.table]
  | .first _ _ => [.entry x]
  | .testing _ _ => [.entry x]
  | .timedOut _ => [.entry x]
  | .givingUp _ => [.table, .entry x]
  | .gaveUp => [.entry x]
  | .cleaning _ => [.table]
  | .looking _ => [.table]
  | .found _ => [.table]
  | .marking k => [.table, .entry k]
  | .marked => [.table]
  | _ => []

def Phase.wants (x : ℕ) : Phase → Option Lock
  | .called _ _ _ => some .table
  | .dropping _ => some .table
  | .toWait _ _ => some (.entry x)
  | .woken _ _ => some (.entry x)
  | .timedOut _ => some .table
  | .leaving _ => some .table
  | .arrived _ => some .table
  | .found k => some (.entry k)
  | _ => none

def Phase.active : Phase → Bool
  | .fresh => false
  | .returned _ => false
  | .processed => false
  | _ => true

def State.AtEntry (y k : ℕ) : Prop := s.phase y = .found k ∨ ∃ id, s.phase y = .looking id ∧ s.table id = some k

/-- no call times out while a worker is at its entry, and no worker takes the table for a message whose call is timing
out -/
def NoRace : Op → Prop
  | .move x =>
    (∀ id, s.phase x = .testing id 0 → s.completed x = false → ∀ y, ¬ s.AtEntry y x) ∧
    ∀ id k, s.phase x = .arrived id → s.owner .table = none → s.table id = some k → ∀ id', s.phase k ≠ .timedOut id'
  | _ => True

/-! ## Invariant -/

structure Inv (s : State) : Prop where
  owned : ∀ l x, s.owner l = some x ↔ l ∈ (s.phase x).locks x
  apart : ∀ y k, s.AtEntry y k → ∀ id, s.phase k ≠ .timedOut id

lemma inv_start : Inv State.start where
  owned l x := by simp [State.start, Phase.locks]
  apart y k h := by rcases h with h | ⟨id, h, -⟩ <;> cases h

def Phase.rank : Phase → ℕ
  | .fresh => 0
  | .called _ b _ => 4 * b + 13
  | .inserting _ b _ => 4 * b + 12
  | .sending _ b _ => 4 * b + 11
  | .toWait _ b => 4 * b + 10
  | .first _ b => 4 * b + 9
  | .waiting _ b => 4 * b + 8
  | .woken _ b => 4 * b + 7
  | .testing _ b => 4 * b + 6
  | .timedOut _ => 5
  | .givingUp _ => 4
  | .gaveUp => 3
  | .dropping _ => 2
  | .erasing _ => 1
  | .leaving _ => 2
  | .cleaning _ => 1
  | .returned _ => 0
  | .arrived _ => 6
  | .looking _ => 5
  | .found _ => 4
  | .marking _ => 3
  | .marked => 2
  | .handling => 1
  | .processed => 0

/-- a thread that moves from `p` goes to `p'`: it gives up what it no longer holds and owns what it holds -/
structure Moves (s s' : State) (x : ℕ) (p' : Phase) : Prop where
  phase : s'.phase = update s.phase x p'
  rank : p'.rank < (s.phase x).rank
  owner : ∀ l, s'.owner l = if l ∈ p'.locks x then some x else if l ∈ (s.phase x).locks x then none else s.owner l
  gained : ∀ l ∈ p'.locks x, l ∈ (s.phase x).locks x ∨ s.owner l = none
  table : s'.table = s.table ∨ (Lock.table ∈ (s.phase x).locks x ∧ ∀ id, p' ≠ .looking id ∧ ∀ k, p' ≠ .found k)

def Stuck (x : ℕ) : Prop := (s.phase x).active = false ∨ ∃ l, (s.phase x).wants x = some l ∧ s.owner l ≠ none

section Moving

variable {s s1 : State} {x : ℕ} {l : Lock} {p' : Phase}

lemma moves_acquire (h : Inv s) (hfree : s.owner l = none) (hrank : p'.rank < (s.phase x).rank)
    (hlocks : ∀ l', l' ∈ p'.locks x ↔ l' = l ∨ l' ∈ (s.phase x).locks x) : Moves s (s.acquire x l p') x p' := by
  rw [State.acquire, if_pos hfree]
  refine ⟨rfl, hrank, fun l' => ?_, fun l' hl' => ?_, .inl rfl⟩
  · change update s.owner l (some x) l' = _
    by_cases hl : l' = l
    · rw [hl, update_self, if_pos ((hlocks l).mpr (.inl rfl))]
    · rw [update_of_ne hl]
      by_cases hheld : l' ∈ (s.phase x).locks x
      · rw [if_pos ((hlocks l').mpr (.inr hheld))]
        exact (h.owned l' x).mpr hheld
      · rw [if_neg (fun hin => ((hlocks l').mp hin).elim hl hheld), if_neg hheld]
  · rcases (hlocks l').mp hl' with rfl | hheld
    · exact .inr hfree
    · exact .inl hheld

lemma moves_goto (h : Inv s) (hrank : p'.rank < (s.phase x).rank := by simp [*, Phase.rank])
    (hlocks : p'.locks x = (s.phase x).locks x := by simp [*, Phase.locks]) : Moves s (s.goto x p') x p' := by
  refine ⟨rfl, hrank, fun l' => ?_, fun l' hl' => .inl (hlocks ▸ hl'), .inl rfl⟩
  rw [hlocks]
  split_ifs with hheld
  · exact (h.owned l' x).mpr hheld
  · rfl

lemma moves_release (h : Inv s)
    (htable : s1.table = s.table ∨ (Lock.table ∈ (s.phase x).locks x ∧ ∀ id, p' ≠ .looking id ∧ ∀ k, p' ≠ .found k))
    (hrank : p'.rank < (s.phase x).rank := by simp [*, Phase.rank])
    (hlocks : ∀ l', l' ∈ (s.phase x).locks x ↔ l' = l ∨ l' ∈ p'.locks x := by simp [*, Phase.locks])
    (hnot : l ∉ p'.locks x := by simp [*, Phase.locks]) (hphase : s1.phase = s.phase := by rfl)
    (howner : s1.owner = s.owner := by rfl) : Moves s ((s1.release l).goto x p') x p' := by
  refine ⟨?_, hrank, fun l' => ?_, fun l' hl' => .inl ((hlocks l').mpr (.inr hl')), htable⟩
  · change update s1.phase x p' = _
    rw [hphase]
  · change update s1.owner l none l' = _
    rw [howner]
    by_cases hl : l' = l
    · rw [hl, update_self, if_neg hnot, if_pos ((hlocks l).mpr (.inl rfl))]
    · rw [update_of_ne hl]
      split_ifs with hin hheld
      · exact (h.owned l' x).mpr ((hlocks l').mpr (.inr hin))
      · exact absurd (((hlocks l').mp hheld).resolve_left hl) hin
      · rfl

lemma acquire_spec (h : Inv s) (hwants : (s.phase x).wants x = some l) (hrank : p'.rank < (s.phase x).rank)
    (hlocks : ∀ l', l' ∈ p'.locks x ↔ l' = l ∨ l' ∈ (s.phase x).locks x) :
    (s.acquire x l p' = s ∧ Stuck s x) ∨ ∃ q, Moves s (s.acquire x l p') x q := by
  by_cases hfree : s.owner l = none
  · exact .inr ⟨p', moves_acquire h hfree hrank hlocks⟩
  · exact .inl ⟨if_neg hfree, .inr ⟨l, hwants, hfree⟩⟩

end Moving

/-- What a move does: nothing, if the thread is stuck, or it goes to a phase of a lower rank. -/
lemma move_spec {s : State} (h : Inv s) (x : ℕ) : (move s x = s ∧ Stuck s x) ∨ ∃ p', Moves s (move s x) x p' := by
  unfold move
  cases hp : s.phase x with
  | fresh | returned ok | processed => exact .inl ⟨rfl, .inl (by rw [hp]; rfl)⟩
  | called id b sent | dropping id | toWait id b | woken id b | leaving id | arrived id =>
    exact acquire_spec h (by rw [hp]; rfl) (by simp [hp, Phase.rank]) (by simp [hp, Phase.locks])
  | timedOut id | found k =>
    exact acquire_spec h (by rw [hp]; rfl) (by simp [hp, Phase.rank]) (by simp [hp, Phase.locks, or_comm])
  | inserting id b sent | erasing id | cleaning id | givingUp id =>
    exact .inr ⟨_, moves_release h (.inr ⟨by simp [hp, Phase.locks], by simp⟩)⟩
  | sending id b sent =>
    cases sent with
    | true | false => exact .inr ⟨_, moves_goto h⟩
  | first id b =>
    by_cases hc : s.completed x <;>
      exact .inr ⟨_, moves_release h (.inl rfl)⟩
  | waiting id b | handling => exact .inr ⟨_, moves_goto h⟩
  | testing id b =>
    dsimp only
    split_ifs with hc
    · exact .inr ⟨_, moves_release h (.inl rfl)⟩
    · cases b with
      | zero => exact .inr ⟨_, moves_goto h⟩
      | succ b => exact .inr ⟨_, moves_release h (.inl rfl) (by simp [hp, Phase.rank]; omega)⟩
  | gaveUp | marked => exact .inr ⟨_, moves_release h (.inl rfl)⟩
  | looking id =>
    dsimp only
    cases ht : s.table id with
    | some k => exact .inr ⟨_, moves_goto h⟩
    | none => exact .inr ⟨_, moves_release h (.inl rfl)⟩
  | marking k =>
    exact .inr ⟨_, moves_release h (.inl rfl) (by simp [hp, Phase.rank]) (by simp [hp, Phase.locks, or_comm])⟩

lemma enabled_of_moves {s : State} {x : ℕ} {p' : Phase} (h : Moves s (move s x) x p') : Enabled s x := by
  intro heq
  have hphase := congrFun h.phase x
  rw [heq, update_self] at hphase
  have hrank := h.rank
  rw [hphase] at hrank
  exact Nat.lt_irrefl _ hrank

lemma enabled_of_not_stuck {s : State} (h : Inv s) {x : ℕ} (hx : ¬ Stuck s x) : Enabled s x := by
  rcases move_spec h x with ⟨-, hstuck⟩ | ⟨p', hp'⟩
  · exact absurd hstuck hx
  · exact enabled_of_moves hp'

/-! ## How a thread comes to a phase -/

@[simp] lemma goto_phase (x : ℕ) (p : Phase) : (s.goto x p).phase x = p := update_self ..

variable {p q : Phase}

lemma acquire_phase {s : State} {x : ℕ} {l : Lock} (h : (s.acquire x l p).phase x = q)
    (hne : s.phase x ≠ q) : p = q ∧ s.owner l = none := by
  unfold State.acquire at h
  split_ifs at h with hfree
  · exact ⟨by simpa using h, hfree⟩
  · exact absurd h hne

/-- a call times out only with its patience used up and nothing come; an entry is found only under the table; no move
starts over -/
structure CameFrom (s : State) (x : ℕ) (q : Phase) : Prop where
  begun : q ≠ .fresh
  timedOut : ∀ id, q = .timedOut id → s.phase x = .testing id 0 ∧ s.completed x = false
  found : ∀ k, q = .found k → ∃ id, s.phase x = .looking id ∧ s.table id = some k
  looking : ∀ id, q = .looking id → s.phase x = .arrived id ∧ s.owner .table = none

lemma cameFrom_other {s : State} {x : ℕ} (hbegun : q ≠ .fresh := by simp)
    (htimedOut : ∀ id, q ≠ .timedOut id := by simp) (hfound : ∀ k, q ≠ .found k := by simp)
    (hlooking : ∀ id, q ≠ .looking id := by simp) : CameFrom s x q :=
  ⟨hbegun, fun id h => absurd h (htimedOut id), fun k h => absurd h (hfound k), fun id h => absurd h (hlooking id)⟩

lemma cameFrom_move {s : State} {x : ℕ} (h : (move s x).phase x = q) (hne : s.phase x ≠ q) : CameFrom s x q := by
  cases hp : s.phase x with
  | fresh | returned ok | processed =>
    simp only [move, hp] at h
    exact absurd (hp.trans h) hne
  | called id b sent | dropping id | toWait id b | woken id b | timedOut id | leaving id | found k =>
    simp only [move, hp] at h
    obtain ⟨rfl, -⟩ := acquire_phase h hne
    exact cameFrom_other
  | arrived id =>
    simp only [move, hp] at h
    obtain ⟨rfl, hfree⟩ := acquire_phase h hne
    refine ⟨by simp, by simp, by simp, fun id' h' => ?_⟩
    obtain rfl := Phase.looking.inj h'
    exact ⟨hp, hfree⟩
  | looking id =>
    simp only [move, hp] at h
    cases ht : s.table id with
    | none =>
      simp only [ht, goto_phase] at h
      subst h
      exact cameFrom_other
    | some k =>
      simp only [ht, goto_phase] at h
      subst h
      refine ⟨by simp, by simp, fun k' h' => ?_, by simp⟩
      obtain rfl := Phase.found.inj h'
      exact ⟨id, hp, ht⟩
  | testing id b =>
    simp only [move, hp] at h
    split_ifs at h with hc
    · simp only [goto_phase] at h
      subst h
      exact cameFrom_other
    · cases b with
      | zero =>
        simp only [goto_phase] at h
        subst h
        refine ⟨by simp, fun id' h' => ?_, by simp, by simp⟩
        obtain rfl := Phase.timedOut.inj h'
        exact ⟨hp, by simpa using hc⟩
      | succ b =>
        simp only [goto_phase] at h
        subst h
        exact cameFrom_other
  | sending id b sent =>
    simp only [move, hp, goto_phase] at h
    subst h
    cases sent <;> exact cameFrom_other
  | first id b =>
    simp only [move, hp, goto_phase] at h
    subst h
    cases s.completed x <;> exact cameFrom_other
  | inserting id b sent | erasing id | waiting id b | givingUp id | gaveUp | cleaning id | marking k | marked | handling =>
    simp only [move, hp, goto_phase] at h
    subst h
    exact cameFrom_other

lemma owned_move {s s' : State} {x : ℕ} {p' : Phase} (h : Inv s) (hm : Moves s s' x p') (l : Lock) (y : ℕ) :
    s'.owner l = some y ↔ l ∈ (s'.phase y).locks y := by
  rw [hm.owner, hm.phase]
  by_cases hy : y = x
  · subst hy
    rw [update_self]
    split_ifs with hnew hold
    · exact iff_of_true rfl hnew
    · exact iff_of_false (by simp) hnew
    · rw [h.owned]
      exact iff_of_false hold hnew
  · rw [update_of_ne hy]
    have hother : l ∈ (s.phase x).locks x → l ∉ (s.phase y).locks y := by
      intro hx hy'
      have heq := ((h.owned l x).mpr hx).symm.trans ((h.owned l y).mpr hy')
      exact hy (Option.some.inj heq).symm
    split_ifs with hnew hold
    · refine iff_of_false (fun heq => hy (Option.some.inj heq).symm) fun hy' => ?_
      rcases hm.gained l hnew with hheld | hfree
      · exact hother hheld hy'
      · rw [(h.owned l y).mpr hy'] at hfree
        cases hfree
    · exact iff_of_false (by simp) (hother hold)
    · exact h.owned l y

lemma apart_move {s : State} {x : ℕ} {p' : Phase} (h : Inv s) (hm : Moves s (move s x) x p')
    (hrace : NoRace s (.move x)) (y k : ℕ) (hat : (move s x).AtEntry y k) (id : ℕ) :
    (move s x).phase k ≠ .timedOut id := by
  intro hout
  have hnew : (move s x).phase x = p' := by rw [hm.phase, update_self]
  have hne : s.phase x ≠ p' := fun heq => Nat.lt_irrefl _ (heq ▸ hm.rank)
  have hcame := cameFrom_move hnew hne
  have hsame : ∀ z, z ≠ x → (move s x).phase z = s.phase z := fun z hz => by rw [hm.phase, update_of_ne hz]
  -- a worker that looks things up owns the table, so nobody else changes it
  have hback : ∀ z, z ≠ x → (move s x).AtEntry z k → s.AtEntry z k := by
    rintro z hz (hfound | ⟨id', hlooking, htable⟩)
    · exact .inl ((hsame z hz).symm.trans hfound)
    · have hlook : s.phase z = .looking id' := (hsame z hz).symm.trans hlooking
      rcases hm.table with heq | ⟨hx, -⟩
      · exact .inr ⟨id', hlook, by rw [← heq]; exact htable⟩
      · have hz' : Lock.table ∈ (s.phase z).locks z := by rw [hlook]; exact mem_singleton_self _
        exact absurd (Option.some.inj (((h.owned _ z).mpr hz').symm.trans ((h.owned _ x).mpr hx))) hz
  by_cases hk : k = x
  · subst hk
    obtain ⟨htesting, hc⟩ := hcame.timedOut id (hnew.symm.trans hout)
    have hyk : y ≠ k := by
      rintro rfl
      rcases hat with hfound | ⟨id', hlooking, -⟩
      · cases hout.symm.trans hfound
      · cases hout.symm.trans hlooking
    exact hrace.1 id htesting hc y (hback y hyk hat)
  · have hout' : s.phase k = .timedOut id := (hsame k hk).symm.trans hout
    by_cases hy : y = x
    · subst hy
      rcases hat with hfound | ⟨id', hlooking, htable⟩
      · obtain ⟨id', hlook, hentry⟩ := hcame.found k (hnew.symm.trans hfound)
        exact h.apart y k (.inr ⟨id', hlook, hentry⟩) id hout'
      · obtain ⟨harrived, hfree⟩ := hcame.looking id' (hnew.symm.trans hlooking)
        rcases hm.table with heq | ⟨-, hnot⟩
        · rw [heq] at htable
          exact hrace.2 id' k harrived hfree htable id hout'
        · exact (hnot id').1 (hnew.symm.trans hlooking)
    · exact h.apart y k (hback y hy hat) id hout'

lemma inv_begin {s : State} (h : Inv s) {x : ℕ} (hfresh : s.phase x = .fresh) (hlocks : p.locks x = [])
    (hother : ∀ id k, p ≠ .timedOut id ∧ p ≠ .found k ∧ p ≠ .looking id) : Inv (s.goto x p) where
  owned l y := by
    change s.owner l = some y ↔ l ∈ (update s.phase x p y).locks y
    by_cases hy : y = x
    · subst hy
      rw [update_self, hlocks, h.owned, hfresh]
      exact Iff.rfl
    · rw [update_of_ne hy]
      exact h.owned l y
  apart y k hat id hout := by
    have hphase : ∀ z, (s.goto x p).phase z = if z = x then p else s.phase z := fun z => by
      simp [State.goto, update_apply]
    rw [hphase] at hout
    split_ifs at hout with hk
    · exact (hother id 0).1 hout
    · refine h.apart y k ?_ id hout
      rcases hat with hfound | ⟨id', hlooking, htable⟩
      · rw [hphase] at hfound
        split_ifs at hfound with hy
        · exact absurd hfound (hother 0 k).2.1
        · exact .inl hfound
      · rw [hphase] at hlooking
        split_ifs at hlooking with hy
        · exact absurd hlooking (hother id' 0).2.2
        · exact .inr ⟨id', hlooking, htable⟩

lemma inv_step {s : State} (h : Inv s) (op : Op) (hrace : NoRace s op) : Inv (step s op) := by
  cases op with
  | call x id b sent | receive x id =>
    simp only [step]
    split_ifs with hfresh
    · exact inv_begin h hfresh rfl (by simp)
    · exact h
  | move x =>
    rcases move_spec h x with ⟨heq, -⟩ | ⟨p', hm⟩
    · simp only [step, heq]
      exact h
    · exact ⟨owned_move h hm, apart_move h hm hrace⟩

/-! ## Some thread can move -/

variable {s : State} {x y k : ℕ} {op : Op}

lemma Inv.enabled (h : Inv s) (hactive : (s.phase x).active = true) (hwants : (s.phase x).wants x = none) :
    Enabled s x := by
  refine enabled_of_not_stuck h ?_
  rintro (hidle | ⟨l, hl, -⟩)
  · rw [hactive] at hidle
    cases hidle
  · rw [hwants] at hl
    cases hl

lemma Inv.enabled_free (h : Inv s) (hactive : (s.phase x).active = true) {l : Lock}
    (hwants : (s.phase x).wants x = some l) (hfree : s.owner l = none) : Enabled s x := by
  refine enabled_of_not_stuck h ?_
  rintro (hidle | ⟨l', hl', hheld⟩)
  · rw [hactive] at hidle
    cases hidle
  · obtain rfl := Option.some.inj (hwants.symm.trans hl')
    exact hheld hfree

lemma entry_owner (h : Lock.entry k ∈ p.locks y) :
    p.active = true ∧ (p.wants y = none ∨ (y = k ∧ ∃ id, p = .timedOut id)) := by
  cases p <;> simp_all [Phase.locks, Phase.active, Phase.wants]

lemma table_owner (h : Lock.table ∈ p.locks y) : p.active = true ∧ (p.wants y = none ∨ ∃ k, p = .found k) := by
  cases p <;> simp_all [Phase.locks, Phase.active, Phase.wants]

/-- while worker `x` has found the entry of call `k`, its mutex is free or owned by a caller that can move -/
lemma Inv.found_entry (h : Inv s) (hx : s.phase x = .found k) (hheld : s.owner (.entry k) = some y) :
    (s.phase y).active = true ∧ (s.phase y).wants y = none := by
  have hy := (h.owned _ y).mp hheld
  obtain ⟨hactive, hwants | ⟨rfl, id, hout⟩⟩ := entry_owner hy
  · exact ⟨hactive, hwants⟩
  · exact absurd hout (h.apart x y (.inl hx) id)

lemma Inv.table_progress (h : Inv s) (hheld : s.owner .table = some x) : ∃ z, Enabled s z := by
  obtain ⟨hactive, hwants | ⟨k, hfound⟩⟩ := table_owner ((h.owned _ x).mp hheld)
  · exact ⟨x, h.enabled hactive hwants⟩
  · cases hentry : s.owner (.entry k) with
    | none => exact ⟨x, h.enabled_free hactive (by rw [hfound]; rfl) hentry⟩
    | some y =>
      obtain ⟨hy, hywants⟩ := h.found_entry hfound hentry
      exact ⟨y, h.enabled hy hywants⟩

/-- While a thread is in its call, some thread can move. -/
lemma Inv.progress (h : Inv s) (hactive : (s.phase x).active = true) : ∃ z, Enabled s z := by
  have table : ∀ z, (s.phase z).active = true → (s.phase z).wants z = some .table → ∃ z, Enabled s z := by
    intro z hz hwants
    cases hheld : s.owner .table with
    | none => exact ⟨z, h.enabled_free hz hwants hheld⟩
    | some y => exact h.table_progress hheld
  cases hwants : (s.phase x).wants x with
  | none => exact ⟨x, h.enabled hactive hwants⟩
  | some l =>
    cases l with
    | table => exact table x hactive hwants
    | entry k =>
      cases hheld : s.owner (.entry k) with
      | none => exact ⟨x, h.enabled_free hactive hwants hheld⟩
      | some y =>
        obtain ⟨hy, hywants | ⟨-, id, hout⟩⟩ := entry_owner ((h.owned _ y).mp hheld)
        · exact ⟨y, h.enabled hy hywants⟩
        · exact table y hy (by rw [hout]; rfl)

/-! ## What a thread leaves alone -/

def Op.thread : Op → ℕ
  | .call x _ _ _ => x
  | .receive x _ => x
  | .move x => x

lemma acquire_others (h : x ≠ y) (l : Lock) (p : Phase) : (s.acquire x l p).phase y = s.phase y := by
  unfold State.acquire
  split_ifs
  · exact State.goto_others h _ p
  · rfl

lemma step_others (h : op.thread ≠ y) : (step s op).phase y = s.phase y := by
  cases op with
  | call x id b sent | receive x id =>
    rw [step]
    split_ifs
    · exact State.goto_others h s _
    · rfl
  | move x =>
    change (move s x).phase y = s.phase y
    unfold move
    split
    all_goals first
      | rfl
      | exact acquire_others h _ _
      | exact State.goto_others h _ _
      | split
    all_goals first
      | exact State.goto_others h _ _
      | split <;> exact State.goto_others h _ _

lemma run_others {ops : List Op} (h : ∀ op ∈ ops, op.thread ≠ y) : (run step s ops).phase y = s.phase y :=
  run_inv_mem (P := fun s' : State => s'.phase y = s.phase y) (fun _ _ hs hop => (step_others hop).trans hs) rfl h

lemma run_two {ops : List Op} (h : ∀ op ∈ ops, op.thread < 2) (h0 : y ≠ 0) (h1 : y ≠ 1) :
    (run step s ops).phase y = s.phase y :=
  run_others fun op hop => by
    have := h op hop
    omega

lemma step_begun (hbegun : s.phase x ≠ .fresh) (hop : op ≠ .move x) : (step s op).phase x = s.phase x := by
  by_cases hx : op.thread = x
  · cases op with
    | call z id b sent | receive z id =>
      obtain rfl : z = x := hx
      exact congrArg (fun s' : State => s'.phase z) (if_neg hbegun)
    | move z => exact absurd (congrArg Op.move hx) hop
  · exact step_others hx

lemma phase_stays (hactive : (s.phase x).active = true) (hx : ¬ Enabled s x) (op : Op) :
    (step s op).phase x = s.phase x := by
  by_cases hop : op = .move x
  · rw [hop, step, not_not.mp hx]
  · refine step_begun (fun hfresh => ?_) hop
    rw [hfresh] at hactive
    cases hactive

lemma rank_step (h : Inv s) (hbegun : s.phase x ≠ .fresh) (op : Op) :
    (step s op).phase x ≠ .fresh ∧ ((step s op).phase x).rank ≤ (s.phase x).rank ∧
      (Enabled s x → op = .move x → ((step s op).phase x).rank < (s.phase x).rank) := by
  by_cases hop : op = .move x
  · subst hop
    rcases move_spec h x with ⟨heq, -⟩ | ⟨p', hm⟩
    · rw [step, heq]
      exact ⟨hbegun, le_rfl, fun henabled _ => absurd heq henabled⟩
    · have hp : (move s x).phase x = p' := by rw [hm.phase, update_self]
      have hnew : p' ≠ .fresh := (cameFrom_move hp fun heq => Nat.lt_irrefl _ (heq ▸ hm.rank)).begun
      rw [step, hp]
      exact ⟨hnew, hm.rank.le, fun _ _ => hm.rank⟩
  · rw [step_begun hbegun hop]
    exact ⟨hbegun, le_rfl, fun _ h => absurd h hop⟩

lemma owner_step (h : Inv s) {l : Lock} (hheld : s.owner l = some x) (op : Op) :
    (step s op).owner l = some x ∨ (step s op).owner l = none := by
  cases op with
  | call z id b sent | receive z id =>
    simp only [step]
    split_ifs <;> exact .inl hheld
  | move z =>
    simp only [step]
    rcases move_spec h z with ⟨heq, -⟩ | ⟨p', hm⟩
    · rw [heq]
      exact .inl hheld
    · rw [hm.owner]
      split_ifs with hnew hold
      · rcases hm.gained l hnew with hz | hfree
        · exact .inl (((h.owned l z).mpr hz).symm.trans hheld)
        · rw [hheld] at hfree
          cases hfree
      · exact .inr rfl
      · exact .inl hheld

/-! ## Fair runs -/

section Fair

variable {T : Trace step} {n : ℕ} {l : Lock}

/-- an infinite run whose steps meet the condition, under a strongly fair scheduler -/
structure FairRun (T : Trace step) : Prop where
  start : Inv (T.state 0)
  noRace : ∀ n, NoRace (T.state n) (T.op n)
  fair : StronglyFair T Op.move Enabled

lemma FairRun.inv (h : FairRun T) (n : ℕ) : Inv (T.state n) :=
  T.inv (P := Inv) (fun _ op hs hop => inv_step hs op hop) h.start h.noRace n

lemma FairRun.begun (h : FairRun T) (hbegun : (T.state n).phase x ≠ .fresh) :
    ∀ m ≥ n, (T.state m).phase x ≠ .fresh := by
  intro m hm
  induction m, hm using Nat.le_induction with
  | base => exact hbegun
  | succ m hm ih =>
    rw [T.next]
    exact (rank_step (h.inv m) ih _).1

lemma FairRun.disabled (h : FairRun T) (hbegun : (T.state n).phase x ≠ .fresh) :
    ∃ m ≥ n, ∀ i ≥ m, ¬ Enabled (T.state i) x := by
  have hstays := h.begun hbegun
  have hle : ∀ m ≥ n, ((T.state (m + 1)).phase x).rank ≤ ((T.state m).phase x).rank := by
    intro m hm
    rw [T.next]
    exact (rank_step (h.inv m) (hstays m hm) _).2.1
  have hlt : ∀ m ≥ n, Enabled (T.state m) x → T.op m = .move x →
      ((T.state (m + 1)).phase x).rank < ((T.state m).phase x).rank := by
    intro m hm henabled hop
    rw [T.next]
    exact (rank_step (h.inv m) (hstays m hm) _).2.2 henabled hop
  exact eventually_disabled h.fair (fun s => (s.phase x).rank) hle hlt

lemma phase_eq (hactive : ((T.state n).phase x).active = true)
    (hdisabled : ∀ i ≥ n, ¬ Enabled (T.state i) x) : ∀ m ≥ n, (T.state m).phase x = (T.state n).phase x := by
  intro m hm
  induction m, hm using Nat.le_induction with
  | base => rfl
  | succ m hm ih =>
    rw [T.next, phase_stays (by rw [ih]; exact hactive) (hdisabled m hm)]
    exact ih

lemma FairRun.owner_eq (h : FairRun T) (hheld : (T.state n).owner l = some x)
    (hnever : ∀ m ≥ n, (T.state m).owner l ≠ none) : ∀ m ≥ n, (T.state m).owner l = some x := by
  intro m hm
  induction m, hm using Nat.le_induction with
  | base => exact hheld
  | succ m hm ih =>
    rcases owner_step (h.inv m) ih (T.op m) with hsame | hfree
    · rw [T.next]
      exact hsame
    · exact absurd (by rw [T.next]; exact hfree) (hnever (m + 1) (by omega))

lemma begun_of_owner (h : Inv s) (hheld : s.owner l = some x) : s.phase x ≠ .fresh := by
  intro hfresh
  have hin := (h.owned l x).mp hheld
  rw [hfresh] at hin
  cases hin

/-- The table is free again and again. Its owner can only be stuck at an entry whose owner can move. -/
lemma FairRun.table_free (h : FairRun T) (n : ℕ) : ∃ m ≥ n, (T.state m).owner .table = none := by
  by_contra hnever
  push Not at hnever
  obtain ⟨x, hx⟩ := Option.ne_none_iff_exists'.mp (hnever n le_rfl)
  have howner := h.owner_eq hx hnever
  obtain ⟨m, hm, hstuck⟩ := h.disabled (begun_of_owner (h.inv n) hx)
  obtain ⟨hactive, hwants | ⟨k, hfound⟩⟩ := table_owner (((h.inv m).owned _ x).mp (howner m hm))
  · exact hstuck m le_rfl ((h.inv m).enabled hactive hwants)
  · have hphase := phase_eq hactive hstuck
    have hentry : ∀ i ≥ m, (T.state i).owner (.entry k) ≠ none := by
      intro i hi hfree
      have heq := (hphase i hi).trans hfound
      exact hstuck i hi ((h.inv i).enabled_free (by rw [heq]; rfl) (by rw [heq]; rfl) hfree)
    obtain ⟨y, hy⟩ := Option.ne_none_iff_exists'.mp (hentry m le_rfl)
    have hyowner := h.owner_eq hy hentry
    obtain ⟨i, hi, hystuck⟩ := h.disabled (begun_of_owner (h.inv m) hy)
    obtain ⟨hyactive, hywants⟩ := (h.inv i).found_entry ((hphase i hi).trans hfound) (hyowner i hi)
    exact hystuck i le_rfl ((h.inv i).enabled hyactive hywants)

/-- The mutex of every entry is free again and again. Its owner can only be stuck at the table. -/
lemma FairRun.entry_free (h : FairRun T) (k n : ℕ) : ∃ m ≥ n, (T.state m).owner (.entry k) = none := by
  by_contra hnever
  push Not at hnever
  obtain ⟨y, hy⟩ := Option.ne_none_iff_exists'.mp (hnever n le_rfl)
  have howner := h.owner_eq hy hnever
  obtain ⟨m, hm, hstuck⟩ := h.disabled (begun_of_owner (h.inv n) hy)
  obtain ⟨hactive, hwants | ⟨-, id, hout⟩⟩ := entry_owner (((h.inv m).owned _ y).mp (howner m hm))
  · exact hstuck m le_rfl ((h.inv m).enabled hactive hwants)
  · obtain ⟨i, hi, hfree⟩ := h.table_free m
    have heq := (phase_eq hactive hstuck i hi).trans hout
    exact hstuck i hi ((h.inv i).enabled_free (by rw [heq]; rfl) (by rw [heq]; rfl) hfree)

def Phase.Ended (p : Phase) : Prop := (∃ ok, p = .returned ok) ∨ p = .processed

lemma Phase.ended_of_not_active (hbegun : p ≠ .fresh) (h : p.active = false) : p.Ended := by
  cases p with
  | fresh => exact absurd rfl hbegun
  | returned ok => exact .inl ⟨ok, rfl⟩
  | processed => exact .inr rfl
  | _ => cases h

/-- Every thread that has begun comes to its end. -/
lemma FairRun.ends (h : FairRun T) (hbegun : (T.state n).phase x ≠ .fresh) : ∃ m ≥ n, ((T.state m).phase x).Ended := by
  obtain ⟨m, hm, hstuck⟩ := h.disabled hbegun
  refine ⟨m, hm, Phase.ended_of_not_active (h.begun hbegun m hm) ?_⟩
  by_contra hactive
  rw [Bool.not_eq_false] at hactive
  have hphase := phase_eq hactive hstuck
  cases hwants : ((T.state m).phase x).wants x with
  | none => exact hstuck m le_rfl ((h.inv m).enabled hactive hwants)
  | some l =>
    obtain ⟨i, hi, hfree⟩ : ∃ i ≥ m, (T.state i).owner l = none := by
      cases l with
      | table => exact h.table_free m
      | entry k => exact h.entry_free k m
    have heq := hphase i hi
    exact hstuck i hi ((h.inv i).enabled_free (by rw [heq]; exact hactive) (by rw [heq]; exact hwants) hfree)

end Fair

/-- In such runs some thread in a call can always move, and under strong fairness every call returns and every message
is processed. -/
theorem no_deadlock (ops : List Op) (hops : AllSteps step NoRace State.start ops) :
    (∀ x, ((run step State.start ops).phase x).active = true → ∃ y, Enabled (run step State.start ops) y) ∧
    ∀ T : Trace step, T.state 0 = run step State.start ops → (∀ n, NoRace (T.state n) (T.op n)) →
      StronglyFair T Op.move Enabled →
      ∀ n x, (T.state n).phase x ≠ .fresh → ∃ m ≥ n, ((T.state m).phase x).Ended := by
  have hinv : Inv (run step State.start ops) :=
    run_inv (P := Inv) (fun _ op hs hop => inv_step hs op hop) inv_start hops
  refine ⟨fun x hx => hinv.progress hx, fun T hstart hC hfair n x hbegun => ?_⟩
  have hrun : FairRun T := ⟨hstart ▸ hinv, hC, hfair⟩
  exact hrun.ends hbegun

/-! ## A call that is answered -/

/-- the caller comes back from its wait while the worker holds its entry -/
def answeredOps : List Op :=
  .call 0 7 1 true :: List.replicate 5 (.move 0) ++ [.receive 1 7, .move 1, .move 1, .move 1, .move 0, .move 0,
    .move 1, .move 1, .move 0, .move 0, .move 0, .move 0]

def answered : Trace step := Trace.of step State.start fun n => answeredOps.getD n (.move 0)

lemma answered_phase (x : ℕ) :
    (answered.state 18).phase x = if x = 0 then .returned true else if x = 1 then .processed else .fresh := by
  split_ifs with h0 h1
  · subst h0
    rfl
  · subst h1
    rfl
  · change (run step State.start answeredOps).phase x = _
    exact run_two (by decide) h0 h1

lemma answered_disabled (x : ℕ) : move (answered.state 18) x = answered.state 18 := by
  unfold move
  rw [answered_phase]
  split_ifs <;> rfl

lemma answered_state (n : ℕ) : answered.state (n + 18) = answered.state 18 := by
  induction n with
  | zero => rfl
  | succ n ih =>
    have hnext : answered.state (n + 1 + 18) = step (answered.state (n + 18)) (.move 0) := answered.next (n + 18)
    rw [hnext, ih]
    exact answered_disabled 0

lemma answered_noRace (n : ℕ) : NoRace (answered.state n) (answered.op n) := by
  rcases Nat.lt_or_ge n 18 with hn | hn
  · by_cases h7 : n = 7
    · subst h7
      refine ⟨fun id h => Phase.noConfusion h, fun id k h _ hk id' htimed => ?_⟩
      cases h
      cases hk
      cases htimed
    · interval_cases n
      all_goals first
        | exact trivial
        | exact absurd rfl h7
        | exact ⟨fun id h => (by cases h), fun id k h => (by cases h)⟩
  · obtain ⟨m, rfl⟩ : ∃ m, n = m + 18 := ⟨n - 18, by omega⟩
    rw [answered_state]
    refine ⟨fun id h => ?_, fun id k h => ?_⟩ <;>
    · rw [answered_phase] at h
      split_ifs at h

lemma answered_fair : StronglyFair answered Op.move Enabled := by
  intro x hinfinitely
  obtain ⟨m, hm, henabled⟩ := hinfinitely 18
  obtain ⟨i, rfl⟩ : ∃ i, m = i + 18 := ⟨m - 18, by omega⟩
  rw [answered_state] at henabled
  exact absurd (answered_disabled x) henabled

theorem no_deadlock_answered : (∃ y, Enabled (run step State.start [.call 0 7 1 true]) y) ∧
    (answered.state 12).phase 0 = .woken 7 1 ∧ ∃ m ≥ 12, ((answered.state m).phase 0).Ended :=
  ⟨(no_deadlock [.call 0 7 1 true] ⟨trivial, trivial⟩).1 0 rfl, rfl,
    (no_deadlock [] trivial).2 answered rfl answered_noRace answered_fair 12 0 fun h => Phase.noConfusion h⟩

/-! ## A time-out that meets its response -/

def timeoutOps : List Op := .call 0 7 0 true :: List.replicate 7 (.move 0) ++ [.receive 1 7, .move 1, .move 1, .move 0]

/-- thread 0 waits for the table, which thread 1 holds, and thread 1 for the entry of thread 0 -/
structure Dead (s : State) : Prop where
  table : s.owner .table = some 1
  entry : s.owner (.entry 0) = some 0
  caller : s.phase 0 = .timedOut 7
  worker : s.phase 1 = .found 0
  others : ∀ x, x ≠ 0 → x ≠ 1 → s.phase x = .fresh ∨ (∃ id b sent, s.phase x = .called id b sent) ∨
    ∃ id, s.phase x = .arrived id

lemma dead_timeout : Dead (run step State.start timeoutOps) where
  table := rfl
  entry := rfl
  caller := rfl
  worker := rfl
  others x h0 h1 := .inl (run_two (by decide : ∀ op ∈ timeoutOps, op.thread < 2) h0 h1)

lemma Dead.not_enabled (h : Dead s) (x : ℕ) : move s x = s := by
  have hacquire : ∀ p, s.acquire x .table p = s := fun p => if_neg (by rw [h.table]; simp)
  by_cases h0 : x = 0
  · subst h0
    rw [move, h.caller]
    exact hacquire _
  by_cases h1 : x = 1
  · subst h1
    rw [move, h.worker]
    exact if_neg (by rw [h.entry]; simp)
  rcases h.others x h0 h1 with hp | ⟨id, b, sent, hp⟩ | ⟨id, hp⟩
  · rw [move, hp]
  · rw [move, hp]
    exact hacquire _
  · rw [move, hp]
    exact hacquire _

lemma dead_begin (h : Dead s) (hfresh : s.phase x = .fresh)
    (hp : (∃ id b sent, p = .called id b sent) ∨ ∃ id, p = .arrived id) : Dead (s.goto x p) := by
  have h0 : x ≠ 0 := fun hx => by rw [hx, h.caller] at hfresh; cases hfresh
  have h1 : x ≠ 1 := fun hx => by rw [hx, h.worker] at hfresh; cases hfresh
  refine ⟨h.table, h.entry, ?_, ?_, fun y hy0 hy1 => ?_⟩
  · exact (State.goto_others h0 s p).trans h.caller
  · exact (State.goto_others h1 s p).trans h.worker
  · by_cases hy : y = x
    · subst hy
      rw [State.goto_self]
      exact .inr hp
    · rw [State.goto_others (Ne.symm hy)]
      exact h.others y hy0 hy1

lemma dead_step (h : Dead s) (op : Op) : Dead (step s op) := by
  cases op with
  | call x id b sent =>
    rw [step]
    split_ifs with hfresh
    · exact dead_begin h hfresh (.inl ⟨id, b, sent, rfl⟩)
    · exact h
  | receive x id =>
    rw [step]
    split_ifs with hfresh
    · exact dead_begin h hfresh (.inr ⟨id, rfl⟩)
    · exact h
  | move x =>
    rw [step, h.not_enabled x]
    exact h

/-- the response arrives as the call times out: no thread can take a step any more -/
theorem timeout_deadlocks : (∀ x, ¬ Enabled (run step State.start timeoutOps) x) ∧
    ∀ ops, (run step State.start (timeoutOps ++ ops)).phase 0 = .timedOut 7 ∧
      (run step State.start (timeoutOps ++ ops)).phase 1 = .found 0 := by
  refine ⟨fun x henabled => henabled (dead_timeout.not_enabled x), fun ops => ?_⟩
  have hdead : Dead (run step State.start (timeoutOps ++ ops)) := by
    rw [run_append]
    exact run_inv_all (P := Dead) (fun _ op hs => dead_step hs op) ops dead_timeout
  exact ⟨hdead.caller, hdead.worker⟩

end CxlMemSim.Dist.Deadlock
