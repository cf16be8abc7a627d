/-
The reorder buffer of the trace simulator (`src/rob.cpp`, `src/rob.cc`): parsed instructions are issued into a bounded
queue, `tick` retires up to four from its front, and the trace is then written. The controller's latency is an oracle's.
`canRetire` changes the entry of the queue (`const_cast`). `issued` and `retired` are ghosts.
-/
import CxlMemSim.Core.Run

namespace CxlMemSim.Retirement

open CxlMemSim.Core List

structure InstructionGroup where
  (address cycleCount fetchTimestamp retireTimestamp : ℤ)
  instruction : String
deriving DecidableEq

structure Rob where
  maxSize : ℕ
  queue : List InstructionGroup
  curLatency : ℤ
  currentCycle : ℤ
  asked : ℕ
  issued : List InstructionGroup
  retired : List InstructionGroup

def new (maxSize : ℕ) (cycle : ℤ) : Rob := ⟨maxSize, [], 0, cycle, 0, [], []⟩

def issue (s : Rob) (ins : InstructionGroup) : Option Rob :=
  if s.queue.length ≥ s.maxSize then none
  else some { s with queue := s.queue ++ [ins], issued := s.issued ++ [ins] }

/-- the instruction as `canRetire` leaves it, and the answer -/
def canRetire (latency : ℕ → ℤ) (s : Rob) (ins : InstructionGroup) : Rob × InstructionGroup × Bool :=
  if ins.address = 0 then (s, ins, true)
  else
    let cur := if s.curLatency = 0 then max 1 (latency s.asked) else 1
    let ins' := if s.curLatency = 0 then { ins with retireTimestamp := ins.retireTimestamp + cur } else ins
    let asked := if s.curLatency = 0 then s.asked + 1 else s.asked
    let cycle := s.currentCycle + cur
    let waitTime := (cycle - ins.cycleCount) % 2 ^ 64
    if waitTime < cur / 2 then ({ s with curLatency := cur, currentCycle := cycle, asked }, ins', false)
    else ({ s with curLatency := 0, currentCycle := cycle, asked }, ins', true)

def retireUpTo (latency : ℕ → ℤ) : ℕ → Rob → Rob
  | 0, s => s
  | n + 1, s =>
    match s.queue with
    | [] => s
    | ins :: rest =>
      let r := canRetire latency s ins
      if r.2.2 then retireUpTo latency n { r.1 with queue := rest, retired := r.1.retired ++ [r.2.1] }
      else { r.1 with queue := r.2.1 :: rest }

def tick (latency : ℕ → ℤ) (s : Rob) : Rob := retireUpTo latency 4 { s with currentCycle := s.currentCycle + 1 }

/-! ## One tick -/

/-- `b` is the copy of `a` that has retired: a memory instruction is delayed by its latency -/
def Delayed (a b : InstructionGroup) : Prop :=
  if a.address = 0 then b = a else ∃ d : ℤ, 1 ≤ d ∧ b = { a with retireTimestamp := a.retireTimestamp + d }

/-- the queue against the instructions issued: the front has its delay once its latency is known -/
def Waits (s : Rob) (waiting : List InstructionGroup) : Prop :=
  if s.curLatency = 0 then s.queue = waiting
  else ∃ a b rest, waiting = a :: rest ∧ s.queue = b :: rest ∧ a.address ≠ 0 ∧ Delayed a b

structure Inv (s : Rob) : Prop where
  bounded : s.queue.length ≤ s.maxSize
  order : ∃ old waiting, s.issued = old ++ waiting ∧ Forall₂ Delayed old s.retired ∧ Waits s waiting

variable (latency : ℕ → ℤ) {s s' : Rob} {ins : InstructionGroup} {rest : List InstructionGroup}

structure Frame (s s' : Rob) : Prop where
  issued : s'.issued = s.issued
  retired : s'.retired = s.retired
  maxSize : s'.maxSize = s.maxSize

lemma canRetire_frame (s : Rob) (ins : InstructionGroup) : Frame s (canRetire latency s ins).1 := by
  unfold canRetire
  dsimp only
  split_ifs <;> exact ⟨rfl, rfl, rfl⟩

/-- the second question about an instruction is never refused -/
lemma canRetire_again (h : ins.address ≠ 0) (hcur : s.curLatency ≠ 0) :
    (canRetire latency s ins).2 = (ins, true) ∧ (canRetire latency s ins).1.curLatency = 0 := by
  have hwait : ¬ (s.currentCycle + 1 - ins.cycleCount) % 2 ^ 64 < (1 : ℤ) / 2 := by omega
  simp only [canRetire, h, hcur, if_false, hwait, and_self]

lemma canRetire_first (h : ins.address ≠ 0) (hcur : s.curLatency = 0) :
    Delayed ins (canRetire latency s ins).2.1 ∧
      ((canRetire latency s ins).2.2 = true ↔ (canRetire latency s ins).1.curLatency = 0) := by
  have hmax : max 1 (latency s.asked) ≠ 0 := by omega
  simp only [canRetire, h, hcur, if_false, if_true, Delayed]
  split_ifs
  · exact ⟨⟨_, le_max_left _ _, rfl⟩, by simp [hmax]⟩
  · exact ⟨⟨_, le_max_left _ _, rfl⟩, by simp⟩

lemma Waits.front {waiting : List InstructionGroup} (h : Waits s waiting) (hq : s.queue = ins :: rest) :
    ∃ a, waiting = a :: rest ∧ (s.curLatency = 0 → a = ins) ∧ (s.curLatency ≠ 0 → ins.address ≠ 0 ∧ Delayed a ins) := by
  unfold Waits at h
  split_ifs at h with hcur
  · exact ⟨ins, h ▸ hq, fun _ => rfl, fun hne => absurd hcur hne⟩
  · obtain ⟨a, b, rest', hw, hq', ha, hdel⟩ := h
    obtain ⟨rfl, rfl⟩ := List.cons.inj (hq'.symm.trans hq)
    refine ⟨a, hw, fun h0 => absurd h0 hcur, fun _ => ⟨?_, hdel⟩⟩
    rw [Delayed, if_neg ha] at hdel
    obtain ⟨d, -, rfl⟩ := hdel
    exact ha

/-- The front retires with its delay, or stays and its latency is known. -/
lemma inv_canRetire (h : Inv s) (hq : s.queue = ins :: rest) :
    let r := canRetire latency s ins
    if r.2.2 then Inv { r.1 with queue := rest, retired := r.1.retired ++ [r.2.1] }
    else Inv { r.1 with queue := r.2.1 :: rest } ∧ r.1.curLatency ≠ 0 := by
  obtain ⟨old, waiting, hissued, hold, hwaits⟩ := h.order
  obtain ⟨a, rfl, hnew, hknown⟩ := hwaits.front hq
  have hframe := canRetire_frame latency s ins
  have hlen := h.bounded
  rw [hq, length_cons] at hlen
  have hretire : ∀ r : Rob × InstructionGroup × Bool, Frame s r.1 → r.1.curLatency = 0 → Delayed a r.2.1 →
      Inv { r.1 with queue := rest, retired := r.1.retired ++ [r.2.1] } := by
    intro r hr hcur hdel
    refine ⟨?_, old ++ [a], rest, ?_, ?_, by simp [Waits, hcur]⟩
    · rw [hr.maxSize]
      exact (Nat.le_succ _).trans hlen
    · simpa using hr.issued.trans hissued
    · rw [hr.retired]
      exact rel_append hold (.cons hdel .nil)
  dsimp only
  by_cases hcur : s.curLatency = 0
  · obtain rfl := hnew hcur
    by_cases haddr : a.address = 0
    · rw [canRetire, if_pos haddr, if_pos rfl]
      exact hretire (s, a, true) ⟨rfl, rfl, rfl⟩ hcur (by simp [Delayed, haddr])
    · obtain ⟨hdel, hiff⟩ := canRetire_first latency haddr hcur
      split_ifs with hans
      · exact hretire _ hframe (hiff.mp hans) hdel
      · have hne : (canRetire latency s a).1.curLatency ≠ 0 := fun h0 => hans (hiff.mpr h0)
        refine ⟨⟨?_, old, a :: rest, hframe.issued.trans hissued, hframe.retired ▸ hold, ?_⟩, hne⟩
        · rw [hframe.maxSize]
          exact hlen
        · rw [Waits, if_neg hne]
          exact ⟨a, _, rest, rfl, rfl, haddr, hdel⟩
  · obtain ⟨haddr, hdel⟩ := hknown hcur
    obtain ⟨hans, hzero⟩ := canRetire_again latency haddr hcur
    rw [hans, if_pos rfl]
    exact hretire ((canRetire latency s ins).1, ins, true) hframe hzero hdel

lemma inv_retireUpTo (h : Inv s) (n : ℕ) : Inv (retireUpTo latency n s) := by
  induction n generalizing s with
  | zero => exact h
  | succ n ih =>
    unfold retireUpTo
    split
    · exact h
    · rename_i ins rest hq
      have hstep := inv_canRetire latency h hq
      dsimp only at hstep ⊢
      split_ifs at hstep ⊢
      · exact ih hstep
      · exact hstep.1

structure Kept (s s' : Rob) : Prop where
  issued : s'.issued = s.issued
  maxSize : s'.maxSize = s.maxSize
  retired : s.retired.length ≤ s'.retired.length

lemma kept_retireUpTo (n : ℕ) (s : Rob) : Kept s (retireUpTo latency n s) := by
  induction n generalizing s with
  | zero => exact ⟨rfl, rfl, le_rfl⟩
  | succ n ih =>
    unfold retireUpTo
    split
    · exact ⟨rfl, rfl, le_rfl⟩
    · rename_i ins rest hq
      have hframe := canRetire_frame latency s ins
      dsimp only
      split_ifs
      · obtain ⟨hissued, hmax, hle⟩ := ih { (canRetire latency s ins).1 with
          queue := rest, retired := (canRetire latency s ins).1.retired ++ [(canRetire latency s ins).2.1] }
        refine ⟨hissued.trans hframe.issued, hmax.trans hframe.maxSize, le_trans ?_ hle⟩
        simp [hframe.retired]
      · exact ⟨hframe.issued, hframe.maxSize, hframe.retired.symm ▸ le_rfl⟩

/-- Progress. A tick retires something, or from now on the latency of the front is known. -/
lemma retireUpTo_progress (h : Inv s) (hne : s.queue ≠ []) (n : ℕ) :
    s.retired.length < (retireUpTo latency (n + 1) s).retired.length ∨
      s.curLatency = 0 ∧ (retireUpTo latency (n + 1) s).curLatency ≠ 0 := by
  obtain ⟨ins, rest, hq⟩ := exists_cons_of_ne_nil hne
  have hframe := canRetire_frame latency s ins
  have hstep := inv_canRetire latency h hq
  simp only [retireUpTo, hq] at hstep ⊢
  split_ifs at hstep ⊢ with hans
  · refine .inl (lt_of_lt_of_le ?_ (kept_retireUpTo latency n _).retired)
    simp [hframe.retired]
  · refine .inr ⟨by_contra fun hcur => hans ?_, hstep.2⟩
    obtain ⟨old, waiting, -, -, hwaits⟩ := h.order
    obtain ⟨a, -, -, hknown⟩ := hwaits.front hq
    rw [(canRetire_again latency (hknown hcur).1 hcur).1]

lemma inv_tick (h : Inv s) : Inv (tick latency s) :=
  inv_retireUpTo latency (s := { s with currentCycle := s.currentCycle + 1 }) ⟨h.bounded, h.order⟩ 4

lemma tick_progress (h : Inv s) (hne : s.queue ≠ []) :
    s.retired.length < (tick latency s).retired.length ∨ s.curLatency = 0 ∧ (tick latency s).curLatency ≠ 0 :=
  retireUpTo_progress latency (s := { s with currentCycle := s.currentCycle + 1 }) ⟨h.bounded, h.order⟩ hne 3

lemma kept_tick (s : Rob) : Kept s (tick latency s) := by
  obtain ⟨hissued, hmax, hle⟩ := kept_retireUpTo latency 4 { s with currentCycle := s.currentCycle + 1 }
  exact ⟨hissued, hmax, hle⟩

/-! ## Runs -/

inductive Op where
  | issue (ins : InstructionGroup)
  | tick

def step (s : Rob) : Op → Rob
  | .issue ins => (issue s ins).getD s
  | .tick => tick latency s

lemma inv_issue (h : Inv s) (hs : issue s ins = some s') : Inv s' ∧ s'.issued = s.issued ++ [ins] := by
  unfold issue at hs
  split_ifs at hs with hfull
  obtain rfl := Option.some.inj hs
  obtain ⟨old, waiting, hissued, hold, hwaits⟩ := h.order
  refine ⟨⟨?_, old, waiting ++ [ins], ?_, hold, ?_⟩, rfl⟩
  · simp only [length_append, length_singleton]
    omega
  · simp [hissued]
  · unfold Waits at hwaits ⊢
    split_ifs at hwaits ⊢
    · rw [hwaits]
    · obtain ⟨a, b, rest, rfl, hq, ha, hdel⟩ := hwaits
      exact ⟨a, b, rest ++ [ins], rfl, by simp [hq], ha, hdel⟩

lemma inv_step (h : Inv s) (op : Op) : Inv (step latency s op) := by
  cases op with
  | issue ins =>
    cases hs : issue s ins with
    | none => simpa [step, hs] using h
    | some s' => simpa [step, hs] using (inv_issue h hs).1
  | tick => exact inv_tick latency h

/-- the same instruction, whatever its retirement time -/
def Same (a b : InstructionGroup) : Prop := b = { a with retireTimestamp := b.retireTimestamp }

lemma Delayed.same {a b : InstructionGroup} (h : Delayed a b) : Same a b := by
  unfold Delayed at h
  split_ifs at h
  · rw [h]
    rfl
  · obtain ⟨d, -, rfl⟩ := h
    rfl

lemma Inv.same (h : Inv s) : Forall₂ Same s.issued (s.retired ++ s.queue) := by
  obtain ⟨old, waiting, hissued, hold, hwaits⟩ := h.order
  have hrefl : ∀ l, Forall₂ Same l l := fun l => forall₂_same.mpr fun _ _ => rfl
  rw [hissued]
  refine rel_append (hold.imp fun _ _ => Delayed.same) ?_
  unfold Waits at hwaits
  split_ifs at hwaits
  · exact hwaits ▸ hrefl _
  · obtain ⟨a, b, rest, rfl, hq, -, hdel⟩ := hwaits
    exact hq ▸ .cons hdel.same (hrefl rest)

lemma inv_new (maxSize : ℕ) (cycle : ℤ) : Inv (new maxSize cycle) :=
  ⟨Nat.zero_le _, [], [], rfl, .nil, by simp [Waits, new]⟩

lemma issues_keep (s : Rob) (offered : List InstructionGroup) :
    (run (step latency) s (offered.map .issue)).curLatency = s.curLatency := by
  induction offered generalizing s with
  | nil => rfl
  | cons ins offered ih =>
    have hone : (step latency s (.issue ins)).curLatency = s.curLatency := by
      simp only [step, issue]
      split_ifs <;> rfl
    exact (ih _).trans hone

/-- the loops around `tick`: until `stop` -/
def tickUntil (stop : Rob → Bool) : ℕ → Rob → Option Rob
  | 0, _ => none
  | fuel + 1, s => if stop s then some s else tickUntil stop fuel (tick latency s)

/-- two ticks for an instruction, and one when the latency of the front is known -/
def rank (s : Rob) : ℕ := 2 * (s.issued.length - s.retired.length) + if s.curLatency = 0 then 1 else 0

lemma rank_tick (h : Inv s) (hne : s.queue ≠ []) : rank (tick latency s) < rank s := by
  have hlen := (inv_tick latency h).same.length_eq
  rw [length_append] at hlen
  unfold rank
  rw [(kept_tick latency s).issued] at hlen ⊢
  rcases tick_progress latency h hne with hlt | ⟨h0, hne'⟩
  · split_ifs <;> omega
  · have hle := (kept_tick latency s).retired
    rw [if_pos h0, if_neg hne']
    omega

/-- A loop that does not tick an empty buffer returns. -/
lemma tickUntil_returns (stop : Rob → Bool) (hstop : ∀ s : Rob, 1 ≤ s.maxSize → s.queue = [] → stop s)
    (h : Inv s) (hsize : 1 ≤ s.maxSize) :
    ∃ s', Inv s' ∧ stop s' ∧ s'.issued = s.issued ∧ s'.maxSize = s.maxSize ∧
      ∃ n, ∀ fuel ≥ n, tickUntil latency stop fuel s = some s' := by
  -- induction on the rank, which drops at every tick of a nonempty queue
  induction hk : rank s using Nat.strong_induction_on generalizing s with
  | _ k ih =>
    by_cases hs : stop s
    · refine ⟨s, h, hs, rfl, rfl, 1, fun fuel hfuel => ?_⟩
      obtain ⟨fuel, rfl⟩ := Nat.exists_eq_add_of_le' hfuel
      simp [tickUntil, hs]
    · have hkept := kept_tick latency s
      have hdrop := rank_tick latency h fun hq => hs (hstop s hsize hq)
      obtain ⟨s', hinv, hs', hissued, hmax, n, hn⟩ := ih _ (hk ▸ hdrop) (inv_tick latency h) (hkept.maxSize ▸ hsize) rfl
      refine ⟨s', hinv, hs', hissued.trans hkept.issued, hmax.trans hkept.maxSize, n + 1, fun fuel hfuel => ?_⟩
      obtain ⟨fuel, rfl⟩ := Nat.exists_eq_add_of_le' (Nat.one_le_of_lt hfuel)
      rw [tickUntil, if_neg hs]
      exact hn fuel (Nat.le_of_succ_le_succ hfuel)

def drained (s : Rob) : Bool := s.queue.isEmpty

/-- In order, bounded, and with progress. The accepted instructions are those that retired and then those that wait;
of two ticks of a nonempty queue one retires something; ticking empties it. -/
theorem rob_retires_in_order (maxSize : ℕ) (hsize : 1 ≤ maxSize) (cycle : ℤ) (ops : List Op) :
    let s := run (step latency) (new maxSize cycle) ops
    s.queue.length ≤ maxSize ∧ Forall₂ Same s.issued (s.retired ++ s.queue) ∧
      (∀ offered : List InstructionGroup,
        let s₁ := tick latency s
        let s₂ := run (step latency) s₁ (offered.map .issue)
        s.queue ≠ [] → s₂.queue ≠ [] →
          s.retired.length < s₁.retired.length ∨ s₂.retired.length < (tick latency s₂).retired.length) ∧
      ∃ s', (∃ n, ∀ fuel ≥ n, tickUntil latency drained fuel s = some s') ∧ s'.queue = [] ∧
        Forall₂ Same s.issued s'.retired := by
  intro s
  have hrun : Inv s ∧ s.maxSize = maxSize := by
    refine run_inv_all (P := fun s => Inv s ∧ s.maxSize = maxSize) (fun s op h => ⟨inv_step latency h.1 op, ?_⟩) ops
      ⟨inv_new _ _, rfl⟩
    cases op with
    | issue ins =>
      simp only [step, issue]
      split_ifs <;> exact h.2
    | tick => exact (kept_tick latency s).maxSize.trans h.2
  obtain ⟨hinv, hmax⟩ := hrun
  refine ⟨hmax ▸ hinv.bounded, hinv.same, ?_, ?_⟩
  · intro offered s₁ s₂ hne hne'
    have hinv₂ : Inv s₂ := run_inv_all (P := Inv) (fun s op h => inv_step latency h op) _ (inv_tick latency hinv)
    rcases tick_progress latency hinv hne with hlt | ⟨-, hcur⟩
    · exact .inl hlt
    · refine .inr ((tick_progress latency hinv₂ hne').resolve_right fun h0 => hcur ?_)
      exact issues_keep latency s₁ offered ▸ h0.1
  · obtain ⟨s', hinv', hs', hissued, -, hfuel⟩ := tickUntil_returns latency drained
      (fun s _ hq => by simp [drained, hq]) hinv (hmax ▸ hsize)
    have hq : s'.queue = [] := by simpa [drained] using hs'
    refine ⟨s', hfuel, hq, ?_⟩
    have hsame := hinv'.same
    rwa [hissued, hq, append_nil] at hsame

/-- the second load waits behind the first, the third finds no room -/
theorem rob_retires_in_order_three :
    let s := run (step fun _ => 40) (new 2 0)
      [.issue ⟨8, 90, 0, 5, "ld"⟩, .issue ⟨16, 91, 0, 5, "ld"⟩, .issue ⟨24, 92, 0, 5, "ld"⟩, .tick, .tick]
    s.issued.length = 2 ∧ Forall₂ Same s.issued (s.retired ++ s.queue) :=
  ⟨by decide, (rob_retires_in_order (fun _ => 40) 2 (by decide) 0 _).2.1⟩

/-! ## The program -/

def hasRoom (s : Rob) : Bool := s.queue.length < s.maxSize

/-- the loop over the parsed instructions: `issue` succeeds when there is room -/
def issueAll (fuel : ℕ) : Rob → List InstructionGroup → Option Rob
  | s, [] => some s
  | s, ins :: rest =>
    (tickUntil latency hasRoom fuel s).bind fun s => (issue s ins).bind fun s => issueAll fuel (tick latency s) rest

/-- the times of one record of the output; `access` is printed for a memory instruction -/
structure Stamps where
  (fetch decode rename dispatch issue complete retire access : ℤ)

def stamps (ins : InstructionGroup) : Stamps where
  fetch := ins.fetchTimestamp
  decode := ins.fetchTimestamp + 500
  rename := ins.fetchTimestamp + 1000
  dispatch := ins.fetchTimestamp + 1500
  issue := ins.fetchTimestamp + 1500
  complete := ins.retireTimestamp - 500
  retire := ins.retireTimestamp
  access := if ins.address ≠ 0 then ins.retireTimestamp + 1000 else 0

def generateDelayedTrace (instructions : List InstructionGroup) : List Stamps := instructions.map stamps

def main (fuel : ℕ) (instructions : List InstructionGroup) : Option (Rob × List Stamps) :=
  (issueAll latency fuel (new 512 1687) instructions).bind fun s =>
    (tickUntil latency drained fuel s).map fun s => (s, generateDelayedTrace instructions)

lemma issueAll_returns (h : Inv s) (hsize : 1 ≤ s.maxSize) (instrs : List InstructionGroup) :
    ∃ s', Inv s' ∧ s'.issued = s.issued ++ instrs ∧ s'.maxSize = s.maxSize ∧
      ∃ n, ∀ fuel ≥ n, issueAll latency fuel s instrs = some s' := by
  induction instrs generalizing s with
  | nil => exact ⟨s, h, by simp, rfl, 0, fun _ _ => rfl⟩
  | cons ins instrs ih =>
    obtain ⟨s₁, hinv₁, hroom, hissued₁, hmax₁, n₁, hn₁⟩ := tickUntil_returns latency hasRoom
      (fun s hs hq => by simp [hasRoom, hq]; omega) h hsize
    have hissue : issue s₁ ins = some { s₁ with queue := s₁.queue ++ [ins], issued := s₁.issued ++ [ins] } :=
      if_neg (Nat.not_le.mpr (of_decide_eq_true hroom))
    obtain ⟨hinv₂, hissued₂⟩ := inv_issue hinv₁ hissue
    have hkept := kept_tick latency { s₁ with queue := s₁.queue ++ [ins], issued := s₁.issued ++ [ins] }
    obtain ⟨s', hinv', hissued', hmax', n, hn⟩ := ih (inv_tick latency hinv₂) (by rw [hkept.maxSize]; exact hmax₁ ▸ hsize)
    refine ⟨s', hinv', ?_, hmax'.trans (hkept.maxSize.trans hmax₁), max n₁ n, fun fuel hfuel => ?_⟩
    · rw [hissued', hkept.issued, hissued₁, append_assoc, singleton_append]
    · rw [issueAll, hn₁ fuel (le_of_max_le_left hfuel), Option.bind_some, hissue, Option.bind_some]
      exact hn fuel (le_of_max_le_right hfuel)

lemma written_eq_iff {instrs retired : List InstructionGroup} (h : Forall₂ Delayed instrs retired) :
    (generateDelayedTrace instrs).map (·.retire) = retired.map (·.retireTimestamp) ↔ ∀ ins ∈ instrs, ins.address = 0 := by
  induction h with
  | nil => simp [generateDelayedTrace]
  | cons hdel _ ih =>
    simp only [generateDelayedTrace, map_cons, map_map, cons.injEq, forall_mem_cons] at ih ⊢
    refine and_congr ?_ ih
    unfold Delayed at hdel
    split_ifs at hdel with haddr
    · simp [haddr, hdel, stamps]
    · obtain ⟨d, hd, rfl⟩ := hdel
      simp only [haddr, iff_false, stamps]
      omega

/-- The written times. The program ends with every instruction retired; the trace has its times exactly when no
instruction has an address. -/
theorem written_simulated_iff (instrs : List InstructionGroup) :
    ∃ s trace, (∃ n, ∀ fuel ≥ n, main latency fuel instrs = some (s, trace)) ∧ Forall₂ Delayed instrs s.retired ∧
      (trace.map (·.retire) = s.retired.map (·.retireTimestamp) ↔ ∀ ins ∈ instrs, ins.address = 0) := by
  obtain ⟨s, hinv, hissued, hmax, n, hn⟩ := issueAll_returns latency (inv_new 512 1687) (by simp [new]) instrs
  obtain ⟨s', hinv', hs', hissued', -, n', hn'⟩ := tickUntil_returns latency drained
    (fun s _ hq => by simp [drained, hq]) hinv (hmax ▸ by simp [new])
  have hq : s'.queue = [] := by simpa [drained] using hs'
  have hdel : Forall₂ Delayed instrs s'.retired := by
    obtain ⟨old, waiting, heq, hold, hwaits⟩ := hinv'.order
    have hnil : waiting = [] := by
      unfold Waits at hwaits
      split_ifs at hwaits
      · exact hwaits.symm.trans hq
      · obtain ⟨a, b, rest, -, hq', -⟩ := hwaits
        simp [hq] at hq'
    rw [hissued', hissued, hnil] at heq
    simp only [new, nil_append, append_nil] at heq
    exact heq ▸ hold
  refine ⟨s', _, ⟨max n n', fun fuel hfuel => ?_⟩, hdel, written_eq_iff hdel⟩
  rw [main, hn fuel (le_of_max_le_left hfuel), Option.bind_some, hn' fuel (le_of_max_le_right hfuel), Option.map_some]

/-- a load whose latency is 40 retires at 45, and the trace says 5 -/
theorem written_unchanged :
    (main (fun _ => 40) 9 [⟨8, 90, 0, 5, "ld"⟩]).map (fun r => (r.1.retired.map (·.retireTimestamp), r.2.map (·.retire))) =
      some ([45], [5]) := by
  decide

end CxlMemSim.Retirement
