/-
The locks of `microbench/cxl_switch_lock_bench.c` that use loads and stores only: the ownership lock and the bakery lock,
for two hosts. A move of a host is a call, a return, or one read or write of a word; the words are volatile.

Results, over every schedule of the two hosts:
* `Ownership.ownership_excludes`: the ownership lock excludes while no host writes its name with the other past its
  confirming read (`ClaimsInTime`); `Ownership.both_hold` is a schedule in which both hold it.
* `Bakery.bakery_excludes`: the bakery lock excludes until a ticket reaches the greatest number (`Small`).
Each has a schedule in which both hosts want the lock: `ownership_excludes_contended`, `bakery_excludes_contended`.
-/
import CxlMemSim.Core.Threads

namespace CxlMemSim.Bench

open CxlMemSim.Core Function

/-! ## The ownership lock -/

namespace Ownership

structure Words where
  owner : Option (Fin 2) := none
  generation : UInt32 := 0

/-- what a host does next -/
inductive Pc where
  | outside
  | pull
  | claim
  | confirm
  | count
  | publish (generation : UInt32)
  | holding
  | release
deriving DecidableEq

def move (me : Fin 2) (o : Words) : Pc → Words × Pc
  | .outside => (o, .pull)
  | .pull => (o, if o.owner = none then .claim else .pull)
  | .claim => ({ o with owner := some me }, .confirm)
  | .confirm => (o, if o.owner = some me then .count else .pull)
  | .count => (o, .publish (o.generation + 1))
  | .publish generation => ({ o with generation }, .holding)
  | .holding => (o, .release)
  | .release => ({ o with owner := none }, .outside)

abbrev State := Sys 2 Words Pc

def start : State := ⟨{}, fun _ => .outside⟩

def Excludes (s : State) : Prop := ∀ i j, s.pc i = .holding → s.pc j = .holding → i = j

/-- past the confirming read -/
def Pc.owns : Pc → Bool
  | .outside | .pull | .claim | .confirm => false
  | _ => true

/-- no host writes its name while the other is past its confirming read -/
def ClaimsInTime (s : State) (i : Fin 2) : Prop := s.pc i = .claim → ∀ j, (s.pc j).owns = false

def Named (s : State) : Prop := ∀ i, (s.pc i).owns = true → s.shared.owner = some i

lemma named_step (s : State) (i : Fin 2) (h : Named s) (hclaim : ClaimsInTime s i) : Named (s.step move i) := by
  intro j hj
  simp only [Sys.step] at hj ⊢
  by_cases hji : j = i
  · subst hji
    rw [update_self] at hj
    cases hp : s.pc j with
    | confirm =>
      -- the host goes on only if it has read its own name
      by_contra hne
      simp only [hp, move] at hj hne
      rw [if_neg hne] at hj
      cases hj
    | count | publish generation | holding => simpa [hp, move] using h j (by simp [hp, Pc.owns])
    | pull =>
      simp only [hp, move] at hj
      split_ifs at hj <;> cases hj
    | outside | claim | release => simp [hp, move, Pc.owns] at hj
  · rw [update_of_ne hji] at hj
    have hown := h j hj
    cases hp : s.pc i with
    | claim => simp [hclaim hp j] at hj
    | release =>
      -- two hosts past the confirming read would both have their name in the word
      have hname := h i (by simp [hp, Pc.owns])
      exact absurd (Option.some.inj (hown.symm.trans hname)) hji
    | _ => simpa [move] using hown

/-- The ownership lock excludes if no host writes its name while the other is past its confirming read. -/
theorem ownership_excludes (sched : List (Fin 2)) (h : AllSteps (Sys.step move) ClaimsInTime start sched) :
    Excludes (run (Sys.step move) start sched) := by
  have hnamed : Named (run (Sys.step move) start sched) :=
    run_inv named_step (fun i hi => absurd hi (by simp [start, Pc.owns])) h
  intro i j hi hj
  exact Option.some.inj ((hnamed i (by simp [hi, Pc.owns])).symm.trans (hnamed j (by simp [hj, Pc.owns])))

/-- both hosts find the word free and write their names; the first finds the other's at its confirming read -/
def contended : List (Fin 2) := [0, 1, 0, 1, 0, 1, 0, 1, 1, 1]

theorem ownership_excludes_contended : (run (Sys.step move) start contended).pc 0 = .pull ∧
    (run (Sys.step move) start contended).pc 1 = .holding ∧ Excludes (run (Sys.step move) start contended) :=
  ⟨by decide, by decide, ownership_excludes _ (by
    simp [contended, AllSteps, ClaimsInTime, Sys.step, move, start, Pc.owns, Fin.forall_fin_two])⟩

/-- Both hosts read a free word; the second writes its name after the first has confirmed its own. -/
theorem both_hold : ¬ ∀ sched, Excludes (run (Sys.step move) start sched) := by
  intro h
  exact absurd (h [0, 1, 0, 1, 0, 0, 0, 0, 1, 1, 1, 1] 0 1 (by decide) (by decide)) (by decide)

end Ownership

/-! ## The bakery lock -/

namespace Bakery

/-- tickets are `uint32_t` -/
structure Words where
  choosing : Fin 2 → Bool := fun _ => false
  ticket : Fin 2 → ℕ := fun _ => 0

inductive Pc where
  | outside
  | choose
  | look
  | take (ot : ℕ)
  | chosen
  | waitChoosing
  | waitTicket
  | compare
  | critical
  | release
deriving DecidableEq

def move (me : Fin 2) (b : Words) : Pc → Words × Pc
  | .outside => (b, .choose)
  | .choose => ({ b with choosing := update b.choosing me true }, .look)
  | .look => (b, .take (b.ticket (1 - me)))
  | .take ot => ({ b with ticket := update b.ticket me ((ot + 1) % 2 ^ 32) }, .chosen)
  | .chosen => ({ b with choosing := update b.choosing me false }, .waitChoosing)
  | .waitChoosing => (b, if b.choosing (1 - me) then .waitChoosing else .waitTicket)
  | .waitTicket => (b, if b.ticket (1 - me) ≠ 0 then .compare else .critical)
  | .compare =>
    let tj := b.ticket (1 - me)
    let ti := b.ticket me
    (b, if tj < ti ∨ (tj = ti ∧ 1 - me < me) then .waitTicket else .critical)
  | .critical => (b, .release)
  | .release => ({ b with ticket := update b.ticket me 0 }, .outside)

abbrev State := Sys 2 Words Pc

def start : State := ⟨{}, fun _ => .outside⟩

def Excludes (s : State) : Prop := ∀ i j, s.pc i = .critical → s.pc j = .critical → i = j

/-- no ticket has reached the greatest number -/
def Small (s : State) (_ : Fin 2) : Prop := ∀ i, s.shared.ticket i < 2 ^ 32 - 1

/-! ### The invariant -/

def Pc.chooses : Pc → Bool
  | .look | .take _ | .chosen => true
  | _ => false

def Pc.numbered : Pc → Bool
  | .outside | .choose | .look | .take _ => false
  | _ => true

/-- past the wait for the other's choice -/
def Pc.queued : Pc → Bool
  | .waitTicket | .compare | .critical => true
  | _ => false

/-- what holds of host `i` towards the other: one that chooses after `i` has queued takes a later ticket -/
structure Side (s : State) (i : Fin 2) : Prop where
  choosing : s.shared.choosing i = (s.pc i).chooses
  ticket : s.shared.ticket i ≠ 0 ↔ (s.pc i).numbered = true
  later : (s.pc i).queued = true → ∀ ot, s.pc (1 - i) = .take ot → ot = s.shared.ticket i
  first : s.pc i = .critical → (s.pc (1 - i)).numbered = true →
    s.shared.ticket i < s.shared.ticket (1 - i) ∨ s.shared.ticket i = s.shared.ticket (1 - i) ∧ i < 1 - i
  read : ∀ ot, s.pc i = .take ot → ot < 2 ^ 32 - 1

variable {s : State} {i j : Fin 2}

lemma side_mover (hi : Side s i) (hj : Side s j) (hij : 1 - i = j) (hne : j ≠ i) (hsmall : Small s i) :
    Side (s.step move i) i := by
  obtain ⟨hchoosing, hticket, hlater, hfirst, hread⟩ := hi
  have hc := hj.choosing
  have ht := hj.ticket
  rw [hij] at hlater hfirst
  have hsmall' := hsmall j
  cases hp : s.pc i <;> simp only [hp, Pc.chooses, Pc.numbered, Pc.queued] at hchoosing hticket hlater hfirst hread <;>
    constructor <;> simp only [Sys.step, hp, move, hij, update_self, update_of_ne hne]
  case waitChoosing.later =>
    -- the other has been found not choosing, so it is not at `take`
    grind -ring [Pc.chooses, Pc.queued]
  case waitTicket.first =>
    -- the other has been found without a ticket
    grind -ring [Pc.numbered]
  case compare.first =>
    -- the test that lets the host pass is the order of the tickets
    grind -ring [Pc.numbered]
  all_goals grind -ring [Pc.chooses, Pc.numbered, Pc.queued]

lemma side_other (hi : Side s i) (hj : Side s j) (hij : 1 - i = j) (hji : 1 - j = i) (hne : j ≠ i) :
    Side (s.step move i) j := by
  obtain ⟨hchoosing, hticket, hlater, hfirst, hread⟩ := hj
  have hc := hi.choosing
  have ht := hi.ticket
  have hr := hi.read
  rw [hji] at hlater hfirst
  cases hp : s.pc i <;> simp only [hp, Pc.chooses, Pc.numbered] at hc ht hr hlater hfirst <;> constructor <;>
    simp only [Sys.step, hp, move, hij, hji, update_self, update_of_ne hne]
  case look.later =>
    -- host `i` reads the ticket of a queued `j`
    grind -ring [Pc.queued]
  case take.first =>
    -- the ticket it writes is greater than the one it has read
    grind -ring [Pc.numbered, Pc.queued]
  all_goals grind -ring [Pc.chooses, Pc.numbered, Pc.queued]

lemma other_eq {i k : Fin 2} (h : k ≠ i) : 1 - i = k ∧ 1 - k = i := by
  revert i k
  decide

lemma side_step (s : State) (i : Fin 2) (h : ∀ k, Side s k) (hsmall : Small s i) : ∀ k, Side (s.step move i) k := by
  intro k
  by_cases hk : k = i
  · subst hk
    have hne : ∀ k : Fin 2, 1 - k ≠ k := by decide
    exact side_mover (h k) (h _) rfl (hne k) hsmall
  · obtain ⟨hik, hki⟩ := other_eq hk
    exact side_other (h i) (h k) hik hki hk

/-- The bakery lock excludes as long as no ticket is used up. -/
theorem bakery_excludes (sched : List (Fin 2)) (h : AllSteps (Sys.step move) Small start sched) :
    Excludes (run (Sys.step move) start sched) := by
  have hstart : ∀ i, Side start i := fun i => ⟨rfl, by simp [start, Pc.numbered], by simp [start, Pc.queued],
    by simp [start], by simp [start]⟩
  have hside := run_inv side_step hstart h
  intro i j hi hj
  by_contra hne
  obtain ⟨hji, hij⟩ := other_eq hne
  have hfirst := (hside i).first hi
  have hsecond := (hside j).first hj
  rw [hij, hj] at hfirst
  rw [hji, hi] at hsecond
  have h1 := hfirst rfl
  have h2 := hsecond rfl
  omega

/-- both hosts choose at once and take the same ticket -/
def contended : List (Fin 2) := (List.replicate 8 [0, 1]).flatten

theorem bakery_excludes_contended : (run (Sys.step move) start contended).pc 0 = .critical ∧
    (run (Sys.step move) start contended).pc 1 = .waitTicket ∧ Excludes (run (Sys.step move) start contended) :=
  ⟨by decide, by decide, bakery_excludes _ (by
    simp [contended, List.replicate, AllSteps, Small, Sys.step, move, start, Fin.forall_fin_two])⟩

end Bakery

end CxlMemSim.Bench
