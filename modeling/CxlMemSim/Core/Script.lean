/-
Programs of threads that share a region of cells with a device, and the rule by which an advisory lock isolates them.

A `Script` is the program of one call; each of its actions is one atomic step. The lock belongs to a process: its
threads take it again without waiting, and any of them releases it. A cell carries the origin of its value.
-/
import CxlMemSim.Core.Run

namespace CxlMemSim.Core

open List Function

inductive Origin where
  | initial
  | call (id : ℕ)
  | device (submission : ℕ)
deriving DecidableEq, Repr

/-- the program of one call, over cells `C` with values `V`, commands `K` answered by `A`, and private data `G` -/
inductive Script (C V K A G α : Type) where
  | ret (a : α)
  | lock (next : Script C V K A G α)
  | unlock (next : Script C V K A G α)
  | store (cells : List (C × V)) (next : Script C V K A G α)
  | load (cells : List C) (next : List V → Script C V K A G α)
  | submit (cmd : K) (next : A → Script C V K A G α)
  /-- changes the private data of the process and goes on with the data from before -/
  | update (f : G → G) (next : G → Script C V K A G α)

variable {C V K A G R α β : Type}

namespace Script

def bind : Script C V K A G α → (α → Script C V K A G β) → Script C V K A G β
  | ret a, f => f a
  | lock next, f => lock (next.bind f)
  | unlock next, f => unlock (next.bind f)
  | store cells next, f => store cells (next.bind f)
  | load cells next, f => load cells fun vs => (next vs).bind f
  | submit cmd next, f => submit cmd fun a => (next a).bind f
  | update g next, f => update g fun own => (next own).bind f

instance : Monad (Script C V K A G) where
  pure := ret
  bind := bind

end Script

/-! ## The shared region and the device -/

structure Region (C V : Type) where
  content : C → V
  origin : C → Origin
  submissions : ℕ

/-- what the device reads when it executes a command, and what it answers and stores -/
structure Device (C V K A : Type) where
  consumes : K → (C → V) → C → Prop
  exec : K → ℕ → (C → V) → A × List (C × V)

/-- the executions of a command that its call counts on, by what was answered and stored -/
class Reliance (C V K A : Type) where
  relied : K → A × List (C × V) → Prop

namespace Region

variable [DecidableEq C]

def put (r : Region C V) (who : Origin) (w : C × V) : Region C V :=
  { r with content := update r.content w.1 w.2, origin := update r.origin w.1 who }

def store (r : Region C V) (who : Origin) (cells : List (C × V)) : Region C V := cells.foldl (fun r w => r.put who w) r

def answer (r : Region C V) (dev : Device C V K A) (cmd : K) : A := (dev.exec cmd r.submissions r.content).1

def relied [Reliance C V K A] (r : Region C V) (dev : Device C V K A) (cmd : K) : Prop :=
  Reliance.relied cmd (dev.exec cmd r.submissions r.content)

def submit (r : Region C V) (dev : Device C V K A) (cmd : K) : Region C V :=
  { r with submissions := r.submissions + 1 }.store (.device r.submissions) (dev.exec cmd r.submissions r.content).2

section

variable (r : Region C V) (who : Origin)

@[simp] lemma store_nil : r.store who [] = r := rfl

lemma store_cons (w : C × V) (cells : List (C × V)) : r.store who (w :: cells) = (r.put who w).store who cells := rfl

lemma store_origin (cells : List (C × V)) (c : C) :
    (r.store who cells).origin c = if c ∈ cells.map Prod.fst then who else r.origin c := by
  induction cells generalizing r with
  | nil => simp
  | cons w cells ih =>
    rw [store_cons, ih]
    by_cases hmem : c ∈ cells.map Prod.fst
    · simp [hmem]
    · by_cases hc : c = w.1 <;> simp [hmem, hc, put]

end

variable {cells : List (C × V)} {c : C}

section

variable (r : Region C V) (who : Origin)

lemma store_origin_of_mem (h : c ∈ cells.map Prod.fst) : (r.store who cells).origin c = who := by
  rw [store_origin, if_pos h]

lemma store_content_of_not_mem (h : c ∉ cells.map Prod.fst) : (r.store who cells).content c = r.content c := by
  induction cells generalizing r with
  | nil => rfl
  | cons w cells ih =>
    simp only [map_cons, mem_cons, not_or] at h
    rw [store_cons, ih _ h.2]
    exact update_of_ne h.1 _ _

lemma store_content_of_mem {v : V}
    (h : (c, v) ∈ cells) (hnd : (cells.map Prod.fst).Nodup) : (r.store who cells).content c = v := by
  induction cells generalizing r with
  | nil => cases h
  | cons w cells ih =>
    rw [map_cons, nodup_cons] at hnd
    rw [store_cons]
    rcases List.mem_cons.mp h with rfl | h
    · rw [store_content_of_not_mem _ _ hnd.1]
      exact update_self _ _ _
    · exact ih _ h hnd.2

lemma store_content_const {x : V}
    (hx : ∀ w ∈ cells, w.2 = x) (h : c ∈ cells.map Prod.fst) : (r.store who cells).content c = x := by
  induction cells generalizing r with
  | nil => cases h
  | cons w cells ih =>
    rw [store_cons]
    by_cases hmem : c ∈ cells.map Prod.fst
    · exact ih _ (fun w hw => hx w (mem_cons_of_mem _ hw)) hmem
    · obtain rfl : c = w.1 := by simpa [hmem] using h
      rw [store_content_of_not_mem _ _ hmem]
      exact (update_self _ _ _).trans (hx w mem_cons_self)

end

lemma submit_origin_of_mem (r : Region C V) (dev : Device C V K A) (cmd : K)
    (h : c ∈ (dev.exec cmd r.submissions r.content).2.map Prod.fst) :
    (r.submit dev cmd).origin c = .device r.submissions := store_origin_of_mem _ _ h

end Region

/-! ## One thread's view -/

/-- what one thread sees; `alone` is that no other call is in progress -/
structure View (C V G : Type) where
  region : Region C V
  held : Bool
  alone : Prop
  own : G
  last : Option ℕ

namespace View

def exclusive (v : View C V G) : Prop := v.held = true ∨ v.alone

def Produced (v : View C V G) (c : C) : Prop := ∃ n, v.last = some n ∧ v.region.origin c = .device n

variable [DecidableEq C]

def store (v : View C V G) (id : ℕ) (cells : List (C × V)) : View C V G :=
  { v with region := v.region.store (.call id) cells }

def submit (v : View C V G) (dev : Device C V K A) (cmd : K) : View C V G :=
  { v with region := v.region.submit dev cmd, last := some v.region.submissions }

end View

namespace Script

variable [DecidableEq C] [Reliance C V K A]

/-- the weakest precondition of a script of call `id`: nothing is known of the region when the lock has just been
taken, and nothing is asked of it after an execution it does not count on -/
def Ok (dev : Device C V K A) (id : ℕ) : Script C V K A G α → (α → View C V G → Prop) → View C V G → Prop
  | ret a, Q, v => Q a v
  | lock next, Q, v => v.held = false ∧ ∀ region, next.Ok dev id Q { v with held := true, region }
  | unlock next, Q, v => v.held = true ∧ next.Ok dev id Q { v with held := false }
  | store cells next, Q, v => v.exclusive ∧ next.Ok dev id Q (v.store id cells)
  | load cells next, Q, v =>
    v.exclusive ∧ (∀ c ∈ cells, v.Produced c) ∧ (next (cells.map v.region.content)).Ok dev id Q v
  | submit cmd next, Q, v =>
    v.exclusive ∧ (∀ c, dev.consumes cmd v.region.content c → v.region.origin c = .call id) ∧
      (v.region.relied dev cmd → (next (v.region.answer dev cmd)).Ok dev id Q (v.submit dev cmd))
  | update f next, Q, v => (next v.own).Ok dev id Q { v with own := f v.own }

variable {dev : Device C V K A} {id : ℕ} {s : Script C V K A G α} {v : View C V G}

@[simp] lemma ok_pure (a : α) (Q : α → View C V G → Prop) (v : View C V G) :
    (pure a : Script C V K A G α).Ok dev id Q v ↔ Q a v := Iff.rfl

@[simp] lemma ok_bind (s : Script C V K A G α) (f : α → Script C V K A G β) (Q : β → View C V G → Prop)
    (v : View C V G) : (s >>= f).Ok dev id Q v ↔ s.Ok dev id (fun a v => (f a).Ok dev id Q v) v := by
  change (s.bind f).Ok dev id Q v ↔ _
  induction s generalizing v with
  | ret a => rfl
  | lock next ih | unlock next ih | store cells next ih | load cells next ih | submit cmd next ih | update f next ih =>
    simp only [bind, Ok, ih]

lemma ok_mono {Q Q' : α → View C V G → Prop} (hQ : ∀ a v, Q a v → Q' a v) (h : s.Ok dev id Q v) : s.Ok dev id Q' v := by
  induction s generalizing v with
  | ret a => exact hQ a v h
  | lock next ih => exact ⟨h.1, fun region => ih (h.2 region)⟩
  | unlock next ih | store cells next ih => exact ⟨h.1, ih h.2⟩
  | load cells next ih => exact ⟨h.1, h.2.1, ih _ h.2.2⟩
  | submit cmd next ih => exact ⟨h.1, h.2.1, fun hrelied => ih _ (h.2.2 hrelied)⟩
  | update f next ih => exact ih _ h

def Ended (I : G → Prop) (_ : α) (v : View C V G) : Prop := v.held = false ∧ I v.own

/-- Frame. A thread outside the lock, with calls beside it, does not notice what others do to the region. -/
lemma Ok.frame {I : G → Prop} (h : s.Ok dev id (Ended I) v)
    (hheld : v.held = false) (halone : ¬ v.alone) (region : Region C V) : s.Ok dev id (Ended I) { v with region } := by
  have hne : ¬ v.exclusive := by simp [View.exclusive, hheld, halone]
  induction s generalizing v with
  | ret a | lock next ih => exact h
  | unlock next ih => exact absurd h.1 (by simp [hheld])
  | store cells next ih | load cells next ih | submit cmd next ih => exact absurd h.1 hne
  | update f next ih => exact ih v.own (v := { v with own := f v.own }) h hheld halone hne

end Script

/-! ## Any number of threads -/

structure Setup (T P J C V K A G R : Type) where
  proc : T → P
  dev : Device C V K A
  script : J → Script C V K A G R

structure Running (J C V K A G R : Type) where
  id : ℕ
  job : J
  last : Option ℕ
  rest : Script C V K A G R

structure System (T P J C V K A G R : Type) where
  region : Region C V
  holder : Option P
  own : P → G
  thread : T → Option (Running J C V K A G R)
  nextId : ℕ

inductive Event (T J : Type) where
  | call (t : T) (job : J)
  | next (t : T)
deriving DecidableEq, Repr

variable {T P J : Type} [DecidableEq T] [DecidableEq P] [DecidableEq C]

namespace Setup

variable (S : Setup T P J C V K A G R)

abbrev Sys (_ : Setup T P J C V K A G R) : Type := System T P J C V K A G R

def advance (s : S.Sys) (t : T) (r : Running J C V K A G R) : S.Sys :=
  match r.rest with
  | .ret _ => { s with thread := update s.thread t none }
  | .lock next =>
    if s.holder = none ∨ s.holder = some (S.proc t) then
      { s with holder := some (S.proc t), thread := update s.thread t (some { r with rest := next }) }
    else s
  | .unlock next =>
    { s with
      holder := if s.holder = some (S.proc t) then none else s.holder
      thread := update s.thread t (some { r with rest := next }) }
  | .store cells next =>
    { s with
      region := s.region.store (.call r.id) cells
      thread := update s.thread t (some { r with rest := next }) }
  | .load cells next =>
    { s with thread := update s.thread t (some { r with rest := next (cells.map s.region.content) }) }
  | .submit cmd next =>
    { s with
      region := s.region.submit S.dev cmd
      thread := update s.thread t
        (some { r with last := some s.region.submissions, rest := next (s.region.answer S.dev cmd) }) }
  | .update f next =>
    { s with
      own := update s.own (S.proc t) (f (s.own (S.proc t)))
      thread := update s.thread t (some { r with rest := next (s.own (S.proc t)) }) }

def step (s : S.Sys) : Event T J → S.Sys
  | .call t job =>
    match s.thread t with
    | some _ => s
    | none =>
      { s with
        thread := update s.thread t (some ⟨s.nextId, job, none, S.script job⟩)
        nextId := s.nextId + 1 }
  | .next t =>
    match s.thread t with
    | none => s
    | some r => S.advance s t r

/-- a command consumes only cells that its own call stored, and a call loads only what its own last command produced -/
def Respects (region : Region C V) (r : Running J C V K A G R) : Prop :=
  match r.rest with
  | .submit cmd _ => ∀ c, S.dev.consumes cmd region.content c → region.origin c = .call r.id
  | .load cells _ => ∀ c ∈ cells, ∃ n, r.last = some n ∧ region.origin c = .device n
  | _ => True

def Own (s : S.Sys) : Event T J → Prop
  | .call _ _ => True
  | .next t => ∀ r, s.thread t = some r → S.Respects s.region r

def start (S : Setup T P J C V K A G R) (content : C → V) (own : P → G) : S.Sys :=
  ⟨⟨content, fun _ => .initial, 0⟩, none, own, fun _ => none, 0⟩

variable [Reliance C V K A]

/-- no other thread of the process is inside a call, a call that needs the region `alone` has none beside it, and
every command is executed as its call counts on -/
def Orderly (alone : J → Prop) (s : S.Sys) : Event T J → Prop
  | .call t job => ∀ t' r, t' ≠ t → s.thread t' = some r → S.proc t' ≠ S.proc t ∧ ¬ alone job ∧ ¬ alone r.job
  | .next t => ∀ r cmd next, s.thread t = some r → r.rest = .submit cmd next → s.region.relied S.dev cmd

def Safe (alone : J → Prop) (I : G → Prop) (job : J) : Prop :=
  ∀ id (v : View C V G), v.held = false → (alone job → v.alone) → I v.own →
    (S.script job).Ok S.dev id (Script.Ended I) v

/-! ## The invariant of orderly runs -/

section Isolation

variable {S} {alone : J → Prop} {I : G → Prop} {s : S.Sys}

variable (S) in
def view (alone : J → Prop) (s : S.Sys) (t : T) (r : Running J C V K A G R) : View C V G :=
  ⟨s.region, decide (s.holder = some (S.proc t)), alone r.job, s.own (S.proc t), r.last⟩

variable (S) in
structure Inv (alone : J → Prop) (I : G → Prop) (s : S.Sys) : Prop where
  ok : ∀ t r, s.thread t = some r → r.rest.Ok S.dev r.id (Script.Ended I) (S.view alone s t r)
  apart : ∀ t t' r r', t ≠ t' → s.thread t = some r → s.thread t' = some r' →
    S.proc t ≠ S.proc t' ∧ ¬ alone r.job ∧ ¬ alone r'.job
  held : ∀ p, s.holder = some p → ∃ t r, s.thread t = some r ∧ S.proc t = p
  idle : ∀ p, (∀ t r, s.thread t = some r → S.proc t ≠ p) → I (s.own p)

variable {t : T} {r : Running J C V K A G R} {r' : Running J C V K A G R} {own : P → G}

omit [DecidableEq T] in
lemma Inv.respects (h : S.Inv alone I s) (hr : s.thread t = some r) : S.Respects s.region r := by
  have hok := h.ok t r hr
  unfold Respects
  cases hrest : r.rest <;> simp only [hrest, Script.Ok] at hok ⊢
  case load | submit => exact hok.2.1

omit [DecidableEq T] in
lemma Inv.others_wait (h : S.Inv alone I s) {t' : T} (hr : s.thread t = some r) (hr' : s.thread t' = some r')
    (hne : t' ≠ t) (hex : (S.view alone s t r).exclusive) :
    (S.view alone s t' r').held = false ∧ ¬ (S.view alone s t' r').alone := by
  obtain ⟨hproc, halone', halone⟩ := h.apart t' t r' r hne hr' hr
  have hheld : s.holder = some (S.proc t) := by simpa [view, View.exclusive, halone] using hex
  refine ⟨?_, halone'⟩
  simp only [view, hheld, decide_eq_false_iff_not, Option.some.injEq]
  exact hproc.symm

/-- a thread goes on inside its call; the others see another region only when waiting outside -/
lemma Inv.continue (h : S.Inv alone I s) (hr : s.thread t = some r)
    {s' : S.Sys} (hthread : s'.thread = update s.thread t (some r')) (hjob : r'.job = r.job)
    (hok : r'.rest.Ok S.dev r'.id (Script.Ended I) (S.view alone s' t r'))
    (hholder : ∀ p, p ≠ S.proc t → (s'.holder = some p ↔ s.holder = some p))
    (hown : ∀ p, p ≠ S.proc t → s'.own p = s.own p)
    (hregion : s'.region = s.region ∨ (S.view alone s t r).exclusive) : S.Inv alone I s' := by
  have hself : s'.thread t = some r' := by rw [hthread, update_self]
  have hother : ∀ u, u ≠ t → s'.thread u = s.thread u := fun u hu => by rw [hthread, update_of_ne hu]
  have hapart : ∀ u q, u ≠ t → s.thread u = some q → S.proc u ≠ S.proc t ∧ ¬ alone q.job ∧ ¬ alone r'.job := by
    intro u q hu hq
    rw [hjob]
    exact h.apart u t q r hu hq hr
  refine ⟨?_, ?_, ?_, ?_⟩
  · intro u q hq
    by_cases hu : u = t
    · subst hu
      obtain rfl : r' = q := Option.some.inj (hself.symm.trans hq)
      exact hok
    · rw [hother u hu] at hq
      obtain ⟨hproc, -, -⟩ := hapart u q hu hq
      -- the view of another thread differs in the region at most
      have hview : S.view alone s' u q = { S.view alone s u q with region := s'.region } := by
        simp [view, hholder _ hproc, hown _ hproc]
      rw [hview]
      rcases hregion with heq | hex
      · rw [heq]; exact h.ok u q hq
      · obtain ⟨hheld, halone⟩ := h.others_wait hr hq hu hex
        exact (h.ok u q hq).frame hheld halone _
  · intro u u' q q' hne hq hq'
    by_cases hu : u = t
    · subst hu
      obtain rfl : r' = q := Option.some.inj (hself.symm.trans hq)
      rw [hother u' hne.symm] at hq'
      obtain ⟨h1, h2, h3⟩ := hapart u' q' hne.symm hq'
      exact ⟨h1.symm, h3, h2⟩
    · rw [hother u hu] at hq
      by_cases hu' : u' = t
      · subst hu'
        obtain rfl : r' = q' := Option.some.inj (hself.symm.trans hq')
        exact hapart u q hu hq
      · rw [hother u' hu'] at hq'
        exact h.apart u u' q q' hne hq hq'
  · intro p hp
    by_cases hpt : p = S.proc t
    · exact ⟨t, r', hself, hpt.symm⟩
    · obtain ⟨u, q, hq, hproc⟩ := h.held p ((hholder p hpt).mp hp)
      have hu : u ≠ t := fun hu => hpt (hu ▸ hproc.symm)
      exact ⟨u, q, by rwa [hother u hu], hproc⟩
  · intro p hp
    have hpt : p ≠ S.proc t := fun hpt => hp t r' hself hpt.symm
    rw [hown p hpt]
    refine h.idle p fun u q hq hproc => ?_
    have hu : u ≠ t := fun hu => hpt (hu ▸ hproc.symm)
    exact hp u q (by rwa [hother u hu]) hproc

lemma Inv.return (h : S.Inv alone I s) (hend : Script.Ended I () (S.view alone s t r)) :
    S.Inv alone I { s with thread := update s.thread t none } := by
  have hthread : ∀ {u q}, update s.thread t none u = some q → u ≠ t ∧ s.thread u = some q := by
    intro u q hq
    by_cases hu : u = t
    · rw [hu, update_self] at hq; cases hq
    · rw [update_of_ne hu] at hq; exact ⟨hu, hq⟩
  have hfree : s.holder ≠ some (S.proc t) := by simpa [view] using hend.1
  refine ⟨?_, ?_, ?_, ?_⟩
  · exact fun u q hq => h.ok u q (hthread hq).2
  · exact fun u u' q q' hne hq hq' => h.apart u u' q q' hne (hthread hq).2 (hthread hq').2
  · intro p hp
    obtain ⟨u, q, hq, hproc⟩ := h.held p hp
    have hu : u ≠ t := fun hu => hfree (by rw [← hu, hproc]; exact hp)
    exact ⟨u, q, (update_of_ne hu _ _).trans hq, hproc⟩
  · intro p hp
    by_cases hpt : p = S.proc t
    · exact hpt ▸ hend.2
    · refine h.idle p fun u q hq hproc => hp u q ?_ hproc
      have hu : u ≠ t := fun hu => hpt (hu ▸ hproc.symm)
      exact (update_of_ne hu _ _).trans hq

lemma Inv.begin (h : S.Inv alone I s) {job : J} (hr : s.thread t = none) (hsafe : S.Safe alone I job)
    (hC : S.Orderly alone s (.call t job)) : S.Inv alone I { s with
      thread := update s.thread t (some ⟨s.nextId, job, none, S.script job⟩), nextId := s.nextId + 1 } := by
  have hbusy : ∀ u q, s.thread u = some q → u ≠ t := fun u q hq hu => by rw [hu, hr] at hq; cases hq
  have hsole : ∀ u q, s.thread u = some q → S.proc u ≠ S.proc t := fun u q hq => (hC u q (hbusy u q hq) hq).1
  have hfree : s.holder ≠ some (S.proc t) := by
    intro hp
    obtain ⟨u, q, hq, hproc⟩ := h.held _ hp
    exact hsole u q hq hproc
  have hcases : ∀ {u q}, update s.thread t (some ⟨s.nextId, job, none, S.script job⟩) u = some q →
      (u = t ∧ q = ⟨s.nextId, job, none, S.script job⟩) ∨ (u ≠ t ∧ s.thread u = some q) := by
    intro u q hq
    by_cases hu : u = t
    · rw [hu, update_self] at hq
      exact .inl ⟨hu, (Option.some.inj hq).symm⟩
    · rw [update_of_ne hu] at hq; exact .inr ⟨hu, hq⟩
  refine ⟨?_, ?_, ?_, ?_⟩
  · intro u q hq
    rcases hcases hq with ⟨rfl, rfl⟩ | ⟨-, hq⟩
    · exact hsafe _ _ (by simpa [view] using hfree) (fun ha => ha) (h.idle _ hsole)
    · exact h.ok u q hq
  · intro u u' q q' hne hq hq'
    rcases hcases hq with ⟨rfl, rfl⟩ | ⟨hu, hqs⟩ <;> rcases hcases hq' with ⟨rfl, rfl⟩ | ⟨hu', hqs'⟩
    · exact absurd rfl hne
    · obtain ⟨h1, h2, h3⟩ := hC u' q' hu' hqs'
      exact ⟨h1.symm, h2, h3⟩
    · obtain ⟨h1, h2, h3⟩ := hC u q hu hqs
      exact ⟨h1, h3, h2⟩
    · exact h.apart u u' q q' hne hqs hqs'
  · intro p hp
    obtain ⟨u, q, hq, hproc⟩ := h.held p hp
    exact ⟨u, q, (update_of_ne (hbusy u q hq) _ _).trans hq, hproc⟩
  · intro p hp
    exact h.idle p fun u q hq => hp u q ((update_of_ne (hbusy u q hq) _ _).trans hq)

lemma Inv.advance (h : S.Inv alone I s) (hr : s.thread t = some r) (hC : S.Orderly alone s (.next t)) :
    S.Inv alone I (S.advance s t r) := by
  have hok := h.ok t r hr
  unfold Setup.advance
  cases hrest : r.rest <;> simp only [hrest, Script.Ok] at hok ⊢
  case ret a => exact h.return hok
  case lock next =>
    split_ifs with hfree
    · refine h.continue hr rfl rfl ?_ ?_ (fun _ _ => rfl) (.inl rfl)
      · simpa [view] using hok.2 s.region
      · intro p hp
        have hnone : s.holder = none := hfree.resolve_right (by simpa [view] using hok.1)
        simp [hnone, hp.symm]
    · exact h
  case unlock next =>
    have hheld : s.holder = some (S.proc t) := by simpa [view] using hok.1
    refine h.continue hr rfl rfl ?_ ?_ (fun _ _ => rfl) (.inl rfl)
    · simpa [view, hheld] using hok.2
    · intro p hp
      simp [hheld, hp.symm]
  case store cells next => exact h.continue hr rfl rfl hok.2 (fun _ _ => Iff.rfl) (fun _ _ => rfl) (.inr hok.1)
  case load cells next => exact h.continue hr rfl rfl hok.2.2 (fun _ _ => Iff.rfl) (fun _ _ => rfl) (.inl rfl)
  case submit cmd next =>
    exact h.continue hr rfl rfl (hok.2.2 (hC r cmd next hr hrest)) (fun _ _ => Iff.rfl) (fun _ _ => rfl) (.inr hok.1)
  case update f next =>
    refine h.continue hr rfl rfl ?_ (fun _ _ => Iff.rfl) (fun p hp => update_of_ne hp _ _) (.inl rfl)
    simpa [view] using hok

lemma Inv.step (hsafe : ∀ job, S.Safe alone I job) (s : S.Sys) (e : Event T J) (h : S.Inv alone I s)
    (hC : S.Orderly alone s e) : S.Inv alone I (S.step s e) := by
  cases e with
  | call t job =>
    cases hr : s.thread t with
    | none => simpa only [Setup.step, hr] using h.begin hr (hsafe job) hC
    | some r => simpa only [Setup.step, hr] using h
  | next t =>
    cases hr : s.thread t with
    | none => simpa only [Setup.step, hr] using h
    | some r => simpa only [Setup.step, hr] using h.advance hr hC

omit [DecidableEq T] in
lemma start_inv (content : C → V) (hown : ∀ p, I (own p)) : S.Inv alone I (S.start content own) :=
  ⟨fun _ _ hr => by (cases hr), fun _ _ _ _ _ hr => by (cases hr), fun _ hp => by (cases hp), fun p _ => hown p⟩

/-- Isolation rule. If every call's script is safe, commands and loads of an orderly run see only what their own
call stored or produced. -/
lemma own_of_orderly (hsafe : ∀ job, S.Safe alone I job) (content : C → V) (hown : ∀ p, I (own p))
    {es : List (Event T J)} (hC : AllSteps S.step (S.Orderly alone) (S.start content own) es) :
    AllSteps S.step S.Own (S.start content own) es := by
  refine allSteps_of_inv (P := S.Inv alone I) (Inv.step hsafe) ?_ (start_inv content hown) hC
  intro s e h _
  cases e with
  | call t job => trivial
  | next t => exact fun r hr => h.respects hr

end Isolation

end Setup

end CxlMemSim.Core
