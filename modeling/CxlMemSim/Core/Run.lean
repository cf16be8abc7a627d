/-
Runs of a machine, any `step : σ → α → σ`, as left folds over its operations, and the rules by which every safety result
of this project is proved. `AllSteps step C s ops`: `C` holds of every state of the run with the operation taken there.
-/
import Mathlib

namespace CxlMemSim.Core

open List Function

instance neZero_two : NeZero 2 := ⟨two_ne_zero⟩

instance neZero_four : NeZero 4 := ⟨four_ne_zero⟩

instance neZero_eight : NeZero 8 := ⟨by decide⟩

variable {σ α : Type*}

def run (step : σ → α → σ) (s : σ) (ops : List α) : σ := ops.foldl step s

def AllSteps (step : σ → α → σ) (C : σ → α → Prop) : σ → List α → Prop
  | _, [] => True
  | s, o :: ops => C s o ∧ AllSteps step C (step s o) ops

section

variable (step : σ → α → σ)

@[simp] lemma run_nil (s : σ) : run step s [] = s := rfl

lemma run_cons (s : σ) (o : α) (ops : List α) : run step s (o :: ops) = run step (step s o) ops := rfl

lemma run_append (s : σ) (a b : List α) : run step s (a ++ b) = run step (run step s a) b := by simp [run, foldl_append]

lemma run_snoc (s : σ) (ops : List α) (o : α) : run step s (ops ++ [o]) = step (run step s ops) o := by
  simp [run, foldl_append]

variable (C : σ → α → Prop) (s : σ)

@[simp] lemma allSteps_nil : AllSteps step C s [] := trivial

lemma allSteps_cons (o : α) (ops : List α) :
    AllSteps step C s (o :: ops) ↔ C s o ∧ AllSteps step C (step s o) ops := Iff.rfl

lemma allSteps_append (a b : List α) :
    AllSteps step C s (a ++ b) ↔ AllSteps step C s a ∧ AllSteps step C (run step s a) b := by
  induction a generalizing s with
  | nil => simp
  | cons o a ih => simp only [cons_append, allSteps_cons, ih, run_cons, and_assoc]

end

instance (step : σ → α → σ) (C : σ → α → Prop) [∀ s o, Decidable (C s o)] :
    ∀ (s : σ) (ops : List α), Decidable (AllSteps step C s ops)
  | _, [] => isTrue trivial
  | s, o :: ops =>
    have : Decidable (AllSteps step C (step s o) ops) := instDecidableAllSteps step C (step s o) ops
    inferInstanceAs (Decidable (C s o ∧ AllSteps step C (step s o) ops))

variable {C : σ → α → Prop} {P : σ → Prop} {s : σ} {ops : List α} {Q : σ → α → Prop}

variable {step : σ → α → σ}

/-- Invariant rule. What every step that meets `C` keeps, holds after every run whose steps meet `C`. -/
lemma run_inv (hstep : ∀ s o, P s → C s o → P (step s o)) (hs : P s)
    (hC : AllSteps step C s ops) : P (run step s ops) := by
  induction ops generalizing s with
  | nil => exact hs
  | cons o ops ih => exact ih (hstep s o hs hC.1) hC.2

lemma run_inv_all (hstep : ∀ s o, P s → P (step s o)) (ops : List α) (hs : P s) : P (run step s ops) := by
  induction ops generalizing s with
  | nil => exact hs
  | cons o ops ih => exact ih (hstep s o hs)

lemma run_inv_mem {C : α → Prop} (hstep : ∀ s o, P s → C o → P (step s o))
    (hs : P s) (hC : ∀ o ∈ ops, C o) : P (run step s ops) := by
  induction ops generalizing s with
  | nil => exact hs
  | cons o ops ih => exact ih (hstep s o hs (hC o mem_cons_self)) fun o' ho' => hC o' (mem_cons_of_mem o ho')

/-- Step rule. If an invariant gives `Q` at every step that meets `C`, `Q` holds at every step of such a run. -/
lemma allSteps_of_inv (hstep : ∀ s o, P s → C s o → P (step s o))
    (hQ : ∀ s o, P s → C s o → Q s o) (hs : P s) (hC : AllSteps step C s ops) : AllSteps step Q s ops := by
  induction ops generalizing s with
  | nil => trivial
  | cons o ops ih => exact ⟨hQ s o hs hC.1, ih (hstep s o hs hC.1) hC.2⟩

/-- Exactness rule. If under an invariant that `C` keeps `Q` holds at a step exactly if `C` does, the same runs meet
both. -/
lemma allSteps_iff_of_inv (hstep : ∀ s o, P s → C s o → P (step s o))
    (hiff : ∀ s o, P s → (Q s o ↔ C s o)) (hs : P s) : AllSteps step Q s ops ↔ AllSteps step C s ops :=
  ⟨allSteps_of_inv (fun s o hP hQ => hstep s o hP ((hiff s o hP).mp hQ)) (fun s o hP => (hiff s o hP).mp) hs,
    allSteps_of_inv hstep (fun s o hP => (hiff s o hP).mpr) hs⟩

lemma allSteps_of_forall (hQ : ∀ s o, Q s o) (s : σ) (ops : List α) : AllSteps step Q s ops := by
  induction ops generalizing s with
  | nil => trivial
  | cons o ops ih => exact ⟨hQ s o, ih _⟩

/-! ## Machines side by side -/

section Each

variable {ι : Type*} [DecidableEq ι]

def each (step : σ → α → σ) (s : ι → σ) (o : ι × α) : ι → σ := update s o.1 (step (s o.1) o.2)

def opsOf (i : ι) (ops : List (ι × α)) : List α := ops.filterMap fun o => if o.1 = i then some o.2 else none

lemma run_each (step : σ → α → σ) (s : ι → σ) (ops : List (ι × α)) (i : ι) :
    run (each step) s ops i = run step (s i) (opsOf i ops) := by
  induction ops generalizing s with
  | nil => rfl
  | cons o ops ih =>
    rw [run_cons, ih]
    by_cases h : o.1 = i
    · subst h
      simp [opsOf, each, run_cons]
    · have hs : each step s o i = s i := update_of_ne (Ne.symm h) _ _
      simp [opsOf, h, hs]

lemma allSteps_each {s : ι → σ} {ops : List (ι × α)}
    (h : AllSteps (each step) (fun s o => C (s o.1) o.2) s ops) (i : ι) : AllSteps step C (s i) (opsOf i ops) := by
  induction ops generalizing s with
  | nil => trivial
  | cons o ops ih =>
    have hrest := ih h.2
    by_cases hi : o.1 = i
    · subst hi
      have heq : each step s o o.1 = step (s o.1) o.2 := update_self ..
      rw [heq] at hrest
      have hops : opsOf o.1 (o :: ops) = o.2 :: opsOf o.1 ops := by simp [opsOf]
      rw [hops]
      exact ⟨h.1, hrest⟩
    · have hs : each step s o i = s i := update_of_ne (Ne.symm hi) _ _
      rw [hs] at hrest
      simpa [opsOf, hi] using hrest

end Each

end CxlMemSim.Core
