/-
Threads that share a state: each has a place in its own code, and a step is one thread's next move.
-/
import CxlMemSim.Core.Run

namespace CxlMemSim.Core

structure Sys (n : ℕ) (σ P : Type) where
  shared : σ
  pc : Fin n → P

variable {n : ℕ} {σ P : Type}

def Sys.step (move : Fin n → σ → P → σ × P) (s : Sys n σ P) (i : Fin n) : Sys n σ P :=
  ⟨(move i s.shared (s.pc i)).1, Function.update s.pc i (move i s.shared (s.pc i)).2⟩

/-- Progress. After `k` moves of a thread its rank has fallen by `k`, whatever the others did. -/
lemma rank_run {move : Fin n → σ → P → σ × P} {rank : P → ℕ} (hrank : ∀ i s p, rank (move i s p).2 ≤ rank p - 1)
    (s : Sys n σ P) (sched : List (Fin n)) (i : Fin n) :
    rank ((run (Sys.step move) s sched).pc i) ≤ rank (s.pc i) - sched.count i := by
  induction sched generalizing s with
  | nil => simp
  | cons j sched ih =>
    rw [run_cons]
    refine (ih _).trans ?_
    by_cases hj : j = i
    · subst hj
      have hmove := hrank j s.shared (s.pc j)
      rw [List.count_cons_self]
      simp only [Sys.step, Function.update_self]
      omega
    · rw [List.count_cons_of_ne hj]
      simp only [Sys.step, Function.update_of_ne (Ne.symm hj)]
      exact le_refl _

end CxlMemSim.Core
