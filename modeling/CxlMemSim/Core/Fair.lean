/-
Infinite runs of a machine `step : σ → α → σ` under a fair scheduler; `move x` tells the operations of thread x.
-/
import Mathlib

namespace CxlMemSim.Core

variable {σ α ι : Type*} {step : σ → α → σ}

structure Trace (step : σ → α → σ) where
  state : ℕ → σ
  op : ℕ → α
  next : ∀ n, state (n + 1) = step (state n) (op n)

def Trace.of (step : σ → α → σ) (s : σ) (op : ℕ → α) : Trace step where
  state := Nat.rec s fun n s => step s (op n)
  op := op
  next _ := rfl

lemma Trace.inv (T : Trace step) {C : σ → α → Prop} {P : σ → Prop} (hstep : ∀ s o, P s → C s o → P (step s o))
    (h0 : P (T.state 0)) (hC : ∀ n, C (T.state n) (T.op n)) (n : ℕ) : P (T.state n) := by
  induction n with
  | zero => exact h0
  | succ n ih =>
    rw [T.next]
    exact hstep _ _ ih (hC n)

/-- a thread that is enabled infinitely often moves infinitely often -/
def StronglyFair (T : Trace step) (move : ι → α) (Enabled : σ → ι → Prop) : Prop :=
  ∀ x, (∀ n, ∃ m ≥ n, Enabled (T.state m) x) → ∀ n, ∃ m ≥ n, Enabled (T.state m) x ∧ T.op m = move x

lemma eventually_not_lt {β : Type*} [Preorder β] [WellFoundedLT β] (f : ℕ → β) {N : ℕ}
    (hle : ∀ n ≥ N, f (n + 1) ≤ f n) : ∃ M ≥ N, ∀ n ≥ M, ¬ f (n + 1) < f n := by
  have hmono : ∀ n m, N ≤ n → n ≤ m → f m ≤ f n := by
    intro n m hn hnm
    induction m, hnm using Nat.le_induction with
    | base => exact le_rfl
    | succ m hm ih => exact (hle m (hn.trans hm)).trans ih
  -- from where the smallest value is taken
  obtain ⟨_, ⟨M, hM, rfl⟩, hmin⟩ := wellFounded_lt.has_min (f '' {n | N ≤ n}) ⟨f N, N, Set.mem_ofPred.mpr le_rfl, rfl⟩
  refine ⟨M, hM, fun n hn hlt => ?_⟩
  have hN : N ≤ n + 1 := (Set.mem_ofPred.mp hM).trans (by omega)
  exact hmin (f (n + 1)) ⟨n + 1, hN, rfl⟩ (hlt.trans_le (hmono M n hM hn))

/-- A thread whose moves decrease a rank, which nobody increases, is disabled from some time on. -/
lemma eventually_disabled {T : Trace step} {move : ι → α} {Enabled : σ → ι → Prop} (hfair : StronglyFair T move Enabled)
    {x : ι} (rank : σ → ℕ) {N : ℕ} (hle : ∀ n ≥ N, rank (T.state (n + 1)) ≤ rank (T.state n))
    (hlt : ∀ n ≥ N, Enabled (T.state n) x → T.op n = move x → rank (T.state (n + 1)) < rank (T.state n)) :
    ∃ M ≥ N, ∀ n ≥ M, ¬ Enabled (T.state n) x := by
  by_contra hnever
  push Not at hnever
  have hmoves := hfair x fun n => by
    obtain ⟨m, hm, henabled⟩ := hnever (max n N) (le_max_right n N)
    exact ⟨m, (le_max_left n N).trans hm, henabled⟩
  obtain ⟨M, hM, hsettled⟩ := eventually_not_lt (fun n => rank (T.state n)) hle
  obtain ⟨m, hm, henabled, hop⟩ := hmoves M
  exact hsettled m hm (hlt m (hM.le.trans hm) henabled hop)

end CxlMemSim.Core
