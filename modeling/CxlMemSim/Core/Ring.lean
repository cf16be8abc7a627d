/-
Rings: slots filled and emptied in turn. Positions run on: `o` slots have been emptied and `a` filled.

- `window slots cap o n`: the `n` items from position `o` on;
- `Occupied cap lo hi k`: the slot `k` belongs to a position from `lo` up to `hi`.
-/
import Mathlib

namespace CxlMemSim.Core

variable {cap o a lo hi : ℕ} {k : ℕ}

section

variable (hle : o ≤ a) (hlt : a < o + cap)
include hle hlt

lemma mod_eq_iff : a % cap = o % cap ↔ a = o := by
  constructor
  · intro h
    have hdvd : cap ∣ a - o := (Nat.modEq_iff_dvd' hle).mp h.symm
    have hzero : a - o = 0 := Nat.eq_zero_of_dvd_of_lt hdvd (by omega)
    omega
  · intro h
    rw [h]

lemma full_iff : (a % cap + 1) % cap = o % cap ↔ a + 1 = o + cap := by
  rw [Nat.mod_add_mod]
  by_cases hfull : a + 1 = o + cap
  · simp [hfull]
  · rw [mod_eq_iff (by omega) (by omega)]
    omega

lemma dist_mod : (a % cap + cap - o % cap) % cap = a - o := by
  have hcap : 0 < cap := by omega
  have ho := Nat.mod_lt o hcap
  have hsum : (a % cap + cap - o % cap + o) % cap = a % cap := by
    have hdiv := Nat.div_add_mod o cap
    have heq : a % cap + cap - o % cap + o = a % cap + cap * (o / cap + 1) := by
      rw [Nat.mul_add, Nat.mul_one]
      omega
    rw [heq, Nat.add_mul_mod_self_left, Nat.mod_mod]
  have hback : (a - o + o) % cap = a % cap := by rw [Nat.sub_add_cancel hle]
  have hmod : (a % cap + cap - o % cap) % cap = (a - o) % cap := Nat.ModEq.add_right_cancel' o (hsum.trans hback.symm)
  rw [hmod, Nat.mod_eq_of_lt (by omega)]

end

/-! ## Occupied slots -/

def Occupied (cap lo hi k : ℕ) : Prop := ∃ j, lo ≤ j ∧ j < hi ∧ j % cap = k

lemma occupied_push (hle : lo ≤ hi) : Occupied cap lo (hi + 1) k ↔ Occupied cap lo hi k ∨ k = hi % cap := by
  constructor
  · rintro ⟨j, hlo, hhi, rfl⟩
    rcases Nat.lt_succ_iff_lt_or_eq.1 hhi with hlt | rfl
    · exact Or.inl ⟨j, hlo, hlt, rfl⟩
    · exact Or.inr rfl
  · rintro (⟨j, hlo, hhi, rfl⟩ | rfl)
    · exact ⟨j, hlo, Nat.lt_succ_of_lt hhi, rfl⟩
    · exact ⟨hi, hle, Nat.lt_succ_self hi, rfl⟩

lemma not_occupied_next (hroom : hi < lo + cap) : ¬ Occupied cap lo hi (hi % cap) := by
  rintro ⟨j, hlo, hhi, heq⟩
  have := (mod_eq_iff hhi.le (by omega)).1 heq.symm
  omega

lemma occupied_pop (hroom : hi ≤ lo + cap) : Occupied cap (lo + 1) hi k ↔ Occupied cap lo hi k ∧ k ≠ lo % cap := by
  constructor
  · rintro ⟨j, hlo, hhi, rfl⟩
    refine ⟨⟨j, by omega, hhi, rfl⟩, fun heq => ?_⟩
    have := (mod_eq_iff (by omega) (by omega)).1 heq
    omega
  · rintro ⟨⟨j, hlo, hhi, rfl⟩, hne⟩
    have hj : j ≠ lo := fun h => hne (by rw [h])
    exact ⟨j, by omega, hhi, rfl⟩

/-! ## Items -/

variable {β : Type*} {n : ℕ}

def window (slots : ℕ → β) (cap o n : ℕ) : List β := (List.range n).map fun j => slots ((o + j) % cap)

lemma window_mod (slots : ℕ → β) (cap o n : ℕ) : window slots cap (o % cap) n = window slots cap o n := by
  simp [window, Nat.mod_add_mod]

lemma window_succ (slots : ℕ → β) (cap o n : ℕ) :
    window slots cap o (n + 1) = slots (o % cap) :: window slots cap (o + 1) n := by
  have hshift : ∀ j, o + 1 + j = o + (j + 1) := by intro j; omega
  simp [window, List.range_succ_eq_map, hshift, Function.comp_def]

lemma window_update (slots : ℕ → β) (hle : o + n ≤ a) (hlt : a < o + cap) (x : β) :
    window (Function.update slots (a % cap) x) cap o n = window slots cap o n := by
  refine List.map_congr_left fun j hj => ?_
  have hjn := List.mem_range.mp hj
  have hne : (o + j) % cap ≠ a % cap := fun h => by
    have := (mod_eq_iff (by omega) (by omega)).mp h.symm
    omega
  rw [Function.update_of_ne hne]

lemma window_push {slots : ℕ → β} {x : β} (hx : slots ((o + n) % cap) = x) :
    window slots cap o (n + 1) = window slots cap o n ++ [x] := by
  simp [window, List.range_succ, hx]

end CxlMemSim.Core
