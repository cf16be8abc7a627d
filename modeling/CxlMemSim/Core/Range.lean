/-
Half-open ranges of natural numbers, given by base and size, and sums of 64-bit words.
-/
import Mathlib

namespace CxlMemSim.Core

def Apart (a n b m : ℕ) : Prop := a + n ≤ b ∨ b + m ≤ a

instance (a n b m : ℕ) : Decidable (Apart a n b m) := inferInstanceAs (Decidable (_ ∨ _))

def Covers (a n b m : ℕ) : Prop := 0 < m ∧ a ≤ b ∧ b + m ≤ a + n

instance (a n b m : ℕ) : Decidable (Covers a n b m) := inferInstanceAs (Decidable (_ ∧ _ ∧ _))

lemma Apart.symm {a n b m : ℕ} (h : Apart a n b m) : Apart b m a n := Or.symm h

lemma Apart.not_mem {a n b m x : ℕ} (h : Apart a n b m) (ha : a ≤ x ∧ x < a + n) : ¬ (b ≤ x ∧ x < b + m) := by
  unfold Apart at h; omega

def points (l : List (ℕ × ℕ)) : Finset ℕ := l.foldr (fun r F => Finset.Ico r.1 (r.1 + r.2) ∪ F) ∅

variable {l : List (ℕ × ℕ)}

lemma mem_points {x : ℕ} : x ∈ points l ↔ ∃ r ∈ l, r.1 ≤ x ∧ x < r.1 + r.2 := by
  induction l with
  | nil => simp [points]
  | cons r l ih =>
    have hcons : points (r :: l) = Finset.Ico r.1 (r.1 + r.2) ∪ points l := rfl
    rw [hcons, Finset.mem_union, Finset.mem_Ico, ih]
    simp

lemma card_points (hl : l.Pairwise fun r q => Apart r.1 r.2 q.1 q.2) : (points l).card = (l.map Prod.snd).sum := by
  induction l with
  | nil => rfl
  | cons r l ih =>
    obtain ⟨hr, hl⟩ := List.pairwise_cons.1 hl
    have hdis : Disjoint (Finset.Ico r.1 (r.1 + r.2)) (points l) := by
      rw [Finset.disjoint_left]
      intro x hx hxl
      obtain ⟨q, hq, hxq⟩ := mem_points.1 hxl
      exact (hr q hq).not_mem (Finset.mem_Ico.1 hx) hxq
    have hcons : points (r :: l) = Finset.Ico r.1 (r.1 + r.2) ∪ points l := rfl
    rw [hcons, Finset.card_union_of_disjoint hdis, ih hl, Nat.card_Ico]
    simp

/-- Disjoint ranges below T have total size at most T. -/
lemma sum_size_le {T : ℕ} (hl : l.Pairwise fun r q => Apart r.1 r.2 q.1 q.2)
    (hT : ∀ r ∈ l, r.1 + r.2 ≤ T) : (l.map Prod.snd).sum ≤ T := by
  have hsub : points l ⊆ Finset.range T := by
    intro x hx
    obtain ⟨r, hr, -, hx⟩ := mem_points.1 hx
    exact Finset.mem_range.2 (lt_of_lt_of_le hx (hT r hr))
  calc (l.map Prod.snd).sum = (points l).card := (card_points hl).symm
    _ ≤ (Finset.range T).card := Finset.card_le_card hsub
    _ = T := Finset.card_range T

lemma and_highMask {k x : ℕ} (hk : k ≤ 64) (hx : x < 2 ^ 64) : x &&& (2 ^ 64 - 2 ^ k) = x / 2 ^ k * 2 ^ k := by
  apply Nat.eq_of_testBit_eq
  intro i
  have hmask : 2 ^ 64 - 2 ^ k = (2 ^ (64 - k) - 1) * 2 ^ k := by
    rw [Nat.sub_mul, ← pow_add, Nat.sub_add_cancel hk, one_mul]
  rw [hmask, Nat.testBit_and, Nat.testBit_mul_two_pow, Nat.testBit_mul_two_pow, Nat.testBit_div_two_pow,
    Nat.testBit_two_pow_sub_one]
  by_cases hi : k ≤ i
  · simp only [hi, decide_true, Bool.true_and, Nat.sub_add_cancel hi]
    by_cases hlow : i - k < 64 - k
    · simp [hlow]
    · have hhigh : x.testBit i = false :=
        Nat.testBit_lt_two_pow (lt_of_lt_of_le hx (Nat.pow_le_pow_right (by norm_num) (by omega)))
      simp [hhigh]
  · simp [hi]

lemma toNat_foldl_add {α : Type*} (f : α → UInt64) (l : List α) (a : UInt64)
    (h : a.toNat + (l.map fun x => (f x).toNat).sum < 2 ^ 64) :
    (l.foldl (fun acc x => acc + f x) a).toNat = a.toNat + (l.map fun x => (f x).toNat).sum := by
  induction l generalizing a with
  | nil => simp
  | cons x l ih =>
    simp only [List.map_cons, List.sum_cons] at h ⊢
    have hadd : (a + f x).toNat = a.toNat + (f x).toNat := by rw [UInt64.toNat_add]; exact Nat.mod_eq_of_lt (by omega)
    rw [List.foldl_cons, ih _ (by rw [hadd]; omega), hadd]
    omega

end CxlMemSim.Core
