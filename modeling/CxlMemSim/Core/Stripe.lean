/-
Striping: blocks of `g` positions dealt out in turn to `n` parts.
-/
import Mathlib

namespace CxlMemSim.Core

def stripe (g n x : ℕ) : ℕ × ℕ := (x / g % n, x / g / n * g + x % g)

def unstripe (g n : ℕ) (p : ℕ × ℕ) : ℕ := (p.2 / g * n + p.1) * g + p.2 % g

variable {g n : ℕ} {p : ℕ × ℕ}

lemma div_block (hg : 0 < g) (q : ℕ) {r : ℕ} (hr : r < g) : (q * g + r) / g = q := by
  rw [Nat.add_comm, Nat.add_mul_div_right _ _ hg, Nat.div_eq_of_lt hr, Nat.zero_add]

lemma mod_block (q : ℕ) {r : ℕ} (hr : r < g) : (q * g + r) % g = r := by
  rw [Nat.add_comm, Nat.add_mul_mod_self_right, Nat.mod_eq_of_lt hr]

/-- The position is recovered. -/
lemma unstripe_stripe (hg : 0 < g) (x : ℕ) : unstripe g n (stripe g n x) = x := by
  have hr : x % g < g := Nat.mod_lt x hg
  calc unstripe g n (stripe g n x) = (x / g / n * n + x / g % n) * g + x % g := by
        simp only [unstripe, stripe]
        rw [div_block hg _ hr, mod_block _ hr]
    _ = x / g * g + x % g := by rw [Nat.div_add_mod' (x / g) n]
    _ = x := Nat.div_add_mod' x g

lemma unstripe_div (hg : 0 < g) (p : ℕ × ℕ) : unstripe g n p / g = p.2 / g * n + p.1 :=
  div_block hg _ (Nat.mod_lt p.2 hg)

/-- Every place of every part has a position. -/
lemma stripe_unstripe (hg : 0 < g) (hp : p.1 < n) : stripe g n (unstripe g n p) = p := by
  have hmod : unstripe g n p % g = p.2 % g := mod_block _ (Nat.mod_lt p.2 hg)
  have hn : 0 < n := by omega
  refine Prod.ext ?_ ?_
  · simp only [stripe, unstripe_div hg]
    exact mod_block _ hp
  · simp only [stripe, unstripe_div hg, hmod]
    rw [div_block hn _ hp, Nat.div_add_mod']

/-- Full rounds are dense on each part. -/
lemma unstripe_lt (hg : 0 < g) (hp : p.1 < n) (m : ℕ) : unstripe g n p < m * (n * g) ↔ p.2 < m * g := by
  have hn : 0 < n := by omega
  calc unstripe g n p < m * (n * g) ↔ unstripe g n p / g / n < m := by
        rw [← Nat.mul_assoc, Nat.div_lt_iff_lt_mul hn, Nat.div_lt_iff_lt_mul hg]
    _ ↔ p.2 / g < m := by rw [unstripe_div hg, div_block hn _ hp]
    _ ↔ p.2 < m * g := Nat.div_lt_iff_lt_mul hg

lemma stripe_le (g n x : ℕ) : (stripe g n x).2 ≤ x := by
  calc x / g / n * g + x % g ≤ x / g * g + x % g :=
        Nat.add_le_add_right (Nat.mul_le_mul_right g (Nat.div_le_self (x / g) n)) _
    _ = x := Nat.div_add_mod' x g

end CxlMemSim.Core
