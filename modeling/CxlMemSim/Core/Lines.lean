/-
Loops over 64-byte lines in 64-bit words: `for (line = start; line < end; line += 64)`. For an `end` above 2^64 - 64 the
addition wraps around to line 0 and the loop does not end.
-/
import Mathlib

namespace CxlMemSim.Core

def linesBelow (end_ : UInt64) : ℕ → UInt64 → Option (List UInt64)
  | 0, _ => none
  | fuel + 1, line => if line < end_ then (linesBelow end_ fuel (line + 64)).map (line :: ·) else some []

/-- there are 2^58 lines: a loop that takes more turns has come back to its start and never ends -/
def lineTurns : ℕ := 2 ^ 58 + 1

variable {line : UInt64} {end_ : UInt64}

lemma toNat_add_line (h : line.toNat + 64 < 2 ^ 64) : (line + 64).toNat = line.toNat + 64 := by
  have h64 : (64 : UInt64).toNat = 64 := rfl
  rw [UInt64.toNat_add, h64]
  omega

lemma add_line_mod (h : line.toNat % 64 = 0) : (line + 64).toNat % 64 = 0 := by
  have h64 : (64 : UInt64).toNat = 64 := rfl
  rw [UInt64.toNat_add, h64]
  omega

/-- A bound in the last line is never reached. -/
lemma linesBelow_none (hline : line.toNat % 64 = 0) (hend : 2 ^ 64 - 64 < end_.toNat)
    (fuel : ℕ) : linesBelow end_ fuel line = none := by
  induction fuel generalizing line with
  | zero => rfl
  | succ fuel ih =>
    have hlt : line < end_ := by
      have := line.toNat_lt
      rw [UInt64.lt_iff_toNat_lt]
      omega
    rw [linesBelow, if_pos hlt, ih (add_line_mod hline)]
    rfl

/-- A lower bound is reached, after one visit of each line in between. -/
lemma linesBelow_some (hline : line.toNat % 64 = 0) (hend : end_.toNat ≤ 2 ^ 64 - 64) {fuel : ℕ}
    (hfuel : end_.toNat ≤ line.toNat + 64 * fuel) :
    ∃ lines, linesBelow end_ (fuel + 1) line = some lines ∧ lines.Nodup ∧
      ∀ l, l ∈ lines ↔ l.toNat % 64 = 0 ∧ line.toNat ≤ l.toNat ∧ l.toNat < end_.toNat := by
  induction fuel generalizing line with
  | zero =>
    refine ⟨[], ?_, List.nodup_nil, fun l => ?_⟩
    · rw [linesBelow, if_neg (by rw [UInt64.lt_iff_toNat_lt]; omega)]
    · simp only [List.not_mem_nil, false_iff]
      omega
  | succ fuel ih =>
    by_cases hlt : line.toNat < end_.toNat
    · have hnext : (line + 64).toNat = line.toNat + 64 := toNat_add_line (by omega)
      obtain ⟨lines, hrun, hnodup, hmem⟩ := ih (add_line_mod hline) (by omega)
      refine ⟨line :: lines, ?_, List.nodup_cons.2 ⟨fun h => ?_, hnodup⟩, fun l => ?_⟩
      · rw [linesBelow, if_pos (UInt64.lt_iff_toNat_lt.2 hlt), hrun]
        rfl
      · have := (hmem line).1 h
        omega
      · rw [List.mem_cons, hmem, hnext, ← UInt64.toNat_inj]
        omega
    · refine ⟨[], ?_, List.nodup_nil, fun l => ?_⟩
      · rw [linesBelow, if_neg (by rw [UInt64.lt_iff_toNat_lt]; omega)]
      · simp only [List.not_mem_nil, false_iff]
        omega

lemma linesBelow_lineTurns (hline : line.toNat % 64 = 0) (hend : end_.toNat ≤ 2 ^ 64 - 64) :
    ∃ lines, linesBelow end_ lineTurns line = some lines ∧ lines.Nodup ∧
      ∀ l, l ∈ lines ↔ l.toNat % 64 = 0 ∧ line.toNat ≤ l.toNat ∧ l.toNat < end_.toNat :=
  linesBelow_some hline hend (by omega)

end CxlMemSim.Core
