/-
Congestion at a switch (`calculate_congestion`): the times collected below are sorted and swept (`Core.Sweep`) for pairs
less than 2000 apart; then the accesses to each address are compared.

Model: latencies are rationals. An expander is what it holds.
-/
import CxlMemSim.Core.Sweep
import CxlMemSim.Fabric.Expander

namespace CxlMemSim.Congestion

open CxlMemSim.Core Expander

def closeInTime (x y : UInt64) : Bool := y - x < 2000

def sortTimes (times : List UInt64) : List UInt64 := times.insertionSort (· ≤ ·)

/-- the latency, the number of conflicts, and the times that are left -/
def timeConflicts (congestionLatency : ℚ) (st : ℚ × ℕ) (times : List UInt64) : (ℚ × ℕ) × List UInt64 :=
  sweepWith closeInTime (fun st _ _ => (st.1 + congestionLatency, st.2 + 1)) st (sortTimes times)

/-! ## The address conflicts -/

structure Access where
  timestamp : UInt64
  address : UInt64
  isWrite : Bool
deriving DecidableEq, Repr

def pairConflict (congestionLatency : ℚ) (st : ℚ × ℕ) (p : (UInt64 × Bool) × (UInt64 × Bool)) : ℚ × ℕ :=
  if p.2.1 - p.1.1 < 2000 then
    if p.1.2 || p.2.2 then
      (st.1 + congestionLatency * (if p.1.2 && p.2.2 then 2 else 3 / 2), st.2 + 1)
    else (st.1 + congestionLatency * (1 / 2), st.2)
  else st

def accessLe (a b : UInt64 × Bool) : Prop := a.1 < b.1 ∨ a.1 = b.1 ∧ (a.2 = true → b.2 = true)

instance : DecidableRel accessLe := fun _ _ => inferInstanceAs (Decidable (_ ∨ _))

def addressConflicts (congestionLatency : ℚ) (st : ℚ × ℕ) (accesses : List Access) : ℚ × ℕ :=
  ((accesses.map Access.address).dedup).foldl
    (fun st address =>
      let sorted := ((accesses.filter (·.address = address)).map fun a => (a.timestamp, a.isWrite)).insertionSort accessLe
      (sorted.zip sorted.tail).foldl (pairConflict congestionLatency) st) st

/-! ## The switch -/

structure SwitchConfig where
  epoch : ℤ
  lastTimestamp : UInt64
  congestionLatency : ℚ
deriving DecidableEq, Repr

def SwitchConfig.currentTime (cfg : SwitchConfig) : UInt64 := cfg.lastTimestamp - UInt64.ofInt (cfg.epoch * 1000)

def SwitchConfig.recent (cfg : SwitchConfig) (expanders : List (List OccupationInfo)) : List Access :=
  (expanders.flatMap fun occupation => occupation.filter fun it => cfg.currentTime < UInt64.ofNat it.timestamp).map
    fun it => ⟨UInt64.ofNat it.timestamp, it.address, it.accessCount = 0⟩

structure Result where
  latency : ℚ
  times : List UInt64
  conflicts : ℕ
deriving DecidableEq, Repr

def SwitchConfig.collected (cfg : SwitchConfig) (expanders : List (List OccupationInfo)) (below : List Result) :
    List UInt64 :=
  below.flatMap Result.times ++ (cfg.recent expanders).map Access.timestamp

def SwitchConfig.congestion (cfg : SwitchConfig) (expanders : List (List OccupationInfo)) (below : List Result) :
    Result :=
  let latency := (below.map Result.latency).foldl (· + ·) 0
  let swept := timeConflicts cfg.congestionLatency (latency, 0) (cfg.collected expanders below)
  let counted := addressConflicts cfg.congestionLatency swept.1 (cfg.recent expanders)
  ⟨counted.1, swept.2, counted.2⟩

inductive Switch where
  | node (cfg : SwitchConfig) (expanders : List (List OccupationInfo)) (switches : List Switch)

mutual

def Switch.calculateCongestion : Switch → Result
  | .node cfg expanders switches => cfg.congestion expanders (calculateBelow switches)

def calculateBelow : List Switch → List Result
  | [] => []
  | s :: rest => s.calculateCongestion :: calculateBelow rest

end

/-! ## What is charged -/

def chargedPairs (times : List UInt64) : List (UInt64 × UInt64) := charged closeInTime (sortTimes times)

def nearPairs (times : List UInt64) : List (UInt64 × UInt64) :=
  ((sortTimes times).zip (sortTimes times).tail).filter fun p => p.2.toNat - p.1.toNat < 2000

/-- each near pair is charged once, and what is returned are collected times in sorted order -/
structure ChargedOnce (congestionLatency : ℚ) (st : ℚ × ℕ) (times : List UInt64) : Prop where
  counted : (timeConflicts congestionLatency st times).1 =
    (st.1 + (nearPairs times).length * congestionLatency, st.2 + (nearPairs times).length)
  pairs : (chargedPairs times : Multiset (UInt64 × UInt64)) = nearPairs times
  returned : (timeConflicts congestionLatency st times).2.Subperm times
  sorted : (timeConflicts congestionLatency st times).2.Pairwise (· ≤ ·)

lemma sorted_sortTimes (times : List UInt64) : (sortTimes times).Pairwise (· ≤ ·) := List.pairwise_insertionSort _ times

lemma closeInTime_self (x : UInt64) : closeInTime x x = true := by simp [closeInTime]

lemma closeInTime_of_le {x y : UInt64} (h : x ≤ y) : closeInTime x y = decide (y.toNat - x.toNat < 2000) := by
  have hbound : (2000 : UInt64).toNat = 2000 := rfl
  rw [closeInTime, decide_eq_decide, UInt64.lt_iff_toNat_lt, UInt64.toNat_sub_of_le _ _ h, hbound]

lemma closePairs_eq_nearPairs (times : List UInt64) : closePairs closeInTime (sortTimes times) = nearPairs times := by
  have hordered : ∀ l : List UInt64, l.Pairwise (· ≤ ·) → ∀ p ∈ l.zip l.tail, p.1 ≤ p.2 := by
    intro l hl p hp
    exact le_of_mem_closePairs hl (show p ∈ closePairs (fun _ _ => true) l by simpa [closePairs] using hp)
  refine List.filter_congr fun p hp => ?_
  exact closeInTime_of_le (hordered _ (sorted_sortTimes times) p hp)

section

variable (congestionLatency : ℚ) (st : ℚ × ℕ) (times : List UInt64)

lemma timeConflicts_counts :
    (timeConflicts congestionLatency st times).1 =
      (st.1 + (chargedPairs times).length * congestionLatency, st.2 + (chargedPairs times).length) := by
  have hfold : ∀ (l : List (UInt64 × UInt64)) (st : ℚ × ℕ),
      l.foldl (fun st _ => (st.1 + congestionLatency, st.2 + 1)) st =
        (st.1 + l.length * congestionLatency, st.2 + l.length) := by
    intro l
    induction l with
    | nil => simp
    | cons p l ih =>
      intro st
      rw [List.foldl_cons, ih, List.length_cons]
      refine Prod.ext ?_ ?_
      · push_cast
        ring
      · omega
  rw [timeConflicts, sweepWith_fst, hfold]
  rfl

lemma timeConflicts_returns :
    (timeConflicts congestionLatency st times).2 = swept closeInTime (sortTimes times) := sweepWith_snd _ _ _

end

/-- Congestion is charged per close pair exactly if every close pair of neighbours ends with the latest time. -/
theorem congestion_exact_iff (congestionLatency : ℚ) (st : ℚ × ℕ) (times : List UInt64) :
    ChargedOnce congestionLatency st times ↔
      ∀ p ∈ nearPairs times, (sortTimes times).getLast? = some p.2 := by
  rw [← closePairs_eq_nearPairs, ← sweep_exact_iff closeInTime_self (sorted_sortTimes times)]
  constructor
  · intro h
    refine ⟨?_, ?_⟩
    · rw [closePairs_eq_nearPairs]
      exact h.pairs
    · rw [← timeConflicts_returns congestionLatency st]
      exact h.sorted
  · rintro ⟨hpairs, hleft⟩
    rw [closePairs_eq_nearPairs] at hpairs
    have hlength : (chargedPairs times).length = (nearPairs times).length := by exact congrArg Multiset.card hpairs
    refine ⟨by rw [timeConflicts_counts, hlength], hpairs, ?_, ?_⟩
    · rw [timeConflicts_returns]
      exact (swept_subperm _).trans (List.perm_insertionSort _ times).subperm
    · rw [timeConflicts_returns]
      exact hleft

/-- A close pair is missed. Of three times 1 apart the second pair is not charged. -/
theorem missed_pair : nearPairs [0, 1, 2] = [(0, 1), (1, 2)] ∧ chargedPairs [0, 1, 2] = [(0, 1)] ∧
      (timeConflicts (1 / 50) (0, 0) [0, 1, 2]).2 = [2, 1] := by
  decide

end CxlMemSim.Congestion
