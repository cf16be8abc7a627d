/-
The recent accesses below a switch (`get_access`): the entries of the last 100000. The test compares with `timestamp -
100000` in 64 bits, which wraps below 100000.
-/
import CxlMemSim.Fabric.Controller

namespace CxlMemSim.Controller

open Expander (OccupationInfo)

def getAccess (timestamp : UInt64) (occupation : List OccupationInfo) : List (ℕ × UInt64) :=
  (occupation.filter fun it => (timestamp - 100000).toNat < it.timestamp).map fun it => (it.timestamp, it.address)

def occupationAt (devs : Devices) (i : ℕ) : List OccupationInfo := (devs[i]?.map Device.occupation).getD []

mutual

def Switch.getAccess (devs : Devices) (timestamp : UInt64) : Switch → List (ℕ × UInt64)
  | .node expanders switches =>
    expanders.flatMap (fun i => Controller.getAccess timestamp (occupationAt devs i)) ++
      getAccessOf devs timestamp switches

def getAccessOf (devs : Devices) (timestamp : UInt64) : List Switch → List (ℕ × UInt64)
  | [] => []
  | s :: rest => s.getAccess devs timestamp ++ getAccessOf devs timestamp rest

end

def Switch.entries (devs : Devices) (sw : Switch) : List OccupationInfo := sw.devices.flatMap (occupationAt devs)

/-- the pairs of the entries whose time is greater than `timestamp - 100000`, over the integers -/
def Switch.recent (devs : Devices) (timestamp : UInt64) (sw : Switch) : List (ℕ × UInt64) :=
  ((sw.entries devs).filter fun it => (timestamp.toNat : ℤ) - 100000 < it.timestamp).map
    fun it => (it.timestamp, it.address)

lemma getAccess_flatMap (devs : Devices) (timestamp : UInt64) (l : List ℕ) :
    l.flatMap (fun i => getAccess timestamp (occupationAt devs i)) =
      getAccess timestamp (l.flatMap (occupationAt devs)) := by
  induction l with
  | nil => rfl
  | cons i l ih =>
    simp only [List.flatMap_cons, ih]
    simp [getAccess]

mutual

/-- The traversal is one filter of the entries of the subtree. -/
lemma Switch.getAccess_eq (devs : Devices) (timestamp : UInt64) (sw : Switch) :
    sw.getAccess devs timestamp = Controller.getAccess timestamp (sw.entries devs) := by
  cases sw with
  | node expanders switches =>
    rw [Switch.getAccess, getAccess_flatMap, getAccessOf_eq devs timestamp switches]
    simp [Switch.entries, Switch.devices, Controller.getAccess]

lemma getAccessOf_eq (devs : Devices) (timestamp : UInt64) (switches : List Switch) :
    getAccessOf devs timestamp switches =
      Controller.getAccess timestamp ((devicesOf switches).flatMap (occupationAt devs)) := by
  cases switches with
  | nil => rfl
  | cons s rest =>
    rw [getAccessOf, Switch.getAccess_eq devs timestamp s, getAccessOf_eq devs timestamp rest]
    simp [devicesOf, Switch.entries, Controller.getAccess]

end

lemma window_start (t : UInt64) :
    (t - 100000).toNat = if 100000 ≤ t.toNat then t.toNat - 100000 else 2 ^ 64 + t.toNat - 100000 := by
  have hlt := t.toNat_lt
  have hwindow : (100000 : UInt64).toNat = 100000 := rfl
  rw [UInt64.toNat_sub, hwindow]
  split_ifs <;> omega

/-- The recent accesses are returned exactly if the time is at least 100000, or every entry is later than the
wrapped start. -/
theorem access_exact_iff (devs : Devices) (sw : Switch) (t : UInt64) :
    (sw.getAccess devs t : Multiset (ℕ × UInt64)) = (sw.recent devs t : Multiset (ℕ × UInt64)) ↔
      100000 ≤ t.toNat ∨ ∀ it ∈ sw.entries devs, 2 ^ 64 + t.toNat - 100000 < it.timestamp := by
  have hstart := window_start t
  rw [Switch.getAccess_eq]
  unfold getAccess Switch.recent
  by_cases hlate : 100000 ≤ t.toNat
  · -- the two tests agree
    simp only [hlate, true_or, iff_true]
    rw [if_pos hlate] at hstart
    congr 2
    refine List.filter_congr fun it _ => decide_eq_decide.mpr ?_
    rw [hstart]
    omega
  · -- over the integers every entry is recent
    simp only [hlate, false_or]
    rw [if_neg hlate] at hstart
    have hall : (sw.entries devs).filter (fun it => (t.toNat : ℤ) - 100000 < it.timestamp) = sw.entries devs :=
      List.filter_eq_self.mpr fun it _ => decide_eq_true (by omega)
    rw [hall, hstart]
    constructor
    · intro heq it hit
      have hlength := congrArg Multiset.card heq
      simp only [Multiset.coe_card, List.length_map] at hlength
      exact of_decide_eq_true (List.length_filter_eq_length_iff.mp hlength it hit)
    · intro h
      rw [List.filter_eq_self.mpr fun it hit => decide_eq_true (h it hit)]

def earlyDevices : Devices := [.remote 0 0 { Expander.Placement.start with occupation := [⟨10, 64, 0⟩] }]

/-- An early access is lost. At time 50 the access of time 10 is not returned. -/
theorem early_access_lost : (Switch.node [0] []).getAccess earlyDevices 50 = [] ∧
      (Switch.node [0] []).recent earlyDevices 50 = [(10, 64)] := by
  decide

end CxlMemSim.Controller
