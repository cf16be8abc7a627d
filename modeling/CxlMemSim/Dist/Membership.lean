/-
The number of nodes of a cluster: `num_nodes` is counted apart from the node table, whatever the table says of the node.
-/
import CxlMemSim.Dist.Region

namespace CxlMemSim.Dist

open CxlMemSim.Core

def getActiveNodes (r : Region) : List UInt32 := ((List.range maxNodes.toNat).map UInt32.ofNat).filter (isNodeActive r)

inductive MemberOp
  | register (info : NodeInfo) (now : UInt64)
  | deregister (node : UInt32)

def memberStep (r : Region) : MemberOp → Region
  | .register info now => (registerNode r info now).2
  | .deregister node => (deregisterNode r node).2

structure Exact (r : Region) : Prop where
  active : r.numNodes.toNat = {n : UInt32 | isNodeActive r n = true}.ncard
  listed : r.numNodes.toNat = (getActiveNodes r).length

def NoWrap (r : Region) : MemberOp → Prop
  | .register info _ => info.nodeId < maxNodes → r.numNodes.toNat + 1 < 2 ^ 32
  | .deregister node => node < maxNodes → 0 < r.numNodes.toNat

def MemberOp.Fresh (r : Region) : MemberOp → Prop
  | .register info _ => info.nodeId < maxNodes → isNodeActive r info.nodeId = false
  | .deregister node => node < maxNodes → isNodeActive r node = true

/-! ## The set of active nodes -/

variable {r : Region} {n : UInt32}

lemma active_lt (h : isNodeActive r n = true) : n < maxNodes := by
  unfold isNodeActive at h
  split_ifs at h with hn
  exact UInt32.not_le.mp hn

lemma mem_getActiveNodes : n ∈ getActiveNodes r ↔ isNodeActive r n = true := by
  simp only [getActiveNodes, List.mem_filter, List.mem_map, List.mem_range, and_iff_right_iff_imp]
  intro h
  exact ⟨n.toNat, UInt32.lt_iff_toNat_lt.mp (active_lt h), UInt32.ofNat_toNat⟩

lemma getActiveNodes_nodup (r : Region) : (getActiveNodes r).Nodup := by
  refine List.Nodup.filter _ ?_
  decide

def activeSet (r : Region) : Finset UInt32 := (getActiveNodes r).toFinset

lemma mem_activeSet : n ∈ activeSet r ↔ isNodeActive r n = true := by
  rw [activeSet, List.mem_toFinset, mem_getActiveNodes]

lemma card_activeSet (r : Region) : (activeSet r).card = (getActiveNodes r).length :=
  List.toFinset_card_of_nodup (getActiveNodes_nodup r)

/-- The two ways to count the active nodes agree. -/
lemma exact_iff (r : Region) : Exact r ↔ r.numNodes.toNat = (activeSet r).card := by
  have hset : {n : UInt32 | isNodeActive r n = true} = (activeSet r : Set UInt32) := by
    ext n
    simp [mem_activeSet]
  constructor
  · intro h
    rw [h.listed, card_activeSet]
  · intro h
    exact ⟨by rw [h, hset, Set.ncard_coe_finset], by rw [h, card_activeSet]⟩

lemma card_activeSet_le (r : Region) : (activeSet r).card ≤ 16 := by
  rw [card_activeSet]
  exact (List.length_filter_le _ _).trans (by simp [maxNodes])

lemma activeSet_register {info : NodeInfo} (now : UInt64) (h : info.nodeId < maxNodes) :
    activeSet (memberStep r (.register info now)) = insert info.nodeId (activeSet r) := by
  have hok : (registerNode r info now).1 = true := by rw [registerNode, if_neg (UInt32.not_le.mpr h)]
  ext n
  rw [mem_activeSet, memberStep, isNodeActive_registerNode hok, Finset.mem_insert, mem_activeSet, Bool.or_eq_true,
    decide_eq_true_eq]

lemma activeSet_deregister {node : UInt32} (h : node < maxNodes) :
    activeSet (memberStep r (.deregister node)) = (activeSet r).erase node := by
  ext n
  rw [mem_activeSet, Finset.mem_erase, mem_activeSet, memberStep, deregisterNode, if_neg (UInt32.not_le.mpr h)]
  unfold isNodeActive
  by_cases hn : n = node
  · subst hn
    simp
  · have hne : n.toNat ≠ node.toNat := fun h => hn (UInt32.toNat_inj.mp h)
    simp [hn, Function.update_of_ne hne]

/-! ## One call -/

lemma counts_register (hr : Exact r) (info : NodeInfo) (now : UInt64) :
    Exact (memberStep r (.register info now)) ∧ NoWrap r (.register info now) ↔ (MemberOp.register info now).Fresh r := by
  have hcount := (exact_iff r).mp hr
  have hle := card_activeSet_le r
  by_cases hid : info.nodeId < maxNodes
  · have hnum : (memberStep r (.register info now)).numNodes.toNat = (activeSet r).card + 1 := by
      rw [memberStep, registerNode, if_neg (UInt32.not_le.mpr hid)]
      simp only [UInt32.toNat_add, hcount]
      exact Nat.mod_eq_of_lt (by simp; omega)
    rw [exact_iff, hnum, activeSet_register now hid]
    simp only [NoWrap, MemberOp.Fresh, hid, true_implies]
    by_cases hactive : info.nodeId ∈ activeSet r
    · rw [Finset.insert_eq_of_mem hactive]
      simp [mem_activeSet.mp hactive]
    · rw [Finset.card_insert_of_notMem hactive]
      have hfree : isNodeActive r info.nodeId = false := by simpa [mem_activeSet] using hactive
      simp only [hfree, true_and, iff_true]
      omega
  · have hsame : memberStep r (.register info now) = r := by
      rw [memberStep, registerNode, if_pos (UInt32.not_lt.mp hid)]
    simp [hsame, hr, NoWrap, MemberOp.Fresh, hid]

lemma counts_deregister (hr : Exact r) (node : UInt32) :
    Exact (memberStep r (.deregister node)) ∧ NoWrap r (.deregister node) ↔ (MemberOp.deregister node).Fresh r := by
  have hcount := (exact_iff r).mp hr
  have hle := card_activeSet_le r
  by_cases hid : node < maxNodes
  · have hnum : (memberStep r (.deregister node)).numNodes = r.numNodes - 1 := by
      rw [memberStep, deregisterNode, if_neg (UInt32.not_le.mpr hid)]
    rw [exact_iff, hnum, activeSet_deregister hid]
    simp only [NoWrap, MemberOp.Fresh, hid, true_implies]
    by_cases hactive : node ∈ activeSet r
    · have hpos : 0 < (activeSet r).card := Finset.card_pos.mpr ⟨node, hactive⟩
      have hone : (1 : UInt32) ≤ r.numNodes := UInt32.le_iff_toNat_le.mpr (by rw [hcount]; exact hpos)
      rw [Finset.card_erase_of_mem hactive, UInt32.toNat_sub_of_le _ _ hone, hcount]
      simp [mem_activeSet.mp hactive, hpos]
    · -- the count goes down, or wraps around, and the table stays
      rw [Finset.erase_eq_of_notMem hactive]
      have hfree : isNodeActive r node = false := by simpa [mem_activeSet] using hactive
      simp only [hfree, Bool.false_eq_true, iff_false, not_and]
      intro heq hpos
      have hone : (1 : UInt32) ≤ r.numNodes := UInt32.le_iff_toNat_le.mpr hpos
      rw [UInt32.toNat_sub_of_le _ _ hone, hcount] at heq
      simp at heq
      omega
  · have hsame : memberStep r (.deregister node) = r := by
      rw [memberStep, deregisterNode, if_pos (UInt32.not_lt.mp hid)]
    simp [hsame, hr, NoWrap, MemberOp.Fresh, hid]

lemma counts_step (hr : Exact r) (o : MemberOp) : Exact (memberStep r o) ∧ NoWrap r o ↔ o.Fresh r := by
  cases o with
  | register info now => exact counts_register hr info now
  | deregister node => exact counts_deregister hr node

lemma exact_fresh (j : UInt32) : Exact (Region.fresh j) := by
  have hnone : getActiveNodes (Region.fresh j) = [] := by simp [getActiveNodes]
  rw [exact_iff, card_activeSet, hnone]
  rfl

/-- Membership is counted exactly if every registration finds the node inactive and every deregistration finds it
active. -/
theorem counts_iff_fresh (j : UInt32) (ops : List MemberOp) :
    AllSteps memberStep (fun r o => Exact (memberStep r o) ∧ NoWrap r o) (Region.fresh j) ops ↔
      AllSteps memberStep (fun r o => o.Fresh r) (Region.fresh j) ops :=
  Core.allSteps_iff_of_inv (fun _ o hr hfresh => ((counts_step hr o).mpr hfresh).1) (fun _ o hr => counts_step hr o)
    (exact_fresh j)

def firstNode : NodeInfo := ⟨1, "", 0, 0⟩

/-- Registered twice, counted twice. And deregistering an absent node leaves 2^32 - 1 nodes. -/
theorem registered_twice : (let r := run memberStep (Region.fresh 0) [.register firstNode 5, .register firstNode 6]
     r.numNodes = 2 ∧ getActiveNodes r = [1]) ∧
    (let r := run memberStep (Region.fresh 0) [.deregister 3]
     r.numNodes = 0xFFFFFFFF ∧ getActiveNodes r = []) := by
  decide

end CxlMemSim.Dist
