/-
Access decisions of the fabric-attached memory and their statistics. `check_access` and `record_access` are compared
with one rule, `Permitted`; two ghosts count allowed and denied accesses.
-/
import CxlMemSim.Fabric.Gfam

namespace CxlMemSim.Accounting

open CxlMemSim.Core
open Dcd hiding Op step answer run_inv step_inv
open Gfam

inductive Op where
  | dcd (o : Dcd.Op)
  | registerHost (hostId : UInt32) (label : String)
  | unregisterHost (hostId : UInt32)
  | grantAccess (hostId : UInt32) (base size : UInt64) (permissions : UInt32)
  | revokeAccess (hostId : UInt32) (base size : UInt64)
  | revokeExtent (base size : UInt64)
  | recordAccess (hostId : UInt32) (addr size : UInt64) (isWrite isAtomic : Bool)
deriving DecidableEq, Repr

structure State where
  dcd : DynamicCapacityDevice
  gfam : GFAMDevice
  allowed : ℕ
  refused : ℕ

def step (s : State) : Op → State
  | .dcd o => { s with dcd := Dcd.step s.dcd o }
  | .registerHost h label => { s with gfam := Gfam.registerHost s.gfam h label }
  | .unregisterHost h => { s with gfam := Gfam.unregisterHost s.gfam h }
  | .grantAccess h b n p => { s with gfam := (Gfam.grantAccess s.dcd s.gfam h b n p).2 }
  | .revokeAccess h b n => { s with gfam := (Gfam.revokeAccess s.gfam h b n).2 }
  | .revokeExtent b n => { s with gfam := Gfam.revokeExtent s.gfam b n }
  | .recordAccess h addr n w a =>
    let (r, g) := Gfam.recordAccess s.dcd s.gfam h addr n w a
    if r.allowed then { s with gfam := g, allowed := s.allowed + 1 }
    else { s with gfam := g, refused := s.refused + 1 }

def start (cap gran : UInt64) : State := ⟨DynamicCapacityDevice.new cap gran, GFAMDevice.new, 0, 0⟩

def Permitted (d : DynamicCapacityDevice) (g : GFAMDevice) (hostId : UInt32) (addr size : UInt64)
    (isWrite isAtomic : Bool) : Prop :=
  (∃ e ∈ d.extents, e.active = true ∧ Covers e.base.toNat e.size.toNat addr.toNat size.toNat) ∧
  (∃ h ∈ g.hosts, h.hostId = hostId ∧ h.active = true) ∧
  ∃ m ∈ g.mappings, Grants m hostId addr size (requiredPermissions isWrite isAtomic)

structure Inv (s : State) : Prop where
  extents : Dcd.Inv s.dcd
  ids : (s.gfam.hosts.map (·.hostId)).Nodup

/-- a range is allocated when one active extent covers it; `find_extent`'s bound check excludes nothing -/
lemma isAllocated_iff_covers {d : DynamicCapacityDevice} (h : Dcd.Inv d) {addr size : UInt64} :
    isAllocated d addr size = true ↔
      ∃ e ∈ d.extents, e.active = true ∧ Covers e.base.toNat e.size.toNat addr.toNat size.toNat := by
  rw [isAllocated_iff, and_iff_right_of_imp]
  rintro ⟨e, he, ha, hpos, hlow, hhigh⟩ hout
  have hwithin := (h.within e he ha).2
  rcases hout with hzero | hbeyond | hlong
  · rw [eq_zero_iff_toNat] at hzero
    omega
  · rw [ge_iff_le, UInt64.le_iff_toNat_le] at hbeyond
    omega
  · rw [gt_iff_lt, UInt64.lt_iff_toNat_lt, toNat_sub_le (UInt64.le_iff_toNat_le.2 (by omega))] at hlong
    omega

variable {g : GFAMDevice} {hostId : UInt32}

lemma hostActive_iff (h : (g.hosts.map (·.hostId)).Nodup) :
    hostActive g hostId = true ↔ ∃ x ∈ g.hosts, x.hostId = hostId ∧ x.active = true := by
  unfold hostActive findHost
  rw [Option.any_eq_true]
  constructor
  · rintro ⟨x, hx, hactive⟩
    exact ⟨x, List.mem_of_find?_eq_some hx, by simpa using List.find?_some hx, hactive⟩
  · rintro ⟨x, hx, hid, hactive⟩
    refine ⟨x, ?_, hactive⟩
    cases hf : g.hosts.find? fun y => y.hostId = hostId with
    | none =>
      rw [List.find?_eq_none] at hf
      exact absurd (by simpa using hid) (hf x hx)
    | some y =>
      have hy := List.mem_of_find?_eq_some hf
      have hyid : y.hostId = hostId := by simpa using List.find?_some hf
      rw [List.inj_on_of_nodup_map h hy hx (hyid.trans hid.symm)]

variable {s : State}

/-- The decision. -/
lemma permitted_iff (h : Inv s) {addr size : UInt64} {w a : Bool} :
    checkAccess s.dcd s.gfam hostId addr size w a = true ↔ Permitted s.dcd s.gfam hostId addr size w a := by
  rw [checkAccess_iff, isAllocated_iff_covers h.extents, hostActive_iff h.ids]
  rfl

/-! ## The counters -/

def hostAccesses (h : GFAMHost) : UInt64 := h.reads + h.writes + h.atomics

def reported (g : GFAMDevice) : UInt64 := (gfamStats g).readOps + (gfamStats g).writeOps + (gfamStats g).atomicOps

lemma foldl_add_sum (f : GFAMHost → UInt64) (l : List GFAMHost) (a : UInt64) :
    l.foldl (fun acc h => acc + f h) a = a + (l.map f).sum := by
  induction l generalizing a with
  | nil => simp
  | cons h l ih => rw [List.foldl_cons, ih, List.map_cons, List.sum_cons, add_assoc]

lemma reported_eq (g : GFAMDevice) : reported g = (g.hosts.map hostAccesses).sum := by
  simp only [reported, gfamStats, foldl_add_sum, zero_add]
  induction g.hosts with
  | nil => rfl
  | cons h l ih =>
    simp only [List.map_cons, List.sum_cons]
    rw [← ih]
    unfold hostAccesses
    ac_rfl

variable {l : List GFAMHost}

lemma sum_accesses_same {p : GFAMHost → Prop} [DecidablePred p] {f : GFAMHost → GFAMHost}
    (hf : ∀ h, hostAccesses (f h) = hostAccesses h) :
    ((l.map fun h => if p h then f h else h).map hostAccesses).sum = (l.map hostAccesses).sum := by
  congr 1
  rw [List.map_map]
  refine List.map_congr_left fun h _ => ?_
  simp only [Function.comp_apply]
  split_ifs
  · exact hf h
  · rfl

lemma hostAccesses_countAccess (w a : Bool) (h : GFAMHost) : hostAccesses (countAccess w a h) = hostAccesses h + 1 := by
  unfold countAccess hostAccesses
  cases a <;> cases w <;> simp only [if_true, if_false, Bool.false_eq_true] <;> ac_rfl

lemma sum_accesses_count (hids : (l.map (·.hostId)).Nodup) (hmem : ∃ x ∈ l, x.hostId = hostId) (w a : Bool) :
    ((l.map fun h => if h.hostId = hostId then countAccess w a h else h).map hostAccesses).sum
      = (l.map hostAccesses).sum + 1 := by
  induction l with
  | nil => simp at hmem
  | cons x l ih =>
    rw [List.map_cons, List.nodup_cons] at hids
    obtain ⟨hnot, hids⟩ := hids
    simp only [List.map_cons, List.sum_cons]
    by_cases hx : x.hostId = hostId
    · -- the record is the first one, and no later one has the id
      have hrest : (l.map fun h => if h.hostId = hostId then countAccess w a h else h) = l := by
        conv_rhs => rw [← List.map_id l]
        refine List.map_congr_left fun h hh => ?_
        have hne : h.hostId ≠ hostId := fun heq => hnot (List.mem_map.2 ⟨h, hh, heq.trans hx.symm⟩)
        rw [if_neg hne, id]
      rw [if_pos hx, hrest, hostAccesses_countAccess]
      ac_rfl
    · obtain ⟨y, hy, hyid⟩ := hmem
      have hyl : y ∈ l := by
        rcases List.mem_cons.1 hy with rfl | hy
        · exact absurd hyid hx
        · exact hy
      rw [if_neg hx, ih hids ⟨y, hyl, hyid⟩]
      ac_rfl

/-! ## Steps -/

lemma recordAccess_counts (h : Inv s) (hostId : UInt32) (addr size : UInt64) (w a : Bool) :
    ((recordAccess s.dcd s.gfam hostId addr size w a).1.allowed = false →
      (recordAccess s.dcd s.gfam hostId addr size w a).2 =
        { s.gfam with deniedAccesses := s.gfam.deniedAccesses + 1 }) ∧
    ((recordAccess s.dcd s.gfam hostId addr size w a).1.allowed = true →
      reported (recordAccess s.dcd s.gfam hostId addr size w a).2 = reported s.gfam + 1 ∧
      (recordAccess s.dcd s.gfam hostId addr size w a).2.deniedAccesses = s.gfam.deniedAccesses ∧
      (recordAccess s.dcd s.gfam hostId addr size w a).2.hosts.map (·.hostId) = s.gfam.hosts.map (·.hostId)) := by
  unfold recordAccess
  split_ifs with halloc hactive hmap
  · exact ⟨fun _ => rfl, fun hok => absurd hok (by simp [denied])⟩
  · exact ⟨fun _ => rfl, fun hok => absurd hok (by simp [denied])⟩
  · exact ⟨fun _ => rfl, fun hok => absurd hok (by simp [denied])⟩
  · refine ⟨fun hno => absurd hno (by simp), fun _ => ⟨?_, rfl, ?_⟩⟩
    · obtain ⟨x, hx, hid, -⟩ := (hostActive_iff h.ids).1 (by simpa using hactive)
      rw [reported_eq, reported_eq]
      exact sum_accesses_count h.ids ⟨x, hx, hid⟩ w a
    · rw [List.map_map]
      refine List.map_congr_left fun x _ => ?_
      simp only [Function.comp_apply]
      unfold countAccess
      split_ifs <;> rfl

/-- a call that is no access keeps the ids of the hosts apart and changes neither sum nor denied counter -/
structure Quiet (g g' : GFAMDevice) : Prop where
  ids : (g.hosts.map (·.hostId)).Nodup → (g'.hosts.map (·.hostId)).Nodup
  sum : reported g' = reported g
  denied : g'.deniedAccesses = g.deniedAccesses

lemma Quiet.of_hosts {g' : GFAMDevice} (hh : g'.hosts = g.hosts) (hd : g'.deniedAccesses = g.deniedAccesses) :
    Quiet g g' := ⟨fun h => by rw [hh]; exact h, by rw [reported_eq, reported_eq, hh], hd⟩

lemma map_hostId_ite (l : List GFAMHost) (p : GFAMHost → Prop) [DecidablePred p] (f : GFAMHost → GFAMHost)
    (hf : ∀ h, (f h).hostId = h.hostId) :
    (l.map fun h => if p h then f h else h).map (·.hostId) = l.map (·.hostId) := by
  rw [List.map_map]
  refine List.map_congr_left fun h _ => ?_
  simp only [Function.comp_apply]
  split_ifs
  · exact hf h
  · rfl

lemma quiet_registerHost (g : GFAMDevice) (hostId : UInt32) (label : String) :
    Quiet g (registerHost g hostId label) := by
  unfold registerHost
  split_ifs with hknown
  · refine ⟨fun h => ?_, ?_, rfl⟩
    · exact (map_hostId_ite g.hosts (·.hostId = hostId) (fun x => { x with label, active := true })
        fun _ => rfl).symm ▸ h
    · rw [reported_eq, reported_eq]
      exact sum_accesses_same fun _ => rfl
  · refine ⟨fun h => ?_, ?_, rfl⟩
    · rw [List.map_append, List.nodup_append]
      refine ⟨h, by simp, ?_⟩
      intro i hi j hj heq
      obtain ⟨x, hx, rfl⟩ := List.mem_map.1 hi
      simp only [List.map_cons, List.map_nil, List.mem_singleton] at hj
      refine hknown ?_
      unfold findHost
      rw [List.find?_isSome]
      exact ⟨x, hx, by simpa using heq.trans hj⟩
    · rw [reported_eq, reported_eq]
      simp [hostAccesses]

lemma quiet_unregisterHost (g : GFAMDevice) (hostId : UInt32) : Quiet g (unregisterHost g hostId) := by
  unfold unregisterHost
  refine ⟨fun h => ?_, ?_, rfl⟩
  · exact (map_hostId_ite g.hosts (·.hostId = hostId) (fun x => { x with active := false }) fun _ => rfl).symm ▸ h
  · rw [reported_eq, reported_eq]
    exact sum_accesses_same fun _ => rfl

lemma quiet_grantAccess (d : DynamicCapacityDevice) (g : GFAMDevice) (hostId : UInt32) (b n : UInt64) (p : UInt32) :
    Quiet g (grantAccess d g hostId b n p).2 := by
  rcases grantAccess_cases d g hostId b n p with ⟨-, heq⟩ | ⟨-, heq⟩
  · rw [heq]
    exact Quiet.of_hosts rfl rfl
  · rw [heq]
    exact Quiet.of_hosts rfl rfl

/-! ## Results -/

structure Balanced (s : State) : Prop extends Inv s where
  allowed : reported s.gfam = UInt64.ofNat s.allowed
  refused : s.gfam.deniedAccesses = UInt64.ofNat s.refused

lemma balanced_start (cap gran : UInt64) : Balanced (start cap gran) where
  extents := Dcd.inv_new cap gran
  ids := by simp [start, GFAMDevice.new]
  allowed := rfl
  refused := rfl

lemma Balanced.quiet (h : Balanced s) (hq : Quiet s.gfam g) : Balanced { s with gfam := g } :=
  ⟨⟨h.extents, hq.ids h.ids⟩, hq.sum.trans h.allowed, hq.denied.trans h.refused⟩

lemma ofNat_succ (n : ℕ) : UInt64.ofNat (n + 1) = UInt64.ofNat n + 1 := by
  rw [UInt64.ofNat_add]
  rfl

lemma step_balanced (h : Balanced s) (o : Op) : Balanced (step s o) := by
  cases o with
  | dcd o => exact ⟨⟨Dcd.step_inv h.extents o, h.ids⟩, h.allowed, h.refused⟩
  | registerHost hostId label => exact h.quiet (quiet_registerHost _ _ _)
  | unregisterHost hostId => exact h.quiet (quiet_unregisterHost _ _)
  | grantAccess hostId b n p => exact h.quiet (quiet_grantAccess _ _ _ _ _ _)
  | revokeAccess hostId b n | revokeExtent b n => exact h.quiet (Quiet.of_hosts rfl rfl)
  | recordAccess hostId addr n w a =>
    obtain ⟨hno, hyes⟩ := recordAccess_counts h.toInv hostId addr n w a
    simp only [step]
    split_ifs with hallowed
    · obtain ⟨hsum, hdenied, hids⟩ := hyes hallowed
      refine ⟨⟨h.extents, ?_⟩, ?_, hdenied.trans h.refused⟩
      · change ((recordAccess s.dcd s.gfam hostId addr n w a).2.hosts.map (·.hostId)).Nodup
        rw [hids]
        exact h.ids
      · change reported (recordAccess s.dcd s.gfam hostId addr n w a).2 = UInt64.ofNat (s.allowed + 1)
        rw [hsum, h.allowed, ofNat_succ]
    · have hg := hno (by simpa using hallowed)
      rw [hg]
      refine ⟨⟨h.extents, h.ids⟩, h.allowed, ?_⟩
      rw [ofNat_succ, ← h.refused]

lemma run_balanced (cap gran : UInt64) (ops : List Op) : Balanced (Core.run step (start cap gran) ops) :=
  Core.run_inv_all (P := Balanced) (fun _ o hs => step_balanced hs o) ops (balanced_start cap gran)

/-- Decisions and statistics. `record_access` allows exactly what the rule allows; a denied request changes only the
denied counter; the counters are the accesses modulo 2^64. -/
theorem access_decisions (cap gran : UInt64) (ops : List Op) (hostId : UInt32) (addr size : UInt64) (w a : Bool) :
    let s := Core.run step (start cap gran) ops
    ((recordAccess s.dcd s.gfam hostId addr size w a).1.allowed = true ↔
      checkAccess s.dcd s.gfam hostId addr size w a = true) ∧
    (checkAccess s.dcd s.gfam hostId addr size w a = true ↔ Permitted s.dcd s.gfam hostId addr size w a) ∧
    ((recordAccess s.dcd s.gfam hostId addr size w a).1.allowed = false →
      (recordAccess s.dcd s.gfam hostId addr size w a).2 =
        { s.gfam with deniedAccesses := s.gfam.deniedAccesses + 1 }) ∧
    (gfamStats s.gfam).readOps + (gfamStats s.gfam).writeOps + (gfamStats s.gfam).atomicOps = UInt64.ofNat s.allowed ∧
    (gfamStats s.gfam).deniedAccesses = UInt64.ofNat s.refused := by
  intro s
  have hs : Balanced s := run_balanced cap gran ops
  exact ⟨by rw [recordAccess_allowed], permitted_iff hs.toInv, (recordAccess_counts hs.toInv hostId addr size w a).1,
    hs.allowed, hs.refused⟩

end CxlMemSim.Accounting
