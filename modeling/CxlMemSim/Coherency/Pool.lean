/-
The memory pool of the multi-headed device: a head has a region of `total_capacity / 16` bytes and a pointer into it,
which allocations move up and releases down. A ghost lists the ranges in use.
-/
import CxlMemSim.Coherency.Heads

namespace CxlMemSim.Coherency.Pool

open CxlMemSim.Core
open Coherency.Heads

/-! ## The device beside its ranges -/

inductive PoolOp where
  | activateHead (head : UInt32) (capacityAlloc : UInt64)
  | allocatePool (head : UInt32) (size : UInt64)
  | releasePool (head : UInt32) (addr size : UInt64)
deriving DecidableEq, Repr

structure Range where
  head : UInt32
  base : UInt64
  size : UInt64
deriving DecidableEq, Repr

structure State where
  device : MHSLDDevice
  live : List Range
  stuck : Bool

def succeeds (d : MHSLDDevice) (head : UInt32) (size : UInt64) : Prop :=
  serves d head = true ∧ ¬ (d.heads head).usedCapacity + size > (d.heads head).allocatedCapacity

instance (d : MHSLDDevice) (head : UInt32) (size : UInt64) : Decidable (succeeds d head size) :=
  inferInstanceAs (Decidable (_ ∧ ¬ _))

variable (totalCapacity : UInt64) (p : State)

def step (o : PoolOp) : State :=
  if p.stuck then p
  else
    match o with
    | .activateHead head cap => { p with device := (activateHead p.device head cap).1 }
    | .allocatePool head size =>
      let r := allocatePool totalCapacity p.device head size
      { p with
        device := r.2
        live := if succeeds p.device head size ∧ size ≠ 0 then ⟨head, r.1, size⟩ :: p.live else p.live }
    | .releasePool head addr size =>
      match releasePool p.device head addr size with
      | none => { p with stuck := true }
      | some d =>
        { p with device := d, live := if serves p.device head then p.live.erase ⟨head, addr, size⟩ else p.live }

def start : State := ⟨newDevice, [], false⟩

/-! ## Statement -/

def RangesApart : Prop :=
  p.live.Pairwise (fun r q => Apart r.base.toNat r.size.toNat q.base.toNat q.size.toNat) ∧
    ∀ r ∈ p.live, r.base.toNat + r.size.toNat ≤ totalCapacity.toNat

def Tells : PoolOp → Prop
  | .allocatePool head size => (allocatePool totalCapacity p.device head size).1 = 0 ↔ ¬ succeeds p.device head size
  | _ => True

def Safe (o : PoolOp) : Prop :=
  RangesApart totalCapacity (step totalCapacity p o) ∧ (p.stuck = false → Tells totalCapacity p o)

def regionSize : ℕ := totalCapacity.toNat / 16

def pointer (d : MHSLDDevice) (head : UInt32) : ℕ :=
  head.toNat * regionSize totalCapacity + (d.heads head).usedCapacity.toNat

/-- heads connect with a quota of at most a region and nothing in use; no test wraps; releases are of the last range -/
def Disciplined : PoolOp → Prop
  | .activateHead head cap => head < maxHeads → cap.toNat ≤ regionSize totalCapacity ∧ ∀ r ∈ p.live, r.head ≠ head
  | .allocatePool head size =>
    succeeds p.device head size → (p.device.heads head).usedCapacity.toNat + size.toNat < 2 ^ 64 ∧
      ¬ ((p.device.heads head).usedCapacity = 0 ∧ (head = 0 ∨ totalCapacity < 16))
  | .releasePool head addr size =>
    serves p.device head = true → size ≠ 0 → size ≤ (p.device.heads head).usedCapacity →
      ⟨head, addr, size⟩ ∈ p.live ∧ addr.toNat + size.toNat = pointer totalCapacity p.device head

instance (o : PoolOp) : Decidable (Disciplined totalCapacity p o) :=
  match o with
  | .activateHead head _ =>
    have : Decidable (∀ r ∈ p.live, r.head ≠ head) := List.decidableBAll _ p.live
    inferInstanceAs (Decidable (_ → _ ∧ _))
  | .allocatePool _ _ => inferInstanceAs (Decidable (_ → _ ∧ ¬ _))
  | .releasePool _ _ _ => inferInstanceAs (Decidable (_ → _ → _ → _ ∧ _))

/-- What goes wrong: a release in the middle, a quota above a region, a size of 2^64 - 50, a head connected again,
and head 0's first allocation. -/
theorem pool_failures :
    (run (step 1600) start [.activateHead 1 100, .allocatePool 1 50, .allocatePool 1 50, .releasePool 1 100 50,
      .allocatePool 1 50]).live = [⟨1, 150, 50⟩, ⟨1, 150, 50⟩] ∧
    (run (step 1600) start [.activateHead 15 200, .allocatePool 15 200]).live = [⟨15, 1500, 200⟩] ∧
    (run (step 1600) start [.activateHead 1 100, .allocatePool 1 60, .allocatePool 1 0xFFFFFFFFFFFFFFCE]).live =
      [⟨1, 160, 0xFFFFFFFFFFFFFFCE⟩, ⟨1, 100, 60⟩] ∧
    (run (step 1600) start [.activateHead 1 100, .allocatePool 1 50, .activateHead 1 100, .allocatePool 1 50]).live =
      [⟨1, 100, 50⟩, ⟨1, 100, 50⟩] ∧ (succeeds (run (step 1600) start [.activateHead 0 100]).device 0 50 ∧
      (allocatePool 1600 (run (step 1600) start [.activateHead 0 100]).device 0 50).1 = 0) := by
  decide +kernel

/-! ## Regions and pointers -/

lemma region_apart {q h k a n b m : ℕ} (hne : h ≠ k) (ha : h * q ≤ a ∧ a + n ≤ h * q + q)
    (hb : k * q ≤ b ∧ b + m ≤ k * q + q) : Apart a n b m := by
  unfold Apart
  rcases Nat.lt_or_gt_of_ne hne with hlt | hlt
  · have : (h + 1) * q ≤ k * q := Nat.mul_le_mul_right q hlt
    rw [Nat.add_mul] at this
    omega
  · have : (k + 1) * q ≤ h * q := Nat.mul_le_mul_right q hlt
    rw [Nat.add_mul] at this
    omega

variable {head : UInt32} {d' : MHSLDDevice}

lemma region_le (hlt : head < maxHeads) :
    head.toNat * regionSize totalCapacity + regionSize totalCapacity ≤ totalCapacity.toNat := by
  have h16 : head.toNat + 1 ≤ 16 := UInt32.lt_iff_toNat_lt.1 hlt
  have hmul := Nat.mul_le_mul_right (regionSize totalCapacity) h16
  have hdiv : 16 * regionSize totalCapacity ≤ totalCapacity.toNat := Nat.mul_div_le _ _
  rw [Nat.add_mul] at hmul
  omega

lemma regionBase_toNat {totalCapacity : UInt64} (hlt : head < maxHeads) :
    (head.toUInt64 * (totalCapacity / maxHeads.toUInt64)).toNat = head.toNat * regionSize totalCapacity := by
  have hle := region_le totalCapacity hlt
  have hcap := totalCapacity.toNat_lt
  have hquot : (totalCapacity / maxHeads.toUInt64).toNat = regionSize totalCapacity := UInt64.toNat_div _ _
  rw [UInt64.toNat_mul, hquot, UInt32.toNat_toUInt64]
  exact Nat.mod_eq_of_lt (by omega)

def bump (d : MHSLDDevice) (head : UInt32) (size : UInt64) : MHSLDDevice :=
  { d with heads := updateHead d.heads head fun st => { st with usedCapacity := st.usedCapacity + size } }

lemma bump_self (d : MHSLDDevice) (head : UInt32) (size : UInt64) :
    (bump d head size).heads head = { d.heads head with usedCapacity := (d.heads head).usedCapacity + size } :=
  Function.update_self ..

lemma bump_other (d : MHSLDDevice) {x : UInt32} (size : UInt64) (hx : x ≠ head) :
    (bump d head size).heads x = d.heads x := Function.update_of_ne hx ..

/-- What an allocation does: the pointer, which moves up by the size, or 0. -/
lemma allocatePool_spec (d : MHSLDDevice) (head : UInt32) (size : UInt64) :
    (succeeds d head size → allocatePool totalCapacity d head size =
        (head.toUInt64 * (totalCapacity / maxHeads.toUInt64) + (d.heads head).usedCapacity, bump d head size)) ∧
    (¬ succeeds d head size → allocatePool totalCapacity d head size = (0, d)) := by
  unfold allocatePool
  constructor
  · rintro ⟨hs, hfits⟩
    rw [hs, Bool.not_true, if_neg Bool.false_ne_true, if_neg hfits]
    rfl
  · intro hno
    by_cases hs : serves d head = true
    · rw [hs, Bool.not_true, if_neg Bool.false_ne_true, if_pos (not_not.1 fun h => hno ⟨hs, h⟩)]
    · rw [if_pos (by simpa using hs)]

/-! ## The invariant -/

structure Placed (totalCapacity : UInt64) (d : MHSLDDevice) (r : Range) : Prop where
  head_lt : r.head < maxHeads
  active : (d.heads r.head).active = true
  pos : 0 < r.size.toNat
  from_region : r.head.toNat * regionSize totalCapacity ≤ r.base.toNat
  below : r.base.toNat + r.size.toNat ≤ pointer totalCapacity d r.head

structure Inv (totalCapacity : UInt64) (p : State) : Prop where
  quota : ∀ h, (p.device.heads h).allocatedCapacity.toNat ≤ regionSize totalCapacity
  used : ∀ h, (p.device.heads h).usedCapacity.toNat ≤ regionSize totalCapacity
  placed : ∀ r ∈ p.live, Placed totalCapacity p.device r
  apart : p.live.Pairwise fun r q => Apart r.base.toNat r.size.toNat q.base.toNat q.size.toNat

lemma inv_start : Inv totalCapacity start :=
  ⟨fun _ => Nat.zero_le _, fun _ => Nat.zero_le _, fun _ h => absurd h List.not_mem_nil, List.Pairwise.nil⟩

variable {totalCapacity : UInt64} {p : State}

lemma Inv.rangesApart (h : Inv totalCapacity p) : RangesApart totalCapacity p := by
  refine ⟨h.apart, fun r hr => ?_⟩
  have hp := h.placed r hr
  have hu := h.used r.head
  have hle := region_le totalCapacity hp.head_lt
  have hb := hp.below
  unfold pointer at hb
  omega

lemma Inv.nodup (h : Inv totalCapacity p) : p.live.Nodup := by
  refine h.apart.imp_of_mem fun {r q} hr _ hap heq => ?_
  have hpos := (h.placed r hr).pos
  subst heq
  unfold Apart at hap
  omega

variable {live : List Range}

lemma Inv.sublist {stuck : Bool} (h : Inv totalCapacity p) (hsub : live.Sublist p.live) :
    Inv totalCapacity ⟨p.device, live, stuck⟩ :=
  ⟨h.quota, h.used, fun r hr => h.placed r (hsub.subset hr), h.apart.sublist hsub⟩

lemma inv_activateHead (h : Inv totalCapacity p) {cap : UInt64}
    (hcond : Disciplined totalCapacity p (.activateHead head cap)) :
    Inv totalCapacity { p with device := (activateHead p.device head cap).1 } := by
  unfold activateHead
  split_ifs with hle
  · exact h
  · obtain ⟨hcap, hfree⟩ := hcond (UInt32.not_le.1 hle)
    refine ⟨fun x => ?_, fun x => ?_, fun r hr => ?_, h.apart⟩
    · by_cases hx : x = head
      · subst hx
        simpa [updateHead] using hcap
      · simpa only [updateHead_of_ne _ _ hx] using h.quota x
    · by_cases hx : x = head
      · subst hx
        simp [updateHead]
      · simpa only [updateHead_of_ne _ _ hx] using h.used x
    · -- ranges belong to other heads, whose pointers stay
      have hp := h.placed r hr
      have hkeep := updateHead_of_ne p.device.heads
        (fun st => { st with active := true, allocatedCapacity := cap, usedCapacity := 0 }) (hfree r hr)
      refine ⟨hp.head_lt, ?_, hp.pos, hp.from_region, ?_⟩
      · simpa only [hkeep] using hp.active
      · simpa only [pointer, hkeep] using hp.below

/-! ## Allocations -/

variable {size : UInt64}

lemma used_add (hwrap : (p.device.heads head).usedCapacity.toNat + size.toNat < 2 ^ 64) :
    ((p.device.heads head).usedCapacity + size).toNat = (p.device.heads head).usedCapacity.toNat + size.toNat := by
  rw [UInt64.toNat_add]
  exact Nat.mod_eq_of_lt hwrap

lemma allocated_toNat (h : Inv totalCapacity p) (hlt : head < maxHeads) :
    (head.toUInt64 * (totalCapacity / maxHeads.toUInt64) + (p.device.heads head).usedCapacity).toNat =
      pointer totalCapacity p.device head := by
  have hle := region_le totalCapacity hlt
  have hcap := totalCapacity.toNat_lt
  have hu := h.used head
  unfold pointer
  rw [UInt64.toNat_add, regionBase_toNat hlt]
  exact Nat.mod_eq_of_lt (by omega)

variable {d : MHSLDDevice}

lemma Placed.bump {r : Range} (hr : Placed totalCapacity d r)
    (hwrap : (d.heads head).usedCapacity.toNat + size.toNat < 2 ^ 64) :
    Placed totalCapacity (Pool.bump d head size) r := by
  have hb := hr.below
  unfold pointer at hb
  by_cases hx : r.head = head
  · subst hx
    have hsum : ((d.heads r.head).usedCapacity + size).toNat = (d.heads r.head).usedCapacity.toNat + size.toNat := by
      rw [UInt64.toNat_add]
      exact Nat.mod_eq_of_lt hwrap
    refine ⟨hr.head_lt, ?_, hr.pos, hr.from_region, ?_⟩
    · rw [bump_self]
      exact hr.active
    · unfold pointer
      rw [bump_self]
      dsimp only
      omega
  · refine ⟨hr.head_lt, ?_, hr.pos, hr.from_region, ?_⟩
    · rw [bump_other d size hx]
      exact hr.active
    · unfold pointer
      rw [bump_other d size hx]
      exact hb

section

variable (h : Inv totalCapacity p) (hsucc : succeeds p.device head size)
  (hwrap : (p.device.heads head).usedCapacity.toNat + size.toNat < 2 ^ 64)
include h hsucc hwrap

lemma inv_bump : Inv totalCapacity { p with device := bump p.device head size } := by
  refine ⟨fun x => ?_, fun x => ?_, fun r hr => (h.placed r hr).bump hwrap, h.apart⟩
  · by_cases hx : x = head
    · subst hx
      dsimp only
      rw [bump_self]
      exact h.quota x
    · dsimp only
      rw [bump_other _ _ hx]
      exact h.quota x
  · by_cases hx : x = head
    · subst hx
      dsimp only
      rw [bump_self]
      -- the test of the quota, which did not wrap around
      have hfits := hsucc.2
      rw [gt_iff_lt, UInt64.lt_iff_toNat_lt] at hfits
      exact (Nat.le_of_not_lt hfits).trans (h.quota x)
    · dsimp only
      rw [bump_other _ _ hx]
      exact h.used x

lemma inv_allocate (hsize : size ≠ 0) :
    Inv totalCapacity { p with
      device := bump p.device head size
      live := ⟨head, head.toUInt64 * (totalCapacity / maxHeads.toUInt64) + (p.device.heads head).usedCapacity, size⟩
        :: p.live } := by
  have hlt := serves_lt hsucc.1
  have hbase := allocated_toNat h hlt
  have hb := inv_bump h hsucc hwrap
  have hpos : 0 < size.toNat := Nat.pos_of_ne_zero fun h0 => hsize (UInt64.toNat_inj.1 h0)
  have hused := hb.used head
  have hsum := used_add hwrap
  dsimp only at hused
  rw [bump_self] at hused
  dsimp only at hused
  refine ⟨hb.quota, hb.used, fun r hr => ?_, List.pairwise_cons.2 ⟨fun r hr => ?_, h.apart⟩⟩
  · rcases List.mem_cons.1 hr with rfl | hr
    · refine ⟨hlt, ?_, hpos, ?_, ?_⟩
      · dsimp only
        rw [bump_self]
        exact serves_active hsucc.1
      · rw [hbase]
        exact Nat.le_add_right _ _
      · dsimp only
        rw [hbase]
        unfold pointer
        rw [bump_self]
        dsimp only
        omega
    · exact hb.placed r hr
  · have hp := h.placed r hr
    have hbelow := hp.below
    have hfrom := hp.from_region
    dsimp only
    rw [hbase]
    by_cases hx : r.head = head
    · rw [hx] at hbelow
      exact Or.inr hbelow
    · -- another head, hence another region
      refine region_apart (q := regionSize totalCapacity) (h := head.toNat) (k := r.head.toNat)
        (fun heq => hx (UInt32.toNat_inj.1 heq.symm)) ⟨Nat.le_add_right _ _, ?_⟩ ⟨hfrom, ?_⟩
      · unfold pointer
        omega
      · have hu := h.used r.head
        unfold pointer at hbelow
        omega

end

variable {addr : UInt64}

lemma releasePool_heads (hs : serves d head = true)
    (hcall : releasePool d head addr size = some d') : (∀ x, x ≠ head → d'.heads x = d.heads x) ∧
      d'.heads head = if size ≤ (d.heads head).usedCapacity then
        { d.heads head with usedCapacity := (d.heads head).usedCapacity - size } else d.heads head := by
  obtain ⟨lines, -, -, rfl⟩ := releasePool_some hs hcall
  exact ⟨fun x hx => updateHead_of_ne _ _ hx, Function.update_self ..⟩

variable (h : Inv totalCapacity p)
include h

lemma Inv.congr (hd : ∀ x, d'.heads x = p.device.heads x) (hsub : live.Sublist p.live) :
    Inv totalCapacity ⟨d', live, false⟩ := by
  have hheads : d'.heads = p.device.heads := funext hd
  refine ⟨fun x => hd x ▸ h.quota x, fun x => hd x ▸ h.used x, fun r hr => ?_, h.apart.sublist hsub⟩
  have hp := h.placed r (hsub.subset hr)
  refine ⟨hp.head_lt, ?_, hp.pos, hp.from_region, ?_⟩
  · dsimp only
    rw [hheads]
    exact hp.active
  · unfold pointer
    dsimp only
    rw [hheads]
    exact hp.below

lemma inv_release_last (hother : ∀ x, x ≠ head → d'.heads x = p.device.heads x) (hself : d'.heads head =
      { p.device.heads head with usedCapacity := (p.device.heads head).usedCapacity - size })
    (hle : size ≤ (p.device.heads head).usedCapacity) (hmem : ⟨head, addr, size⟩ ∈ p.live)
    (hlast : addr.toNat + size.toNat = pointer totalCapacity p.device head) :
    Inv totalCapacity ⟨d', p.live.erase ⟨head, addr, size⟩, false⟩ := by
  have hsub : ((p.device.heads head).usedCapacity - size).toNat =
      (p.device.heads head).usedCapacity.toNat - size.toNat := UInt64.toNat_sub_of_le _ _ hle
  rw [UInt64.le_iff_toNat_le] at hle
  refine ⟨fun x => ?_, fun x => ?_, fun r hr => ?_, h.apart.sublist List.erase_sublist⟩
  · by_cases hx : x = head
    · subst hx
      dsimp only
      rw [hself]
      exact h.quota x
    · dsimp only
      rw [hother x hx]
      exact h.quota x
  · by_cases hx : x = head
    · subst hx
      have hu := h.used x
      dsimp only
      rw [hself]
      dsimp only
      omega
    · dsimp only
      rw [hother x hx]
      exact h.used x
  · obtain ⟨hne, hr⟩ := (h.nodup.mem_erase_iff).1 hr
    have hp := h.placed r hr
    by_cases hx : r.head = head
    · -- apart from the last range and below the pointer: below the last range
      have : Std.Symm fun a b : Range => Apart a.base.toNat a.size.toNat b.base.toNat b.size.toNat :=
        ⟨fun _ _ hab => Apart.symm hab⟩
      have hap : Apart r.base.toNat r.size.toNat addr.toNat size.toNat := h.apart.forall hr hmem hne
      have hbelow := hp.below
      have hpos := hp.pos
      subst hx
      refine ⟨hp.head_lt, ?_, hp.pos, hp.from_region, ?_⟩
      · dsimp only
        rw [hself]
        exact hp.active
      · unfold pointer at hbelow hlast ⊢
        dsimp only
        rw [hself]
        dsimp only
        unfold Apart at hap
        omega
    · refine ⟨hp.head_lt, ?_, hp.pos, hp.from_region, ?_⟩
      · dsimp only
        rw [hother r.head hx]
        exact hp.active
      · have hbelow := hp.below
        unfold pointer at hbelow ⊢
        dsimp only
        rw [hother r.head hx]
        exact hbelow

lemma inv_releasePool (hcond : Disciplined totalCapacity p (.releasePool head addr size))
    (hs : serves p.device head = true) (hcall : releasePool p.device head addr size = some d') :
    Inv totalCapacity ⟨d', p.live.erase ⟨head, addr, size⟩, false⟩ := by
  obtain ⟨hother, hself⟩ := releasePool_heads hs hcall
  by_cases hle : size ≤ (p.device.heads head).usedCapacity
  · rw [if_pos hle] at hself
    by_cases hzero : size = 0
    · -- nothing moves
      subst hzero
      refine h.congr (fun x => ?_) List.erase_sublist
      by_cases hx : x = head
      · rw [hx, hself, UInt64.sub_zero]
      · exact hother x hx
    · obtain ⟨hmem, hlast⟩ := hcond hs hzero hle
      exact inv_release_last h hother hself hle hmem hlast
  · rw [if_neg hle] at hself
    refine h.congr (fun x => ?_) List.erase_sublist
    by_cases hx : x = head
    · rw [hx, hself]
    · exact hother x hx

lemma step_inv (o : PoolOp) (ho : Disciplined totalCapacity p o) : Inv totalCapacity (step totalCapacity p o) := by
  unfold step
  split_ifs with hstuck
  · exact h
  · cases o with
    | activateHead head cap => exact inv_activateHead h ho
    | allocatePool head size =>
      dsimp only
      by_cases hsucc : succeeds p.device head size
      · obtain ⟨hwrap, -⟩ := ho hsucc
        rw [(allocatePool_spec totalCapacity p.device head size).1 hsucc]
        by_cases hsize : size = 0
        · rw [if_neg fun hc => hc.2 hsize]
          exact inv_bump h hsucc hwrap
        · rw [if_pos ⟨hsucc, hsize⟩]
          exact inv_allocate h hsucc hwrap hsize
      · rw [(allocatePool_spec totalCapacity p.device head size).2 hsucc, if_neg fun hc => hsucc hc.1]
        exact h
    | releasePool head addr size =>
      dsimp only
      cases hcall : releasePool p.device head addr size with
      | none => exact h.sublist (List.Sublist.refl _)
      | some d' =>
        dsimp only
        have hns : p.stuck = false := by simpa using hstuck
        rw [hns]
        cases hs : serves p.device head with
        | false =>
          rw [releasePool_refused addr size hs] at hcall
          obtain rfl := Option.some.inj hcall
          exact h.sublist (List.Sublist.refl _)
        | true => exact inv_releasePool h ho hs hcall

lemma tells_of_disciplined (o : PoolOp) (ho : Disciplined totalCapacity p o) : Tells totalCapacity p o := by
  cases o with
  | allocatePool head size =>
    unfold Tells
    by_cases hsucc : succeeds p.device head size
    · obtain ⟨-, hstart⟩ := ho hsucc
      refine iff_of_false (fun hzero => hstart ?_) (not_not.2 hsucc)
      rw [(allocatePool_spec totalCapacity p.device head size).1 hsucc] at hzero
      dsimp only at hzero
      have hptr := allocated_toNat h (serves_lt hsucc.1)
      rw [hzero] at hptr
      unfold pointer at hptr
      have hprod : head.toNat * regionSize totalCapacity = 0 := by
        have h0 : (0 : UInt64).toNat = 0 := rfl
        omega
      refine ⟨UInt64.toNat_inj.1 (by have h0 : (0 : UInt64).toNat = 0 := rfl; omega), ?_⟩
      rcases Nat.mul_eq_zero.1 hprod with hhead | hregion
      · exact Or.inl (UInt32.toNat_inj.1 hhead)
      · refine Or.inr (UInt64.lt_iff_toNat_lt.2 ?_)
        have h16 : (16 : UInt64).toNat = 16 := rfl
        unfold regionSize at hregion
        omega
    · exact iff_of_true (congrArg Prod.fst ((allocatePool_spec totalCapacity p.device head size).2 hsucc)) hsucc
  | _ => trivial

omit h

/-- In disciplined runs the ranges in use are disjoint and inside the device; 0 is returned exactly for a failure. -/
theorem pool_safe (totalCapacity : UInt64) (ops : List PoolOp)
    (hops : AllSteps (step totalCapacity) (Disciplined totalCapacity) start ops) :
    AllSteps (step totalCapacity) (Safe totalCapacity) start ops :=
  Core.allSteps_of_inv (P := Inv totalCapacity) (fun _ o h ho => step_inv h o ho)
    (fun _ o h ho => ⟨(step_inv h o ho).rangesApart, fun _ => tells_of_disciplined h o ho⟩) (inv_start totalCapacity)
    hops

theorem pool_safe_two_heads :
    let ops : List PoolOp := [.activateHead 1 100, .activateHead 2 100, .allocatePool 1 60, .allocatePool 2 100,
      .allocatePool 1 40, .allocatePool 1 1, .releasePool 1 160 40, .releasePool 1 100 60, .activateHead 1 80,
      .allocatePool 1 80]
    AllSteps (step 1600) (Disciplined 1600) start ops ∧ AllSteps (step 1600) (Safe 1600) start ops :=
  have h : AllSteps (step 1600) (Disciplined 1600) start [.activateHead 1 100, .activateHead 2 100, .allocatePool 1 60,
      .allocatePool 2 100, .allocatePool 1 40, .allocatePool 1 1, .releasePool 1 160 40, .releasePool 1 100 60,
      .activateHead 1 80, .allocatePool 1 80] := by decide +kernel
  ⟨h, pool_safe 1600 _ h⟩

end CxlMemSim.Coherency.Pool
