/-
The Dynamic Capacity Device (`src/dcd_gfam.cpp`): tagged extents of a fixed capacity, added and released at run time.

Model: a call holds the mutex and is one step; sums wrap as the source's do. Active bases are distinct in every
reachable state (`Inv`), so it does not matter how `std::sort` orders equal elements.
-/
import CxlMemSim.Core.Run
import CxlMemSim.Core.Range

namespace CxlMemSim.Dcd

open CxlMemSim.Core

/-! ## Model -/

inductive DCDStatus where
  | ok
  | outOfCapacity
  | overlap
  | notFound
  | invalidRequest
  | accessDenied
deriving DecidableEq, Repr

structure DCDExtent where
  base : UInt64
  size : UInt64
  tag : UInt64
  createdTimestamp : UInt64
  releasedTimestamp : UInt64
  active : Bool
deriving DecidableEq, Repr

structure DCDAllocationResult where
  status : DCDStatus
  base : UInt64
  size : UInt64
  tag : UInt64
deriving DecidableEq, Repr

structure DCDStats where
  totalCapacity : UInt64
  allocatedCapacity : UInt64
  freeCapacity : UInt64
  activeExtents : UInt64
  allocationRequests : UInt64
  releaseRequests : UInt64
  failedRequests : UInt64
deriving DecidableEq, Repr

structure DynamicCapacityDevice where
  totalCapacityBytes : UInt64
  granularityBytes : UInt64
  granularity_pos : 0 < granularityBytes.toNat
  nextTag : UInt64
  extents : List DCDExtent
  allocationRequests : UInt64
  releaseRequests : UInt64
  failedRequests : UInt64
deriving DecidableEq, Repr

def u64Max : UInt64 := 0xFFFFFFFFFFFFFFFF

lemma u64Max_toNat : u64Max.toNat = 2 ^ 64 - 1 := rfl

lemma max_one_pos (g : UInt64) : 0 < (max 1 g).toNat := by
  rw [show max 1 g = if 1 ≤ g then g else 1 from rfl]
  split_ifs with h
  · rw [UInt64.le_iff_toNat_le] at h; exact h
  · decide

def DynamicCapacityDevice.new (totalCapacityBytes granularityBytes : UInt64) : DynamicCapacityDevice :=
  { totalCapacityBytes, granularityBytes := max 1 granularityBytes, granularity_pos := max_one_pos granularityBytes,
    nextTag := 1, extents := [], allocationRequests := 0, releaseRequests := 0, failedRequests := 0 }

def rangesOverlap (aBase aSize bBase bSize : UInt64) : Bool :=
  if aSize = 0 ∨ bSize = 0 then false
  else if aBase ≤ bBase then decide (bBase - aBase < aSize)
  else decide (aBase - bBase < bSize)

def rangeContains (outerBase outerSize innerBase innerSize : UInt64) : Bool :=
  if innerSize = 0 ∨ innerSize > outerSize ∨ innerBase < outerBase then false
  else decide (innerBase - outerBase ≤ outerSize - innerSize)

variable (d : DynamicCapacityDevice)

def alignUp (value : UInt64) : UInt64 :=
  if value = 0 then 0
  else
    let remainder := value % d.granularityBytes
    if remainder = 0 then value
    else if value > u64Max - (d.granularityBytes - remainder) then 0
    else value + d.granularityBytes - remainder

def rangeWithinDevice (base size : UInt64) : Bool :=
  decide (size > 0 ∧ base < d.totalCapacityBytes ∧ size ≤ d.totalCapacityBytes - base)

def rangeOverlapsActive (base size : UInt64) : Bool :=
  d.extents.any fun e => e.active && rangesOverlap base size e.base e.size

def live : List DCDExtent := d.extents.filter fun e => e.active

def activeExtents : List DCDExtent := (live d).insertionSort fun l r => l.base ≤ r.base

def findFreeFrom (d : DynamicCapacityDevice) (size : UInt64) : UInt64 → List DCDExtent → Option UInt64
  | candidate, [] => if rangeWithinDevice d candidate size then some candidate else none
  | candidate, e :: es =>
    if candidate + size ≤ e.base then some candidate
    else if e.base > u64Max - e.size then none
    else findFreeFrom d size (alignUp d (e.base + e.size)) es

def findFreeBase (size : UInt64) : Option UInt64 := findFreeFrom d size 0 (activeExtents d)

def requestSize (size : UInt64) : UInt64 := if size = d.totalCapacityBytes then size else alignUp d size

def requestBase (requestedBase alignedSize tag : UInt64) :
    Except DCDAllocationResult UInt64 :=
  if requestedBase = u64Max then
    match findFreeBase d alignedSize with
    | none => .error ⟨.outOfCapacity, 0, alignedSize, tag⟩
    | some base => .ok base
  else if requestedBase % d.granularityBytes ≠ 0 then .error ⟨.invalidRequest, requestedBase, alignedSize, tag⟩
  else .ok requestedBase

def placeCapacity (requestedBase size tag : UInt64) :
    Except DCDAllocationResult (UInt64 × UInt64) :=
  let alignedSize := requestSize d size
  if alignedSize = 0 ∨ alignedSize > d.totalCapacityBytes then .error ⟨.invalidRequest, 0, 0, tag⟩
  else
    match requestBase d requestedBase alignedSize tag with
    | .error r => .error r
    | .ok base =>
      if !rangeWithinDevice d base alignedSize then .error ⟨.outOfCapacity, base, alignedSize, tag⟩
      else if rangeOverlapsActive d base alignedSize then .error ⟨.overlap, base, alignedSize, tag⟩
      else .ok (base, alignedSize)

def addCapacity (requestedBase size tag timestamp : UInt64) :
    DCDAllocationResult × DynamicCapacityDevice :=
  let d := { d with allocationRequests := d.allocationRequests + 1 }
  match placeCapacity d requestedBase size tag with
  | .error r => (r, { d with failedRequests := d.failedRequests + 1 })
  | .ok (base, alignedSize) =>
    let extentTag := if tag = 0 then d.nextTag else tag
    (⟨.ok, base, alignedSize, extentTag⟩, { d with
        nextTag := if tag = 0 then d.nextTag + 1 else d.nextTag
        extents := d.extents ++ [⟨base, alignedSize, extentTag, timestamp, 0, true⟩] })

def releaseMatches (base alignedSize tag : UInt64) (e : DCDExtent) : Bool :=
  e.active && (tag = 0 || e.tag = tag) && e.base = base && e.size = alignedSize

def releaseFirst (base alignedSize tag timestamp : UInt64) : List DCDExtent → Option (List DCDExtent)
  | [] => none
  | e :: es =>
    if releaseMatches base alignedSize tag e then
      some ({ e with active := false, releasedTimestamp := timestamp } :: es)
    else (releaseFirst base alignedSize tag timestamp es).map (e :: ·)

def releaseCapacity (base size tag timestamp : UInt64) :
    DCDStatus × DynamicCapacityDevice :=
  let d := { d with releaseRequests := d.releaseRequests + 1 }
  let alignedSize := requestSize d size
  if !rangeWithinDevice d base alignedSize then
    (.invalidRequest, { d with failedRequests := d.failedRequests + 1 })
  else
    match releaseFirst base alignedSize tag timestamp d.extents with
    | some extents => (.ok, { d with extents })
    | none => (.notFound, { d with failedRequests := d.failedRequests + 1 })

def findExtent (addr size : UInt64) : Option DCDExtent :=
  if size = 0 ∨ addr ≥ d.totalCapacityBytes ∨ size > d.totalCapacityBytes - addr then none
  else d.extents.find? fun e => e.active && rangeContains e.base e.size addr size

def isAllocated (addr size : UInt64) : Bool := (findExtent d addr size).isSome

def stats : DCDStats :=
  let allocated := (live d).foldl (fun acc e => acc + e.size) 0
  let activeCount := (live d).foldl (fun acc _ => acc + 1) 0
  { totalCapacity := d.totalCapacityBytes
    allocatedCapacity := allocated
    freeCapacity := if d.totalCapacityBytes ≥ allocated then d.totalCapacityBytes - allocated else 0
    activeExtents := activeCount
    allocationRequests := d.allocationRequests
    releaseRequests := d.releaseRequests
    failedRequests := d.failedRequests }

inductive Op where
  | add (requestedBase size tag timestamp : UInt64)
  | release (base size tag timestamp : UInt64)
deriving DecidableEq, Repr

def step : Op → DynamicCapacityDevice
  | .add b n tag ts => (addCapacity d b n tag ts).2
  | .release b n tag ts => (releaseCapacity d b n tag ts).2

def answer : Op → DCDStatus
  | .add b n tag ts => (addCapacity d b n tag ts).1.status
  | .release b n tag ts => (releaseCapacity d b n tag ts).1

/-! ## The word-level predicates, over ℕ -/

variable {a b n m : UInt64} {d : DynamicCapacityDevice} {rb tag : UInt64} {ts : UInt64}

lemma toNat_sub_le (h : a ≤ b) : (b - a).toNat = b.toNat - a.toNat := UInt64.toNat_sub_of_le b a h

lemma pos_iff_toNat : 0 < a ↔ 0 < a.toNat := by rw [UInt64.lt_iff_toNat_lt]; rfl

lemma eq_zero_iff_toNat : a = 0 ↔ a.toNat = 0 := by rw [← UInt64.toNat_inj]; rfl

lemma apart_of_not_overlap (h : rangesOverlap a n b m = false) (hn : 0 < n.toNat)
    (hm : 0 < m.toNat) : Apart a.toNat n.toNat b.toNat m.toNat := by
  have hne : ¬ (n = 0 ∨ m = 0) := by rw [eq_zero_iff_toNat, eq_zero_iff_toNat]; omega
  unfold rangesOverlap at h
  rw [if_neg hne] at h
  split_ifs at h with hab
  · rw [decide_eq_false_iff_not, UInt64.lt_iff_toNat_lt, toNat_sub_le hab] at h
    rw [UInt64.le_iff_toNat_le] at hab
    exact Or.inl (by omega)
  · rw [UInt64.le_iff_toNat_le] at hab
    rw [decide_eq_false_iff_not, UInt64.lt_iff_toNat_lt, toNat_sub_le (UInt64.le_iff_toNat_le.2 (by omega))] at h
    exact Or.inr (by omega)

lemma not_overlap_of_apart (h : Apart a.toNat n.toNat b.toNat m.toNat) : rangesOverlap a n b m = false := by
  unfold rangesOverlap
  split_ifs with hz hab
  · rfl
  · rw [eq_zero_iff_toNat, eq_zero_iff_toNat] at hz
    rw [decide_eq_false_iff_not, UInt64.lt_iff_toNat_lt, toNat_sub_le hab]
    rw [UInt64.le_iff_toNat_le] at hab
    rcases h with h | h <;> omega
  · rw [eq_zero_iff_toNat, eq_zero_iff_toNat] at hz
    rw [UInt64.le_iff_toNat_le] at hab
    rw [decide_eq_false_iff_not, UInt64.lt_iff_toNat_lt, toNat_sub_le (UInt64.le_iff_toNat_le.2 (by omega))]
    rcases h with h | h <;> omega

lemma rangeContains_iff : rangeContains a n b m = true ↔ Covers a.toNat n.toNat b.toNat m.toNat := by
  unfold rangeContains Covers
  by_cases h : m = 0 ∨ m > n ∨ b < a
  · rw [if_pos h]
    rw [eq_zero_iff_toNat, gt_iff_lt, UInt64.lt_iff_toNat_lt, UInt64.lt_iff_toNat_lt] at h
    simp only [Bool.false_eq_true, false_iff]
    omega
  · rw [if_neg h]
    rw [eq_zero_iff_toNat, gt_iff_lt, UInt64.lt_iff_toNat_lt, UInt64.lt_iff_toNat_lt] at h
    rw [decide_eq_true_iff, UInt64.le_iff_toNat_le, toNat_sub_le (UInt64.le_iff_toNat_le.2 (by omega)),
      toNat_sub_le (UInt64.le_iff_toNat_le.2 (by omega))]
    omega

lemma rangeWithinDevice_iff :
    rangeWithinDevice d b n = true ↔ 0 < n.toNat ∧ b.toNat + n.toNat ≤ d.totalCapacityBytes.toNat := by
  unfold rangeWithinDevice
  rw [decide_eq_true_iff, gt_iff_lt, pos_iff_toNat, UInt64.lt_iff_toNat_lt]
  constructor
  · rintro ⟨hn, hb, hle⟩
    rw [UInt64.le_iff_toNat_le, toNat_sub_le (UInt64.le_iff_toNat_le.2 (by omega))] at hle
    omega
  · rintro ⟨hn, hle⟩
    refine ⟨hn, by omega, ?_⟩
    rw [UInt64.le_iff_toNat_le, toNat_sub_le (UInt64.le_iff_toNat_le.2 (by omega))]
    omega

lemma alignUp_mod (d : DynamicCapacityDevice) (v : UInt64) : (alignUp d v).toNat % d.granularityBytes.toNat = 0 := by
  have hg := d.granularity_pos
  unfold alignUp
  split_ifs with h0
  · simp
  · dsimp only
    split_ifs with hr hv
    · rw [eq_zero_iff_toNat, UInt64.toNat_mod] at hr; exact hr
    · simp
    · have hlt : v.toNat % d.granularityBytes.toNat < d.granularityBytes.toNat := Nat.mod_lt _ hg
      have hgb := d.granularityBytes.toNat_lt
      have hvb := v.toNat_lt
      rw [eq_zero_iff_toNat, UInt64.toNat_mod] at hr
      rw [gt_iff_lt, UInt64.lt_iff_toNat_lt, UInt64.toNat_sub, UInt64.toNat_sub, UInt64.toNat_mod, u64Max_toNat] at hv
      have hval : (v + d.granularityBytes - v % d.granularityBytes).toNat
          = v.toNat + (d.granularityBytes.toNat - v.toNat % d.granularityBytes.toNat) := by
        rw [UInt64.toNat_sub, UInt64.toNat_add, UInt64.toNat_mod]
        omega
      have hdiv := Nat.div_add_mod v.toNat d.granularityBytes.toNat
      rw [hval, show v.toNat + (d.granularityBytes.toNat - v.toNat % d.granularityBytes.toNat)
        = d.granularityBytes.toNat * (v.toNat / d.granularityBytes.toNat + 1) by rw [Nat.mul_add]; omega]
      exact Nat.mul_mod_right _ _

lemma findFreeFrom_aligned {c : UInt64} {es : List DCDExtent}
    (hc : c.toNat % d.granularityBytes.toNat = 0) (h : findFreeFrom d n c es = some b) :
    b.toNat % d.granularityBytes.toNat = 0 := by
  induction es generalizing c with
  | nil =>
    unfold findFreeFrom at h
    split_ifs at h
    cases h; exact hc
  | cons e es ih =>
    unfold findFreeFrom at h
    split_ifs at h
    · cases h; exact hc
    · exact ih (alignUp_mod d _) h

lemma requestBase_aligned (h : requestBase d rb n tag = .ok b) : b.toNat % d.granularityBytes.toNat = 0 := by
  unfold requestBase at h
  split_ifs at h with hmax hmod
  · cases hf : findFreeBase d n with
    | none => rw [hf] at h; cases h
    | some c =>
      rw [hf] at h; cases h
      exact findFreeFrom_aligned (by simp) hf
  · cases h
    rw [ne_eq, not_not, eq_zero_iff_toNat, UInt64.toNat_mod] at hmod
    exact hmod

lemma placeCapacity_ok (h : placeCapacity d rb n tag = .ok (b, m)) :
    m = requestSize d n ∧ 0 < m.toNat ∧ b.toNat + m.toNat ≤ d.totalCapacityBytes.toNat ∧
      b.toNat % d.granularityBytes.toNat = 0 ∧ rangeOverlapsActive d b m = false := by
  unfold placeCapacity at h
  dsimp only at h
  split_ifs at h with hz
  cases hb : requestBase d rb (requestSize d n) tag with
  | error r => rw [hb] at h; cases h
  | ok c =>
    rw [hb] at h
    dsimp only at h
    split_ifs at h with hw ho
    cases h
    have hw' : rangeWithinDevice d b (requestSize d n) = true := by simpa using hw
    obtain ⟨hpos, hle⟩ := rangeWithinDevice_iff.1 hw'
    exact ⟨rfl, hpos, hle, requestBase_aligned hb, by simpa using ho⟩

lemma placeCapacity_error {size : UInt64} {r : DCDAllocationResult}
    (h : placeCapacity d rb size tag = .error r) : r.status ≠ .ok := by
  unfold placeCapacity at h
  dsimp only at h
  split_ifs at h
  · cases h
    simp
  · cases hb : requestBase d rb (requestSize d size) tag with
    | error r' =>
      rw [hb] at h
      cases h
      unfold requestBase at hb
      split_ifs at hb
      · cases hf : findFreeBase d (requestSize d size) with
        | none =>
          rw [hf] at hb
          cases hb
          simp
        | some b =>
          rw [hf] at hb
          cases hb
      · cases hb
        simp
    | ok b =>
      rw [hb] at h
      dsimp only at h
      split_ifs at h
      · cases h
        simp
      · cases h
        simp

lemma requestSize_aligned (d : DynamicCapacityDevice) (n : UInt64) :
    (requestSize d n).toNat % d.granularityBytes.toNat = 0 ∨ requestSize d n = d.totalCapacityBytes := by
  unfold requestSize
  split_ifs with h
  · exact Or.inr h
  · exact Or.inl (alignUp_mod d n)

lemma releaseFirst_some {l l' : List DCDExtent} (h : releaseFirst b n tag ts l = some l') :
    ∃ pre e post, l = pre ++ e :: post ∧ releaseMatches b n tag e = true ∧
      l' = pre ++ { e with active := false, releasedTimestamp := ts } :: post := by
  induction l generalizing l' with
  | nil => cases h
  | cons e es ih =>
    unfold releaseFirst at h
    split_ifs at h with hm
    · cases h
      exact ⟨[], e, es, rfl, hm, rfl⟩
    · cases hr : releaseFirst b n tag ts es with
      | none => rw [hr] at h; cases h
      | some es' =>
        rw [hr] at h; cases h
        obtain ⟨pre, x, post, rfl, hx, rfl⟩ := ih hr
        exact ⟨e :: pre, x, post, rfl, hx, rfl⟩

lemma releaseFirst_active_sublist {l l' : List DCDExtent}
    (h : releaseFirst b n tag ts l = some l') : (l'.filter (·.active)).Sublist (l.filter (·.active)) := by
  obtain ⟨pre, e, post, rfl, -, rfl⟩ := releaseFirst_some h
  rw [List.filter_append, List.filter_append, List.filter_cons_of_neg (by simp)]
  exact List.Sublist.append (List.Sublist.refl _) ((List.sublist_cons_self e post).filter _)

/-! ## The representation invariant -/

def ApartExtents (e f : DCDExtent) : Prop := Apart e.base.toNat e.size.toNat f.base.toNat f.size.toNat

structure Inv (d : DynamicCapacityDevice) : Prop where
  within : ∀ e ∈ d.extents, e.active = true →
    0 < e.size.toNat ∧ e.base.toNat + e.size.toNat ≤ d.totalCapacityBytes.toNat
  aligned : ∀ e ∈ d.extents, e.active = true → e.base.toNat % d.granularityBytes.toNat = 0 ∧
    (e.size.toNat % d.granularityBytes.toNat = 0 ∨ e.size = d.totalCapacityBytes)
  apart : (live d).Pairwise ApartExtents

lemma inv_new (cap gran : UInt64) : Inv (DynamicCapacityDevice.new cap gran) :=
  ⟨by simp [DynamicCapacityDevice.new], by simp [DynamicCapacityDevice.new], by simp [live, DynamicCapacityDevice.new]⟩

lemma addCapacity_inv (h : Inv d) (rb n tag ts : UInt64) : Inv (addCapacity d rb n tag ts).2 := by
  unfold addCapacity
  dsimp only
  split
  · exact ⟨h.within, h.aligned, h.apart⟩
  · rename_i b m hp
    obtain ⟨hm, hpos, hle, hmod, hno⟩ := placeCapacity_ok hp
    refine ⟨fun e he ha => ?_, fun e he ha => ?_, ?_⟩
    · simp only [List.mem_append, List.mem_singleton] at he
      rcases he with he | rfl
      · exact h.within e he ha
      · exact ⟨hpos, hle⟩
    · simp only [List.mem_append, List.mem_singleton] at he
      rcases he with he | rfl
      · exact h.aligned e he ha
      · refine ⟨hmod, ?_⟩
        dsimp only
        rw [hm]
        exact requestSize_aligned _ n
    · rw [live, List.filter_append, List.pairwise_append]
      refine ⟨h.apart, by simp, fun e he f hf => ?_⟩
      obtain ⟨he, ha⟩ := List.mem_filter.1 he
      simp only [List.filter_cons, List.filter_nil, if_true, List.mem_singleton] at hf
      subst hf
      have hne : rangesOverlap b m e.base e.size = false := by
        by_contra hx
        have : rangeOverlapsActive d b m = true := List.any_eq_true.2 ⟨e, he, by simpa [ha] using hx⟩
        rw [show rangeOverlapsActive d b m = false from hno] at this
        cases this
      exact (apart_of_not_overlap hne hpos (h.within e he ha).1).symm

lemma releaseCapacity_inv (h : Inv d) (b n tag ts : UInt64) : Inv (releaseCapacity d b n tag ts).2 := by
  unfold releaseCapacity
  dsimp only
  split_ifs
  · exact ⟨h.within, h.aligned, h.apart⟩
  · split
    · rename_i l hl
      have hsub := releaseFirst_active_sublist hl
      have hold : ∀ e ∈ l, e.active = true → e ∈ d.extents := fun e he ha =>
        (List.mem_filter.1 (hsub.subset (List.mem_filter.2 ⟨he, ha⟩))).1
      exact ⟨fun e he ha => h.within e (hold e he ha) ha, fun e he ha => h.aligned e (hold e he ha) ha,
        h.apart.sublist hsub⟩
    · exact ⟨h.within, h.aligned, h.apart⟩

lemma step_inv (h : Inv d) (o : Op) : Inv (step d o) := by
  cases o with
  | add b n tag ts => exact addCapacity_inv h b n tag ts
  | release b n tag ts => exact releaseCapacity_inv h b n tag ts

lemma run_inv (h : Inv d) (ops : List Op) : Inv (Core.run step d ops) :=
  Core.run_inv_all (P := Inv) (fun _ o hs => step_inv hs o) ops h

lemma step_capacity (d : DynamicCapacityDevice) (o : Op) : (step d o).totalCapacityBytes = d.totalCapacityBytes := by
  cases o with
  | add b n tag ts => simp only [step, addCapacity]; split <;> rfl
  | release b n tag ts =>
    simp only [step, releaseCapacity]
    split_ifs
    · rfl
    · split <;> rfl

lemma step_granularity (d : DynamicCapacityDevice) (o : Op) : (step d o).granularityBytes = d.granularityBytes := by
  cases o with
  | add b n tag ts => simp only [step, addCapacity]; split <;> rfl
  | release b n tag ts =>
    simp only [step, releaseCapacity]
    split_ifs
    · rfl
    · split <;> rfl

lemma sum_active_le (h : Inv d) : ((live d).map fun e => e.size.toNat).sum ≤ d.totalCapacityBytes.toNat := by
  have hsum := Core.sum_size_le (T := d.totalCapacityBytes.toNat)
    (l := (live d).map fun e : DCDExtent => (e.base.toNat, e.size.toNat))
    (List.pairwise_map.2 h.apart) (by
      intro r hr
      obtain ⟨e, he, rfl⟩ := List.mem_map.1 hr
      obtain ⟨he, ha⟩ := List.mem_filter.1 he
      exact (h.within e he ha).2)
  rwa [List.map_map] at hsum

lemma allocated_toNat (h : Inv d) : (stats d).allocatedCapacity.toNat = ((live d).map fun e => e.size.toNat).sum := by
  have hle := sum_active_le h
  have hlt := d.totalCapacityBytes.toNat_lt
  have := Core.toNat_foldl_add (fun e : DCDExtent => e.size) (live d) 0
    (by rw [UInt64.toNat_zero]; omega)
  rw [UInt64.toNat_zero, Nat.zero_add] at this
  exact this

lemma stats_conserve (h : Inv d) :
    (stats d).allocatedCapacity.toNat + (stats d).freeCapacity.toNat = d.totalCapacityBytes.toNat := by
  have hle : (stats d).allocatedCapacity.toNat ≤ d.totalCapacityBytes.toNat :=
    (allocated_toNat h).trans_le (sum_active_le h)
  have hfree : (stats d).freeCapacity = d.totalCapacityBytes - (stats d).allocatedCapacity :=
    if_pos (UInt64.le_iff_toNat_le.2 hle)
  rw [hfree, toNat_sub_le (UInt64.le_iff_toNat_le.2 hle)]
  omega

lemma failed_unchanged (d : DynamicCapacityDevice) (o : Op) (h : answer d o ≠ .ok) :
    (step d o).extents = d.extents ∧ (step d o).nextTag = d.nextTag := by
  cases o with
  | add b n tag ts =>
    simp only [answer, step] at h ⊢
    unfold addCapacity at h ⊢
    dsimp only at h ⊢
    split at h
    · exact ⟨rfl, rfl⟩
    · exact absurd rfl h
  | release b n tag ts =>
    simp only [answer, step] at h ⊢
    unfold releaseCapacity at h ⊢
    dsimp only at h ⊢
    split_ifs at h ⊢
    · exact ⟨rfl, rfl⟩
    · split at h
      · exact absurd rfl h
      · exact ⟨rfl, rfl⟩

/-- Representation invariant. The active extents are disjoint, inside the device and aligned (or the whole
capacity); `stats` has the true sum; a call not answered OK leaves extents and next tag. -/
theorem dcd_representation (cap gran : UInt64) (ops : List Op) :
    let d := Core.run step (DynamicCapacityDevice.new cap gran) ops
    (live d).Pairwise ApartExtents ∧ (∀ e ∈ d.extents, e.active = true →
      (0 < e.size.toNat ∧ e.base.toNat + e.size.toNat ≤ cap.toNat) ∧ e.base.toNat % (max 1 gran).toNat = 0 ∧
        (e.size.toNat % (max 1 gran).toNat = 0 ∨ e.size = cap)) ∧
    (stats d).allocatedCapacity.toNat = ((live d).map fun e => e.size.toNat).sum ∧
    (stats d).allocatedCapacity.toNat + (stats d).freeCapacity.toNat = cap.toNat ∧
    ∀ o, answer d o ≠ .ok → (step d o).extents = d.extents ∧ (step d o).nextTag = d.nextTag := by
  intro d
  have hd : Inv d := run_inv (inv_new cap gran) ops
  have hconst : d.totalCapacityBytes = cap ∧ d.granularityBytes = max 1 gran :=
    Core.run_inv_all (P := fun d : DynamicCapacityDevice =>
      d.totalCapacityBytes = cap ∧ d.granularityBytes = max 1 gran)
      (fun s o hs => by rw [step_capacity, step_granularity]; exact hs) ops ⟨rfl, rfl⟩
  refine ⟨hd.apart, fun e he ha => ?_, allocated_toNat hd, ?_, fun o ho => failed_unchanged d o ho⟩
  · have hw := hd.within e he ha
    have hal := hd.aligned e he ha
    rw [hconst.1] at hw hal
    rw [hconst.2] at hal
    exact ⟨hw, hal⟩
  · rw [stats_conserve hd, hconst.1]

end CxlMemSim.Dcd
