/-
Automatic placement: `add_capacity` with the base UINT64_MAX sweeps over the active extents in the order of their bases
(`find_free_base`). Sums can wrap, but no placement is lost: up to the least fitting base every sum stays below the
capacity, and the checks that follow refuse what a wrapped candidate stands for.
-/
import CxlMemSim.Fabric.Dcd

namespace CxlMemSim.Dcd

open CxlMemSim.Core

/-! ## Rounding up -/

def roundUp (g v : ℕ) : ℕ := (v + g - 1) / g * g

lemma dvd_roundUp (g v : ℕ) : g ∣ roundUp g v := Dvd.intro_left _ rfl

variable {g : ℕ} {d : DynamicCapacityDevice} {c m : ℕ} {es : List DCDExtent} {size : UInt64} {e : DCDExtent} {n b : ℕ}

lemma le_roundUp (hg : 0 < g) (v : ℕ) : v ≤ roundUp g v := by
  have hdiv := Nat.div_add_mod (v + g - 1) g
  have hmod := Nat.mod_lt (v + g - 1) hg
  unfold roundUp
  rw [Nat.mul_comm]
  omega

lemma roundUp_le {v w : ℕ} (hg : 0 < g) (hw : g ∣ w) (hvw : v ≤ w) : roundUp g v ≤ w := by
  obtain ⟨k, rfl⟩ := hw
  have hk : (v + g - 1) / g ≤ k := by
    rw [Nat.div_le_iff_le_mul_add_pred hg]
    omega
  calc roundUp g v = (v + g - 1) / g * g := rfl
    _ ≤ k * g := Nat.mul_le_mul_right g hk
    _ = g * k := Nat.mul_comm k g

lemma roundUp_of_mod {v : ℕ} (hg : 0 < g) (hv : v % g ≠ 0) : roundUp g v = v + (g - v % g) := by
  have hlt := Nat.mod_lt v hg
  have hdiv := Nat.div_add_mod v g
  have hnext : v + (g - v % g) = g * (v / g + 1) := by rw [Nat.mul_add]; omega
  apply Nat.le_antisymm
  · exact roundUp_le hg (by rw [hnext]; exact Nat.dvd_mul_right _ _) (by omega)
  · -- a multiple of `g` above `v` is at least the next one
    obtain ⟨k, hk⟩ := dvd_roundUp g v
    have hle := le_roundUp hg v
    have hne : roundUp g v ≠ v := fun h => hv (by rw [← h, hk]; exact Nat.mul_mod_right _ _)
    have hk' : v / g < k := by
      by_contra hlow
      have hmul : g * k ≤ g * (v / g) := Nat.mul_le_mul_left g (by omega)
      omega
    have hmul : g * (v / g + 1) ≤ g * k := Nat.mul_le_mul_left g hk'
    omega

lemma alignUp_toNat (d : DynamicCapacityDevice) (v : UInt64) : (alignUp d v).toNat =
      if roundUp d.granularityBytes.toNat v.toNat < 2 ^ 64 then roundUp d.granularityBytes.toNat v.toNat else 0 := by
  have hg := d.granularity_pos
  have hgb := d.granularityBytes.toNat_lt
  have hvb := v.toNat_lt
  unfold alignUp
  split_ifs with h0 hround hround
  · subst h0
    have hle := roundUp_le hg (Nat.dvd_zero _) (le_refl 0)
    rw [UInt64.toNat_zero]
    omega
  · subst h0
    rfl
  all_goals
    dsimp only
    split_ifs with hr hv
  all_goals
    simp only [eq_zero_iff_toNat, UInt64.toNat_mod] at hr
  · exact Nat.le_antisymm (le_roundUp hg _) (roundUp_le hg (Nat.dvd_of_mod_eq_zero hr) (le_refl _))
  · rw [gt_iff_lt, UInt64.lt_iff_toNat_lt, UInt64.toNat_sub, UInt64.toNat_sub, UInt64.toNat_mod, u64Max_toNat] at hv
    have hlt := Nat.mod_lt v.toNat hg
    rw [roundUp_of_mod hg hr] at hround
    omega
  · have hlt := Nat.mod_lt v.toNat hg
    rw [roundUp_of_mod hg hr] at hround ⊢
    rw [UInt64.toNat_sub, UInt64.toNat_add, UInt64.toNat_mod]
    omega
  · have hle := roundUp_le hg (Nat.dvd_of_mod_eq_zero hr) (le_refl _)
    omega
  · rfl
  · rw [gt_iff_lt, UInt64.lt_iff_toNat_lt, UInt64.toNat_sub, UInt64.toNat_sub, UInt64.toNat_mod, u64Max_toNat] at hv
    have hlt := Nat.mod_lt v.toNat hg
    rw [roundUp_of_mod hg hr] at hround
    omega

def alignedSize (d : DynamicCapacityDevice) (size : UInt64) : ℕ :=
  if size = d.totalCapacityBytes then size.toNat else roundUp d.granularityBytes.toNat size.toNat

/-- [b, b + n) is an aligned range inside the device that meets no active extent -/
def Fits (d : DynamicCapacityDevice) (n b : ℕ) : Prop :=
  d.granularityBytes.toNat ∣ b ∧ b + n ≤ d.totalCapacityBytes.toNat ∧ ∀ e ∈ live d, Apart b n e.base.toNat e.size.toNat

lemma requestSize_toNat (d : DynamicCapacityDevice) (size : UInt64) :
    (requestSize d size).toNat = if alignedSize d size < 2 ^ 64 then alignedSize d size else 0 := by
  unfold requestSize alignedSize
  split_ifs with hcap hlt
  · rfl
  · exact absurd size.toNat_lt hlt
  all_goals
    rw [alignUp_toNat]
    split_ifs
    rfl

lemma alignedSize_pos (hsize : size ≠ 0) : 0 < alignedSize d size := by
  have hpos : 0 < size.toNat := by
    rw [Nat.pos_iff_ne_zero, ne_eq, ← eq_zero_iff_toNat]
    exact hsize
  unfold alignedSize
  split_ifs
  · exact hpos
  · exact lt_of_lt_of_le hpos (le_roundUp d.granularity_pos _)

lemma fits_of_placed (h : Inv d) {rb tag b m : UInt64} (hp : placeCapacity d rb size tag = .ok (b, m)) :
    m.toNat = alignedSize d size ∧ Fits d (alignedSize d size) b.toNat := by
  obtain ⟨rfl, hpos, hle, hmod, hno⟩ := placeCapacity_ok hp
  have hsize : (requestSize d size).toNat = alignedSize d size := by
    have hreq := requestSize_toNat d size
    split_ifs at hreq
    · exact hreq
    · omega
  refine ⟨hsize, Nat.dvd_of_mod_eq_zero hmod, by omega, fun e he => ?_⟩
  obtain ⟨he, ha⟩ := List.mem_filter.1 he
  rw [← hsize]
  refine apart_of_not_overlap ?_ hpos (h.within e he ha).1
  have hnone := List.any_eq_false.1 hno e he
  simpa [ha] using hnone

/-! ## The sweep -/

structure Ahead (d : DynamicCapacityDevice) (c : ℕ) (es : List DCDExtent) : Prop where
  sorted : es.Pairwise fun e f => e.base.toNat + e.size.toNat ≤ f.base.toNat
  within : ∀ e ∈ es, 0 < e.size.toNat ∧ e.base.toNat + e.size.toNat ≤ d.totalCapacityBytes.toNat
  aligned : ∀ e ∈ es, d.granularityBytes.toNat ∣ e.base.toNat
  above : ∀ e ∈ es, c ≤ e.base.toNat

structure Least (d : DynamicCapacityDevice) (n c : ℕ) (es : List DCDExtent) (m : ℕ) : Prop where
  dvd : d.granularityBytes.toNat ∣ m
  ge : c ≤ m
  within : m + n ≤ d.totalCapacityBytes.toNat
  free : ∀ e ∈ es, Apart m n e.base.toNat e.size.toNat
  least : ∀ b, d.granularityBytes.toNat ∣ b → c ≤ b → b < m → ∃ e ∈ es, ¬ Apart b n e.base.toNat e.size.toNat

lemma Least.eq_candidate (h : Least d n c es m)
    (hc : d.granularityBytes.toNat ∣ c) (hfree : ∀ e ∈ es, Apart c n e.base.toNat e.size.toNat) : m = c := by
  by_contra hne
  obtain ⟨e, he, hmeet⟩ := h.least c hc (le_refl c) (lt_of_le_of_ne h.ge (Ne.symm hne))
  exact hmeet (hfree e he)

lemma Least.pass (h : Least d n c (e :: es) m) (habove : c ≤ e.base.toNat) (hmeet : e.base.toNat < c + n) :
    Least d n (roundUp d.granularityBytes.toNat (e.base.toNat + e.size.toNat)) es m := by
  have hg := d.granularity_pos
  have hend : e.base.toNat + e.size.toNat ≤ m := by
    rcases h.free e List.mem_cons_self with hbefore | hbehind
    · have hge := h.ge
      omega
    · exact hbehind
  refine ⟨h.dvd, roundUp_le hg h.dvd hend, h.within, fun f hf => h.free f (List.mem_cons_of_mem e hf), ?_⟩
  intro b hb hge hlt
  have hpast : e.base.toNat + e.size.toNat ≤ b := le_trans (le_roundUp hg _) hge
  obtain ⟨f, hf, hmeets⟩ := h.least b hb (by omega) hlt
  rcases List.mem_cons.1 hf with rfl | hf
  · exact absurd (Or.inr hpast) hmeets
  · exact ⟨f, hf, hmeets⟩

lemma Ahead.pass
    (h : Ahead d c (e :: es)) : Ahead d (roundUp d.granularityBytes.toNat (e.base.toNat + e.size.toNat)) es := by
  obtain ⟨hfirst, hrest⟩ := List.pairwise_cons.1 h.sorted
  refine ⟨hrest, fun f hf => h.within f (List.mem_cons_of_mem e hf),
    fun f hf => h.aligned f (List.mem_cons_of_mem e hf), fun f hf => ?_⟩
  exact roundUp_le d.granularity_pos (h.aligned f (List.mem_cons_of_mem e hf)) (hfirst f hf)

/-- The sweep finds the least base. The induction is on the extents ahead; no sum on the way passes the capacity. -/
lemma findFreeFrom_least {n c : UInt64} (hn : 0 < n.toNat) (hc : d.granularityBytes.toNat ∣ c.toNat)
    (ha : Ahead d c.toNat es)
    (hm : Least d n.toNat c.toNat es m) : ∃ b, findFreeFrom d n c es = some b ∧ b.toNat = m := by
  have hcap := d.totalCapacityBytes.toNat_lt
  have hge := hm.ge
  have hin := hm.within
  induction es generalizing c with
  | nil =>
    have hmc : m = c.toNat := hm.eq_candidate hc (by simp)
    refine ⟨c, ?_, hmc.symm⟩
    unfold findFreeFrom
    rw [if_pos (rangeWithinDevice_iff.2 ⟨hn, by omega⟩)]
  | cons e es ih =>
    have hsum : (c + n).toNat = c.toNat + n.toNat := by
      rw [UInt64.toNat_add]
      exact Nat.mod_eq_of_lt (by omega)
    have habove := ha.above e List.mem_cons_self
    obtain ⟨hpos, hwithin⟩ := ha.within e List.mem_cons_self
    unfold findFreeFrom
    by_cases hfit : c + n ≤ e.base
    · rw [if_pos hfit]
      rw [UInt64.le_iff_toNat_le, hsum] at hfit
      -- the range ends before the first extent ahead, hence before all of them
      have hfree : ∀ f ∈ e :: es, Apart c.toNat n.toNat f.base.toNat f.size.toNat := by
        intro f hf
        rcases List.mem_cons.1 hf with rfl | hf
        · exact Or.inl hfit
        · have hfirst := (List.pairwise_cons.1 ha.sorted).1 f hf
          exact Or.inl (by omega)
      exact ⟨c, rfl, (hm.eq_candidate hc hfree).symm⟩
    · rw [if_neg hfit]
      rw [UInt64.le_iff_toNat_le, hsum] at hfit
      have hroom : ¬ e.base > u64Max - e.size := by
        rw [gt_iff_lt, UInt64.lt_iff_toNat_lt, toNat_sub_le (UInt64.le_iff_toNat_le.2 (by rw [u64Max_toNat]; omega)),
          u64Max_toNat]
        omega
      rw [if_neg hroom]
      have hend : (e.base + e.size).toNat = e.base.toNat + e.size.toNat := by
        rw [UInt64.toNat_add]
        exact Nat.mod_eq_of_lt (by omega)
      have hm' := hm.pass habove (by omega)
      have hle := hm'.ge
      have hnext : (alignUp d (e.base + e.size)).toNat
          = roundUp d.granularityBytes.toNat (e.base.toNat + e.size.toNat) := by
        rw [alignUp_toNat, hend, if_pos (by omega)]
      exact ih (by rw [hnext]; exact dvd_roundUp _ _) (by rw [hnext]; exact ha.pass) (by rw [hnext]; exact hm')
        (by rw [hnext]; exact hle)

/-! ## Results -/

instance total_base : Std.Total fun l r : DCDExtent => l.base ≤ r.base := ⟨fun l r => UInt64.le_total l.base r.base⟩

instance trans_base : IsTrans DCDExtent fun l r => l.base ≤ r.base := ⟨fun _ _ _ h h' => UInt64.le_trans h h'⟩

lemma ahead_activeExtents (h : Inv d) : Ahead d 0 (activeExtents d) := by
  have hperm : (activeExtents d).Perm (live d) := List.perm_insertionSort _ _
  have hmem : ∀ e ∈ activeExtents d, e ∈ d.extents ∧ e.active = true := fun e he =>
    List.mem_filter.1 (hperm.mem_iff.1 he)
  have hsorted : (activeExtents d).Pairwise fun e f => e.base ≤ f.base := List.pairwise_insertionSort _ _
  have hapart : (activeExtents d).Pairwise ApartExtents := (hperm.pairwise_iff fun {_ _} h => Apart.symm h).2 h.apart
  refine ⟨?_, fun e he => h.within e (hmem e he).1 (hmem e he).2,
    fun e he => Nat.dvd_of_mod_eq_zero (h.aligned e (hmem e he).1 (hmem e he).2).1, fun e _ => Nat.zero_le _⟩
  refine (hsorted.and hapart).imp_of_mem fun {e f} he hf hef => ?_
  obtain ⟨hle, hap⟩ := hef
  have hpos := (h.within f (hmem f hf).1 (hmem f hf).2).1
  rw [UInt64.le_iff_toNat_le] at hle
  rcases hap with hap | hap
  · exact hap
  · omega

lemma findFreeBase_least (h : Inv d) {n : UInt64} (hn : 0 < n.toNat) (hb : Fits d n.toNat b) :
    ∃ m, findFreeBase d n = some m ∧ Fits d n.toNat m.toNat ∧ ∀ b', Fits d n.toNat b' → m.toNat ≤ b' := by
  classical
  have hex : ∃ b, Fits d n.toNat b := ⟨b, hb⟩
  obtain ⟨hdvd, hwithin, hfree⟩ := Nat.find_spec hex
  have hmem : ∀ e, e ∈ activeExtents d ↔ e ∈ live d := fun e => (List.perm_insertionSort _ _).mem_iff
  have hleast : Least d n.toNat 0 (activeExtents d) (Nat.find hex) := by
    refine ⟨hdvd, Nat.zero_le _, hwithin, fun e he => hfree e ((hmem e).1 he), fun b' hb' _ hlt => ?_⟩
    by_contra hno
    push Not at hno
    exact Nat.find_min hex hlt ⟨hb', by omega, fun e he => hno e ((hmem e).2 he)⟩
  obtain ⟨m, hm, hval⟩ := findFreeFrom_least hn (c := 0) (by simp) (ahead_activeExtents h) hleast
  refine ⟨m, hm, ?_, fun b' hb' => ?_⟩
  · rw [hval]
    exact ⟨hdvd, hwithin, hfree⟩
  · rw [hval]
    exact Nat.find_min' hex hb'

lemma placed_of_fits (h : Inv d) (tag : UInt64) (hsize : size ≠ 0) (hb : Fits d (alignedSize d size) b) :
    ∃ m, placeCapacity d u64Max size tag = .ok (m, requestSize d size) ∧
      ∀ b', Fits d (alignedSize d size) b' → m.toNat ≤ b' := by
  have hcap := d.totalCapacityBytes.toNat_lt
  have hpos := alignedSize_pos (d := d) hsize
  have hreq : (requestSize d size).toNat = alignedSize d size := by
    have hle := hb.2.1
    rw [requestSize_toNat, if_pos (by omega)]
  rw [← hreq] at hb hpos ⊢
  obtain ⟨m, hfree, hm, hleast⟩ := findFreeBase_least h hpos hb
  obtain ⟨hdvd, hwithin, hapart⟩ := hm
  refine ⟨m, ?_, hleast⟩
  have hok : ¬ (requestSize d size = 0 ∨ requestSize d size > d.totalCapacityBytes) := by
    rw [eq_zero_iff_toNat, gt_iff_lt, UInt64.lt_iff_toNat_lt]
    omega
  have hin : rangeWithinDevice d m (requestSize d size) = true := rangeWithinDevice_iff.2 ⟨hpos, hwithin⟩
  have hno : rangeOverlapsActive d m (requestSize d size) = false := by
    refine List.any_eq_false.2 fun e he => ?_
    by_cases ha : e.active = true
    · have hap := hapart e (List.mem_filter.2 ⟨he, ha⟩)
      simpa [ha] using not_overlap_of_apart hap
    · simp [ha]
  unfold placeCapacity requestBase
  simp only [hok, if_false, if_true, hfree, hin, hno, Bool.not_true, Bool.false_eq_true]

/-- Automatic placement is complete first fit. A nonzero size is granted exactly when an aligned range is free, and
gets the least such base. -/
theorem automatic_placement (cap gran : UInt64) (ops : List Op) (size tag ts : UInt64) (hsize : size ≠ 0) :
    let d := Core.run step (DynamicCapacityDevice.new cap gran) ops
    ((addCapacity d u64Max size tag ts).1.status = .ok ↔ ∃ b, Fits d (alignedSize d size) b) ∧
    ((addCapacity d u64Max size tag ts).1.status = .ok →
      (addCapacity d u64Max size tag ts).1.size.toNat = alignedSize d size ∧
      Fits d (alignedSize d size) (addCapacity d u64Max size tag ts).1.base.toNat ∧
      ∀ b, Fits d (alignedSize d size) b → (addCapacity d u64Max size tag ts).1.base.toNat ≤ b) := by
  intro d
  have hd : Inv d := run_inv (inv_new cap gran) ops
  -- `add_capacity` counts the request before it looks for a place; neither the invariant nor `Fits` reads the counter
  let d' : DynamicCapacityDevice := { d with allocationRequests := d.allocationRequests + 1 }
  have hd' : Inv d' := ⟨hd.within, hd.aligned, hd.apart⟩
  have hgranted : ∀ b m, placeCapacity d' u64Max size tag = .ok (b, m) →
      (addCapacity d u64Max size tag ts).1 = ⟨.ok, b, m, if tag = 0 then d'.nextTag else tag⟩ := by
    intro b m hplace
    unfold addCapacity
    dsimp only
    rw [show placeCapacity { d with allocationRequests := d.allocationRequests + 1 } u64Max size tag = _ from hplace]
  have hdenied : ∀ r, placeCapacity d' u64Max size tag = .error r → (addCapacity d u64Max size tag ts).1 = r := by
    intro r hplace
    unfold addCapacity
    dsimp only
    rw [show placeCapacity { d with allocationRequests := d.allocationRequests + 1 } u64Max size tag = _ from hplace]
  by_cases hfit : ∃ b, Fits d (alignedSize d size) b
  · obtain ⟨b, hb⟩ := hfit
    obtain ⟨m, hplaced, hleast⟩ := placed_of_fits hd' tag hsize (show Fits d' (alignedSize d' size) b from hb)
    obtain ⟨hval, hm⟩ := fits_of_placed hd' hplaced
    rw [hgranted _ _ hplaced]
    exact ⟨⟨fun _ => ⟨b, hb⟩, fun _ => rfl⟩, fun _ => ⟨hval, hm, hleast⟩⟩
  · have hrefused : (addCapacity d u64Max size tag ts).1.status ≠ .ok := by
      cases hplace : placeCapacity d' u64Max size tag with
      | error r =>
        rw [hdenied r hplace]
        exact placeCapacity_error hplace
      | ok p =>
        obtain ⟨b, m⟩ := p
        exact absurd ⟨b.toNat, (fits_of_placed hd' hplace).2⟩ hfit
    exact ⟨⟨fun hok => absurd hok hrefused, fun h => absurd h hfit⟩, fun hok => absurd hok hrefused⟩

theorem automatic_placement_gap :
    let d := Core.run step (DynamicCapacityDevice.new 40 4) [.add 4 4 7 0]
    (addCapacity d u64Max 5 0 1).1 = ⟨.ok, 8, 8, 1⟩ ∧
    ((addCapacity d u64Max 5 0 1).1.status = .ok → ∀ b, Fits d (alignedSize d 5) b → 8 ≤ b) :=
  ⟨by decide, fun hok => ((automatic_placement 40 4 [.add 4 4 7 0] 5 0 1 (by decide)).2 hok).2.2⟩

end CxlMemSim.Dcd
