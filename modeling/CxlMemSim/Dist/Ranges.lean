/-
Decoding by ranges (`sort_ranges`, `decode_range`): the binary search after sorting against the scan of the ranges in
the order they were added.
-/
import CxlMemSim.Core.Range
import CxlMemSim.Dist.Decoder

namespace CxlMemSim.Dist

open CxlMemSim.Core List

/-- `std::sort` leaves the order of equal bases open; disjoint ranges have no equal bases -/
def HDMDecoder.sortRanges (d : HDMDecoder) : HDMDecoder :=
  { d with ranges := d.ranges.mergeSort (·.baseAddr ≤ ·.baseAddr), rangesSorted := true }

/-- nonempty and disjoint ranges whose ends do not wrap -/
structure Separate (ranges : List HDMRange) : Prop where
  nonempty : ∀ r ∈ ranges, 0 < r.size.toNat
  ends : ∀ r ∈ ranges, r.baseAddr.toNat + r.size.toNat < 2 ^ 64
  apart : ranges.Pairwise fun r q => Apart r.baseAddr.toNat r.size.toNat q.baseAddr.toNat q.size.toNat

variable {d : HDMDecoder} {addr : UInt64} {r q : HDMRange} {i k : ℕ} {lo hi : ℤ}

lemma mem_of_sorted (hk : d.sortRanges.ranges[k]? = some r) : r ∈ d.ranges := mem_mergeSort.mp (mem_of_getElem? hk)

lemma search_misses {ranges : List HDMRange}
    (h : ∀ k : ℕ, k ≤ hi → ∀ r, ranges[k]? = some r → r.contains addr = false) (hlo : 0 ≤ lo) :
    searchRanges ranges addr lo hi = unresolved := by
  fun_induction searchRanges ranges addr lo hi with
  | case1 | case5 => rfl
  | case2 lo hi hle mid r hr hbelow ih => exact ih (fun k hk => h k (by omega)) hlo
  | case3 lo hi hle mid r hr hbelow habove ih => exact ih h (by omega)
  | case4 lo hi hle mid r hr hbelow habove =>
    have hmiss := h mid.toNat (by omega) r hr
    simp [HDMRange.contains, UInt64.not_lt.mp hbelow, UInt64.not_le.mp habove] at hmiss

lemma decodeRange_sortRanges (d : HDMDecoder) (addr : UInt64) : d.sortRanges.decodeRange addr =
    searchRanges d.sortRanges.ranges addr 0 (Int.bmod d.ranges.length (2 ^ 32) - 1) := by
  have hlen : d.sortRanges.ranges.length = d.ranges.length := length_mergeSort _
  unfold HDMDecoder.decodeRange
  split_ifs with hnil hs
  · rw [← hlen, hnil, searchRanges, dif_neg (by decide)]
  · simp [HDMDecoder.sortRanges] at hs
  · rw [hlen]

section

variable (hsep : Separate d.ranges)
include hsep

lemma contains_iff (hr : r ∈ d.ranges) : r.contains addr = true ↔
    r.baseAddr.toNat ≤ addr.toNat ∧ addr.toNat < r.baseAddr.toNat + r.size.toNat := by
  simp only [HDMRange.contains, Bool.and_eq_true, decide_eq_true_eq, ge_iff_le, UInt64.le_iff_toNat_le,
    UInt64.lt_iff_toNat_lt, UInt64.toNat_add, Nat.mod_eq_of_lt (hsep.ends r hr)]

lemma sorted_ends_le : d.sortRanges.ranges.Pairwise fun r q => r.baseAddr.toNat + r.size.toNat ≤ q.baseAddr.toNat := by
  have hle : d.sortRanges.ranges.Pairwise fun r q => decide (r.baseAddr ≤ q.baseAddr) = true :=
    pairwise_mergeSort (by simpa using fun _ _ _ => UInt64.le_trans) (by simpa using fun _ _ => UInt64.le_total _ _) _
  have hapart := ((mergeSort_perm d.ranges (·.baseAddr ≤ ·.baseAddr)).pairwise_iff Apart.symm).mpr hsep.apart
  refine (hle.and hapart).imp_of_mem fun {r q} hr hq ⟨hle, hapart⟩ => ?_
  rw [decide_eq_true_eq, UInt64.le_iff_toNat_le] at hle
  have := hsep.nonempty r (mem_mergeSort.mp hr)
  have := hsep.nonempty q (mem_mergeSort.mp hq)
  unfold Apart at hapart
  omega

/-- The tests of one turn tell on which side of the middle the range with the address stands. -/
lemma turn_iff (hk : d.sortRanges.ranges[k]? = some r) (hra : r.contains addr = true)
    (hq : d.sortRanges.ranges[i]? = some q) : (addr < q.baseAddr ↔ k < i) ∧ (addr ≥ q.baseAddr + q.size ↔ i < k) := by
  obtain ⟨hr1, hr2⟩ := (contains_iff hsep (mem_of_sorted hk)).mp hra
  rw [ge_iff_le, UInt64.lt_iff_toNat_lt, UInt64.le_iff_toNat_le, UInt64.toNat_add,
    Nat.mod_eq_of_lt (hsep.ends q (mem_of_sorted hq))]
  obtain ⟨hklt, rfl⟩ := List.getElem?_eq_some_iff.mp hk
  obtain ⟨hilt, rfl⟩ := List.getElem?_eq_some_iff.mp hq
  rcases Nat.lt_trichotomy k i with hlt | rfl | hlt
  · have := pairwise_iff_getElem.mp (sorted_ends_le hsep) k i hklt hilt hlt
    omega
  · omega
  · have := pairwise_iff_getElem.mp (sorted_ends_le hsep) i k hilt hklt hlt
    omega

lemma search_finds (hk : d.sortRanges.ranges[k]? = some r) (hra : r.contains addr = true) (hlo : lo ≤ k) (hhi : k ≤ hi)
    (hzero : 0 ≤ lo) (hlen : hi < d.sortRanges.ranges.length) :
    searchRanges d.sortRanges.ranges addr lo hi = r.result addr := by
  fun_induction searchRanges d.sortRanges.ranges addr lo hi with
  | case1 lo hi hle mid hnone =>
    have := getElem?_eq_none_iff.mp hnone
    omega
  | case2 lo hi hle mid q hq hbelow ih =>
    have := (turn_iff hsep hk hra hq).1.mp hbelow
    exact ih hlo (by omega) hzero (by omega)
  | case3 lo hi hle mid q hq hbelow habove ih =>
    have := (turn_iff hsep hk hra hq).2.mp habove
    exact ih (by omega) hhi (by omega) hlen
  | case4 lo hi hle mid q hq hbelow habove =>
    rw [(turn_iff hsep hk hra hq).1] at hbelow
    rw [(turn_iff hsep hk hra hq).2] at habove
    obtain rfl : k = mid.toNat := by omega
    rw [Option.some.inj (hk.symm.trans hq)]
  | case5 => omega

omit hsep in
lemma exists_sorted (hr : r ∈ d.ranges) : ∃ k < d.ranges.length, d.sortRanges.ranges[k]? = some r := by
  obtain ⟨k, hk⟩ := mem_iff_getElem?.mp (mem_mergeSort.mpr hr)
  obtain ⟨hlt, -⟩ := List.getElem?_eq_some_iff.mp hk
  exact ⟨k, length_mergeSort d.ranges ▸ hlt, hk⟩

lemma scan_finds (hunsorted : d.rangesSorted = false) (hr : r ∈ d.ranges) (hra : r.contains addr = true) :
    d.decodeRange addr = r.result addr := by
  rw [HDMDecoder.decodeRange, if_neg (ne_nil_of_mem hr), if_pos (by simp [hunsorted])]
  cases hfind : d.ranges.find? (·.contains addr) with
  | none => simp [find?_eq_none.mp hfind r hr] at hra
  | some q =>
    -- two ranges with the address stand at one place of the sorted list
    obtain ⟨k, -, hk⟩ := exists_sorted hr
    obtain ⟨i, -, hi⟩ := exists_sorted (mem_of_find?_eq_some hfind)
    have hqa := find?_some hfind
    obtain ⟨hbelow, habove⟩ := turn_iff hsep hk hra hi
    simp only [HDMRange.contains, Bool.and_eq_true, decide_eq_true_eq, ge_iff_le] at hqa
    obtain rfl : k = i := by
      have := hbelow.not.mp (UInt64.not_lt.mpr hqa.1)
      have := habove.not.mp (UInt64.not_le.mpr hqa.2)
      omega
    rw [Option.some.inj (hk.symm.trans hi)]

lemma sorted_finds (hlen : d.ranges.length < 2 ^ 31) (hr : r ∈ d.ranges) (hra : r.contains addr = true) :
    d.sortRanges.decodeRange addr = r.result addr := by
  obtain ⟨k, hlt, hk⟩ := exists_sorted hr
  have hlength : d.sortRanges.ranges.length = d.ranges.length := length_mergeSort _
  rw [decodeRange_sortRanges, Int.bmod_eq_of_le (by omega) (by omega)]
  exact search_finds hsep hk hra (by omega) (by omega) le_rfl (by omega)

/-- With more ranges than an `int` counts the search stops before the last one. -/
lemma last_lost (hlen : 2 ^ 31 ≤ d.ranges.length) :
    ∃ r ∈ d.ranges, r.contains r.baseAddr = true ∧ d.sortRanges.decodeRange r.baseAddr = unresolved := by
  have hlength : d.sortRanges.ranges.length = d.ranges.length := length_mergeSort _
  obtain ⟨r, hk⟩ : ∃ r, d.sortRanges.ranges[d.ranges.length - 1]? = some r := ⟨_, List.getElem?_eq_getElem (by omega)⟩
  have hr := mem_of_sorted hk
  have hra : r.contains r.baseAddr = true :=
    (contains_iff hsep hr).mpr ⟨le_rfl, Nat.lt_add_of_pos_right (hsep.nonempty r hr)⟩
  refine ⟨r, hr, hra, ?_⟩
  rw [decodeRange_sortRanges]
  have hbmod := Int.bmod_lt (x := d.ranges.length) (m := 2 ^ 32) (by decide)
  refine search_misses (fun i hi q hq => ?_) le_rfl
  have habove := (turn_iff hsep hk hra hq).2.mpr (by omega)
  simp [HDMRange.contains, habove]

end

lemma all_miss (h : ∀ r ∈ d.ranges, r.contains addr = false) :
    d.sortRanges.decodeRange addr = unresolved ∧ (d.rangesSorted = false → d.decodeRange addr = unresolved) := by
  constructor
  · rw [decodeRange_sortRanges]
    exact search_misses (fun k _ r hk => h r (mem_of_sorted hk)) le_rfl
  · intro hunsorted
    rw [HDMDecoder.decodeRange, hunsorted, find?_eq_none.mpr fun r hr => by simp [h r hr]]
    simp

/-- Sorted and unsorted decoding agree as long as an `int` counts the ranges, and not beyond. -/
theorem decode_range_sorted (d : HDMDecoder) (hsep : Separate d.ranges) (hunsorted : d.rangesSorted = false) :
    (d.ranges.length < 2 ^ 31 → ∀ addr, d.sortRanges.decodeRange addr = d.decodeRange addr ∧
      (∀ r ∈ d.ranges, r.contains addr = true → d.decodeRange addr = r.result addr) ∧
      ((∀ r ∈ d.ranges, r.contains addr = false) → d.decodeRange addr = unresolved)) ∧
    (2 ^ 31 ≤ d.ranges.length → ∃ r ∈ d.ranges, ∃ addr, r.contains addr = true ∧
      d.decodeRange addr = r.result addr ∧ d.sortRanges.decodeRange addr = unresolved) := by
  constructor
  · intro hlen addr
    refine ⟨?_, fun r hr => scan_finds hsep hunsorted hr, fun h => (all_miss h).2 hunsorted⟩
    by_cases hex : ∃ r ∈ d.ranges, r.contains addr = true
    · obtain ⟨r, hr, hra⟩ := hex
      rw [sorted_finds hsep hlen hr hra, scan_finds hsep hunsorted hr hra]
    · push Not at hex
      obtain ⟨hsearch, hscan⟩ := all_miss (by simpa using hex)
      rw [hsearch, hscan hunsorted]
  · intro hlen
    obtain ⟨r, hr, hra, hlost⟩ := last_lost hsep hlen
    exact ⟨r, hr, r.baseAddr, hra, scan_finds hsep hunsorted hr hra, hlost⟩

def swapped : HDMDecoder := ⟨.rangeBased, [⟨4096, 4096, 1, true⟩, ⟨0, 4096, 0, false⟩], .unset, false⟩

theorem decode_range_sorted_swapped : swapped.sortRanges.decodeRange 5000 = swapped.decodeRange 5000 :=
  ((decode_range_sorted swapped ⟨by decide, by decide, by decide⟩ rfl).1 (by decide) 5000).1

/-- `n` ranges of one byte -/
def bytewise (n : ℕ) : HDMDecoder := ⟨.rangeBased, (range n).map fun i => ⟨.ofNat i, 1, 0, false⟩, .unset, false⟩

lemma bytewise_separate {n : ℕ} (hn : n ≤ 2 ^ 32) : Separate (bytewise n).ranges := by
  have hbase {i : ℕ} (hi : i ∈ range n) : (UInt64.ofNat i).toNat = i := by
    rw [UInt64.toNat_ofNat', Nat.mod_eq_of_lt (by have := mem_range.mp hi; omega)]
  refine ⟨by simp [bytewise], forall_mem_map.mpr fun i hi => ?_, ?_⟩
  · rw [hbase hi, UInt64.toNat_one]
    have := mem_range.mp hi
    omega
  · refine pairwise_map.mpr (pairwise_lt_range.imp_of_mem fun {i j} hi hj hij => .inl ?_)
    rwa [hbase hi, hbase hj, UInt64.toNat_one]

lemma bytewise_targetId {n : ℕ} (hr : r ∈ (bytewise n).ranges) : r.targetId = 0 := by
  obtain ⟨i, -, rfl⟩ := mem_map.mp hr
  rfl

theorem bytes_lost : ¬ ∀ d : HDMDecoder, Separate d.ranges → d.rangesSorted = false →
    ∀ addr, d.sortRanges.decodeRange addr = d.decodeRange addr := by
  intro hall
  have hsep := bytewise_separate (n := 2 ^ 32) le_rfl
  have hscan : (bytewise (2 ^ 32)).rangesSorted = false := rfl
  obtain ⟨r, hr, hra, hlost⟩ := last_lost hsep (by simp [bytewise])
  have hsame := (hlost.symm.trans (hall _ hsep hscan r.baseAddr)).trans (scan_finds hsep hscan hr hra)
  have htarget : noTarget = r.targetId := congrArg DecodeResult.targetId hsame
  exact absurd (htarget.trans (bytewise_targetId hr)) (by decide)

end CxlMemSim.Dist
