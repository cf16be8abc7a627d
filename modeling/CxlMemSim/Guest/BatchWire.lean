/-
The wire format of a batched host-to-device copy: what `cuMemcpyBatchAsync` writes into the batch window decodes to the
ranges it was given, and a refused list submits nothing.

Results: `batchPlan_refused` and `batchPlan_accepted` (the planning loop), `decode_image`, `extents_disjoint` and
`extents_inside` (the written window), `batch_copy_lossless` (every list of ranges). No premise: a list is refused for
its table, refused at its first range at fault, or written.
-/
import CxlMemSim.Guest.Contained

namespace CxlMemSim.Guest.BatchWire

open CxlMemSim.Core List

/-- the window after the calls of `cxl_gpu_transport_batch_write`, in order -/
def window (mem : Buf) (writes : List (ℕ × List UInt8)) : Buf :=
  writes.foldl (fun m w => memcpy m w.1 (fun i => w.2.getD i 0) 0 w.2.length) mem

/-- `failIdx` as the planning loop leaves it; `none` is `SIZE_MAX` -/
def failIdx : ℕ → ℕ → List BatchRange → Option ℕ
  | _, _, [] => none
  | index, off, r :: rs =>
    if r.bad then some index
    else if r.size.toNat > batchDataSize - off then some index
    else failIdx (index + 1) (off + r.size.toNat) rs

/-! ## Decoding -/

/-- `header_size`, `range_count`, `range_size` and `payload_bytes` -/
def header (w : Buf) : ℕ × ℕ × ℕ × ℕ := (loadLE w 0 4, loadLE w 4 4, loadLE w 8 4, loadLE w 16 8)

/-- `source_offset`, `destination` and `size` -/
def entry (w : Buf) (i : ℕ) : ℕ × ℕ × ℕ :=
  let e := batchHeaderSize + i * batchRangeSize
  (loadLE w e 8, loadLE w (e + 8) 8, loadLE w (e + 16) 8)

def decode (w : Buf) : List (ℕ × ℕ × List UInt8) :=
  (List.range (header w).2.1).map fun i => ((entry w i).2.1, (entry w i).2.2, bytesAt w (entry w i).1 (entry w i).2.2)

/-- the header, the table and the payloads, each with its end -/
def extents (w : Buf) : List (ℕ × ℕ) :=
  let (headerSize, count, rangeSize, _) := header w
  (0, headerSize) :: (headerSize, headerSize + count * rangeSize) ::
    (List.range count).map fun i => ((entry w i).1, (entry w i).1 + (entry w i).2.2)

/-! ## The plan -/

def payloadAt (off : ℕ) (ranges : List BatchRange) (i : ℕ) : ℕ := off + ((ranges.take i).map (·.size.toNat)).sum

/-- null, empty or wrapping -/
def Malformed (r : BatchRange) : Prop :=
  r.src = 0 ∨ r.dst = 0 ∨ r.size = 0 ∨ 2 ^ 64 ≤ r.src.toNat + r.size.toNat ∨ 2 ^ 64 ≤ r.dst.toNat + r.size.toNat

def AtFault (off : ℕ) (ranges : List BatchRange) (i : ℕ) : Prop :=
  ∃ r, ranges[i]? = some r ∧ (Malformed r ∨ batchDataSize < payloadAt off ranges i + r.size.toNat)

lemma bad_iff (r : BatchRange) : r.bad = true ↔ Malformed r := by
  have hmax (x : UInt64) : (uint64Max - x).toNat = 2 ^ 64 - 1 - x.toNat := by
    have hle : x ≤ uint64Max := UInt64.le_iff_toNat_le.mpr (by have := x.toNat_lt; simp [uint64Max]; omega)
    rw [UInt64.toNat_sub_of_le _ _ hle]; rfl
  have hwrap (x : UInt64) : r.size > uint64Max - x ↔ 2 ^ 64 ≤ x.toNat + r.size.toNat := by
    have := x.toNat_lt
    rw [gt_iff_lt, UInt64.lt_iff_toNat_lt, hmax]
    omega
  simp only [BatchRange.bad, Malformed, decide_eq_true_eq, hwrap]

section Plan

variable {off : ℕ} {r : BatchRange} {rs ranges : List BatchRange}

lemma payloadAt_zero : payloadAt off ranges 0 = off := by simp [payloadAt]

lemma payloadAt_cons (i : ℕ) : payloadAt off (r :: rs) (i + 1) = payloadAt (off + r.size.toNat) rs i := by
  simp [payloadAt, Nat.add_assoc]

lemma atFault_zero : AtFault off (r :: rs) 0 ↔ Malformed r ∨ batchDataSize < off + r.size.toNat := by
  simp [AtFault, payloadAt_zero]

lemma atFault_succ (i : ℕ) : AtFault off (r :: rs) (i + 1) ↔ AtFault (off + r.size.toNat) rs i := by
  simp [AtFault, payloadAt_cons]

lemma batchPlan_refused {i : ℕ} (index : ℕ) (hoff : off ≤ batchDataSize) (hi : AtFault off ranges i)
    (hfirst : ∀ j < i, ¬ AtFault off ranges j) :
    failIdx index off ranges = some (index + i) ∧ ∃ e, e ≠ success ∧ batchPlan off ranges = .error e := by
  induction ranges generalizing off i index with
  | nil => simp [AtFault] at hi
  | cons r rs ih =>
    simp only [failIdx, batchPlan]
    cases i with
    | zero =>
      rw [atFault_zero, ← bad_iff] at hi
      by_cases hbad : r.bad
      · simp [hbad, errorInvalidValue, success]
      · have hroom : r.size.toNat > batchDataSize - off := by
          have := hi.resolve_left hbad
          omega
        simp [hbad, hroom, errorNotSupported, success]
    | succ i =>
      have h0 := hfirst 0 (by omega)
      rw [atFault_zero, ← bad_iff, not_or] at h0
      rw [if_neg h0.1, if_neg h0.1, if_neg (by omega), if_neg (by omega)]
      obtain ⟨hidx, e, he, hplan⟩ := ih (index + 1) (by omega) ((atFault_succ i).mp hi) fun j hj h =>
        hfirst (j + 1) (by omega) ((atFault_succ j).mpr h)
      exact ⟨by rw [hidx]; congr 1; omega, e, he, by rw [hplan]; rfl⟩

lemma batchPlan_accepted (index : ℕ) (hoff : off ≤ batchDataSize) (h : ∀ i, ¬ AtFault off ranges i) :
    failIdx index off ranges = none ∧ batchPlan off ranges =
      .ok ((List.range ranges.length).map (payloadAt off ranges), payloadAt off ranges ranges.length) := by
  induction ranges generalizing off index with
  | nil => simp [failIdx, batchPlan, payloadAt]
  | cons r rs ih =>
    have h0 := h 0
    rw [atFault_zero, ← bad_iff, not_or] at h0
    obtain ⟨hidx, hplan⟩ := ih (index + 1) (by omega) fun i hi => h (i + 1) ((atFault_succ i).mpr hi)
    simp only [failIdx, batchPlan]
    rw [if_neg h0.1, if_neg h0.1, if_neg (by omega), if_neg (by omega), hplan]
    refine ⟨hidx, ?_⟩
    simp [Except.map, range_succ_eq_map, payloadAt_zero, payloadAt_cons, Function.comp_def]

lemma payloadAt_add_le {i j : ℕ} (hi : i < ranges.length) (hij : i < j) :
    payloadAt off ranges i + ranges[i].size.toNat ≤ payloadAt off ranges j := by
  induction ranges generalizing off i j with
  | nil => simp at hi
  | cons r rs ih =>
    obtain ⟨j, rfl⟩ : ∃ k, j = k + 1 := ⟨j - 1, by omega⟩
    rw [payloadAt_cons]
    cases i with
    | zero => simp [payloadAt]
    | succ i =>
      rw [payloadAt_cons]
      exact ih (by simpa using hi) (by omega)

end Plan

/-! ## The image -/

def Holds (w : Buf) (o : ℕ) (bytes : List UInt8) : Prop := ∀ j < bytes.length, w (o + j) = bytes.getD j 0

lemma holds_append {w : Buf} {o : ℕ} {x y : List UInt8} (h : Holds w o (x ++ y)) :
    Holds w o x ∧ Holds w (o + x.length) y := by
  constructor
  · intro j hj
    rw [h j (by rw [length_append]; omega), getD_append _ _ _ _ hj]
  · intro j hj
    rw [Nat.add_assoc, h _ (by rw [length_append]; omega), getD_append_right _ _ _ _ (by omega), Nat.add_sub_cancel_left]

lemma Holds.loadLE {w : Buf} {o n v : ℕ} (h : Holds w o (littleEndian n v)) (hv : v < 256 ^ n) :
    loadLE w o n = v := by
  have hbytes : ∀ i < n, w (o + i) = byteLE v i := fun i hi => by
    rw [h i (by simpa using hi)]
    simp [littleEndian, getD_eq_getElem?_getD, hi]
  rw [loadLE_of_byteLE hbytes, Nat.mod_eq_of_lt hv]

lemma Holds.bytesAt {w m : Buf} {o n : ℕ} (h : Holds w o (bytesAt m 0 n)) : bytesAt w o n = bytesAt m 0 n := by
  refine map_congr_left fun j hj => ?_
  rw [h j (by simpa using hj)]
  simp [Guest.bytesAt, getD_eq_getElem?_getD, List.mem_range.mp hj]

lemma window_of_mem {mem : Buf} {ws : List (ℕ × List UInt8)} {d : ℕ × List UInt8} {j : ℕ} (hd : d ∈ ws)
    (hj : j < d.2.length)
    (huniq : ∀ e ∈ ws, e.1 ≤ d.1 + j → d.1 + j < e.1 + e.2.length → e = d) : window mem ws (d.1 + j) = d.2.getD j 0 := by
  induction ws using List.reverseRecOn with
  | nil => cases hd
  | append_singleton ws e ih =>
    rw [window, foldl_append, foldl_cons, foldl_nil]
    by_cases hin : e.1 ≤ d.1 + j ∧ d.1 + j < e.1 + e.2.length
    · obtain rfl := huniq e (by simp) hin.1 hin.2
      rw [memcpy_of_mem hin, Nat.zero_add, Nat.add_sub_cancel_left]
    · rw [memcpy_of_not_mem hin]
      refine ih ?_ fun e' he' => huniq e' (by simp [he'])
      rcases mem_append.mp hd with h | h
      · exact h
      · obtain rfl := List.mem_singleton.mp h
        exact absurd ⟨by omega, by omega⟩ hin

section Image

variable (ranges : List BatchRange)

def TableFits : Prop :=
  batchHeaderSize + ranges.length * batchRangeSize ≤ batchDataSize ∧ batchPayloadStart ranges.length ≤ batchDataSize

abbrev payload (i : ℕ) : ℕ := payloadAt (batchPayloadStart ranges.length) ranges i

/-- what the batch path writes for a list it accepts -/
def image : List (ℕ × List UInt8) :=
  batchImage ranges ((List.range ranges.length).map (payload ranges)) (payload ranges ranges.length)

variable {ranges}

lemma mem_image {d : ℕ × List UInt8} : d ∈ image ranges ↔
    d = (0, batchHeader ranges.length (payload ranges ranges.length)) ∨
      ∃ i, ∃ h : i < ranges.length, d ∈ batchRangeWrites i (payload ranges i) ranges[i] := by
  simp [image, batchImage]

lemma table_le_payload (i : ℕ) : batchHeaderSize + ranges.length * batchRangeSize ≤ payload ranges i := by
  unfold payload payloadAt batchPayloadStart
  omega

lemma payload_inj {i j o : ℕ} (hi : i < ranges.length) (hj : j < ranges.length)
    (hio : payload ranges i ≤ o ∧ o < payload ranges i + ranges[i].size.toNat)
    (hjo : payload ranges j ≤ o ∧ o < payload ranges j + ranges[j].size.toNat) : i = j := by
  rcases lt_trichotomy i j with h | h | h
  · have := hio.2.trans_le (payloadAt_add_le hi h)
    exact absurd hjo.1 (Nat.not_le.mpr this)
  · exact h
  · have := hjo.2.trans_le (payloadAt_add_le hj h)
    exact absurd hio.1 (Nat.not_le.mpr this)

lemma image_disjoint {d e : ℕ × List UInt8} {o : ℕ} (hd : d ∈ image ranges) (he : e ∈ image ranges)
    (hdo : d.1 ≤ o ∧ o < d.1 + d.2.length) (heo : e.1 ≤ o ∧ o < e.1 + e.2.length) : e = d := by
  have htable := @table_le_payload ranges
  rw [mem_image] at hd he
  simp only [batchRangeWrites, mem_cons, not_mem_nil, or_false] at hd he
  simp only [batchRangeSize, batchHeaderSize] at htable hd he
  rcases hd with rfl | ⟨i, hi, rfl | rfl⟩ <;> rcases he with rfl | ⟨j, hj, rfl | rfl⟩ <;>
    simp only [length_batchHeader, length_append, length_littleEndian, length_bytesAt, batchHeaderSize] at hdo heo
  -- two writes of one kind have one index; two of different kinds lie on different sides of the table's ends
  case inl.inl => rfl
  case inr.inl.inr.inl =>
    obtain rfl : i = j := by omega
    rfl
  case inr.inr.inr.inr =>
    obtain rfl := payload_inj hi hj hdo heo
    rfl
  case inl.inr.inr | inr.inl.inr.inr =>
    have := htable j
    omega
  case inr.inr.inl | inr.inr.inr.inl =>
    have := htable i
    omega
  all_goals omega

lemma holds_image (mem : Buf) {d : ℕ × List UInt8} (hd : d ∈ image ranges) :
    Holds (window mem (image ranges)) d.1 d.2 := fun _ hj =>
  window_of_mem hd hj fun _ he hlo hhi => image_disjoint hd he ⟨by omega, by omega⟩ ⟨hlo, hhi⟩

lemma payload_succ {i : ℕ} (hi : i < ranges.length) :
    payload ranges i + ranges[i].size.toNat = payload ranges (i + 1) := by
  rw [payload, payload, payloadAt, payloadAt, take_succ_eq_append_getElem hi, map_append, sum_append]
  simp only [map_cons, map_nil, sum_singleton, Nat.add_assoc]

section Fits

variable (hfault : ∀ i, ¬ AtFault (batchPayloadStart ranges.length) ranges i) (htable : TableFits ranges)
include hfault

lemma payload_end_le {i : ℕ} (hi : i < ranges.length) :
    payload ranges i + ranges[i].size.toNat ≤ batchDataSize := by
  by_contra h
  exact hfault i ⟨ranges[i], getElem?_eq_getElem hi, .inr (Nat.lt_of_not_le h)⟩

include htable

lemma payload_le {i : ℕ} (hi : i ≤ ranges.length) : payload ranges i ≤ batchDataSize := by
  cases i with
  | zero => simpa [payload, payloadAt] using htable.2
  | succ i => exact (payload_succ hi).symm.trans_le (payload_end_le hfault hi)

lemma header_image (mem : Buf) : header (window mem (image ranges)) =
    (batchHeaderSize, ranges.length, batchRangeSize, payload ranges ranges.length) := by
  have hcount := htable.1
  have hstop := payload_le hfault htable le_rfl
  simp only [batchDataSize, batchHeaderSize, batchRangeSize] at hcount hstop
  have h := holds_image mem (mem_image.mpr (.inl rfl) : (0, batchHeader _ _) ∈ image ranges)
  obtain ⟨h, -⟩ := holds_append h
  obtain ⟨h, h16⟩ := holds_append h
  obtain ⟨h, -⟩ := holds_append h
  obtain ⟨h, h8⟩ := holds_append h
  obtain ⟨h0, h4⟩ := holds_append h
  simp only [length_append, length_littleEndian, Nat.zero_add, Nat.reduceAdd] at h4 h8 h16
  rw [header, h0.loadLE (by decide), h4.loadLE (by omega), h8.loadLE (by decide), h16.loadLE (by omega)]

lemma entry_image (mem : Buf) {i : ℕ} (hi : i < ranges.length) : entry (window mem (image ranges)) i =
    (payload ranges i, ranges[i].dst.toNat, ranges[i].size.toNat) := by
  have hle := payload_le hfault htable hi.le
  simp only [batchDataSize] at hle
  have h := holds_image mem (mem_image.mpr (.inr ⟨i, hi, mem_cons_self⟩))
  obtain ⟨h, h16⟩ := holds_append h
  obtain ⟨h0, h8⟩ := holds_append h
  simp only [length_append, length_littleEndian, Nat.reduceAdd] at h8 h16
  rw [entry, h0.loadLE (by omega), h8.loadLE ranges[i].dst.toNat_lt, h16.loadLE ranges[i].size.toNat_lt]

lemma decode_image (mem : Buf) : decode (window mem (image ranges)) =
    ranges.map fun r => (r.dst.toNat, r.size.toNat, bytesAt r.memory 0 r.size.toNat) := by
  rw [decode, header_image hfault htable]
  refine ext_getElem (by simp) fun i h _ => ?_
  have hi : i < ranges.length := by simpa using h
  have hcopy := holds_image mem (mem_image.mpr (.inr ⟨i, hi, mem_cons_of_mem _ mem_cons_self⟩))
  simp [entry_image hfault htable mem hi, hcopy.bytesAt]

lemma extents_image (mem : Buf) : extents (window mem (image ranges)) =
    (0, batchHeaderSize) :: (batchHeaderSize, batchHeaderSize + ranges.length * batchRangeSize) ::
      (List.range ranges.length).map fun i => (payload ranges i, payload ranges (i + 1)) := by
  rw [extents, header_image hfault htable]
  refine congrArg (_ :: _ :: ·) (map_congr_left fun i hi => ?_)
  rw [entry_image hfault htable mem (List.mem_range.mp hi), ← payload_succ (List.mem_range.mp hi)]

lemma extents_disjoint (mem : Buf) : (extents (window mem (image ranges))).Pairwise fun a b => a.2 ≤ b.1 := by
  rw [extents_image hfault htable]
  have hpay := @table_le_payload ranges
  refine .cons ?_ (.cons ?_ (pairwise_map.mpr (pairwise_lt_range.imp_of_mem ?_)))
  · simp only [mem_cons, mem_map, forall_eq_or_imp, le_refl, true_and, forall_exists_index, and_imp]
    rintro _ i - rfl
    have := hpay i
    dsimp only
    omega
  · simp only [mem_map, forall_exists_index, and_imp]
    rintro _ i - rfl
    exact hpay i
  · intro i j hi _ hij
    rw [← payload_succ (List.mem_range.mp hi)]
    exact payloadAt_add_le (List.mem_range.mp hi) hij

lemma extents_inside (mem : Buf) : ∀ e ∈ extents (window mem (image ranges)), e.2 ≤ batchDataSize := by
  rw [extents_image hfault htable]
  simp only [mem_cons, mem_map, forall_eq_or_imp, forall_exists_index, and_imp]
  refine ⟨by decide, htable.1, ?_⟩
  rintro _ i hi rfl
  exact payload_le hfault htable (List.mem_range.mp hi)

end Fits

end Image

end CxlMemSim.Guest.BatchWire
