/-
The checks of a device-to-device 2D copy (`cxl_memcpy2d_offset`, `cxl_memcpy2d_device_to_device` of `libcuda.c`); sums
and products are taken modulo 2^64.
-/
import CxlMemSim.Guest.Api

namespace CxlMemSim.Guest.Copy2d

inductive MemoryType where
  | host
  | device
  | array
  | unified
deriving DecidableEq

/-- one end of a `CUDA_MEMCPY2D` -/
structure Side where
  memoryType : MemoryType
  base : UInt64
  pitch : UInt64
  x : UInt64
  y : UInt64

structure Memcpy2D where
  src : Side
  dst : Side
  width : UInt64
  height : UInt64

def sizeMax : ℕ := 2 ^ 64 - 1

def cxlMemcpy2dOffset (base pitch x y width : ℕ) : Option ℕ :=
  if x > pitch ∨ width > pitch - x ∨ (y ≠ 0 ∧ pitch > sizeMax / y) then none
  else
    let offset := (y * pitch + x) % 2 ^ 64
    if offset < x ∨ offset > sizeMax - base then none
    else
      let row := (base + offset) % 2 ^ 64
      if width > sizeMax - row then none else some row

/-- the call for the first row -/
def Side.first (s : Side) (width : UInt64) : Option ℕ :=
  cxlMemcpy2dOffset s.base.toNat s.pitch.toNat s.x.toNat s.y.toNat width.toNat

/-- the call for the last row, from the address of the first -/
def Side.last (s : Side) (width height : UInt64) (row : ℕ) : Option ℕ :=
  cxlMemcpy2dOffset row s.pitch.toNat 0 (height.toNat - 1) width.toNat

def cxlMemcpy2dDeviceToDevice (copy : Memcpy2D) (stream : UInt64) : Bar2 Reply :=
  let lastRow := copy.height.toNat - 1
  if copy.src.memoryType ≠ .device ∨ copy.dst.memoryType ≠ .device then pure (.code errorNotSupported)
  else if copy.width = 0 ∨ copy.height = 0 then pure (.code success)
  else if copy.src.base = 0 ∨ copy.dst.base = 0 then pure (.code errorInvalidValue)
  else if copy.src.y.toNat > sizeMax - lastRow ∨ copy.dst.y.toNat > sizeMax - lastRow then
    pure (.code errorInvalidValue)
  else
    match copy.src.first copy.width, copy.dst.first copy.width with
    | some src, some dst =>
      if copy.src.last copy.width copy.height src = none ∨ copy.dst.last copy.width copy.height dst = none then
        pure (.code errorInvalidValue)
      else
        Guest.cxlMemcpy2dDeviceToDevice (.ofNat dst) (.ofNat src) copy.dst.pitch copy.src.pitch copy.width copy.height
          stream
    | _, _ => pure (.code errorInvalidValue)

/-- the rows lie in their pitch and end below `2 ^ 64`, over the natural numbers -/
def Side.Fits (s : Side) (width height : UInt64) : Prop :=
  s.x.toNat + width.toNat ≤ s.pitch.toNat ∧
    s.base.toNat + (s.y.toNat + height.toNat - 1) * s.pitch.toNat + s.x.toNat + width.toNat ≤ 2 ^ 64 - 1

def Side.row (s : Side) : ℕ := s.base.toNat + s.y.toNat * s.pitch.toNat + s.x.toNat

/-- One call checks one row: it fits in its pitch and ends below `2 ^ 64`. -/
lemma cxlMemcpy2dOffset_iff {base pitch x y width row : ℕ} (hbase : base < 2 ^ 64) (hpitch : pitch < 2 ^ 64) :
    cxlMemcpy2dOffset base pitch x y width = some row ↔
      x + width ≤ pitch ∧ base + y * pitch + x + width < 2 ^ 64 ∧ row = base + y * pitch + x := by
  have hmul : (y ≠ 0 ∧ pitch > sizeMax / y) ↔ 2 ^ 64 ≤ y * pitch := by
    rcases Nat.eq_zero_or_pos y with rfl | hy
    · simp
    · rw [gt_iff_lt, Nat.div_lt_iff_lt_mul hy, Nat.mul_comm, sizeMax]
      omega
  simp only [cxlMemcpy2dOffset, hmul]
  unfold sizeMax
  generalize y * pitch = p
  split_ifs <;> simp only [false_iff, Option.some_inj] <;> omega

section Rows

variable {s : Side} {width height : UInt64}

lemma toNat_pos {a : UInt64} (h : a ≠ 0) : 0 < a.toNat := Nat.pos_of_ne_zero fun h0 => h (UInt64.toNat_inj.mp h0)

/-- The two calls and the test of the last row's number check all rows. -/
lemma rows_iff (hw : width ≠ 0) (hh : height ≠ 0) {row : ℕ} :
    (¬ s.y.toNat > sizeMax - (height.toNat - 1) ∧ s.first width = some row ∧ s.last width height row ≠ none) ↔
      s.Fits width height ∧ row = s.row := by
  have hwpos := toNat_pos hw
  have hhpos := toNat_pos hh
  have hrows : (s.y.toNat + height.toNat - 1) * s.pitch.toNat =
      s.y.toNat * s.pitch.toNat + (height.toNat - 1) * s.pitch.toNat := by
    rw [← Nat.add_mul, Nat.add_sub_assoc hhpos]
  have hnumber := Nat.le_mul_of_pos_right (s.y.toNat + height.toNat - 1) (m := s.pitch.toNat)
  rw [Side.first, cxlMemcpy2dOffset_iff s.base.toNat_lt s.pitch.toNat_lt, Side.Fits, Side.row, Side.last,
    Option.ne_none_iff_exists']
  constructor
  · rintro ⟨-, ⟨hx, hend, rfl⟩, last, hlast⟩
    obtain ⟨-, hlast, -⟩ := (cxlMemcpy2dOffset_iff (by omega) s.pitch.toNat_lt).mp hlast
    exact ⟨⟨hx, by omega⟩, rfl⟩
  · rintro ⟨⟨hx, hend⟩, rfl⟩
    have := hnumber (by omega)
    exact ⟨by unfold sizeMax; omega, ⟨hx, by omega, rfl⟩, _,
      (cxlMemcpy2dOffset_iff (by omega) s.pitch.toNat_lt).mpr ⟨by omega, by omega, rfl⟩⟩

end Rows

end CxlMemSim.Guest.Copy2d
