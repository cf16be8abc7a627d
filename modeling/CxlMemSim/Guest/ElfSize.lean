/-
The size of an ELF image in memory (`cudart_direct_elf_size`): header, tables and what their entries give, checked
against the readable extent. A copy that leaves the extent is a fault; an entry's offset is taken modulo 2^64.
-/
import CxlMemSim.Core.Bytes

namespace CxlMemSim.Elf

open CxlMemSim.Core List

structure Memory where
  bytes : Buf
  extent : ℕ
  extent_lt : extent < 2 ^ 64

inductive Outcome where
  | fault
  | invalid
  | size (n : ℕ)
deriving DecidableEq

def headerSize : ℕ := 64
def phdrSize : ℕ := 56
def shdrSize : ℕ := 64
def maxSize : ℕ := 64 * 1024 * 1024

namespace Memory

variable (m : Memory)

def phoff : ℕ := loadLE m.bytes 32 8
def shoff : ℕ := loadLE m.bytes 40 8
def phentsize : ℕ := loadLE m.bytes 54 2
def phnum : ℕ := loadLE m.bytes 56 2
def shentsize : ℕ := loadLE m.bytes 58 2
def shnum : ℕ := loadLE m.bytes 60 2

/-- magic, class, data encoding, version, machine, and the sizes the header gives -/
def HeaderOk : Prop :=
  loadLE m.bytes 0 4 = 0x464c457f ∧ m.bytes 4 = 2 ∧ m.bytes 5 = 1 ∧ m.bytes 6 = 1 ∧
    loadLE m.bytes 18 2 = 190 ∧ loadLE m.bytes 52 2 = headerSize ∧ m.phnum ≠ 0xffff ∧
    (m.phnum ≠ 0 → m.phentsize = phdrSize) ∧ (m.shnum ≠ 0 → m.shentsize = shdrSize)

instance : Decidable m.HeaderOk := inferInstanceAs (Decidable (_ ∧ _))

end Memory

def sizeAdd (a b : ℕ) : Option ℕ := if a + b < 2 ^ 64 then some (a + b) else none

def sizeMultiply (a b : ℕ) : Option ℕ := if a * b < 2 ^ 64 then some (a * b) else none

def rangeWithin (extent offset length : ℕ) : Bool := (sizeAdd offset length).any (· ≤ extent)

def programRange (program : Buf) : Option (ℕ × ℕ) := some (loadLE program 8 8, loadLE program 32 8)

/-- of a section; none if it is `SHT_NOBITS` -/
def sectionRange (sec : Buf) : Option (ℕ × ℕ) :=
  if loadLE sec 4 4 = 8 then none else some (loadLE sec 24 8, loadLE sec 32 8)

def scan (m : Memory) (table size : ℕ) (range : Buf → Option (ℕ × ℕ)) : ℕ → ℕ → ℕ → Outcome
  | 0, _, maxEnd => .size maxEnd
  | n + 1, index, maxEnd =>
    let offset := (table + index * size) % 2 ^ 64
    if offset + size > m.extent then .fault
    else match range fun i => m.bytes (offset + i) with
      | none => scan m table size range n (index + 1) maxEnd
      | some (start, length) =>
        match sizeAdd start length with
        | none => .invalid
        | some e => if e > m.extent then .invalid else scan m table size range n (index + 1) (max maxEnd e)

def cudartDirectElfSize (m : Memory) : Outcome :=
  if m.extent < headerSize then .invalid
  else if ¬ m.HeaderOk then .invalid
  else match sizeMultiply m.phnum m.phentsize, sizeMultiply m.shnum m.shentsize with
    | some phdrBytes, some shdrBytes =>
      if !rangeWithin m.extent m.phoff phdrBytes || !rangeWithin m.extent m.shoff shdrBytes then .invalid
      else
        let maxEnd := if phdrBytes ≠ 0 then max headerSize (m.phoff + phdrBytes) else headerSize
        let maxEnd := if shdrBytes ≠ 0 then max maxEnd (m.shoff + shdrBytes) else maxEnd
        match scan m m.phoff phdrSize programRange m.phnum 0 maxEnd with
        | .size maxEnd =>
          match scan m m.shoff shdrSize sectionRange m.shnum 0 maxEnd with
          | .size maxEnd => if maxEnd = 0 ∨ maxEnd > maxSize then .invalid else .size maxEnd
          | other => other
        | other => other
    | _, _ => .invalid

/-! ## What the size is -/

/-- the ends of the ranges that the entries of a table give, over the naturals -/
def entryEnds (m : Memory) (table size : ℕ) (range : Buf → Option (ℕ × ℕ)) (first count : ℕ) : List ℕ :=
  (range' first count).filterMap fun i => (range fun j => m.bytes (table + i * size + j)).map fun r => r.1 + r.2

def tableEnd (offset bytes : ℕ) : List ℕ := if bytes ≠ 0 then [offset + bytes] else []

def segmentEnds (m : Memory) : List ℕ := entryEnds m m.phoff phdrSize programRange 0 m.phnum

def sectionEnds (m : Memory) : List ℕ := entryEnds m m.shoff shdrSize sectionRange 0 m.shnum

/-- of the header, the tables that have entries, the segments and the sections with bytes -/
def ends (m : Memory) : List ℕ :=
  headerSize :: (tableEnd m.phoff (m.phnum * m.phentsize) ++ (tableEnd m.shoff (m.shnum * m.shentsize) ++
    (segmentEnds m ++ sectionEnds m)))

/-- the header is right and both tables are within the extent -/
def Readable (m : Memory) : Prop :=
  headerSize ≤ m.extent ∧ m.HeaderOk ∧ m.phoff + m.phnum * m.phentsize ≤ m.extent ∧
    m.shoff + m.shnum * m.shentsize ≤ m.extent

variable {m : Memory} {table size : ℕ} {entry : Buf → Option (ℕ × ℕ)}

/-- Over a table inside the extent the loop takes the maximum of the ends, or refuses one outside the extent. -/
lemma scan_eq (n index maxEnd : ℕ) (hin : table + (index + n) * size ≤ m.extent) :
    scan m table size entry n index maxEnd =
      if ∀ e ∈ entryEnds m table size entry index n, e ≤ m.extent then
        .size ((entryEnds m table size entry index n).foldl max maxEnd)
      else .invalid := by
  induction n generalizing index maxEnd with
  | zero => simp [scan, entryEnds]
  | succ n ih =>
    have hlast : table + index * size + size ≤ m.extent := by nlinarith
    have hoff : (table + index * size) % 2 ^ 64 = table + index * size :=
      Nat.mod_eq_of_lt (lt_of_le_of_lt (by omega) m.extent_lt)
    have hrest : ∀ maxEnd, _ := fun maxEnd => ih (index + 1) maxEnd (by rwa [add_right_comm])
    unfold scan
    dsimp only
    rw [hoff, if_neg (not_lt.mpr hlast), entryEnds, range'_succ, filterMap_cons]
    cases hentry : entry fun i => m.bytes (table + index * size + i) with
    | none => exact hrest maxEnd
    | some r =>
      simp only [Option.map_some, forall_mem_cons, foldl_cons]
      by_cases hend : r.1 + r.2 ≤ m.extent
      · have hsum : sizeAdd r.1 r.2 = some (r.1 + r.2) := if_pos (hend.trans_lt m.extent_lt)
        simp only [hsum, gt_iff_lt, not_lt.mpr hend, if_false, hend, true_and]
        exact hrest _
      · rw [if_neg fun hall => hend hall.1]
        unfold sizeAdd
        split_ifs
        · exact if_pos (not_le.mp hend)
        · rfl

lemma rangeWithin_iff (offset length : ℕ) : rangeWithin m.extent offset length = true ↔ offset + length ≤ m.extent := by
  have hlt := m.extent_lt
  unfold rangeWithin sizeAdd
  split_ifs with hsum
  · simp
  · simp only [Option.any_none, Bool.false_eq_true, false_iff]
    omega

lemma sizeMultiply_fields (m : Memory) :
    sizeMultiply m.phnum m.phentsize = some (m.phnum * m.phentsize) ∧
      sizeMultiply m.shnum m.shentsize = some (m.shnum * m.shentsize) := by
  have hmul : ∀ off off', loadLE m.bytes off 2 * loadLE m.bytes off' 2 < 2 ^ 64 := fun off off' =>
    lt_of_lt_of_le (Nat.mul_lt_mul'' (loadLE_lt _ _ 2) (loadLE_lt _ _ 2)) (by norm_num)
  exact ⟨if_pos (hmul _ _), if_pos (hmul _ _)⟩

lemma foldl_tableEnd (maxEnd offset bytes : ℕ) :
    (tableEnd offset bytes).foldl max maxEnd = if bytes ≠ 0 then max maxEnd (offset + bytes) else maxEnd := by
  unfold tableEnd
  split_ifs <;> rfl

lemma table_within {offset count entsize : ℕ} (hsize : count ≠ 0 → entsize = size)
    (h : offset + count * entsize ≤ m.extent) : offset + (0 + count) * size ≤ m.extent := by
  by_cases hc : count = 0
  · subst hc
    simpa using h
  · rwa [zero_add, ← hsize hc]

def maxEnd (m : Memory) : ℕ := (ends m).tail.foldl max headerSize

lemma max_ends (m : Memory) : (ends m).max? = some (maxEnd m) := max?_cons'

lemma ends_le_iff (h : Readable m) :
    (∀ e ∈ ends m, e ≤ m.extent) ↔ (∀ e ∈ segmentEnds m, e ≤ m.extent) ∧ ∀ e ∈ sectionEnds m, e ≤ m.extent := by
  obtain ⟨hext, -, hph, hsh⟩ := h
  have htable : ∀ offset bytes, offset + bytes ≤ m.extent → ∀ e ∈ tableEnd offset bytes, e ≤ m.extent := by
    intro offset bytes hle e he
    unfold tableEnd at he
    split_ifs at he
    · exact mem_singleton.mp he ▸ hle
    · simp at he
  have h₁ := htable _ _ hph
  have h₂ := htable _ _ hsh
  simp only [hext, ends, forall_mem_cons, forall_mem_append, true_and]
  exact ⟨fun h => h.2.2, fun h => ⟨h₁, h₂, h⟩⟩

lemma directElfSize_invalid (h : ¬ Readable m) : cudartDirectElfSize m = .invalid := by
  unfold cudartDirectElfSize
  rw [(sizeMultiply_fields m).1, (sizeMultiply_fields m).2]
  split_ifs with hext hok
  · rfl
  · dsimp only
    refine if_pos ?_
    by_contra hrange
    simp only [Bool.or_eq_true, Bool.not_eq_true', ← Bool.not_eq_true, rangeWithin_iff, not_or, not_not] at hrange
    exact h ⟨not_lt.mp hext, hok, hrange.1, hrange.2⟩
  · rfl

lemma directElfSize_eq (h : Readable m) :
    cudartDirectElfSize m =
      if (∀ e ∈ ends m, e ≤ m.extent) ∧ maxEnd m ≤ maxSize then .size (maxEnd m) else .invalid := by
  have hall := ends_le_iff h
  obtain ⟨hext, hok, hph, hsh⟩ := h
  have hmax : headerSize ≤ maxEnd m := (max?_eq_some_iff.mp (max_ends m)).2 headerSize mem_cons_self
  have hpos : maxEnd m ≠ 0 := Nat.ne_of_gt (lt_of_lt_of_le (by decide) hmax)
  unfold cudartDirectElfSize
  rw [if_neg (not_lt.mpr hext), if_neg (not_not.mpr hok), (sizeMultiply_fields m).1, (sizeMultiply_fields m).2]
  dsimp only
  rw [(rangeWithin_iff _ _).mpr hph, (rangeWithin_iff _ _).mpr hsh, if_neg (by simp), ← foldl_tableEnd, ← foldl_tableEnd,
    scan_eq _ _ _ (table_within hok.2.2.2.2.2.2.2.1 hph), ← segmentEnds]
  by_cases hP : ∀ e ∈ segmentEnds m, e ≤ m.extent
  · rw [if_pos hP]
    dsimp only
    rw [scan_eq _ _ _ (table_within hok.2.2.2.2.2.2.2.2 hsh), ← sectionEnds, ← foldl_append, ← foldl_append,
      ← foldl_append]
    by_cases hS : ∀ e ∈ sectionEnds m, e ≤ m.extent
    · rw [if_pos hS]
      change (if maxEnd m = 0 ∨ maxEnd m > maxSize then Outcome.invalid else .size (maxEnd m)) = _
      simp only [hpos, false_or, gt_iff_lt, ← not_le, ite_not, and_iff_right (hall.mpr ⟨hP, hS⟩)]
    · rw [if_neg hS, if_neg fun h => hS (hall.mp h.1).2]
  · rw [if_neg hP, if_neg fun h => hP (hall.mp h.1).1]

/-- The size is exact and safe. The function reads inside the extent, succeeds exactly when header, tables and
ranges are right, and gives the greatest end. -/
theorem direct_elf_size_exact (m : Memory) :
    cudartDirectElfSize m ≠ .fault ∧ (∀ size, cudartDirectElfSize m = .size size → size ≤ m.extent) ∧
      ∀ size, cudartDirectElfSize m = .size size ↔
        headerSize ≤ m.extent ∧ m.HeaderOk ∧ m.phoff + m.phnum * m.phentsize ≤ m.extent ∧
          m.shoff + m.shnum * m.shentsize ≤ m.extent ∧ (∀ e ∈ ends m, e ≤ m.extent) ∧
          (ends m).max? = some size ∧ size ≤ maxSize := by
  have hiff : ∀ size, cudartDirectElfSize m = .size size ↔
      Readable m ∧ (∀ e ∈ ends m, e ≤ m.extent) ∧ (ends m).max? = some size ∧ size ≤ maxSize := by
    intro size
    by_cases hread : Readable m
    · rw [directElfSize_eq hread, max_ends, Option.some.injEq]
      split_ifs with h
      · rw [Outcome.size.injEq]
        exact ⟨fun heq => ⟨hread, h.1, heq, heq ▸ h.2⟩, fun heq => heq.2.2.1⟩
      · exact iff_of_false nofun fun h' => h ⟨h'.2.1, h'.2.2.1.symm ▸ h'.2.2.2⟩
    · rw [directElfSize_invalid hread]
      exact iff_of_false nofun fun h => hread h.1
  refine ⟨?_, fun size hsize => ?_, fun size => (hiff size).trans (by simp only [Readable, and_assoc])⟩
  · by_cases hread : Readable m
    · rw [directElfSize_eq hread]
      split_ifs <;> nofun
    · rw [directElfSize_invalid hread]
      nofun
  · obtain ⟨-, hall, hmax, -⟩ := (hiff size).mp hsize
    exact hall size (max?_mem hmax)

end CxlMemSim.Elf
