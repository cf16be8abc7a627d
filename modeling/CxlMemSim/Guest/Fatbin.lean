/-
The walk over the files of a fat binary (`cudart_load_module_from_fatbin`), once its header is accepted: each record is
checked, and the best ELF and PTX records are kept. A read outside the files area is a fault.
-/
import CxlMemSim.Core.Bytes

namespace CxlMemSim.Fatbin

open CxlMemSim.Core List

/-- the files area; the bound is the header's check -/
structure Files where
  bytes : Buf
  size : ℕ
  size_le : size ≤ 256 * 1024 * 1024

structure File where
  (offset kind headerSize payloadSize smVersion : ℕ)
deriving DecidableEq

inductive Outcome where
  | fault
  | malformed
  | noBinary
  | elf (file : File)
  | ptx (file : File)

def recordSize : ℕ := 64

variable (f : Files) (target : ℕ)

def Files.record (offset : ℕ) : File where
  offset := offset
  kind := loadLE f.bytes offset 2
  headerSize := loadLE f.bytes (offset + 4) 4
  payloadSize := loadLE f.bytes (offset + 8) 4
  smVersion := loadLE f.bytes (offset + 28) 4

def isPtx (file : File) : Bool := file.kind = 1 ∧ file.smVersion ≤ target

def isElf (file : File) : Bool := file.kind = 2 ∧ file.smVersion ≤ target ∧ file.smVersion / 10 = target / 10

def keep (ok : File → Bool) (best : Option File) (file : File) : Option File :=
  if ok file ∧ best.all (·.smVersion < file.smVersion) then some file else best

/-- the size of the header is within its bounds, and the record fits with its payload in the remaining area -/
def Permitted (file : File) : Prop :=
  recordSize ≤ file.headerSize ∧ file.headerSize ≤ 4096 ∧ file.headerSize ≤ f.size - file.offset ∧
    file.payloadSize ≤ f.size - file.offset - file.headerSize

instance (file : File) : Decidable (Permitted f file) := inferInstanceAs (Decidable (_ ∧ _))

def choose : Option File → Option File → Outcome
  | some file, _ => .elf file
  | none, some file => .ptx file
  | none, none => .noBinary

def walk (offset : ℕ) (ptx elf : Option File) : Outcome :=
  if (offset + recordSize) % 2 ^ 64 ≤ f.size then
    if offset + recordSize > f.size then .fault
    else
      let file := f.record offset
      let step := file.headerSize + file.payloadSize
      if ¬ Permitted f file then .malformed
      else if step = 0 ∨ step > f.size - offset then .malformed
      else walk (offset + step) (keep (isPtx target) ptx file) (keep (isElf target) elf file)
  else choose elf ptx
termination_by f.size - offset
decreasing_by
  rename_i hstep
  simp only [step, file] at hstep
  omega

/-! ## What is chosen -/

/-- the records visited, one after the other from the start, and where the next one is -/
inductive Visited : List File → ℕ → Prop
  | start : Visited [] 0
  | next {files : List File} {offset : ℕ} (before : Visited files offset) (inside : offset + recordSize ≤ f.size)
      (permitted : Permitted f (f.record offset)) :
      Visited (files ++ [f.record offset]) (offset + ((f.record offset).headerSize + (f.record offset).payloadSize))

/-- the first of the greatest version among the eligible files, if there is one -/
def Best (ok : File → Bool) (files : List File) : Option File → Prop
  | none => files.filter ok = []
  | some file => ∃ before after, files.filter ok = before ++ file :: after ∧
      (∀ x ∈ before, x.smVersion < file.smVersion) ∧ ∀ x ∈ after, x.smVersion ≤ file.smVersion

variable {f target} {files : List File} {offset : ℕ} {ok : File → Bool} {best : Option File}

lemma Visited.le (h : Visited f files offset) : offset ≤ f.size := by
  induction h with
  | start => exact Nat.zero_le _
  | next _ inside permitted _ =>
    obtain ⟨-, -, hheader, hpayload⟩ := permitted
    simp only [Files.record] at hheader hpayload ⊢
    omega

lemma Best.keep (h : Best ok files best) (file : File) : Best ok (files ++ [file]) (keep ok best file) := by
  unfold Fatbin.keep
  by_cases hok : ok file
  · have hfilter : (files ++ [file]).filter ok = files.filter ok ++ [file] := by simp [hok]
    cases best with
    | none => simpa [hok, Best, hfilter, show files.filter ok = [] from h] using ⟨[], [], by simp⟩
    | some b =>
      obtain ⟨before, after, heq, hbefore, hafter⟩ := h
      by_cases hlt : b.smVersion < file.smVersion
      · simp only [hok, Option.all_some, hlt, decide_true, and_self, if_true]
        refine ⟨files.filter ok, [], hfilter, ?_, by simp⟩
        simp only [heq, mem_append, mem_cons]
        rintro x (hx | rfl | hx)
        · exact (hbefore x hx).trans hlt
        · exact hlt
        · exact (hafter x hx).trans_lt hlt
      · simp only [Option.all_some, hlt, decide_false, Bool.false_eq_true, and_false, if_false]
        refine ⟨before, after ++ [file], by simp [hfilter, heq], hbefore, ?_⟩
        simp only [mem_append, mem_singleton]
        rintro x (hx | rfl)
        · exact hafter x hx
        · exact not_lt.mp hlt
  · have hfilter : (files ++ [file]).filter ok = files.filter ok := by simp [hok]
    simp only [hok, Bool.false_eq_true, false_and, if_false]
    cases best with
    | none => exact hfilter.trans h
    | some b => exact (show Best ok (files ++ [file]) (some b) from by simpa [Best, hfilter] using h)

/-- The walk ends at a record that is not permitted, or where no record is left. -/
lemma walk_spec {ptx elf : Option File} (h : Visited f files offset) (hptx : Best (isPtx target) files ptx)
    (helf : Best (isElf target) files elf) :
    ∃ files stop, Visited f files stop ∧
      (stop + recordSize ≤ f.size ∧ ¬ Permitted f (f.record stop) ∧ walk f target offset ptx elf = .malformed ∨
        f.size < stop + recordSize ∧ ∃ elf' ptx', Best (isElf target) files elf' ∧ Best (isPtx target) files ptx' ∧
          walk f target offset ptx elf = choose elf' ptx') := by
  have hle := h.le
  have hsize := f.size_le
  fun_induction walk f target offset ptx elf generalizing files with
  | case1 offset ptx elf hloop hfault =>
    simp only [recordSize] at hloop hfault
    omega
  | case2 offset ptx elf hloop hin file =>
    rename_i hbad
    exact ⟨files, offset, h, .inl ⟨not_lt.mp hin, hbad, rfl⟩⟩
  | case3 offset ptx elf hloop hin file step hok =>
    rename_i hstep
    obtain ⟨hheader, -, hfits, hpayload⟩ := not_not.mp hok
    simp only [recordSize, step, file, Files.record] at hheader hfits hpayload hstep
    omega
  | case4 offset ptx elf hloop hin file step hok hstep =>
    rename_i ih
    have hnext := h.next (not_lt.mp hin) (not_not.mp hok)
    exact ih hnext (hptx.keep _) (helf.keep _) hnext.le
  | case5 offset ptx elf hloop =>
    have hend : f.size < offset + recordSize := by omega
    exact ⟨files, offset, h, .inr ⟨hend, elf, ptx, helf, hptx, rfl⟩⟩

lemma choose_ne (elf ptx : Option File) : choose elf ptx ≠ .fault ∧ choose elf ptx ≠ .malformed := by
  cases elf <;> cases ptx <;> exact ⟨nofun, nofun⟩

end CxlMemSim.Fatbin
