/-
`cxlCoherentAlloc` and `cxlCoherentFree` of `libcuda.c`: the device's allocator, and a bump pointer of the process that
is used when the command fails. The range that the device gives is as long as the request.
-/
import CxlMemSim.Core.Range
import CxlMemSim.Core.Run

namespace CxlMemSim.Guest.Coherent

open CxlMemSim.Core List

structure Alloc where
  offset : ℕ
  /-- the bytes set aside -/
  size : ℕ
  requested : ℕ
  byDevice : Bool
deriving DecidableEq

structure State where
  cohOffset : ℕ := 0
  live : List Alloc := []

/-- `answer` is the device's offset, or `none` if the command fails or there is no transport -/
inductive Op where
  | alloc (size : ℕ) (answer : Option ℕ)
  | free (offset : ℕ)

variable (bar4Size : ℕ)

def roundUp (size : ℕ) : ℕ := (size + 4095) % 2 ^ 64 / 4096 * 4096

def allocLocal (s : State) (size : ℕ) : State :=
  if (s.cohOffset + roundUp size) % 2 ^ 64 > bar4Size then s
  else
    { cohOffset := (s.cohOffset + roundUp size) % 2 ^ 64
      live := ⟨s.cohOffset, roundUp size, size, false⟩ :: s.live }

/-- the device frees its range at the offset; it knows nothing of a local one, whose free fails -/
def step (s : State) : Op → State
  | .alloc size answer =>
    if size = 0 then s
    else
      match answer with
      | some offset => if offset < bar4Size then { s with live := ⟨offset, size, size, true⟩ :: s.live } else s
      | none => allocLocal bar4Size s size
  | .free offset => { s with live := s.live.filter fun a => ¬ (a.byDevice ∧ a.offset = offset) }

def Clear (a b : Alloc) : Prop := Apart a.offset a.size b.offset b.size

/-- the live allocations are apart, as large as requested and inside BAR4 -/
structure Sound (s : State) : Prop where
  apart : s.live.Pairwise Clear
  large : ∀ a ∈ s.live, a.requested ≤ a.size
  inside : ∀ a ∈ s.live, a.offset + a.size ≤ bar4Size

/-- what is assumed of the device, and that sizes are `uint64_t` -/
def Device (s : State) : Op → Prop
  | .alloc size answer => size < 2 ^ 64 ∧ ∀ offset ∈ answer, offset + size ≤ bar4Size ∧
      ∀ a ∈ s.live, a.byDevice = true → Clear ⟨offset, size, size, true⟩ a
  | .free _ => True

/-- one allocator serves all live allocations, and the local one does not wrap -/
def Unmixed (s : State) : Op → Prop
  | .alloc _ (some _) => ∀ a ∈ s.live, a.byDevice = true
  | .alloc size none => (∀ a ∈ s.live, a.byDevice = false) ∧ s.cohOffset + size + 4095 < 2 ^ 64
  | .free _ => True

structure Kept (s : State) : Prop extends Sound bar4Size s where
  below : ∀ a ∈ s.live, a.byDevice = false → a.offset + a.size ≤ s.cohOffset

variable {bar4Size}

lemma Kept.cons {s : State} (h : Kept bar4Size s) (a : Alloc) {cohOffset : ℕ} (hle : s.cohOffset ≤ cohOffset)
    (hapart : ∀ b ∈ s.live, Clear a b) (hlarge : a.requested ≤ a.size) (hin : a.offset + a.size ≤ bar4Size)
    (hbelow : a.byDevice = false → a.offset + a.size ≤ cohOffset) : Kept bar4Size ⟨cohOffset, a :: s.live⟩ where
  apart := pairwise_cons.mpr ⟨hapart, h.apart⟩
  large := forall_mem_cons.mpr ⟨hlarge, h.large⟩
  inside := forall_mem_cons.mpr ⟨hin, h.inside⟩
  below := forall_mem_cons.mpr ⟨hbelow, fun b hb hlocal => (h.below b hb hlocal).trans hle⟩

lemma kept_step (s : State) (o : Op) (h : Kept bar4Size s) (ho : Device bar4Size s o ∧ Unmixed s o) :
    Kept bar4Size (step bar4Size s o) := by
  obtain ⟨hdev, hun⟩ := ho
  cases o with
  | free offset =>
    have hsub : (step bar4Size s (.free offset)).live ⊆ s.live := filter_sublist.subset
    exact ⟨⟨h.apart.sublist filter_sublist, fun a ha => h.large a (hsub ha), fun a ha => h.inside a (hsub ha)⟩,
      fun a ha => h.below a (hsub ha)⟩
  | alloc size answer =>
    simp only [step]
    split_ifs with hzero
    · exact h
    cases answer with
    | some offset =>
      obtain ⟨hin, hapart⟩ := hdev.2 offset rfl
      dsimp only
      split_ifs
      · exact h.cons ⟨offset, size, size, true⟩ le_rfl (fun b hb => hapart b hb (hun b hb)) le_rfl hin nofun
      · exact h
    | none =>
      obtain ⟨hlocal, hwrap⟩ := hun
      have hround : size ≤ roundUp size ∧ roundUp size ≤ size + 4095 := by
        unfold roundUp
        omega
      simp only [allocLocal]
      rw [Nat.mod_eq_of_lt (by omega)]
      split_ifs with hfull
      · exact h
      · exact h.cons ⟨s.cohOffset, roundUp size, size, false⟩ (Nat.le_add_right _ _)
          (fun b hb => .inr (h.below b hb (hlocal b hb))) hround.1 (Nat.not_lt.mp hfull) fun _ => le_rfl

/-- Coherent allocations do not overlap as long as one allocator serves all that are live. -/
theorem coherent_apart (ops : List Op)
    (h : AllSteps (step bar4Size) (fun s o => Device bar4Size s o ∧ Unmixed s o) {} ops) :
    Sound bar4Size (run (step bar4Size) {} ops) :=
  (run_inv (P := Kept bar4Size) kept_step ⟨⟨by simp, by simp, by simp⟩, by simp⟩ h).toSound

theorem coherent_apart_local : Sound 8192 (run (step 8192) {} [.alloc 100 none, .alloc 4096 none]) :=
  coherent_apart _ (by simp [AllSteps, Device, Unmixed, step, allocLocal, roundUp])

/-- The device gives the first page; when it fails, the bump pointer gives it again. -/
theorem allocators_collide :
    ¬ ∀ ops, AllSteps (step 8192) (Device 8192) {} ops → Sound 8192 (run (step 8192) {} ops) := by
  intro h
  have hbad := (h [.alloc 4096 (some 0), .alloc 4096 none] (by simp [AllSteps, Device, step])).apart
  simp [run, step, allocLocal, roundUp, Clear, Apart] at hbad

end CxlMemSim.Guest.Coherent
