/-
Are the allocations of the MPI shim disjoint? A call rounds its size up to 4096, adds it to one shared offset with
`atomic_fetch_add`, and takes the old offset if the new one is inside the region; otherwise it subtracts the size again,
in a second step. Everything wraps in 64 bits.
-/
import CxlMemSim.Core.Run
import CxlMemSim.Core.Range

namespace CxlMemSim.Mpi

open CxlMemSim.Core

/-! ## The region -/

def cxlAlignment : UInt64 := 4096
def cxlMaxRanks : UInt64 := 256

/-- `sizeof(cxl_shm_header_t)`: 60 bytes of counters, padded to 64, and 256 pointers -/
def headerBytes : UInt64 := 2112

def mailboxBytes : UInt64 := 20608

def cxlHeaderSize : UInt64 := headerBytes + cxlMaxRanks * mailboxBytes

def alignUp (x : UInt64) : UInt64 := (x + cxlAlignment - 1) &&& (18446744073709547520 : UInt64)

def ranksThatFit (size : UInt64) : ℤ := Int.bmod ((size - headerBytes) / mailboxBytes).toNat (2 ^ 32)

/-- how many mailboxes `init_cxl_memory` sets up; it gives up when there is not room for one -/
def maxUsableRanks (size : UInt64) : Option UInt64 :=
  if cxlHeaderSize > size then
    if ranksThatFit size < 1 then none else some (UInt64.ofNat (ranksThatFit size).toNat)
  else some cxlMaxRanks

structure Region where
  size : UInt64
  maxRanks : UInt64
  fits : maxUsableRanks size = some maxRanks

def Region.requiredSize (r : Region) : UInt64 := headerBytes + r.maxRanks * mailboxBytes

inductive Setup where
  | initialized
  | registered
deriving DecidableEq, Repr

def Region.firstOffset (r : Region) : Setup → UInt64
  | .initialized => alignUp r.requiredSize
  | .registered => cxlHeaderSize

/-! ## Allocation -/

structure Block where
  offset : UInt64
  requested : UInt64
  size : UInt64
deriving DecidableEq, Repr

structure State where
  allocOffset : UInt64
  /-- the threads whose allocation failed and that have yet to roll back, with the size they added -/
  failed : List (ℕ × UInt64)
  blocks : List Block
deriving DecidableEq, Repr

def start (r : Region) (setup : Setup) : State := ⟨r.firstOffset setup, [], []⟩

inductive Op where
  | fetchAdd (thread : ℕ) (size : UInt64)
  | fetchSub (thread : ℕ)
deriving DecidableEq, Repr

def allocate (r : Region) (s : State) (thread : ℕ) (requested : UInt64) : State :=
  let size := alignUp requested
  let oldOffset := s.allocOffset
  let newOffset := oldOffset + size
  if newOffset > r.size then { s with allocOffset := newOffset, failed := (thread, size) :: s.failed }
  else { s with allocOffset := newOffset, blocks := ⟨oldOffset, requested, size⟩ :: s.blocks }

def rollBack (s : State) (thread : ℕ) : State :=
  match s.failed.find? (·.1 = thread) with
  | none => s
  | some f => { s with allocOffset := s.allocOffset - f.2, failed := s.failed.erase f }

def step (r : Region) (s : State) : Op → State
  -- a thread that has yet to roll back is not in a new call
  | .fetchAdd thread size => if s.failed.any (·.1 = thread) then s else allocate r s thread size
  | .fetchSub thread => rollBack s thread

/-- the blocks are disjoint, as large as requested, inside the region and behind the mailboxes -/
structure Contained (r : Region) (s : State) : Prop where
  apart : s.blocks.Pairwise fun b c => Apart b.offset.toNat b.size.toNat c.offset.toNat c.size.toNat
  large : ∀ b ∈ s.blocks, b.requested.toNat ≤ b.size.toNat
  inside : ∀ b ∈ s.blocks, b.offset.toNat + b.size.toNat ≤ r.size.toNat
  behind : ∀ b ∈ s.blocks, r.requiredSize.toNat ≤ b.offset.toNat

/-- neither the rounding nor the addition wraps, and the add fails if a failed call has yet to roll back -/
def Orderly (r : Region) (s : State) : Op → Prop
  | .fetchAdd _ size =>
    size.toNat + 4095 < 2 ^ 64 ∧ s.allocOffset.toNat + (alignUp size).toNat < 2 ^ 64 ∧
      (s.failed = [] ∨ r.size.toNat < s.allocOffset.toNat + (alignUp size).toNat)
  | .fetchSub _ => True

instance (r : Region) (s : State) (o : Op) : Decidable (Orderly r s o) :=
  match o with
  | .fetchAdd _ size => inferInstanceAs (Decidable (size.toNat + 4095 < 2 ^ 64 ∧
      s.allocOffset.toNat + (alignUp size).toNat < 2 ^ 64 ∧
      (s.failed = [] ∨ r.size.toNat < s.allocOffset.toNat + (alignUp size).toNat)))
  | .fetchSub _ => isTrue trivial

/-! ## Arithmetic -/

lemma toNat_cxlHeaderSize : cxlHeaderSize.toNat = 5277760 := rfl

variable {x : UInt64}

lemma alignUp_toNat (h : x.toNat + 4095 < 2 ^ 64) : (alignUp x).toNat = (x.toNat + 4095) / 4096 * 4096 := by
  have hsum : (x + cxlAlignment - 1).toNat = x.toNat + 4095 := by
    have h4096 : cxlAlignment.toNat = 4096 := rfl
    have hone : (1 : UInt64).toNat = 1 := rfl
    rw [UInt64.toNat_sub, UInt64.toNat_add, h4096, hone]
    omega
  rw [alignUp, UInt64.toNat_and, hsum]
  exact Core.and_highMask (by norm_num : 12 ≤ 64) h

lemma le_alignUp (h : x.toNat + 4095 < 2 ^ 64) : x.toNat ≤ (alignUp x).toNat := by
  rw [alignUp_toNat h]
  omega

lemma ranksThatFit_lt (size : UInt64) : ranksThatFit size < 2 ^ 31 := Int.bmod_lt (by norm_num)

variable {size : UInt64}

lemma ranksThatFit_le (hheader : 2112 ≤ size.toNat) (hsmall : size.toNat < 5277760) : ranksThatFit size ≤ 256 := by
  have h2112 : headerBytes.toNat = 2112 := rfl
  have h20608 : mailboxBytes.toNat = 20608 := rfl
  have hquotient : ((size - headerBytes) / mailboxBytes).toNat < 256 := by
    rw [UInt64.toNat_div, UInt64.toNat_sub_of_le _ _ (UInt64.le_iff_toNat_le.mpr (by rwa [h2112])), h2112, h20608]
    omega
  unfold ranksThatFit
  generalize ((size - headerBytes) / mailboxBytes).toNat = q at hquotient ⊢
  rw [Int.bmod_eq_of_le (by omega) (by omega)]
  omega

/-- the mailboxes in use fit an `int`, and are at most 256 unless the region is smaller than the header -/
lemma maxRanks_bounds (r : Region) : r.maxRanks.toNat < 2 ^ 31 ∧ (r.maxRanks.toNat ≤ 256 ∨ r.size.toNat < 2112) := by
  have hfits := r.fits
  unfold maxUsableRanks at hfits
  split_ifs at hfits with hsmall hnone
  · rw [gt_iff_lt, UInt64.lt_iff_toNat_lt, toNat_cxlHeaderSize] at hsmall
    have hlt := ranksThatFit_lt r.size
    have hle : 2112 ≤ r.size.toNat → ranksThatFit r.size ≤ 256 := fun h => ranksThatFit_le h hsmall
    have hnat : r.maxRanks.toNat = (ranksThatFit r.size).toNat := by
      rw [← Option.some.inj hfits, UInt64.toNat_ofNat']
      omega
    rw [hnat]
    refine ⟨by omega, ?_⟩
    by_cases hheader : 2112 ≤ r.size.toNat
    · have := hle hheader
      omega
    · exact .inr (not_le.mp hheader)
  · rw [← Option.some.inj hfits]
    exact ⟨by decide, .inl (by decide)⟩

lemma requiredSize_toNat (r : Region) : r.requiredSize.toNat = 2112 + r.maxRanks.toNat * 20608 := by
  have hheader : headerBytes.toNat = 2112 := rfl
  have hmailbox : mailboxBytes.toNat = 20608 := rfl
  have hranks := (maxRanks_bounds r).1
  rw [Region.requiredSize, UInt64.toNat_add, UInt64.toNat_mul, hheader, hmailbox]
  omega

lemma requiredSize_le (r : Region) (setup : Setup) {offset : ℕ} (hfirst : (r.firstOffset setup).toNat ≤ offset)
    (hinside : offset ≤ r.size.toNat) : r.requiredSize.toNat ≤ offset := by
  have hrequired := requiredSize_toNat r
  obtain ⟨hranks, hfit⟩ := maxRanks_bounds r
  cases setup with
  | initialized => exact (le_alignUp (by omega)).trans hfirst
  | registered =>
    rw [Region.firstOffset, toNat_cxlHeaderSize] at hfirst
    omega

/-! ## The invariant -/

def owed (s : State) : ℕ := (s.failed.map fun f => f.2.toNat).sum

structure Inv (r : Region) (setup : Setup) (s : State) : Prop where
  frontier : ∃ top, s.allocOffset.toNat = top + owed s ∧ (r.firstOffset setup).toNat ≤ top ∧
    ∀ b ∈ s.blocks, b.offset.toNat + b.size.toNat ≤ top
  apart : s.blocks.Pairwise fun b c => Apart b.offset.toNat b.size.toNat c.offset.toNat c.size.toNat
  large : ∀ b ∈ s.blocks, b.requested.toNat ≤ b.size.toNat
  inside : ∀ b ∈ s.blocks, b.offset.toNat + b.size.toNat ≤ r.size.toNat
  first : ∀ b ∈ s.blocks, (r.firstOffset setup).toNat ≤ b.offset.toNat

lemma inv_start (r : Region) (setup : Setup) : Inv r setup (start r setup) where
  frontier := ⟨_, rfl, le_rfl, fun _ hb => nomatch hb⟩
  apart := List.Pairwise.nil
  large _ hb := nomatch hb
  inside _ hb := nomatch hb
  first _ hb := nomatch hb

variable {r : Region} {setup : Setup} {s : State}

section

variable (h : Inv r setup s)
include h

lemma Inv.contained : Contained r s where
  __ := h
  behind b hb := by
    have hinside := h.inside b hb
    exact requiredSize_le r setup (h.first b hb) (by omega)

lemma Inv.fail (thread : ℕ) (hwrap : s.allocOffset.toNat + size.toNat < 2 ^ 64) :
    Inv r setup { s with allocOffset := s.allocOffset + size, failed := (thread, size) :: s.failed } := by
  obtain ⟨top, hoffset, hfirst, hends⟩ := h.frontier
  refine ⟨⟨top, ?_, hfirst, hends⟩, h.apart, h.large, h.inside, h.first⟩
  rw [UInt64.toNat_add, Nat.mod_eq_of_lt hwrap, hoffset]
  simp only [owed, List.map_cons, List.sum_cons]
  omega

lemma Inv.succeed {requested : UInt64} (hlarge : requested.toNat ≤ size.toNat)
    (hwrap : s.allocOffset.toNat + size.toNat < 2 ^ 64) (hnone : s.failed = [])
    (hroom : s.allocOffset.toNat + size.toNat ≤ r.size.toNat) :
    Inv r setup { s with allocOffset := s.allocOffset + size,
                         blocks := ⟨s.allocOffset, requested, size⟩ :: s.blocks } := by
  obtain ⟨top, hoffset, hfirst, hends⟩ := h.frontier
  have htop : s.allocOffset.toNat = top := by rw [hoffset, owed, hnone]; rfl
  refine ⟨⟨top + size.toNat, ?_, by omega, ?_⟩, ?_, ?_, ?_, ?_⟩
  · rw [UInt64.toNat_add, Nat.mod_eq_of_lt hwrap, htop, owed, hnone]
    rfl
  · intro b hb
    rcases List.mem_cons.mp hb with rfl | hb
    · exact (congrArg (· + size.toNat) htop).le
    · exact (hends b hb).trans (Nat.le_add_right _ _)
  · refine List.pairwise_cons.mpr ⟨fun b hb => ?_, h.apart⟩
    -- the blocks handed out before end at the old offset
    have hend := hends b hb
    exact .inr (by rw [htop]; exact hend)
  · exact List.forall_mem_cons.mpr ⟨hlarge, h.large⟩
  · exact List.forall_mem_cons.mpr ⟨hroom, h.inside⟩
  · exact List.forall_mem_cons.mpr ⟨by rw [htop]; exact hfirst, h.first⟩

lemma Inv.rollBack (thread : ℕ) : Inv r setup (rollBack s thread) := by
  unfold Mpi.rollBack
  split
  · exact h
  next f hf =>
    have hmem : f ∈ s.failed := List.mem_of_find?_eq_some hf
    have howed : owed s = f.2.toNat + ((s.failed.erase f).map fun g => g.2.toNat).sum :=
      ((List.perm_cons_erase hmem).map fun g : ℕ × UInt64 => g.2.toNat).sum_eq
    obtain ⟨top, hoffset, hfirst, hends⟩ := h.frontier
    refine ⟨⟨top, ?_, hfirst, hends⟩, h.apart, h.large, h.inside, h.first⟩
    have hle : f.2 ≤ s.allocOffset := UInt64.le_iff_toNat_le.mpr (by omega)
    change (s.allocOffset - f.2).toNat = top + ((s.failed.erase f).map fun g => g.2.toNat).sum
    rw [UInt64.toNat_sub_of_le _ _ hle]
    omega

end

lemma step_inv (r : Region) (setup : Setup) (s : State) (o : Op) (h : Inv r setup s) (ho : Orderly r s o) :
    Inv r setup (step r s o) := by
  cases o with
  | fetchSub thread => exact h.rollBack thread
  | fetchAdd thread size =>
    obtain ⟨hround, hwrap, hquiet⟩ := ho
    simp only [step]
    split_ifs
    · exact h
    · have hnew : (s.allocOffset + alignUp size).toNat = s.allocOffset.toNat + (alignUp size).toNat := by
        rw [UInt64.toNat_add, Nat.mod_eq_of_lt hwrap]
      simp only [allocate, gt_iff_lt, UInt64.lt_iff_toNat_lt, hnew]
      split_ifs with hfull
      · exact h.fail thread hwrap
      · exact h.succeed (le_alignUp hround) hwrap (hquiet.resolve_right hfull) (not_lt.mp hfull)

/-- In every state reached by orderly adds the blocks are disjoint, large enough and inside the region. -/
theorem allocations_apart (r : Region) (setup : Setup) (ops : List Op)
    (hops : AllSteps (step r) (Orderly r) (start r setup) ops) : Contained r (run (step r) (start r setup) ops) :=
  (run_inv (step_inv r setup) (inv_start r setup) hops).contained

def region : Region := ⟨0x1000000, 256, rfl⟩

def orderlyOps : List Op := [.fetchAdd 0 100, .fetchAdd 1 0x2000, .fetchAdd 2 0x1000000, .fetchSub 2, .fetchAdd 0 5000]

def collidingOps : List Op :=
  [.fetchAdd 0 0xC00000, .fetchAdd 1 4096, .fetchSub 0, .fetchAdd 2 4096, .fetchSub 1, .fetchAdd 3 4096]

theorem allocations_apart_after_roll_back :
    (run (step region) (start region .registered) orderlyOps).blocks.map (fun b => (b.offset, b.size)) =
      [(5290048, 8192), (5281856, 8192), (5277760, 4096)] ∧
    Contained region (run (step region) (start region .registered) orderlyOps) :=
  ⟨by decide +kernel, allocations_apart region .registered orderlyOps (by decide +kernel)⟩

/-- ranks 0 and 1 fail, rank 0 rolls back, rank 2 succeeds, rank 1 rolls back, and rank 3 is given rank 2's block; 2^64
- 1 bytes are answered with 0 bytes; 2^64 - 4096 leave the offset before the mailboxes' end -/
theorem allocations_collide : (run (step region) (start region .registered) collidingOps).blocks =
      [⟨5281856, 4096, 4096⟩, ⟨5281856, 4096, 4096⟩] ∧
    (run (step region) (start region .registered) [.fetchAdd 0 (0 - 1)]).blocks = [⟨5277760, 0 - 1, 0⟩] ∧
    (run (step region) (start region .registered) [.fetchAdd 0 (0 - 4096), .fetchAdd 0 100]).blocks =
      [⟨5273664, 100, 4096⟩, ⟨5277760, 0 - 4096, 0 - 4096⟩] ∧
    ¬ Contained region (run (step region) (start region .registered) collidingOps) := by
  refine ⟨by decide +kernel, by decide +kernel, by decide +kernel, fun h => ?_⟩
  have hblocks : (run (step region) (start region .registered) collidingOps).blocks =
      [⟨5281856, 4096, 4096⟩, ⟨5281856, 4096, 4096⟩] := by decide +kernel
  have hapart := h.apart
  rw [hblocks] at hapart
  exact absurd hapart (by decide +kernel)

end CxlMemSim.Mpi
