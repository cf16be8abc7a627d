/-
The addresses the server advertises (`get_shm_info`) against the bytes behind them: a mapping of `shm_size` bytes has
`(shm_size - header) / 64` lines after its header, but `shm_size` bytes are advertised.

Model: a mapping whose header an earlier run has initialised keeps its base address and its number of lines
(`initialize_header`); `set_base_addr` changes the base afterwards.

Results:
* `lines_apart`, `access_ok`: addresses of the lines there are do not alias, and accesses to them are accepted.
* `advertised_apart_iff`: the whole advertised range is so, for a configuration, exactly if it is `Exact`.
* `last_line_aliases`: two configurations in which it is not.
-/
import CxlMemSim.Server.Storage

namespace CxlMemSim.Server.Advertised

open CxlMemSim.Core

/-! ## Configuration -/

/-- the capacity in MiB, that of the SSD backend (0: the same), the base address of the environment, `sizeof` the header,
base and number of lines in the header of an existing mapping, and the argument of `set_base_addr` if it is called -/
structure Config where
  backingMode : BackingMode
  capacityMb : UInt64
  ssdCapacity : UInt64
  baseAddr : UInt64
  headerSize : UInt64
  existing : Option (UInt64 × UInt64)
  nodeBase : Option UInt64
deriving DecidableEq, Repr

def sharedMemoryHeaderSize : UInt64 := 56

variable (cfg : Config) (a : UInt64)

def shmSize : UInt64 := cfg.capacityMb * 1024 * 1024

def dataCapacityBytes : UInt64 :=
  match cfg.backingMode with
  | .ssdStream => if cfg.ssdCapacity = 0 then shmSize cfg else cfg.ssdCapacity
  | .mapped => if shmSize cfg < cfg.headerSize then 0 else shmSize cfg - cfg.headerSize

def initializeHeader : UInt64 × UInt64 :=
  match cfg.backingMode, cfg.existing with
  | .mapped, some header => header
  | _, _ => (cfg.baseAddr, dataCapacityBytes cfg / 64)

def headerOf : Header := ⟨cfg.backingMode, cfg.nodeBase.getD (initializeHeader cfg).1, (initializeHeader cfg).2⟩

def dataOffset : ℕ :=
  match cfg.backingMode with
  | .ssdStream => 0
  | .mapped => cfg.headerSize.toNat

structure SharedMemoryInfo where
  size : UInt64
  baseAddr : UInt64
  numCachelines : UInt64
deriving DecidableEq, Repr

def getShmInfo : SharedMemoryInfo :=
  { size := match cfg.backingMode with
      | .ssdStream => dataCapacityBytes cfg
      | .mapped => shmSize cfg
    baseAddr := (headerOf cfg).baseAddr
    numCachelines := (headerOf cfg).numCachelines }

def InAdvertised : Prop :=
  (getShmInfo cfg).baseAddr.toNat ≤ a.toNat ∧ a.toNat < (getShmInfo cfg).baseAddr.toNat + (getShmInfo cfg).size.toNat

instance : Decidable (InAdvertised cfg a) := by unfold InAdvertised; infer_instance

def AccessInAdvertised (size : ℕ) : Prop :=
  (getShmInfo cfg).baseAddr.toNat ≤ a.toNat ∧
    a.toNat + size ≤ (getShmInfo cfg).baseAddr.toNat + (getShmInfo cfg).size.toNat

def place : ℕ := dataOffset cfg + byteOf (headerOf cfg) a

/-- the bytes of the mapping, or of the SSD backend -/
def backingBytes : ℕ := (getShmInfo cfg).size.toNat

/-! ## A node's reads and writes -/

def isLocalAddress : Bool :=
  let info := getShmInfo cfg
  a ≥ info.baseAddr && a < info.baseAddr + info.size

def servedHere (nodeId target : UInt32) (a : UInt64) : Bool :=
  target = nodeId || isLocalAddress cfg a || target = 0xFFFFFFFF

def nodeRead (nodeId target : UInt32) (mem : Buf) (a : UInt64) (buffer : Buf) (size : ℕ) (io : Io) :
    Option (Bool × Buf) :=
  if servedHere cfg nodeId target a then some (readCacheline (headerOf cfg) mem a buffer size io) else none

def nodeWrite (nodeId target : UInt32) (a : UInt64) (data : Buf) (size : ℕ) (io : Io) :
    Option (Bool × List (ℕ × UInt8)) :=
  if servedHere cfg nodeId target a then some (writeCacheline (headerOf cfg) a data size io) else none

/-- the access is served here and succeeds, if storage does -/
def Accepted (size : ℕ) : Prop :=
  ∀ nodeId target mem buffer data io, (∀ k, io k = true) →
    (nodeRead cfg nodeId target mem a buffer size io).map Prod.fst = some true ∧
      (nodeWrite cfg nodeId target a data size io).map Prod.fst = some true

/-- addresses of the advertised range are apart, none is in the header, and every access of 1 to 64 bytes inside it is
accepted -/
structure AdvertisedApart (cfg : Config) : Prop where
  apart : ∀ a b, InAdvertised cfg a → InAdvertised cfg b → a ≠ b → place cfg a ≠ place cfg b
  inside : ∀ a, InAdvertised cfg a → dataOffset cfg ≤ place cfg a ∧ place cfg a < backingBytes cfg
  accepted : ∀ a size, 0 < size → size ≤ 64 → AccessInAdvertised cfg a size → Accepted cfg a size

/-- Nothing is advertised; or the SSD backend holds whole lines from a base at the start of a line, and the range does not
reach the end of the address space; or a mapping without a header, at base 0, has a line for every advertised byte. -/
def Exact (cfg : Config) : Prop :=
  let info := getShmInfo cfg
  info.size = 0 ∨
    match cfg.backingMode with
    | .ssdStream => info.baseAddr.toNat % 64 = 0 ∧ info.size.toNat % 64 = 0 ∧
        info.baseAddr.toNat + info.size.toNat < 2 ^ 64
    | .mapped => info.baseAddr = 0 ∧ cfg.headerSize = 0 ∧ info.size.toNat ≤ info.numCachelines.toNat * 64

def oneMib (baseAddr : UInt64) : Config := ⟨.mapped, 1, 0, baseAddr, sharedMemoryHeaderSize, none, none⟩

/-- The last line has no bytes of its own. At base 0 it aliases the first, at another it is refused. -/
theorem last_line_aliases :
    (InAdvertised (oneMib 0) 0 ∧ InAdvertised (oneMib 0) 1048512 ∧ place (oneMib 0) 0 = place (oneMib 0) 1048512) ∧
      InAdvertised (oneMib 4096) 1052608 ∧ InAdvertised (oneMib 4096) 1052615 ∧
        (nodeRead (oneMib 4096) 0 0 (fun _ => 0) 1052608 (fun _ => 0) 8 fun _ => true).map Prod.fst = some false := by
  decide

/-! ## The lines there are -/

variable {hd : Header} {a b : UInt64} {io : Io} {size : ℕ} {ps : List Piece} {p : Piece}

def InLines (hd : Header) (a : UInt64) : Prop :=
  hd.baseAddr.toNat ≤ a.toNat ∧ a.toNat < hd.baseAddr.toNat + hd.numCachelines.toNat * 64

section

variable (hbase : hd.baseAddr.toNat % 64 = 0) (ha : InLines hd a)
include hbase ha

lemma cachelineToIndex_toNat :
    (cachelineToIndex hd (addrToCacheline a)).toNat = (a.toNat - hd.baseAddr.toNat) / 64 := by
  obtain ⟨hlow, hhigh⟩ := ha
  have hline := addrToCacheline_toNat a
  have h64 : (64 : UInt64).toNat = 64 := rfl
  have hnum : hd.numCachelines ≠ 0 := by
    intro h0
    rw [h0, UInt64.toNat_zero] at hhigh
    omega
  unfold cachelineToIndex
  rw [if_neg hnum]
  split_ifs with h0
  · have hb : hd.baseAddr.toNat = 0 := congrArg UInt64.toNat h0
    have hlt : a.toNat / 64 * 64 / 64 < hd.numCachelines.toNat := by omega
    rw [UInt64.toNat_mod, UInt64.toNat_div, hline, h64, Nat.mod_eq_of_lt hlt]
    omega
  · have hle : hd.baseAddr ≤ addrToCacheline a := by
      rw [UInt64.le_iff_toNat_le, hline]
      omega
    rw [UInt64.toNat_div, UInt64.toNat_sub_of_le _ _ hle, hline, h64]
    omega

lemma cachelineToIndex_lt : cachelineToIndex hd (addrToCacheline a) < hd.numCachelines := by
  rw [UInt64.lt_iff_toNat_lt, cachelineToIndex_toNat hbase ha]
  obtain ⟨hlow, hhigh⟩ := ha
  omega

/-- The byte of an address is its distance from the base, if that starts a line. -/
lemma byteOf_eq : byteOf hd a = a.toNat - hd.baseAddr.toNat := by
  have h64 : (64 : UInt64).toNat = 64 := rfl
  have ha64 := a.toNat_lt
  have hlow := ha.1
  rw [byteOf, UInt64.toNat_mul, cachelineToIndex_toNat hbase ha, lineOffset_eq, h64]
  omega

lemma lines_apart (hb : InLines hd b) (hne : a ≠ b) : byteOf hd a ≠ byteOf hd b := by
  rw [byteOf_eq hbase ha, byteOf_eq hbase hb]
  intro heq
  have := ha.1
  have := hb.1
  exact hne (UInt64.toNat_inj.1 (by omega))

end

/-! ## Accesses to the lines there are -/

def AccessInLines (hd : Header) (a : UInt64) (size : ℕ) : Prop :=
  hd.baseAddr.toNat ≤ a.toNat ∧ a.toNat + size ≤ hd.baseAddr.toNat + hd.numCachelines.toNat * 64 ∧
    a.toNat + size ≤ 2 ^ 64

lemma AccessInLines.byte (h : AccessInLines hd a size) {i : ℕ} (hi : i < size) : InLines hd (a + UInt64.ofNat i) := by
  obtain ⟨hlow, hhigh, hwrap⟩ := h
  have hadd : (a + UInt64.ofNat i).toNat = a.toNat + i := by
    rw [UInt64.toNat_add, UInt64.toNat_ofNat']
    omega
  rw [InLines, hadd]
  omega

lemma pieces_pos {addr : UInt64} {fuel done : ℕ} (h : p ∈ pieces addr size fuel done) :
    p.done < size ∧ 0 < p.bytes := by
  induction fuel generalizing done with
  | zero => cases h
  | succ fuel ih =>
    rw [pieces] at h
    split_ifs at h with hlt
    · rcases List.mem_cons.mp h with rfl | hp
      · have hline := lineOffset_lt (addr + UInt64.ofNat done)
        refine ⟨hlt, ?_⟩
        dsimp only
        omega
      · exact ih hp
    · cases h

lemma backendOffset_isSome (hbase : hd.baseAddr.toNat % 64 = 0) (h : AccessInLines hd a size)
    (hp : p ∈ pieces a size size 0) : (addressToBackendOffset hd p.addr p.bytes).isNone = false := by
  have hpiece := pieceOf_pieces hp
  obtain ⟨hdone, hpos⟩ := pieces_pos hp
  have hin : InLines hd p.addr := hpiece.at_done ▸ h.byte hdone
  have hidx := cachelineToIndex_lt hbase hin
  have hline := hpiece.in_line
  unfold addressToBackendOffset
  rw [if_neg (by omega), if_neg (by omega), if_neg (by rw [ge_iff_le, UInt64.not_le]; exact hidx)]
  rfl

lemma readPieces_ok {mem : Buf} (hio : ∀ k, io k = true) (k : ℕ) (buffer : Buf)
    (hps : ∀ p ∈ ps, (addressToBackendOffset hd p.addr p.bytes).isNone = false) :
    (readPieces hd mem io k ps buffer).1 = true := by
  induction ps generalizing k buffer with
  | nil => rfl
  | cons p ps ih =>
    rw [readPieces, hps p List.mem_cons_self, hio k]
    exact ih (k + 1) _ fun q hq => hps q (List.mem_cons_of_mem p hq)

lemma writePieces_ok {data : Buf} (hio : ∀ k, io k = true) (k : ℕ)
    (hps : ∀ p ∈ ps, (addressToBackendOffset hd p.addr p.bytes).isNone = false) :
    (writePieces hd data io k ps).1 = true := by
  induction ps generalizing k with
  | nil => rfl
  | cons p ps ih =>
    rw [writePieces, hps p List.mem_cons_self, hio k]
    exact ih (k + 1) fun q hq => hps q (List.mem_cons_of_mem p hq)

/-- the SSD backend, or a mapping that takes any address, serves every access to its lines -/
lemma access_ok (hbase : hd.baseAddr.toNat % 64 = 0) (hpos : 0 < size) (hmax : size ≤ 64) (h : AccessInLines hd a size)
    (hmode : hd.backingMode = .mapped → hd.baseAddr = 0) (hio : ∀ k, io k = true) (mem buffer data : Buf) :
    (readCacheline hd mem a buffer size io).1 = true ∧ (writeCacheline hd a data size io).1 = true := by
  have hsize : ¬ (size = 0 ∨ size > 64) := by omega
  unfold readCacheline writeCacheline
  rw [if_neg hsize, if_neg hsize]
  cases hm : hd.backingMode with
  | ssdStream =>
    exact ⟨readPieces_ok hio 0 buffer fun _ => backendOffset_isSome hbase h,
      writePieces_ok hio 0 fun _ => backendOffset_isSome hbase h⟩
  | mapped =>
    have hssd : ¬ BackingMode.mapped = .ssdStream := by decide
    rw [if_neg hssd, if_neg hssd, if_pos (hmode hm), if_pos (hmode hm)]
    exact ⟨rfl, hio 0⟩

/-! ## Advertised addresses without a line -/

variable {cfg : Config}

lemma Accepted.read (h : Accepted cfg a size) : isLocalAddress cfg a = true ∧
    (readCacheline (headerOf cfg) (fun _ => 0) a (fun _ => 0) size fun _ => true).1 = true := by
  -- the address decodes to another node
  have hread := (h 0 1 (fun _ => 0) (fun _ => 0) (fun _ => 0) (fun _ => true) fun _ => rfl).1
  unfold nodeRead at hread
  split_ifs at hread with hserved
  · exact ⟨by simpa [servedHere] using hserved, by simpa using hread⟩
  · cases hread

lemma readCacheline_ssd (hmode : hd.backingMode = .ssdStream)
    (hout : hd.numCachelines ≤ cachelineToIndex hd (addrToCacheline a)) (mem buffer : Buf) (io : Io) :
    (readCacheline hd mem a buffer 1 io).1 = false := by
  have hline : ¬ lineOffset a + 1 > 64 := by have := lineOffset_lt a; omega
  have hnone : addressToBackendOffset hd a 1 = none := by
    rw [addressToBackendOffset, if_neg one_ne_zero, if_neg hline, if_pos hout]
  rw [readCacheline, if_neg (by decide), if_pos hmode, pieces_one_line (by decide) (not_lt.mp hline), readPieces, hnone]
  rfl

lemma isLocalAddress_iff : isLocalAddress cfg a = true ↔ (getShmInfo cfg).baseAddr.toNat ≤ a.toNat ∧
    a.toNat < ((getShmInfo cfg).baseAddr.toNat + (getShmInfo cfg).size.toNat) % 2 ^ 64 := by
  simp only [isLocalAddress, Bool.and_eq_true, decide_eq_true_eq, ge_iff_le, UInt64.le_iff_toNat_le,
    UInt64.lt_iff_toNat_lt, UInt64.toNat_add]

/-- At base 0 the index of a line wraps around. -/
lemma byteOf_wraps (h0 : hd.baseAddr = 0) (hoff : a.toNat % 64 = 0)
    (hn : a.toNat / 64 % hd.numCachelines.toNat = 0 ∨ hd.numCachelines = 0) : byteOf hd a = 0 := by
  have hindex : cachelineToIndex hd (addrToCacheline a) = 0 := by
    unfold cachelineToIndex
    split_ifs with hzero
    · rfl
    · refine UInt64.toNat_inj.mp ?_
      rw [UInt64.toNat_mod, UInt64.toNat_div, addrToCacheline_toNat, show (64 : UInt64).toNat = 64 from rfl,
        Nat.mul_div_cancel _ (by decide)]
      exact hn.resolve_right hzero
  rw [byteOf, hindex, lineOffset_eq, hoff]
  rfl

lemma shmSize_mod (cfg : Config) : (shmSize cfg).toNat % 1048576 = 0 := by
  have h1024 : (1024 : UInt64).toNat = 1024 := rfl
  rw [shmSize, UInt64.toNat_mul, UInt64.toNat_mul, h1024]
  omega

lemma numCachelines_ssd (hmode : cfg.backingMode = .ssdStream) :
    (headerOf cfg).numCachelines.toNat = (getShmInfo cfg).size.toNat / 64 := by
  simp [headerOf, initializeHeader, getShmInfo, hmode, UInt64.toNat_div]

lemma Exact.lines (h : Exact cfg) (hsize : (getShmInfo cfg).size ≠ 0) :
    (headerOf cfg).baseAddr.toNat % 64 = 0 ∧
      (getShmInfo cfg).size.toNat ≤ (headerOf cfg).numCachelines.toNat * 64 ∧
      (getShmInfo cfg).baseAddr.toNat + (getShmInfo cfg).size.toNat < 2 ^ 64 ∧ dataOffset cfg = 0 ∧
      ((headerOf cfg).backingMode = .mapped → (headerOf cfg).baseAddr = 0) := by
  have h := h.resolve_left hsize
  cases hmode : cfg.backingMode with
  | ssdStream =>
    rw [hmode] at h
    refine ⟨h.1, by rw [numCachelines_ssd hmode]; omega, h.2.2, by rw [dataOffset, hmode], fun hm => ?_⟩
    rw [headerOf, hmode] at hm
    cases hm
  | mapped =>
    rw [hmode] at h
    have hzero : (headerOf cfg).baseAddr.toNat = 0 := congrArg UInt64.toNat h.1
    refine ⟨by rw [hzero], h.2.2, ?_, ?_, fun _ => h.1⟩
    · rw [show (getShmInfo cfg).baseAddr.toNat = 0 from hzero, Nat.zero_add]
      exact (getShmInfo cfg).size.toNat_lt
    · rw [dataOffset, hmode]
      exact congrArg UInt64.toNat h.2.1

section Converse

variable (h : AdvertisedApart cfg) (hsize : 0 < (getShmInfo cfg).size.toNat)
include h hsize

lemma AdvertisedApart.exact_ssd (hmode : cfg.backingMode = .ssdStream) : Exact cfg := by
  have hnum := numCachelines_ssd hmode
  have hb : (getShmInfo cfg).baseAddr = (headerOf cfg).baseAddr := rfl
  have h64 : (64 : UInt64).toNat = 64 := rfl
  have hS := (getShmInfo cfg).size.toNat_lt
  have hB := (headerOf cfg).baseAddr.toNat_lt
  have hserved : ∀ a, InAdvertised cfg a → Accepted cfg a 1 := fun a ha => h.accepted a 1 (by decide) (by decide) ha
  have hinside : ∀ a, InAdvertised cfg a →
      ¬ (headerOf cfg).numCachelines ≤ cachelineToIndex (headerOf cfg) (addrToCacheline a) := by
    intro a ha hout
    have hread := (hserved a ha).read.2
    rw [readCacheline_ssd hmode hout] at hread
    cases hread
  have hfirst : InAdvertised cfg (headerOf cfg).baseAddr := ⟨le_rfl, Nat.lt_add_of_pos_right hsize⟩
  have hwrap := (isLocalAddress_iff.mp (hserved _ hfirst).read.1).2
  rw [hb] at hwrap
  have hbase : (headerOf cfg).baseAddr.toNat % 64 = 0 := by
    by_contra hodd
    -- the line of the base begins before it: its index is too great
    have hne : (headerOf cfg).baseAddr ≠ 0 := fun h0 => hodd (by rw [h0]; rfl)
    refine hinside _ hfirst (UInt64.le_iff_toNat_le.mpr ?_)
    unfold cachelineToIndex
    split_ifs with h0
    · rw [h0]
    · rw [UInt64.toNat_div, UInt64.toNat_sub, addrToCacheline_toNat, h64, hnum]
      omega
  refine .inr ?_
  rw [hmode, hb]
  refine ⟨hbase, ?_, by omega⟩
  by_contra hodd
  -- the first address after the whole lines
  have ha : (UInt64.ofNat ((headerOf cfg).baseAddr.toNat + (getShmInfo cfg).size.toNat / 64 * 64)).toNat =
      (headerOf cfg).baseAddr.toNat + (getShmInfo cfg).size.toNat / 64 * 64 := by
    rw [UInt64.toNat_ofNat']
    omega
  generalize UInt64.ofNat ((headerOf cfg).baseAddr.toNat + (getShmInfo cfg).size.toNat / 64 * 64) = a at ha
  have hin : InAdvertised cfg a := by rw [InAdvertised, hb]; omega
  have hindex := hinside a hin
  rw [UInt64.le_iff_toNat_le, hnum] at hindex
  have hline := addrToCacheline_toNat a
  by_cases h0 : (headerOf cfg).baseAddr = 0
  · have hzero : (headerOf cfg).baseAddr.toNat = 0 := congrArg UInt64.toNat h0
    by_cases hn : (headerOf cfg).numCachelines = 0
    · rw [cachelineToIndex, if_pos hn, ← hnum, hn] at hindex
      exact hindex le_rfl
    · have hpos : 0 < (headerOf cfg).numCachelines.toNat := Nat.pos_of_ne_zero fun hz => hn (UInt64.toNat_inj.mp hz)
      refine h.apart (headerOf cfg).baseAddr a hfirst hin (fun heq => ?_) ?_
      · rw [← heq] at ha
        omega
      · rw [place, place, byteOf_wraps h0 hbase (.inl (by rw [hzero, Nat.zero_div, Nat.zero_mod])),
          byteOf_wraps h0 (by omega) (.inl ?_)]
        rw [ha, hzero, Nat.zero_add, Nat.mul_div_cancel _ (by decide), hnum]
        exact Nat.mod_self _
  · refine hindex ?_
    unfold cachelineToIndex
    have hle : (headerOf cfg).baseAddr ≤ addrToCacheline a := by
      rw [UInt64.le_iff_toNat_le, hline]
      omega
    split_ifs with hn
    · rw [← hnum, hn]
    · rw [UInt64.toNat_div, UInt64.toNat_sub_of_le _ _ hle, hline, h64]
      omega

lemma AdvertisedApart.exact_mapped (hmode : cfg.backingMode = .mapped) : Exact cfg := by
  have hm : ¬ (headerOf cfg).backingMode = .ssdStream := by simp [headerOf, hmode]
  have hmod : (getShmInfo cfg).size.toNat % 1048576 = 0 := by
    simpa only [getShmInfo, hmode] using shmSize_mod cfg
  have hb : (getShmInfo cfg).baseAddr = (headerOf cfg).baseAddr := rfl
  have hS := (getShmInfo cfg).size.toNat_lt
  have hB := (headerOf cfg).baseAddr.toNat_lt
  have hzero : (headerOf cfg).baseAddr = 0 := by
    by_contra hne
    -- two bytes at the end of the first line
    have ha : (UInt64.ofNat ((headerOf cfg).baseAddr.toNat / 64 * 64 + 63)).toNat =
        (headerOf cfg).baseAddr.toNat / 64 * 64 + 63 := by
      rw [UInt64.toNat_ofNat']
      omega
    have hread := (h.accepted _ 2 (by decide) (by decide) ⟨by rw [ha, hb]; omega, by rw [ha, hb]; omega⟩).read.2
    rw [readCacheline, if_neg (by decide), if_neg hm, if_neg hne] at hread
    have hcross : lineOffset (UInt64.ofNat ((headerOf cfg).baseAddr.toNat / 64 * 64 + 63)) + 2 > 64 := by
      rw [lineOffset_eq, ha]
      omega
    simp only [if_pos hcross, ite_self, Bool.false_eq_true] at hread
  have hbase : (headerOf cfg).baseAddr.toNat = 0 := congrArg UInt64.toNat hzero
  have hin : ∀ a : UInt64, a.toNat < (getShmInfo cfg).size.toNat → InAdvertised cfg a := fun a ha => by
    rw [InAdvertised, hb, hbase]
    omega
  have hlines : (getShmInfo cfg).size.toNat ≤ (headerOf cfg).numCachelines.toNat * 64 := by
    by_contra hfew
    -- the line after the last one has the bytes of line 0
    have ha : (UInt64.ofNat (max (headerOf cfg).numCachelines.toNat 1 * 64)).toNat =
        max (headerOf cfg).numCachelines.toNat 1 * 64 := by
      rw [UInt64.toNat_ofNat']
      omega
    generalize UInt64.ofNat (max (headerOf cfg).numCachelines.toNat 1 * 64) = a at ha
    refine h.apart 0 a (hin 0 hsize) (hin a (by omega)) (fun heq => ?_) ?_
    · rw [← heq, UInt64.toNat_zero] at ha
      omega
    · rw [place, place, byteOf_wraps hzero (a := 0) rfl (.inl (Nat.zero_mod _)), byteOf_wraps hzero (by omega) ?_]
      by_cases hn : (headerOf cfg).numCachelines = 0
      · exact .inr hn
      · have hpos : 0 < (headerOf cfg).numCachelines.toNat := Nat.pos_of_ne_zero fun hz => hn (UInt64.toNat_inj.mp hz)
        rw [ha, Nat.max_eq_left hpos, Nat.mul_div_cancel _ (by decide)]
        exact .inl (Nat.mod_self _)
  refine .inr ?_
  rw [hmode]
  refine ⟨hzero, UInt64.toNat_inj.mp ?_, hlines⟩
  -- the last advertised byte
  have ha : (UInt64.ofNat ((getShmInfo cfg).size.toNat - 1)).toNat = (getShmInfo cfg).size.toNat - 1 := by
    rw [UInt64.toNat_ofNat']
    omega
  have hlast := (h.inside _ (hin _ (by rw [ha]; omega))).2
  have hoffset : dataOffset cfg = cfg.headerSize.toNat := by rw [dataOffset, hmode]
  rw [place, byteOf_eq (by rw [hbase]) ⟨by rw [hbase]; exact Nat.zero_le _, by rw [ha, hbase]; omega⟩, ha, hbase,
    hoffset, backingBytes] at hlast
  rw [UInt64.toNat_zero]
  omega

end Converse

/-- Every address of the advertised range has a byte of its own and every access inside it is accepted, exactly in the
configurations that are `Exact`. -/
theorem advertised_apart_iff (cfg : Config) : AdvertisedApart cfg ↔ Exact cfg := by
  by_cases hsize : (getShmInfo cfg).size = 0
  · have hzero : (getShmInfo cfg).size.toNat = 0 := congrArg UInt64.toNat hsize
    have hnone : ∀ a, ¬ InAdvertised cfg a := fun a ha => by have := ha.1; have := ha.2; omega
    refine iff_of_true ⟨fun a b ha => absurd ha (hnone a), fun a ha => absurd ha (hnone a), ?_⟩ (.inl hsize)
    intro a size hpos _ ha
    have := ha.1
    have := ha.2
    omega
  · have hpos : 0 < (getShmInfo cfg).size.toNat := Nat.pos_of_ne_zero fun hz => hsize (UInt64.toNat_inj.mp hz)
    constructor
    · intro h
      cases hmode : cfg.backingMode with
      | ssdStream => exact h.exact_ssd hpos hmode
      | mapped => exact h.exact_mapped hpos hmode
    · intro h
      obtain ⟨hbase, hlines, hwrap, hoffset, hmapped⟩ := Exact.lines h hsize
      have hin : ∀ a, InAdvertised cfg a → InLines (headerOf cfg) a := fun a ha => ⟨ha.1, ha.2.trans_le (by
        exact Nat.add_le_add_left hlines _)⟩
      refine ⟨fun a b ha hb hne heq => ?_, fun a ha => ?_, fun a size hpos hmax ha nodeId target mem buffer data io hio => ?_⟩
      · rw [place, place] at heq
        exact lines_apart hbase (hin a ha) (hin b hb) hne (Nat.add_left_cancel heq)
      · rw [place, hoffset, byteOf_eq hbase (hin a ha), backingBytes]
        have hlow := ha.1
        have hhigh := ha.2
        rw [show (getShmInfo cfg).baseAddr = (headerOf cfg).baseAddr from rfl] at hlow hhigh
        omega
      · have hlocal : isLocalAddress cfg a = true := by
          have hlow := ha.1
          have hhigh := ha.2
          rw [isLocalAddress_iff, Nat.mod_eq_of_lt hwrap]
          omega
        have haccess : AccessInLines (headerOf cfg) a size :=
          ⟨ha.1, ha.2.trans (Nat.add_le_add_left hlines _), ha.2.trans hwrap.le⟩
        obtain ⟨hread, hwrite⟩ := access_ok hbase hpos hmax haccess hmapped hio mem buffer data
        simp [nodeRead, nodeWrite, servedHere, hlocal, hread, hwrite]

end CxlMemSim.Server.Advertised
