/-
The simulated memory of the server (`SharedMemoryManager`): addresses, stored bytes, and accesses of at most one
cacheline.

Model: an access is a list of pieces, one per cacheline. `Io` gives the outcome of each backend call or `msync`. A write
yields the stores it carries out; those before a failing piece stay.
-/
import CxlMemSim.Core.Bytes
import CxlMemSim.Core.Range

namespace CxlMemSim.Server

open CxlMemSim.Core

/-! ## Addresses -/

inductive BackingMode where
  | mapped
  | ssdStream
deriving DecidableEq, Repr

structure Header where
  backingMode : BackingMode
  baseAddr : UInt64
  numCachelines : UInt64
deriving DecidableEq, Repr

def addrToCacheline (addr : UInt64) : UInt64 := addr &&& 0xFFFFFFFFFFFFFFC0

def lineOffset (addr : UInt64) : ℕ := (addr - addrToCacheline addr).toNat

variable (hd : Header) (mem : Buf)

def cachelineToIndex (cachelineAddr : UInt64) : UInt64 :=
  if hd.numCachelines = 0 then 0
  -- any address is accepted and wraps around the lines there are
  else if hd.baseAddr = 0 then (cachelineAddr / 64) % hd.numCachelines
  else (cachelineAddr - hd.baseAddr) / 64

variable (addr : UInt64)

def byteOf : ℕ := (cachelineToIndex hd (addrToCacheline addr) * 64).toNat + lineOffset addr

def isValidAddress : Bool := hd.baseAddr = 0 || (addr ≥ hd.baseAddr && addr < hd.baseAddr + hd.numCachelines * 64)

def addressToBackendOffset (accessSize : ℕ) : Option ℕ :=
  if accessSize = 0 then none
  else if lineOffset addr + accessSize > 64 then none
  else if cachelineToIndex hd (addrToCacheline addr) ≥ hd.numCachelines then none
  else some (byteOf hd addr)

def hasCachelineData (cachelineAddr : UInt64) : Bool :=
  match hd.backingMode with
  | .ssdStream => false
  | .mapped => hd.baseAddr = 0 || (cachelineAddr ≥ hd.baseAddr && cachelineToIndex hd cachelineAddr < hd.numCachelines)

/-! ## Accesses -/

abbrev Io := ℕ → Bool

structure Piece where
  addr : UInt64
  done : ℕ
  bytes : ℕ
deriving DecidableEq, Repr

def pieces (addr : UInt64) (size : ℕ) : ℕ → ℕ → List Piece
  | 0, _ => []
  | fuel + 1, done =>
    if done < size then
      let current := addr + UInt64.ofNat done
      let bytes := min (size - done) (64 - lineOffset current)
      ⟨current, done, bytes⟩ :: pieces addr size fuel (done + bytes)
    else []

def copyOut (buffer : Buf) (p : Piece) : Buf := memcpy buffer p.done mem (byteOf hd p.addr) p.bytes

def readPieces (hd : Header) (mem : Buf) (io : Io) : ℕ → List Piece → Buf → Bool × Buf
  | _, [], buffer => (true, buffer)
  | k, p :: ps, buffer =>
    if (addressToBackendOffset hd p.addr p.bytes).isNone then (false, buffer)
    else if !io k then (false, buffer)
    else readPieces hd mem io (k + 1) ps (copyOut hd mem buffer p)

def readCacheline (buffer : Buf) (size : ℕ) (io : Io) : Bool × Buf :=
  if size = 0 ∨ size > 64 then (false, buffer)
  else if hd.backingMode = .ssdStream then readPieces hd mem io 0 (pieces addr size size 0) buffer
  else if hd.baseAddr = 0 then (true, (pieces addr size size 0).foldl (copyOut hd mem) buffer)
  else if !hasCachelineData hd (addrToCacheline addr) then (false, buffer)
  else if lineOffset addr + size > 64 then (false, buffer)
  else (true, memcpy buffer 0 mem (byteOf hd addr) size)

def copyIn (data : Buf) (p : Piece) : List (ℕ × UInt8) :=
  (List.range p.bytes).map fun i => (byteOf hd p.addr + i, data (p.done + i))

def writePieces (hd : Header) (data : Buf) (io : Io) : ℕ → List Piece → Bool × List (ℕ × UInt8)
  | _, [] => (true, [])
  | k, p :: ps =>
    if (addressToBackendOffset hd p.addr p.bytes).isNone then (false, [])
    else if !io k then (false, [])
    else
      let rest := writePieces hd data io (k + 1) ps
      (rest.1, copyIn hd data p ++ rest.2)

/-- the answer and the bytes stored; a mapped write is stored even when `msync` fails -/
def writeCacheline (data : Buf) (size : ℕ) (io : Io) : Bool × List (ℕ × UInt8) :=
  if size = 0 ∨ size > 64 then (false, [])
  else if hd.backingMode = .ssdStream then writePieces hd data io 0 (pieces addr size size 0)
  else if hd.baseAddr = 0 then (io 0, (pieces addr size size 0).flatMap (copyIn hd data))
  else if !hasCachelineData hd (addrToCacheline addr) then (false, [])
  else if lineOffset addr + size > 64 then (false, [])
  else (io 0, copyIn hd data ⟨addr, 0, size⟩)

structure AtomicResult where
  ok : Bool
  oldValue : UInt64
  stores : List (ℕ × UInt8)

def loadWord : UInt64 := UInt64.ofNat (loadLE mem (byteOf hd addr) 8)

def storeWord (value : UInt64) : List (ℕ × UInt8) := copyIn hd (byteLE value.toNat) ⟨addr, 0, 8⟩

def atomicFetchAddUint64 (value : UInt64) (read write : Io) : AtomicResult :=
  if lineOffset addr + 8 > 64 then ⟨false, 0, []⟩
  else if hd.backingMode = .ssdStream then
    let got := readCacheline hd mem addr (fun _ => 0) 8 read
    if !got.1 then ⟨false, 0, []⟩
    else
      let current := UInt64.ofNat (loadLE got.2 0 8)
      let put := writeCacheline hd addr (byteLE (current + value).toNat) 8 write
      ⟨put.1, current, put.2⟩
  else if !hasCachelineData hd (addrToCacheline addr) then ⟨false, 0, []⟩
  else ⟨true, loadWord hd mem addr, storeWord hd addr (loadWord hd mem addr + value)⟩

def atomicCompareExchangeUint64 (expected desired : UInt64) (read write : Io) : AtomicResult :=
  if lineOffset addr + 8 > 64 then ⟨false, 0, []⟩
  else if hd.backingMode = .ssdStream then
    let got := readCacheline hd mem addr (fun _ => 0) 8 read
    if !got.1 then ⟨false, 0, []⟩
    else
      let current := UInt64.ofNat (loadLE got.2 0 8)
      if current ≠ expected then ⟨true, current, []⟩
      else
        let put := writeCacheline hd addr (byteLE desired.toNat) 8 write
        ⟨put.1, current, put.2⟩
  else if !hasCachelineData hd (addrToCacheline addr) then ⟨false, 0, []⟩
  else
    let current := loadWord hd mem addr
    ⟨true, current, if current = expected then storeWord hd addr desired else []⟩

/-! ## Where a byte lives -/

lemma addrToCacheline_toNat (a : UInt64) : (addrToCacheline a).toNat = a.toNat / 64 * 64 := by
  rw [addrToCacheline, UInt64.toNat_and]
  exact Core.and_highMask (by norm_num : 6 ≤ 64) a.toNat_lt

lemma lineOffset_eq (a : UInt64) : lineOffset a = a.toNat % 64 := by
  have h := addrToCacheline_toNat a
  have hle : addrToCacheline a ≤ a := by rw [UInt64.le_iff_toNat_le, h]; omega
  rw [lineOffset, UInt64.toNat_sub_of_le _ _ hle, h]
  omega

lemma lineOffset_lt (a : UInt64) : lineOffset a < 64 := by rw [lineOffset_eq]; omega

variable {addr} {a : UInt64} {j fuel : ℕ} {p : Piece} {i : ℕ} {hd : Header} {mem buffer : Buf} {io : Io} {k : ℕ}
  {data : Buf}
  {o : ℕ} {v : UInt8} {value expected desired : UInt64}

lemma add_toNat (h : lineOffset a + j < 64) : (a + UInt64.ofNat j).toNat = a.toNat + j := by
  rw [lineOffset_eq] at h
  have ha := a.toNat_lt
  rw [UInt64.toNat_add, UInt64.toNat_ofNat']
  omega

lemma lineOffset_add (h : lineOffset a + j < 64) : lineOffset (a + UInt64.ofNat j) = lineOffset a + j := by
  have hadd := add_toNat h
  rw [lineOffset_eq] at h ⊢
  rw [hadd, lineOffset_eq]
  omega

lemma addrToCacheline_add (h : lineOffset a + j < 64) : addrToCacheline (a + UInt64.ofNat j) = addrToCacheline a := by
  have hadd := add_toNat h
  rw [lineOffset_eq] at h
  rw [← UInt64.toNat_inj, addrToCacheline_toNat, addrToCacheline_toNat, hadd]
  omega

lemma byteOf_add (hd : Header) (h : lineOffset a + j < 64) : byteOf hd (a + UInt64.ofNat j) = byteOf hd a + j := by
  rw [byteOf, byteOf, addrToCacheline_add h, lineOffset_add h, Nat.add_assoc]

/-- the part of the access that starts `done` bytes after its address, within one line -/
structure PieceOf (addr : UInt64) (size : ℕ) (p : Piece) : Prop where
  at_done : p.addr = addr + UInt64.ofNat p.done
  inside : p.done + p.bytes ≤ size
  in_line : lineOffset p.addr + p.bytes ≤ 64

variable {done size : ℕ}

lemma pieceOf_pieces (h : p ∈ pieces addr size fuel done) : PieceOf addr size p := by
  induction fuel generalizing done with
  | zero => cases h
  | succ fuel ih =>
    rw [pieces] at h
    split_ifs at h with hlt
    · rcases List.mem_cons.mp h with rfl | hp
      · have hline := lineOffset_lt (addr + UInt64.ofNat done)
        exact ⟨rfl, by dsimp only; omega, by dsimp only; omega⟩
      · exact ih hp
    · cases h

lemma PieceOf.byteOf (hp : PieceOf addr size p) (hd : Header)
    (hi : i < p.bytes) : byteOf hd p.addr + i = byteOf hd (addr + UInt64.ofNat (p.done + i)) := by
  have hline := hp.in_line
  rw [← byteOf_add hd (by omega), hp.at_done, UInt64.add_assoc, ← UInt64.ofNat_add]

lemma pieceOf_whole (h : lineOffset addr + size ≤ 64) : PieceOf addr size ⟨addr, 0, size⟩ := ⟨by simp, by simp, h⟩

lemma pieces_one_line (hpos : 0 < size) (hline : lineOffset addr + size ≤ 64) :
    pieces addr size size 0 = [⟨addr, 0, size⟩] := by
  obtain ⟨n, rfl⟩ := Nat.exists_eq_succ_of_ne_zero hpos.ne'
  have hmin : min (n + 1) (64 - lineOffset addr) = n + 1 := by omega
  have hend : pieces addr (n + 1) n (n + 1) = [] := by cases n <;> simp [pieces]
  have hzero : addr + UInt64.ofNat 0 = addr := UInt64.add_zero addr
  rw [pieces, if_pos (Nat.succ_pos n)]
  simp only [hzero, Nat.sub_zero, Nat.succ_eq_add_one, hmin, Nat.zero_add, hend]

def Filled (hd : Header) (mem : Buf) (addr : UInt64) (n : ℕ) (buffer : Buf) : Prop :=
  ∀ i < n, buffer i = mem (byteOf hd (addr + UInt64.ofNat i))

lemma Filled.copyOut {n : ℕ} (hf : Filled hd mem addr n buffer) (hp : PieceOf addr size p) (hn : p.done = n) :
    Filled hd mem addr (n + p.bytes) (copyOut hd mem buffer p) := by
  intro i hi
  rw [Server.copyOut]
  by_cases hin : p.done ≤ i ∧ i < p.done + p.bytes
  · rw [memcpy_of_mem hin, hp.byteOf hd (by omega), Nat.add_sub_cancel' hin.1]
  · rw [memcpy_of_not_mem hin]
    exact hf i (by omega)

lemma filled_foldl (hf : Filled hd mem addr done buffer) (hfuel : size ≤ done + fuel) (hle : done ≤ size) :
    Filled hd mem addr size ((pieces addr size fuel done).foldl (copyOut hd mem) buffer) := by
  induction fuel generalizing done buffer with
  | zero =>
    have : done = size := by omega
    exact this ▸ hf
  | succ fuel ih =>
    rw [pieces]
    split_ifs with hlt
    · have hline := lineOffset_lt (addr + UInt64.ofNat done)
      have hp : PieceOf addr size
          ⟨addr + UInt64.ofNat done, done, min (size - done) (64 - lineOffset (addr + UInt64.ofNat done))⟩ :=
        ⟨rfl, by dsimp only; omega, by dsimp only; omega⟩
      exact ih (hf.copyOut hp rfl) (by omega) (by omega)
    · have : done = size := by omega
      exact this ▸ hf

variable {ps : List Piece}

lemma readPieces_eq_foldl (h : (readPieces hd mem io k ps buffer).1 = true) :
    (readPieces hd mem io k ps buffer).2 = ps.foldl (copyOut hd mem) buffer := by
  induction ps generalizing k buffer with
  | nil => rfl
  | cons p ps ih =>
    rw [readPieces] at h ⊢
    split_ifs at h ⊢ with h1 h2
    exact ih h

/-- A read returns the bytes its addresses are mapped to. -/
lemma readCacheline_byte (h : (readCacheline hd mem addr buffer size io).1 = true) (hi : i < size) :
    (readCacheline hd mem addr buffer size io).2 i = mem (byteOf hd (addr + UInt64.ofNat i)) := by
  have hloop : Filled hd mem addr size ((pieces addr size size 0).foldl (copyOut hd mem) buffer) :=
    filled_foldl (fun i hi => absurd hi (Nat.not_lt_zero i)) (by omega) (Nat.zero_le _)
  unfold readCacheline at h ⊢
  split_ifs at h ⊢ with h1 h2 h3 h4 h5
  · rw [readPieces_eq_foldl h]
    exact hloop i hi
  · exact hloop i hi
  · have hf : Filled hd mem addr 0 buffer := fun i hi => absurd hi (Nat.not_lt_zero i)
    have hpiece : PieceOf addr size ⟨addr, 0, size⟩ := pieceOf_whole (by omega)
    have := hf.copyOut hpiece rfl
    exact this i (by simpa using hi)

/-! ## Writes -/

lemma mem_copyIn (hp : PieceOf addr size p) (h : (o, v) ∈ copyIn hd data p) :
    ∃ i < size, o = byteOf hd (addr + UInt64.ofNat i) ∧ v = data i := by
  obtain ⟨i, hi, heq⟩ := List.mem_map.mp h
  rw [List.mem_range] at hi
  obtain ⟨rfl, rfl⟩ := Prod.mk.inj heq
  have hin := hp.inside
  exact ⟨p.done + i, by omega, hp.byteOf hd hi, rfl⟩

variable {s : ℕ × UInt8}

lemma mem_writePieces (h : s ∈ (writePieces hd data io k ps).2) : ∃ p ∈ ps, s ∈ copyIn hd data p := by
  induction ps generalizing k with
  | nil => cases h
  | cons p ps ih =>
    rw [writePieces] at h
    split_ifs at h with h1 h2
    · cases h
    · cases h
    · rcases List.mem_append.mp h with hp | hps
      · exact ⟨p, List.mem_cons_self, hp⟩
      · obtain ⟨q, hq, hs⟩ := ih hps
        exact ⟨q, List.mem_cons_of_mem _ hq, hs⟩

/-- A write stores only bytes its own addresses are mapped to, with its own data. -/
lemma writeCacheline_mem (h : (o, v) ∈ (writeCacheline hd addr data size io).2) :
    ∃ i < size, o = byteOf hd (addr + UInt64.ofNat i) ∧ v = data i := by
  unfold writeCacheline at h
  split_ifs at h with h1 h2 h3 h4 h5
  · cases h
  · obtain ⟨p, hp, hs⟩ := mem_writePieces h
    exact mem_copyIn (pieceOf_pieces hp) hs
  · obtain ⟨p, hp, hs⟩ := List.mem_flatMap.mp h
    exact mem_copyIn (pieceOf_pieces hp) hs
  · cases h
  · cases h
  · exact mem_copyIn (pieceOf_whole (by omega)) h

lemma exists_piece (hfuel : size ≤ done + fuel) (hdone : done ≤ i)
    (hi : i < size) : ∃ p ∈ pieces addr size fuel done, p.done ≤ i ∧ i < p.done + p.bytes := by
  induction fuel generalizing done with
  | zero => omega
  | succ fuel ih =>
    have hline := lineOffset_lt (addr + UInt64.ofNat done)
    rw [pieces, if_pos (by omega)]
    dsimp only
    by_cases hin : i < done + min (size - done) (64 - lineOffset (addr + UInt64.ofNat done))
    · exact ⟨_, List.mem_cons_self, hdone, hin⟩
    · obtain ⟨p, hp, h⟩ := @ih (done + min (size - done) (64 - lineOffset (addr + UInt64.ofNat done)))
        (by omega) (by omega)
      exact ⟨p, List.mem_cons_of_mem _ hp, h⟩

lemma mem_copyIn_of_mem (hd : Header) (data : Buf) (hp : PieceOf addr size p) (hle : p.done ≤ i)
    (hlt : i < p.done + p.bytes) : (byteOf hd (addr + UInt64.ofNat i), data i) ∈ copyIn hd data p := by
  refine List.mem_map.mpr ⟨i - p.done, List.mem_range.mpr (by omega), ?_⟩
  rw [hp.byteOf hd (by omega), Nat.add_sub_cancel' hle]

lemma mem_writePieces_of_mem (hok : (writePieces hd data io k ps).1 = true) (hp : p ∈ ps) (hs : s ∈ copyIn hd data p) :
    s ∈ (writePieces hd data io k ps).2 := by
  induction ps generalizing k with
  | nil => cases hp
  | cons q ps ih =>
    rw [writePieces] at hok ⊢
    split_ifs at hok ⊢ with h1 h2
    rcases List.mem_cons.mp hp with rfl | hin
    · exact List.mem_append_left _ hs
    · exact List.mem_append_right _ (ih hok hin)

lemma writeCacheline_size (hok : (writeCacheline hd addr data size io).1 = true) : size ≤ 64 := by
  by_contra hsize
  simp [writeCacheline, if_pos (show size = 0 ∨ size > 64 by omega)] at hok

/-- A write that succeeds stores each of its bytes. -/
lemma mem_writeCacheline (hok : (writeCacheline hd addr data size io).1 = true) (hi : i < size) :
    (byteOf hd (addr + UInt64.ofNat i), data i) ∈ (writeCacheline hd addr data size io).2 := by
  obtain ⟨p, hp, hle, hlt⟩ : ∃ p ∈ pieces addr size size 0, p.done ≤ i ∧ i < p.done + p.bytes :=
    exists_piece (by omega) (Nat.zero_le i) hi
  have hin := mem_copyIn_of_mem hd data (pieceOf_pieces hp) hle hlt
  unfold writeCacheline at hok ⊢
  split_ifs at hok ⊢ with h1 h2 h3 h4 h5
  · exact mem_writePieces_of_mem hok hp hin
  · exact List.mem_flatMap.mpr ⟨p, hp, hin⟩
  · exact mem_copyIn_of_mem hd data (pieceOf_whole (by omega)) (Nat.zero_le i) (by simpa using hi)

lemma storeWord_mem (hline : lineOffset addr + 8 ≤ 64) (h : (o, v) ∈ storeWord hd addr value) :
    ∃ i < 8, o = byteOf hd (addr + UInt64.ofNat i) ∧ v = byteLE value.toNat i :=
  mem_copyIn (pieceOf_whole hline) h

variable {read write : Io}

lemma atomicFetchAddUint64_mem (h : (o, v) ∈ (atomicFetchAddUint64 hd mem addr value read write).stores) :
    ∃ i < 8, o = byteOf hd (addr + UInt64.ofNat i) := by
  unfold atomicFetchAddUint64 at h
  dsimp only at h
  split_ifs at h with h1 h2 h3 h4
  · simp at h
  · simp at h
  · obtain ⟨i, hi, ho, -⟩ := writeCacheline_mem h
    exact ⟨i, hi, ho⟩
  · simp at h
  · obtain ⟨i, hi, ho, -⟩ := storeWord_mem (by omega) h
    exact ⟨i, hi, ho⟩

lemma atomicCompareExchangeUint64_mem
    (h : (o, v) ∈ (atomicCompareExchangeUint64 hd mem addr expected desired read write).stores) :
    ∃ i < 8, o = byteOf hd (addr + UInt64.ofNat i) := by
  unfold atomicCompareExchangeUint64 at h
  dsimp only at h
  split_ifs at h with h1 h2 h3 h4 h5 h6
  · simp at h
  · simp at h
  · simp at h
  · obtain ⟨i, hi, ho, -⟩ := writeCacheline_mem h
    exact ⟨i, hi, ho⟩
  · simp at h
  · obtain ⟨i, hi, ho, -⟩ := storeWord_mem (by omega) h
    exact ⟨i, hi, ho⟩
  · simp at h

lemma readCacheline_word (hline : lineOffset addr + 8 ≤ 64) (h : (readCacheline hd mem addr buffer 8 io).1 = true) :
    UInt64.ofNat (loadLE (readCacheline hd mem addr buffer 8 io).2 0 8) = loadWord hd mem addr := by
  have hbytes : ∀ i < 8, (readCacheline hd mem addr buffer 8 io).2 (0 + i) = mem (byteOf hd addr + i) := by
    intro i hi
    rw [Nat.zero_add, readCacheline_byte h hi, byteOf_add hd (by omega)]
  rw [loadWord, loadLE_congr hbytes]

lemma atomicFetchAddUint64_line (h : (atomicFetchAddUint64 hd mem addr value read write).ok = true) :
    lineOffset addr + 8 ≤ 64 := by
  by_contra hline
  simp [atomicFetchAddUint64, if_pos (Nat.lt_of_not_le hline)] at h

lemma atomicCompareExchangeUint64_line
    (h : (atomicCompareExchangeUint64 hd mem addr expected desired read write).ok = true) :
    lineOffset addr + 8 ≤ 64 := by
  by_contra hline
  simp [atomicCompareExchangeUint64, if_pos (Nat.lt_of_not_le hline)] at h

lemma atomicFetchAddUint64_old (h : (atomicFetchAddUint64 hd mem addr value read write).ok = true) :
    (atomicFetchAddUint64 hd mem addr value read write).oldValue = loadWord hd mem addr := by
  unfold atomicFetchAddUint64 at h ⊢
  dsimp only at h ⊢
  split_ifs at h ⊢ with h1 h2 h3 h4
  · exact readCacheline_word (by omega) (by simpa using h3)
  · rfl

lemma atomicCompareExchangeUint64_old
    (h : (atomicCompareExchangeUint64 hd mem addr expected desired read write).ok = true) :
    (atomicCompareExchangeUint64 hd mem addr expected desired read write).oldValue = loadWord hd mem addr := by
  unfold atomicCompareExchangeUint64 at h ⊢
  dsimp only at h ⊢
  split_ifs at h ⊢ with h1 h2 h3 h4 h5
  · exact readCacheline_word (by omega) (by simpa using h3)
  · exact readCacheline_word (by omega) (by simpa using h3)
  · rfl
  · rfl

structure StoresBytes (hd : Header) (addr : UInt64) (data : Buf) (size : ℕ) (stores : List (ℕ × UInt8)) : Prop where
  all : ∀ i < size, (byteOf hd (addr + UInt64.ofNat i), data i) ∈ stores
  only : ∀ o v, (o, v) ∈ stores → ∃ i < size, o = byteOf hd (addr + UInt64.ofNat i) ∧ v = data i

abbrev StoresWord (hd : Header) (addr word : UInt64) (stores : List (ℕ × UInt8)) : Prop :=
  StoresBytes hd addr (byteLE word.toNat) 8 stores

lemma storesBytes_writeCacheline (hok : (writeCacheline hd addr data size io).1 = true) :
    StoresBytes hd addr data size (writeCacheline hd addr data size io).2 :=
  ⟨fun _ hi => mem_writeCacheline hok hi, fun _ _ h => writeCacheline_mem h⟩

lemma storesWord_storeWord {addr word : UInt64} (hline : lineOffset addr + 8 ≤ 64) :
    StoresWord hd addr word (storeWord hd addr word) :=
  ⟨fun i hi => mem_copyIn_of_mem _ _ (pieceOf_whole hline) (Nat.zero_le i) (by simpa using hi),
    fun _ _ h => storeWord_mem hline h⟩

lemma atomicFetchAddUint64_stores (h : (atomicFetchAddUint64 hd mem addr value read write).ok = true) :
    StoresWord hd addr (loadWord hd mem addr + value) (atomicFetchAddUint64 hd mem addr value read write).stores := by
  have hold := atomicFetchAddUint64_old h
  have hline := atomicFetchAddUint64_line h
  unfold atomicFetchAddUint64 at h hold ⊢
  dsimp only at h hold ⊢
  split_ifs at h hold ⊢ with h1 h2 h3 h4
  · rw [← hold]
    exact storesBytes_writeCacheline h
  · exact storesWord_storeWord hline

variable (h : (atomicCompareExchangeUint64 hd mem addr expected desired read write).ok = true)
include h

lemma atomicCompareExchangeUint64_stores (hfound : loadWord hd mem addr = expected) :
    StoresWord hd addr desired (atomicCompareExchangeUint64 hd mem addr expected desired read write).stores := by
  have hline := atomicCompareExchangeUint64_line h
  unfold atomicCompareExchangeUint64 at h ⊢
  dsimp only at h ⊢
  rw [if_neg (Nat.not_lt.mpr hline)] at h ⊢
  by_cases hssd : hd.backingMode = .ssdStream
  · rw [if_pos hssd] at h ⊢
    by_cases hread : (readCacheline hd mem addr (fun _ => 0) 8 read).1 = true
    · have hword := (readCacheline_word hline hread).trans hfound
      rw [if_neg (by simp [hread]), if_neg (not_not.mpr hword)] at h ⊢
      exact storesBytes_writeCacheline h
    · rw [if_pos (by simpa using hread)] at h
      cases h
  · rw [if_neg hssd] at h ⊢
    by_cases hdata : hasCachelineData hd (addrToCacheline addr) = true
    · rw [if_neg (by simp [hdata])]
      dsimp only
      rw [if_pos hfound]
      exact storesWord_storeWord hline
    · rw [if_pos (by simpa using hdata)] at h
      cases h

lemma atomicCompareExchangeUint64_none (hother : loadWord hd mem addr ≠ expected) :
    (atomicCompareExchangeUint64 hd mem addr expected desired read write).stores = [] := by
  have hline := atomicCompareExchangeUint64_line h
  unfold atomicCompareExchangeUint64
  dsimp only
  rw [if_neg (Nat.not_lt.mpr hline)]
  split_ifs with hssd hread hword hdata
  · rfl
  · rfl
  · exact absurd ((readCacheline_word hline (by simpa using hread)).symm.trans (not_not.mp hword)) hother
  · rfl
  · rfl

end CxlMemSim.Server
