/-
Does a failed memory request leave no trace? A failed WRITE does (`failed_write_effects`): the directory is updated
BEFORE the data is written; in a mapped region the bytes are in memory when `msync` fails; over the SSD backend a write
across two lines has stored the first when the second fails.

Results:
* `writeCacheline_eq`: what a write stores, and whether it succeeds, from where it fails (`failsAfter`).
* `failed_request_untouched_iff`: for every state, request and outcome of the I/O, a failed write, fetch-and-add or
  compare-and-swap leaves no trace exactly if it is not a write that passes its checks, or the write is `WriteSettled`.
* `failed_request_untouched_owner`: a failing write that leaves no trace. `failed_write_effects`: two that do.
-/
import CxlMemSim.Server.Requests

namespace CxlMemSim.Server

open CxlMemSim.Core

/-- no data byte, no metadata of a line and no queued back-invalidation differs -/
structure Untouched (s s' : ServerState) : Prop where
  mem : s'.mem = s.mem
  metadata : s'.metadata = s.metadata
  queue : s'.backInvalidationQueue = s.backInvalidationQueue

/-! ## Where a write fails -/

/-- no line of the backend -/
def outside (hd : Header) (addr : UInt64) : Bool := hd.numCachelines ≤ cachelineToIndex hd (addrToCacheline addr)

/-- After how many bytes the storing of `size` bytes fails, if it does. The SSD backend stores the line of the address and
then the next one; a mapped write that starts is stored to its end before `msync` fails. -/
def failsAfter (hd : Header) (addr : UInt64) (size : ℕ) (io : Io) : Option ℕ :=
  let first := 64 - lineOffset addr
  if hd.backingMode = .ssdStream then
    if outside hd addr ∨ io 0 = false then some 0
    else if size ≤ first then none
    else if outside hd (addr + UInt64.ofNat first) ∨ io 1 = false then some first
    else none
  else if hd.baseAddr ≠ 0 ∧ (hasCachelineData hd (addrToCacheline addr) = false ∨ first < size) then some 0
  else if io 0 = true then none
  else some size

def firstBytes (hd : Header) (addr : UInt64) (data : Buf) (n : ℕ) : List (ℕ × UInt8) :=
  (List.range n).map fun i => (byteOf hd (addr + UInt64.ofNat i), data i)

/-- If the write fails, the line of its address is already MODIFIED and owned by the thread, and the bytes stored before
the failure are those already there. -/
def WriteSettled (s : ServerState) (threadId : Int32) (req : ServerRequest) (env : Env) : Prop :=
  ∀ n, failsAfter s.header req.addr (clampAccessSize req).size.toNat env.write = some n →
    (s.metadata (addrToCacheline req.addr)).state = .modified ∧
    (s.metadata (addrToCacheline req.addr)).owner = threadId ∧
    storeAll s.mem (firstBytes s.header req.addr req.data n) = s.mem

variable {hd : Header} {s : ServerState} {env : Env} {addr : UInt64}

section Pieces

variable {data : Buf} {size : ℕ} {io : Io} {p : Piece}

lemma addressToBackendOffset_isNone (hpos : 0 < size) (hline : lineOffset addr + size ≤ 64) :
    (addressToBackendOffset hd addr size).isNone = outside hd addr := by
  rw [addressToBackendOffset, if_neg (by omega), if_neg (by omega), outside]
  split_ifs with h
  · simpa using h
  · simpa using h

lemma copyIn_eq (hp : PieceOf addr size p) :
    copyIn hd data p = (List.range' p.done p.bytes).map fun i => (byteOf hd (addr + UInt64.ofNat i), data i) := by
  rw [copyIn, List.range'_eq_map_range, List.map_map]
  refine List.map_congr_left fun i hi => ?_
  rw [hp.byteOf hd (List.mem_range.mp hi)]
  rfl

lemma pieces_two_lines (hsize : size ≤ 64) (hline : 64 < lineOffset addr + size) :
    pieces addr size size 0 = [⟨addr, 0, 64 - lineOffset addr⟩,
      ⟨addr + UInt64.ofNat (64 - lineOffset addr), 64 - lineOffset addr, size - (64 - lineOffset addr)⟩] := by
  have hlt := lineOffset_lt addr
  -- the second piece starts a line
  have hsecond : lineOffset (addr + UInt64.ofNat (64 - lineOffset addr)) = 0 := by
    rw [lineOffset_eq] at hlt hline ⊢
    rw [lineOffset_eq, UInt64.toNat_add, UInt64.toNat_ofNat']
    omega
  obtain ⟨n, rfl⟩ : ∃ n, size = n + 2 := ⟨size - 2, by omega⟩
  have hend : ∀ k, pieces addr (n + 2) k (n + 2) = [] := fun k => by cases k <;> simp [pieces]
  rw [pieces, if_pos (by omega)]
  have hzero : addr + UInt64.ofNat 0 = addr := UInt64.add_zero addr
  have hmin : min (n + 2) (64 - lineOffset addr) = 64 - lineOffset addr := by omega
  have hmin' : min (n + 2 - (64 - lineOffset addr)) 64 = n + 2 - (64 - lineOffset addr) := by omega
  have hsum : 64 - lineOffset addr + (n + 2 - (64 - lineOffset addr)) = n + 2 := by omega
  simp only [hzero, Nat.sub_zero, hmin, Nat.zero_add]
  rw [pieces, if_pos (by omega)]
  simp only [hsecond, Nat.sub_zero, hmin', hsum, hend]

lemma flatMap_pieces (hpos : 0 < size) (hsize : size ≤ 64) :
    (pieces addr size size 0).flatMap (copyIn hd data) = firstBytes hd addr data size := by
  by_cases hline : lineOffset addr + size ≤ 64
  · rw [pieces_one_line hpos hline, List.flatMap_singleton, copyIn_eq (pieceOf_whole hline), firstBytes,
      List.range_eq_range']
  · have htwo := pieces_two_lines hsize (not_le.mp hline)
    have hof : ∀ p ∈ pieces addr size size 0, PieceOf addr size p := fun p hp => pieceOf_pieces hp
    rw [htwo] at hof ⊢
    rw [List.flatMap_cons, List.flatMap_singleton, copyIn_eq (hof _ (by simp)), copyIn_eq (hof _ (by simp)),
      ← List.map_append, firstBytes, List.range_eq_range']
    have hlt := lineOffset_lt addr
    dsimp only
    congr 1
    rw [show List.range' (64 - lineOffset addr) (size - (64 - lineOffset addr)) =
      List.range' (0 + 1 * (64 - lineOffset addr)) (size - (64 - lineOffset addr)) by simp, List.range'_append]
    congr 1
    omega

lemma copyIn_line (hline : lineOffset addr + size ≤ 64) :
    copyIn hd data ⟨addr, 0, size⟩ = firstBytes hd addr data size := by
  rw [copyIn_eq (pieceOf_whole hline), firstBytes, List.range_eq_range']

lemma writePieces_eq (hmode : hd.backingMode = .ssdStream) (hpos : 0 < size) (hsize : size ≤ 64) :
    writePieces hd data io 0 (pieces addr size size 0) = ((failsAfter hd addr size io).isNone,
      firstBytes hd addr data ((failsAfter hd addr size io).getD size)) := by
  have hlt := lineOffset_lt addr
  have hnone : firstBytes hd addr data 0 = [] := rfl
  have hall : (pieces addr size size 0).flatMap (copyIn hd data) = _ := flatMap_pieces hpos hsize
  by_cases hline : lineOffset addr + size ≤ 64
  · have hfirst : size ≤ 64 - lineOffset addr := by omega
    rw [pieces_one_line hpos hline]
    cases hout : outside hd addr <;> cases hio : io 0 <;>
      simp [writePieces, failsAfter, hmode, addressToBackendOffset_isNone hpos hline, hout, hio, hfirst, hnone,
        copyIn_line hline]
  · have hfirst : ¬ size ≤ 64 - lineOffset addr := by omega
    have htwo := pieces_two_lines hsize (not_le.mp hline)
    have hof : PieceOf addr size ⟨addr + UInt64.ofNat (64 - lineOffset addr), 64 - lineOffset addr,
        size - (64 - lineOffset addr)⟩ := pieceOf_pieces (by rw [htwo]; simp)
    rw [htwo, List.flatMap_cons, List.flatMap_singleton, copyIn_line (by omega)] at hall
    rw [htwo]
    have hend : lineOffset addr + (64 - lineOffset addr) ≤ 64 := by omega
    simp only [writePieces, addressToBackendOffset_isNone (by omega) hend,
      addressToBackendOffset_isNone (by omega : 0 < size - (64 - lineOffset addr)) hof.in_line, failsAfter, hmode, if_true,
      if_neg hfirst, copyIn_line hend]
    cases hout : outside hd addr <;> cases hio : io 0 <;>
      cases hout' : outside hd (addr + UInt64.ofNat (64 - lineOffset addr)) <;> cases hio' : io 1 <;>
        simp [hnone, hall]

/-- A write succeeds and stores all its bytes, or fails after those it has stored. -/
lemma writeCacheline_eq (hd : Header) (addr : UInt64) (data : Buf) (io : Io) (hpos : 0 < size) (hsize : size ≤ 64) :
    writeCacheline hd addr data size io = ((failsAfter hd addr size io).isNone,
      firstBytes hd addr data ((failsAfter hd addr size io).getD size)) := by
  have hlt := lineOffset_lt addr
  have hnone : firstBytes hd addr data 0 = [] := rfl
  rw [writeCacheline, if_neg (by omega)]
  by_cases hmode : hd.backingMode = .ssdStream
  · rw [if_pos hmode, writePieces_eq hmode hpos hsize]
  · rw [if_neg hmode]
    by_cases hbase : hd.baseAddr = 0
    · rw [if_pos hbase, flatMap_pieces hpos hsize]
      cases hio : io 0 <;> simp [failsAfter, hmode, hbase, hio]
    · rw [if_neg hbase]
      cases hdata : hasCachelineData hd (addrToCacheline addr) with
      | false => simp [failsAfter, hmode, hbase, hdata, hnone]
      | true =>
        by_cases hline : 64 < lineOffset addr + size
        · have hfirst : 64 - lineOffset addr < size := by omega
          simp [failsAfter, hmode, hbase, hdata, hline, hfirst, hnone]
        · have hfirst : ¬ 64 - lineOffset addr < size := by omega
          cases hio : io 0 <;>
            simp [failsAfter, hmode, hbase, hdata, hline, hfirst, hio, copyIn_line (not_lt.mp hline)]

/-- Within one line the SSD backend stores all or nothing. -/
lemma stores_of_failed_line (hmode : hd.backingMode = .ssdStream) (hpos : 0 < size)
    (hline : lineOffset addr + size ≤ 64) (hfail : (writeCacheline hd addr data size io).1 = false) :
    (writeCacheline hd addr data size io).2 = [] := by
  have hfirst : size ≤ 64 - lineOffset addr := by omega
  rw [writeCacheline_eq hd addr data io hpos (by omega)] at hfail ⊢
  by_cases h : outside hd addr ∨ io 0 = false
  · simp [failsAfter, hmode, h, firstBytes]
  · simp [failsAfter, hmode, h, hfirst] at hfail

end Pieces

variable {mem : Buf}

lemma stores_of_failed_faa {value : UInt64} {read write : Io}
    (hfail : (atomicFetchAddUint64 hd mem addr value read write).ok = false) :
    (atomicFetchAddUint64 hd mem addr value read write).stores = [] := by
  unfold atomicFetchAddUint64 at hfail ⊢
  dsimp only at hfail ⊢
  split_ifs at hfail ⊢ with hline hmode hread
  · rfl
  · rfl
  · exact stores_of_failed_line hmode (by decide) (by omega) hfail
  · rfl

lemma stores_of_failed_cas {expected desired : UInt64} {read write : Io}
    (hfail : (atomicCompareExchangeUint64 hd mem addr expected desired read write).ok = false) :
    (atomicCompareExchangeUint64 hd mem addr expected desired read write).stores = [] := by
  unfold atomicCompareExchangeUint64 at hfail ⊢
  dsimp only at hfail ⊢
  split_ifs at hfail ⊢ with hline hmode hread hsame
  · rfl
  · rfl
  · exact stores_of_failed_line hmode (by decide) (by omega) hfail
  · rfl

/-! ## Requests that fail -/

lemma Untouched.trans {s' s'' : ServerState} (h : Untouched s s') (h' : Untouched s' s'') : Untouched s s'' :=
  ⟨h'.mem.trans h.mem, h'.metadata.trans h.metadata, h'.queue.trans h.queue⟩

lemma untouched_of_no_stores {stores : List (ℕ × UInt8)} (h : stores = []) :
    Untouched s { s with mem := storeAll s.mem stores } :=
  ⟨by rw [h]; rfl, rfl, rfl⟩

variable {job : Job}

lemma performFaa_untouched (hfail : (performFaa s job env).resp.status ≠ 0) : Untouched s (performFaa s job env).server := by
  unfold performFaa at hfail ⊢
  dsimp only at hfail ⊢
  split_ifs at hfail ⊢ with hok
  · exact untouched_of_no_stores (stores_of_failed_faa (by simpa using hok))
  · exact absurd rfl hfail

lemma performCas_untouched (hfail : (performCas s job env).resp.status ≠ 0) : Untouched s (performCas s job env).server := by
  unfold performCas at hfail ⊢
  dsimp only at hfail ⊢
  split_ifs at hfail ⊢ with hok
  · exact untouched_of_no_stores (stores_of_failed_cas (by simpa using hok))
  · exact absurd rfl hfail
  · exact absurd rfl hfail

/-- Only the owner of a MODIFIED line finds it as a write leaves it. -/
lemma handleWriteCoherency_eq_self {threadId : Int32} {info : CachelineMetadata} :
    handleWriteCoherency threadId info = info ↔ info.state = .modified ∧ info.owner = threadId := by
  obtain ⟨state, sharers, owner, time, version⟩ := info
  cases state <;> simp [handleWriteCoherency, eq_comm]

lemma setMetadata_eq_self {line : UInt64} {info : CachelineMetadata} :
    (s.setMetadata line info).metadata = s.metadata ↔ info = s.metadata line := by
  rw [ServerState.setMetadata, Function.update_eq_iff]
  simp

lemma performWrite_untouched_iff (hpos : 0 < job.req.size.toNat) (hsize : job.req.size.toNat ≤ 64) :
    ((performWrite s job env).resp.status ≠ 0 → Untouched s (performWrite s job env).server) ↔
      ∀ n, failsAfter s.header job.req.addr job.req.size.toNat env.write = some n →
        (s.metadata job.line).state = .modified ∧ (s.metadata job.line).owner = job.threadId ∧
        storeAll s.mem (firstBytes s.header job.req.addr job.req.data n) = s.mem := by
  unfold performWrite
  dsimp only
  rw [writeCacheline_eq _ _ _ _ hpos hsize]
  cases hf : failsAfter s.header job.req.addr job.req.size.toNat env.write with
  | none => exact iff_of_true (fun h => absurd rfl h) fun _ h => nomatch h
  | some n =>
    simp only [Option.isNone_some, Option.getD_some, Bool.not_false, if_true, Option.some.injEq, forall_eq']
    have hfailed : ServerResponse.failed.status ≠ 0 := by decide
    rw [← and_assoc, ← handleWriteCoherency_eq_self, ← setMetadata_eq_self (s := { s with
      mem := storeAll s.mem (firstBytes s.header job.req.addr job.req.data n) })]
    constructor
    · intro h
      exact ⟨(h hfailed).metadata, (h hfailed).mem⟩
    · rintro ⟨hmetadata, hmem⟩ -
      exact ⟨hmem, hmetadata, rfl⟩

lemma admitAccess_untouched (s : ServerState) (t : Int32) (kind : JobKind) (req : ServerRequest) (w a : Bool) :
    Untouched s (admitAccess s t kind req w a).server := by
  unfold admitAccess
  dsimp only
  split
  · exact ⟨rfl, rfl, rfl⟩
  · split_ifs <;> exact ⟨rfl, rfl, rfl⟩

def IsStore (req : ServerRequest) : Prop :=
  OpType.ofCode req.opType = .write ∨ OpType.ofCode req.opType = .atomicFaa ∨ OpType.ofCode req.opType = .atomicCas

def WritePasses (s : ServerState) (threadId : Int32) (req : ServerRequest) : Prop :=
  OpType.ofCode req.opType = .write ∧
    (checkFabricAccess s.controller threadId (clampAccessSize req) true false).1 = none ∧
    addressRefused s.header (clampAccessSize req).addr (clampAccessSize req).size = false

section Clamp

variable (req : ServerRequest)

lemma clampAccessSize_addr : (clampAccessSize req).addr = req.addr ∧ (clampAccessSize req).data = req.data := by
  unfold clampAccessSize
  split_ifs <;> exact ⟨rfl, rfl⟩

lemma clampAccessSize_size : 0 < (clampAccessSize req).size.toNat ∧ (clampAccessSize req).size.toNat ≤ 64 := by
  unfold clampAccessSize
  split_ifs with h
  · dsimp only
    decide
  · obtain ⟨hzero, hle⟩ := not_or.mp h
    refine ⟨Nat.pos_of_ne_zero fun h0 => hzero (UInt64.toNat_inj.mp h0), ?_⟩
    exact UInt64.le_iff_toNat_le.mp (UInt64.not_lt.mp hle)

end Clamp

variable {kind : JobKind} {req : ServerRequest} {t : Int32}

lemma admitAccess_locked {w a : Bool} (hfabric : (checkFabricAccess s.controller t req w a).1 = none)
    (haddr : addressRefused s.header req.addr req.size = false) : admitAccess s t kind req w a =
      .locked ⟨t, kind, req⟩ { s with controller := (checkFabricAccess s.controller t req w a).2 } := by
  unfold admitAccess
  simp [hfabric, haddr]

lemma admitAccess_answered {w a : Bool} (h : ¬ ((checkFabricAccess s.controller t req w a).1 = none ∧
    addressRefused s.header req.addr req.size = false)) :
    ∃ resp s', admitAccess s t kind req w a = .answered resp s' := by
  unfold admitAccess
  dsimp only
  split
  · exact ⟨_, _, rfl⟩
  · next hfabric =>
    rw [if_pos (by simpa using not_and.mp h hfabric)]
    exact ⟨_, _, rfl⟩

def Admitted.finish (env : Env) : Admitted → Served
  | .answered resp s => ⟨resp, s, []⟩
  | .locked job s => perform s job env

lemma handleRequest_eq (s : ServerState) (t : Int32) (req : ServerRequest) (env : Env) :
    handleRequest s t req env = (admitRequest s t req).finish env := rfl

lemma untouched_of_admitAccess {w a : Bool}
    (hperform : ∀ s', (perform s' ⟨t, kind, req⟩ env).resp.status ≠ 0 → Untouched s' (perform s' ⟨t, kind, req⟩ env).server)
    (hfail : ((admitAccess s t kind req w a).finish env).resp.status ≠ 0) :
    Untouched s ((admitAccess s t kind req w a).finish env).server := by
  have hun := admitAccess_untouched s t kind req w a
  rcases admitAccess_cases s t kind req w a with ⟨resp, s', heq, -⟩ | ⟨-, s', -, heq⟩
  · rw [heq] at hun ⊢
    exact hun
  · rw [heq] at hun hfail ⊢
    exact hun.trans (hperform s' hfail)

lemma write_untouched_iff (hop : OpType.ofCode req.opType = .write) :
    ((handleRequest s t req env).resp.status ≠ 0 → Untouched s (handleRequest s t req env).server) ↔
      (WritePasses s t req → WriteSettled s t req env) := by
  have htaken : admitRequest s t req = admitAccess s t .write (clampAccessSize req) true false := by
    simp only [admitRequest, hop]
  rw [handleRequest_eq, htaken]
  by_cases hpass : WritePasses s t req
  · obtain ⟨hpos, hsize⟩ := clampAccessSize_size req
    obtain ⟨haddr, hdata⟩ := clampAccessSize_addr req
    rw [admitAccess_locked hpass.2.1 hpass.2.2, imp_iff_right hpass]
    -- the check changes the controller only
    have hiff := @performWrite_untouched_iff
      { s with controller := (checkFabricAccess s.controller t (clampAccessSize req) true false).2 }
      env ⟨t, .write, clampAccessSize req⟩ hpos hsize
    simp only [Job.line, haddr, hdata] at hiff
    refine Iff.trans ⟨fun h hf => ?_, fun h hf => ?_⟩ hiff
    · exact ⟨(h hf).mem, (h hf).metadata, (h hf).queue⟩
    · exact ⟨(h hf).mem, (h hf).metadata, (h hf).queue⟩
  · obtain ⟨resp, s', heq⟩ := (admitAccess_answered fun h => hpass ⟨hop, h⟩ :
      ∃ resp s', admitAccess s t .write (clampAccessSize req) true false = .answered resp s')
    have hun := admitAccess_untouched s t .write (clampAccessSize req) true false
    rw [heq] at hun ⊢
    exact iff_of_true (fun _ => hun) fun h => absurd h hpass

/-- A failed write, fetch-and-add or compare-and-swap leaves no trace, exactly if it is not a write that passes its checks
or is settled. -/
theorem failed_request_untouched_iff (s : ServerState) (threadId : Int32) (req : ServerRequest) (env : Env)
    (hop : IsStore req) :
    ((handleRequest s threadId req env).resp.status ≠ 0 → Untouched s (handleRequest s threadId req env).server) ↔
      (WritePasses s threadId req → WriteSettled s threadId req env) := by
  rcases hop with hop | hop | hop
  · exact write_untouched_iff hop
  · have htaken : admitRequest s threadId req = admitAccess s threadId .faa (clampAtomicSize req) true true := by
      simp only [admitRequest, hop]
    rw [handleRequest_eq, htaken]
    refine iff_of_true (untouched_of_admitAccess fun s' => performFaa_untouched) fun h => ?_
    rw [WritePasses, hop] at h
    cases h.1
  · have htaken : admitRequest s threadId req = admitAccess s threadId .cas (clampAtomicSize req) true true := by
      simp only [admitRequest, hop]
    rw [handleRequest_eq, htaken]
    refine iff_of_true (untouched_of_admitAccess fun s' => performCas_untouched) fun h => ?_
    rw [WritePasses, hop] at h
    cases h.1

def fourLines (mode : BackingMode) : ServerState := .new ⟨mode, 0, 4⟩ (fun _ => 0) ⟨none, none⟩

def failingFrom (k : ℕ) : Env := { Env.good with write := fun i => i < k }

def writeSevens (addr : UInt64) : ServerRequest := ⟨1, addr, 8, 10, 0, 0, fun _ => 7⟩

/-- line 0 is owned by thread 1 -/
def ownedLine : ServerState := (fourLines .ssdStream).setMetadata 0 ⟨.modified, ∅, 1, 5, 1⟩

/-- the write of the owner crosses into the next line and fails at once -/
theorem failed_request_untouched_owner : (handleRequest ownedLine 1 (writeSevens 60) (failingFrom 0)).resp.status = 1 ∧
    Untouched ownedLine (handleRequest ownedLine 1 (writeSevens 60) (failingFrom 0)).server := by
  have hfail : (handleRequest ownedLine 1 (writeSevens 60) (failingFrom 0)).resp.status = 1 := by decide
  refine ⟨hfail, (failed_request_untouched_iff ownedLine 1 (writeSevens 60) (failingFrom 0) (.inl rfl)).mpr
    (fun _ n hn => ?_) (by rw [hfail]; decide)⟩
  have hzero : failsAfter ownedLine.header 60 8 (failingFrom 0).write = some 0 := by decide
  obtain rfl : 0 = n := Option.some.inj (hzero.symm.trans hn)
  exact ⟨by decide, by decide, rfl⟩

/-- an error is answered; yet, mapped, the bytes are stored and the line owned, and over the SSD backend four bytes are
stored -/
theorem failed_write_effects : ((handleRequest (fourLines .mapped) 1 (writeSevens 0) (failingFrom 0)).resp.status = 1 ∧
      (handleRequest (fourLines .mapped) 1 (writeSevens 0) (failingFrom 0)).server.mem 0 = 7 ∧
      ((handleRequest (fourLines .mapped) 1 (writeSevens 0) (failingFrom 0)).server.metadata 0).state = .modified ∧
      ((handleRequest (fourLines .mapped) 1 (writeSevens 0) (failingFrom 0)).server.metadata 0).owner = 1) ∧
    ((handleRequest (fourLines .ssdStream) 1 (writeSevens 60) (failingFrom 1)).resp.status = 1 ∧
      (handleRequest (fourLines .ssdStream) 1 (writeSevens 60) (failingFrom 1)).server.mem 63 = 7 ∧
      (handleRequest (fourLines .ssdStream) 1 (writeSevens 60) (failingFrom 1)).server.mem 64 = 0) ∧
    ¬ Untouched (fourLines .mapped) (handleRequest (fourLines .mapped) 1 (writeSevens 0) (failingFrom 0)).server := by
  refine ⟨by decide, by decide, fun h => ?_⟩
  have hbyte := congrFun h.mem 0
  exact absurd hbyte (by decide)

end CxlMemSim.Server
