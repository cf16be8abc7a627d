/-
The request handling of `ThreadPerConnectionServer` (`src/main_server.cc`).

Model: `admitRequest` is what happens before `memory_mutex` is taken, and the whole of every request that never takes
it; `perform` is the part under the lock. `Env` is what the operating system answers. A request that never ends or
leaves a buffer sets `halted`.
-/
import CxlMemSim.Core.Lines
import CxlMemSim.Fabric.Gfam
import CxlMemSim.Server.Storage

namespace CxlMemSim.Server

open CxlMemSim.Core
open Dcd
open Gfam

/-! ## Requests -/

inductive OpType where
  | read
  | write
  | getShmInfo
  | atomicFaa
  | atomicCas
  | fence
  | lsaRead
  | lsaWrite
  | dcdAdd
  | dcdRelease
  | dcdQuery
  | gfamMap
  | gfamUnmap
  | gfamQuery
  | biEnable
  | biDisable
  | biInvalidate
  | biWriteback
  | biQuery
  | rangeRead
  | rangeWrite
  | unknown (code : UInt8)
deriving DecidableEq, Repr

def opMax : UInt8 := 20

def OpType.ofCode (code : UInt8) : OpType :=
  match code.toNat with
  | 0 => .read
  | 1 => .write
  | 2 => .getShmInfo
  | 3 => .atomicFaa
  | 4 => .atomicCas
  | 5 => .fence
  | 6 => .lsaRead
  | 7 => .lsaWrite
  | 8 => .dcdAdd
  | 9 => .dcdRelease
  | 10 => .dcdQuery
  | 11 => .gfamMap
  | 12 => .gfamUnmap
  | 13 => .gfamQuery
  | 14 => .biEnable
  | 15 => .biDisable
  | 16 => .biInvalidate
  | 17 => .biWriteback
  | 18 => .biQuery
  | 19 => .rangeRead
  | 20 => .rangeWrite
  | _ => .unknown code

structure ServerRequest where
  opType : UInt8
  addr : UInt64
  size : UInt64
  timestamp : UInt64
  value : UInt64
  expected : UInt64
  data : Buf

structure ServerResponse where
  status : UInt8
  oldValue : UInt64
  data : Buf

def ServerResponse.zero : ServerResponse := ⟨0, 0, fun _ => 0⟩

def ServerResponse.failed : ServerResponse := ⟨1, 0, fun _ => 0⟩

def writeU64 (data : Buf) (offset : ℕ) (value : UInt64) : Buf := memcpy data offset (byteLE value.toNat) 0 8

def statusCode : DCDStatus → UInt8
  | .ok => 0
  | .outOfCapacity => 1
  | .overlap => 2
  | .notFound => 3
  | .invalidRequest => 4
  | .accessDenied => 5

/-! ## State -/

inductive CoherencyState where
  | invalid
  | shared
  | exclusive
  | modified
deriving DecidableEq, Repr

structure CachelineMetadata where
  state : CoherencyState
  sharers : Finset Int32
  owner : Int32
  lastAccessTime : UInt64
  version : UInt64
deriving DecidableEq

def CachelineMetadata.new : CachelineMetadata := ⟨.invalid, ∅, -1, 0, 0⟩

structure BackInvalidationEntry where
  timestamp : UInt64
  dirtyData : List UInt8
deriving DecidableEq, Repr

structure ServerState where
  header : Header
  mem : Buf
  metadata : UInt64 → CachelineMetadata
  backInvalidationQueue : UInt64 → List BackInvalidationEntry
  controller : Controller
  lsaSize : UInt64
  lsaData : Buf
  biEnabledClients : Finset Int32
  backInvalidations : UInt64
  biEnableRequests : UInt64
  biDisableRequests : UInt64
  biInvalidateRequests : UInt64
  biWritebackRequests : UInt64
  halted : Bool

def ServerState.new (header : Header) (mem : Buf) (controller : Controller) : ServerState :=
  { header, mem, controller
    metadata := fun _ => .new
    backInvalidationQueue := fun _ => []
    lsaSize := 256 * 1024
    lsaData := fun _ => 0
    biEnabledClients := ∅
    backInvalidations := 0
    biEnableRequests := 0
    biDisableRequests := 0
    biInvalidateRequests := 0
    biWritebackRequests := 0
    halted := false }

def ServerState.setMetadata (s : ServerState) (line : UInt64) (info : CachelineMetadata) : ServerState :=
  { s with metadata := Function.update s.metadata line info }

def registerBackInvalidation (s : ServerState) (line : UInt64) (dirtyData : List UInt8) (timestamp : UInt64) :
    ServerState :=
  { s with
    backInvalidationQueue :=
      Function.update s.backInvalidationQueue line (s.backInvalidationQueue line ++ [⟨timestamp, dirtyData⟩]) }

structure Env where
  apply : ℕ → Io
  read : Io
  write : Io
  readBack : Io

def Env.good : Env := ⟨fun _ _ => true, fun _ => true, fun _ => true, fun _ => true⟩

/-! ## Before the lock -/

inductive JobKind where
  | read
  | write
  | faa
  | cas
  | fence
  | writeback
deriving DecidableEq, Repr

structure Job where
  threadId : Int32
  kind : JobKind
  req : ServerRequest

def Job.line (job : Job) : UInt64 := addrToCacheline job.req.addr

inductive Admitted where
  | answered (resp : ServerResponse) (s : ServerState)
  | locked (job : Job) (s : ServerState)

def Admitted.server : Admitted → ServerState
  | .answered _ s => s
  | .locked _ s => s

def checkFabricAccess (c : Controller) (threadId : Int32) (req : ServerRequest) (isWrite isAtomic : Bool) :
    Option DCDStatus × Controller :=
  if !dcdIsAllocated c req.addr req.size then (some .notFound, c)
  else
    let access := gfamRecordAccess c threadId.toUInt32 req.addr req.size isWrite isAtomic
    (if access.1.allowed then none else some access.1.status, access.2)

def addressRefused (hd : Header) (addr size : UInt64) : Bool :=
  addr > u64Max - (size - 1) || !isValidAddress hd addr || !isValidAddress hd (addr + size - 1)

def admitAccess (s : ServerState) (threadId : Int32) (kind : JobKind) (req : ServerRequest) (isWrite isAtomic : Bool) :
    Admitted :=
  let fabric := checkFabricAccess s.controller threadId req isWrite isAtomic
  let s := { s with controller := fabric.2 }
  match fabric.1 with
  | some status => .answered { ServerResponse.zero with status := statusCode status } s
  | none =>
    if addressRefused s.header req.addr req.size then .answered .failed s
    else .locked ⟨threadId, kind, req⟩ s

def clampAtomicSize (req : ServerRequest) : ServerRequest :=
  if req.size = 0 ∨ req.size > 8 then { req with size := 8 } else req

def clampAccessSize (req : ServerRequest) : ServerRequest :=
  if req.size = 0 ∨ req.size > 64 then { req with size := 64 } else req

variable (s : ServerState) (threadId : Int32) (req : ServerRequest)

def handleCapacityManagementRequest : ServerResponse × ServerState :=
  let c := s.controller
  let zero := ServerResponse.zero
  match OpType.ofCode req.opType with
  | .dcdAdd =>
    let (result, c) := dcdAddCapacity c req.addr req.size req.value req.timestamp
    let resp : ServerResponse :=
      { status := statusCode result.status
        oldValue := result.base
        data := writeU64 (writeU64 zero.data 0 result.size) 8 result.tag }
    if result.status = .ok ∧ c.gfamDevice.isSome then
      (resp, { s with controller := (gfamGrantAccess c threadId.toUInt32 result.base result.size permAll).2 })
    else (resp, { s with controller := c })
  | .dcdRelease =>
    let (status, c) := dcdReleaseCapacity c req.addr req.size req.value req.timestamp
    ({ zero with status := statusCode status }, { s with controller := c })
  | .dcdQuery =>
    let stats := getDcdStats c
    ({ status := 0
       oldValue := stats.allocatedCapacity
       data := writeU64 (writeU64 (writeU64 (writeU64 zero.data 0 stats.totalCapacity) 8 stats.freeCapacity) 16
         stats.activeExtents) 24 stats.failedRequests }, s)
  | .gfamMap =>
    let permissions := if req.expected = 0 then permAll else req.expected.toUInt32
    let (status, c) := gfamGrantAccess c req.value.toUInt32 req.addr req.size permissions
    ({ zero with status := statusCode status }, { s with controller := c })
  | .gfamUnmap =>
    let (status, c) := gfamRevokeAccess c req.value.toUInt32 req.addr req.size
    ({ zero with status := statusCode status }, { s with controller := c })
  | .gfamQuery =>
    -- the average latency, at offset 48, is left out
    let stats := getGfamStats c
    ({ status := 0
       oldValue := stats.hosts
       data := writeU64 (writeU64 (writeU64 (writeU64 (writeU64 (writeU64 zero.data 0 stats.mappings) 8
         stats.sharedMappings) 16 stats.readOps) 24 stats.writeOps) 32 stats.atomicOps) 40 stats.deniedAccesses }, s)
  | _ => ({ zero with status := statusCode .invalidRequest }, s)

def invalidateEnd : UInt64 := req.addr + if req.size = 0 then 64 else req.size

def handleBiInvalidate : ServerResponse × ServerState :=
  if invalidateEnd req < req.addr then (.failed, s)
  else
    match Core.linesBelow (invalidateEnd req) Core.lineTurns (addrToCacheline req.addr) with
    | none => (.zero, { s with halted := true })
    | some lines =>
      let s := lines.foldl (fun s line => registerBackInvalidation s line [] req.timestamp) s
      let count := UInt64.ofNat lines.length
      ({ ServerResponse.zero with oldValue := count },
        { s with biInvalidateRequests := s.biInvalidateRequests + count })

def handleBiRequest : ServerResponse × ServerState :=
  let count (s : ServerState) : UInt64 := UInt64.ofNat s.biEnabledClients.card
  match OpType.ofCode req.opType with
  | .biEnable =>
    let s := { s with
      biEnabledClients := insert threadId s.biEnabledClients, biEnableRequests := s.biEnableRequests + 1 }
    ({ ServerResponse.zero with oldValue := count s }, s)
  | .biDisable =>
    let s := { s with
      biEnabledClients := s.biEnabledClients.erase threadId, biDisableRequests := s.biDisableRequests + 1 }
    ({ ServerResponse.zero with oldValue := count s }, s)
  | .biInvalidate => handleBiInvalidate s req
  | .biQuery =>
    ({ status := 0
       oldValue := count s
       data := writeU64 (writeU64 (writeU64 (writeU64 (writeU64 ServerResponse.zero.data 0 s.backInvalidations) 8
         s.biEnableRequests) 16 s.biDisableRequests) 24 s.biInvalidateRequests) 32 s.biWritebackRequests }, s)
  | _ => (.failed, s)

def writebackSize : UInt64 := min (if req.size = 0 then 64 else req.size) 64

def admitWriteback : Admitted :=
  let req := { req with size := writebackSize req }
  if addressRefused s.header req.addr req.size then .answered .failed s
  else .locked ⟨threadId, .writeback, req⟩ s

def handleLsaRequest (isWrite : Bool) (req : ServerRequest) : ServerResponse × ServerState :=
  let clampedSize := min req.size 64
  let end_ := req.addr + clampedSize
  if end_ < req.addr then (.zero, { s with halted := true })
  else if isWrite then
    (.zero, { s with
      lsaSize := max s.lsaSize end_
      lsaData := memcpy s.lsaData req.addr.toNat req.data 0 clampedSize.toNat })
  else if end_ ≤ s.lsaSize then
    ({ ServerResponse.zero with
       data := memcpy ServerResponse.zero.data 0 s.lsaData req.addr.toNat clampedSize.toNat }, s)
  else (.failed, s)

def handleRangeRequest (isWrite : Bool) (req : ServerRequest) : ServerResponse × ServerState :=
  if req.size = 0 then (.zero, s)
  else
    let fabric := checkFabricAccess s.controller threadId req isWrite false
    let s := { s with controller := fabric.2 }
    match fabric.1 with
    | some status => ({ ServerResponse.zero with status := statusCode status }, s)
    | none => (.zero, s)

def answer (r : ServerResponse × ServerState) : Admitted := .answered r.1 r.2

def admitRequest : Admitted :=
  match OpType.ofCode req.opType with
  | .atomicFaa => admitAccess s threadId .faa (clampAtomicSize req) true true
  | .atomicCas => admitAccess s threadId .cas (clampAtomicSize req) true true
  | .fence => .locked ⟨threadId, .fence, req⟩ s
  | .dcdAdd | .dcdRelease | .dcdQuery | .gfamMap | .gfamUnmap | .gfamQuery =>
    answer (handleCapacityManagementRequest s threadId req)
  | .biWriteback => admitWriteback s threadId req
  | .biEnable | .biDisable | .biInvalidate | .biQuery => answer (handleBiRequest s threadId req)
  | .rangeRead => answer (handleRangeRequest s threadId false req)
  | .rangeWrite => answer (handleRangeRequest s threadId true req)
  | .lsaRead => answer (handleLsaRequest s false req)
  | .lsaWrite => answer (handleLsaRequest s true req)
  | .read => admitAccess s threadId .read (clampAccessSize req) false false
  | .write => admitAccess s threadId .write (clampAccessSize req) true false
  -- whatever is left is served as a write, but was checked as a read
  | .getShmInfo | .unknown _ => admitAccess s threadId .write (clampAccessSize req) false false

/-! ## Under the lock -/

def handleReadCoherency (info : CachelineMetadata) : CachelineMetadata :=
  match info.state with
  | .invalid => { info with state := .shared, sharers := insert threadId info.sharers }
  | .shared => { info with sharers := insert threadId info.sharers }
  | .exclusive | .modified =>
    { info with state := .shared, sharers := insert threadId (insert info.owner info.sharers), owner := -1 }

def handleWriteCoherency (info : CachelineMetadata) : CachelineMetadata :=
  match info.state with
  | .invalid => { info with state := .modified, owner := threadId }
  | .shared => { info with state := .modified, owner := threadId, sharers := ∅ }
  | .exclusive | .modified => { info with state := .modified, owner := threadId }

def threadsToInvalidate (info : CachelineMetadata) : Finset Int32 :=
  match info.state with
  | .invalid => ∅
  | .shared => info.sharers
  | .exclusive | .modified => if info.owner ≠ threadId then {info.owner} else ∅

def vectorOf (b : Buf) (n : ℕ) : List UInt8 := (List.range n).map b

def bufferOf (v : List UInt8) : Buf := fun i => v.getD i 0

structure LineView where
  mem : Buf
  info : CachelineMetadata
  backInvalidations : UInt64

def applyEntry (hd : Header) (line : UInt64) (v : LineView) (entry : BackInvalidationEntry) (io : Io) : LineView :=
  if entry.dirtyData = [] then
    { v with
      info := ⟨.invalid, ∅, -1, max v.info.lastAccessTime entry.timestamp, v.info.version + 1⟩
      backInvalidations := v.backInvalidations + 1 }
  else if entry.timestamp > v.info.lastAccessTime then
    -- the data goes to the start of the line, wherever it came from
    let put := writeCacheline hd line (bufferOf entry.dirtyData) entry.dirtyData.length io
    { v with
      mem := storeAll v.mem put.2
      backInvalidations := if put.1 then v.backInvalidations + 1 else v.backInvalidations }
  else v

def applyEntries (hd : Header) (line : UInt64) (io : ℕ → Io) : ℕ → List BackInvalidationEntry → LineView → LineView
  | _, [], v => v
  | k, entry :: entries, v => applyEntries hd line io (k + 1) entries (applyEntry hd line v entry (io k))

def checkAndApplyBackInvalidations (line : UInt64) (io : ℕ → Io) : ServerState :=
  let v := applyEntries s.header line io 0 (s.backInvalidationQueue line) ⟨s.mem, s.metadata line, s.backInvalidations⟩
  { s.setMetadata line v.info with
    mem := v.mem
    backInvalidations := v.backInvalidations
    backInvalidationQueue := Function.update s.backInvalidationQueue line [] }

structure Served where
  resp : ServerResponse
  server : ServerState
  stored : List (ℕ × UInt8)

variable (s : ServerState) (job : Job) (env : Env) {line : UInt64}

def performRead : Served :=
  let s := checkAndApplyBackInvalidations s job.line env.apply
  let info := handleReadCoherency job.threadId (s.metadata job.line)
  let got := readCacheline s.header s.mem job.req.addr ServerResponse.zero.data job.req.size.toNat env.read
  if !got.1 then ⟨{ ServerResponse.failed with data := got.2 }, s.setMetadata job.line info, []⟩
  else
    ⟨{ ServerResponse.zero with data := got.2 },
      s.setMetadata job.line { info with lastAccessTime := job.req.timestamp }, []⟩

def performWrite : Served :=
  let size := job.req.size.toNat
  let holders := threadsToInvalidate job.threadId (s.metadata job.line)
  let info := handleWriteCoherency job.threadId (s.metadata job.line)
  let put := writeCacheline s.header job.req.addr job.req.data size env.write
  let s := { s with mem := storeAll s.mem put.2 }
  if !put.1 then ⟨.failed, s.setMetadata job.line info, put.2⟩
  else
    -- the queued bytes are read back; a failed read leaves the zeros of the vector
    let dirty := vectorOf (readCacheline s.header s.mem job.req.addr (fun _ => 0) size env.readBack).2 size
    let s := (holders.erase job.threadId).card.repeat
      (fun s => registerBackInvalidation s job.line dirty job.req.timestamp) s
    ⟨.zero, s.setMetadata job.line { info with lastAccessTime := job.req.timestamp }, put.2⟩

def takeOwnership (job : Job) (s : ServerState) : ServerState :=
  s.setMetadata job.line ⟨.modified, ∅, job.threadId, job.req.timestamp, (s.metadata job.line).version + 1⟩

def performFaa : Served :=
  let result := atomicFetchAddUint64 s.header s.mem job.req.addr job.req.value env.read env.write
  let s := { s with mem := storeAll s.mem result.stores }
  if !result.ok then ⟨.failed, s, result.stores⟩
  else ⟨{ ServerResponse.zero with oldValue := result.oldValue }, takeOwnership job s, result.stores⟩

def performCas : Served :=
  let result :=
    atomicCompareExchangeUint64 s.header s.mem job.req.addr job.req.expected job.req.value env.read env.write
  let s := { s with mem := storeAll s.mem result.stores }
  if !result.ok then ⟨.failed, s, result.stores⟩
  else
    let resp := { ServerResponse.zero with oldValue := result.oldValue }
    if result.oldValue = job.req.expected then ⟨resp, takeOwnership job s, result.stores⟩
    else
      -- a failed compare still moves the time of the line
      ⟨resp, s.setMetadata job.line { s.metadata job.line with lastAccessTime := job.req.timestamp }, result.stores⟩

def performWriteback : Served :=
  let size := job.req.size.toNat
  let put := writeCacheline s.header job.req.addr job.req.data size env.write
  let s := { s with mem := storeAll s.mem put.2 }
  if !put.1 then ⟨.failed, s, put.2⟩
  else
    let s := registerBackInvalidation (takeOwnership job s) job.line (vectorOf job.req.data size) job.req.timestamp
    ⟨{ ServerResponse.zero with oldValue := job.req.size },
      { s with biWritebackRequests := s.biWritebackRequests + 1 }, put.2⟩

def perform : Served :=
  match job.kind with
  | .read => performRead s job env
  | .write => performWrite s job env
  | .faa => performFaa s job env
  | .cas => performCas s job env
  | .fence => ⟨.zero, s, []⟩
  | .writeback => performWriteback s job env

def handleRequest (s : ServerState) (threadId : Int32) (req : ServerRequest) (env : Env) : Served :=
  match admitRequest s threadId req with
  | .answered resp s => ⟨resp, s, []⟩
  | .locked job s => perform s job env

lemma checkFabricAccess_status {c : Controller} {t : Int32} {req : ServerRequest} {w a : Bool} {status : DCDStatus}
    (h : (checkFabricAccess c t req w a).1 = some status) : statusCode status ≠ 0 := by
  unfold checkFabricAccess at h
  split_ifs at h with h1
  · cases h
    decide
  · dsimp only at h
    split_ifs at h with h2
    obtain rfl := Option.some.inj h
    have hdenied := gfamRecordAccess_denied (by simpa using h2)
    rw [hdenied]
    decide

lemma admitAccess_cases (t : Int32) (kind : JobKind) (req : ServerRequest) (w a : Bool) :
    (∃ resp s', admitAccess s t kind req w a = .answered resp s' ∧ resp.status ≠ 0) ∨
      ((checkFabricAccess s.controller t req w a).1 = none ∧
        ∃ s', s' = { s with controller := (checkFabricAccess s.controller t req w a).2 } ∧
          admitAccess s t kind req w a = .locked ⟨t, kind, req⟩ s') := by
  unfold admitAccess
  dsimp only
  cases hf : (checkFabricAccess s.controller t req w a).1 with
  | some status => exact .inl ⟨_, _, rfl, checkFabricAccess_status hf⟩
  | none =>
    dsimp only
    split_ifs
    · exact .inl ⟨_, _, rfl, by decide⟩
    · exact .inr ⟨rfl, _, rfl, rfl⟩

/-! ## What a request leaves alone -/

structure SameStorage (s s' : ServerState) : Prop where
  mem : s'.mem = s.mem
  header : s'.header = s.header
  metadata : s'.metadata = s.metadata

lemma SameStorage.refl : SameStorage s s := ⟨rfl, rfl, rfl⟩

lemma SameStorage.trans {s s' s'' : ServerState} (h : SameStorage s s') (h' : SameStorage s' s'') : SameStorage s s'' :=
  ⟨h'.mem.trans h.mem, h'.header.trans h.header, h'.metadata.trans h.metadata⟩

lemma admitAccess_sameStorage (t : Int32) (kind : JobKind) (req : ServerRequest) (w a : Bool) :
    SameStorage s (admitAccess s t kind req w a).server := by
  unfold admitAccess
  dsimp only
  split
  · exact ⟨rfl, rfl, rfl⟩
  · split_ifs <;> exact ⟨rfl, rfl, rfl⟩

lemma handleCapacityManagementRequest_sameStorage (t : Int32) (req : ServerRequest) :
    SameStorage s (handleCapacityManagementRequest s t req).2 := by
  unfold handleCapacityManagementRequest
  dsimp only
  split
  · split_ifs <;> exact ⟨rfl, rfl, rfl⟩
  all_goals exact ⟨rfl, rfl, rfl⟩

lemma registerBackInvalidation_sameStorage (line : UInt64) (data : List UInt8) (ts : UInt64) :
    SameStorage s (registerBackInvalidation s line data ts) := ⟨rfl, rfl, rfl⟩

lemma registerBackInvalidation_foldl_sameStorage (lines : List UInt64) (ts : UInt64) :
    SameStorage s (lines.foldl (fun s line => registerBackInvalidation s line [] ts) s) := by
  induction lines generalizing s with
  | nil => exact .refl s
  | cons line lines ih => exact (registerBackInvalidation_sameStorage s line [] ts).trans (ih _)

lemma handleBiInvalidate_sameStorage (req : ServerRequest) : SameStorage s (handleBiInvalidate s req).2 := by
  unfold handleBiInvalidate
  split
  · exact .refl s
  · split
    · exact ⟨rfl, rfl, rfl⟩
    · have hq := registerBackInvalidation_foldl_sameStorage s
      exact ⟨(hq _ _).mem, (hq _ _).header, (hq _ _).metadata⟩

lemma handleBiRequest_sameStorage (t : Int32) (req : ServerRequest) : SameStorage s (handleBiRequest s t req).2 := by
  unfold handleBiRequest
  dsimp only
  split
  · exact ⟨rfl, rfl, rfl⟩
  · exact ⟨rfl, rfl, rfl⟩
  · exact handleBiInvalidate_sameStorage s req
  · exact .refl s
  · exact .refl s

lemma handleLsaRequest_sameStorage (w : Bool) (req : ServerRequest) : SameStorage s (handleLsaRequest s w req).2 := by
  unfold handleLsaRequest
  dsimp only
  split_ifs <;> exact ⟨rfl, rfl, rfl⟩

lemma handleRangeRequest_sameStorage (t : Int32) (w : Bool) (req : ServerRequest) :
    SameStorage s (handleRangeRequest s t w req).2 := by
  unfold handleRangeRequest
  dsimp only
  split_ifs
  · exact .refl s
  · split <;> exact ⟨rfl, rfl, rfl⟩

lemma admitRequest_sameStorage (t : Int32) (req : ServerRequest) : SameStorage s (admitRequest s t req).server := by
  unfold admitRequest
  split
  case h_3 => exact .refl s
  case h_10 =>
    unfold admitWriteback
    dsimp only
    split_ifs <;> exact .refl s
  all_goals
    first
    | exact admitAccess_sameStorage ..
    | exact handleCapacityManagementRequest_sameStorage ..
    | exact handleBiRequest_sameStorage ..
    | exact handleRangeRequest_sameStorage ..
    | exact handleLsaRequest_sameStorage ..

lemma registerBackInvalidation_repeat_sameStorage (line : UInt64) (data : List UInt8) (ts : UInt64)
    (n : ℕ) : SameStorage s (n.repeat (fun s => registerBackInvalidation s line data ts) s) := by
  induction n with
  | zero => exact .refl s
  | succ n ih => exact ih.trans (registerBackInvalidation_sameStorage ..)

lemma perform_mem (hk : job.kind ≠ .read) :
    (perform s job env).server.mem = storeAll s.mem (perform s job env).stored := by
  unfold perform
  split
  · contradiction
  · unfold performWrite
    dsimp only
    split_ifs
    · rfl
    · exact (registerBackInvalidation_repeat_sameStorage _ _ _ _ _).mem
  · unfold performFaa
    dsimp only
    split_ifs <;> rfl
  · unfold performCas
    dsimp only
    split_ifs <;> rfl
  · rfl
  · unfold performWriteback
    dsimp only
    split_ifs <;> rfl

lemma performRead_mem :
    (performRead s job env).server.mem = (checkAndApplyBackInvalidations s job.line env.apply).mem ∧
      (performRead s job env).stored = [] := by
  unfold performRead
  dsimp only
  split_ifs <;> exact ⟨rfl, rfl⟩

def QuietLine (s : ServerState) (line : UInt64) : Prop :=
  ∀ entry ∈ s.backInvalidationQueue line, entry.dirtyData ≠ [] → entry.timestamp ≤ (s.metadata line).lastAccessTime

instance (s : ServerState) (line : UInt64) : Decidable (QuietLine s line) := by unfold QuietLine; infer_instance

lemma le_max_time (a b : UInt64) : a ≤ max a b := by
  rw [show max a b = if a ≤ b then b else a from rfl]
  split_ifs with h
  · exact h
  · exact UInt64.le_refl a

/-- applying entries only moves the line's time forward, so none comes to carry newer data -/
lemma applyEntries_mem {hd : Header} {io : ℕ → Io} {k : ℕ} {entries : List BackInvalidationEntry} {v : LineView}
    (hq : ∀ e ∈ entries, e.dirtyData ≠ [] → e.timestamp ≤ v.info.lastAccessTime) :
    (applyEntries hd line io k entries v).mem = v.mem := by
  induction entries generalizing k v with
  | nil => rfl
  | cons e entries ih =>
    rw [applyEntries]
    have hrest := fun e' he' => hq e' (List.mem_cons_of_mem e he')
    by_cases hempty : e.dirtyData = []
    · rw [applyEntry, if_pos hempty]
      exact ih fun e' he' hne => UInt64.le_trans (hrest e' he' hne) (le_max_time _ _)
    · have hold : ¬ e.timestamp > v.info.lastAccessTime := UInt64.not_lt.mpr (hq e List.mem_cons_self hempty)
      rw [applyEntry, if_neg hempty, if_neg hold]
      exact ih hrest

lemma checkAndApplyBackInvalidations_mem {s : ServerState} (io : ℕ → Io) (hq : QuietLine s line) :
    (checkAndApplyBackInvalidations s line io).mem = s.mem :=
  applyEntries_mem hq

end CxlMemSim.Server
