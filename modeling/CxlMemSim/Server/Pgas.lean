/-
The PGAS mode of the server (`poll_pgas_shm_requests`): a worker claims a client's slot by exchanging the request type
for NONE, serves it (`serveSlot`) and stores the response status. The mapped memory is a flat buffer; with the SSD
backend the bytes are those of `Server.Storage`. `PgasEnv` is what the backend answers.
-/
import CxlMemSim.Server.Requests

namespace CxlMemSim.Server.Pgas

open CxlMemSim.Core
open Dcd
open Gfam

inductive PgasReq where
  | read
  | write
  | atomicFaa
  | atomicCas
  | fence
  | readMeta
  | writeMeta
  | getMeta
  | setMeta
  | dcdAdd
  | dcdRelease
  | dcdQuery
  | gfamMap
  | gfamUnmap
  | gfamQuery
  | unknown (code : UInt32)
deriving DecidableEq, Repr

def PgasReq.ofCode (code : UInt32) : PgasReq :=
  match code.toNat with
  | 1 => .read
  | 2 => .write
  | 3 => .atomicFaa
  | 4 => .atomicCas
  | 5 => .fence
  | 6 => .readMeta
  | 7 => .writeMeta
  | 8 => .getMeta
  | 9 => .setMeta
  | 10 => .dcdAdd
  | 11 => .dcdRelease
  | 12 => .dcdQuery
  | 13 => .gfamMap
  | 14 => .gfamUnmap
  | 15 => .gfamQuery
  | _ => .unknown code

inductive RespStatus where
  | none
  | ok
  | error
deriving DecidableEq, Repr

structure Slot where
  reqType : UInt32
  respStatus : RespStatus
  addr : UInt64
  size : UInt64
  value : UInt64
  expected : UInt64
  timestamp : UInt64
  data : Buf

def respOf (status : DCDStatus) : RespStatus := if status = .ok then .ok else .error

/-! ## The server -/

structure PgasServer where
  memorySize : UInt64
  useStorageBackend : Bool
  baseAddr : UInt64
  mem : Buf
  controller : Controller

def numCachelines (s : PgasServer) : UInt64 := s.memorySize / 64

def storageHeader (s : PgasServer) : Header := ⟨.ssdStream, s.baseAddr, numCachelines s⟩

structure PgasEnv where
  read : Io
  write : Io
  flush : Bool

def PgasEnv.good : PgasEnv := ⟨fun _ => true, fun _ => true, true⟩

abbrev Reply := PgasServer × Slot

variable (s : PgasServer) (i : UInt32) (slot : Slot) (env : PgasEnv) {req : PgasReq}

def reject : Reply := (s, { slot with respStatus := .error })

def checkPgasFabricAccess (c : Controller) (i : UInt32) (addr : UInt64) (isWrite isAtomic : Bool) (accessSize : ℕ) :
    Bool × Controller :=
  let n := UInt64.ofNat (if accessSize = 0 then 64 else accessSize)
  if !dcdIsAllocated c addr n then (false, c)
  else
    let access := gfamRecordAccess c i addr n isWrite isAtomic
    (access.1.allowed, access.2)

def copySize : ℕ :=
  let n := min slot.size.toNat 64
  if s.useStorageBackend then n else min n (64 - slot.addr.toNat % 64)

def serveRead : Reply :=
  let fabric := checkPgasFabricAccess s.controller i slot.addr false false (copySize s slot)
  let s := { s with controller := fabric.2 }
  if !fabric.1 then reject s slot
  else if s.useStorageBackend then
    let got := readCacheline (storageHeader s) s.mem slot.addr slot.data (copySize s slot) env.read
    (s, { slot with data := got.2, respStatus := if got.1 then .ok else .error })
  else (s, { slot with data := memcpy slot.data 0 s.mem slot.addr.toNat (copySize s slot), respStatus := .ok })

def serveWrite : Reply :=
  let fabric := checkPgasFabricAccess s.controller i slot.addr true false (copySize s slot)
  let s := { s with controller := fabric.2 }
  if !fabric.1 then reject s slot
  else if s.useStorageBackend then
    let put := writeCacheline (storageHeader s) slot.addr slot.data (copySize s slot) env.write
    ({ s with mem := storeAll s.mem put.2 }, { slot with respStatus := if put.1 then .ok else .error })
  else
    ({ s with mem := memcpy s.mem slot.addr.toNat slot.data 0 (copySize s slot) }, { slot with respStatus := .ok })

def entryWord (mem : Buf) (addr : UInt64) : UInt64 := UInt64.ofNat (loadLE mem addr.toNat 8)

def storeEntryWord (addr value : UInt64) : List (ℕ × UInt8) :=
  (List.range 8).map fun k => (addr.toNat + k, byteLE value.toNat k)

def entryFetchAdd (mem : Buf) (addr value : UInt64) : AtomicResult :=
  if addr.toNat % 64 + 8 ≤ 64 then
    ⟨true, entryWord mem addr, storeEntryWord addr (entryWord mem addr + value)⟩
  else ⟨false, 0, []⟩

def entryCompareExchange (mem : Buf) (addr expected desired : UInt64) : AtomicResult :=
  if addr.toNat % 64 + 8 ≤ 64 then
    ⟨true, entryWord mem addr, if entryWord mem addr = expected then storeEntryWord addr desired else []⟩
  else ⟨false, 0, []⟩

def serveAtomic (atomic : AtomicResult) : Reply :=
  let fabric := checkPgasFabricAccess s.controller i slot.addr true true 8
  let s := { s with controller := fabric.2 }
  if !fabric.1 then reject s slot
  else if slot.addr + 8 ≤ numCachelines s * 64 then
    let s := { s with mem := storeAll s.mem atomic.stores }
    if !atomic.ok then reject s slot
    else
      (s, { slot with
        value := atomic.oldValue
        data := writeU64 slot.data 0 atomic.oldValue
        respStatus := .ok })
  else reject s slot

def serveFaa : Reply :=
  serveAtomic s i slot
    (if s.useStorageBackend then
      atomicFetchAddUint64 (storageHeader s) s.mem slot.addr slot.value env.read env.write
    else entryFetchAdd s.mem slot.addr slot.value)

def serveCas : Reply :=
  serveAtomic s i slot
    (if s.useStorageBackend then
      atomicCompareExchangeUint64 (storageHeader s) s.mem slot.addr slot.expected slot.value env.read env.write
    else entryCompareExchange s.mem slot.addr slot.expected slot.value)

def serveFence : Reply :=
  if s.useStorageBackend && !env.flush then reject s slot else (s, { slot with respStatus := .ok })

/-! ## Management -/

def serveDcdAdd : Reply :=
  let (result, c) := dcdAddCapacity s.controller slot.addr slot.size slot.value slot.timestamp
  let slot := { slot with
    value := result.base
    data := writeU64 (writeU64 slot.data 0 result.size) 8 result.tag
    respStatus := respOf result.status }
  if result.status = .ok ∧ c.gfamDevice.isSome then
    ({ s with controller := (gfamGrantAccess c i result.base result.size permAll).2 }, slot)
  else ({ s with controller := c }, slot)

def serveDcdRelease : Reply :=
  let (status, c) := dcdReleaseCapacity s.controller slot.addr slot.size slot.value slot.timestamp
  ({ s with controller := c }, { slot with respStatus := respOf status })

def serveDcdQuery : Reply :=
  let stats := getDcdStats s.controller
  (s, { slot with
    value := stats.allocatedCapacity
    data := writeU64 (writeU64 (writeU64 (writeU64 slot.data 0 stats.totalCapacity) 8 stats.freeCapacity) 16
      stats.activeExtents) 24 stats.failedRequests
    respStatus := .ok })

def serveGfamMap : Reply :=
  let permissions := if slot.expected = 0 then permAll else slot.expected.toUInt32
  let (status, c) := gfamGrantAccess s.controller slot.value.toUInt32 slot.addr slot.size permissions
  ({ s with controller := c }, { slot with respStatus := respOf status })

def serveGfamUnmap : Reply :=
  let (status, c) := gfamRevokeAccess s.controller slot.value.toUInt32 slot.addr slot.size
  ({ s with controller := c }, { slot with respStatus := respOf status })

def serveGfamQuery : Reply :=
  -- the average latency, at offset 48, is left out
  let stats := getGfamStats s.controller
  (s, { slot with
    value := stats.hosts
    data := writeU64 (writeU64 (writeU64 (writeU64 (writeU64 (writeU64 slot.data 0 stats.mappings) 8
      stats.sharedMappings) 16 stats.readOps) 24 stats.writeOps) 32 stats.atomicOps) 40 stats.deniedAccesses
    respStatus := .ok })

def serveCode : PgasReq → Reply
  | .read => serveRead s i slot env
  | .write => serveWrite s i slot env
  | .atomicFaa => serveFaa s i slot env
  | .atomicCas => serveCas s i slot env
  | .fence => serveFence s slot env
  | .dcdAdd => serveDcdAdd s i slot
  | .dcdRelease => serveDcdRelease s slot
  | .dcdQuery => serveDcdQuery s slot
  | .gfamMap => serveGfamMap s slot
  | .gfamUnmap => serveGfamUnmap s slot
  | .gfamQuery => serveGfamQuery s slot
  -- default: break
  | .readMeta | .writeMeta | .getMeta | .setMeta | .unknown _ => (s, slot)

/-- is the address past the memory; every request is tested, whether it uses the address or not -/
def outOfRange (addr : UInt64) : Bool := addr / 64 ≥ numCachelines s

def serveSlot : Reply :=
  let req := PgasReq.ofCode slot.reqType
  let slot := { slot with reqType := 0 }
  if outOfRange s slot.addr then reject s slot else serveCode s i slot env req

/-! ## Every case answers -/

def Handled (code : UInt32) : Prop := (1 ≤ code.toNat ∧ code.toNat ≤ 5) ∨ (10 ≤ code.toNat ∧ code.toNat ≤ 15)

instance (code : UInt32) : Decidable (Handled code) := inferInstanceAs (Decidable (_ ∨ _))

def PgasReq.dropped : PgasReq → Bool
  | .readMeta | .writeMeta | .getMeta | .setMeta | .unknown _ => true
  | _ => false

lemma dropped_ofCode (code : UInt32) : (PgasReq.ofCode code).dropped = true ↔ ¬ Handled code := by
  unfold PgasReq.ofCode Handled
  split <;> simp_all [PgasReq.dropped]
  omega

structure Answered (slot : Slot) : Prop where
  status : slot.respStatus ≠ .none
  handed_back : slot.reqType = 0

lemma respOf_ne_none (status : DCDStatus) : respOf status ≠ .none := by
  unfold respOf
  split_ifs <;> decide

lemma reject_answered {slot : Slot} (h : slot.reqType = 0) : Answered (reject s slot).2 := ⟨by simp [reject], h⟩

lemma serveRead_answered {slot : Slot} (env : PgasEnv) (h : slot.reqType = 0) :
    Answered (serveRead s i slot env).2 := by
  unfold serveRead
  dsimp only
  split_ifs
  · exact reject_answered _ h
  all_goals exact ⟨nofun, h⟩

lemma serveWrite_answered {slot : Slot} (env : PgasEnv) (h : slot.reqType = 0) :
    Answered (serveWrite s i slot env).2 := by
  unfold serveWrite
  dsimp only
  split_ifs
  · exact reject_answered _ h
  all_goals exact ⟨nofun, h⟩

lemma serveAtomic_answered {slot : Slot} (atomic : AtomicResult)
    (h : slot.reqType = 0) : Answered (serveAtomic s i slot atomic).2 := by
  unfold serveAtomic
  dsimp only
  split_ifs
  · exact reject_answered _ h
  · exact reject_answered _ h
  · exact ⟨nofun, h⟩
  · exact reject_answered _ h

lemma serveFence_answered {slot : Slot} (env : PgasEnv) (h : slot.reqType = 0) :
    Answered (serveFence s slot env).2 := by
  unfold serveFence
  split_ifs
  · exact reject_answered _ h
  · exact ⟨nofun, h⟩

lemma serveDcdAdd_answered {slot : Slot} (h : slot.reqType = 0) : Answered (serveDcdAdd s i slot).2 := by
  unfold serveDcdAdd
  dsimp only
  split_ifs <;> exact ⟨respOf_ne_none _, h⟩

/-- Dispatch. A request that is not dropped is answered. -/
lemma serveCode_answers {slot : Slot} (env : PgasEnv) (h : slot.reqType = 0)
    (hreq : req.dropped = false) : Answered (serveCode s i slot env req).2 := by
  cases req with
  | read => exact serveRead_answered s i env h
  | write => exact serveWrite_answered s i env h
  | atomicFaa | atomicCas => exact serveAtomic_answered s i _ h
  | fence => exact serveFence_answered s env h
  | dcdAdd => exact serveDcdAdd_answered s i h
  | dcdRelease | gfamMap | gfamUnmap => exact ⟨respOf_ne_none _, h⟩
  | dcdQuery | gfamQuery => exact ⟨nofun, h⟩
  | _ => cases hreq

lemma serveCode_dropped (hreq : req.dropped = true) : serveCode s i slot env req = (s, slot) := by
  cases req <;> first | rfl | cases hreq

def smallServer : PgasServer := ⟨4096, false, 0, fun _ => 0, ⟨none, none⟩⟩

/-- An unanswered request. READ_META of line 0 is claimed and its status stays NONE. -/
theorem metadata_request_unanswered :
    (serveSlot smallServer 0 ⟨6, .none, 0, 64, 0, 0, 0, fun _ => 0⟩ .good).2.respStatus = .none ∧
      (serveSlot smallServer 0 ⟨6, .none, 0, 64, 0, 0, 0, fun _ => 0⟩ .good).2.reqType = 0 := by
  decide +kernel

/-- A request is answered exactly when its address is out of range or its code has a case. -/
theorem answered_iff (s : PgasServer) (i : UInt32) (slot : Slot) (env : PgasEnv) (hwait : slot.respStatus = .none) :
    Answered (serveSlot s i slot env).2 ↔ outOfRange s slot.addr = true ∨ Handled slot.reqType := by
  unfold serveSlot
  dsimp only
  by_cases hrange : outOfRange s slot.addr = true
  · rw [if_pos hrange]
    exact iff_of_true (reject_answered s rfl) (Or.inl hrange)
  · rw [if_neg hrange, or_iff_right hrange]
    cases hdrop : (PgasReq.ofCode slot.reqType).dropped with
    | true =>
      have hcode := (dropped_ofCode slot.reqType).1 hdrop
      rw [serveCode_dropped _ _ _ _ hdrop]
      exact iff_of_false (fun h => h.status hwait) hcode
    | false =>
      have hcode : Handled slot.reqType := by
        by_contra hno
        rw [(dropped_ofCode slot.reqType).2 hno] at hdrop
        cases hdrop
      exact iff_of_true (serveCode_answers s i env rfl hdrop) hcode

theorem answered_read : Answered (serveSlot smallServer 0 ⟨1, .none, 64, 8, 0, 0, 0, fun _ => 0⟩ .good).2 ↔
      outOfRange smallServer 64 = true ∨ Handled 1 :=
  answered_iff smallServer 0 ⟨1, .none, 64, 8, 0, 0, 0, fun _ => 0⟩ .good rfl

end CxlMemSim.Server.Pgas
