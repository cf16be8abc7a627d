/-
The functions of the guest CUDA library that submit commands, as programs over BAR2. What a function reads of the
process's own tables and whether an allocation fails are arguments. Most are one command between `cmd_lock` and
`cmd_unlock` (`lockedCommand`); `cxl_module_load_cubin`, the PTX path of `cxl_module_load_image`, `cuMemsetD8_v2`,
`cuMemsetD32_v2` and the seven `cxl_p2p_*` functions do not lock.
-/
import CxlMemSim.Guest.Transport

namespace CxlMemSim.Guest

open CxlMemSim.Core

/-! ## The common shape -/

structure Reply where
  result : UInt32
  values : List UInt64
  bytes : List UInt8
deriving DecidableEq, Repr

def Reply.code (result : UInt32) : Reply := ⟨result, [], []⟩

def readResults : List (Fin 4) → Bar2 (List UInt64)
  | [] => pure []
  | i :: is => do
    let x ← regRead64 (.result i)
    let xs ← readResults is
    return x :: xs

def readOnSuccess (result : UInt32) (is : List (Fin 4)) : Bar2 (List UInt64) :=
  if result = success then readResults is else pure []

def lockedCommand (data : List (ℕ × List UInt8)) (ps : List UInt64) (cmd : Command) (always onSuccess : List (Fin 4)) :
    Bar2 Reply := do
  cmdLock
  let result ← command data ps cmd
  let first ← readResults always
  let more ← readOnSuccess result onSuccess
  cmdUnlock
  return ⟨result, first ++ more, []⟩

def unlockedCommand (data : List (ℕ × List UInt8)) (ps : List UInt64) (cmd : Command) (onSuccess : List (Fin 4)) :
    Bar2 Reply := do
  let result ← command data ps cmd
  let values ← readOnSuccess result onSuccess
  return ⟨result, values, []⟩

def uint32Max : UInt64 := 0xffffffff
def uint64Max : UInt64 := 0xffffffffffffffff

def createCommand (ps : List UInt64) (cmd : Command) : Bar2 Reply := do
  cmdLock
  let result ← command [] ps cmd
  let id ← regRead64 (.result 0)
  cmdUnlock
  return if result = success ∧ id > uint32Max then .code errorInvalidHandle else ⟨result, [id], []⟩

def dataReadSome (off len : ℕ) : Bar2 (List UInt8) := if len = 0 then pure [] else dataRead off len

def bytesAt (mem : Buf) (off n : ℕ) : List UInt8 := (List.range n).map fun i => mem (off + i)

@[simp] lemma length_bytesAt (mem : Buf) (off n : ℕ) : (bytesAt mem off n).length = n := by simp [bytesAt]

def number (bytes : List UInt8) (off n : ℕ) : ℕ := loadLE (fun i => bytes.getD i 0) off n

def littleEndian (n v : ℕ) : List UInt8 := (List.range n).map (byteLE v)

/-- copies `total` bytes in chunks of at most `limit`, to the first failure; the fuel is the number of bytes -/
def copyLoop (limit total : ℕ) (body : ℕ → ℕ → Bar2 Reply) : ℕ → ℕ → Bar2 Reply
  | 0, _ => pure (.code success)
  | fuel + 1, offset =>
    if offset < total then do
      let chunk := min (total - offset) limit
      let reply ← body offset chunk
      if reply.result ≠ success then return reply
      let rest ← copyLoop limit total body fuel (offset + chunk)
      return { rest with bytes := reply.bytes ++ rest.bytes }
    else pure (.code success)

/-! ## Errors, devices, contexts -/

def errorText (cmd : Command) (error : UInt64) (oom : Bool) : Bar2 Reply := do
  cmdLock
  let result ← command [] [error] cmd
  let length ← regRead64 (.result 0)
  if result ≠ success then
    cmdUnlock
    return .code result
  if length.toNat ≥ dataSize then
    cmdUnlock
    return .code errorInvalidValue
  if oom then
    cmdUnlock
    return .code errorOutOfMemory
  let text ← dataRead 0 (length.toNat + 1)
  cmdUnlock
  if text.getD length.toNat 0 ≠ 0 then return .code errorInvalidValue
  return ⟨success, [], text⟩

def cuGetErrorName (error : UInt64) (oom : Bool) : Bar2 Reply := errorText .getErrorName error oom

def cuGetErrorString (error : UInt64) (oom : Bool) : Bar2 Reply := errorText .getErrorString error oom

def cuDeviceGetCount : Bar2 Reply := lockedCommand [] [] .getDeviceCount [] [0]

def cuDeviceGet (ordinal : UInt64) : Bar2 Reply := lockedCommand [] [ordinal] .getDevice [] [0]

def cuDeviceTotalMem_v2 : Bar2 Reply := lockedCommand [] [] .getTotalMem [] [0]

def cuDeviceGetAttribute (attrib : UInt64) : Bar2 Reply := lockedCommand [] [attrib] .getDeviceAttribute [] [0]

def cuDeviceCanAccessPeer (dev peer : UInt64) : Bar2 Reply := lockedCommand [] [dev, peer] .deviceCanAccessPeer [] [0]

def cuCtxEnablePeerAccess (peer flags : UInt64) : Bar2 Reply := lockedCommand [] [peer, flags] .ctxEnablePeer [] []

def cuCtxDisablePeerAccess (peer : UInt64) : Bar2 Reply := lockedCommand [] [peer] .ctxDisablePeer [] []

def cuCtxGetLimit (limit : UInt64) : Bar2 Reply := lockedCommand [] [limit] .ctxGetLimit [] [0]

def contextCreate (commit : UInt64 → UInt32) : Bar2 Reply := do
  cmdLock
  let err ← command [] [] .ctxCreate
  let reply ← if err = success then do
      let token ← regRead64 (.result 0)
      pure ⟨commit token, [token], []⟩
    else pure (.code err)
  cmdUnlock
  return reply

def cuCtxCreate_v2 (commit : UInt64 → UInt32) : Bar2 Reply := contextCreate commit

def cuDevicePrimaryCtxRetain (known : Option UInt64) (commit : UInt64 → UInt32) : Bar2 Reply :=
  match known with
  | some token => pure ⟨success, [token], []⟩
  | none => contextCreate commit

def cuCtxDestroy_v2 (commit : UInt32) : Bar2 Reply := do
  cmdLock
  let err ← command [] [] .ctxDestroy
  cmdUnlock
  return .code (if err = success then commit else err)

def directSourcesCompleteLocked : List UInt64 → Bar2 UInt32
  | [] => pure success
  | source :: rest =>
    if source = 0 then directSourcesCompleteLocked rest
    else do
      let result ← command [] [source] .sourceUnregister
      if result ≠ success then return result
      directSourcesCompleteLocked rest

def drainCommand (ps : List UInt64) (cmd : Command) (pending : List UInt64) : Bar2 Reply := do
  cmdLock
  let result ← command [] ps cmd
  let result ← if result = success then directSourcesCompleteLocked pending else pure result
  cmdUnlock
  return .code result

def cuCtxSynchronize (pending : List UInt64) : Bar2 Reply := drainCommand [] .ctxSync pending

/-! ## Memory -/

def cuMemAlloc_v2 (bytesize : UInt64) : Bar2 Reply := lockedCommand [] [bytesize] .memAlloc [] [0]

def cuMemFree_v2 (dptr : UInt64) : Bar2 Reply := lockedCommand [] [dptr] .memFree [] []

def cuMemcpyHtoD_v2 (dst : UInt64) (src : Buf) (byteCount : UInt64) (bar4 : Option UInt64) : Bar2 Reply :=
  match bar4 with
  | some base =>
    copyLoop bulkTransferSize byteCount.toNat (fun offset chunk =>
      lockedCommand [] [base + .ofNat offset, dst + .ofNat offset, .ofNat chunk] .bulkHtod [] []) byteCount.toNat 0
  | none =>
    copyLoop dataSize byteCount.toNat (fun offset chunk =>
      lockedCommand [(0, bytesAt src offset chunk)] [dst + .ofNat offset, .ofNat chunk] .memCopyHtod [] [])
      byteCount.toNat 0

def cuMemcpyDtoH_v2 (src : UInt64) (byteCount : UInt64) (bar4 : Option UInt64) : Bar2 Reply :=
  match bar4 with
  | some base =>
    copyLoop bulkTransferSize byteCount.toNat (fun offset chunk =>
      lockedCommand [] [src + .ofNat offset, base + .ofNat offset, .ofNat chunk] .bulkDtoh [] []) byteCount.toNat 0
  | none =>
    copyLoop dataSize byteCount.toNat (fun offset chunk => do
      cmdLock
      let err ← command [] [src + .ofNat offset, .ofNat chunk] .memCopyDtoh
      if err ≠ success then
        cmdUnlock
        return .code err
      let bytes ← dataRead 0 chunk
      cmdUnlock
      return ⟨success, [], bytes⟩) byteCount.toNat 0

structure HtodRoute where
  fullTransfer : Bool
  prefixBytes : UInt64
  remainingBytes : UInt64
  bar4Size : UInt64
  staging : Option UInt64
deriving DecidableEq, Repr

def htodRouteAllocateLocked (route : HtodRoute) : Bar2 (Except UInt32 UInt64) :=
  match route.staging with
  | some offset => pure (.ok offset)
  | none => do
    let result ← command [] [route.prefixBytes] .coherentAlloc
    if result ≠ success then return .error result
    let offset ← regRead64 (.result 0)
    if offset > route.bar4Size ∨ route.prefixBytes > route.bar4Size - offset then return .error errorInvalidValue
    return .ok offset

def routeLoop (route : HtodRoute) (dst stream : UInt64) (target : ℕ) : Option UInt64 → ℕ → ℕ → Bar2 UInt32
  | _, 0, _ => pure success
  | staging, fuel + 1, offset =>
    if offset < target then do
      let routed := min (target - offset) route.prefixBytes.toNat
      let staged ← htodRouteAllocateLocked { route with staging }
      match staged with
      | .error result => return result
      | .ok base =>
        let result ← command [] [base, dst + .ofNat offset, .ofNat routed, stream] .bulkHtodAsync
        if result ≠ success then return result
        routeLoop route dst stream target (some base) fuel (offset + routed)
    else pure success

def routePart (route : HtodRoute) (dst stream byteCount : UInt64) : Bar2 (UInt32 × ℕ) := do
  cmdLock
  let wanted := min (if route.fullTransfer then byteCount.toNat else route.prefixBytes.toNat) byteCount.toNat
  if wanted > route.remainingBytes.toNat ∧ route.fullTransfer then
    cmdUnlock
    return (errorOutOfMemory, 0)
  let target := min wanted route.remainingBytes.toNat
  let result ← routeLoop route dst stream target route.staging target 0
  cmdUnlock
  return (result, target)

def cuMemcpyHtoDAsync_v2 (dst : UInt64) (src : Buf) (byteCount stream : UInt64) (route : Option HtodRoute) :
    Bar2 Reply := do
  let routed ← match route with
    | some route => routePart route dst stream byteCount
    | none => pure (success, 0)
  if routed.1 ≠ success then return .code routed.1
  copyLoop dataSize byteCount.toNat (fun offset chunk =>
    lockedCommand [(0, bytesAt src offset chunk)] [dst + .ofNat offset, .ofNat chunk, stream] .memCopyHtodAsync [] [])
    byteCount.toNat routed.2

structure BatchRange where
  dst : UInt64
  src : UInt64
  memory : Buf
  size : UInt64

def BatchRange.bad (r : BatchRange) : Bool :=
  r.src = 0 ∨ r.dst = 0 ∨ r.size = 0 ∨ r.size > uint64Max - r.src ∨ r.size > uint64Max - r.dst

/-- `CXLGPUSourceRegisterV1` followed by the `CXLGPUSourceVirtualRangeV1` table -/
def sourceRegisterHeader (ranges : List BatchRange) : List UInt8 :=
  littleEndian 4 0 ++ littleEndian 4 ranges.length ++ littleEndian 8 0 ++
    littleEndian 8 (ranges.map fun r => r.size.toNat).sum ++ littleEndian 24 0

def sourceRanges (ranges : List BatchRange) : List UInt8 :=
  ranges.flatMap fun r => littleEndian 8 r.src.toNat ++ littleEndian 8 r.size.toNat

def directRanges (ranges : List BatchRange) : List UInt8 :=
  (ranges.mapIdx fun i r =>
    littleEndian 8 r.dst.toNat ++ littleEndian 8 r.size.toNat ++ littleEndian 8 0 ++ littleEndian 4 i ++
      littleEndian 4 0 ++ littleEndian 8 0).flatten

def batchWrites : List (ℕ × List UInt8) → Bar2 Bool
  | [] => pure true
  | (off, bytes) :: rest => do
    let ok ← batchDataWrite off bytes
    if ok then batchWrites rest else return false

def cuMemcpyBatchDirectAsync (ranges : List BatchRange) (stream : UInt64) : Bar2 Reply := do
  let registerBytes := sourceRegisterSize + ranges.length * virtualRangeSize
  let directBytes := ranges.length * directRangeSize
  if ranges.any BatchRange.bad ∨ (ranges.map fun r => r.size.toNat).sum ≥ 2 ^ 64 then
    return .code errorInvalidValue
  if registerBytes > batchDataSize then return .code errorNotSupported
  cmdLock
  if directBytes > batchDataSize - registerBytes then
    cmdUnlock
    return .code errorUnknown
  let ok ← batchWrites [(0, sourceRegisterHeader ranges), (sourceRegisterSize, sourceRanges ranges),
    (registerBytes, directRanges ranges)]
  if !ok then
    cmdUnlock
    return .code errorUnknown
  writeParams 0 [.ofNat registerBytes, .ofNat ranges.length, stream]
  let result ← executeCmd .sourceRegisterBatchHtodDirectAsync
  let values ← if result ≠ success then readResults [0, 2] else pure []
  cmdUnlock
  return ⟨result, values, []⟩

def batchHeader (count payloadBytes : ℕ) : List UInt8 :=
  littleEndian 4 batchHeaderSize ++ littleEndian 4 count ++ littleEndian 4 batchRangeSize ++ littleEndian 4 0 ++
    littleEndian 8 payloadBytes ++ littleEndian 8 0

/-- the offsets of the payloads and the end of the last; the first bad range decides the error -/
def batchPlan : ℕ → List BatchRange → Except UInt32 (List ℕ × ℕ)
  | off, [] => .ok ([], off)
  | off, r :: rs =>
    if r.bad then .error errorInvalidValue
    else if r.size.toNat > batchDataSize - off then .error errorNotSupported
    else (batchPlan (off + r.size.toNat) rs).map fun plan => (off :: plan.1, plan.2)

def batchRangeWrites (index off : ℕ) (r : BatchRange) : List (ℕ × List UInt8) :=
  [(batchHeaderSize + index * batchRangeSize,
      littleEndian 8 off ++ littleEndian 8 r.dst.toNat ++ littleEndian 8 r.size.toNat),
    (off, bytesAt r.memory 0 r.size.toNat)]

def batchImage (ranges : List BatchRange) (offsets : List ℕ) (payloadBytes : ℕ) : List (ℕ × List UInt8) :=
  (0, batchHeader ranges.length payloadBytes) ::
    ((offsets.zip ranges).mapIdx fun i r => batchRangeWrites i r.1 r.2).flatten

def batchResult (result : UInt32) (count : ℕ) (failIdx enqueued : UInt64) : UInt32 :=
  if result = success then (if failIdx ≠ uint64Max ∨ enqueued.toNat ≠ count then errorUnknown else success)
  else if failIdx.toNat < count then (if enqueued ≠ failIdx then errorUnknown else result)
  else if failIdx ≠ uint64Max ∨ enqueued ≠ 0 then errorUnknown else result

def batchPath (ranges : List BatchRange) (stream : UInt64) : Bar2 Reply := do
  let count := ranges.length
  if batchHeaderSize + count * batchRangeSize > batchDataSize ∨ batchPayloadStart count > batchDataSize then
    return .code errorNotSupported
  match batchPlan (batchPayloadStart count) ranges with
  | .error result => return .code result
  | .ok (offsets, payloadBytes) => do
    cmdLock
    let ok ← batchWrites (batchImage ranges offsets payloadBytes)
    if !ok then
      cmdUnlock
      return .code errorUnknown
    writeParams 0 [.ofNat count, .ofNat payloadBytes, stream]
    let result ← executeCmd .batchHtodAsync
    let failIdx ← regRead64 (.result 0)
    let enqueued ← regRead64 (.result 1)
    cmdUnlock
    return ⟨batchResult result count failIdx enqueued, [failIdx, enqueued], []⟩

/-- with direct sources the direct path is tried first, the batch path only after an invalid-value failure that enqueued
nothing -/
def cuMemcpyBatchAsync (ranges : List BatchRange) (stream : UInt64) (direct : Bool) : Bar2 Reply := do
  if direct then
    if (ranges.map fun r => r.size.toNat).sum ≥ 2 ^ 64 then return .code errorInvalidValue
    let reply ← cuMemcpyBatchDirectAsync ranges stream
    if reply.result ≠ errorInvalidValue ∨ reply.values.getD 1 0 ≠ 0 then return reply
    batchPath ranges stream
  else batchPath ranges stream

def cuMemcpyDtoD_v2 (dst src byteCount : UInt64) : Bar2 Reply :=
  lockedCommand [] [dst, src, byteCount] .memCopyDtod [] []

def cuMemcpyDtoDAsync_v2 (dst src byteCount stream : UInt64) : Bar2 Reply :=
  lockedCommand [] [dst, src, byteCount, stream] .memCopyDtodAsync [] []

def cxlMemcpy2dDeviceToDevice (dst src dstPitch srcPitch width height stream : UInt64) : Bar2 Reply :=
  lockedCommand [] [dst, src, dstPitch, srcPitch, width, height, stream] .memCopy2dDtod [] []

def cxlCudaPointerIsDevice (ptr : UInt64) : Bar2 Reply := do
  let reply ← lockedCommand [] [ptr] .memGetPointerMemoryType [] [0]
  return if reply.result = errorInvalidValue then .code success else reply

def cuMemGetInfo_v2 (token : UInt64) (free total : Bool) : Bar2 Reply :=
  lockedCommand [] [token] .memGetInfo [] ((if free then [0] else []) ++ if total then [1] else [])

def cuMemPrefetchAsync (ptr count dev stream : UInt64) : Bar2 Reply :=
  lockedCommand [] [ptr, count, dev, stream] .memPrefetchAsync [] []

def cuMemsetD8_v2 (dst : UInt64) (uc : UInt8) (n : UInt64) : Bar2 Reply :=
  copyLoop dataSize n.toNat (fun offset chunk =>
    unlockedCommand [(0, bytesAt (fun _ => uc) offset chunk)] [dst + .ofNat offset, .ofNat chunk] .memCopyHtod [])
    n.toNat 0

def cuMemsetD32_v2 (dst : UInt64) (ui : UInt32) (n : UInt64) : Bar2 Reply :=
  copyLoop (dataSize / 4) n.toNat (fun done chunk =>
    unlockedCommand [(0, bytesAt (fun i => byteLE ui.toNat (i % 4)) 0 (chunk * 4))]
      [dst + .ofNat done * 4, .ofNat (chunk * 4)] .memCopyHtod []) n.toNat 0

/-! ## Modules and functions -/

def cString (name : List UInt8) : List UInt8 := name.takeWhile (· ≠ 0) ++ [0]

def cuModuleGetLoadingMode : Bar2 Reply := lockedCommand [] [] .moduleGetLoadingMode [] [0]

def cuModuleUnload (module : UInt64) : Bar2 Reply := lockedCommand [] [module] .moduleUnload [] []

def nameCommand (module : UInt64) (name : List UInt8) (cmd : Command) (onSuccess : List (Fin 4)) : Bar2 Reply := do
  if (cString name).length > dataSize then return .code errorInvalidValue
  cmdLock
  regWrite64 (.param 0) module
  dataWrite 0 (cString name)
  let result ← executeCmd cmd
  let values ← readOnSuccess result onSuccess
  cmdUnlock
  return ⟨result, values, []⟩

def cuModuleGetFunction (module : UInt64) (name : List UInt8) : Bar2 Reply := nameCommand module name .funcGet [0]

def cuModuleGetGlobal_v2 (module : UInt64) (name : List UInt8) : Bar2 Reply :=
  nameCommand module name .moduleGetGlobal [0, 1]

def cxlModuleLoadCubin (image : Buf) (imageSize encoding uncompressedSize : UInt64) : Bar2 Reply := do
  if imageSize = 0 ∨ imageSize.toNat > dataSize then return .code errorInvalidValue
  unlockedCommand [(0, bytesAt image 0 imageSize.toNat)] [imageSize, encoding, uncompressedSize] .moduleLoadCubin [0]

def cxlModuleLoadPtx (image : List UInt8) : Bar2 Reply := do
  if (cString image).length > dataSize then return .code errorInvalidValue
  dataWrite 0 (cString image)
  let result ← executeCmd .moduleLoadPtx
  let values ← readOnSuccess result [0]
  return ⟨result, values, []⟩

def cuFuncGetAttribute (function attrib : UInt64) : Bar2 Reply :=
  lockedCommand [] [function, attrib] .funcGetAttribute [] [0]

def cuFuncSetAttribute (function attrib value : UInt64) : Bar2 Reply :=
  lockedCommand [] [function, attrib, value] .funcSetAttribute [] []

def cuOccupancyMaxActiveBlocksPerMultiprocessorWithFlags (function blockSize dynamicSMemSize flags : UInt64) :
    Bar2 Reply := lockedCommand [] [function, blockSize, dynamicSMemSize, flags] .funcGetOccupancy [] [0]

def maxKernelArgs : ℕ := 64

structure ParamLayout where
  extent : ℕ
  params : List (ℕ × ℕ)
  fits : extent ≤ dataSize
  within : ∀ p ∈ params, p.1 + p.2 ≤ extent

def wireParams (bytes : List UInt8) (off count : ℕ) : List (ℕ × ℕ) :=
  (List.range count).map fun i => (number bytes (off + 16 * i) 8, number bytes (off + 16 * i + 8) 8)

def decodeLayout (bytes : List UInt8) : Option ParamLayout :=
  let params := wireParams bytes 16 (number bytes 0 4)
  if h : number bytes 8 8 ≤ dataSize ∧ ∀ p ∈ params, p.1 + p.2 ≤ number bytes 8 8 then
    if number bytes 4 4 ≠ 0 ∨ number bytes 0 4 > maxKernelArgs then none
    else some ⟨number bytes 8 8, params, h.1, h.2⟩
  else none

def functionParamLayoutCopy (function : UInt64) (cached : Option ParamLayout) (oom : Bool) :
    Bar2 (Except UInt32 ParamLayout) :=
  match cached with
  | some layout => pure (.ok layout)
  | none => do
    cmdLock
    let result ← command [] [function] .funcGetParamLayout
    if result ≠ success then
      cmdUnlock
      return .error result
    let wire ← dataRead 0 functionParamLayoutSize
    let _ ← regRead64 (.result 0)
    cmdUnlock
    match decodeLayout wire with
    | none => return .error errorInvalidValue
    | some layout => return if oom then .error errorOutOfMemory else .ok layout

def cuFuncGetParamInfo (function : UInt64) (cached : Option ParamLayout) (oom : Bool) : Bar2 Reply := do
  let layout ← functionParamLayoutCopy function cached oom
  match layout with
  | .error result => return .code result
  | .ok _ => return .code success

def paramBuffer (layout : ParamLayout) (args : ℕ → Buf) : List UInt8 :=
  bytesAt ((layout.params.zipIdx.foldl (fun buf p => memcpy buf p.1.1 (args p.2) 0 p.1.2)) fun _ => 0) 0 layout.extent

def paramCommand (function : UInt64) (cached : Option ParamLayout) (oom : Bool) (args : ℕ → Option Buf)
    (ps : ParamLayout → List UInt64) (cmd : Command) : Bar2 Reply := do
  let layout ← functionParamLayoutCopy function cached oom
  match layout with
  | .error result => return .code result
  | .ok layout =>
    if (List.range layout.params.length).any fun i => (args i).isNone then return .code errorInvalidValue
    let buffer := paramBuffer layout fun i => (args i).getD fun _ => 0
    lockedCommand (if layout.extent = 0 then [] else [(0, buffer)]) (ps layout) cmd [] []

def pack (high low : UInt64) : UInt64 := high <<< 32 ||| low

structure LaunchDims where
  (gridX gridY gridZ blockX blockY blockZ : UInt64)
deriving DecidableEq, Repr

def cuLaunchKernel (function : UInt64) (dims : LaunchDims) (sharedMemBytes stream : UInt64) (args : ℕ → Option Buf)
    (cached : Option ParamLayout) (oom : Bool) : Bar2 Reply :=
  paramCommand function cached oom args (fun layout =>
    [function, pack dims.gridY dims.gridX, pack dims.blockX dims.gridZ, pack dims.blockZ dims.blockY,
      pack (.ofNat layout.params.length) sharedMemBytes, .ofNat layout.extent, stream]) .launchKernel

/-! ## Graphs and the linker -/

/-- a snapshot after the first call; `oom` is a failed allocation of the arguments, `oomSnapshot` of the snapshot -/
def cuGraphKernelNodeGetParams (node : UInt64) (snapshot oom oomSnapshot : Bool) : Bar2 Reply := do
  cmdLock
  if snapshot then
    cmdUnlock
    return .code success
  let result ← command [] [node] .graphKernelNodeGetParams
  if result ≠ success then
    cmdUnlock
    return .code result
  let wire ← dataRead 0 graphKernelNodeParamsSize
  let numArgs := number wire 32 4
  let extent := number wire 40 8
  if number wire 0 4 = 0xffffffff ∨ number wire 36 4 ≠ 0 ∨ numArgs > maxKernelArgs ∨
      numArgs > (dataSize - graphKernelNodeParamsSize) / kernelNodeParamSize ∨ (numArgs ≠ 0 ∧ extent = 0) ∨
      extent > dataSize - graphKernelNodeParamsSize - numArgs * kernelNodeParamSize then
    cmdUnlock
    return .code errorInvalidValue
  if oom then
    cmdUnlock
    return .code errorOutOfMemory
  let bytes ← dataReadSome (graphKernelNodeParamsSize + numArgs * kernelNodeParamSize) extent
  let table ← dataReadSome graphKernelNodeParamsSize (numArgs * kernelNodeParamSize)
  cmdUnlock
  return if (wireParams table 0 numArgs).any fun p => p.1 + p.2 > extent then .code errorInvalidValue
    else if oomSnapshot then .code errorOutOfMemory
    else ⟨success, [], bytes⟩

def cuGraphExecKernelNodeSetParams (graphExec node function : UInt64) (dims : LaunchDims) (sharedMemBytes : UInt64)
    (args : ℕ → Option Buf) (cached : Option ParamLayout) (oom : Bool) : Bar2 Reply :=
  paramCommand function cached oom args (fun layout =>
    [graphExec, node, function, pack dims.gridY dims.gridX, pack dims.blockX dims.gridZ, pack dims.blockZ dims.blockY,
      pack (.ofNat layout.params.length) sharedMemBytes, .ofNat layout.extent]) .graphExecKernelNodeSetParams

def cuGraphExecDestroy (graphExec : UInt64) : Bar2 Reply := lockedCommand [] [graphExec] .graphExecDestroy [] []

def cuGraphLaunch (graphExec stream : UInt64) : Bar2 Reply := lockedCommand [] [graphExec, stream] .graphLaunch [] []

def cuGraphDestroy (graph : UInt64) : Bar2 Reply := lockedCommand [] [graph] .graphDestroy [] []

def cuGraphInstantiate (graph bufferSize : UInt64) (errorNode logBuffer : Bool) : Bar2 Reply := do
  if (!logBuffer ∧ bufferSize ≠ 0) ∨ bufferSize.toNat > dataSize then return .code errorInvalidValue
  cmdLock
  let result ← command [] [graph, bufferSize, if errorNode then 1 else 0, if logBuffer then 1 else 0] .graphInstantiate
  let graphExec ← regRead64 (.result 0)
  let errorNodeId ← regRead64 (.result 1)
  let log ← dataReadSome 0 (if logBuffer then bufferSize.toNat else 0)
  cmdUnlock
  return if result = success ∧ graphExec > uint32Max then .code errorInvalidHandle
    else ⟨result, [graphExec, errorNodeId], log⟩

def cuGraphExecUpdate (graphExec graph : UInt64) : Bar2 Reply :=
  lockedCommand [] [graphExec, graph] .graphExecUpdate [0, 1, 2] []

def cuGraphGetNodes (graph : UInt64) (capacity : Option UInt64) (oom : Bool) : Bar2 Reply := do
  let room := capacity.getD 0
  if room.toNat > dataSize / 8 then return .code errorInvalidValue
  cmdLock
  let result ← command [] [graph, room, if capacity.isSome then 1 else 0] .graphGetNodes
  if result ≠ success then
    cmdUnlock
    return .code result
  let count ← regRead64 (.result 0)
  if capacity.isSome ∧ count > room then
    cmdUnlock
    return .code errorInvalidValue
  if capacity.isSome ∧ count ≠ 0 ∧ oom then
    cmdUnlock
    return .code errorOutOfMemory
  let ids ← dataReadSome 0 (if capacity.isSome then count.toNat * 8 else 0)
  cmdUnlock
  return if (List.range (ids.length / 8)).any fun i => number ids (8 * i) 8 > uint32Max.toNat then
    .code errorInvalidHandle
  else ⟨success, [count], ids⟩

def cuGraphNodeGetType (node : UInt64) : Bar2 Reply := lockedCommand [] [node] .graphNodeGetType [] [0]

def cuLinkCreate_v2 : Bar2 Reply := createCommand [] .linkCreate

def cuLinkAddData_v2 (state type : UInt64) (data : List UInt8) (name : Option (List UInt8)) : Bar2 Reply := do
  let text := (name.map cString).getD []
  if data.length = 0 ∨ data.length > dataSize ∨ text.length > dataSize - data.length then
    return .code errorInvalidValue
  lockedCommand ((0, data) :: if text.length = 0 then [] else [(data.length, text)])
    [state, type, .ofNat data.length, .ofNat text.length] .linkAddData [] []

def cuLinkComplete (state : UInt64) (oom : Bool) : Bar2 Reply := do
  cmdLock
  let result ← command [] [state] .linkComplete
  let size ← regRead64 (.result 0)
  if result ≠ success then
    cmdUnlock
    return .code result
  if size.toNat > dataSize then
    cmdUnlock
    return .code errorInvalidValue
  if oom then
    cmdUnlock
    return .code errorOutOfMemory
  let bytes ← dataReadSome 0 size.toNat
  cmdUnlock
  return ⟨success, [size], bytes⟩

def cuLinkDestroy (state : UInt64) : Bar2 Reply := lockedCommand [] [state] .linkDestroy [] []

/-! ## Streams and events -/

def cuStreamCreate (flags : UInt64) : Bar2 Reply := createCommand [flags] .streamCreate

def cuStreamDestroy_v2 (stream : UInt64) (pending : List UInt64) : Bar2 Reply :=
  drainCommand [stream] .streamDestroy pending

def cxlStreamSynchronize (stream reason : UInt64) (pending : List UInt64) : Bar2 Reply :=
  drainCommand [stream, reason] .streamSync pending

def cuStreamWaitEvent (stream event flags : UInt64) : Bar2 Reply :=
  lockedCommand [] [stream, event, flags] .streamWaitEvent [] []

def cuStreamWaitValue32 (stream addr value flags : UInt64) : Bar2 Reply :=
  lockedCommand [] [stream, addr, value, flags] .streamWaitValue32 [] []

def cuStreamBatchMemOp (stream : UInt64) (count : UInt32) (paramArray : Buf) (flags : UInt64) : Bar2 Reply := do
  if count ≥ 256 then return .code errorInvalidValue
  lockedCommand (if count = 0 then [] else [(0, bytesAt paramArray 0 (count.toNat * batchMemOpSize))])
    [stream, count.toUInt64, flags] .streamBatchMemOp [] []

def cuStreamGetCtx (stream : UInt64) (current : UInt32) : Bar2 Reply := do
  let reply ← lockedCommand [] [stream] .streamGetCtx [] []
  return if reply.result = success then .code current else reply

def cuStreamBeginCapture_v2 (stream mode : UInt64) : Bar2 Reply :=
  lockedCommand [] [stream, mode] .streamBeginCapture [] []

def cuStreamEndCapture (stream : UInt64) : Bar2 Reply := lockedCommand [] [stream] .streamEndCapture [0] []

def cuStreamIsCapturing (stream : UInt64) : Bar2 Reply := lockedCommand [] [stream] .streamIsCapturing [] [0]

def cuStreamGetCaptureInfo_v2 (stream : UInt64) (wantId oom : Bool) : Bar2 Reply := do
  cmdLock
  let result ← command [] [stream] .streamGetCaptureInfo
  if result ≠ success then
    cmdUnlock
    return .code result
  let count ← regRead64 (.result 2)
  let graph ← regRead64 (.result 3)
  if count.toNat > dataSize / 8 then
    cmdUnlock
    return .code errorInvalidValue
  if oom then
    cmdUnlock
    return .code errorOutOfMemory
  let ids ← dataReadSome 0 (count.toNat * 8)
  let status ← regRead64 (.result 0)
  let captureId ← readResults (if wantId then [1] else [])
  cmdUnlock
  return ⟨success, [status, graph, count] ++ captureId, ids⟩

def cuEventCreate (flags : UInt64) : Bar2 Reply := createCommand [flags] .eventCreate

def cuEventDestroy_v2 (event : UInt64) : Bar2 Reply := lockedCommand [] [event] .eventDestroy [] []

def cuEventRecord (event stream : UInt64) : Bar2 Reply := lockedCommand [] [event, stream] .eventRecord [] []

def cuEventSynchronize (event : UInt64) : Bar2 Reply := lockedCommand [] [event] .eventSync [] []

def cuEventQuery (event : UInt64) : Bar2 Reply := lockedCommand [] [event] .eventQuery [] []

def cuEventElapsedTime (start stop : UInt64) : Bar2 Reply := lockedCommand [] [start, stop] .eventElapsedTime [] [0]

/-! ## Peers, the coherent pool, the clock anchor -/

def cxlP2pDiscoverPeers (numPeers : Bool) : Bar2 Reply :=
  unlockedCommand [] [] .p2pDiscover (if numPeers then [0] else [])

def cxlP2pGetPeerInfo (peer : UInt64) : Bar2 Reply := unlockedCommand [] [peer] .p2pGetPeerInfo [0, 1, 2]

def cxlP2pGpuToMem (peer gpuOffset memOffset size : UInt64) : Bar2 Reply :=
  if size = 0 then pure (.code success) else unlockedCommand [] [peer, gpuOffset, memOffset, size] .p2pGpuToMem []

def cxlP2pMemToGpu (peer memOffset gpuOffset size : UInt64) : Bar2 Reply :=
  if size = 0 then pure (.code success) else unlockedCommand [] [peer, memOffset, gpuOffset, size] .p2pMemToGpu []

def cxlP2pMemToMem (src dst srcOffset dstOffset size : UInt64) : Bar2 Reply :=
  if size = 0 then pure (.code success)
  else unlockedCommand [] [src, dst, srcOffset, dstOffset, size] .p2pMemToMem []

def cxlP2pSync : Bar2 Reply := unlockedCommand [] [] .p2pSync []

def cxlP2pGetStatus (numPeers transfers bytes : Bool) : Bar2 Reply :=
  unlockedCommand [] [] .p2pGetStatus
    ((if numPeers then [0] else []) ++ (if transfers then [1] else []) ++ if bytes then [2] else [])

/-- after a failed command the pool falls back to its local offset, outside BAR2 -/
def cxlCoherentAlloc (size : UInt64) : Bar2 Reply := lockedCommand [] [size] .coherentAlloc [] [0]

def cxlCoherentFree (offset : UInt64) : Bar2 Reply := lockedCommand [] [offset] .coherentFree [] []

def cxlCoherentMapDevice (offset mappedBytes requestBytes : UInt64) : Bar2 Reply :=
  lockedCommand [] [offset, mappedBytes, requestBytes] .coherentMapDevice [] [0, 2]

def cxlCoherentUnmapDevice (offset deviceAlias : UInt64) : Bar2 Reply :=
  lockedCommand [] [offset, deviceAlias] .coherentUnmapDevice [0] []

def cxlSetBias (addr size mode : UInt64) : Bar2 Reply := lockedCommand [] [addr, size, mode] .setBias [] []

def cxlGetBias (addr : UInt64) : Bar2 Reply := lockedCommand [] [addr] .getBias [0] []

def cxlBiasFlip (addr size mode : UInt64) : Bar2 Reply := lockedCommand [] [addr, size, mode] .biasFlip [] []

def cxlGetCoherencyStats : Bar2 Reply := do
  cmdLock
  let result ← command [] [] .cohGetStats
  if result ≠ success then
    cmdUnlock
    return .code 3
  let values ← readResults [0, 1, 2, 3]
  let ext ← dataRead 0 64
  cmdUnlock
  return ⟨success, values, ext⟩

def cxlResetCoherencyStats : Bar2 Reply := lockedCommand [] [] .cohResetStats [] []

def observationCaptureClockAnchor (phase caseEpoch : UInt64) : Bar2 Reply := do
  cmdLock
  writeParams 0 [1, phase, caseEpoch]
  let result ← transportExecute .observationAnchor
  let values ← readOnSuccess result [0, 1, 2]
  cmdUnlock
  return ⟨result, values, []⟩

/-! ## All of them -/

/-- the functions that execute commands, and whether they take `cmd_lock` -/
inductive CommandFn : Bool → Bar2 Reply → Prop
  | cuGetErrorName {error oom} : CommandFn true (cuGetErrorName error oom)
  | cuGetErrorString {error oom} : CommandFn true (cuGetErrorString error oom)
  | cuDeviceGetCount : CommandFn true cuDeviceGetCount
  | cuDeviceGet {ordinal} : CommandFn true (cuDeviceGet ordinal)
  | cuDeviceTotalMem : CommandFn true cuDeviceTotalMem_v2
  | cuDeviceGetAttribute {attrib} : CommandFn true (cuDeviceGetAttribute attrib)
  | cuDeviceCanAccessPeer {dev peer} : CommandFn true (cuDeviceCanAccessPeer dev peer)
  | cuCtxCreate {commit} : CommandFn true (cuCtxCreate_v2 commit)
  | cuDevicePrimaryCtxRetain {known commit} : CommandFn true (cuDevicePrimaryCtxRetain known commit)
  | cuCtxDestroy {commit} : CommandFn true (cuCtxDestroy_v2 commit)
  | cuCtxSynchronize {pending} : CommandFn true (cuCtxSynchronize pending)
  | cuCtxEnablePeerAccess {peer flags} : CommandFn true (cuCtxEnablePeerAccess peer flags)
  | cuCtxDisablePeerAccess {peer} : CommandFn true (cuCtxDisablePeerAccess peer)
  | cuCtxGetLimit {limit} : CommandFn true (cuCtxGetLimit limit)
  | cuMemAlloc {bytesize} : CommandFn true (cuMemAlloc_v2 bytesize)
  | cuMemFree {dptr} : CommandFn true (cuMemFree_v2 dptr)
  | cuMemcpyHtoD {dst src byteCount bar4} : CommandFn true (cuMemcpyHtoD_v2 dst src byteCount bar4)
  | cuMemcpyHtoDAsync {dst src byteCount stream route} :
    CommandFn true (cuMemcpyHtoDAsync_v2 dst src byteCount stream route)
  | cuMemcpyBatchAsync {ranges stream direct} : CommandFn true (cuMemcpyBatchAsync ranges stream direct)
  | cuMemcpyDtoH {src byteCount bar4} : CommandFn true (cuMemcpyDtoH_v2 src byteCount bar4)
  | cuMemcpyDtoD {dst src byteCount} : CommandFn true (cuMemcpyDtoD_v2 dst src byteCount)
  | cuMemcpyDtoDAsync {dst src byteCount stream} : CommandFn true (cuMemcpyDtoDAsync_v2 dst src byteCount stream)
  | cxlMemcpy2dDeviceToDevice {dst src dstPitch srcPitch width height stream} :
    CommandFn true (cxlMemcpy2dDeviceToDevice dst src dstPitch srcPitch width height stream)
  | cxlCudaPointerIsDevice {ptr} : CommandFn true (cxlCudaPointerIsDevice ptr)
  | cuMemGetInfo {token free total} : CommandFn true (cuMemGetInfo_v2 token free total)
  | cuMemPrefetchAsync {ptr count dev stream} : CommandFn true (cuMemPrefetchAsync ptr count dev stream)
  | cuMemsetD8 {dst uc n} : CommandFn false (cuMemsetD8_v2 dst uc n)
  | cuMemsetD32 {dst ui n} : CommandFn false (cuMemsetD32_v2 dst ui n)
  | cuModuleGetLoadingMode : CommandFn true cuModuleGetLoadingMode
  | cuModuleUnload {module} : CommandFn true (cuModuleUnload module)
  | cuModuleGetFunction {module name} : CommandFn true (cuModuleGetFunction module name)
  | cuModuleGetGlobal {module name} : CommandFn true (cuModuleGetGlobal_v2 module name)
  | cxlModuleLoadCubin {image imageSize encoding uncompressedSize} :
    CommandFn false (cxlModuleLoadCubin image imageSize encoding uncompressedSize)
  | cxlModuleLoadPtx {image} : CommandFn false (cxlModuleLoadPtx image)
  | cuFuncGetAttribute {function attrib} : CommandFn true (cuFuncGetAttribute function attrib)
  | cuFuncSetAttribute {function attrib value} : CommandFn true (cuFuncSetAttribute function attrib value)
  | cuOccupancyMaxActiveBlocks {function blockSize dynamicSMemSize flags} :
    CommandFn true (cuOccupancyMaxActiveBlocksPerMultiprocessorWithFlags function blockSize dynamicSMemSize flags)
  | cuFuncGetParamInfo {function cached oom} : CommandFn true (cuFuncGetParamInfo function cached oom)
  | cuLaunchKernel {function dims sharedMemBytes stream args cached oom} :
    CommandFn true (cuLaunchKernel function dims sharedMemBytes stream args cached oom)
  | cuGraphKernelNodeGetParams {node snapshot oom oomSnapshot} :
    CommandFn true (cuGraphKernelNodeGetParams node snapshot oom oomSnapshot)
  | cuGraphExecKernelNodeSetParams {graphExec node function dims sharedMemBytes args cached oom} :
    CommandFn true (cuGraphExecKernelNodeSetParams graphExec node function dims sharedMemBytes args cached oom)
  | cuGraphExecDestroy {graphExec} : CommandFn true (cuGraphExecDestroy graphExec)
  | cuGraphLaunch {graphExec stream} : CommandFn true (cuGraphLaunch graphExec stream)
  | cuGraphDestroy {graph} : CommandFn true (cuGraphDestroy graph)
  | cuGraphInstantiate {graph bufferSize errorNode logBuffer} :
    CommandFn true (cuGraphInstantiate graph bufferSize errorNode logBuffer)
  | cuGraphExecUpdate {graphExec graph} : CommandFn true (cuGraphExecUpdate graphExec graph)
  | cuGraphGetNodes {graph capacity oom} : CommandFn true (cuGraphGetNodes graph capacity oom)
  | cuGraphNodeGetType {node} : CommandFn true (cuGraphNodeGetType node)
  | cuLinkCreate : CommandFn true cuLinkCreate_v2
  | cuLinkAddData {state type data name} : CommandFn true (cuLinkAddData_v2 state type data name)
  | cuLinkComplete {state oom} : CommandFn true (cuLinkComplete state oom)
  | cuLinkDestroy {state} : CommandFn true (cuLinkDestroy state)
  | cuStreamCreate {flags} : CommandFn true (cuStreamCreate flags)
  | cuStreamDestroy {stream pending} : CommandFn true (cuStreamDestroy_v2 stream pending)
  | cxlStreamSynchronize {stream reason pending} : CommandFn true (cxlStreamSynchronize stream reason pending)
  | cuStreamWaitEvent {stream event flags} : CommandFn true (cuStreamWaitEvent stream event flags)
  | cuStreamWaitValue32 {stream addr value flags} : CommandFn true (cuStreamWaitValue32 stream addr value flags)
  | cuStreamBatchMemOp {stream count paramArray flags} :
    CommandFn true (cuStreamBatchMemOp stream count paramArray flags)
  | cuStreamGetCtx {stream current} : CommandFn true (cuStreamGetCtx stream current)
  | cuStreamBeginCapture {stream mode} : CommandFn true (cuStreamBeginCapture_v2 stream mode)
  | cuStreamEndCapture {stream} : CommandFn true (cuStreamEndCapture stream)
  | cuStreamIsCapturing {stream} : CommandFn true (cuStreamIsCapturing stream)
  | cuStreamGetCaptureInfo {stream wantId oom} : CommandFn true (cuStreamGetCaptureInfo_v2 stream wantId oom)
  | cuEventCreate {flags} : CommandFn true (cuEventCreate flags)
  | cuEventDestroy {event} : CommandFn true (cuEventDestroy_v2 event)
  | cuEventRecord {event stream} : CommandFn true (cuEventRecord event stream)
  | cuEventSynchronize {event} : CommandFn true (cuEventSynchronize event)
  | cuEventQuery {event} : CommandFn true (cuEventQuery event)
  | cuEventElapsedTime {start stop} : CommandFn true (cuEventElapsedTime start stop)
  | cxlP2pDiscoverPeers {numPeers} : CommandFn false (cxlP2pDiscoverPeers numPeers)
  | cxlP2pGetPeerInfo {peer} : CommandFn false (cxlP2pGetPeerInfo peer)
  | cxlP2pGpuToMem {peer gpuOffset memOffset size} : CommandFn false (cxlP2pGpuToMem peer gpuOffset memOffset size)
  | cxlP2pMemToGpu {peer memOffset gpuOffset size} : CommandFn false (cxlP2pMemToGpu peer memOffset gpuOffset size)
  | cxlP2pMemToMem {src dst srcOffset dstOffset size} :
    CommandFn false (cxlP2pMemToMem src dst srcOffset dstOffset size)
  | cxlP2pSync : CommandFn false cxlP2pSync
  | cxlP2pGetStatus {numPeers transfers bytes} : CommandFn false (cxlP2pGetStatus numPeers transfers bytes)
  | cxlCoherentAlloc {size} : CommandFn true (cxlCoherentAlloc size)
  | cxlCoherentFree {offset} : CommandFn true (cxlCoherentFree offset)
  | cxlCoherentMapDevice {offset mappedBytes requestBytes} :
    CommandFn true (cxlCoherentMapDevice offset mappedBytes requestBytes)
  | cxlCoherentUnmapDevice {offset deviceAlias} : CommandFn true (cxlCoherentUnmapDevice offset deviceAlias)
  | cxlSetBias {addr size mode} : CommandFn true (cxlSetBias addr size mode)
  | cxlGetBias {addr} : CommandFn true (cxlGetBias addr)
  | cxlBiasFlip {addr size mode} : CommandFn true (cxlBiasFlip addr size mode)
  | cxlGetCoherencyStats : CommandFn true cxlGetCoherencyStats
  | cxlResetCoherencyStats : CommandFn true cxlResetCoherencyStats
  | observationCaptureClockAnchor {phase caseEpoch} : CommandFn true (observationCaptureClockAnchor phase caseEpoch)

/-- an API call: command functions one after the other, each chosen by what came back so far -/
inductive ApiCall where
  | ret (result : UInt32)
  | run {takesLock : Bool} {script : Bar2 Reply} (f : CommandFn takesLock script) (next : Reply → ApiCall)

def ApiCall.script : ApiCall → Bar2 UInt32
  | ret result => pure result
  | @run _ script _ next => do
    let reply ← script
    (next reply).script

def ApiCall.Locked : ApiCall → Prop
  | ret _ => True
  | @run takesLock _ _ next => takesLock = true ∧ ∀ reply, (next reply).Locked

end CxlMemSim.Guest
