/-
The BAR2 transport of the guest CUDA library: registers, data windows, the cross-process lock, and one command's
execution.

Model: a program over BAR2 is a script of `Core.Script`. The device is not part of this repository; `Protocol` states
what a command may consume (`inputs`) and what its completion stores (`reply`). That a command is completed at all,
without error and with the result registers its call reads, is a condition on a run (`Reliance`).
-/
import CxlMemSim.Core.Bytes
import CxlMemSim.Core.Script

namespace CxlMemSim.Guest

open CxlMemSim.Core List

/-! ## The region -/

/-- the cells of BAR2 that commands use; a byte of a window is a cell of its own -/
inductive Cell where
  | param (i : Fin 8)
  | result (i : Fin 4)
  | callId
  | data (off : ℕ)
  | batch (off : ℕ)
deriving DecidableEq, Repr

def dataSize : ℕ := 0x800000

def batchDataSize : ℕ := 0x2000000

def bulkTransferSize : ℕ := 0x4000000

inductive Command where
  | getDeviceCount | getDevice | getTotalMem | getDeviceAttribute | getErrorName | observationAnchor
  | ctxCreate | ctxDestroy | ctxSync | ctxGetLimit | ctxEnablePeer | ctxDisablePeer | deviceCanAccessPeer
  | memAlloc | memFree | memCopyHtod | memCopyDtoh | memCopyDtod | memGetInfo | memGetPointerMemoryType
  | memPrefetchAsync | memCopyHtodAsync | memCopy2dDtod | batchHtodAsync | sourceUnregister | memCopyDtodAsync
  | moduleLoadPtx | moduleUnload | funcGet | moduleLoadCubin | moduleGetGlobal | sourceRegisterBatchHtodDirectAsync
  | funcSetAttribute | funcGetOccupancy | moduleGetLoadingMode | graphExecKernelNodeSetParams
  | graphKernelNodeGetParams | graphExecDestroy | graphLaunch | graphDestroy | graphInstantiate | graphGetNodes
  | launchKernel | graphNodeGetType | linkCreate | linkAddData | linkComplete | linkDestroy | funcGetAttribute
  | funcGetParamLayout | graphExecUpdate
  | streamCreate | streamDestroy | streamSync | streamWaitEvent | streamWaitValue32 | streamBatchMemOp
  | streamGetCaptureInfo | streamGetCtx | streamBeginCapture | streamEndCapture | streamIsCapturing
  | eventCreate | eventDestroy | eventRecord | eventSync | eventQuery | eventElapsedTime | getErrorString
  | bulkHtod | bulkDtoh | bulkHtodAsync
  | p2pDiscover | p2pGetPeerInfo | p2pGpuToMem | p2pMemToGpu | p2pMemToMem | p2pSync | p2pGetStatus
  | coherentAlloc | coherentFree | setBias | getBias | biasFlip | coherentMapDevice | coherentUnmapDevice
  | cohGetStats | cohResetStats
deriving DecidableEq, Repr

/-- how a command ends: not sent (generation 0, or the submission numbers are used up), completed, or timed out -/
inductive Completion where
  | refused
  | done (error : Bool) (result : UInt32)
  | timeout
deriving DecidableEq, Repr

structure Process where
  pid : UInt32
  sequence : UInt32
  unusable : Bool
deriving DecidableEq, Repr

abbrev Gpu := Device Cell UInt64 Command Completion

abbrev Bar2 := Script Cell UInt64 Command Completion Process

/-! ## Transport operations -/

def success : UInt32 := 0
def errorInvalidValue : UInt32 := 1
def errorOutOfMemory : UInt32 := 2
def errorInvalidHandle : UInt32 := 400
def errorNotSupported : UInt32 := 801
def errorUnknown : UInt32 := 999

/-- `cmd_lock`: `flock(LOCK_EX)` on the process's one open file description of the device -/
def cmdLock : Bar2 Unit := .lock (.ret ())

def cmdUnlock : Bar2 Unit := .unlock (.ret ())

def regWrite64 (c : Cell) (v : UInt64) : Bar2 Unit :=
  .update id fun self => if self.unusable then .ret () else .store [(c, v)] (.ret ())

def regRead64 (c : Cell) : Bar2 UInt64 := .load [c] fun vs => .ret (vs.headD 0)

def windowCells (window : ℕ → Cell) (off : ℕ) (bytes : List UInt8) : List (Cell × UInt64) :=
  bytes.mapIdx fun i b => (window (off + i), b.toUInt64)

def dataWrite (off : ℕ) (bytes : List UInt8) : Bar2 Unit :=
  if off > dataSize ∨ bytes.length > dataSize - off then .ret ()
  else .store (windowCells .data off bytes) (.ret ())

/-- a read past the data window leaves the destination as it was; no caller gets there -/
def dataRead (off len : ℕ) : Bar2 (List UInt8) :=
  if off > dataSize ∨ len > dataSize - off then .ret []
  else .load ((List.range len).map fun i => .data (off + i)) fun vs => .ret (vs.map UInt64.toUInt8)

def batchDataWrite (off : ℕ) (bytes : List UInt8) : Bar2 Bool :=
  if off > batchDataSize ∨ bytes.length > batchDataSize - off then .ret false
  else .store (windowCells .batch off bytes) (.ret true)

def transportExecute (cmd : Command) : Bar2 UInt32 :=
  .update id fun self =>
    if self.unusable then .ret errorUnknown
    else .submit cmd fun
      | .done false result => .ret result
      | .done true result => .update (fun self => { self with unusable := true }) fun _ => .ret result
      | .refused | .timeout => .update (fun self => { self with unusable := true }) fun _ => .ret errorUnknown

def executeCmd (cmd : Command) : Bar2 UInt32 :=
  .update (fun self => { self with sequence := self.sequence + 1 }) fun self => do
    regWrite64 .callId (self.pid.toUInt64 <<< 32 ||| (self.sequence + 1).toUInt64)
    let result ← transportExecute cmd
    regWrite64 .callId 0
    return result

/-! ## The device's side of the protocol -/

def arity : Command → ℕ
  | .getDeviceCount | .getTotalMem | .ctxCreate | .ctxDestroy | .ctxSync | .moduleLoadPtx | .moduleGetLoadingMode
  | .linkCreate | .p2pDiscover | .p2pSync | .p2pGetStatus | .cohGetStats | .cohResetStats => 0
  | .getDevice | .getDeviceAttribute | .getErrorName | .getErrorString | .ctxGetLimit | .ctxDisablePeer | .memAlloc
  | .memFree | .memGetInfo | .memGetPointerMemoryType | .sourceUnregister | .moduleUnload | .funcGet
  | .moduleGetGlobal | .graphKernelNodeGetParams | .graphExecDestroy | .graphDestroy | .graphNodeGetType
  | .linkComplete | .linkDestroy | .funcGetParamLayout | .streamCreate | .streamDestroy | .streamGetCaptureInfo
  | .streamGetCtx | .streamEndCapture | .streamIsCapturing | .eventCreate | .eventDestroy | .eventSync | .eventQuery
  | .p2pGetPeerInfo | .coherentAlloc | .coherentFree | .getBias => 1
  | .ctxEnablePeer | .deviceCanAccessPeer | .memCopyHtod | .memCopyDtoh | .graphLaunch | .funcGetAttribute
  | .graphExecUpdate | .streamSync | .streamBeginCapture | .eventRecord | .eventElapsedTime
  | .coherentUnmapDevice => 2
  | .observationAnchor | .memCopyDtod | .memCopyHtodAsync | .batchHtodAsync | .moduleLoadCubin
  | .sourceRegisterBatchHtodDirectAsync | .funcSetAttribute | .graphGetNodes | .streamWaitEvent | .streamBatchMemOp
  | .bulkHtod | .bulkDtoh | .setBias | .biasFlip | .coherentMapDevice => 3
  | .memPrefetchAsync | .memCopyDtodAsync | .funcGetOccupancy | .graphInstantiate | .linkAddData | .streamWaitValue32
  | .bulkHtodAsync | .p2pGpuToMem | .p2pMemToGpu => 4
  | .p2pMemToMem => 5
  | .memCopy2dDtod | .launchKernel => 7
  | .graphExecKernelNodeSetParams => 8

def batchHeaderSize : ℕ := 32
def batchRangeSize : ℕ := 24
def sourceRegisterSize : ℕ := 48
def virtualRangeSize : ℕ := 16
def directRangeSize : ℕ := 40
def batchMemOpSize : ℕ := 48
def graphKernelNodeParamsSize : ℕ := 48
def kernelNodeParamSize : ℕ := 16
def functionParamLayoutSize : ℕ := 1040

def batchPayloadStart (count : ℕ) : ℕ := (batchHeaderSize + count * batchRangeSize + 63) / 64 * 64

/-- the window bytes a command consumes: as many as its parameters announce, or a string with its NUL -/
def Payload (cmd : Command) (content : Cell → UInt64) (off : ℕ) : Prop :=
  match cmd with
  | .memCopyHtod | .memCopyHtodAsync => off < (content (.param 1)).toNat
  | .moduleLoadCubin => off < (content (.param 0)).toNat
  | .launchKernel => off < (content (.param 5)).toNat
  | .graphExecKernelNodeSetParams => off < (content (.param 7)).toNat
  | .linkAddData => off < (content (.param 2)).toNat + (content (.param 3)).toNat
  | .streamBatchMemOp => off < (content (.param 1)).toNat * batchMemOpSize
  | .moduleLoadPtx | .funcGet | .moduleGetGlobal => ∀ j < off, content (.data j) ≠ 0
  | _ => False

def BatchPayload (cmd : Command) (content : Cell → UInt64) (off : ℕ) : Prop :=
  match cmd with
  | .batchHtodAsync =>
    let count := (content (.param 0)).toNat
    off < batchHeaderSize + count * batchRangeSize ∨ (batchPayloadStart count ≤ off ∧ off < (content (.param 1)).toNat)
  | .sourceRegisterBatchHtodDirectAsync =>
    off < (content (.param 0)).toNat + (content (.param 1)).toNat * directRangeSize
  | _ => False

def Input (cmd : Command) (content : Cell → UInt64) : Cell → Prop
  | .param i => i.val < arity cmd
  | .result _ => False
  | .callId => cmd ≠ .observationAnchor
  | .data off => Payload cmd content off
  | .batch off => BatchPayload cmd content off

def window (content : Cell → UInt64) : Buf := fun off => (content (.data off)).toUInt8

/-- the window bytes the reply fills; only a graph instantiation replies to a failure too -/
def replyLength (cmd : Command) (result : UInt32) (before after : Cell → UInt64) : ℕ :=
  match cmd with
  | .graphInstantiate => if before (.param 3) = 0 then 0 else (before (.param 1)).toNat
  | .getErrorName | .getErrorString => if result = success then (after (.result 0)).toNat + 1 else 0
  | .graphKernelNodeGetParams =>
    if result = success then
      graphKernelNodeParamsSize + loadLE (window after) 32 4 * kernelNodeParamSize + loadLE (window after) 40 8
    else 0
  | .graphGetNodes => if result = success ∧ before (.param 2) ≠ 0 then (after (.result 0)).toNat * 8 else 0
  | .memCopyDtoh => if result = success then (before (.param 1)).toNat else 0
  | .funcGetParamLayout => if result = success then functionParamLayoutSize else 0
  | .linkComplete => if result = success then (after (.result 0)).toNat else 0
  | .streamGetCaptureInfo => if result = success then (after (.result 2)).toNat * 8 else 0
  | .cohGetStats => if result = success then 64 else 0
  | _ => 0

/-- the result registers that a command's calls read, after a success or a failure -/
def resultsRead : Command → Bool → List (Fin 4)
  | .getErrorName, _ | .getErrorString, _ | .linkCreate, _ | .linkComplete, _ | .streamCreate, _ | .eventCreate, _
  | .streamEndCapture, _ | .coherentUnmapDevice, _ | .getBias, _ => [0]
  | .graphInstantiate, _ | .batchHtodAsync, _ => [0, 1]
  | .graphExecUpdate, _ => [0, 1, 2]
  | .sourceRegisterBatchHtodDirectAsync, false => [0, 2]
  | .getDeviceCount, true | .getDevice, true | .getTotalMem, true | .getDeviceAttribute, true
  | .deviceCanAccessPeer, true | .ctxGetLimit, true | .ctxCreate, true | .memAlloc, true
  | .memGetPointerMemoryType, true | .moduleGetLoadingMode, true | .moduleLoadCubin, true | .moduleLoadPtx, true
  | .funcGet, true | .funcGetAttribute, true | .funcGetOccupancy, true | .funcGetParamLayout, true
  | .graphGetNodes, true | .graphNodeGetType, true | .streamIsCapturing, true | .eventElapsedTime, true
  | .p2pDiscover, true | .coherentAlloc, true => [0]
  | .memGetInfo, true | .moduleGetGlobal, true => [0, 1]
  | .coherentMapDevice, true => [0, 2]
  | .p2pGetPeerInfo, true | .p2pGetStatus, true | .observationAnchor, true => [0, 1, 2]
  | .streamGetCaptureInfo, true | .cohGetStats, true => [0, 1, 2, 3]
  | _, _ => []

/-- a call counts on a completion without error that stores the result registers it reads -/
instance : Reliance Cell UInt64 Command Completion where
  relied cmd e := ∃ result, e.1 = .done false result ∧
    ∀ i ∈ resultsRead cmd (result = success), .result i ∈ e.2.map Prod.fst

structure Protocol (dev : Gpu) : Prop where
  inputs : ∀ cmd content c, dev.consumes cmd content c → Input cmd content c
  reply : ∀ (r : Region Cell UInt64) cmd result off, r.answer dev cmd = .done false result →
    off < replyLength cmd result r.content (r.submit dev cmd).content →
      .data off ∈ (dev.exec cmd r.submissions r.content).2.map Prod.fst

/-! ## Rules of the operations -/

abbrev Sight := View Cell UInt64 Process

def Usable (self : Process) : Prop := self.unusable = false

section Rules

variable {dev : Gpu} {id : ℕ} {v : Sight}

variable {Q : Unit → Sight → Prop} {off : ℕ} {bytes : List UInt8}

lemma cmdLock_ok (hheld : v.held = false)
    (hQ : ∀ region, Q () { v with held := true, region }) : cmdLock.Ok dev id Q v := ⟨hheld, hQ⟩

lemma cmdUnlock_ok (hheld : v.held = true) (hQ : Q () { v with held := false }) :
    cmdUnlock.Ok dev id Q v := ⟨hheld, hQ⟩

lemma regWrite64_ok {c : Cell} {x : UInt64} (hu : Usable v.own) (hx : v.exclusive)
    (hQ : Q () (v.store id [(c, x)])) : (regWrite64 c x).Ok dev id Q v := by
  have hcond : ¬ v.own.unusable = true := by simpa [Usable] using hu
  simp only [regWrite64, Script.Ok, if_neg hcond]
  exact ⟨hx, hQ⟩

lemma regRead64_ok {c : Cell} {Q : UInt64 → Sight → Prop} (hx : v.exclusive) (hc : v.Produced c)
    (hQ : Q (v.region.content c) v) : (regRead64 c).Ok dev id Q v :=
  ⟨hx, by simpa using hc, hQ⟩

lemma dataWrite_ok (hx : v.exclusive) (hfit : off + bytes.length ≤ dataSize)
    (hQ : Q () (v.store id (windowCells .data off bytes))) :
    (dataWrite off bytes).Ok dev id Q v := by
  rw [dataWrite, if_neg (by omega)]
  exact ⟨hx, hQ⟩

lemma batchDataWrite_ok {Q : Bool → Sight → Prop} (hx : v.exclusive) (hfit : off + bytes.length ≤ batchDataSize)
    (hQ : Q true (v.store id (windowCells .batch off bytes))) :
    (batchDataWrite off bytes).Ok dev id Q v := by
  rw [batchDataWrite, if_neg (by omega)]
  exact ⟨hx, hQ⟩

lemma dataRead_ok {len : ℕ} {Q : List UInt8 → Sight → Prop} (hx : v.exclusive)
    (hc : ∀ i < len, v.Produced (.data (off + i))) (hfit : off + len ≤ dataSize)
    (hQ : Q ((List.range len).map fun i => window v.region.content (off + i)) v) :
    (dataRead off len).Ok dev id Q v := by
  rw [dataRead, if_neg (by omega)]
  refine ⟨hx, by simpa using hc, ?_⟩
  simpa only [Script.Ok, map_map, Function.comp_def, window] using hQ

end Rules

/-! ## One command -/

lemma input_congr {cmd : Command} {a b : Cell → UInt64} (h : ∀ c, c ≠ .callId → a c = b c) {c : Cell}
    (hin : Input cmd a c) : Input cmd b c := by
  have hparam : ∀ i, a (.param i) = b (.param i) := fun i => h _ (by simp)
  have hdata : ∀ j, a (.data j) = b (.data j) := fun j => h _ (by simp)
  cases c with
  | param i | result i | callId => exact hin
  | data off => simpa only [Input, Payload, hparam, hdata] using hin
  | batch off => simpa only [Input, BatchPayload, hparam] using hin

lemma replyLength_congr (cmd : Command) (result : UInt32) {a a' b b' : Cell → UInt64}
    (hb : ∀ c, c ≠ .callId → b c = b' c) (ha : ∀ c, c ≠ .callId → a c = a' c) :
    replyLength cmd result b a = replyLength cmd result b' a' := by
  have hw : window a = window a' := funext fun off => congrArg UInt64.toUInt8 (ha _ (by simp))
  have hparam : ∀ i, b (.param i) = b' (.param i) := fun i => hb _ (by simp)
  have hresult : ∀ i, a (.result i) = a' (.result i) := fun i => ha _ (by simp)
  simp only [replyLength, hw, hparam, hresult]

structure Completed (cmd : Command) (v : Sight) (result : UInt32) (w : Sight) : Prop where
  held : w.held = v.held
  alone : w.alone = v.alone
  usable : Usable w.own
  results : ∀ i ∈ resultsRead cmd (result = success), w.Produced (.result i)
  reply : ∀ off < replyLength cmd result v.region.content w.region.content, w.Produced (.data off)

lemma Completed.exclusive {cmd : Command} {v w : Sight} {result : UInt32} (h : Completed cmd v result w)
    (hx : v.exclusive) : w.exclusive := by
  rw [View.exclusive, h.held, h.alone]; exact hx

section Commands

variable {dev : Gpu} {id : ℕ} {v : Sight}

variable {c : Cell} {cmd : Command} {Q : UInt32 → Sight → Prop} {w : Sight}

section

variable (r : Region Cell UInt64) (who : Origin) (x : UInt64) (hc : c ≠ .callId)
include hc

lemma store_callId_content : (r.store who [(.callId, x)]).content c = r.content c :=
  r.store_content_of_not_mem who (by simpa using hc)

lemma store_callId_origin : (r.store who [(.callId, x)]).origin c = r.origin c := by
  rw [Region.store_origin, if_neg (by simpa using hc)]

end

lemma transportExecute_ok (hp : Protocol dev) (hu : Usable v.own)
    (hx : v.exclusive) (hin : ∀ c, Input cmd v.region.content c → v.region.origin c = .call id)
    (hQ : ∀ result, v.region.answer dev cmd = .done false result →
      (∀ i ∈ resultsRead cmd (result = success), (v.submit dev cmd).Produced (.result i)) → Q result (v.submit dev cmd)) :
    (transportExecute cmd).Ok dev id Q v := by
  have hcond : ¬ v.own.unusable = true := by simpa [Usable] using hu
  simp only [transportExecute, Script.Ok, if_neg hcond]
  refine ⟨hx, fun c hc => hin c (hp.inputs _ _ _ hc), ?_⟩
  rintro ⟨result, hdone, hresults⟩
  have hanswer : v.region.answer dev cmd = .done false result := hdone
  rw [hanswer]
  exact hQ result hanswer fun i hi => ⟨_, rfl, Region.submit_origin_of_mem _ _ _ (hresults i hi)⟩

/-- The rule of one command. On inputs of its own the command runs, and the call may then read results and reply. -/
lemma executeCmd_ok (hp : Protocol dev) (hu : Usable v.own)
    (hx : v.exclusive) (hin : ∀ c, c ≠ .callId → Input cmd v.region.content c → v.region.origin c = .call id)
    (hQ : ∀ result w, Completed cmd v result w → Q result w) : (executeCmd cmd).Ok dev id Q v := by
  simp only [executeCmd, Script.Ok, Script.ok_bind, Script.ok_pure]
  refine regWrite64_ok hu hx (transportExecute_ok hp hu hx ?_ fun result hdone hresults => regWrite64_ok hu hx ?_)
  · intro c hc
    by_cases hid : c = .callId
    · rw [hid]; exact Region.store_origin_of_mem _ _ (by simp)
    · have hcontent := fun c hc => store_callId_content v.region (.call id)
        (v.own.pid.toUInt64 <<< 32 ||| (v.own.sequence + 1).toUInt64) (c := c) hc
      exact (store_callId_origin _ _ _ hid).trans (hin c hid (input_congr hcontent hc))
  · refine hQ _ _ ⟨rfl, rfl, hu, ?_, ?_⟩
    · intro i hi
      obtain ⟨n, hn, horigin⟩ := hresults i hi
      exact ⟨n, hn, (store_callId_origin _ _ _ (by simp)).trans horigin⟩
    · intro off hoff
      refine ⟨_, rfl, ?_⟩
      refine (store_callId_origin _ _ _ (by simp)).trans ?_
      refine Region.submit_origin_of_mem _ _ _ (hp.reply _ _ result off hdone ?_)
      refine lt_of_lt_of_eq hoff (replyLength_congr _ _ ?_ ?_)
      · exact fun c hc => (store_callId_content _ _ _ hc).symm
      · exact fun c hc => store_callId_content _ _ _ hc

/-! ## Writing parameters and data, then executing -/

def writeParams : ℕ → List UInt64 → Bar2 Unit
  | _, [] => pure ()
  | i, x :: xs => do
    regWrite64 (.param (Fin.ofNat 8 i)) x
    writeParams (i + 1) xs

def writeData : List (ℕ × List UInt8) → Bar2 Unit
  | [] => pure ()
  | (off, bytes) :: rest => do
    dataWrite off bytes
    writeData rest

def command (data : List (ℕ × List UInt8)) (ps : List UInt64) (cmd : Command) : Bar2 UInt32 := do
  writeData data
  writeParams 0 ps
  executeCmd cmd

structure Covers (data : List (ℕ × List UInt8)) (ps : List UInt64) (cmd : Command) : Prop where
  arity : arity cmd ≤ ps.length
  short : ps.length ≤ 8
  fits : ∀ d ∈ data, d.1 + d.2.length ≤ dataSize
  payload : ∀ content : Cell → UInt64, (∀ (i : Fin 8) (h : i.val < ps.length), content (.param i) = ps[i.val]) →
    ∀ off, Payload cmd content off → ∃ d ∈ data, d.1 ≤ off ∧ off < d.1 + d.2.length
  batch : ∀ content off, ¬ BatchPayload cmd content off

structure Answered (cmd : Command) (ps : List UInt64) (v : Sight) (result : UInt32) (w : Sight) : Prop where
  held : w.held = v.held
  alone : w.alone = v.alone
  usable : Usable w.own
  results : ∀ i ∈ resultsRead cmd (result = success), w.Produced (.result i)
  reply : ∃ before : Cell → UInt64, (∀ (i : Fin 8) (h : i.val < ps.length), before (.param i) = ps[i.val]) ∧
    ∀ off < replyLength cmd result before w.region.content, w.Produced (.data off)

variable {ps : List UInt64}

lemma Answered.exclusive {result : UInt32} (h : Answered cmd ps v result w) (hx : v.exclusive) : w.exclusive := by
  rw [View.exclusive, h.held, h.alone]; exact hx

lemma mem_windowCells {win : ℕ → Cell} {off : ℕ} {bytes : List UInt8} :
    c ∈ (windowCells win off bytes).map Prod.fst ↔ ∃ i < bytes.length, c = win (off + i) := by
  simp only [windowCells, mem_map, mem_mapIdx]
  constructor
  · rintro ⟨_, ⟨i, hi, rfl⟩, rfl⟩
    exact ⟨i, hi, rfl⟩
  · rintro ⟨i, hi, rfl⟩
    exact ⟨_, ⟨i, hi, rfl⟩, rfl⟩

structure Wrote (id : ℕ) (v w : Sight) : Prop where
  held : w.held = v.held
  alone : w.alone = v.alone
  own : w.own = v.own
  keeps : ∀ c, v.region.origin c = .call id → w.region.origin c = .call id

lemma Wrote.refl (v : Sight) : Wrote id v v := ⟨rfl, rfl, rfl, fun _ h => h⟩

lemma Wrote.trans {u : Sight} (h : Wrote id v u) (h' : Wrote id u w) : Wrote id v w :=
  ⟨h'.held.trans h.held, h'.alone.trans h.alone, h'.own.trans h.own, fun c hc => h'.keeps c (h.keeps c hc)⟩

lemma Wrote.store (v : Sight) (cells : List (Cell × UInt64)) : Wrote id v (v.store id cells) := by
  refine ⟨rfl, rfl, rfl, fun c hc => ?_⟩
  change (v.region.store _ cells).origin c = _
  rw [Region.store_origin]
  split_ifs
  · rfl
  · exact hc

lemma Wrote.exclusive (h : Wrote id v w) (hx : v.exclusive) : w.exclusive := by
  rw [View.exclusive, h.held, h.alone]; exact hx

variable {data : List (ℕ × List UInt8)}

lemma writeData_ok {Q : Unit → Sight → Prop} (hx : v.exclusive) (hfits : ∀ d ∈ data, d.1 + d.2.length ≤ dataSize)
    (hQ : ∀ w, Wrote id v w → (∀ d ∈ data, ∀ off, d.1 ≤ off → off < d.1 + d.2.length →
      w.region.origin (.data off) = .call id) → Q () w) : (writeData data).Ok dev id Q v := by
  induction data generalizing v with
  | nil => exact hQ v (Wrote.refl v) (by simp)
  | cons d data ih =>
    obtain ⟨off, bytes⟩ := d
    rw [forall_mem_cons] at hfits
    simp only [writeData, Script.ok_bind]
    refine dataWrite_ok hx hfits.1 (ih hx hfits.2 fun w hw hown => ?_)
    refine hQ w ((Wrote.store v _).trans hw) (List.forall_mem_cons.mpr ⟨fun o hlo hhi => ?_, hown⟩)
    refine hw.keeps _ (Region.store_origin_of_mem _ _ (mem_windowCells.mpr ⟨o - off, ?_, ?_⟩))
    · dsimp only at hlo hhi; omega
    · dsimp only at hlo; rw [Nat.add_sub_cancel' hlo]

lemma writeParams_ok {i : ℕ} {Q : Unit → Sight → Prop} (hu : Usable v.own) (hx : v.exclusive)
    (hshort : i + ps.length ≤ 8)
    (hQ : ∀ w, Wrote id v w → (∀ c, (∀ k : Fin 8, c = .param k → k.val < i) → w.region.content c = v.region.content c) →
      (∀ (k : Fin 8) (hk : i ≤ k.val ∧ k.val < i + ps.length), w.region.origin (.param k) = .call id ∧
        w.region.content (.param k) = ps[k.val - i]) → Q () w) : (writeParams i ps).Ok dev id Q v := by
  induction ps generalizing v i with
  | nil => exact hQ v (Wrote.refl v) (fun _ _ => rfl) (fun k hk => absurd hk (by simp))
  | cons x xs ih =>
    simp only [length_cons] at hshort
    simp only [writeParams, Script.ok_bind]
    refine regWrite64_ok hu hx (ih hu hx (by omega) fun w hw hkeep hown => ?_)
    have hself : (Fin.ofNat 8 i).val = i := Nat.mod_eq_of_lt (by omega)
    refine hQ w ((Wrote.store v _).trans hw) ?_ ?_
    · intro c hc
      rw [hkeep c fun k hk => Nat.lt_succ_of_lt (hc k hk)]
      refine Region.store_content_of_not_mem _ _ ?_
      simp only [map_cons, map_nil, mem_singleton]
      intro hcell
      exact absurd (hc _ hcell) (by omega)
    · intro k hk
      rcases Nat.eq_or_lt_of_le hk.1 with heq | hlt
      · obtain rfl : k = Fin.ofNat 8 i := Fin.ext (by omega)
        refine ⟨hw.keeps _ (Region.store_origin_of_mem _ _ (by simp)), ?_⟩
        rw [hkeep _ fun k' hk' => by cases hk'; omega]
        simp only [hself, Nat.sub_self, getElem_cons_zero]
        exact Region.store_content_of_mem _ _ (by simp) (by simp)
      · obtain ⟨horigin, hcontent⟩ := hown k ⟨hlt, by simp only [length_cons] at hk; omega⟩
        refine ⟨horigin, hcontent.trans ?_⟩
        have hidx : k.val - i = (k.val - (i + 1)) + 1 := by omega
        simp only [hidx, getElem_cons_succ]

/-- The rule of the common shape. Writes that cover the command let it run on its own call's inputs. -/
lemma command_ok (hp : Protocol dev) (hu : Usable v.own) (hx : v.exclusive) (hcov : Covers data ps cmd)
    (hQ : ∀ result w, Answered cmd ps v result w → Q result w) : (command data ps cmd).Ok dev id Q v := by
  simp only [command, Script.ok_bind]
  refine writeData_ok hx hcov.fits fun w hw hdata => ?_
  have huw : Usable w.own := hw.own ▸ hu
  refine writeParams_ok huw (hw.exclusive hx) (by simpa using hcov.short) fun u hwu _ hparam => ?_
  have hvalue : ∀ (i : Fin 8) (h : i.val < ps.length), u.region.content (.param i) = ps[i.val] := fun i h => by
    simpa using (hparam i ⟨Nat.zero_le _, by simpa using h⟩).2
  have hwrote := hw.trans hwu
  refine executeCmd_ok hp (hwu.own ▸ huw) (hwrote.exclusive hx) ?_ ?_
  · intro c hc hin
    cases c with
    | param i => exact (hparam i ⟨Nat.zero_le _, by have := hcov.arity; have : i.val < _ := hin; omega⟩).1
    | result i => exact hin.elim
    | callId => exact absurd rfl hc
    | data off =>
      obtain ⟨d, hd, hlo, hhi⟩ := hcov.payload _ hvalue off hin
      exact hwu.keeps _ (hdata d hd off hlo hhi)
    | batch off => exact absurd hin (hcov.batch _ off)
  · intro result z hz
    exact hQ result z ⟨hz.held.trans hwrote.held, hz.alone.trans hwrote.alone, hz.usable, hz.results,
      _, hvalue, hz.reply⟩

end Commands

end CxlMemSim.Guest
