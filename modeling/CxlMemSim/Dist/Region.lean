/-
The shared message region of the distributed server: header, node table, and one queue for every ordered pair of nodes.
-/
import CxlMemSim.Core.Run

namespace CxlMemSim.Dist

open Function

/-! ## Messages -/

def maxNodes : UInt32 := 16

def msgQueueSize : UInt32 := 4096

inductive MsgType
  | none
  | nodeRegister | nodeDeregister | nodeHeartbeat | nodeAck
  | readReq | readResp | writeReq | writeResp
  | atomicFaaReq | atomicFaaResp | atomicCasReq | atomicCasResp | fenceReq | fenceResp
  | invalidate | invalidateAck | downgrade | downgradeAck | writeback | writebackAck
  | dirUpdate | dirQuery | dirResponse
  | bulkReadReq | bulkReadResp | bulkWriteReq | bulkWriteResp
  deriving DecidableEq, Repr

inductive NodeState
  | unknown | initializing | ready | busy | draining | offline
  deriving DecidableEq, Repr

structure MsgHeader where
  msgType : MsgType := .none
  msgId : UInt32 := 0
  srcNodeId : UInt32 := 0
  dstNodeId : UInt32 := 0
  timestamp : UInt64 := 0
  payloadSize : UInt32 := 0
  flags : UInt32 := 0
  deriving DecidableEq, Repr

structure NodePayload where
  nodeId : UInt32
  nodeState : NodeState
  memoryBase : UInt64
  memorySize : UInt64
  numCachelines : UInt64
  port : UInt32
  flags : UInt32
  hostname : String
  deriving DecidableEq, Repr

inductive Payload
  | node (p : NodePayload)
  | raw (bytes : List UInt8)
  deriving DecidableEq, Repr

structure Message where
  header : MsgHeader := {}
  payload : Payload := .raw []
  deriving DecidableEq, Repr

structure NodeStatus where
  nodeId : UInt32 := 0
  state : NodeState := .unknown
  lastHeartbeat : UInt64 := 0
  memoryBase : UInt64 := 0
  memorySize : UInt64 := 0
  activeConnections : UInt32 := 0
  flags : UInt32 := 0
  hostname : String := ""
  deriving DecidableEq, Repr

structure NodeQueue where
  head : UInt32 := 0
  tail : UInt32 := 0
  msgCount : UInt32 := 0
  capacity : UInt32 := 0
  totalSent : UInt64 := 0
  totalReceived : UInt64 := 0
  totalDropped : UInt64 := 0
  messages : ℕ → Message := fun _ => {}

/-- `dist_shm_header_t`; the queue from `src` to `dst` is `queues (src * maxNodes + dst)` -/
structure Region where
  magic : UInt64
  version : UInt32
  numNodes : UInt32
  coordinatorNode : UInt32
  globalEpoch : UInt32
  systemReady : UInt32
  shutdownRequested : UInt32
  nodes : ℕ → NodeStatus
  queues : ℕ → NodeQueue

def NodeQueue.fresh : NodeQueue := { capacity := msgQueueSize }

def Region.fresh (localNodeId : UInt32) : Region where
  magic := 0x4458544D454D5348
  version := 1
  numNodes := 0
  coordinatorNode := localNodeId
  globalEpoch := 0
  systemReady := 0
  shutdownRequested := 0
  nodes := fun _ => {}
  queues := fun _ => NodeQueue.fresh

/-! ## The node table -/

structure NodeInfo where
  nodeId : UInt32
  hostname : String
  memoryBase : UInt64
  memorySize : UInt64

def cutHostname (name : String) (n : ℕ) : String := String.ofList (name.toList.take (n - 1))

def NodeInfo.status (info : NodeInfo) (now : UInt64) : NodeStatus where
  nodeId := info.nodeId
  state := .ready
  lastHeartbeat := now
  memoryBase := info.memoryBase
  memorySize := info.memorySize
  activeConnections := 0
  flags := 0
  hostname := cutHostname info.hostname 32

def registerNode (r : Region) (info : NodeInfo) (now : UInt64) : Bool × Region :=
  if maxNodes ≤ info.nodeId then (false, r)
  else (true, { r with
    nodes := update r.nodes info.nodeId.toNat (info.status now)
    numNodes := r.numNodes + 1 })

def deregisterNode (r : Region) (node : UInt32) : Bool × Region :=
  if maxNodes ≤ node then (false, r)
  else (true, { r with
    nodes := update r.nodes node.toNat
      { r.nodes node.toNat with state := .offline, lastHeartbeat := 0 }
    numNodes := r.numNodes - 1 })

def isNodeActive (r : Region) (node : UInt32) : Bool :=
  if maxNodes ≤ node then false
  else (r.nodes node.toNat).state = .ready || (r.nodes node.toNat).state = .busy

@[simp] lemma isNodeActive_fresh (j n : UInt32) : isNodeActive (Region.fresh j) n = false := by
  unfold isNodeActive
  split_ifs
  · rfl
  · rfl

variable {info : NodeInfo} {now : UInt64} {r : Region}

lemma registerNode_ok (h : (registerNode r info now).1 = true) :
    info.nodeId < maxNodes ∧ (registerNode r info now).2 = { r with
        nodes := update r.nodes info.nodeId.toNat (info.status now)
        numNodes := r.numNodes + 1 } := by
  unfold registerNode at h ⊢
  split_ifs at h ⊢ with hid
  exact ⟨UInt32.not_le.mp hid, rfl⟩

@[simp] lemma registerNode_coordinator (r : Region) (info : NodeInfo) (now : UInt64) :
    (registerNode r info now).2.coordinatorNode = r.coordinatorNode := by
  unfold registerNode
  split_ifs <;> rfl

@[simp] lemma registerNode_queues (r : Region) (info : NodeInfo) (now : UInt64) :
    (registerNode r info now).2.queues = r.queues := by
  unfold registerNode
  split_ifs <;> rfl

lemma isNodeActive_registerNode (h : (registerNode r info now).1 = true) (n : UInt32) :
    isNodeActive (registerNode r info now).2 n = (decide (n = info.nodeId) || isNodeActive r n) := by
  obtain ⟨hid, heq⟩ := registerNode_ok h
  rw [heq]
  unfold isNodeActive
  by_cases hn : n = info.nodeId
  · subst hn
    simp [UInt32.not_le.mpr hid, NodeInfo.status]
  · have hne : n.toNat ≠ info.nodeId.toNat := fun h => hn (UInt32.toNat_inj.mp h)
    simp [hn, update_of_ne hne]

/-! ## The queues -/

def NodeQueue.next (q : NodeQueue) (i : UInt32) : UInt32 := (i + 1) % q.capacity

def NodeQueue.count (q : NodeQueue) : ℕ := (q.head.toNat + q.capacity.toNat - q.tail.toNat) % q.capacity.toNat

def NodeQueue.queued (q : NodeQueue) : List Message :=
  (List.range q.count).map fun k => q.messages ((q.tail.toNat + k) % q.capacity.toNat)

@[simp] lemma queued_fresh : NodeQueue.fresh.queued = [] := by decide

def NodeQueue.enqueue (q : NodeQueue) (msg : Message) : Bool × NodeQueue :=
  if q.next q.head = q.tail then (false, { q with totalDropped := q.totalDropped + 1 })
  else (true, { q with
    messages := update q.messages q.head.toNat msg
    head := q.next q.head
    msgCount := q.msgCount + 1
    totalSent := q.totalSent + 1 })

def NodeQueue.dequeue (q : NodeQueue) : Option Message × NodeQueue :=
  if q.head = q.tail then (none, q)
  else (some (q.messages q.tail.toNat), { q with
    tail := q.next q.tail
    msgCount := q.msgCount - 1
    totalReceived := q.totalReceived + 1 })

def enqueueMessage (r : Region) (src dst : UInt32) (msg : Message) : Bool × Region :=
  if maxNodes ≤ dst then (false, r)
  else
    let i := (src * maxNodes + dst).toNat
    let (ok, q) := (r.queues i).enqueue msg
    (ok, { r with queues := update r.queues i q })

def dequeueMessage (r : Region) (src dst : UInt32) : Option Message × Region :=
  if maxNodes ≤ src then (none, r)
  else
    let i := (src * maxNodes + dst).toNat
    let (msg, q) := (r.queues i).dequeue
    (msg, { r with queues := update r.queues i q })

@[simp] lemma enqueueMessage_coordinator (r : Region) (src dst : UInt32) (msg : Message) :
    (enqueueMessage r src dst msg).2.coordinatorNode = r.coordinatorNode := by
  unfold enqueueMessage
  split_ifs <;> rfl

end CxlMemSim.Dist
