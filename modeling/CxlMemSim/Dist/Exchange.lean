/-
The request/response exchange between nodes. A message that comes in is looked up in the pending requests by its id
alone, and goes to the handler of its type if it is not found.

Model: `step` is one atomic action of one thread. A call goes through `drawn`, `registered`, `waiting`, `done` and
`returned`. `post` and `emit` are messages that expect no answer. The queues are lists, as `Dist.Queues` shows when
calls do not overlap.
-/
import CxlMemSim.Dist.Region

namespace CxlMemSim.Dist.Exchange

open Function

def hasHandler : MsgType → Bool
  | .readReq | .writeReq | .atomicFaaReq | .atomicCasReq | .fenceReq => true
  | .invalidate | .downgrade => true
  | .nodeRegister | .nodeHeartbeat => true
  | .dirQuery => true
  | _ => false

def responseType : MsgType → MsgType
  | .readReq => .readResp
  | .writeReq => .writeResp
  | .atomicFaaReq => .atomicFaaResp
  | .atomicCasReq => .atomicCasResp
  | .fenceReq => .fenceResp
  | .invalidate => .invalidateAck
  | .downgrade => .downgradeAck
  | .nodeRegister => .nodeAck
  | .dirQuery => .dirResponse
  | _ => .none

lemma hasHandler_responseType (t : MsgType) : hasHandler (responseType t) = false := by cases t <;> rfl

/-! ## State -/

/-- the `k`-th message of some thread's own, or a node's answer to another message -/
inductive Origin
  | sent (k : ℕ)
  | reply (node : UInt32) (cause : Origin)
  deriving DecidableEq, Repr

structure Envelope where
  msg : Message
  origin : Origin
  deriving DecidableEq, Repr

def Envelope.id (e : Envelope) : UInt32 := e.msg.header.msgId

inductive Phase
  | drawn
  | registered
  | waiting
  | done
  | returned (ok : Bool)
  deriving DecidableEq, Repr

structure Call where
  node : UInt32
  dst : UInt32
  request : Message
  phase : Phase := .drawn
  completed : Bool := false
  response : Option Envelope := none
  deriving DecidableEq, Repr

def Call.id (c : Call) : UInt32 := c.request.header.msgId

inductive Event
  | consumed (node : UInt32) (e : Envelope) (k : ℕ)
  | handed (node : UInt32) (e : Envelope)
  | unhandled (node : UInt32) (e : Envelope)
  | replied (node : UInt32) (e r : Envelope)
  deriving DecidableEq, Repr

structure Net where
  nextMsgId : UInt32 → UInt32
  pending : UInt32 → UInt32 → Option ℕ
  queues : UInt32 → UInt32 → List Envelope
  outbox : UInt32 → List (Envelope × List UInt32)
  taken : UInt32 → List Envelope
  handling : UInt32 → List Envelope
  calls : ℕ → Option Call
  sends : ℕ
  log : List Event

def Net.init : Net where
  nextMsgId := fun _ => 1
  pending := fun _ _ => none
  queues := fun _ _ => []
  outbox := fun _ => []
  taken := fun _ => []
  handling := fun _ => []
  calls := fun _ => none
  sends := 0
  log := []

/-! ## Steps -/

variable (s : Net)

def Net.push (src dst : UInt32) (e : Envelope) : Option Net :=
  if maxNodes ≤ dst ∨ msgQueueSize.toNat - 1 ≤ (s.queues src dst).length then none
  else some { s with
    queues := update s.queues src (update (s.queues src) dst (s.queues src dst ++ [e])) }

def Net.pushOrDrop (src dst : UInt32) (e : Envelope) : Net := (s.push src dst e).getD s

def Net.setPending (a m : UInt32) (k : Option ℕ) : Net :=
  { s with pending := update s.pending a (update (s.pending a) m k) }

def Net.setCall (k : ℕ) (c : Call) : Net := { s with calls := update s.calls k (some c) }

def Net.note (ev : Event) : Net := { s with log := s.log ++ [ev] }

inductive Op
  | call (a dst : UInt32) (type : MsgType) (now : UInt64) (payload : Payload)
  | register (k : ℕ)
  | send (k : ℕ)
  | wake (k : ℕ)
  | expire (k : ℕ)
  | finish (k : ℕ)
  | post (a dst : UInt32) (dsts : List UInt32) (type : MsgType) (now : UInt64) (payload : Payload)
  | emit (a : UInt32) (i : ℕ)
  | take (a src : UInt32)
  | process (a : UInt32) (i : ℕ)
  | reply (a : UInt32) (i : ℕ) (now : UInt64) (payload : Payload)
  deriving DecidableEq, Repr

def Net.draw (a dst : UInt32) (type : MsgType) (now : UInt64) (payload : Payload) : Message where
  header := { msgType := type, msgId := s.nextMsgId a, srcNodeId := a, dstNodeId := dst, timestamp := now }
  payload := payload

def Net.drawn (a : UInt32) : Net :=
  { s with nextMsgId := update s.nextMsgId a (s.nextMsgId a + 1), sends := s.sends + 1 }

def Net.callStep (k : ℕ) (c : Call) : Op → Net
  | .register _ =>
    if c.phase = .drawn then (s.setPending c.node c.id (some k)).setCall k { c with phase := .registered } else s
  | .send _ =>
    if c.phase = .registered then
      match s.push c.node c.dst ⟨c.request, .sent k⟩ with
      | some s' => s'.setCall k { c with phase := .waiting }
      | none => (s.setPending c.node c.id none).setCall k { c with phase := .returned false }
    else s
  | .wake _ => if c.phase = .waiting ∧ c.completed = true then s.setCall k { c with phase := .done } else s
  | .expire _ =>
    if c.phase = .waiting ∧ c.completed = false then
      (s.setPending c.node c.id none).setCall k { c with phase := .returned false }
    else s
  | .finish _ =>
    if c.phase = .done then (s.setPending c.node c.id none).setCall k { c with phase := .returned true } else s
  | _ => s

def Net.matchMessage (a : UInt32) (e : Envelope) : Net :=
  match s.pending a e.id with
  | some k =>
    match s.calls k with
    | some c => (s.setCall k { c with completed := true, response := some e }).note (.consumed a e k)
    | none => s
  | none =>
    if hasHandler e.msg.header.msgType then
      { s with handling := update s.handling a (s.handling a ++ [e]) }.note (.handed a e)
    else s.note (.unhandled a e)

def replyTo (a : UInt32) (e : Envelope) (now : UInt64) (payload : Payload) : Envelope where
  msg :=
    { header :=
      { msgType := responseType e.msg.header.msgType, msgId := e.id, srcNodeId := a,
        dstNodeId := e.msg.header.srcNodeId, timestamp := now }
      payload }
  origin := .reply a e.origin

def Net.answer (a : UInt32) (e : Envelope) (now : UInt64) (payload : Payload) : Net :=
  if responseType e.msg.header.msgType = .none then s
  else
    let r := replyTo a e now payload
    (s.pushOrDrop a e.msg.header.srcNodeId r).note (.replied a e r)

def step (op : Op) : Net :=
  match op with
  | .call a dst type now payload =>
    (s.drawn a).setCall s.sends { node := a, dst, request := s.draw a dst type now payload }
  | .register k | .send k | .wake k | .expire k | .finish k =>
    match s.calls k with
    | some c => s.callStep k c op
    | none => s
  | .post a dst dsts type now payload =>
    { s.drawn a with
      outbox := update s.outbox a (s.outbox a ++ [(⟨s.draw a dst type now payload, .sent s.sends⟩, dsts)]) }
  | .emit a i =>
    match (s.outbox a)[i]? with
    | some (e, dst :: dsts) =>
      { s with outbox := update s.outbox a ((s.outbox a).set i (e, dsts)) }.pushOrDrop a dst e
    | some (_, []) => { s with outbox := update s.outbox a ((s.outbox a).eraseIdx i) }
    | none => s
  | .take a src =>
    -- a worker does not poll the queue of its own node
    if src = a then s
    else
      match s.queues src a with
      | e :: rest =>
        { s with
          queues := update s.queues src (update (s.queues src) a rest)
          taken := update s.taken a (s.taken a ++ [e]) }
      | [] => s
  | .process a i =>
    match (s.taken a)[i]? with
    | some e => { s with taken := update s.taken a ((s.taken a).eraseIdx i) }.matchMessage a e
    | none => s
  | .reply a i now payload =>
    match (s.handling a)[i]? with
    | some e => { s with handling := update s.handling a ((s.handling a).eraseIdx i) }.answer a e now payload
    | none => s

/-! ## Where messages are -/

inductive Place
  | queue (src dst : UInt32)
  | outbox (a : UInt32)
  | taken (a : UInt32)
  | handling (a : UInt32)

def Net.At : Place → Envelope → Prop
  | .queue src dst, e => e ∈ s.queues src dst
  | .outbox a, e => ∃ dsts, (e, dsts) ∈ s.outbox a
  | .taken a, e => e ∈ s.taken a
  | .handling a, e => e ∈ s.handling a

def Origin.root : Origin → ℕ
  | .sent k => k
  | .reply _ o => o.root

def Call.Open (c : Call) : Prop := ∀ ok, c.phase ≠ .returned ok

/-- the send `k` still uses the id `m`: as a call that has not returned, or by a message under way -/
def Net.Uses (k : ℕ) (m : UInt32) : Prop :=
  (∃ c, s.calls k = some c ∧ c.Open ∧ c.id = m) ∨ ∃ p e, s.At p e ∧ e.origin.root = k ∧ e.id = m

def FreshId : Op → Prop
  | .call a _ _ _ _ => ∀ k, ¬ s.Uses k (s.nextMsgId a)
  | .post a _ _ _ _ _ => ∀ k, ¬ s.Uses k (s.nextMsgId a)
  | _ => True

end CxlMemSim.Dist.Exchange
