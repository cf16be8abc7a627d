/-
The cluster secret: only `send_message` fills in the token, the other sending functions send 0, and a receiver checks
only if its own token is not 0.
-/
import CxlMemSim.Dist.Connections
import CxlMemSim.Dist.Region

namespace CxlMemSim.Dist

open Connections (TCPServer Phase Cause receivedStep)

abbrev EnvValue := { bytes : List UInt8 // 0 ∉ bytes }

def tcpGetAuthToken : Option EnvValue → UInt64
  | none => 0
  | some secret =>
    if secret.1 = [] then 0
    else secret.1.foldl (fun hash byte => (hash ^^^ byte.toUInt64) * 1099511628211) 14695981039346656037

/-! ## The requests -/

inductive TCPOpType
  | read | write | readResp | writeResp
  deriving DecidableEq, Repr

structure TCPRequest where
  opType : TCPOpType
  addr : UInt64
  size : UInt64
  timestamp : UInt64
  hostId : UInt8
  authToken : UInt64
  virtualAddr : UInt64
  data : List UInt8
  deriving DecidableEq, Repr

def tcpCachelineSize : ℕ := 64

def TCPRequest.zero : TCPRequest := ⟨.read, 0, 0, 0, 0, 0, 0, List.replicate tcpCachelineSize 0⟩

def TCPRequest.copyData (req : TCPRequest) (bytes : List UInt8) : TCPRequest :=
  { req with data := bytes.take tcpCachelineSize ++ req.data.drop bytes.length }

structure MemMessage where
  header : MsgHeader
  addr : UInt64
  size : UInt64
  data : List UInt8
  bytes : List UInt8
  deriving DecidableEq, Repr

structure Sender where
  secret : Option EnvValue
  localNodeId : UInt32
  now : UInt64

def Sender.hostId (s : Sender) : UInt8 := s.localNodeId.toUInt8

def sendMessage (s : Sender) (msg : MemMessage) : TCPRequest :=
  { TCPRequest.zero with
    opType := .write
    addr := msg.addr
    size := 512
    timestamp := msg.header.timestamp
    hostId := s.hostId
    authToken := tcpGetAuthToken s.secret }.copyData msg.bytes

def sendMessageWaitResponse (s : Sender) (req : MemMessage) : TCPRequest :=
  let tcpReq : TCPRequest := { TCPRequest.zero with
    opType := if req.header.msgType = .readReq then .read else .write
    addr := req.addr
    size := req.size
    timestamp := req.header.timestamp
    hostId := s.hostId }
  if tcpReq.opType = .write then tcpReq.copyData req.data else tcpReq

def tcpRead (s : Sender) (remoteOffset size : UInt64) : TCPRequest :=
  { TCPRequest.zero with
    opType := .read
    addr := remoteOffset
    size := size
    timestamp := s.now
    hostId := s.hostId }

def tcpWrite (s : Sender) (remoteOffset : UInt64) (buf : List UInt8) : TCPRequest :=
  { TCPRequest.zero with
    opType := .write
    addr := remoteOffset
    size := UInt64.ofNat buf.length
    timestamp := s.now
    hostId := s.hostId }.copyData buf

def calibrationProbe (s : Sender) (warmup : Bool) : TCPRequest :=
  { TCPRequest.zero with
    opType := .read
    size := if warmup then 0 else 8
    timestamp := s.now
    hostId := s.hostId }

inductive Outgoing
  | message (msg : MemMessage)
  | messageWaitResponse (req : MemMessage)
  | read (remoteOffset size : UInt64)
  | write (remoteOffset : UInt64) (buf : List UInt8)
  | probe (warmup : Bool)

def Outgoing.request (s : Sender) : Outgoing → TCPRequest
  | .message msg => sendMessage s msg
  | .messageWaitResponse req => sendMessageWaitResponse s req
  | .read remoteOffset size => tcpRead s remoteOffset size
  | .write remoteOffset buf => tcpWrite s remoteOffset buf
  | .probe warmup => calibrationProbe s warmup

def Outgoing.signed : Outgoing → Bool
  | .message _ => true
  | _ => false

lemma authToken_request (s : Sender) (m : Outgoing) :
    (m.request s).authToken = if m.signed then tcpGetAuthToken s.secret else 0 := by
  cases m with
  | message msg => rfl
  | messageWaitResponse req =>
    simp only [Outgoing.request, sendMessageWaitResponse, Outgoing.signed]
    split_ifs <;> first | rfl | contradiction
  | read offset size | write offset buf | probe warmup => rfl

/-! ## The check -/

def received (secret : Option EnvValue) (server : TCPServer) (handler sock : ℕ) (req : TCPRequest) : Phase :=
  (receivedStep { server with authToken := tcpGetAuthToken secret } handler (some sock) true req.authToken).handler
    handler

/-- The check lets a request pass exactly if the receiver has no token or the request carries it. -/
lemma checked_send (secret : Option EnvValue) (server : TCPServer) (handler sock : ℕ) (req : TCPRequest) :
    received secret server handler sock req =
      if tcpGetAuthToken secret = 0 ∨ req.authToken = tcpGetAuthToken secret then .send
      else .leaving (.authFailed (some sock)) := by
  unfold received receivedStep
  simp only [if_true]
  by_cases hzero : tcpGetAuthToken secret = 0
  · simp [hzero, Connections.setPhase_self]
  · by_cases htoken : req.authToken = tcpGetAuthToken secret
    · simp [htoken, Connections.setPhase_self]
    · simp [hzero, htoken, Connections.setPhase_self]

/-- a peer with the same secret is let in, and one with another secret and another token is not -/
def Admits (receiver : Option EnvValue) (sender : Sender) (m : Outgoing) : Prop :=
  ∀ server handler sock, (sender.secret = receiver → received receiver server handler sock (m.request sender) = .send) ∧
    (sender.secret ≠ receiver → tcpGetAuthToken sender.secret ≠ tcpGetAuthToken receiver →
      received receiver server handler sock (m.request sender) = .leaving (.authFailed (some sock)))

/-- Who is let in. As the secrets ask, exactly if messages carry the token where it is asked for, and a receiver
with another secret asks for one. -/
theorem secret_iff (receiver : Option EnvValue) (sender : Sender) (m : Outgoing) : Admits receiver sender m ↔
      (sender.secret = receiver → m.signed = true ∨ tcpGetAuthToken receiver = 0) ∧
      (sender.secret ≠ receiver → tcpGetAuthToken sender.secret ≠ tcpGetAuthToken receiver →
        tcpGetAuthToken receiver ≠ 0) := by
  have hsend : ∀ server handler sock, received receiver server handler sock (m.request sender) = .send ↔
      tcpGetAuthToken receiver = 0 ∨ (m.request sender).authToken = tcpGetAuthToken receiver := by
    intro server handler sock
    rw [checked_send]
    split_ifs with h <;> simp [h]
  have hrefused : ∀ server handler sock,
      received receiver server handler sock (m.request sender) = .leaving (.authFailed (some sock)) ↔
        ¬ (tcpGetAuthToken receiver = 0 ∨ (m.request sender).authToken = tcpGetAuthToken receiver) := by
    intro server handler sock
    rw [checked_send]
    split_ifs with h <;> simp [h]
  constructor
  · intro h
    obtain ⟨hsame, hother⟩ := h (TCPServer.start 0) 0 0
    refine ⟨fun heq => ?_, fun hne htokens hzero => (hrefused _ _ _).mp (hother hne htokens) (.inl hzero)⟩
    rcases (hsend _ _ _).mp (hsame heq) with hzero | htoken
    · exact .inr hzero
    · rw [authToken_request] at htoken
      split_ifs at htoken with hsigned
      · exact .inl hsigned
      · exact .inr htoken.symm
  · rintro ⟨hsame, hother⟩ server handler sock
    refine ⟨fun heq => (hsend _ _ _).mpr ?_, fun hne htokens => (hrefused _ _ _).mpr ?_⟩
    · rcases hsame heq with hsigned | hzero
      · exact .inr (by rw [authToken_request, if_pos hsigned, heq])
      · exact .inl hzero
    · rintro (hzero | htoken)
      · exact hother hne htokens hzero
      · rw [authToken_request] at htoken
        split_ifs at htoken
        · exact htokens htoken
        · exact hother hne htokens htoken.symm

def letterSecret : EnvValue := ⟨[97], by decide⟩

/-- A read among nodes with the same secret is refused, while a plain message passes. -/
theorem read_refused : let node : Sender := ⟨some letterSecret, 0, 0⟩
    received node.secret (TCPServer.start 0) 0 0 (tcpRead node 0 8) = .leaving (.authFailed (some 0)) ∧
      received node.secret (TCPServer.start 0) 0 0 (sendMessage node ⟨{}, 0, 0, [], []⟩) = .send := by
  decide

end CxlMemSim.Dist
