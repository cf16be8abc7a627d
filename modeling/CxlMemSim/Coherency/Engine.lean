/-
The unified MOESI directory (`CoherencyEngine`): one entry per 64-byte line; reads, writes and atomics from any node,
and three handlers of remote messages.

Model: a call is one step. `calculate_coherency_msg_latency` is one message to its target; latencies are dropped.
-/
import Mathlib

namespace CxlMemSim.Coherency

/-! ## Directory entries and counters -/

inductive MHSLDCacheState where
  | invalid
  | shared
  | exclusive
  | modified
  | owned
deriving DecidableEq, Repr

def noNode : UInt32 := 0xFFFFFFFF

structure DirectoryEntry where
  cachelineAddr : UInt64
  state : MHSLDCacheState
  ownerNode : UInt32
  ownerHead : UInt32
  sharerNodes : Finset UInt32
  version : UInt32
  lastAccessTime : UInt64
  hasDirtyData : Bool
deriving DecidableEq

def newEntry (line : UInt64) : DirectoryEntry := ⟨line, .invalid, noNode, noNode, ∅, 0, 0, false⟩

structure Stats where
  coherencyMessages : UInt64
  invalidations : UInt64
  downgrades : UInt64
  writebacks : UInt64
  remoteOps : UInt64
  ops : UInt64
deriving DecidableEq, Repr

structure CoherencyRequest where
  addr : UInt64
  requestingNode : UInt32
  requestingHead : UInt32
  timestamp : UInt64
deriving DecidableEq, Repr

structure CoherencyResponse where
  newState : MHSLDCacheState
  success : Bool
  dataSourceNode : UInt32
deriving DecidableEq, Repr

inductive MsgKind where
  | invalidate
  | fetch
  | downgrade
  | forward
deriving DecidableEq, Repr

structure Msg where
  kind : MsgKind
  target : UInt32
deriving DecidableEq, Repr

structure Work where
  entry : DirectoryEntry
  stats : Stats
  msgs : Multiset Msg
deriving DecidableEq

namespace Work

def send (w : Work) (kind : MsgKind) (target : UInt32) : Work := { w with msgs := ⟨kind, target⟩ ::ₘ w.msgs }

def countMessage (w : Work) : Work :=
  { w with stats := { w.stats with coherencyMessages := w.stats.coherencyMessages + 1 } }

def countInvalidation (w : Work) : Work :=
  { w with stats := { w.stats with invalidations := w.stats.invalidations + 1 } }

def countDowngrade (w : Work) : Work :=
  { w with stats := { w.stats with downgrades := w.stats.downgrades + 1 } }

def countWriteback (w : Work) : Work :=
  { w with stats := { w.stats with writebacks := w.stats.writebacks + 1 } }

def countOp (w : Work) (remote : Bool) : Work :=
  { w with stats := { w.stats with
      remoteOps := if remote then w.stats.remoteOps + 1 else w.stats.remoteOps
      ops := w.stats.ops + 1 } }

def addSharer (w : Work) (n : UInt32) : Work :=
  { w with entry := { w.entry with sharerNodes := insert n w.entry.sharerNodes } }

def setState (w : Work) (s : MHSLDCacheState) : Work := { w with entry := { w.entry with state := s } }

def setOwner (w : Work) (node head : UInt32) : Work :=
  { w with entry := { w.entry with ownerNode := node, ownerHead := head } }

def setDirty (w : Work) (b : Bool) : Work := { w with entry := { w.entry with hasDirtyData := b } }

end Work

/-! ## Coherency actions -/

def invalidateSharers (w : Work) (exceptNode : UInt32) : Work :=
  let toInvalidate := w.entry.sharerNodes.filter (· ≠ exceptNode)
  { entry := { w.entry with sharerNodes := ∅ }
    stats := { w.stats with
      invalidations := w.stats.invalidations + UInt64.ofNat toInvalidate.card
      coherencyMessages := w.stats.coherencyMessages + UInt64.ofNat toInvalidate.card }
    msgs := toInvalidate.val.map (fun n => (⟨.invalidate, n⟩ : Msg)) + w.msgs }

def downgradeOwner (w : Work) (requestingNode : UInt32) : Work :=
  if w.entry.ownerNode = noNode ∨ w.entry.ownerNode = requestingNode then w
  else
    let sent := w.send .downgrade w.entry.ownerNode
    let moved :=
      match w.entry.state with
      | .modified => (sent.setState .owned).setDirty true
      | .exclusive => ((sent.addSharer w.entry.ownerNode).setState .shared).setOwner noNode noNode
      | _ => sent
    moved.countDowngrade.countMessage

def fetchFromOwner (w : Work) : Work :=
  if w.entry.ownerNode = noNode then w else (w.send .fetch w.entry.ownerNode).countMessage

@[simp] lemma fetchFromOwner_entry (w : Work) : (fetchFromOwner w).entry = w.entry := by
  unfold fetchFromOwner; split_ifs <;> rfl

variable (localNode : UInt32) (w : Work) (req : CoherencyRequest)

def acquireShared : Work × UInt32 :=
  let n := req.requestingNode
  match w.entry.state with
  | .invalid => (((w.addSharer n).setState .shared).setOwner n req.requestingHead, localNode)
  | .shared => (w.addSharer n, localNode)
  | .exclusive =>
    if w.entry.ownerNode = n then ((w.addSharer n).setState .shared, localNode)
    else
      -- the data source is read after the downgrade, which has cleared the owner
      let d := downgradeOwner w n
      ((d.addSharer n).setState .shared, d.entry.ownerNode)
  | .modified =>
    if w.entry.ownerNode = n then (w.addSharer n, localNode)
    else
      let f := fetchFromOwner w
      ((f.setState .owned).addSharer n, f.entry.ownerNode)
  | .owned =>
    if w.entry.ownerNode = n then (w.addSharer n, localNode)
    else (((w.send .forward w.entry.ownerNode).countMessage).addSharer n, w.entry.ownerNode)

def ownerReads (e : DirectoryEntry) (n : UInt32) : Bool :=
  e.ownerNode = n && (e.state = .exclusive || e.state = .modified || e.state = .owned)

def readEntry : Work × CoherencyResponse :=
  let n := req.requestingNode
  let w := { w with entry := { w.entry with lastAccessTime := req.timestamp } }
  if ownerReads w.entry n then (w.countOp (n ≠ localNode), ⟨w.entry.state, true, localNode⟩)
  else if n ∈ w.entry.sharerNodes then (w.countOp (n ≠ localNode), ⟨.shared, true, localNode⟩)
  else
    let (w, source) := acquireShared localNode w req
    (w.countOp (n ≠ localNode), ⟨.shared, true, source⟩)

/-- the state switch of `process_write`: the messages that take the line away from everyone else -/
def acquireExclusive : Work × UInt32 :=
  let n := req.requestingNode
  match w.entry.state with
  | .invalid => (w, localNode)
  | .shared => (invalidateSharers w n, localNode)
  | .exclusive =>
    if w.entry.ownerNode ≠ n then
      (((w.send .invalidate w.entry.ownerNode).countInvalidation).countMessage, localNode)
    else (w, localNode)
  | .modified =>
    if w.entry.ownerNode ≠ n then
      (((w.send .fetch w.entry.ownerNode).countWriteback).countMessage, w.entry.ownerNode)
    else (w, localNode)
  | .owned =>
    if w.entry.ownerNode ≠ n then
      ((invalidateSharers (w.send .fetch w.entry.ownerNode) n).countWriteback, w.entry.ownerNode)
    else (invalidateSharers w n, localNode)

def takeOwnership : Work :=
  { w with entry := { w.entry with
      ownerNode := req.requestingNode
      ownerHead := req.requestingHead
      state := .modified
      sharerNodes := ∅
      hasDirtyData := true } }

def writeEntry : Work × CoherencyResponse :=
  let n := req.requestingNode
  let w := { w with entry := { w.entry with lastAccessTime := req.timestamp, version := w.entry.version + 1 } }
  if w.entry.ownerNode = n ∧ (w.entry.state = .exclusive ∨ w.entry.state = .modified) then
    (((w.setState .modified).setDirty true).countOp (n ≠ localNode), ⟨.modified, true, localNode⟩)
  else if w.entry.ownerNode = n ∧ w.entry.state = .owned then
    ((((invalidateSharers w n).setState .modified).setDirty true).countOp (n ≠ localNode), ⟨.modified, true, localNode⟩)
  else
    let (w, source) := acquireExclusive localNode w req
    ((takeOwnership w req).countOp (n ≠ localNode), ⟨.modified, true, source⟩)

def invalidateEntry : Work :=
  let w := { w with entry := { w.entry with sharerNodes := w.entry.sharerNodes.erase localNode } }
  let w :=
    if w.entry.ownerNode = localNode then
      let w := if w.entry.state = .modified then (w.setDirty true).countWriteback else w
      (w.setOwner noNode noNode).setState .invalid
    else w
  w.countInvalidation

def downgradeEntry : Work :=
  let w :=
    if w.entry.ownerNode = localNode then
      match w.entry.state with
      | .modified => w.setState .owned
      | .exclusive => (w.setState .shared).addSharer localNode
      | _ => w
    else w
  w.countDowngrade

def writebackEntry (fromNode : UInt32) (w : Work) : Work :=
  let w :=
    if w.entry.ownerNode = fromNode then
      { w with entry := { w.entry with
          hasDirtyData := false
          ownerNode := noNode
          ownerHead := noNode
          state := .invalid
          sharerNodes := w.entry.sharerNodes.erase fromNode } }
    else w
  w.countWriteback

/-! ## The engine -/

structure CoherencyEngine where
  localNodeId : UInt32
  directory : UInt64 → Option DirectoryEntry
  stats : Stats

def newEngine (localNode : UInt32) : CoherencyEngine := ⟨localNode, fun _ => none, ⟨0, 0, 0, 0, 0, 0⟩⟩

def lineOf (addr : UInt64) : UInt64 := addr &&& ~~~63

variable (c : CoherencyEngine)

def openEntry (addr : UInt64) : Work := ⟨(c.directory (lineOf addr)).getD (newEntry (lineOf addr)), c.stats, 0⟩

def closeEntry (addr : UInt64) (w : Work) : CoherencyEngine :=
  { c with directory := Function.update c.directory (lineOf addr) (some w.entry), stats := w.stats }

structure Outcome where
  response : CoherencyResponse
  msgs : Multiset Msg
  engine : CoherencyEngine

def processRead (req : CoherencyRequest) : Outcome :=
  let (w, resp) := readEntry c.localNodeId (openEntry c req.addr) req
  ⟨resp, w.msgs, closeEntry c req.addr w⟩

def processWrite (req : CoherencyRequest) : Outcome :=
  let (w, resp) := writeEntry c.localNodeId (openEntry c req.addr) req
  ⟨resp, w.msgs, closeEntry c req.addr w⟩

def processAtomic (req : CoherencyRequest) : Outcome := processWrite c req

def handleRemote (addr : UInt64) (f : Work → Work) : CoherencyEngine :=
  match c.directory (lineOf addr) with
  | none => c
  | some e => closeEntry c addr (f ⟨e, c.stats, 0⟩)

def handleRemoteInvalidate (addr : UInt64) : CoherencyEngine := handleRemote c addr (invalidateEntry c.localNodeId)

def handleRemoteDowngrade (addr : UInt64) : CoherencyEngine := handleRemote c addr (downgradeEntry c.localNodeId)

def handleRemoteWriteback (addr : UInt64) (fromNode : UInt32) : CoherencyEngine :=
  handleRemote c addr (writebackEntry fromNode)

inductive Op where
  | processRead (req : CoherencyRequest)
  | processWrite (req : CoherencyRequest)
  | processAtomic (req : CoherencyRequest)
  | handleRemoteInvalidate (addr : UInt64) (fromNode : UInt32)
  | handleRemoteDowngrade (addr : UInt64) (fromNode : UInt32)
  | handleRemoteWriteback (addr : UInt64) (fromNode : UInt32)
deriving DecidableEq, Repr

def call : Op → CoherencyEngine × Multiset Msg
  | .processRead req => ((processRead c req).engine, (processRead c req).msgs)
  | .processWrite req => ((processWrite c req).engine, (processWrite c req).msgs)
  | .processAtomic req => ((processAtomic c req).engine, (processAtomic c req).msgs)
  | .handleRemoteInvalidate addr _ => (handleRemoteInvalidate c addr, 0)
  | .handleRemoteDowngrade addr _ => (handleRemoteDowngrade c addr, 0)
  | .handleRemoteWriteback addr n => (handleRemoteWriteback c addr n, 0)

/-! ## One call touches one line -/

@[simp] lemma closeEntry_self (addr : UInt64) (w : Work) :
    (closeEntry c addr w).directory (lineOf addr) = some w.entry := by
  simp [closeEntry]

lemma closeEntry_other {addr line : UInt64} (w : Work) (h : line ≠ lineOf addr) :
    (closeEntry c addr w).directory line = c.directory line := by
  simp [closeEntry, Function.update_of_ne h]

def Op.addr : Op → UInt64
  | .processRead req => req.addr
  | .processWrite req => req.addr
  | .processAtomic req => req.addr
  | .handleRemoteInvalidate addr _ => addr
  | .handleRemoteDowngrade addr _ => addr
  | .handleRemoteWriteback addr _ => addr

lemma handleRemote_other {addr line : UInt64} (f : Work → Work) (h : line ≠ lineOf addr) :
    (handleRemote c addr f).directory line = c.directory line := by
  unfold handleRemote
  cases c.directory (lineOf addr) with
  | none => rfl
  | some e => exact closeEntry_other c _ h

lemma call_other (o : Op) {line : UInt64} (h : line ≠ lineOf o.addr) :
    (call c o).1.directory line = c.directory line := by
  cases o with
  | processRead req | processWrite req | processAtomic req => exact closeEntry_other c _ h
  | handleRemoteInvalidate addr n | handleRemoteDowngrade addr n | handleRemoteWriteback addr n =>
    exact handleRemote_other c _ h

end CxlMemSim.Coherency
