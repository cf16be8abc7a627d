/-
What a node that joins a cluster does to the message region it finds: either way `DistributedMessageManager::initialize`
zeroes the segment, names the caller coordinator and resets every queue.
-/
import CxlMemSim.Dist.Region

namespace CxlMemSim.Dist

open Function

structure Shm where
  names : String → Option ℕ
  segs : ℕ → Region
  next : ℕ

def Shm.unlink (os : Shm) (name : String) : Shm := { os with names := update os.names name none }

def Shm.store (os : Shm) (seg : ℕ) (r : Region) : Shm := { os with segs := update os.segs seg r }

def Shm.create (os : Shm) (name : String) : Shm :=
  { os with names := update os.names name (some os.next), next := os.next + 1 }

structure InitIo where
  opened : Bool
  sized : Bool
  mapped : Bool

/-! ## The message manager -/

structure Manager where
  shmName : String
  localNodeId : UInt32
  shmHeader : Option ℕ := none
  isCoordinator : Bool := false
  nextMsgId : UInt32 := 1

def Manager.formatSegment (m : Manager) (seg : ℕ) (os : Shm) : Bool × Manager × Shm :=
  (true, { m with shmHeader := some seg, isCoordinator := true }, os.store seg (Region.fresh m.localNodeId))

def Manager.initializeRegion (m : Manager) (createNew : Bool) (io : InitIo) (os : Shm) : Bool × Manager × Shm :=
  if createNew then
    let os := os.unlink m.shmName
    if !io.opened then (false, m, os)
    else
      let seg := os.next
      let os := os.create m.shmName
      if !io.sized then (false, m, os.unlink m.shmName)
      else if !io.mapped then (false, m, os.unlink m.shmName)
      else m.formatSegment seg os
  else
    match os.names m.shmName with
    | none => (false, m, os)
    | some seg =>
      if !io.opened then (false, m, os)
      else if !io.mapped then (false, m, os)
      else m.formatSegment seg os

def Manager.cleanup (m : Manager) (os : Shm) : Shm := if m.isCoordinator then os.unlink m.shmName else os

def Manager.registerNode (m : Manager) (info : NodeInfo) (now : UInt64) (os : Shm) : Bool × Shm :=
  match m.shmHeader with
  | none => (false, os)
  | some seg => ((Dist.registerNode (os.segs seg) info now).1,
      os.store seg (Dist.registerNode (os.segs seg) info now).2)

def Manager.sendMessage (m : Manager) (dst : UInt32) (msg : Message) (os : Shm) : Bool × Shm :=
  match m.shmHeader with
  | none => (false, os)
  | some seg => ((enqueueMessage (os.segs seg) m.localNodeId dst msg).1,
      os.store seg (enqueueMessage (os.segs seg) m.localNodeId dst msg).2)

/-! ## The memory server -/

structure Server where
  nodeId : UInt32
  shmName : String
  memoryBase : UInt64
  memorySize : UInt64
  tcpPort : UInt32
  msgManager : Option Manager := none

def Server.info (s : Server) : NodeInfo where
  nodeId := s.nodeId
  hostname := "node" ++ toString s.nodeId
  memoryBase := s.memoryBase
  memorySize := s.memorySize

structure StartIo where
  localReady : Bool
  calls : InitIo
  now : UInt64

def Server.initializeNode (s : Server) (io : StartIo) (os : Shm) : Bool × Server × Shm :=
  if !io.localReady then (false, s, os)
  else
    let (ok, m, os) :=
      Manager.initializeRegion { shmName := s.shmName, localNodeId := s.nodeId } (s.nodeId = 0) io.calls os
    let s := { s with msgManager := some m }
    if !ok then (false, s, os)
    else
      let (ok, os) := m.registerNode s.info io.now os
      (ok, s, os)

def Server.registerMessage (s : Server) (msgId : UInt32) (now : UInt64) : Message where
  header := { msgType := .nodeRegister, msgId, srcNodeId := s.nodeId, dstNodeId := 0, timestamp := now }
  payload := .node {
    nodeId := s.nodeId
    nodeState := .ready
    memoryBase := s.memoryBase
    memorySize := s.memorySize
    numCachelines := s.memorySize / 64
    port := s.tcpPort
    flags := 0
    hostname := cutHostname s.info.hostname 24 }

def Server.joinCluster (s : Server) (coordinatorShm : String) (io : StartIo) (os : Shm) : Bool × Server × Shm :=
  let os := match s.msgManager with
    | none => os
    | some old => old.cleanup os
  let (ok, m, os) := Manager.initializeRegion { shmName := coordinatorShm, localNodeId := s.nodeId } false io.calls os
  let s := { s with msgManager := some m }
  if !ok then (false, s, os)
  else
    let (ok, os) := m.registerNode s.info io.now os
    if !ok then (false, s, os)
    else
      let msg := s.registerMessage m.nextMsgId io.now
      let m := { m with nextMsgId := m.nextMsgId + 1 }
      -- the result of the send is not looked at
      let (_, os) := m.sendMessage 0 msg os
      (true, { s with msgManager := some m }, os)

def startUp (s : Server) (coordinatorShm : Option String) (first second : StartIo) (os : Shm) : Bool × Server × Shm :=
  let (ok, s, os) := s.initializeNode first os
  if !ok then (false, s, os)
  else
    match coordinatorShm with
    | none => (true, s, os)
    | some name => s.joinCluster name second os

def queueNumber : ℕ := maxNodes.toNat * maxNodes.toNat

/-- nothing of `r` is lost in `r'`: its active nodes, its coordinator and every undelivered message -/
structure Preserved (r r' : Region) : Prop where
  active : ∀ n, isNodeActive r n = true → isNodeActive r' n = true
  address : ∀ n, isNodeActive r n = true → (r'.nodes n.toNat).nodeId = (r.nodes n.toNat).nodeId ∧
    (r'.nodes n.toNat).memoryBase = (r.nodes n.toNat).memoryBase ∧
    (r'.nodes n.toNat).memorySize = (r.nodes n.toNat).memorySize ∧
    (r'.nodes n.toNat).hostname = (r.nodes n.toNat).hostname
  coordinator : r'.coordinatorNode = r.coordinatorNode
  queued : ∀ i < queueNumber, (r.queues i).queued <+: (r'.queues i).queued

structure Vacant (j : UInt32) (r : Region) : Prop where
  inactive : ∀ n, isNodeActive r n = false
  coordinator : r.coordinatorNode = j
  queued : ∀ i < queueNumber, (r.queues i).queued = []

lemma Preserved.refl (r : Region) : Preserved r r :=
  ⟨fun _ h => h, fun _ _ => ⟨rfl, rfl, rfl, rfl⟩, rfl, fun _ _ => List.prefix_rfl⟩

variable {j : UInt32} {S : Set ℕ} {os : Shm} {seg : ℕ} {s : Server} {io : StartIo} {m : Manager}

lemma Preserved.of_vacant {r r' : Region} (h : Vacant j r) (hcoord : r'.coordinatorNode = j) : Preserved r r' where
  active n hn := by rw [h.inactive n] at hn; cases hn
  address n hn := by rw [h.inactive n] at hn; cases hn
  coordinator := hcoord.trans h.coordinator.symm
  queued i hi := by rw [h.queued i hi]; exact List.nil_prefix

/-! ## Which segments a start-up touches -/

/-- no name has come up, and a segment that changed is one of `S` and has `j` as its coordinator -/
structure Touches (S : Set ℕ) (j : UInt32) (os os' : Shm) : Prop where
  names : ∀ name seg, os'.names name = some seg → os.names name = some seg
  segs : ∀ seg, os'.segs seg = os.segs seg ∨ (seg ∈ S ∧ (os'.segs seg).coordinatorNode = j)

lemma Touches.refl (S : Set ℕ) (j : UInt32) (os : Shm) : Touches S j os os := ⟨fun _ _ h => h, fun _ => .inl rfl⟩

lemma Touches.trans {a b c : Shm} (h : Touches S j a b) (h' : Touches S j b c) : Touches S j a c where
  names name seg hc := h.names name seg (h'.names name seg hc)
  segs seg := by
    rcases h'.segs seg with heq | hnew
    · rcases h.segs seg with heq' | ⟨hS, hcoord⟩
      · exact .inl (heq.trans heq')
      · exact .inr ⟨hS, by rw [heq]; exact hcoord⟩
    · exact .inr hnew

lemma touches_unlink (S : Set ℕ) (j : UInt32) (os : Shm) (name : String) : Touches S j os (os.unlink name) where
  names other seg h := by
    by_cases hname : other = name
    · subst hname
      simp [Shm.unlink] at h
    · simpa [Shm.unlink, update_of_ne hname] using h
  segs _ := .inl rfl

lemma touches_store {r : Region} (hS : seg ∈ S) (hcoord : r.coordinatorNode = j) : Touches S j os (os.store seg r) where
  names _ _ h := h
  segs other := by
    by_cases heq : other = seg
    · subst heq
      exact .inr ⟨hS, by simpa [Shm.store] using hcoord⟩
    · exact .inl (by simp [Shm.store, update_of_ne heq])

lemma touches_cleanup (S : Set ℕ) (j : UInt32) (os : Shm) (m : Manager) : Touches S j os (m.cleanup os) := by
  unfold Manager.cleanup
  split_ifs
  · exact touches_unlink S j os m.shmName
  · exact Touches.refl S j os

def Connected (S : Set ℕ) (m : Manager) (os : Shm) : Prop :=
  ∃ seg ∈ S, m.shmHeader = some seg ∧ (os.segs seg).coordinatorNode = m.localNodeId

/-- Opening a segment touches that segment only, and connects the manager when it succeeds. -/
lemma initialize_open (m : Manager) (io : InitIo) (os : Shm) (hS : ∀ seg, os.names m.shmName = some seg → seg ∈ S) :
    Touches S m.localNodeId os (m.initializeRegion false io os).2.2 ∧
    (m.initializeRegion false io os).2.1.localNodeId = m.localNodeId ∧ ((m.initializeRegion false io os).1 = true →
      Connected S (m.initializeRegion false io os).2.1 (m.initializeRegion false io os).2.2) := by
  unfold Manager.initializeRegion
  cases hname : os.names m.shmName with
  | none => simpa using Touches.refl S m.localNodeId os
  | some seg =>
    have hseg : seg ∈ S := hS seg hname
    simp only [Bool.false_eq_true, if_false]
    split_ifs
    · exact ⟨Touches.refl _ _ _, rfl, by simp⟩
    · exact ⟨Touches.refl _ _ _, rfl, by simp⟩
    · refine ⟨touches_store hseg rfl, rfl, fun _ => ⟨seg, hseg, rfl, ?_⟩⟩
      simp [Manager.formatSegment, Shm.store, Region.fresh]

/-- a connected manager registers and sends within its segment and stays connected -/
lemma registerNode_touches (h : Connected S m os) (hj : m.localNodeId = j) (info : NodeInfo) (now : UInt64) :
    Touches S j os (m.registerNode info now os).2 ∧ Connected S m (m.registerNode info now os).2 := by
  subst hj
  obtain ⟨seg, hseg, hheader, hcoord⟩ := h
  unfold Manager.registerNode
  rw [hheader]
  refine ⟨touches_store hseg (by simpa using hcoord), seg, hseg, hheader, ?_⟩
  simpa [Shm.store] using hcoord

lemma sendMessage_touches (h : Connected S m os)
    (hj : m.localNodeId = j) (dst : UInt32) (msg : Message) : Touches S j os (m.sendMessage dst msg os).2 := by
  subst hj
  obtain ⟨seg, hseg, hheader, hcoord⟩ := h
  unfold Manager.sendMessage
  rw [hheader]
  exact touches_store hseg (by simpa using hcoord)

def Named (os : Shm) (names : List String) : Set ℕ := {seg | ∃ name ∈ names, os.names name = some seg}

lemma initialize_touches (hid : s.nodeId ≠ 0) (io : StartIo) (os : Shm) {names : List String}
    (hname : s.shmName ∈ names) : Touches (Named os names) s.nodeId os (s.initializeNode io os).2.2 ∧
    (s.initializeNode io os).2.1.nodeId = s.nodeId := by
  unfold Server.initializeNode
  split_ifs
  · exact ⟨Touches.refl _ _ _, rfl⟩
  · obtain ⟨htouch, hlocal, hconn⟩ := initialize_open { shmName := s.shmName, localNodeId := s.nodeId } io.calls os
      (fun seg hseg => (⟨s.shmName, hname, hseg⟩ : seg ∈ Named os names))
    simp only [hid, decide_false] at htouch hlocal hconn ⊢
    generalize Manager.initializeRegion { shmName := s.shmName, localNodeId := s.nodeId } false io.calls os = res
      at htouch hlocal hconn ⊢
    obtain ⟨ok, m, os'⟩ := res
    cases ok with
    | false => exact ⟨htouch, rfl⟩
    | true =>
      have hreg := registerNode_touches (hconn rfl) hlocal { s with msgManager := some m }.info io.now
      exact ⟨htouch.trans hreg.1, rfl⟩

lemma joinCluster_touches (s : Server) {coordinatorShm : String} (io : StartIo) (os : Shm)
    (hS : ∀ seg, os.names coordinatorShm = some seg → seg ∈ S) :
    Touches S s.nodeId os (s.joinCluster coordinatorShm io os).2.2 := by
  have hclean : Touches S s.nodeId os (match s.msgManager with | none => os | some old => old.cleanup os) := by
    cases s.msgManager with
    | none => exact Touches.refl _ _ _
    | some old => exact touches_cleanup _ _ _ old
  unfold Server.joinCluster
  generalize (match s.msgManager with | none => os | some old => old.cleanup os) = os₁ at hclean ⊢
  obtain ⟨htouch, hlocal, hconn⟩ := initialize_open { shmName := coordinatorShm, localNodeId := s.nodeId } io.calls os₁
    (fun seg hseg => hS seg (hclean.names _ _ hseg))
  simp only at htouch hlocal hconn ⊢
  generalize Manager.initializeRegion { shmName := coordinatorShm, localNodeId := s.nodeId } false io.calls os₁ = res
    at htouch hlocal hconn ⊢
  obtain ⟨ok, m, os₂⟩ := res
  cases ok with
  | false => exact hclean.trans htouch
  | true =>
    obtain ⟨hreg, hconn'⟩ := registerNode_touches (hconn rfl) hlocal { s with msgManager := some m }.info io.now
    simp only [Bool.not_true, Bool.false_eq_true, if_false]
    split_ifs
    · exact (hclean.trans htouch).trans hreg
    · have hcounted : Connected S { m with nextMsgId := m.nextMsgId + 1 } _ := hconn'
      have hsend := sendMessage_touches hcounted hlocal 0
        (Server.registerMessage { s with msgManager := some m } m.nextMsgId io.now)
      exact ((hclean.trans htouch).trans hreg).trans hsend

/-- a whole start-up touches no segment but those of its two names -/
lemma startUp_touches (hid : s.nodeId ≠ 0) (coordinatorShm : Option String) (first second : StartIo) (os : Shm) :
    Touches (Named os (s.shmName :: coordinatorShm.toList)) s.nodeId os
      (startUp s coordinatorShm first second os).2.2 := by
  have hname : s.shmName ∈ s.shmName :: coordinatorShm.toList := List.mem_cons_self
  obtain ⟨htouch, hnode⟩ := initialize_touches hid first os hname
  unfold startUp
  generalize s.initializeNode first os = res at htouch hnode ⊢
  obtain ⟨ok, s', os'⟩ := res
  cases ok with
  | false => exact htouch
  | true =>
    cases coordinatorShm with
    | none => exact htouch
    | some name =>
      have hopens : ∀ seg, os'.names name = some seg → seg ∈ Named os [s.shmName, name] :=
        fun seg hseg => ⟨name, by simp, htouch.names _ _ hseg⟩
      have hjoin := joinCluster_touches s' second os' hopens
      rw [show s'.nodeId = s.nodeId from hnode] at hjoin
      exact htouch.trans hjoin

/-! ## Results -/

/-- A node that joins loses nothing when the segments it can open are vacant. -/
theorem start_up_preserves (s : Server) (coordinatorShm : Option String) (first second : StartIo) (os : Shm)
    (hid : s.nodeId ≠ 0)
    (hvacant : ∀ seg ∈ Named os (s.shmName :: coordinatorShm.toList), Vacant s.nodeId (os.segs seg)) (seg : ℕ) :
    Preserved (os.segs seg) ((startUp s coordinatorShm first second os).2.2.segs seg) := by
  rcases (startUp_touches hid coordinatorShm first second os).segs seg with heq | ⟨hS, hcoord⟩
  · rw [heq]
    exact Preserved.refl _
  · exact Preserved.of_vacant (hvacant seg hS) hcoord

def vacantShm : Shm where
  names := fun name => if name = "cluster" then some 0 else none
  segs := fun _ => Region.fresh 1
  next := 1

def goodStart (now : UInt64) : StartIo := ⟨true, ⟨true, true, true⟩, now⟩

def nodeOne : Server where
  nodeId := 1
  shmName := "cluster"
  memoryBase := 0x10000000
  memorySize := 0x10000000
  tcpPort := 9999

theorem start_up_preserves_vacant : (startUp nodeOne none (goodStart 7) (goodStart 8) vacantShm).1 = true ∧
    Preserved (vacantShm.segs 0) ((startUp nodeOne none (goodStart 7) (goodStart 8) vacantShm).2.2.segs 0) :=
  ⟨by decide, start_up_preserves nodeOne none (goodStart 7) (goodStart 8) vacantShm (by decide)
    (fun _ _ => ⟨fun n => isNodeActive_fresh 1 n, rfl, fun _ _ => queued_fresh⟩) 0⟩

def nodeZero : Server where
  nodeId := 0
  shmName := "cluster"
  memoryBase := 0
  memorySize := 0x10000000
  tcpPort := 9999

def noShm : Shm := ⟨fun _ => none, fun _ => Region.fresh 0, 0⟩

/-- a running cluster: node 0 has created the segment and has a message to node 2 under way -/
def runningShm : Shm :=
  let os := (startUp nodeZero none (goodStart 5) (goodStart 6) noShm).2.2
  os.store 0 (enqueueMessage (os.segs 0) 0 2 { header := { msgType := .nodeHeartbeat, msgId := 1, dstNodeId := 2 } }).2

/-- node 1 joins: node 0 is no longer registered, and the queue from 0 to 2 is empty -/
theorem join_wipes : isNodeActive (runningShm.segs 0) 0 = true ∧ (runningShm.segs 0).coordinatorNode = 0 ∧
    ((runningShm.segs 0).queues 2).queued.length = 1 ∧
    (startUp nodeOne none (goodStart 7) (goodStart 8) runningShm).1 = true ∧
    isNodeActive ((startUp nodeOne none (goodStart 7) (goodStart 8) runningShm).2.2.segs 0) 0 = false ∧
    ((startUp nodeOne none (goodStart 7) (goodStart 8) runningShm).2.2.segs 0).coordinatorNode = 1 ∧
    (((startUp nodeOne none (goodStart 7) (goodStart 8) runningShm).2.2.segs 0).queues 2).queued = [] ∧
    ¬ Preserved (runningShm.segs 0) ((startUp nodeOne none (goodStart 7) (goodStart 8) runningShm).2.2.segs 0) := by
  refine ⟨by decide, by decide, by decide, by decide, by decide, by decide, by decide, fun h => ?_⟩
  have hactive := h.active 0 (by decide)
  revert hactive
  decide

section

variable (hid : s.nodeId ≠ 0) (hseg : os.names s.shmName = some seg)
include hid hseg

lemma initialize_ok
    (hok : (s.initializeNode io os).1 = true) : (registerNode (Region.fresh s.nodeId) s.info io.now).1 = true ∧
    (s.initializeNode io os).2.2.segs seg = (registerNode (Region.fresh s.nodeId) s.info io.now).2 := by
  revert hok
  unfold Server.initializeNode Manager.initializeRegion
  cases io.localReady <;> cases io.calls.opened <;> cases io.calls.mapped <;>
    simp [hid, hseg, Manager.formatSegment, Manager.registerNode, Shm.store, Server.info]

/-- The condition is exact for `initialize`. When an unregistered node joins, only a vacant segment survives. -/
theorem preserved_iff_vacant (hnew : isNodeActive (os.segs seg) s.nodeId = false)
    (hok : (s.initializeNode io os).1 = true) :
    Preserved (os.segs seg) ((s.initializeNode io os).2.2.segs seg) ↔ Vacant s.nodeId (os.segs seg) := by
  obtain ⟨hreg, heq⟩ := initialize_ok hid hseg hok
  rw [heq]
  constructor
  · intro h
    refine ⟨fun n => ?_, h.coordinator.symm.trans (by simp [Region.fresh]), fun i hi => ?_⟩
    · by_contra hn
      have hstill := h.active n (by simpa using hn)
      rw [isNodeActive_registerNode hreg n, isNodeActive_fresh, Bool.or_false, decide_eq_true_eq] at hstill
      rw [hstill] at hn
      exact hn hnew
    · simpa [Region.fresh] using h.queued i hi
  · exact fun h => Preserved.of_vacant h (by simp [Region.fresh])

end

theorem preserved_iff_vacant_running : (nodeOne.initializeNode (goodStart 7) runningShm).1 = true ∧
    (Preserved (runningShm.segs 0) ((nodeOne.initializeNode (goodStart 7) runningShm).2.2.segs 0) ↔
      Vacant 1 (runningShm.segs 0)) :=
  ⟨by decide, preserved_iff_vacant (s := nodeOne) (by decide) rfl (by decide) (by decide)⟩

end CxlMemSim.Dist
