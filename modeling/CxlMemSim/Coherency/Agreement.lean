/-
`MHSLDDevice` and `CoherencyEngine` run one protocol, though written apart: `SameEntry` relates their entries, and every
access keeps it.
-/
import CxlMemSim.Coherency.Directory
import CxlMemSim.Coherency.Mhsld

namespace CxlMemSim.Coherency

open CxlMemSim.Core

structure SameEntry (i : MHSLDCachelineInfo) (e : DirectoryEntry) : Prop where
  state : i.ownerState = e.state
  owner : i.ownerHead = e.ownerNode
  sharers : i.sharers = e.sharerNodes
  version : i.version = e.version
  dirty : i.hasDirtyData = e.hasDirtyData

/-- every line has an entry in both directories or in none, and the two entries agree -/
def Agree (d : MHSLDDevice) (c : CoherencyEngine) : Prop :=
  ∀ line, Option.Rel SameEntry (d.directory line) (c.directory line)

inductive AccessKind where
  | read
  | write
  | atomic
deriving DecidableEq, Repr

structure Access where
  kind : AccessKind
  head : UInt32
  addr : UInt64
  timestamp : UInt64
deriving DecidableEq, Repr

def Access.request (a : Access) : CoherencyRequest := ⟨a.addr, a.head, a.head, a.timestamp⟩

def Access.op (a : Access) : Op :=
  match a.kind with
  | .read => .processRead a.request
  | .write => .processWrite a.request
  | .atomic => .processAtomic a.request

def deviceStep (d : MHSLDDevice) (a : Access) : MHSLDDevice :=
  match a.kind with
  | .read => readWithCoherency d a.head a.addr a.timestamp
  | .write => writeWithCoherency d a.head a.addr a.timestamp
  | .atomic => atomicWithCoherency d a.head a.addr a.timestamp

lemma SameEntry.ownerHits {i : MHSLDCachelineInfo} {e : DirectoryEntry} (h : SameEntry i e) (n : UInt32) :
    ownerHits i n = ownerReads e n := by
  simp only [Coherency.ownerHits, ownerReads, h.owner, h.state]

variable {w : LineWork} {v : Work} {d : MHSLDDevice} {c : CoherencyEngine} {addr : UInt64}

section

variable (h : SameEntry w.info v.entry) (hwf : WellFormed v.entry) (l : UInt32) (req : CoherencyRequest)
include h hwf

lemma acquireSharedLine_same (hhit : ¬ ownerReads v.entry req.requestingNode = true) :
    SameEntry (acquireSharedLine w req.requestingNode).info (acquireShared l v req).1.entry := by
  have hjoin : insert req.requestingNode w.info.sharers = insert req.requestingNode v.entry.sharerNodes := by
    rw [h.sharers]
  unfold acquireSharedLine acquireShared
  rw [h.state]
  cases hst : v.entry.state <;> dsimp only
  case invalid => exact ⟨rfl, rfl, hjoin, h.version, h.dirty⟩
  case shared => exact ⟨h.state, h.owner, hjoin, h.version, h.dirty⟩
  case exclusive => exact absurd hst hwf.not_exclusive
  case modified =>
    -- both move to OWNED; the engine's own-hit branch is behind the check before the switch
    have hne : ¬ v.entry.ownerNode = req.requestingNode := by simpa [ownerReads, hst] using hhit
    rw [if_neg hne]
    constructor <;>
      simp [LineWork.countMessage, LineWork.addSharer, LineWork.countDowngrade, LineWork.setState, Work.addSharer,
        Work.setState, h.owner, h.sharers, h.version, h.dirty]
  case owned =>
    have hne : ¬ v.entry.ownerNode = req.requestingNode := by simpa [ownerReads, hst] using hhit
    rw [if_neg hne]
    exact ⟨h.state, h.owner, hjoin, h.version, h.dirty⟩

lemma readLine_same : SameEntry (readLine w req.requestingNode req.timestamp).info (readEntry l v req).1.entry := by
  have hw : SameEntry ((w.touch req.timestamp).countRead req.requestingNode).info
      { v.entry with lastAccessTime := req.timestamp } := ⟨h.state, h.owner, h.sharers, h.version, h.dirty⟩
  have hv : WellFormed { v.entry with lastAccessTime := req.timestamp } := hwf.congr rfl rfl rfl rfl
  unfold readLine readEntry
  dsimp only
  rw [hw.ownerHits, hw.sharers]
  split_ifs with hown hsh
  · exact hw
  · exact hw
  · exact acquireSharedLine_same (v := { v with entry := { v.entry with lastAccessTime := req.timestamp } }) hw hv l
      req hown

end

lemma acquireExclusiveLine_version (w : LineWork) (n : UInt32) :
    (acquireExclusiveLine w n).info.version = w.info.version := by
  have hsnoop : (snoopOwner w n).info.version = w.info.version := by
    unfold snoopOwner
    dsimp only
    split_ifs <;> rfl
  unfold acquireExclusiveLine
  cases w.info.ownerState with
  | invalid | shared => rfl
  | _ => exact hsnoop

lemma writeLine_same (h : SameEntry w.info v.entry) (l : UInt32) (req : CoherencyRequest) :
    SameEntry (writeLine w req.requestingNode req.timestamp).info (writeEntry l v req).1.entry := by
  have hver : w.info.version + 1 = v.entry.version + 1 := congrArg (· + 1) h.version
  unfold writeLine writeEntry
  simp only [LineWork.touch, LineWork.countWrite, h.owner, h.state]
  split_ifs with hhit howned
  · exact ⟨rfl, rfl, h.sharers, hver, rfl⟩
  · exact ⟨rfl, rfl, rfl, hver, rfl⟩
  · -- whatever the switch sent, the requester ends as the only owner
    refine ⟨rfl, rfl, rfl, ?_, rfl⟩
    exact ((acquireExclusiveLine_version _ _).trans hver).trans (acquireExclusive_version l
      { v with entry := { v.entry with lastAccessTime := req.timestamp, version := v.entry.version + 1 } } req).symm

lemma openLine_same (h : Agree d c) (addr : UInt64) : SameEntry (openLine d addr).info (openEntry c addr).entry := by
  have hl := h (lineOf addr)
  unfold openLine openEntry
  cases hd : d.directory (lineOf addr) <;> cases hc : c.directory (lineOf addr) <;> rw [hd, hc] at hl
  · exact ⟨rfl, rfl, rfl, rfl, rfl⟩
  · cases hl
  · cases hl
  · cases hl with
    | some hs => exact hs

lemma Agree.close (h : Agree d c) (hs : SameEntry w.info v.entry) : Agree (closeLine d addr w)
    (closeEntry c addr v) := by
  intro line
  by_cases hl : line = lineOf addr
  · subst hl
    rw [closeLine_self, closeEntry_self]
    exact .some hs
  · rw [closeLine_other d w hl, closeEntry_other c v hl]
    exact h line

/-- An access of a connected head keeps the two directories in agreement. -/
lemma Agree.step (h : Agree d c) (hwf : DirectoryInv c) (a : Access)
    (hserve : serves d a.head = true) : Agree (deviceStep d a) (next c a.op) := by
  have hopen := openLine_same h a.addr
  have hentry := openEntry_wellFormed hwf a.addr
  obtain ⟨kind, head, addr, timestamp⟩ := a
  cases kind with
  | read =>
    simp only [deviceStep, readWithCoherency, hserve, if_true]
    exact h.close (readLine_same hopen hentry c.localNodeId ⟨addr, head, head, timestamp⟩)
  | write =>
    simp only [deviceStep, writeWithCoherency, hserve, if_true]
    exact h.close (writeLine_same hopen c.localNodeId ⟨addr, head, head, timestamp⟩)
  | atomic =>
    simp only [deviceStep, atomicWithCoherency, writeWithCoherency, hserve, if_true]
    exact h.close (writeLine_same hopen c.localNodeId ⟨addr, head, head, timestamp⟩)

lemma closeLine_serves (hw : KeepsActive (openLine d addr) w)
    (head : UInt32) : serves (closeLine d addr w) head = serves d head :=
  congrArg (decide (head < maxHeads) && ·) (hw head)

lemma deviceStep_serves (d : MHSLDDevice) (a : Access) (head : UInt32) :
    serves (deviceStep d a) head = serves d head := by
  have hwrite : ∀ h addr t, serves (writeWithCoherency d h addr t) head = serves d head := by
    intro h addr t
    unfold writeWithCoherency
    split_ifs
    · exact closeLine_serves (writeLine_active _ h t) head
    · rfl
  obtain ⟨kind, h, addr, t⟩ := a
  cases kind with
  | read =>
    simp only [deviceStep, readWithCoherency]
    split_ifs
    · exact closeLine_serves (readLine_active _ h t) head
    · rfl
  | write | atomic => exact hwrite h addr t

lemma ne_noNode_of_serves {head : UInt32} (h : serves d head = true) : head ≠ noNode := by
  rintro rfl
  simp [serves, maxHeads, noNode] at h

lemma access_node (a : Access) : a.op.node = a.head := by
  obtain ⟨kind, head, addr, t⟩ := a
  cases kind <;> rfl

lemma run_agree (h : Agree d c) (hwf : DirectoryInv c) (as : List Access)
    (hserve : ∀ a ∈ as, serves d a.head = true) : Agree (run deviceStep d as) (run next c (as.map Access.op)) := by
  induction as generalizing d c with
  | nil => exact h
  | cons a as ih =>
    have ha : serves d a.head = true := hserve a List.mem_cons_self
    have hnode : a.op.node ≠ noNode := access_node a ▸ ne_noNode_of_serves ha
    rw [List.map_cons, run_cons, run_cons]
    refine ih (h.step hwf a ha) (hwf.next a.op hnode) fun a' ha' => ?_
    rw [deviceStep_serves]
    exact hserve a' (List.mem_cons_of_mem a ha')

/-- After every sequence of reads, writes and atomics by connected heads the two directories agree. -/
theorem directories_agree (d : MHSLDDevice) (c : CoherencyEngine) (hd : ∀ line, d.directory line = none)
    (hc : ∀ line, c.directory line = none) (as : List Access)
    (hactive : ∀ a ∈ as, a.head < maxHeads ∧ (d.heads a.head).active = true) :
    Agree (run deviceStep d as) (run next c (as.map Access.op)) := by
  refine run_agree (fun line => ?_) (fun line e he => ?_) as fun a ha => ?_
  · rw [hd line, hc line]
    exact .none
  · rw [hc line] at he
    cases he
  · simp [serves, hactive a ha]

theorem directories_agree_two_heads :
    let d := (activateHead (activateHead newDevice 1 0).1 2 0).1
    let as := [⟨.read, 1, 0, 1⟩, ⟨.read, 2, 8, 2⟩, ⟨.write, 1, 0, 3⟩, ⟨.read, 2, 0, 4⟩]
    Agree (run deviceStep d as) (run next (newEngine 7) (as.map Access.op)) ∧
      ((run deviceStep d as).directory 0).map (fun i => (i.ownerState, i.ownerHead, i.sharers)) =
        some (.owned, 1, {2}) := by
  intro d as
  exact ⟨directories_agree d (newEngine 7) (fun _ => rfl) (fun _ => rfl) as (by decide), by decide⟩

end CxlMemSim.Coherency
