/-
The multi-headed device (`MHSLDDevice`): up to 16 host ports ("heads") share one memory, with a directory entry per
64-byte line.

Model: a read, write or atomic is one step, as the entry's lock is held throughout. Latencies are dropped, and with them
the shares of bandwidth and `coherency_stalls`, which nothing else reads.
-/
import CxlMemSim.Coherency.Engine

namespace CxlMemSim.Coherency

open Function

/-! ## Device state -/

def maxHeads : UInt32 := 16

structure MHSLDCachelineInfo where
  address : UInt64
  sharers : Finset UInt32
  ownerHead : UInt32
  ownerState : MHSLDCacheState
  version : UInt32
  lastAccessTime : UInt64
  accessCount : UInt64
  hasDirtyData : Bool
deriving DecidableEq

def newCachelineInfo (line : UInt64) : MHSLDCachelineInfo := ⟨line, ∅, noNode, .invalid, 0, 0, 0, false⟩

structure MHSLDHeadState where
  allocatedCapacity : UInt64
  usedCapacity : UInt64
  totalReads : UInt64
  totalWrites : UInt64
  backInvalidations : UInt64
  active : Bool
deriving DecidableEq, Repr

structure MHSLDStats where
  totalCoherencyMessages : UInt64
  totalInvalidations : UInt64
  totalDowngrades : UInt64
  totalWritebacks : UInt64
deriving DecidableEq, Repr

structure MHSLDDevice where
  heads : UInt32 → MHSLDHeadState
  directory : UInt64 → Option MHSLDCachelineInfo
  stats : MHSLDStats

def newDevice : MHSLDDevice := ⟨fun _ => ⟨0, 0, 0, 0, 0, false⟩, fun _ => none, ⟨0, 0, 0, 0⟩⟩

def updateHead (heads : UInt32 → MHSLDHeadState) (head : UInt32) (f : MHSLDHeadState → MHSLDHeadState) :
    UInt32 → MHSLDHeadState :=
  update heads head (f (heads head))

def activateHead (d : MHSLDDevice) (head : UInt32) (capacityAlloc : UInt64) : MHSLDDevice × Bool :=
  if maxHeads ≤ head then (d, false)
  else
    let connect := fun st : MHSLDHeadState =>
      { st with active := true, allocatedCapacity := capacityAlloc, usedCapacity := 0 }
    ({ d with heads := updateHead d.heads head connect }, true)

/-! ## One line under its lock -/

structure LineWork where
  info : MHSLDCachelineInfo
  heads : UInt32 → MHSLDHeadState
  stats : MHSLDStats

namespace LineWork

variable (w : LineWork) (head : UInt32)

def countMessage : LineWork :=
  { w with stats := { w.stats with totalCoherencyMessages := w.stats.totalCoherencyMessages + 1 } }

def countDowngrade : LineWork :=
  { w with stats := { w.stats with totalDowngrades := w.stats.totalDowngrades + 1 } }

def countWriteback : LineWork :=
  { w with stats := { w.stats with totalWritebacks := w.stats.totalWritebacks + 1 } }

def countBackInvalidation : LineWork :=
  { w with heads := updateHead w.heads head fun st => { st with backInvalidations := st.backInvalidations + 1 } }

def countRead : LineWork :=
  { w with heads := updateHead w.heads head fun st => { st with totalReads := st.totalReads + 1 } }

def countWrite : LineWork :=
  { w with heads := updateHead w.heads head fun st => { st with totalWrites := st.totalWrites + 1 } }

def touch (timestamp : UInt64) : LineWork :=
  { w with info := { w.info with accessCount := w.info.accessCount + 1, lastAccessTime := timestamp } }

def addSharer : LineWork :=
  { w with info := { w.info with sharers := insert head w.info.sharers } }

def setState (s : MHSLDCacheState) : LineWork := { w with info := { w.info with ownerState := s } }

def setOwner : LineWork := { w with info := { w.info with ownerHead := head } }

def setDirty : LineWork := { w with info := { w.info with hasDirtyData := true } }

def invalidateSharers (exceptHead : UInt32) : LineWork :=
  let toInvalidate := w.info.sharers.filter fun s => s ≠ exceptHead ∧ (w.heads s).active
  { info := { w.info with sharers := ∅ }
    heads := fun h =>
      if h ∈ toInvalidate then { w.heads h with backInvalidations := (w.heads h).backInvalidations + 1 }
      else w.heads h
    stats := { w.stats with
      totalInvalidations := w.stats.totalInvalidations + UInt64.ofNat toInvalidate.card
      totalCoherencyMessages := w.stats.totalCoherencyMessages + UInt64.ofNat toInvalidate.card } }

end LineWork

def ownerHits (info : MHSLDCachelineInfo) (head : UInt32) : Bool :=
  info.ownerHead = head &&
    (info.ownerState = .exclusive || info.ownerState = .modified || info.ownerState = .owned)

variable (w : LineWork) (head : UInt32) (timestamp : UInt64)

def acquireSharedLine : LineWork :=
  match w.info.ownerState with
  | .invalid => ((w.addSharer head).setState .shared).setOwner head
  | .shared => w.addSharer head
  | .exclusive => (((w.addSharer w.info.ownerHead).setState .shared).addSharer head).countMessage
  | .modified => (((w.setState .owned).countDowngrade).addSharer head).countMessage
  | .owned => (w.addSharer head).countMessage

def readLine : LineWork :=
  let w := (w.touch timestamp).countRead head
  if ownerHits w.info head then w
  else if head ∈ w.info.sharers then w
  else acquireSharedLine w head

def snoopOwner : LineWork :=
  if w.info.ownerHead ≠ head then
    let w := if w.info.ownerState = .modified ∨ w.info.ownerState = .owned then w.countWriteback else w
    (w.countBackInvalidation w.info.ownerHead).countMessage
  else w

def acquireExclusiveLine : LineWork :=
  match w.info.ownerState with
  | .invalid => w
  | .shared => w.invalidateSharers head
  | .exclusive | .modified | .owned => (snoopOwner w head).invalidateSharers head

def writeLine : LineWork :=
  let w := w.touch timestamp
  let w := { w with info := { w.info with version := w.info.version + 1 } }
  let w := w.countWrite head
  if w.info.ownerHead = head ∧ (w.info.ownerState = .exclusive ∨ w.info.ownerState = .modified) then
    (w.setState .modified).setDirty
  else if w.info.ownerHead = head ∧ w.info.ownerState = .owned then
    ((w.invalidateSharers head).setState .modified).setDirty
  else
    let w := acquireExclusiveLine w head
    { w with info := { w.info with ownerHead := head, ownerState := .modified, sharers := ∅, hasDirtyData := true } }

/-! ## The device -/

variable (d : MHSLDDevice) (head : UInt32) (addr : UInt64) (timestamp : UInt64)

def openLine : LineWork := ⟨(d.directory (lineOf addr)).getD (newCachelineInfo (lineOf addr)), d.heads, d.stats⟩

def closeLine (w : LineWork) : MHSLDDevice :=
  { d with directory := update d.directory (lineOf addr) (some w.info), heads := w.heads, stats := w.stats }

def serves : Bool := head < maxHeads && (d.heads head).active

def readWithCoherency : MHSLDDevice :=
  if serves d head then closeLine d addr (readLine (openLine d addr) head timestamp) else d

def writeWithCoherency : MHSLDDevice :=
  if serves d head then closeLine d addr (writeLine (openLine d addr) head timestamp) else d

def atomicWithCoherency : MHSLDDevice := writeWithCoherency d head addr timestamp

/-! ## Frame facts -/

@[simp] lemma closeLine_self (w : LineWork) : (closeLine d addr w).directory (lineOf addr) = some w.info := by
  simp [closeLine]

lemma closeLine_other {addr line : UInt64} (w : LineWork) (h : line ≠ lineOf addr) :
    (closeLine d addr w).directory line = d.directory line := by
  simp [closeLine, update_of_ne h]

def KeepsActive (w w' : LineWork) : Prop := ∀ h, (w'.heads h).active = (w.heads h).active

lemma KeepsActive.trans {w w' w'' : LineWork} (h : KeepsActive w w') (h' : KeepsActive w' w'') :
    KeepsActive w w'' := fun x => (h' x).trans (h x)

lemma updateHead_active {heads : UInt32 → MHSLDHeadState} {f : MHSLDHeadState → MHSLDHeadState}
    (hf : ∀ st, (f st).active = st.active) (head x : UInt32) :
    (updateHead heads head f x).active = (heads x).active := by
  unfold updateHead
  by_cases hx : x = head
  · subst hx
    rw [update_self, hf]
  · rw [update_of_ne hx]

lemma keepsActive_countRead : KeepsActive w (w.countRead head) :=
  fun x => updateHead_active (f := fun st => { st with totalReads := st.totalReads + 1 }) (fun _ => rfl) head x

lemma keepsActive_countWrite : KeepsActive w (w.countWrite head) :=
  fun x => updateHead_active (f := fun st => { st with totalWrites := st.totalWrites + 1 }) (fun _ => rfl) head x

lemma keepsActive_countBackInvalidation : KeepsActive w (w.countBackInvalidation head) :=
  fun x => updateHead_active (f := fun st => { st with backInvalidations := st.backInvalidations + 1 })
    (fun _ => rfl) head x

lemma keepsActive_invalidateSharers : KeepsActive w (w.invalidateSharers head) := by
  intro x
  simp only [LineWork.invalidateSharers]
  split_ifs <;> rfl

lemma keepsActive_snoopOwner : KeepsActive w (snoopOwner w head) := by
  unfold snoopOwner
  dsimp only
  split_ifs
  · exact keepsActive_countBackInvalidation w.countWriteback _
  · exact keepsActive_countBackInvalidation w _
  · exact fun _ => rfl

lemma readLine_active : KeepsActive w (readLine w head timestamp) := by
  have hcount : KeepsActive w ((w.touch timestamp).countRead head) := keepsActive_countRead (w.touch timestamp) head
  unfold readLine acquireSharedLine
  dsimp only
  split_ifs
  · exact hcount
  · exact hcount
  · split <;> exact hcount

lemma acquireExclusiveLine_active : KeepsActive w (acquireExclusiveLine w head) := by
  unfold acquireExclusiveLine
  cases w.info.ownerState with
  | invalid => exact fun _ => rfl
  | shared => exact keepsActive_invalidateSharers w head
  | _ => exact (keepsActive_snoopOwner w head).trans (keepsActive_invalidateSharers _ head)

lemma writeLine_active : KeepsActive w (writeLine w head timestamp) := by
  unfold writeLine
  dsimp only
  split_ifs
  · exact keepsActive_countWrite w head
  · exact (keepsActive_countWrite w head).trans (keepsActive_invalidateSharers _ head)
  · exact (keepsActive_countWrite w head).trans (acquireExclusiveLine_active _ head)

end CxlMemSim.Coherency
