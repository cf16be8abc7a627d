/-
The other operations of the multi-headed device: disconnecting heads, the memory pool, `invalidate_sharers`,
`downgrade_owner`, `writeback`. The walk of `release_pool` never ends for a range that ends in the last line of the
address space: `none`. `indices` lists the subscripts of the head table a call uses, loops over the whole table apart.
-/
import CxlMemSim.Core.Lines
import CxlMemSim.Core.Range
import CxlMemSim.Core.Run
import CxlMemSim.Coherency.Mhsld

namespace CxlMemSim.Coherency.Heads

open Finset Function
open CxlMemSim.Core

/-! ## Operations -/

variable (d : MHSLDDevice)

def updateEntry (addr : UInt64) (f : MHSLDCachelineInfo → MHSLDCachelineInfo) : MHSLDDevice :=
  { d with directory := update d.directory (lineOf addr) ((d.directory (lineOf addr)).map f) }

def disconnectInfo (head : UInt32) (info : MHSLDCachelineInfo) : MHSLDCachelineInfo :=
  if info.ownerHead = head then
    { info with
      hasDirtyData := if info.ownerState = .modified then true else info.hasDirtyData
      ownerHead := noNode
      ownerState := .invalid
      sharers := info.sharers.erase head }
  else { info with sharers := info.sharers.erase head }

def deactivateHead (head : UInt32) : MHSLDDevice :=
  if maxHeads ≤ head then d
  else
    { d with
      heads := updateHead d.heads head fun st => { st with active := false }
      directory := fun line => (d.directory line).map (disconnectInfo head) }

def allocatePool (totalCapacity : UInt64) (d : MHSLDDevice) (head : UInt32) (size : UInt64) : UInt64 × MHSLDDevice :=
  if !serves d head then (0, d)
  else if (d.heads head).usedCapacity + size > (d.heads head).allocatedCapacity then (0, d)
  else
    let base := head.toUInt64 * (totalCapacity / maxHeads.toUInt64)
    (base + (d.heads head).usedCapacity,
      { d with heads := updateHead d.heads head fun st => { st with usedCapacity := st.usedCapacity + size } })

def releaseInfo (head : UInt32) (info : MHSLDCachelineInfo) : MHSLDCachelineInfo :=
  if info.ownerHead = head then
    { info with sharers := info.sharers.erase head, ownerHead := noNode, ownerState := .invalid }
  else { info with sharers := info.sharers.erase head }

def releasedLines (addr size : UInt64) : Option (List UInt64) := linesBelow (addr + size) lineTurns (lineOf addr)

def releasePool (head : UInt32) (addr size : UInt64) : Option MHSLDDevice :=
  if !serves d head then some d
  else
    match releasedLines addr size with
    | none => none
    | some lines =>
      let d := lines.foldl (fun d line => updateEntry d line (releaseInfo head)) d
      some { d with
        heads := updateHead d.heads head fun st =>
          if size ≤ st.usedCapacity then { st with usedCapacity := st.usedCapacity - size } else st }

def invalidateSharersAt (addr : UInt64) (exceptHead : UInt32) : MHSLDDevice :=
  match d.directory (lineOf addr) with
  | none => d
  | some info => closeLine d addr (LineWork.invalidateSharers ⟨info, d.heads, d.stats⟩ exceptHead)

def downgradeInfo (info : MHSLDCachelineInfo) : MHSLDCachelineInfo :=
  match info.ownerState with
  | .modified => { info with ownerState := .owned, hasDirtyData := true }
  | .exclusive =>
    { info with sharers := insert info.ownerHead info.sharers, ownerState := .shared, ownerHead := noNode }
  | _ => info

def downgradeOwner (addr : UInt64) (requestingHead : UInt32) : MHSLDDevice :=
  match d.directory (lineOf addr) with
  | none => d
  | some info =>
    if info.ownerHead = noNode ∨ info.ownerHead = requestingHead then d
    else
      { updateEntry d addr downgradeInfo with
        stats := { d.stats with
          totalDowngrades := d.stats.totalDowngrades + 1
          totalCoherencyMessages := d.stats.totalCoherencyMessages + 1 } }

def writebackInfo (head : UInt32) (info : MHSLDCachelineInfo) : MHSLDCachelineInfo :=
  { info with
    hasDirtyData := if info.ownerState = .modified ∨ info.ownerState = .owned then false else info.hasDirtyData
    ownerState := .invalid
    ownerHead := noNode
    sharers := info.sharers.erase head }

def writeback (addr : UInt64) (head : UInt32) : MHSLDDevice :=
  match d.directory (lineOf addr) with
  | none => d
  | some info =>
    if info.ownerHead ≠ head then d
    else
      { updateEntry d addr (writebackInfo head) with
        stats := { d.stats with totalWritebacks := d.stats.totalWritebacks + 1 } }

inductive HeadOp where
  | activateHead (head : UInt32) (capacityAlloc : UInt64)
  | deactivateHead (head : UInt32)
  | releasePool (head : UInt32) (addr size : UInt64)
  | read (head : UInt32) (addr timestamp : UInt64)
  | write (head : UInt32) (addr timestamp : UInt64)
  | atomic (head : UInt32) (addr timestamp : UInt64)
  | writeback (addr : UInt64) (head : UInt32)
deriving DecidableEq, Repr

def headCall : HeadOp → Option MHSLDDevice
  | .activateHead head cap => some (Coherency.activateHead d head cap).1
  | .deactivateHead head => some (Heads.deactivateHead d head)
  | .releasePool head addr size => Heads.releasePool d head addr size
  | .read head addr ts => some (readWithCoherency d head addr ts)
  | .write head addr ts => some (writeWithCoherency d head addr ts)
  | .atomic head addr ts => some (atomicWithCoherency d head addr ts)
  | .writeback addr head => some (Heads.writeback d addr head)

inductive DeviceOp where
  | head (o : HeadOp)
  | allocatePool (head : UInt32) (size : UInt64)
  | invalidateSharers (addr : UInt64) (exceptHead : UInt32)
  | downgradeOwner (addr : UInt64) (requestingHead : UInt32)
  | calculateContentionLatency (head : UInt32)
  | calculateFairShareBandwidth (head : UInt32)
  | getOrCreateEntry (addr : UInt64)
  -- the shares of the heads are not part of the model
  | rebalanceBandwidth
  | getStats
deriving DecidableEq, Repr

def deviceCall (totalCapacity : UInt64) (d : MHSLDDevice) : DeviceOp → Option MHSLDDevice
  | .head o => headCall d o
  | .allocatePool head size => some (Heads.allocatePool totalCapacity d head size).2
  | .invalidateSharers addr exceptHead => some (invalidateSharersAt d addr exceptHead)
  | .downgradeOwner addr requestingHead => some (Heads.downgradeOwner d addr requestingHead)
  | .calculateContentionLatency _ => some d
  | .calculateFairShareBandwidth _ | .rebalanceBandwidth | .getStats => some d
  | .getOrCreateEntry addr => some (closeLine d addr (openLine d addr))

def publicStep (totalCapacity : UInt64) (d : Option MHSLDDevice) (o : DeviceOp) : Option MHSLDDevice :=
  d.bind fun d => deviceCall totalCapacity d o

/-! ## Subscripts of the head table -/

def guardedIndex (head : UInt32) : Finset UInt32 := if head < maxHeads then {head} else ∅

def invalidateIndices (info : MHSLDCachelineInfo) (exceptHead : UInt32) : Finset UInt32 :=
  info.sharers.filter (· ≠ exceptHead)

def writeIndices (info : MHSLDCachelineInfo) (head : UInt32) : Finset UInt32 :=
  if info.ownerHead = head ∧ (info.ownerState = .exclusive ∨ info.ownerState = .modified) then ∅
  else if info.ownerHead = head ∧ info.ownerState = .owned then invalidateIndices info head
  else
    match info.ownerState with
    | .invalid => ∅
    | .shared => invalidateIndices info head
    | .exclusive | .modified | .owned =>
      (if info.ownerHead ≠ head then {info.ownerHead} else ∅) ∪ invalidateIndices info head

def writeCallIndices (head : UInt32) (addr : UInt64) : Finset UInt32 :=
  guardedIndex head ∪ if serves d head then writeIndices (openLine d addr).info head else ∅

def headIndices : HeadOp → Finset UInt32
  | .activateHead head _ | .deactivateHead head | .releasePool head _ _ | .read head _ _ => guardedIndex head
  | .write head addr _ | .atomic head addr _ => writeCallIndices d head addr
  | .writeback _ _ => ∅

def indices : DeviceOp → Finset UInt32
  | .head o => headIndices d o
  | .allocatePool head _ | .calculateContentionLatency head | .calculateFairShareBandwidth head => guardedIndex head
  | .invalidateSharers addr exceptHead =>
    match d.directory (lineOf addr) with
    | none => ∅
    | some info => invalidateIndices info exceptHead
  | .downgradeOwner _ _ | .getOrCreateEntry _ | .rebalanceBandwidth | .getStats => ∅

/-! ## Directory and head table after a call -/

lemma lineOf_toNat (addr : UInt64) : (lineOf addr).toNat = addr.toNat / 64 * 64 := by
  rw [lineOf, UInt64.toNat_and]
  exact Core.and_highMask (by norm_num : 6 ≤ 64) addr.toNat_lt

lemma lineOf_eq_self {line : UInt64} (h : line.toNat % 64 = 0) : lineOf line = line := by
  rw [← UInt64.toNat_inj, lineOf_toNat]
  omega

lemma releaseInfo_idem (head : UInt32) (info : MHSLDCachelineInfo) :
    releaseInfo head (releaseInfo head info) = releaseInfo head info := by
  unfold releaseInfo
  split_ifs <;> simp_all

lemma foldl_releaseInfo (head : UInt32) {lines : List UInt64} (hlines : ∀ l ∈ lines, l.toNat % 64 = 0)
    (d : MHSLDDevice) : lines.foldl (fun d line => updateEntry d line (releaseInfo head)) d =
      { d with directory := fun line =>
          if line ∈ lines then (d.directory line).map (releaseInfo head) else d.directory line } := by
  induction lines generalizing d with
  | nil => rfl
  | cons l lines ih =>
    rw [List.foldl_cons, ih (fun x hx => hlines x (List.mem_cons_of_mem l hx))]
    have hself := lineOf_eq_self (hlines l List.mem_cons_self)
    simp only [updateEntry, hself, MHSLDDevice.mk.injEq, and_true, true_and]
    funext line
    by_cases hl : line = l
    · subst hl
      simp only [update_self, List.mem_cons, true_or, if_true]
      split_ifs
      · rw [Option.map_map]
        exact congrFun (congrArg Option.map (funext (releaseInfo_idem head))) _
      · rfl
    · simp only [update_of_ne hl, List.mem_cons, hl, false_or]

variable {d d' : MHSLDDevice} {head x : UInt32} {w : LineWork} {o : DeviceOp} {i : UInt32}

variable {addr : UInt64}

lemma releasePool_some {size : UInt64} (hs : serves d head = true) (h : releasePool d head addr size = some d') :
    ∃ lines, releasedLines addr size = some lines ∧
      (∀ l, l ∈ lines ↔ l.toNat % 64 = 0 ∧ (lineOf addr).toNat ≤ l.toNat ∧ l.toNat < (addr + size).toNat) ∧
      d' = { d with
        directory := fun line => if line ∈ lines then (d.directory line).map (releaseInfo head) else d.directory line
        heads := updateHead d.heads head fun st =>
          if size ≤ st.usedCapacity then { st with usedCapacity := st.usedCapacity - size } else st } := by
  have hmod : (lineOf addr).toNat % 64 = 0 := by rw [lineOf_toNat]; exact Nat.mul_mod_left _ _
  unfold releasePool at h
  rw [hs, Bool.not_true, if_neg Bool.false_ne_true] at h
  by_cases hend : (addr + size).toNat ≤ 2 ^ 64 - 64
  · obtain ⟨lines, hrun, -, hmem⟩ := Core.linesBelow_lineTurns hmod hend
    have hrel : releasedLines addr size = some lines := hrun
    rw [hrel] at h
    dsimp only at h
    rw [foldl_releaseInfo head fun l hl => ((hmem l).1 hl).1] at h
    exact ⟨lines, hrel, hmem, (Option.some.inj h).symm⟩
  · have hnone : releasedLines addr size = none := Core.linesBelow_none hmod (by omega) _
    rw [hnone] at h
    cases h

lemma releasePool_refused (addr size : UInt64) (hs : serves d head = false) :
    releasePool d head addr size = some d := by
  unfold releasePool
  simp [hs]

lemma updateHead_of_ne (heads : UInt32 → MHSLDHeadState) (f : MHSLDHeadState → MHSLDHeadState)
    (h : x ≠ head) : updateHead heads head f x = heads x := update_of_ne h _ _

variable {exceptHead : UInt32}

section

variable (w : LineWork)

lemma countBackInvalidation_heads (hx : x ≠ head) : (w.countBackInvalidation head).heads x = w.heads x := by
  dsimp only [LineWork.countBackInvalidation]
  exact updateHead_of_ne w.heads _ hx

lemma snoopOwner_heads (head : UInt32)
    (hx : w.info.ownerHead ≠ head → x ≠ w.info.ownerHead) : (snoopOwner w head).heads x = w.heads x := by
  unfold snoopOwner
  dsimp only
  split_ifs with hne hst
  · exact countBackInvalidation_heads w.countWriteback (hx hne)
  · exact countBackInvalidation_heads w (hx hne)
  · rfl

lemma snoopOwner_sharers (head : UInt32) : (snoopOwner w head).info.sharers = w.info.sharers := by
  unfold snoopOwner
  dsimp only
  split_ifs <;> rfl

end

def enterWrite (w : LineWork) (head : UInt32) (ts : UInt64) : LineWork :=
  LineWork.countWrite
    { w.touch ts with info := { (w.touch ts).info with version := (w.touch ts).info.version + 1 } } head

lemma writeLine_eq (w : LineWork) (head : UInt32) (ts : UInt64) : writeLine w head ts =
      if w.info.ownerHead = head ∧ (w.info.ownerState = .exclusive ∨ w.info.ownerState = .modified) then
        ((enterWrite w head ts).setState .modified).setDirty
      else if w.info.ownerHead = head ∧ w.info.ownerState = .owned then
        (((enterWrite w head ts).invalidateSharers head).setState .modified).setDirty
      else
        { acquireExclusiveLine (enterWrite w head ts) head with
          info := { (acquireExclusiveLine (enterWrite w head ts) head).info with
            ownerHead := head, ownerState := .modified, sharers := ∅, hasDirtyData := true } } := rfl

variable {info : MHSLDCachelineInfo}

lemma serves_lt (h : serves d head = true) : head < maxHeads := by
  simp only [serves, Bool.and_eq_true, decide_eq_true_eq] at h
  exact h.1

lemma serves_active (h : serves d head = true) : (d.heads head).active = true := by
  simp only [serves, Bool.and_eq_true] at h
  exact h.2

variable {totalCapacity : UInt64}

/-! ## Stored ids -/

/-- the owner of a line in E, M or O is a head, and so is every sharer -/
structure InfoOk (info : MHSLDCachelineInfo) : Prop where
  owner : info.ownerState ≠ .invalid → info.ownerState ≠ .shared → info.ownerHead < maxHeads
  sharers : ∀ s ∈ info.sharers, s < maxHeads

lemma infoOk_new (line : UInt64) : InfoOk (newCachelineInfo line) :=
  ⟨fun h => absurd rfl h, fun _ hs => absurd hs (notMem_empty _)⟩

section

variable (h : InfoOk info)
include h

lemma InfoOk.of_erase {info' : MHSLDCachelineInfo}
    (howner : info'.ownerState ≠ .invalid → info'.ownerState = info.ownerState ∧ info'.ownerHead = info.ownerHead)
    (hsharers : info'.sharers = info.sharers.erase head) : InfoOk info' := by
  constructor
  · intro hi hs
    obtain ⟨hst, hown⟩ := howner hi
    rw [hst] at hi hs
    exact hown ▸ h.owner hi hs
  · intro s hmem
    rw [hsharers] at hmem
    exact h.sharers s (mem_of_mem_erase hmem)

lemma InfoOk.disconnect (head : UInt32) : InfoOk (disconnectInfo head info) := by
  unfold disconnectInfo
  by_cases hown : info.ownerHead = head
  · rw [if_pos hown]
    exact h.of_erase (fun hi => absurd rfl hi) rfl
  · rw [if_neg hown]
    exact h.of_erase (fun _ => ⟨rfl, rfl⟩) rfl

lemma InfoOk.release (head : UInt32) : InfoOk (releaseInfo head info) := by
  unfold releaseInfo
  split_ifs
  · exact h.of_erase (fun hi => absurd rfl hi) rfl
  · exact h.of_erase (fun _ => ⟨rfl, rfl⟩) rfl

lemma InfoOk.writeback (head : UInt32) : InfoOk (writebackInfo head info) := h.of_erase (fun hi => absurd rfl hi) rfl

lemma InfoOk.downgrade : InfoOk (downgradeInfo info) := by
  unfold downgradeInfo
  cases hst : info.ownerState <;> dsimp only
  case modified => exact ⟨fun _ _ => h.owner (by simp [hst]) (by simp [hst]), h.sharers⟩
  case exclusive =>
    refine ⟨fun _ hs => absurd rfl hs, fun s hs => ?_⟩
    rcases Finset.mem_insert.1 hs with rfl | hs
    · exact h.owner (by simp [hst]) (by simp [hst])
    · exact h.sharers s hs
  all_goals exact h

end

section

variable (h : InfoOk w.info) (hlt : head < maxHeads)
include h hlt

lemma InfoOk.addSharer : InfoOk (w.addSharer head).info := by
  refine ⟨h.owner, fun s hs => ?_⟩
  rcases Finset.mem_insert.1 hs with rfl | hs
  · exact hlt
  · exact h.sharers s hs

lemma InfoOk.read (ts : UInt64) : InfoOk (readLine w head ts).info := by
  have htouch : InfoOk ((w.touch ts).countRead head).info := ⟨h.owner, h.sharers⟩
  have hjoin := fun {v : LineWork} (hv : InfoOk v.info) => hv.addSharer hlt
  unfold readLine
  dsimp only
  split_ifs
  · exact htouch
  · exact htouch
  · unfold acquireSharedLine
    cases hst : ((w.touch ts).countRead head).info.ownerState <;> dsimp only
    case invalid => exact ⟨fun _ hs => absurd rfl hs, (hjoin htouch).sharers⟩
    case shared => exact hjoin htouch
    case exclusive =>
      -- the old owner joins the sharers
      have hown := htouch.owner (by rw [hst]; decide) (by rw [hst]; decide)
      have hold := htouch.addSharer hown
      exact hjoin (v := (((w.touch ts).countRead head).addSharer _).setState .shared)
        ⟨fun _ hs => absurd rfl hs, hold.sharers⟩
    case modified =>
      have hown := htouch.owner (by rw [hst]; decide) (by rw [hst]; decide)
      exact hjoin (v := (((w.touch ts).countRead head).setState .owned).countDowngrade)
        ⟨fun _ _ => hown, htouch.sharers⟩
    case owned => exact hjoin htouch

/-- The writer is the owner, and no sharer is left or only sharers of before. -/
lemma InfoOk.write (ts : UInt64) : InfoOk (writeLine w head ts).info := by
  rw [writeLine_eq]
  split_ifs with hhit howned
  · exact ⟨fun _ _ => hhit.1 ▸ hlt, h.sharers⟩
  · exact ⟨fun _ _ => howned.1 ▸ hlt, fun _ hs => absurd hs (notMem_empty _)⟩
  · exact ⟨fun _ _ => hlt, fun _ hs => absurd hs (notMem_empty _)⟩

end

/-! ## Runs -/

def DirOk (d : MHSLDDevice) : Prop := ∀ line info, d.directory line = some info → InfoOk info

lemma dirOk_new : DirOk newDevice := fun _ _ h => nomatch h

lemma DirOk.openLine (h : DirOk d) (addr : UInt64) : InfoOk (openLine d addr).info := by
  unfold Coherency.openLine
  cases hd : d.directory (lineOf addr) with
  | none => exact infoOk_new _
  | some info => exact h _ info hd

lemma DirOk.closeLine (h : DirOk d) (addr : UInt64) (hw : InfoOk w.info) : DirOk (closeLine d addr w) := by
  intro line info hinfo
  by_cases hl : line = lineOf addr
  · subst hl
    rw [closeLine_self] at hinfo
    exact Option.some.inj hinfo ▸ hw
  · rw [closeLine_other d w hl] at hinfo
    exact h line info hinfo

lemma DirOk.map (h : DirOk d) {f : MHSLDCachelineInfo → MHSLDCachelineInfo} (hf : ∀ info, InfoOk info → InfoOk (f info))
    (hd : ∀ line, d'.directory line = (d.directory line).map f ∨ d'.directory line = d.directory line) : DirOk d' := by
  intro line info hinfo
  rcases hd line with hl | hl
  · rw [hl] at hinfo
    obtain ⟨old, hold, rfl⟩ := Option.map_eq_some_iff.1 hinfo
    exact hf old (h line old hold)
  · rw [hl] at hinfo
    exact h line info hinfo

lemma updateEntry_directory (d : MHSLDDevice) (addr : UInt64) (f : MHSLDCachelineInfo → MHSLDCachelineInfo)
    (line : UInt64) : (updateEntry d addr f).directory line = (d.directory line).map f ∨
      (updateEntry d addr f).directory line = d.directory line := by
  by_cases hl : line = lineOf addr
  · subst hl
    exact Or.inl (update_self ..)
  · exact Or.inr (update_of_ne hl ..)

lemma DirOk.write (h : DirOk d) (head : UInt32) (addr ts : UInt64) : DirOk (writeWithCoherency d head addr ts) := by
  unfold writeWithCoherency
  split_ifs with hs
  · exact h.closeLine addr ((h.openLine addr).write (serves_lt hs) ts)
  · exact h

lemma DirOk.headCall (h : DirOk d) {o : HeadOp} (ho : headCall d o = some d') : DirOk d' := by
  cases o with
  | activateHead head cap =>
    obtain rfl := Option.some.inj ho
    unfold activateHead
    split_ifs <;> exact h
  | deactivateHead head =>
    obtain rfl := Option.some.inj ho
    unfold deactivateHead
    split_ifs
    · exact h
    · exact h.map (fun _ hi => hi.disconnect head) fun _ => Or.inl rfl
  | releasePool head addr size =>
    cases hs : serves d head with
    | false =>
      rw [Heads.headCall, releasePool_refused addr size hs] at ho
      exact Option.some.inj ho ▸ h
    | true =>
      obtain ⟨lines, -, -, rfl⟩ := releasePool_some hs ho
      refine h.map (fun _ hi => hi.release head) fun line => ?_
      by_cases hl : line ∈ lines
      · exact Or.inl (if_pos hl)
      · exact Or.inr (if_neg hl)
  | read head addr ts =>
    obtain rfl := Option.some.inj ho
    unfold readWithCoherency
    split_ifs with hs
    · exact h.closeLine addr ((h.openLine addr).read (serves_lt hs) ts)
    · exact h
  | write head addr ts | atomic head addr ts =>
    obtain rfl := Option.some.inj ho
    exact h.write head addr ts
  | writeback addr head =>
    obtain rfl := Option.some.inj ho
    unfold Heads.writeback
    split
    · exact h
    · split_ifs
      · exact h
      · exact h.map (fun _ hi => hi.writeback head) (updateEntry_directory d addr _)

lemma DirOk.deviceCall (h : DirOk d) (ho : deviceCall totalCapacity d o = some d') : DirOk d' := by
  cases o with
  | head o => exact h.headCall ho
  | allocatePool head size =>
    obtain rfl := Option.some.inj ho
    unfold allocatePool
    dsimp only
    split_ifs <;> exact h
  | invalidateSharers addr exceptHead =>
    obtain rfl := Option.some.inj ho
    unfold invalidateSharersAt
    cases hd : d.directory (lineOf addr) with
    | none => exact h
    | some info => refine h.closeLine addr ⟨(h _ info hd).owner, fun _ hs => absurd hs (notMem_empty _)⟩
  | downgradeOwner addr requestingHead =>
    obtain rfl := Option.some.inj ho
    unfold Heads.downgradeOwner
    split
    · exact h
    · split_ifs
      · exact h
      · exact h.map (fun _ hi => hi.downgrade) (updateEntry_directory d addr _)
  | getOrCreateEntry addr =>
    obtain rfl := Option.some.inj ho
    exact h.closeLine addr (h.openLine addr)
  | _ =>
    obtain rfl := Option.some.inj ho
    exact h

/-! ## Subscripts in bounds -/

lemma guardedIndex_lt (h : i ∈ guardedIndex head) : i < maxHeads := by
  unfold guardedIndex at h
  split_ifs at h with hlt
  · exact Finset.mem_singleton.1 h ▸ hlt
  · exact absurd h (notMem_empty i)

lemma InfoOk.invalidateIndices_lt (h : InfoOk info) (hi : i ∈ invalidateIndices info exceptHead) : i < maxHeads :=
  h.sharers i (Finset.mem_filter.1 hi).1

/-- the none marker is stored as owner only in states where it is not looked up -/
lemma InfoOk.writeIndices_lt (h : InfoOk info) (hi : i ∈ writeIndices info head) : i < maxHeads := by
  unfold writeIndices at hi
  by_cases hhit : info.ownerHead = head ∧ (info.ownerState = .exclusive ∨ info.ownerState = .modified)
  · rw [if_pos hhit] at hi
    exact absurd hi (notMem_empty i)
  rw [if_neg hhit] at hi
  by_cases howned : info.ownerHead = head ∧ info.ownerState = .owned
  · rw [if_pos howned] at hi
    exact h.invalidateIndices_lt hi
  rw [if_neg howned] at hi
  cases hst : info.ownerState <;> rw [hst] at hi <;> dsimp only at hi
  case invalid => exact absurd hi (notMem_empty i)
  case shared => exact h.invalidateIndices_lt hi
  all_goals
    rcases Finset.mem_union.1 hi with hown | hsh
    · split_ifs at hown
      · exact Finset.mem_singleton.1 hown ▸ h.owner (by simp [hst]) (by simp [hst])
      · exact absurd hown (notMem_empty i)
    · exact h.invalidateIndices_lt hsh

lemma DirOk.writeCallIndices_lt (h : DirOk d) (hi : i ∈ writeCallIndices d head addr) : i < maxHeads := by
  rcases Finset.mem_union.1 hi with hguard | hline
  · exact guardedIndex_lt hguard
  · split_ifs at hline
    · exact (h.openLine addr).writeIndices_lt hline
    · exact absurd hline (notMem_empty i)

lemma DirOk.indices_lt (h : DirOk d) (hi : i ∈ indices d o) : i < maxHeads := by
  cases o with
  | head o =>
    cases o with
    | write head addr ts | atomic head addr ts => exact h.writeCallIndices_lt hi
    | writeback addr head => exact absurd hi (notMem_empty i)
    | _ => exact guardedIndex_lt hi
  | invalidateSharers addr exceptHead =>
    simp only [indices] at hi
    cases hd : d.directory (lineOf addr) with
    | none => rw [hd] at hi; exact absurd hi (notMem_empty i)
    | some info => rw [hd] at hi; exact (h _ info hd).invalidateIndices_lt hi
  | downgradeOwner _ _ | getOrCreateEntry _ | rebalanceBandwidth | getStats => exact absurd hi (notMem_empty i)
  | _ => exact guardedIndex_lt hi

/-- every subscript the call uses is below `MAX_HEADS` -/
def InBounds (d : Option MHSLDDevice) (o : DeviceOp) : Prop := ∀ dev, d = some dev → ∀ i ∈ indices dev o, i < maxHeads

/-- In every run, with any arguments, every subscript of the head table is below `MAX_HEADS`. -/
theorem indices_in_bounds (totalCapacity : UInt64) (ops : List DeviceOp) :
    AllSteps (publicStep totalCapacity) InBounds (some newDevice) ops := by
  refine Core.allSteps_of_inv (C := fun _ _ => True) (P := fun d => ∀ dev, d = some dev → DirOk dev)
    (fun d o hd _ dev hdev => ?_) (fun d o hd _ dev hdev i hi => (hd dev hdev).indices_lt hi)
    (fun dev hdev => Option.some.inj hdev ▸ dirOk_new) (Core.allSteps_of_forall (fun _ _ => trivial) _ _)
  obtain ⟨old, hold, hcall⟩ := Option.bind_eq_some_iff.1 hdev
  exact (hd old hold).deviceCall hcall

end CxlMemSim.Coherency.Heads
