/-
The shape of a `CoherencyEngine` directory entry in every reachable state. INVALID entries may keep sharers and dirty
data: the remote handlers drop only the owner. EXCLUSIVE is entered by no call.
-/
import CxlMemSim.Core.Run
import CxlMemSim.Coherency.Engine

namespace CxlMemSim.Coherency

open UInt32
open CxlMemSim.Core

/-! ## Well-formed entries -/

structure WellFormed (e : DirectoryEntry) : Prop where
  owner_none : e.ownerNode = noNode ↔ e.state = .invalid
  owner_shares : e.state = .shared → e.ownerNode ∈ e.sharerNodes
  no_sharers : e.state = .modified → e.sharerNodes = ∅
  owner_apart : e.state = .owned → e.ownerNode ∉ e.sharerNodes
  dirty : e.state = .modified ∨ e.state = .owned → e.hasDirtyData = true
  not_exclusive : e.state ≠ .exclusive

instance (e : DirectoryEntry) : Decidable (WellFormed e) :=
  decidable_of_iff
    ((e.ownerNode = noNode ↔ e.state = .invalid) ∧ (e.state = .shared → e.ownerNode ∈ e.sharerNodes) ∧
      (e.state = .modified → e.sharerNodes = ∅) ∧ (e.state = .owned → e.ownerNode ∉ e.sharerNodes) ∧
      (e.state = .modified ∨ e.state = .owned → e.hasDirtyData = true) ∧ e.state ≠ .exclusive)
    ⟨fun ⟨a, b, c, d, f, g⟩ => ⟨a, b, c, d, f, g⟩, fun ⟨a, b, c, d, f, g⟩ => ⟨a, b, c, d, f, g⟩⟩

lemma wellFormed_newEntry (line : UInt64) : WellFormed (newEntry line) := by constructor <;> simp [newEntry]

variable {e : DirectoryEntry} {l : UInt32} {w : Work} {req : CoherencyRequest} {c : CoherencyEngine}

variable {e' : DirectoryEntry}

lemma WellFormed.congr (h : WellFormed e) (hst : e'.state = e.state)
    (hown : e'.ownerNode = e.ownerNode) (hsh : e'.sharerNodes = e.sharerNodes)
    (hd : e'.hasDirtyData = e.hasDirtyData) : WellFormed e' := by
  constructor <;> simp only [hst, hown, hsh, hd]
  exacts [h.owner_none, h.owner_shares, h.no_sharers, h.owner_apart, h.dirty, h.not_exclusive]

lemma wellFormed_modified (hst : e.state = .modified) (hown : e.ownerNode ≠ noNode)
    (hsh : e.sharerNodes = ∅) (hd : e.hasDirtyData = true) : WellFormed e := by
  constructor <;> simp [hst, hown, hsh, hd]

lemma wellFormed_invalid (hst : e.state = .invalid) (hown : e.ownerNode = noNode) : WellFormed e := by
  constructor <;> simp [hst, hown]

lemma WellFormed.addSharer (h : WellFormed e) {n : UInt32}
    (hst : e.state = .shared ∨ e.state = .owned) (hn : e.state = .owned → e.ownerNode ≠ n)
    (he : e' = { e with sharerNodes := insert n e.sharerNodes }) : WellFormed e' := by
  subst he
  constructor
  case owner_none => exact h.owner_none
  case owner_shares => exact fun hs => Finset.mem_insert_of_mem (h.owner_shares hs)
  case no_sharers =>
    intro hm
    rcases hst with hs | hs <;> cases hm.symm.trans hs
  case owner_apart =>
    intro ho hmem
    rcases Finset.mem_insert.1 hmem with heq | hin
    · exact hn ho heq
    · exact h.owner_apart ho hin
  case dirty => exact h.dirty
  case not_exclusive => exact h.not_exclusive

section

variable (h : WellFormed w.entry) (hn : req.requestingNode ≠ noNode)
include h hn

lemma acquireShared_wellFormed (hhit : ¬ ownerReads w.entry req.requestingNode = true) :
    WellFormed (acquireShared l w req).1.entry := by
  unfold acquireShared
  cases hst : w.entry.state <;> dsimp only
  case invalid =>
    -- the first reader becomes owner and sharer
    constructor <;> simp [Work.addSharer, Work.setState, Work.setOwner, hn]
  case shared => exact h.addSharer (.inl hst) (fun ho => by simp [hst] at ho) rfl
  case exclusive => exact absurd hst h.not_exclusive
  case modified =>
    have hne : ¬ w.entry.ownerNode = req.requestingNode := by simpa [ownerReads, hst] using hhit
    have hsome : w.entry.ownerNode ≠ noNode := fun hc => by simpa [hst] using h.owner_none.1 hc
    rw [if_neg hne]
    -- the owner keeps its dirty copy and the reader is the only sharer
    constructor <;>
      simp [Work.addSharer, Work.setState, hsome, h.no_sharers hst, hne, h.dirty (.inl hst)]
  case owned =>
    have hne : ¬ w.entry.ownerNode = req.requestingNode := by simpa [ownerReads, hst] using hhit
    rw [if_neg hne]
    exact h.addSharer (.inr hst) (fun _ => hne) rfl

lemma readEntry_wellFormed : WellFormed (readEntry l w req).1.entry := by
  have hw : WellFormed { w.entry with lastAccessTime := req.timestamp } := h.congr rfl rfl rfl rfl
  unfold readEntry
  dsimp only
  split_ifs with hown hsh
  · exact hw
  · exact hw
  · exact acquireShared_wellFormed (w := { w with entry := { w.entry with lastAccessTime := req.timestamp } }) hw hn
      hown

lemma writeEntry_wellFormed : WellFormed (writeEntry l w req).1.entry := by
  unfold writeEntry
  dsimp only
  split_ifs with hhit howned
  · obtain ⟨hown, hst | hst⟩ := hhit
    · exact absurd hst h.not_exclusive
    · exact wellFormed_modified rfl (hown.symm ▸ hn) (h.no_sharers hst) rfl
  · exact wellFormed_modified rfl (howned.1.symm ▸ hn) rfl rfl
  · exact wellFormed_modified rfl hn rfl rfl

end

lemma invalidateEntry_wellFormed (l : UInt32) (h : WellFormed w.entry) : WellFormed (invalidateEntry l w).entry := by
  unfold invalidateEntry
  dsimp only
  by_cases hown : w.entry.ownerNode = l
  · rw [if_pos hown]
    exact wellFormed_invalid rfl rfl
  · rw [if_neg hown]
    -- a node that is not the owner leaves the sharers
    constructor
    case owner_none => exact h.owner_none
    case owner_shares => exact fun hs => Finset.mem_erase.2 ⟨hown, h.owner_shares hs⟩
    case no_sharers => exact fun hm => by simp [Work.countInvalidation, h.no_sharers hm]
    case owner_apart => exact fun ho hmem => h.owner_apart ho (Finset.mem_of_mem_erase hmem)
    case dirty => exact h.dirty
    case not_exclusive => exact h.not_exclusive

lemma downgradeEntry_wellFormed (l : UInt32) (h : WellFormed w.entry) : WellFormed (downgradeEntry l w).entry := by
  unfold downgradeEntry
  dsimp only
  split_ifs with hown
  · cases hst : w.entry.state <;> dsimp only
    case exclusive => exact absurd hst h.not_exclusive
    case modified =>
      have hsome : w.entry.ownerNode ≠ noNode := fun hc => by simpa [hst] using h.owner_none.1 hc
      constructor <;>
        simp [Work.countDowngrade, Work.setState, hsome, h.no_sharers hst, h.dirty (.inl hst)]
    all_goals exact h
  · exact h

lemma writebackEntry_wellFormed (n : UInt32) (h : WellFormed w.entry) : WellFormed (writebackEntry n w).entry := by
  unfold writebackEntry
  dsimp only
  split_ifs with hown
  · exact wellFormed_invalid rfl rfl
  · exact h

/-! ## The directory -/

def DirectoryInv (c : CoherencyEngine) : Prop := ∀ line e, c.directory line = some e → WellFormed e

def next (c : CoherencyEngine) (o : Op) : CoherencyEngine := (call c o).1

def Op.node : Op → UInt32
  | .processRead req => req.requestingNode
  | .processWrite req => req.requestingNode
  | .processAtomic req => req.requestingNode
  | .handleRemoteInvalidate _ n => n
  | .handleRemoteDowngrade _ n => n
  | .handleRemoteWriteback _ n => n

lemma openEntry_wellFormed (hi : DirectoryInv c) (addr : UInt64) : WellFormed (openEntry c addr).entry := by
  unfold openEntry
  cases hd : c.directory (lineOf addr) with
  | none => exact wellFormed_newEntry _
  | some e => exact hi _ e hd

variable {addr : UInt64}

lemma DirectoryInv.closeEntry (hi : DirectoryInv c) (hw : WellFormed w.entry) : DirectoryInv (closeEntry c addr w) := by
  intro line e he
  by_cases hl : line = lineOf addr
  · subst hl
    rw [closeEntry_self] at he
    cases he
    exact hw
  · exact hi line e (closeEntry_other c w hl ▸ he)

variable {f : Work → Work}

lemma DirectoryInv.handleRemote (hi : DirectoryInv c) (hf : ∀ w : Work, WellFormed w.entry → WellFormed (f w).entry) :
    DirectoryInv (handleRemote c addr f) := by
  unfold Coherency.handleRemote
  cases hd : c.directory (lineOf addr) with
  | none => exact hi
  | some e => exact hi.closeEntry (hf _ (hi _ e hd))

/-- A call by a node other than the none marker keeps every entry well formed. -/
lemma DirectoryInv.next (hi : DirectoryInv c) (o : Op) (hn : o.node ≠ noNode) : DirectoryInv (next c o) := by
  cases o with
  | processRead req => exact hi.closeEntry (readEntry_wellFormed (openEntry_wellFormed hi _) hn)
  | processWrite req | processAtomic req => exact hi.closeEntry (writeEntry_wellFormed (openEntry_wellFormed hi _) hn)
  | handleRemoteInvalidate addr n => exact hi.handleRemote fun _ => invalidateEntry_wellFormed _
  | handleRemoteDowngrade addr n => exact hi.handleRemote fun _ => downgradeEntry_wellFormed _
  | handleRemoteWriteback addr n => exact hi.handleRemote fun _ => writebackEntry_wellFormed n

/-! ## Versions -/

def versionOf (c : CoherencyEngine) (line : UInt64) : UInt32 := ((c.directory line).map (·.version)).getD 0

def Op.writes (line : UInt64) : Op → Bool
  | .processWrite req => lineOf req.addr = line
  | .processAtomic req => lineOf req.addr = line
  | _ => false

lemma openEntry_version (c : CoherencyEngine) (addr : UInt64) :
    (openEntry c addr).entry.version = versionOf c (lineOf addr) := by
  unfold openEntry versionOf
  cases c.directory (lineOf addr) <;> rfl

lemma versionOf_closeEntry (c : CoherencyEngine) (addr : UInt64) (w : Work) :
    versionOf (closeEntry c addr w) (lineOf addr) = w.entry.version := by
  simp [versionOf]

lemma downgradeOwner_version (w : Work) (n : UInt32) : (downgradeOwner w n).entry.version = w.entry.version := by
  unfold downgradeOwner
  split_ifs
  · rfl
  · cases hst : w.entry.state <;> rfl

section

variable (l : UInt32) (w : Work) (req : CoherencyRequest)

lemma acquireShared_version : (acquireShared l w req).1.entry.version = w.entry.version := by
  unfold acquireShared
  cases hst : w.entry.state <;> dsimp only
  case exclusive =>
    split_ifs
    · rfl
    · exact downgradeOwner_version w _
  case modified =>
    split_ifs
    · rfl
    · simp [Work.addSharer, Work.setState]
  case owned => split_ifs <;> rfl
  all_goals rfl

lemma acquireExclusive_version : (acquireExclusive l w req).1.entry.version = w.entry.version := by
  unfold acquireExclusive
  cases hst : w.entry.state
  case invalid | shared => rfl
  all_goals
    dsimp only
    split_ifs <;> rfl

lemma readEntry_version : (readEntry l w req).1.entry.version = w.entry.version := by
  unfold readEntry
  dsimp only
  split_ifs
  · rfl
  · rfl
  · exact acquireShared_version l { w with entry := { w.entry with lastAccessTime := req.timestamp } } req

lemma writeEntry_version : (writeEntry l w req).1.entry.version = w.entry.version + 1 := by
  unfold writeEntry
  dsimp only
  split_ifs
  · rfl
  · rfl
  · exact acquireExclusive_version l
      { w with entry := { w.entry with lastAccessTime := req.timestamp, version := w.entry.version + 1 } } req

end

lemma versionOf_handleRemote (hf : ∀ w : Work, (f w).entry.version = w.entry.version) (line : UInt64) :
    versionOf (handleRemote c addr f) line = versionOf c line := by
  by_cases hl : line = lineOf addr
  · subst hl
    unfold handleRemote
    cases hd : c.directory (lineOf addr) with
    | none => rfl
    | some e => simp [hf, versionOf, hd]
  · simp only [versionOf, handleRemote_other c f hl]

lemma invalidateEntry_version (l : UInt32) (w : Work) : (invalidateEntry l w).entry.version = w.entry.version := by
  unfold invalidateEntry
  dsimp only
  split_ifs <;> rfl

lemma downgradeEntry_version (l : UInt32) (w : Work) : (downgradeEntry l w).entry.version = w.entry.version := by
  unfold downgradeEntry
  dsimp only
  split_ifs
  · cases w.entry.state <;> rfl
  · rfl

lemma writebackEntry_version (n : UInt32) (w : Work) : (writebackEntry n w).entry.version = w.entry.version := by
  unfold writebackEntry
  dsimp only
  split_ifs <;> rfl

lemma versionOf_request {k : UInt32} (hw : w.entry.version = (openEntry c addr).entry.version + k) (line : UInt64) :
    versionOf (closeEntry c addr w) line = versionOf c line + if lineOf addr = line then k else 0 := by
  by_cases hl : lineOf addr = line
  · subst hl
    rw [versionOf_closeEntry, hw, openEntry_version, if_pos rfl]
  · simp only [versionOf, closeEntry_other c w (Ne.symm hl), if_neg hl, add_zero]

/-- A call moves the version of a line by one if it writes the line. -/
lemma versionOf_next (c : CoherencyEngine) (o : Op) (line : UInt64) :
    versionOf (next c o) line = versionOf c line + if o.writes line then 1 else 0 := by
  have hread : ∀ req, (readEntry c.localNodeId (openEntry c req.addr) req).1.entry.version =
      (openEntry c req.addr).entry.version + 0 := fun req => by rw [readEntry_version, add_zero]
  have hwrite := fun req => writeEntry_version c.localNodeId (openEntry c req.addr) req
  cases o with
  | processRead req => exact (versionOf_request (hread req) line).trans (by simp [Op.writes])
  | processWrite req | processAtomic req => exact (versionOf_request (hwrite req) line).trans (by simp [Op.writes])
  | handleRemoteInvalidate addr n =>
    exact (versionOf_handleRemote (invalidateEntry_version _) line).trans (by simp [Op.writes])
  | handleRemoteDowngrade addr n =>
    exact (versionOf_handleRemote (downgradeEntry_version _) line).trans (by simp [Op.writes])
  | handleRemoteWriteback addr n =>
    exact (versionOf_handleRemote (writebackEntry_version n) line).trans (by simp [Op.writes])

/-- The version moves by the number of writes and atomics on the line, modulo 2^32. -/
lemma versionOf_run (c : CoherencyEngine) (ops : List Op) (line : UInt64) :
    versionOf (run next c ops) line = versionOf c line + UInt32.ofNat (ops.countP (Op.writes line)) := by
  induction ops generalizing c with
  | nil => simp
  | cons o ops ih =>
    rw [run_cons, ih, versionOf_next, List.countP_cons, ofNat_add, add_assoc]
    congr 1
    by_cases hw : o.writes line = true <;> simp [hw, add_comm]

/-- Every entry is well formed, with the number of writes and atomics on its line modulo 2^32 as its version. -/
theorem directory_wellFormed (localNode : UInt32) (ops : List Op) (hn : ∀ o ∈ ops, o.node ≠ noNode)
    (line : UInt64) (e : DirectoryEntry) (he : (run next (newEngine localNode) ops).directory line = some e) :
    WellFormed e ∧ e.version.toNat = ops.countP (Op.writes line) % 2 ^ 32 := by
  have hstart : DirectoryInv (newEngine localNode) := fun _ _ h => by cases h
  have hinv : DirectoryInv (run next (newEngine localNode) ops) := run_inv_mem (fun _ o hi ho => hi.next o ho) hstart hn
  have hv := versionOf_run (newEngine localNode) ops line
  refine ⟨hinv line e he, ?_⟩
  have hz : versionOf (newEngine localNode) line = 0 := rfl
  rw [versionOf, he, hz, zero_add] at hv
  simp only [Option.map_some, Option.getD_some] at hv
  rw [hv, toNat_ofNat']

def readersAndWriter : List Op :=
  [.processRead ⟨0, 1, 0, 1⟩, .processRead ⟨8, 2, 0, 2⟩, .processWrite ⟨0, 3, 0, 3⟩, .handleRemoteDowngrade 0 1,
    .processRead ⟨0, 2, 0, 4⟩]

theorem directory_wellFormed_owned :
    ∃ e, (run next (newEngine 3) readersAndWriter).directory 0 = some e ∧ e.state = .owned ∧ WellFormed e ∧
      e.version.toNat = 1 :=
  have he : (run next (newEngine 3) readersAndWriter).directory 0 = some ⟨0, .owned, 3, 0, {2}, 1, 4, true⟩ := by decide
  ⟨_, he, rfl, directory_wellFormed 3 readersAndWriter (by decide) 0 _ he⟩

end CxlMemSim.Coherency
