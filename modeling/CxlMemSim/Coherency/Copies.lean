/-
Who still holds a copy after a write? (`CoherencyEngine::process_write`.) A ghost, `copies`, has the nodes that hold
each line: a node joins when its access completes, and leaves at a write's message to it, at a remote invalidation or
when it writes back.
-/
import CxlMemSim.Core.Run
import CxlMemSim.Coherency.Engine

namespace CxlMemSim.Coherency

open Finset Function
open CxlMemSim.Core

structure Hist where
  engine : CoherencyEngine
  copies : UInt64 → Finset UInt32

def targets (msgs : Multiset Msg) : Finset UInt32 := (msgs.map Msg.target).toFinset

def copiesAfter (c : CoherencyEngine) (holders : Finset UInt32) (o : Op) : Finset UInt32 :=
  match o with
  | .processRead req => insert req.requestingNode holders
  | .processWrite req => insert req.requestingNode (holders \ targets (call c o).2)
  | .processAtomic req => insert req.requestingNode (holders \ targets (call c o).2)
  | .handleRemoteInvalidate _ _ => holders.erase c.localNodeId
  | .handleRemoteDowngrade _ _ => holders
  | .handleRemoteWriteback addr n =>
    match c.directory (lineOf addr) with
    | none => holders
    | some e => if e.ownerNode = n then holders.erase n else holders

def step (h : Hist) (o : Op) : Hist :=
  ⟨(call h.engine o).1, update h.copies (lineOf o.addr) (copiesAfter h.engine (h.copies (lineOf o.addr)) o)⟩

def start (localNode : UInt32) : Hist := ⟨newEngine localNode, fun _ => ∅⟩

/-! ## Statement -/

def ReachesAll (h : Hist) (o : Op) (req : CoherencyRequest) : Prop :=
  (∀ n ∈ h.copies (lineOf req.addr), n ≠ req.requestingNode → n ∈ targets (call h.engine o).2) ∧
    (step h o).copies (lineOf req.addr) = {req.requestingNode}

def WriteReachesAll (h : Hist) (o : Op) : Prop :=
  match o with
  | .processWrite req => ReachesAll h o req
  | .processAtomic req => ReachesAll h o req
  | _ => True

/-- a line that is made INVALID has no sharer but the node that gives its copy up -/
def NoSharerLeftBehind (h : Hist) : Op → Prop
  | .handleRemoteInvalidate addr _ =>
    ∀ e ∈ h.engine.directory (lineOf addr), e.ownerNode = h.engine.localNodeId →
      ∀ n ∈ e.sharerNodes, n = h.engine.localNodeId
  | .handleRemoteWriteback addr from' =>
    ∀ e ∈ h.engine.directory (lineOf addr), e.ownerNode = from' → ∀ n ∈ e.sharerNodes, n = from'
  | _ => True

def decidableOnlySharer (h : Hist) (addr : UInt64) (owner node : UInt32) :
    Decidable (∀ e ∈ h.engine.directory (lineOf addr), e.ownerNode = owner → ∀ n ∈ e.sharerNodes, n = node) :=
  match h.engine.directory (lineOf addr) with
  | none => isTrue fun _ he => nomatch he
  | some e =>
    have : Decidable (∀ n ∈ e.sharerNodes, n = node) := Finset.decidableDforallFinset
    decidable_of_iff (e.ownerNode = owner → ∀ n ∈ e.sharerNodes, n = node)
      ⟨fun hall e' he' => by cases he'; exact hall, fun hall => hall e rfl⟩

instance (h : Hist) (o : Op) : Decidable (NoSharerLeftBehind h o) :=
  match o with
  | .handleRemoteInvalidate addr _ => decidableOnlySharer h addr h.engine.localNodeId h.engine.localNodeId
  | .handleRemoteWriteback addr from' => decidableOnlySharer h addr from' from'
  | .processRead _ | .processWrite _ | .processAtomic _ | .handleRemoteDowngrade .. => isTrue trivial

/-- A sharer survives a write. Nodes 1 and 2 read, node 1 writes back, node 3 writes: node 2 keeps its copy. -/
theorem sharer_survives_write : ¬ AllSteps step WriteReachesAll (start 0)
      [.processRead ⟨0, 1, 0, 1⟩, .processRead ⟨0, 2, 0, 2⟩, .handleRemoteWriteback 0 1,
        .processWrite ⟨0, 3, 0, 3⟩] := by
  rintro ⟨-, -, -, h, -⟩
  exact absurd (h.1 2 (by decide) (by decide)) (by decide)

/-! ## What the directory knows about the copies -/

def LineInv (e : DirectoryEntry) (holders : Finset UInt32) : Prop :=
  match e.state with
  | .invalid => e.sharerNodes = ∅ ∧ holders = ∅
  | .shared => holders ⊆ e.sharerNodes
  | .exclusive => False
  | .modified => e.sharerNodes = ∅ ∧ holders ⊆ {e.ownerNode}
  | .owned => holders ⊆ insert e.ownerNode e.sharerNodes

variable {n : UInt32} {w : Work} {holders : Finset UInt32} {l : UInt32} {h : Hist} {req : CoherencyRequest} {x : UInt32}

@[simp] lemma mem_targets {ms : Multiset Msg} : n ∈ targets ms ↔ ∃ m ∈ ms, m.target = n := by simp [targets]

lemma mem_targets_invalidateSharers (hn : n ∈ w.entry.sharerNodes) (hx : n ≠ x) :
    n ∈ targets (invalidateSharers w x).msgs := by
  simp only [mem_targets, invalidateSharers, Multiset.mem_add, Multiset.mem_map]
  exact ⟨⟨.invalidate, n⟩, Or.inl ⟨n, by simp [hn, hx], rfl⟩, rfl⟩

lemma mem_targets_invalidateSharers_of_mem (hn : n ∈ targets w.msgs) : n ∈ targets (invalidateSharers w x).msgs := by
  obtain ⟨m, hm, rfl⟩ := mem_targets.1 hn
  exact mem_targets.2 ⟨m, by simp [invalidateSharers, hm], rfl⟩

lemma acquireExclusive_targets (l : UInt32) (w : Work) (req : CoherencyRequest)
    (hi : LineInv w.entry holders) (hn : n ∈ holders) (hne : n ≠ req.requestingNode) :
    n ∈ targets (acquireExclusive l w req).1.msgs := by
  unfold LineInv at hi
  unfold acquireExclusive
  cases hs : w.entry.state <;> rw [hs] at hi <;> dsimp only at hi ⊢
  case invalid => simp [hi.2] at hn
  case shared => exact mem_targets_invalidateSharers (hi hn) hne
  case modified =>
    have hown : n = w.entry.ownerNode := Finset.mem_singleton.1 (hi.2 hn)
    rw [if_pos (hown ▸ hne)]
    exact mem_targets.2 ⟨⟨.fetch, w.entry.ownerNode⟩, by simp [Work.send, Work.countMessage, Work.countWriteback],
      hown.symm⟩
  case owned =>
    rcases Finset.mem_insert.1 (hi hn) with hown | hsh
    · rw [if_pos (hown ▸ hne)]
      exact mem_targets_invalidateSharers_of_mem (mem_targets.2 ⟨⟨.fetch, w.entry.ownerNode⟩, by simp [Work.send],
        hown.symm⟩)
    · split_ifs
      · exact mem_targets_invalidateSharers (w := w.send .fetch w.entry.ownerNode) hsh hne
      · exact mem_targets_invalidateSharers hsh hne

/-- A write messages every other holder and leaves the writer as owner with no sharer. -/
lemma writeEntry_spec (l : UInt32) (req : CoherencyRequest) (hi : LineInv w.entry holders) :
    (∀ n ∈ holders, n ≠ req.requestingNode → n ∈ targets (writeEntry l w req).1.msgs) ∧
      (writeEntry l w req).1.entry.state = .modified ∧ (writeEntry l w req).1.entry.ownerNode = req.requestingNode ∧
      (writeEntry l w req).1.entry.sharerNodes = ∅ := by
  unfold writeEntry
  dsimp only
  split_ifs with hhit howned
  · -- the owner of a MODIFIED line: nobody else holds it
    obtain ⟨hown, hst⟩ := hhit
    rcases hst with hst | hst
    · simp [LineInv, hst] at hi
    · simp only [LineInv, hst] at hi
      refine ⟨fun n hn hne => ?_, rfl, hown, hi.1⟩
      exact absurd ((Finset.mem_singleton.1 (hi.2 hn)).trans hown) hne
  · obtain ⟨hown, hst⟩ := howned
    simp only [LineInv, hst] at hi
    refine ⟨fun n hn hne => ?_, rfl, hown, rfl⟩
    rcases Finset.mem_insert.1 (hi hn) with h | h
    · exact absurd (h.trans hown) hne
    · exact mem_targets_invalidateSharers h hne
  · refine ⟨fun n hn hne => ?_, rfl, rfl, rfl⟩
    exact acquireExclusive_targets l
      { w with entry := { w.entry with lastAccessTime := req.timestamp, version := w.entry.version + 1 } } req hi hn hne

lemma acquireShared_inv (hi : LineInv w.entry holders) (hhit : ¬ ownerReads w.entry req.requestingNode = true) :
    LineInv (acquireShared l w req).1.entry (insert req.requestingNode holders) := by
  unfold acquireShared
  cases hst : w.entry.state <;> simp only [LineInv, hst] at hi ⊢
  · simp [Work.addSharer, Work.setState, Work.setOwner, hi.2]
  · simpa only [Work.addSharer, hst] using insert_subset_insert _ hi
  · have hno : ¬ w.entry.ownerNode = req.requestingNode := by simpa [ownerReads, hst] using hhit
    simp only [if_neg hno, Work.addSharer, Work.setState, fetchFromOwner_entry, hi.1]
    intro x hx
    rcases Finset.mem_insert.1 hx with rfl | hx
    · simp
    · simp [Finset.mem_singleton.1 (hi.2 hx)]
  · have hno : ¬ w.entry.ownerNode = req.requestingNode := by simpa [ownerReads, hst] using hhit
    simp only [if_neg hno, Work.addSharer, Work.send, Work.countMessage, hst]
    intro x hx
    rcases Finset.mem_insert.1 hx with rfl | hx
    · simp
    · rcases Finset.mem_insert.1 (hi hx) with rfl | hx
      · simp
      · simp [hx]

/-- A read that completes adds the reader to the holders. -/
lemma readEntry_inv (hi : LineInv w.entry holders) :
    LineInv (readEntry l w req).1.entry (insert req.requestingNode holders) := by
  unfold readEntry
  dsimp only
  split_ifs with hown hsh
  · -- a hit by the owner in M or O
    simp only [ownerReads, Bool.and_eq_true, decide_eq_true_eq, Bool.or_eq_true] at hown
    obtain ⟨hown, (hst | hst) | hst⟩ := hown
    · simp [LineInv, hst] at hi
    · simp only [LineInv, Work.countOp, hst] at hi ⊢
      exact ⟨hi.1, insert_subset (by simp [hown]) hi.2⟩
    · simp only [LineInv, Work.countOp, hst] at hi ⊢
      exact insert_subset (by simp [hown]) hi
  · -- a hit by a sharer, in S or O
    cases hst : w.entry.state <;> simp only [LineInv, Work.countOp, hst] at hi hsh ⊢
    · simp [hi.1] at hsh
    · exact insert_subset hsh hi
    · simp [hi.1] at hsh
    · exact insert_subset (mem_insert_of_mem hsh) hi
  · exact acquireShared_inv (w := { w with entry := { w.entry with lastAccessTime := req.timestamp } }) hi hown

lemma erase_owner_eq_empty {e : DirectoryEntry} (hi : LineInv e holders)
    (hsh : ∀ n ∈ e.sharerNodes, n = e.ownerNode) : holders.erase e.ownerNode = ∅ := by
  refine eq_empty_of_forall_notMem fun n hn => ?_
  obtain ⟨hne, hn⟩ := Finset.mem_erase.1 hn
  unfold LineInv at hi
  cases hs : e.state <;> rw [hs] at hi <;> dsimp only at hi
  · simp [hi.2] at hn
  · exact hne (hsh n (hi hn))
  · exact hne (Finset.mem_singleton.1 (hi.2 hn))
  · rcases Finset.mem_insert.1 (hi hn) with h | h
    · exact hne h
    · exact hne (hsh n h)

section

variable (hi : LineInv w.entry holders)
include hi

lemma invalidateEntry_inv (hsh : w.entry.ownerNode = l → ∀ n ∈ w.entry.sharerNodes, n = l) :
    LineInv (invalidateEntry l w).entry (holders.erase l) := by
  by_cases hown : w.entry.ownerNode = l
  · have hempty : holders.erase l = ∅ := hown ▸ erase_owner_eq_empty hi (hown ▸ hsh hown)
    have hnone : w.entry.sharerNodes.erase l = ∅ := by
      refine eq_empty_of_forall_notMem fun n hn => ?_
      exact (Finset.mem_erase.1 hn).1 (hsh hown n (Finset.mem_erase.1 hn).2)
    simp only [invalidateEntry, hown, if_true]
    split_ifs <;>
      exact ⟨by simp [Work.setOwner, Work.setState, Work.setDirty, Work.countWriteback, Work.countInvalidation, hnone],
        hempty⟩
  · -- the local node only leaves the sharer set, and the holders with it
    simp only [invalidateEntry, hown, if_false, Work.countInvalidation]
    unfold LineInv at hi ⊢
    cases hs : w.entry.state <;> rw [hs] at hi <;> dsimp only at hi ⊢
    · exact ⟨by simp [hi.1], by simp [hi.2]⟩
    · exact erase_subset_erase _ hi
    · exact ⟨by simp [hi.1], (erase_subset _ _).trans hi.2⟩
    · intro n hn
      obtain ⟨hne, hn⟩ := Finset.mem_erase.1 hn
      rcases Finset.mem_insert.1 (hi hn) with h | h
      · simp [h]
      · simp [h, hne]

lemma downgradeEntry_inv : LineInv (downgradeEntry l w).entry holders := by
  unfold downgradeEntry
  by_cases hown : w.entry.ownerNode = l
  · cases hs : w.entry.state <;> simp only [LineInv, hs] at hi <;>
      simp only [LineInv, hown, if_true, hs, Work.countDowngrade, Work.setState]
    · exact hi
    · exact hi
    · exact hi.2.trans (by simp [hown])
    · exact hown ▸ hi
  · simpa only [hown, if_false, Work.countDowngrade] using hi

lemma writebackEntry_inv (hsh : w.entry.ownerNode = n → ∀ x ∈ w.entry.sharerNodes, x = n) :
    LineInv (writebackEntry n w).entry (if w.entry.ownerNode = n then holders.erase n else holders) := by
  by_cases hown : w.entry.ownerNode = n
  · have hempty : holders.erase n = ∅ := hown ▸ erase_owner_eq_empty hi (hown ▸ hsh hown)
    simp only [writebackEntry, hown, if_true, Work.countWriteback]
    refine ⟨eq_empty_of_forall_notMem fun x hx => ?_, hempty⟩
    exact (Finset.mem_erase.1 hx).1 (hsh hown x (Finset.mem_erase.1 hx).2)
  · simpa only [writebackEntry, hown, if_false, Work.countWriteback] using hi

end

/-! ## Runs -/

def Inv (h : Hist) : Prop :=
  ∀ line, (h.engine.directory line = none → h.copies line = ∅) ∧
    ∀ e, h.engine.directory line = some e → LineInv e (h.copies line)

lemma inv_start (localNode : UInt32) : Inv (start localNode) :=
  fun _ => ⟨fun _ => rfl, fun e he => by simp [start, newEngine] at he⟩

lemma openEntry_inv (hi : Inv h) (addr : UInt64) :
    LineInv (openEntry h.engine addr).entry (h.copies (lineOf addr)) := by
  unfold openEntry
  cases hd : h.engine.directory (lineOf addr) with
  | none => exact ⟨rfl, (hi _).1 hd⟩
  | some e => exact (hi _).2 e hd

lemma inv_of_line {o : Op} (hi : Inv h) (hnone : (call h.engine o).1.directory (lineOf o.addr) = none →
      copiesAfter h.engine (h.copies (lineOf o.addr)) o = ∅)
    (hsome : ∀ e, (call h.engine o).1.directory (lineOf o.addr) = some e →
      LineInv e (copiesAfter h.engine (h.copies (lineOf o.addr)) o)) : Inv (step h o) := by
  intro line
  by_cases hl : line = lineOf o.addr
  · subst hl
    simp only [step, update_self]
    exact ⟨hnone, hsome⟩
  · simp only [step, update_of_ne hl, call_other _ _ hl]
    exact hi line

lemma inv_of_handler {o : Op} {f : Work → Work} (hi : Inv h)
    (hcall : (call h.engine o).1 = handleRemote h.engine o.addr f)
    (hnone : h.engine.directory (lineOf o.addr) = none → h.copies (lineOf o.addr) = ∅ →
      copiesAfter h.engine (h.copies (lineOf o.addr)) o = ∅)
    (hsome : ∀ e, h.engine.directory (lineOf o.addr) = some e → LineInv e (h.copies (lineOf o.addr)) →
      LineInv (f ⟨e, h.engine.stats, 0⟩).entry (copiesAfter h.engine (h.copies (lineOf o.addr)) o)) :
    Inv (step h o) := by
  have hline := hi (lineOf o.addr)
  unfold handleRemote at hcall
  cases hd : h.engine.directory (lineOf o.addr) with
  | none =>
    rw [hd] at hcall
    exact inv_of_line hi (fun _ => hnone hd (hline.1 hd)) fun e he => by rw [hcall, hd] at he; cases he
  | some e =>
    rw [hd] at hcall
    refine inv_of_line hi (fun he => by rw [hcall, closeEntry_self] at he; cases he) fun e' he' => ?_
    rw [hcall, closeEntry_self] at he'
    cases he'
    exact hsome e hd (hline.2 e hd)

lemma write_reachesAll (hi : Inv h) (req : CoherencyRequest) :
    ReachesAll h (.processWrite req) req ∧ Inv (step h (.processWrite req)) := by
  obtain ⟨htargets, hst, hown, hsh⟩ := writeEntry_spec h.engine.localNodeId req
    (openEntry_inv hi req.addr)
  have hcopies : insert req.requestingNode
      (h.copies (lineOf req.addr) \ targets (processWrite h.engine req).msgs) = {req.requestingNode} := by
    refine Finset.eq_singleton_iff_unique_mem.2 ⟨mem_insert_self _ _, fun n hn => ?_⟩
    rcases Finset.mem_insert.1 hn with rfl | hn
    · rfl
    · by_contra hne
      exact (Finset.mem_sdiff.1 hn).2 (htargets n (Finset.mem_sdiff.1 hn).1 hne)
  refine ⟨⟨htargets, ?_⟩, inv_of_line hi (fun he => ?_) fun e he => ?_⟩
  · simp only [step, Op.addr, update_self]
    exact hcopies
  · simp [call, processWrite, Op.addr] at he
  · simp only [call, processWrite, Op.addr, closeEntry_self, Option.some.injEq] at he
    subst he
    unfold LineInv
    rw [hst]
    refine ⟨hsh, ?_⟩
    rw [hown]
    exact hcopies.subset

lemma step_inv (hi : Inv h) (o : Op) (ho : NoSharerLeftBehind h o) : Inv (step h o) := by
  cases o with
  | processRead req =>
    refine inv_of_line hi (fun he => ?_) fun e he => ?_
    · simp [call, processRead, Op.addr] at he
    · simp only [call, processRead, Op.addr, closeEntry_self, Option.some.injEq] at he
      subst he
      exact readEntry_inv (openEntry_inv hi req.addr)
  | processWrite req | processAtomic req => exact (write_reachesAll hi req).2
  | handleRemoteInvalidate addr n =>
    refine inv_of_handler (f := invalidateEntry h.engine.localNodeId) hi rfl (fun _ hc => ?_) fun e he hl => ?_
    · simp [copiesAfter, hc]
    · exact invalidateEntry_inv hl (ho e he)
  | handleRemoteDowngrade addr n =>
    exact inv_of_handler (f := downgradeEntry h.engine.localNodeId) hi rfl (fun _ hc => hc)
      fun e he hl => downgradeEntry_inv hl
  | handleRemoteWriteback addr n =>
    refine inv_of_handler (f := writebackEntry n) hi rfl (fun hd hc => ?_) fun e he hl => ?_
    · simp only [Op.addr] at hd hc
      simp [copiesAfter, hd, hc, Op.addr]
    · simp only [Op.addr] at he
      simp only [copiesAfter, Op.addr, he]
      exact writebackEntry_inv hl (ho e he)

/-- No copy is missed. If the remote handlers leave no sharer behind, a write or atomic leaves its node the only
holder. -/
theorem writes_reach_every_copy (localNode : UInt32) (ops : List Op)
    (hops : AllSteps step NoSharerLeftBehind (start localNode) ops) :
    AllSteps step WriteReachesAll (start localNode) ops := by
  refine Core.allSteps_of_inv (P := Inv) (fun h o hi ho => step_inv hi o ho) (fun h o hi _ => ?_)
    (inv_start localNode) hops
  cases o with
  | processWrite req | processAtomic req => exact (write_reachesAll hi req).1
  | processRead req | handleRemoteInvalidate addr n | handleRemoteDowngrade addr n | handleRemoteWriteback addr n =>
    trivial

theorem writes_reach_every_copy_mixed :
    let ops : List Op := [.processRead ⟨0, 1, 0, 1⟩, .processRead ⟨64, 0, 0, 1⟩, .processWrite ⟨0, 0, 0, 2⟩,
      .handleRemoteDowngrade 0 1, .processRead ⟨0, 2, 0, 3⟩, .processAtomic ⟨0, 3, 0, 4⟩, .handleRemoteWriteback 0 3,
      .handleRemoteInvalidate 64 2, .processWrite ⟨0, 2, 0, 5⟩]
    AllSteps step NoSharerLeftBehind (start 0) ops ∧ AllSteps step WriteReachesAll (start 0) ops :=
  have h : AllSteps step NoSharerLeftBehind (start 0)
      [.processRead ⟨0, 1, 0, 1⟩, .processRead ⟨64, 0, 0, 1⟩, .processWrite ⟨0, 0, 0, 2⟩,
        .handleRemoteDowngrade 0 1, .processRead ⟨0, 2, 0, 3⟩, .processAtomic ⟨0, 3, 0, 4⟩,
        .handleRemoteWriteback 0 3, .handleRemoteInvalidate 64 2, .processWrite ⟨0, 2, 0, 5⟩] := by decide +kernel
  ⟨h, writes_reach_every_copy 0 _ h⟩

end CxlMemSim.Coherency
