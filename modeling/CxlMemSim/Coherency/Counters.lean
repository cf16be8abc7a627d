/-
Two counters of the `CoherencyEngine`: messages, kept by hand in eight branches beside `calculate_coherency_msg_latency`
(a write to a line OWNED by another node misses it), and write-backs of dirty copies given up.
-/
import CxlMemSim.Core.Run
import CxlMemSim.Coherency.Engine

namespace CxlMemSim.Coherency

open CxlMemSim.Core

/-! ## Messages -/

def Counts (w w' : Work) : Prop :=
  ∃ k, w'.msgs.card = w.msgs.card + k ∧ w'.stats.coherencyMessages = w.stats.coherencyMessages + UInt64.ofNat k

variable {w w' : Work} {localNode : UInt32} {c : CoherencyEngine} {o : Op} {addr : UInt64} {req : CoherencyRequest}

lemma Counts.of_same (hm : w'.msgs = w.msgs)
    (hs : w'.stats.coherencyMessages = w.stats.coherencyMessages) : Counts w w' :=
  ⟨0, by rw [hm, Nat.add_zero], by rw [hs]; simp⟩

lemma Counts.trans {a b c : Work} (h : Counts a b) (h' : Counts b c) : Counts a c := by
  obtain ⟨k, hk, hs⟩ := h
  obtain ⟨l, hl, hs'⟩ := h'
  refine ⟨k + l, by rw [hl, hk, Nat.add_assoc], ?_⟩
  rw [hs', hs, UInt64.ofNat_add, UInt64.add_assoc]

lemma counts_send (w : Work) (kind : MsgKind) (target : UInt32) : Counts w (w.send kind target).countMessage :=
  ⟨1, by simp [Work.send, Work.countMessage], rfl⟩

lemma counts_invalidateSharers (w : Work) (n : UInt32) : Counts w (invalidateSharers w n) :=
  ⟨(w.entry.sharerNodes.filter (· ≠ n)).card, by simp [invalidateSharers, Nat.add_comm, Finset.card], rfl⟩

lemma counts_downgradeOwner (w : Work) (n : UInt32) : Counts w (downgradeOwner w n) := by
  unfold downgradeOwner
  split_ifs
  · exact Counts.of_same rfl rfl
  · refine (counts_send w .downgrade w.entry.ownerNode).trans ?_
    cases w.entry.state <;> exact Counts.of_same rfl rfl

lemma counts_fetchFromOwner (w : Work) : Counts w (fetchFromOwner w) := by
  unfold fetchFromOwner
  split_ifs
  · exact Counts.of_same rfl rfl
  · exact counts_send w .fetch w.entry.ownerNode

section

variable (localNode : UInt32) (w : Work) (req : CoherencyRequest)

lemma counts_acquireShared : Counts w (acquireShared localNode w req).1 := by
  unfold acquireShared
  cases w.entry.state with
  | invalid | shared => exact Counts.of_same rfl rfl
  | exclusive =>
    dsimp only
    split_ifs
    · exact Counts.of_same rfl rfl
    · exact (counts_downgradeOwner w _).trans (Counts.of_same rfl rfl)
  | modified =>
    dsimp only
    split_ifs
    · exact Counts.of_same rfl rfl
    · exact (counts_fetchFromOwner w).trans (Counts.of_same rfl rfl)
  | owned =>
    dsimp only
    split_ifs
    · exact Counts.of_same rfl rfl
    · exact (counts_send w .forward _).trans (Counts.of_same rfl rfl)

lemma counts_readEntry : Counts w (readEntry localNode w req).1 := by
  unfold readEntry
  dsimp only
  split_ifs
  · exact Counts.of_same rfl rfl
  · exact Counts.of_same rfl rfl
  · have hacquire := counts_acquireShared localNode
      { w with entry := { w.entry with lastAccessTime := req.timestamp } } req
    exact Counts.trans hacquire (Counts.of_same rfl rfl)

end

def OwnedElsewhere (e : DirectoryEntry) (n : UInt32) : Prop := e.state = .owned ∧ e.ownerNode ≠ n

instance (e : DirectoryEntry) (n : UInt32) : Decidable (OwnedElsewhere e n) := inferInstanceAs (Decidable (_ ∧ _))

lemma counts_acquireExclusive
    (h : ¬ OwnedElsewhere w.entry req.requestingNode) : Counts w (acquireExclusive localNode w req).1 := by
  unfold acquireExclusive
  cases hstate : w.entry.state with
  | invalid => exact Counts.of_same rfl rfl
  | shared => exact counts_invalidateSharers w _
  | exclusive =>
    dsimp only
    split_ifs
    · exact (counts_send w .invalidate _).trans (Counts.of_same rfl rfl)
    · exact Counts.of_same rfl rfl
  | modified =>
    dsimp only
    split_ifs
    · exact (counts_send w .fetch _).trans (Counts.of_same rfl rfl)
    · exact Counts.of_same rfl rfl
  | owned =>
    dsimp only
    split_ifs with howner
    · exact absurd ⟨hstate, howner⟩ h
    · exact counts_invalidateSharers w _

lemma counts_writeEntry
    (h : ¬ OwnedElsewhere w.entry req.requestingNode) : Counts w (writeEntry localNode w req).1 := by
  unfold writeEntry
  dsimp only
  split_ifs
  · exact Counts.of_same rfl rfl
  · have hinvalidate := counts_invalidateSharers
      { w with entry := { w.entry with lastAccessTime := req.timestamp, version := w.entry.version + 1 } }
      req.requestingNode
    exact Counts.trans hinvalidate (Counts.of_same rfl rfl)
  · let touched : Work :=
      { w with entry := { w.entry with lastAccessTime := req.timestamp, version := w.entry.version + 1 } }
    have hacquire : Counts touched (acquireExclusive localNode touched req).1 := counts_acquireExclusive h
    exact Counts.trans hacquire (Counts.of_same rfl rfl)

/-- the condition on a step: a write or an atomic does not meet a line OWNED by another node -/
def NoForeignOwned (c : CoherencyEngine) : Op → Prop
  | .processWrite req | .processAtomic req => ¬ OwnedElsewhere (openEntry c req.addr).entry req.requestingNode
  | _ => True

instance (c : CoherencyEngine) (o : Op) : Decidable (NoForeignOwned c o) := by
  cases o <;> unfold NoForeignOwned <;> infer_instance

def charged (c : CoherencyEngine) : List Op → ℕ
  | [] => 0
  | o :: ops => (call c o).2.card + charged (call c o).1 ops

lemma handleRemote_messages (c : CoherencyEngine) (addr : UInt64) {f : Work → Work}
    (hf : ∀ w, (f w).stats.coherencyMessages = w.stats.coherencyMessages) :
    (handleRemote c addr f).stats.coherencyMessages = c.stats.coherencyMessages := by
  unfold handleRemote
  cases c.directory (lineOf addr) with
  | none => rfl
  | some e => exact hf _

section

variable (n : UInt32) (w : Work)

lemma invalidateEntry_messages : (invalidateEntry n w).stats.coherencyMessages = w.stats.coherencyMessages := by
  unfold invalidateEntry
  dsimp only
  split_ifs <;> rfl

lemma downgradeEntry_messages : (downgradeEntry n w).stats.coherencyMessages = w.stats.coherencyMessages := by
  unfold downgradeEntry
  dsimp only
  split_ifs
  · cases w.entry.state <;> rfl
  · rfl

lemma writebackEntry_messages : (writebackEntry n w).stats.coherencyMessages = w.stats.coherencyMessages := by
  unfold writebackEntry
  dsimp only
  split_ifs <;> rfl

end

lemma call_messages (h : NoForeignOwned c o) :
    (call c o).1.stats.coherencyMessages = c.stats.coherencyMessages + UInt64.ofNat (call c o).2.card := by
  have hcounts : ∀ w w' : Work, w.msgs = 0 → Counts w w' →
      w'.stats.coherencyMessages = w.stats.coherencyMessages + UInt64.ofNat w'.msgs.card := by
    intro w w' hw ⟨k, hk, hs⟩
    rw [hw, Multiset.card_zero, Nat.zero_add] at hk
    rw [hs, hk]
  cases o with
  | processRead req => exact hcounts (openEntry c req.addr) _ rfl (counts_readEntry _ _ _)
  | processWrite req | processAtomic req => exact hcounts (openEntry c req.addr) _ rfl (counts_writeEntry h)
  | handleRemoteInvalidate addr n =>
    simpa [call, handleRemoteInvalidate] using handleRemote_messages c addr (invalidateEntry_messages c.localNodeId)
  | handleRemoteDowngrade addr n =>
    simpa [call, handleRemoteDowngrade] using handleRemote_messages c addr (downgradeEntry_messages c.localNodeId)
  | handleRemoteWriteback addr n =>
    simpa [call, handleRemoteWriteback] using handleRemote_messages c addr (writebackEntry_messages n)

lemma run_messages {ops : List Op} (h : AllSteps (fun c o => (call c o).1) NoForeignOwned c ops) :
    (run (fun c o => (call c o).1) c ops).stats.coherencyMessages =
      c.stats.coherencyMessages + UInt64.ofNat (charged c ops) := by
  induction ops generalizing c with
  | nil => simp [charged]
  | cons o ops ih =>
    obtain ⟨ho, hops⟩ := h
    rw [Core.run_cons, ih hops, call_messages ho, charged, UInt64.ofNat_add, UInt64.add_assoc]

/-- The message counter is exact if writes and atomics meet no line OWNED by another node. -/
theorem messages_exact (localNode : UInt32) (ops : List Op)
    (h : AllSteps (fun c o => (call c o).1) NoForeignOwned (newEngine localNode) ops) :
    (run (fun c o => (call c o).1) (newEngine localNode) ops).stats.coherencyMessages =
      UInt64.ofNat (charged (newEngine localNode) ops) := by
  rw [run_messages h]
  simp [newEngine]

def lineZero (n : UInt32) : CoherencyRequest := ⟨0, n, 0, 0⟩

theorem messages_exact_owner_writes :
    charged (newEngine 0) [.processWrite (lineZero 1), .processRead (lineZero 2), .processWrite (lineZero 1)] = 2 ∧
    (run (fun c o => (call c o).1) (newEngine 0) [.processWrite (lineZero 1), .processRead (lineZero 2),
      .processWrite (lineZero 1)]).stats.coherencyMessages = UInt64.ofNat
        (charged (newEngine 0) [.processWrite (lineZero 1), .processRead (lineZero 2), .processWrite (lineZero 1)]) :=
  ⟨by decide, messages_exact 0 _ (by decide)⟩

/-- node 1 writes, node 2 reads, node 3 writes: the fetch of the last write is charged and not counted -/
theorem owner_message_uncounted :
    charged (newEngine 0) [.processWrite (lineZero 1), .processRead (lineZero 2), .processWrite (lineZero 3)] = 3 ∧
    (run (fun c o => (call c o).1) (newEngine 0) [.processWrite (lineZero 1), .processRead (lineZero 2),
      .processWrite (lineZero 3)]).stats.coherencyMessages = 2 := by
  decide

/-! ## Write-backs -/

def dirtyOwner (e : DirectoryEntry) : Option UInt32 :=
  if e.state = .modified ∨ e.state = .owned then some e.ownerNode else none

def Loses (e e' : DirectoryEntry) : Prop := dirtyOwner e ≠ none ∧ dirtyOwner e' ≠ dirtyOwner e

instance (e e' : DirectoryEntry) : Decidable (Loses e e') := inferInstanceAs (Decidable (_ ∧ _))

/-- from `w` to `w'` a write-back was counted exactly if the dirty copy went away -/
def Settles (w w' : Work) : Prop :=
  w'.stats.writebacks = if Loses w.entry w'.entry then w.stats.writebacks + 1 else w.stats.writebacks

lemma Settles.of_kept (he : dirtyOwner w.entry ≠ none → dirtyOwner w'.entry = dirtyOwner w.entry)
    (hs : w'.stats.writebacks = w.stats.writebacks) : Settles w w' := by
  unfold Settles
  rw [if_neg fun h => h.2 (he h.1), hs]

lemma Settles.of_clean (hclean : dirtyOwner w.entry = none := by simp [*, dirtyOwner])
    (hs : w'.stats.writebacks = w.stats.writebacks := by rfl) : Settles w w' := .of_kept (fun h => absurd hclean h) hs

lemma Settles.of_lost (he : Loses w.entry w'.entry)
    (hs : w'.stats.writebacks = w.stats.writebacks + 1) : Settles w w' := by
  unfold Settles
  rw [if_pos he, hs]

section

variable (localNode : UInt32) (w : Work) (req : CoherencyRequest)

lemma settles_readEntry : Settles w (readEntry localNode w req).1 := by
  unfold readEntry
  dsimp only
  split_ifs
  · exact Settles.of_kept (fun _ => rfl) rfl
  · exact Settles.of_kept (fun _ => rfl) rfl
  · unfold acquireShared
    dsimp only
    cases hstate : w.entry.state with
    | invalid | shared => exact Settles.of_clean
    | exclusive =>
      refine Settles.of_clean (by simp [dirtyOwner, hstate]) ?_
      dsimp only
      split_ifs
      · rfl
      · unfold downgradeOwner
        dsimp only
        split_ifs <;> rfl
    | modified =>
      dsimp only
      split_ifs
      · exact Settles.of_kept (fun _ => by simp [dirtyOwner, hstate, Work.addSharer, Work.countOp]) rfl
      · refine Settles.of_kept (fun _ => ?_) ?_
        · simp [dirtyOwner, hstate, Work.addSharer, Work.setState, Work.countOp]
        · unfold fetchFromOwner
          split_ifs <;> rfl
    | owned =>
      dsimp only
      split_ifs
      · exact Settles.of_kept (fun _ => by simp [dirtyOwner, hstate, Work.addSharer, Work.countOp]) rfl
      · refine Settles.of_kept (fun _ => ?_) rfl
        simp [dirtyOwner, hstate, Work.addSharer, Work.countMessage, Work.send, Work.countOp]

lemma settles_writeEntry : Settles w (writeEntry localNode w req).1 := by
  unfold writeEntry
  dsimp only
  split_ifs with hheld howned
  · refine Settles.of_kept (fun h => ?_) rfl
    rcases hheld.2 with hs | hs <;> simp_all [dirtyOwner, Work.setState, Work.setDirty, Work.countOp]
  · refine Settles.of_kept (fun h => ?_) rfl
    simp_all [dirtyOwner, Work.setState, Work.setDirty, Work.countOp, invalidateSharers]
  · unfold acquireExclusive
    dsimp only
    cases hstate : w.entry.state with
    | invalid | shared => exact Settles.of_clean
    | exclusive =>
      refine Settles.of_clean (by simp [dirtyOwner, hstate]) ?_
      dsimp only
      split_ifs <;> rfl
    | modified =>
      have hother : w.entry.ownerNode ≠ req.requestingNode := fun h => hheld ⟨h, .inr hstate⟩
      dsimp only
      rw [if_pos hother]
      refine Settles.of_lost ⟨by simp [dirtyOwner, hstate], ?_⟩ rfl
      simpa [dirtyOwner, hstate, takeOwnership, Work.countOp] using hother.symm
    | owned =>
      have hother : w.entry.ownerNode ≠ req.requestingNode := fun h => howned ⟨h, hstate⟩
      dsimp only
      rw [if_pos hother]
      refine Settles.of_lost ⟨by simp [dirtyOwner, hstate], ?_⟩ rfl
      simpa [dirtyOwner, hstate, takeOwnership, Work.countOp] using hother.symm

end

/-- a remote invalidation takes a MODIFIED line from the local node, counted, or an OWNED one, uncounted -/
lemma settles_invalidateEntry (h : ¬ (w.entry.state = .owned ∧ w.entry.ownerNode = localNode)) : Settles w
    (invalidateEntry localNode w) := by
  unfold invalidateEntry
  dsimp only
  split_ifs with howner hmodified
  · refine Settles.of_lost ⟨by simp [dirtyOwner, hmodified], ?_⟩ rfl
    simp [dirtyOwner, hmodified, Work.setState, Work.setOwner, Work.countInvalidation]
  · refine Settles.of_kept (fun hd => absurd ?_ hd) rfl
    have hnot : ¬ w.entry.state = .owned := fun hs => h ⟨hs, howner⟩
    simp [dirtyOwner, hmodified, hnot]
  · exact Settles.of_kept (fun _ => rfl) rfl

lemma settles_downgradeEntry (localNode : UInt32) (w : Work) : Settles w (downgradeEntry localNode w) := by
  unfold downgradeEntry
  dsimp only
  split_ifs
  · cases hstate : w.entry.state with
    | modified => exact Settles.of_kept (fun _ => by simp [dirtyOwner, hstate, Work.setState, Work.countDowngrade]) rfl
    | exclusive => exact Settles.of_clean
    | _ => exact Settles.of_kept (fun _ => rfl) rfl
  · exact Settles.of_kept (fun _ => rfl) rfl

def DirtyAt (c : CoherencyEngine) (line : UInt64) (n : UInt32) : Prop :=
  ∃ e, c.directory line = some e ∧ dirtyOwner e = some n

def LosesDirty (c c' : CoherencyEngine) : Prop := ∃ line n, DirtyAt c line n ∧ ¬ DirtyAt c' line n

def OwnedInvalidation (c : CoherencyEngine) : Op → Prop
  | .handleRemoteInvalidate addr _ =>
    ∃ e, c.directory (lineOf addr) = some e ∧ e.state = .owned ∧ e.ownerNode = c.localNodeId
  | _ => False

def WritebackMessage (c : CoherencyEngine) : Op → Prop
  | .handleRemoteWriteback addr _ => (c.directory (lineOf addr)).isSome = true
  | _ => False

structure WritebackRule (c : CoherencyEngine) (o : Op) : Prop where
  lost : LosesDirty c (call c o).1 → ¬ OwnedInvalidation c o → (call c o).1.stats.writebacks = c.stats.writebacks + 1
  kept : ¬ LosesDirty c (call c o).1 → ¬ WritebackMessage c o → (call c o).1.stats.writebacks = c.stats.writebacks
  message : WritebackMessage c o → (call c o).1.stats.writebacks = c.stats.writebacks + 1

lemma losesDirty_close (c : CoherencyEngine) (addr : UInt64) (w : Work) :
    LosesDirty c (closeEntry c addr w) ↔ Loses (openEntry c addr).entry w.entry := by
  constructor
  · rintro ⟨line, n, ⟨e, he, hn⟩, hgone⟩
    by_cases hline : line = lineOf addr
    · subst hline
      have hopen : (openEntry c addr).entry = e := by simp [openEntry, he]
      rw [Loses, hopen, hn]
      refine ⟨by simp, fun hsame => hgone ⟨w.entry, closeEntry_self c addr w, hsame⟩⟩
    · exact absurd ⟨e, by rw [closeEntry_other c w hline]; exact he, hn⟩ hgone
  · rintro ⟨hdirty, hgone⟩
    cases he : c.directory (lineOf addr) with
    | none =>
      -- a new entry is not dirty
      rw [show (openEntry c addr).entry = newEntry (lineOf addr) by simp [openEntry, he]] at hdirty
      exact absurd (by simp [dirtyOwner, newEntry]) hdirty
    | some e =>
      have hopen : (openEntry c addr).entry = e := by simp [openEntry, he]
      rw [hopen] at hdirty hgone
      obtain ⟨n, hn⟩ := Option.ne_none_iff_exists'.1 hdirty
      refine ⟨lineOf addr, n, ⟨e, he, hn⟩, ?_⟩
      rintro ⟨e', he', hn'⟩
      rw [closeEntry_self] at he'
      cases he'
      exact hgone (hn'.trans hn.symm)

lemma not_losesDirty_self (c : CoherencyEngine) : ¬ LosesDirty c c := by
  rintro ⟨line, n, h, hgone⟩
  exact hgone h

lemma WritebackRule.of_settles (hcall : (call c o).1 = closeEntry c addr w) (hw : Settles (openEntry c addr) w)
    (ho : ¬ WritebackMessage c o := by simp [*, WritebackMessage]) : WritebackRule c o := by
  have hcount : (call c o).1.stats.writebacks = w.stats.writebacks := by rw [hcall]; rfl
  unfold Settles at hw
  refine ⟨fun hlost _ => ?_, fun hkept _ => ?_, fun h => absurd h ho⟩
  · rw [hcall, losesDirty_close] at hlost
    rw [hcount, hw, if_pos hlost]
    rfl
  · rw [hcall, losesDirty_close] at hkept
    rw [hcount, hw, if_neg hkept]
    rfl

lemma WritebackRule.of_unchanged (hcall : (call c o).1 = c) (ho : ¬ WritebackMessage c o := by simp [*, WritebackMessage]) :
    WritebackRule c o := by
  refine ⟨fun h => ?_, fun _ _ => by rw [hcall], fun h => absurd h ho⟩
  rw [hcall] at h
  exact absurd h (not_losesDirty_self c)

lemma handleRemote_none (f : Work → Work) (he : c.directory (lineOf addr) = none) : handleRemote c addr f = c := by
  simp [handleRemote, he]

lemma handleRemote_some {e : DirectoryEntry} (f : Work → Work)
    (he : c.directory (lineOf addr) = some e) : handleRemote c addr f = closeEntry c addr (f (openEntry c addr)) := by
  simp [handleRemote, openEntry, he]

lemma loses_owned_invalidation (hstate : w.entry.state = .owned)
    (howner : w.entry.ownerNode = localNode) : Loses w.entry (invalidateEntry localNode w).entry := by
  refine ⟨by simp [dirtyOwner, hstate], ?_⟩
  simp [dirtyOwner, invalidateEntry, hstate, howner, Work.setState, Work.setOwner, Work.countInvalidation]

lemma writebackRule_call (c : CoherencyEngine) (o : Op) : WritebackRule c o := by
  cases o with
  | processRead req => exact .of_settles rfl (settles_readEntry _ _ _)
  | processWrite req | processAtomic req => exact .of_settles rfl (settles_writeEntry _ _ _)
  | handleRemoteDowngrade addr n =>
    cases he : c.directory (lineOf addr) with
    | none => exact .of_unchanged (handleRemote_none _ he)
    | some e => exact .of_settles (handleRemote_some _ he) (settles_downgradeEntry c.localNodeId _)
  | handleRemoteInvalidate addr n =>
    cases he : c.directory (lineOf addr) with
    | none => exact .of_unchanged (handleRemote_none _ he)
    | some e =>
      have hcall : (call c (.handleRemoteInvalidate addr n)).1
          = closeEntry c addr (invalidateEntry c.localNodeId (openEntry c addr)) := handleRemote_some _ he
      have hopen : (openEntry c addr).entry = e := by simp [openEntry, he]
      by_cases howned : e.state = .owned ∧ e.ownerNode = c.localNodeId
      · refine ⟨fun _ h => absurd ⟨e, he, howned⟩ h, fun hkept => absurd ?_ hkept, fun h => by cases h⟩
        rw [hcall, losesDirty_close]
        exact loses_owned_invalidation (by rw [hopen]; exact howned.1) (by rw [hopen]; exact howned.2)
      · exact .of_settles hcall (settles_invalidateEntry (by rw [hopen]; exact howned))
  | handleRemoteWriteback addr n =>
    cases he : c.directory (lineOf addr) with
    | none => exact .of_unchanged (handleRemote_none _ he)
    | some e =>
      -- the message is counted behind the test of the owner, in both branches
      have hcount : (call c (.handleRemoteWriteback addr n)).1.stats.writebacks = c.stats.writebacks + 1 := by
        rw [show (call c (.handleRemoteWriteback addr n)).1 = _ from handleRemote_some (writebackEntry n) he]
        unfold writebackEntry
        dsimp only
        split_ifs <;> rfl
      exact ⟨fun _ _ => hcount, fun _ h => absurd h (by simp [WritebackMessage, he]), fun _ => hcount⟩

/-- Write-backs. A step that ends a line's being dirty at its node counts one (but for the remote invalidation of a
line OWNED by the local node); of the others only `handle_remote_writeback` counts. -/
theorem writebacks_counted (localNode : UInt32) (ops : List Op) :
    AllSteps (fun c o => (call c o).1) WritebackRule (newEngine localNode) ops :=
  Core.allSteps_of_forall writebackRule_call (newEngine localNode) ops

/-- node 1 has line 0 MODIFIED; a write-back from node 2 is counted, and nothing else changes -/
theorem writeback_of_clean_line :
    let c := (call (newEngine 0) (.processWrite (lineZero 1))).1
    (call c (.handleRemoteWriteback 0 2)).1.stats.writebacks = c.stats.writebacks + 1 ∧
    DirtyAt c 0 1 ∧ ¬ LosesDirty c (call c (.handleRemoteWriteback 0 2)).1 := by
  refine ⟨by decide, ⟨_, rfl, by decide⟩, ?_⟩
  have hsame : (call (call (newEngine 0) (.processWrite (lineZero 1))).1 (.handleRemoteWriteback 0 2)).1 =
      closeEntry (call (newEngine 0) (.processWrite (lineZero 1))).1 0
        (writebackEntry 2 (openEntry (call (newEngine 0) (.processWrite (lineZero 1))).1 0)) := rfl
  rw [hsame, losesDirty_close]
  decide

end CxlMemSim.Coherency
