/-
The metadata of a cacheline in `ThreadPerConnectionServer`: an INVALID line has no owner and no sharer, a SHARED line
sharers and no owner, a MODIFIED line an owner and no sharer, and no line is EXCLUSIVE; also after a request that
storage refuses half-way.
-/
import CxlMemSim.Server.Consistency

namespace CxlMemSim.Server

open CxlMemSim.Core
open Server.Consistency (Call)

/-! ## The shape of a line -/

def LineOk (info : CachelineMetadata) : Prop :=
  match info.state with
  | .invalid => info.owner = -1 ∧ info.sharers = ∅
  | .shared => info.owner = -1 ∧ info.sharers.Nonempty
  | .modified => info.owner ≠ -1 ∧ info.sharers = ∅
  | .exclusive => False

instance (info : CachelineMetadata) : Decidable (LineOk info) := by
  unfold LineOk
  split <;> infer_instance

lemma lineOk_new : LineOk .new := ⟨rfl, rfl⟩

variable {info : CachelineMetadata}

lemma LineOk.touch (h : LineOk info) (ts : UInt64) : LineOk { info with lastAccessTime := ts } := h

lemma LineOk.read (h : LineOk info) (t : Int32) : LineOk (handleReadCoherency t info) := by
  unfold LineOk at h
  unfold handleReadCoherency
  cases hs : info.state <;> rw [hs] at h <;> dsimp only at h ⊢
  · exact ⟨h.1, Finset.insert_nonempty _ _⟩
  · exact ⟨h.1, Finset.insert_nonempty _ _⟩
  · exact ⟨rfl, Finset.insert_nonempty _ _⟩

variable {t : Int32} {s s' : ServerState}

lemma LineOk.write (h : LineOk info) (ht : t ≠ -1) : LineOk (handleWriteCoherency t info) := by
  unfold LineOk at h
  unfold handleWriteCoherency
  cases hs : info.state <;> rw [hs] at h <;> dsimp only at h ⊢
  · exact ⟨ht, h.2⟩
  · exact ⟨ht, rfl⟩
  · exact ⟨ht, h.2⟩

variable {hd : Header} {line : UInt64} {v : LineView}

lemma applyEntry_ok (h : LineOk v.info) (entry : BackInvalidationEntry)
    (io : Io) : LineOk (applyEntry hd line v entry io).info := by
  unfold applyEntry
  split_ifs
  · exact ⟨rfl, rfl⟩
  · exact h
  · exact h

lemma applyEntries_ok {io : ℕ → Io} {entries : List BackInvalidationEntry} (k : ℕ)
    (h : LineOk v.info) : LineOk (applyEntries hd line io k entries v).info := by
  induction entries generalizing k v with
  | nil => exact h
  | cons entry entries ih => exact ih (k + 1) (applyEntry_ok h entry (io k))

/-! ## Requests -/

def MetadataOk (s : ServerState) : Prop := ∀ line, LineOk (s.metadata line)

variable (h : MetadataOk s)
include h

lemma MetadataOk.congr (hm : s'.metadata = s.metadata) : MetadataOk s' := by
  intro line
  rw [hm]
  exact h line

lemma MetadataOk.setMetadata (hinfo : LineOk info) : MetadataOk (s.setMetadata line info) := by
  intro l
  by_cases hl : l = line
  · subst hl
    simpa [ServerState.setMetadata] using hinfo
  · simpa [ServerState.setMetadata, Function.update_of_ne hl] using h l

lemma MetadataOk.backInvalidations (line : UInt64) (io : ℕ → Io) :
    MetadataOk (checkAndApplyBackInvalidations s line io) :=
  MetadataOk.congr (h.setMetadata (applyEntries_ok 0 (h line))) rfl

variable {job : Job}

lemma MetadataOk.takeOwnership (ht : job.threadId ≠ -1) : MetadataOk (takeOwnership job s) := h.setMetadata ⟨ht, rfl⟩

lemma performRead_metadataOk (job : Job) (env : Env) : MetadataOk (performRead s job env).server := by
  have hs := h.backInvalidations job.line env.apply
  have hread := (hs job.line).read job.threadId
  unfold performRead
  dsimp only
  split_ifs
  · exact hs.setMetadata hread
  · exact hs.setMetadata (hread.touch _)

section

variable (job : Job) (env : Env) (ht : job.threadId ≠ -1)
include ht

lemma performWrite_metadataOk : MetadataOk (performWrite s job env).server := by
  have hwrite := (h job.line).write ht
  unfold performWrite
  dsimp only
  split_ifs
  · exact MetadataOk.setMetadata (h.congr rfl) hwrite
  · refine MetadataOk.setMetadata (h.congr ?_) (hwrite.touch _)
    exact (registerBackInvalidation_repeat_sameStorage _ _ _ _ _).metadata

lemma performFaa_metadataOk : MetadataOk (performFaa s job env).server := by
  unfold performFaa
  dsimp only
  split_ifs
  · exact h.congr rfl
  · exact MetadataOk.takeOwnership (h.congr rfl) ht

lemma performCas_metadataOk : MetadataOk (performCas s job env).server := by
  unfold performCas
  dsimp only
  split_ifs
  · exact h.congr rfl
  · exact MetadataOk.takeOwnership (h.congr rfl) ht
  · exact MetadataOk.setMetadata (h.congr rfl) ((h job.line).touch _)

lemma performWriteback_metadataOk : MetadataOk (performWriteback s job env).server := by
  unfold performWriteback
  dsimp only
  split_ifs
  · exact h.congr rfl
  · exact (h.takeOwnership ht).congr rfl

lemma perform_metadataOk : MetadataOk (perform s job env).server := by
  unfold perform
  cases job.kind with
  | read => exact performRead_metadataOk h job env
  | write => exact performWrite_metadataOk h job env ht
  | faa => exact performFaa_metadataOk h job env ht
  | cas => exact performCas_metadataOk h job env ht
  | fence => exact h
  | writeback => exact performWriteback_metadataOk h job env ht

end

omit h

/-! ## Runs -/

variable {req : ServerRequest}

lemma admitAccess_threadId {kind : JobKind} {w a : Bool}
    (h : admitAccess s t kind req w a = .locked job s') : job.threadId = t := by
  rcases admitAccess_cases s t kind req w a with ⟨resp, s'', hans, -⟩ | ⟨-, s'', -, hlock⟩
  · rw [hans] at h
    cases h
  · rw [hlock] at h
    cases h
    rfl

lemma admitRequest_threadId (h : admitRequest s t req = .locked job s') : job.threadId = t := by
  unfold admitRequest at h
  split at h
  case h_3 =>
    cases h
    rfl
  case h_10 =>
    unfold admitWriteback at h
    dsimp only at h
    split_ifs at h
    cases h
    rfl
  all_goals
    first
    | exact admitAccess_threadId h
    | cases h

/-- A request by a thread keeps the shape of every line. -/
lemma handleRequest_metadataOk (h : MetadataOk s) (ht : t ≠ -1) (req : ServerRequest)
    (env : Env) : MetadataOk (handleRequest s t req env).server := by
  have hsame := admitRequest_sameStorage s t req
  unfold handleRequest
  cases hadm : admitRequest s t req with
  | answered resp s' =>
    rw [hadm] at hsame
    exact h.congr hsame.metadata
  | locked job s' =>
    rw [hadm] at hsame
    exact perform_metadataOk (h.congr hsame.metadata) job env (admitRequest_threadId hadm ▸ ht)

def serveStep (s : ServerState) (c : Call) : ServerState :=
  if s.halted then s else (handleRequest s c.threadId c.req c.env).server

/-- After every sequence of requests by threads (-1 is no thread's id) every line has the shape of its state. -/
theorem metadata_wellFormed (header : Header) (mem : Core.Buf) (controller : Gfam.Controller) (calls : List Call)
    (ht : ∀ c ∈ calls, c.threadId ≠ -1) (line : UInt64) :
    LineOk ((run serveStep (.new header mem controller) calls).metadata line) := by
  have hstart : MetadataOk (.new header mem controller) := fun _ => lineOk_new
  have hstep : ∀ s (c : Call), MetadataOk s → c.threadId ≠ -1 → MetadataOk (serveStep s c) := by
    intro s c h hc
    unfold serveStep
    split_ifs
    · exact h
    · exact handleRequest_metadataOk h hc c.req c.env
  exact run_inv_mem hstep hstart ht line

theorem metadata_wellFormed_shared :
    let calls := [Consistency.readCall 2 0 8 1, Consistency.readCall 3 0 8 2, Consistency.writeCall 1 0 8 3 9,
      Consistency.readCall 2 0 8 4]
    let info := (run serveStep (.new ⟨.mapped, 0, 4⟩ (fun _ => 0) ⟨none, none⟩) calls).metadata 0
    LineOk info ∧ info.state = .shared ∧ info.sharers = {1, 2} := by
  intro calls info
  exact ⟨metadata_wellFormed _ _ _ calls (by decide) 0, by decide, by decide⟩

end CxlMemSim.Server
