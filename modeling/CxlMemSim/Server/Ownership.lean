/-
Which lines does a write take? The memory layer splits a write over its lines; the directory is updated for the line of
the address only, so the next line stays with its old owner.
-/
import CxlMemSim.Server.Requests

namespace CxlMemSim.Server

open CxlMemSim.Core

structure OwnedBy (t : Int32) (info : CachelineMetadata) : Prop where
  modified : info.state = .modified
  owner : info.owner = t
  sharers : info.sharers ⊆ {t}

def Touches (addr : UInt64) (n : ℕ) (line : UInt64) : Prop :=
  line.toNat % 64 = 0 ∧ line.toNat < addr.toNat + n ∧ addr.toNat < line.toNat + 64

/-- the line of the address is SHARED or has no other sharer; any other line is the thread's own -/
def Takeable (s : ServerState) (t : Int32) (addr line : UInt64) : Prop :=
  if line = addrToCacheline addr then
    (s.metadata line).state = .shared ∨ (s.metadata line).sharers ⊆ {t}
  else OwnedBy t (s.metadata line)

lemma ownedBy_handleWriteCoherency_iff (t : Int32) (info : CachelineMetadata) (time : UInt64) :
    OwnedBy t { handleWriteCoherency t info with lastAccessTime := time } ↔
      info.state = .shared ∨ info.sharers ⊆ {t} := by
  unfold handleWriteCoherency
  cases hst : info.state <;> dsimp only
  case shared => exact iff_of_true ⟨rfl, rfl, Finset.empty_subset _⟩ (Or.inl rfl)
  all_goals
    constructor
    · exact fun h => Or.inr h.sharers
    · rintro (h | h)
      · cases h
      · exact ⟨rfl, rfl, h⟩

lemma job_line_clamp (t : Int32) (kind : JobKind) (req : ServerRequest) :
    Job.line ⟨t, kind, clampAccessSize req⟩ = addrToCacheline req.addr := by
  unfold Job.line clampAccessSize
  split_ifs <;> rfl

/-! ## The request -/

lemma performWrite_metadata {s : ServerState} {job : Job} (env : Env) (hok : (performWrite s job env).resp.status = 0) :
    (performWrite s job env).server.metadata = Function.update s.metadata job.line
      { handleWriteCoherency job.threadId (s.metadata job.line) with lastAccessTime := job.req.timestamp } := by
  unfold performWrite at hok ⊢
  dsimp only at hok ⊢
  split_ifs at hok ⊢ with hput
  · exact absurd hok (show (1 : UInt8) ≠ 0 by decide)
  · simp only [ServerState.setMetadata]
    rw [(registerBackInvalidation_repeat_sameStorage _ _ _ _ _).metadata]

/-- What an accepted write does to the directory. -/
lemma write_metadata {s : ServerState} {t : Int32} {req : ServerRequest} {env : Env}
    (hop : OpType.ofCode req.opType = .write) (hok : (handleRequest s t req env).resp.status = 0) :
    ∃ time, (handleRequest s t req env).server.metadata = Function.update s.metadata (addrToCacheline req.addr)
        { handleWriteCoherency t (s.metadata (addrToCacheline req.addr)) with lastAccessTime := time } := by
  have hwrite : admitRequest s t req = admitAccess s t .write (clampAccessSize req) true false := by
    unfold admitRequest
    rw [hop]
  unfold handleRequest at hok ⊢
  rw [hwrite] at hok ⊢
  rcases admitAccess_cases s t .write (clampAccessSize req) true false with ⟨resp, s', hans, hbad⟩ | ⟨-, s', rfl, hlock⟩
  · rw [hans] at hok
    exact absurd hok hbad
  · rw [hlock] at hok ⊢
    have hmeta := performWrite_metadata env hok
    rw [job_line_clamp] at hmeta
    exact ⟨_, hmeta⟩

def twoWriters : ServerState :=
  (handleRequest (ServerState.new ⟨.mapped, 0, 4⟩ (fun _ => 0) ⟨none, none⟩) 2 ⟨1, 64, 8, 1, 0, 0, fun _ => 7⟩
    .good).server

/-- The second line is kept. Thread 1 writes 8 bytes at 60; the next line is still MODIFIED by thread 2. -/
theorem second_line_kept :
    let served := handleRequest twoWriters 1 ⟨1, 60, 8, 2, 0, 0, fun _ => 9⟩ .good
    served.resp.status = 0 ∧ served.server.mem 64 = 9 ∧ (served.server.metadata 64).state = .modified ∧
      (served.server.metadata 64).owner = 2 := by
  decide +kernel

/-- After an accepted write the thread alone owns every line it touches, exactly when each was takeable. -/
theorem write_takes_ownership_iff (s : ServerState) (t : Int32) (req : ServerRequest) (env : Env)
    (hop : OpType.ofCode req.opType = .write) (hok : (handleRequest s t req env).resp.status = 0) (n : ℕ) :
    (∀ line, Touches req.addr n line → OwnedBy t ((handleRequest s t req env).server.metadata line)) ↔
      ∀ line, Touches req.addr n line → Takeable s t req.addr line := by
  obtain ⟨time, hmeta⟩ := write_metadata hop hok
  refine forall_congr' fun line => imp_congr_right fun _ => ?_
  rw [hmeta]
  unfold Takeable
  by_cases hl : line = addrToCacheline req.addr
  · rw [if_pos hl, hl, Function.update_self]
    exact ownedBy_handleWriteCoherency_iff t _ time
  · rw [if_neg hl, Function.update_of_ne hl]

theorem write_takes_ownership_one_line :
    (handleRequest twoWriters 1 ⟨1, 0, 8, 2, 0, 0, fun _ => 9⟩ .good).resp.status = 0 ∧ ((∀ line, Touches 0 8 line →
          OwnedBy 1 ((handleRequest twoWriters 1 ⟨1, 0, 8, 2, 0, 0, fun _ => 9⟩ .good).server.metadata line)) ↔
        ∀ line, Touches 0 8 line → Takeable twoWriters 1 0 line) :=
  ⟨by decide +kernel,
    write_takes_ownership_iff twoWriters 1 ⟨1, 0, 8, 2, 0, 0, fun _ => 9⟩ .good rfl (by decide +kernel) 8⟩

end CxlMemSim.Server
