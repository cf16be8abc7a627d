/-
Reads of the server against the latest stores. Beside the server runs the memory as its clients see it; bytes that a
queue entry writes back are no stores.
-/
import CxlMemSim.Server.Requests

namespace CxlMemSim.Server.Consistency

open CxlMemSim.Core

/-! ## Calls -/

structure Call where
  threadId : Int32
  req : ServerRequest
  env : Env

structure Hist where
  srv : ServerState
  latest : Buf

def served (h : Hist) (c : Call) : Served := handleRequest h.srv c.threadId c.req c.env

def step (h : Hist) (c : Call) : Hist :=
  if h.srv.halted then h else ⟨(served h c).server, storeAll h.latest (served h c).stored⟩

def start (srv : ServerState) : Hist := ⟨srv, srv.mem⟩

/-- a read changes no byte, and if it is answered 0 it returns the latest value of each byte -/
def ReadsLatest (h : Hist) (c : Call) : Prop :=
  h.srv.halted = false → OpType.ofCode c.req.opType = .read → (served h c).server.mem = h.srv.mem ∧
      ((served h c).resp.status = 0 → ∀ i < (clampAccessSize c.req).size.toNat,
        (served h c).resp.data i = h.latest (byteOf h.srv.header (c.req.addr + UInt64.ofNat i)))

/-- a read that gets to its line finds no queued data newer than the last access of the line -/
def NoNewerData (h : Hist) (c : Call) : Prop :=
  match admitRequest h.srv c.threadId c.req with
  | .answered _ _ => True
  | .locked job s => job.kind = .read → QuietLine s job.line

instance (h : Hist) (c : Call) : Decidable (NoNewerData h c) := by
  unfold NoNewerData
  cases admitRequest h.srv c.threadId c.req <;> infer_instance

/-! ## A queued write that is applied at the wrong place -/

def plainServer : ServerState := .new ⟨.mapped, 0, 4⟩ (fun _ => 0) ⟨none, none⟩

def readCall (threadId : Int32) (addr size timestamp : UInt64) : Call :=
  ⟨threadId, ⟨0, addr, size, timestamp, 0, 0, fun _ => 0⟩, .good⟩

def writeCall (threadId : Int32) (addr size timestamp : UInt64) (byte : UInt8) : Call :=
  ⟨threadId, ⟨1, addr, size, timestamp, 0, 0, fun _ => byte⟩, .good⟩

/-- thread 2 reads; thread 1 writes 7s at 8 at time 100, then 9s at 0 at time `later`; thread 2 reads 0 -/
def twoWrites (later : UInt64) : List Call :=
  [readCall 2 0 8 1, writeCall 1 8 8 100 7, writeCall 1 0 8 later 9, readCall 2 0 8 102]

/-- The queued 7s overwrite the 9s. With time 5 on the second write, address 0 reads 7. -/
theorem stale_data_applied : ¬ AllSteps step ReadsLatest (start plainServer) (twoWrites 5) := by
  intro h
  have hread := (h.2.2.2.1 rfl rfl).2 rfl 0 (by decide)
  exact absurd hread (by decide)

/-! ## Runs in which no read finds newer data -/

variable {h : Hist} {c : Call}

lemma served_mem (hq : NoNewerData h c) : (served h c).server.mem = storeAll h.srv.mem (served h c).stored := by
  have hsame := admitRequest_sameStorage h.srv c.threadId c.req
  unfold NoNewerData at hq
  unfold served handleRequest
  cases hadm : admitRequest h.srv c.threadId c.req with
  | answered resp s =>
    rw [hadm] at hsame
    exact hsame.mem
  | locked job s =>
    rw [hadm] at hsame hq
    have hmem : s.mem = h.srv.mem := hsame.mem
    dsimp only
    by_cases hk : job.kind = .read
    · obtain ⟨hread, hstored⟩ := performRead_mem s job c.env
      rw [show perform s job c.env = performRead s job c.env by simp only [perform, hk], hread, hstored,
        checkAndApplyBackInvalidations_mem _ (hq hk)]
      exact hmem
    · rw [perform_mem s job c.env hk, hmem]

lemma step_latest (hi : h.srv.mem = h.latest) (hq : NoNewerData h c) : (step h c).srv.mem = (step h c).latest := by
  unfold step
  split_ifs
  · exact hi
  · rw [← hi]
    exact served_mem hq

lemma performRead_data {s : ServerState} {job : Job} {env : Env} (hq : QuietLine s job.line)
    (hok : (performRead s job env).resp.status = 0) {i : ℕ} (hlt : i < job.req.size.toNat) :
    (performRead s job env).resp.data i = s.mem (byteOf s.header (job.req.addr + UInt64.ofNat i)) := by
  unfold performRead at hok ⊢
  dsimp only at hok ⊢
  split_ifs at hok ⊢ with hgot
  · exact absurd (show (1 : UInt8) = 0 from hok) (by decide)
  · refine (readCacheline_byte (by simpa using hgot) hlt).trans ?_
    rw [checkAndApplyBackInvalidations_mem _ hq]
    rfl

lemma readsLatest_of_quiet (hi : h.srv.mem = h.latest) (hq : NoNewerData h c) : ReadsLatest h c := by
  intro _ hop
  have hadm : admitRequest h.srv c.threadId c.req =
      admitAccess h.srv c.threadId .read (clampAccessSize c.req) false false := by
    simp only [admitRequest, hop]
  have hmem := served_mem hq
  unfold NoNewerData at hq
  unfold served handleRequest at hmem ⊢
  rw [hadm] at hq hmem ⊢
  rcases admitAccess_cases h.srv c.threadId .read (clampAccessSize c.req) false false with
    ⟨resp, s', heq, hbad⟩ | ⟨-, s', hs', heq⟩
  · rw [heq] at hmem ⊢
    exact ⟨hmem, fun hok => absurd hok hbad⟩
  · rw [heq] at hq hmem ⊢
    have hsame : s'.mem = h.latest ∧ s'.header = h.srv.header := by rw [hs', ← hi]; exact ⟨rfl, rfl⟩
    have haddr : (clampAccessSize c.req).addr = c.req.addr := by unfold clampAccessSize; split_ifs <;> rfl
    -- a read stores nothing of its own, so memory is as it was
    have hstored := (performRead_mem s' ⟨c.threadId, .read, clampAccessSize c.req⟩ c.env).2
    refine ⟨hmem.trans (congrArg (storeAll h.srv.mem) hstored), fun hok i hlt => ?_⟩
    rw [← haddr, ← hsame.1, ← hsame.2]
    exact performRead_data (hq rfl) hok hlt

/-- If reads find no queued data newer than the last access of their line, a read answered 0 returns the latest values. -/
theorem reads_latest (srv : ServerState) (calls : List Call)
    (hq : AllSteps step NoNewerData (start srv) calls) : AllSteps step ReadsLatest (start srv) calls :=
  Core.allSteps_of_inv (P := fun h => h.srv.mem = h.latest) (fun _ _ hi hc => step_latest hi hc)
    (fun _ _ hi hc => readsLatest_of_quiet hi hc) rfl hq

theorem reads_latest_two_writes : AllSteps step NoNewerData (start plainServer) (twoWrites 101) ∧
      AllSteps step ReadsLatest (start plainServer) (twoWrites 101) :=
  have hq : AllSteps step NoNewerData (start plainServer) (twoWrites 101) := by decide
  ⟨hq, reads_latest plainServer (twoWrites 101) hq⟩

end CxlMemSim.Server.Consistency
