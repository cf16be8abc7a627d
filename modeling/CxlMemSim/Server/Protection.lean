/-
Write protection of the fabric: which stores the fabric's checks stand behind.

Model: `n` workers serve requests from TCP and the SHM ring. A request is handled up to `memory_mutex` in one step
(`admitRequest`) and finished in a later one (`perform`). Its host is its thread id, for the ring the client id.
-/
import CxlMemSim.Fabric.Permission
import CxlMemSim.Server.Requests

namespace CxlMemSim.Server.Protection

open CxlMemSim.Core Function
open Dcd
open Gfam

/-! ## Workers -/

inductive Transport where
  | tcp
  | shm
deriving DecidableEq, Repr

/-- TCP drops the connection on an unknown code and clamps sizes, the ring does neither; `GET_SHM_INFO` is answered by
the transport -/
def receive (tr : Transport) (req : ServerRequest) : Option ServerRequest :=
  let op := OpType.ofCode req.opType
  match tr with
  | .tcp =>
    if req.opType > opMax then none
    else if op = .getShmInfo then none
    else if (op = .read ∨ op = .write ∨ op = .lsaRead ∨ op = .lsaWrite) ∧ req.size > 64 then
      some { req with size := 64 }
    else some req
  | .shm => if op = .getShmInfo then none else some req

structure Sys (n : ℕ) where
  srv : ServerState
  pending : Fin n → Option Job

inductive Label (n : ℕ) where
  | arrive (w : Fin n) (tr : Transport) (threadId : Int32) (req : ServerRequest)
  | finish (w : Fin n) (env : Env)

variable {n : ℕ}

def arrive (s : Sys n) (w : Fin n) (threadId : Int32) (req : ServerRequest) : Sys n :=
  match admitRequest s.srv threadId req with
  | .answered _ srv => { s with srv }
  | .locked job srv => ⟨srv, update s.pending w (some job)⟩

def step (s : Sys n) : Label n → Sys n
  | .arrive w tr threadId req =>
    if s.srv.halted ∨ (s.pending w).isSome then s
    else
      match receive tr req with
      | none => s
      | some req => arrive s w threadId req
  | .finish w env =>
    if s.srv.halted then s
    else
      match s.pending w with
      | none => s
      | some job => ⟨(perform s.srv job env).server, update s.pending w none⟩

def start (n : ℕ) (srv : ServerState) : Sys n := ⟨srv, fun _ => none⟩

/-! ## Statement -/

def isAtomic (job : Job) : Bool := job.kind = .faa || job.kind = .cas

def accessed (job : Job) : UInt64 := if isAtomic job then 8 else job.req.size

def MayStore (s : ServerState) (job : Job) (o : ℕ) : Prop :=
  ∃ d ∈ s.controller.dcdDevice, ∃ g ∈ s.controller.gfamDevice, hostActive g job.threadId.toUInt32 = true ∧
    (∃ i < (accessed job).toNat, o = byteOf s.header (job.req.addr + UInt64.ofNat i) ∧
      ∃ e ∈ d.extents, e.active = true ∧ e.base.toNat ≤ job.req.addr.toNat + i ∧
        job.req.addr.toNat + i < e.base.toNat + e.size.toNat) ∧
    ∃ m ∈ g.mappings, Grants m job.threadId.toUInt32 job.req.addr (accessed job)
      (requiredPermissions true (isAtomic job))

instance (m : GFAMMapping) (h : UInt32) (a n : UInt64) (p : UInt32) : Decidable (Grants m h a n p) := by
  unfold Grants; infer_instance

instance (s : ServerState) (job : Job) (o : ℕ) : Decidable (MayStore s job o) := by unfold MayStore; infer_instance

def Protected (s : Sys n) (l : Label n) : Prop :=
  ∀ o, (step s l).srv.mem o ≠ s.srv.mem o → match l with
    | .arrive _ _ _ _ => False
    | .finish w _ => ∃ job ∈ s.pending w, MayStore s.srv job o

def JobSound (s : ServerState) (job : Job) : Prop :=
  match job.kind with
  | .read => QuietLine s job.line
  | .write => OpType.ofCode job.req.opType = .write
  | .faa | .cas => job.req.size = 8
  | .fence => True
  | .writeback => False

instance (s : ServerState) (job : Job) : Decidable (JobSound s job) := by
  unfold JobSound
  cases job.kind <;> infer_instance

def takesAway (op : OpType) : Bool := op = .dcdRelease || op = .gfamMap || op = .gfamUnmap

def isStore (job : Job) : Bool := job.kind = .write || isAtomic job

/-- permissions are taken away only while no store is on its way, and what is finished is sound -/
def Sound (s : Sys n) : Label n → Prop
  | .arrive _ _ _ req => takesAway (OpType.ofCode req.opType) = true → ∀ w, ∀ job ∈ s.pending w, ¬ isStore job = true
  | .finish w _ => ∀ job ∈ s.pending w, JobSound s.srv job

instance (s : Sys n) (l : Label n) : Decidable (Sound s l) := by cases l <;> unfold Sound <;> infer_instance

/-! ## Stores the fabric does not stand behind -/

/-- one page of memory and of capacity, given to hosts 0 and 1 with every permission -/
def fabricServer : ServerState :=
  .new ⟨.mapped, 0, 64⟩ (fun _ => 0) (enableGfam (enableDcd ⟨none, none⟩ 4096 64 4096 1) [] 0 2)

def request (opType : UInt8) (addr size timestamp value expected : UInt64) (byte : UInt8) : ServerRequest :=
  ⟨opType, addr, size, timestamp, value, expected, fun _ => byte⟩

def serve (tr : Transport) (threadId : Int32) (req : ServerRequest) : List (Label 2) :=
  [.arrive 0 tr threadId req, .finish 0 .good]

def readOnly : List (Label 2) := serve .tcp 0 (request 11 0 4096 0 1 1 0)

def writebackRun : List (Label 2) := serve .tcp 9 (request 17 0 8 1 0 0 7)

def unknownCodeRun : List (Label 2) := readOnly ++ serve .shm 1 (request 21 0 8 1 0 0 7)

def shortAtomicRun : List (Label 2) :=
  serve .tcp 0 (request 12 0 4096 0 1 0 0) ++ serve .tcp 0 (request 11 0 1 0 1 0 0) ++
    serve .tcp 1 (request 3 0 1 1 256 0 0)

/-- host 0 writes a line twice, the second time with a smaller timestamp; host 1, which may only read, applies the
queued data -/
def queuedDataRun : List (Label 2) :=
  serve .tcp 1 (request 0 0 8 1 0 0 0) ++ serve .tcp 0 (request 1 8 8 100 0 0 7) ++
    serve .tcp 0 (request 1 0 8 5 0 0 9) ++ readOnly ++ serve .tcp 1 (request 0 0 8 6 0 0 0)

/-- the mapping of host 1 is taken away between the check of its write and the store -/
def revokedRun : List (Label 2) :=
  [.arrive 0 .tcp 1 (request 1 0 8 1 0 0 7), .arrive 1 .tcp 0 (request 12 0 4096 0 1 0 0), .finish 0 .good]

/-- Five ways around the fabric. -/
theorem unprotected_stores : ¬ AllSteps step Protected (start 2 fabricServer) writebackRun ∧
      ¬ AllSteps step Protected (start 2 fabricServer) unknownCodeRun ∧
      ¬ AllSteps step Protected (start 2 fabricServer) shortAtomicRun ∧
      ¬ AllSteps step Protected (start 2 fabricServer) queuedDataRun ∧
      ¬ AllSteps step Protected (start 2 fabricServer) revokedRun := by
  refine ⟨fun h => ?_, fun h => ?_, fun h => ?_, fun h => ?_, fun h => ?_⟩
  · obtain ⟨job, hjob, hmay⟩ := h.2.1 0 (by decide)
    cases hjob
    exact absurd hmay (by decide)
  · obtain ⟨job, hjob, hmay⟩ := h.2.2.2.1 0 (by decide)
    cases hjob
    exact absurd hmay (by decide)
  · obtain ⟨job, hjob, hmay⟩ := h.2.2.2.2.2.1 1 (by decide)
    cases hjob
    exact absurd hmay (by decide)
  · obtain ⟨job, hjob, hmay⟩ := h.2.2.2.2.2.2.2.2.2.1 0 (by decide)
    cases hjob
    exact absurd hmay (by decide)
  · obtain ⟨job, hjob, hmay⟩ := h.2.2.1 0 (by decide)
    cases hjob
    exact absurd hmay (by decide)

/-! ## What admission does to the fabric -/

lemma keeps_checkFabricAccess (c : Controller) (t : Int32) (req : ServerRequest) (w a : Bool) :
    Keeps c (checkFabricAccess c t req w a).2 := by
  unfold checkFabricAccess
  split_ifs
  · exact .refl c
  · exact keeps_gfamRecordAccess ..

variable {c : Controller} {t : Int32} {req : ServerRequest} {s : ServerState}

lemma allowed_of_checkFabricAccess {w a : Bool}
    (hen : c.gfamDevice.isSome = true) (hpass : (checkFabricAccess c t req w a).1 = none) :
    Allowed (checkFabricAccess c t req w a).2 t.toUInt32 req.addr req.size w a := by
  have hkeeps := keeps_checkFabricAccess c t req w a
  apply hkeeps.allowed
  unfold checkFabricAccess at hpass
  split_ifs at hpass
  apply allowed_of_recordAccess hen
  by_contra hno
  dsimp only at hpass
  rw [if_neg hno] at hpass
  cases hpass

section

variable (s : ServerState) (t : Int32)

lemma keeps_admitAccess (kind : JobKind) (req : ServerRequest) (w a : Bool) :
    Keeps s.controller (admitAccess s t kind req w a).server.controller := by
  have hkeeps := keeps_checkFabricAccess s.controller t req w a
  unfold admitAccess
  dsimp only
  split
  · exact hkeeps
  · split_ifs <;> exact hkeeps

lemma keeps_handleRangeRequest (w : Bool) (req : ServerRequest) :
    Keeps s.controller (handleRangeRequest s t w req).2.controller := by
  have hkeeps := keeps_checkFabricAccess s.controller t req w false
  unfold handleRangeRequest
  dsimp only
  split
  · exact .refl _
  · split <;> exact hkeeps

lemma keeps_handleCapacityManagementRequest (req : ServerRequest) (hop : takesAway (OpType.ofCode req.opType) = false) :
    Keeps s.controller (handleCapacityManagementRequest s t req).2.controller := by
  unfold handleCapacityManagementRequest
  dsimp only
  split
  · have hadd := keeps_dcdAddCapacity s.controller req.addr req.size req.value req.timestamp
    split_ifs
    · exact hadd.trans (keeps_grantAll ..)
    · exact hadd
  · rename_i heq
    rw [heq] at hop
    cases hop
  · exact .refl _
  · rename_i heq
    rw [heq] at hop
    cases hop
  · rename_i heq
    rw [heq] at hop
    cases hop
  · exact .refl _
  · exact .refl _

lemma handleBiRequest_controller (req : ServerRequest) : (handleBiRequest s t req).2.controller = s.controller := by
  have hq : ∀ (lines : List UInt64) (s : ServerState),
      (lines.foldl (fun s line => registerBackInvalidation s line [] req.timestamp) s).controller = s.controller := by
    intro lines
    induction lines with
    | nil => exact fun _ => rfl
    | cons line lines ih => exact fun s => ih (registerBackInvalidation s line [] req.timestamp)
  unfold handleBiRequest
  dsimp only
  split
  · rfl
  · rfl
  · unfold handleBiInvalidate
    split
    · rfl
    · split
      · rfl
      · exact hq _ s
  · rfl
  · rfl

end

lemma handleLsaRequest_controller (s : ServerState) (w : Bool) (req : ServerRequest) :
    (handleLsaRequest s w req).2.controller = s.controller := by
  unfold handleLsaRequest
  dsimp only
  split_ifs <;> rfl

lemma keeps_admitRequest (s : ServerState) (t : Int32) (req : ServerRequest)
    (hop : takesAway (OpType.ofCode req.opType) = false) :
    Keeps s.controller (admitRequest s t req).server.controller := by
  have hbi : Keeps s.controller (handleBiRequest s t req).2.controller := by
    rw [handleBiRequest_controller]; exact .refl _
  have hlsa : ∀ w, Keeps s.controller (handleLsaRequest s w req).2.controller := by
    intro w; rw [handleLsaRequest_controller]; exact .refl _
  unfold admitRequest
  split
  case h_3 => exact .refl _
  case h_10 =>
    unfold admitWriteback
    dsimp only
    split_ifs <;> exact .refl _
  all_goals
    first
    | exact keeps_admitAccess ..
    | exact keeps_handleCapacityManagementRequest s t req hop
    | exact hbi
    | exact keeps_handleRangeRequest ..
    | exact hlsa _

lemma admitRequest_enabled (t : Int32) (req : ServerRequest) (hen : s.controller.gfamDevice.isSome = true) :
    (admitRequest s t req).server.controller.gfamDevice.isSome = true := by
  by_cases hop : takesAway (OpType.ofCode req.opType) = false
  · exact (keeps_admitRequest s t req hop).enabled hen
  · simp only [takesAway, Bool.or_eq_false_iff, decide_eq_false_iff_not, not_and_or, not_not] at hop
    have hadm : admitRequest s t req = answer (handleCapacityManagementRequest s t req) := by
      rcases hop with (hop | hop) | hop <;> simp only [admitRequest, hop]
    rw [hadm]
    change (handleCapacityManagementRequest s t req).2.controller.gfamDevice.isSome = true
    rcases hop with (hop | hop) | hop
    · simp only [handleCapacityManagementRequest, hop, dcdReleaseCapacity]
      split
      · exact hen
      · split_ifs
        · simpa using hen
        · exact hen
    · simp only [handleCapacityManagementRequest, hop, gfamGrantAccess]
      split
      · rfl
      · exact hen
    · simp only [handleCapacityManagementRequest, hop, gfamRevokeAccess]
      split
      · exact hen
      · rfl

/-! ## Stores on their way are allowed -/

/-- the fabric stands behind the job, if it is a store the fabric was asked for as such -/
def Entitled (c : Controller) (job : Job) : Prop :=
  match job.kind with
  | .write =>
    OpType.ofCode job.req.opType = .write → Allowed c job.threadId.toUInt32 job.req.addr job.req.size true false
  | .faa | .cas => Allowed c job.threadId.toUInt32 job.req.addr job.req.size true true
  | .read | .fence | .writeback => True

variable {job : Job}

lemma Entitled.keep {c' : Controller} (h : Entitled c job) (hk : Keeps c c') : Entitled c' job := by
  unfold Entitled at h ⊢
  cases hkind : job.kind with
  | write => rw [hkind] at h; exact fun hop => hk.allowed (h hop)
  | faa | cas => rw [hkind] at h; exact hk.allowed h
  | read | fence | writeback => trivial

lemma Entitled.of_not_store (h : ¬ isStore job = true) : Entitled c job := by
  unfold isStore isAtomic at h
  unfold Entitled
  cases hkind : job.kind <;> simp_all

lemma clampAccessSize_opType (req : ServerRequest) : (clampAccessSize req).opType = req.opType := by
  unfold clampAccessSize; split_ifs <;> rfl

variable {s' : ServerState}

lemma entitled_admitAccess {kind : JobKind} {w a : Bool}
    (hen : s.controller.gfamDevice.isSome = true) (h : admitAccess s t kind req w a = .locked job s') :
    job = ⟨t, kind, req⟩ ∧ Allowed s'.controller t.toUInt32 req.addr req.size w a := by
  rcases admitAccess_cases s t kind req w a with ⟨resp, s'', heq, -⟩ | ⟨hpass, s'', hs'', heq⟩
  · rw [heq] at h
    cases h
  · rw [heq] at h
    cases h
    exact ⟨rfl, by rw [hs'']; exact allowed_of_checkFabricAccess hen hpass⟩

lemma entitled_admitRequest (hen : s.controller.gfamDevice.isSome = true) (h : admitRequest s t req = .locked job s') :
    Entitled s'.controller job := by
  cases hop : OpType.ofCode req.opType with
  | atomicFaa | atomicCas =>
    simp only [admitRequest, hop] at h
    obtain ⟨rfl, hall⟩ := entitled_admitAccess hen h
    exact hall
  | read =>
    simp only [admitRequest, hop] at h
    obtain ⟨rfl, -⟩ := entitled_admitAccess hen h
    trivial
  | write =>
    simp only [admitRequest, hop] at h
    obtain ⟨rfl, hall⟩ := entitled_admitAccess hen h
    exact fun _ => hall
  | getShmInfo | unknown code =>
    simp only [admitRequest, hop] at h
    obtain ⟨rfl, -⟩ := entitled_admitAccess hen h
    intro hw
    rw [clampAccessSize_opType, hop] at hw
    cases hw
  | fence =>
    simp only [admitRequest, hop] at h
    cases h
    trivial
  | biWriteback =>
    simp only [admitRequest, hop, admitWriteback] at h
    split_ifs at h
    cases h
    trivial
  | _ =>
    simp only [admitRequest, hop, answer] at h
    cases h

structure Inv (s : Sys n) : Prop where
  enabled : s.srv.controller.gfamDevice.isSome = true
  pending : ∀ w, ∀ job ∈ s.pending w, Entitled s.srv.controller job

lemma inv_start {srv : ServerState} (h : srv.controller.gfamDevice.isSome = true) : Inv (start n srv) :=
  ⟨h, fun _ _ hjob => by cases hjob⟩

lemma registerBackInvalidation_repeat_controller (s : ServerState) (line : UInt64) (data : List UInt8) (ts : UInt64)
    (k : ℕ) : (k.repeat (fun s => registerBackInvalidation s line data ts) s).controller = s.controller := by
  induction k with
  | zero => rfl
  | succ k ih => exact ih

lemma perform_controller (s : ServerState) (job : Job) (env : Env) :
    (perform s job env).server.controller = s.controller := by
  unfold perform
  split
  · unfold performRead
    dsimp only
    split_ifs <;> rfl
  · unfold performWrite
    dsimp only
    split_ifs
    · rfl
    · exact registerBackInvalidation_repeat_controller ..
  · unfold performFaa
    dsimp only
    split_ifs <;> rfl
  · unfold performCas
    dsimp only
    split_ifs <;> rfl
  · rfl
  · unfold performWriteback
    dsimp only
    split_ifs <;> rfl

lemma arrive_inv {s : Sys n} (hi : Inv s) (w : Fin n) (t : Int32) (req : ServerRequest)
    (hs : takesAway (OpType.ofCode req.opType) = true → ∀ w, ∀ job ∈ s.pending w, ¬ isStore job = true) :
    Inv (arrive s w t req) := by
  have hen := admitRequest_enabled t req hi.enabled
  -- a job that waits stays entitled: either nothing was taken away, or it is no store
  have hwait : ∀ w, ∀ job ∈ s.pending w, Entitled (admitRequest s.srv t req).server.controller job := by
    intro w job hjob
    by_cases hop : takesAway (OpType.ofCode req.opType) = true
    · exact .of_not_store (hs hop w job hjob)
    · exact (hi.pending w job hjob).keep (keeps_admitRequest _ t req (by simpa using hop))
  unfold arrive
  cases hadm : admitRequest s.srv t req with
  | answered resp srv =>
    rw [hadm] at hen hwait
    exact ⟨hen, hwait⟩
  | locked job srv =>
    rw [hadm] at hen hwait
    dsimp only
    refine ⟨hen, fun w' job' hjob' => ?_⟩
    dsimp only at hjob' ⊢
    by_cases hw : w' = w
    · subst hw
      rw [update_self] at hjob'
      cases hjob'
      exact entitled_admitRequest hi.enabled hadm
    · rw [update_of_ne hw] at hjob'
      exact hwait w' job' hjob'

lemma receive_opType {tr : Transport} {req' : ServerRequest} (h : receive tr req = some req') :
    req'.opType = req.opType := by
  unfold receive at h
  dsimp only at h
  cases tr with
  | tcp =>
    dsimp only at h
    split_ifs at h <;> (cases h; rfl)
  | shm =>
    dsimp only at h
    split_ifs at h
    cases h
    rfl

lemma step_cases (s : Sys n) (l : Label n) : step s l = s ∨
      (∃ w tr t req req', l = .arrive w tr t req ∧ receive tr req = some req' ∧ step s l = arrive s w t req') ∨
      ∃ w env job, l = .finish w env ∧ s.pending w = some job ∧
        step s l = ⟨(perform s.srv job env).server, update s.pending w none⟩ := by
  cases l with
  | arrive w tr t req =>
    simp only [step]
    split_ifs
    · exact .inl rfl
    · cases hrec : receive tr req with
      | none => exact .inl rfl
      | some req' => exact .inr (.inl ⟨w, tr, t, req, req', rfl, hrec, rfl⟩)
  | finish w env =>
    simp only [step]
    split_ifs
    · exact .inl rfl
    · cases hjob : s.pending w with
      | none => exact .inl rfl
      | some job => exact .inr (.inr ⟨w, env, job, rfl, hjob, rfl⟩)

variable {l : Label n}

lemma step_inv {s : Sys n} (hi : Inv s) (hs : Sound s l) : Inv (step s l) := by
  rcases step_cases s l with heq | ⟨w, tr, t, req, req', rfl, hrec, heq⟩ | ⟨w, env, job, rfl, hjob, heq⟩
  · rw [heq]
    exact hi
  · rw [heq]
    exact arrive_inv hi w t req' (by rw [receive_opType hrec]; exact hs)
  · rw [heq]
    refine ⟨by rw [perform_controller]; exact hi.enabled, fun w' job' hjob' => ?_⟩
    dsimp only at hjob' ⊢
    rw [perform_controller]
    by_cases hw : w' = w
    · subst hw
      rw [update_self] at hjob'
      cases hjob'
    · rw [update_of_ne hw] at hjob'
      exact hi.pending w' job' hjob'

/-! ## What a sound job may store -/

lemma mayStore_of_allowed {i : ℕ}
    (hall : Allowed s.controller job.threadId.toUInt32 job.req.addr (accessed job) true (isAtomic job))
    (hlt : i < (accessed job).toNat) : MayStore s job (byteOf s.header (job.req.addr + UInt64.ofNat i)) := by
  obtain ⟨d, hd, g, hg, hcheck⟩ := hall
  obtain ⟨halloc, hactive, hmap⟩ := checkAccess_iff.mp hcheck
  obtain ⟨-, e, he, hact, hcover⟩ := isAllocated_iff.mp halloc
  obtain ⟨-, hlo, hhi⟩ := hcover
  exact ⟨d, hd, g, hg, hactive, ⟨i, hlt, rfl, e, he, hact, by omega, by omega⟩, hmap⟩

variable {env : Env} {o : ℕ}

lemma stored_accessed (hstore : isStore job = true) {v : UInt8} (h : (o, v) ∈ (perform s job env).stored) :
    ∃ i < (accessed job).toNat, o = byteOf s.header (job.req.addr + UInt64.ofNat i) := by
  have h8 : (8 : UInt64).toNat = 8 := rfl
  unfold perform at h
  cases hkind : job.kind with
  | write =>
    have hput : (performWrite s job env).stored =
        (writeCacheline s.header job.req.addr job.req.data job.req.size.toNat env.write).2 := by
      unfold performWrite
      dsimp only
      split_ifs <;> rfl
    simp only [hkind, hput] at h
    obtain ⟨i, hlt, ho, -⟩ := writeCacheline_mem h
    exact ⟨i, by simpa [accessed, isAtomic, hkind] using hlt, ho⟩
  | faa =>
    have hput : (performFaa s job env).stored =
        (atomicFetchAddUint64 s.header s.mem job.req.addr job.req.value env.read env.write).stores := by
      unfold performFaa
      dsimp only
      split_ifs <;> rfl
    simp only [hkind, hput] at h
    obtain ⟨i, hlt, ho⟩ := atomicFetchAddUint64_mem h
    exact ⟨i, by simpa [accessed, isAtomic, hkind] using hlt, ho⟩
  | cas =>
    have hput : (performCas s job env).stored = (atomicCompareExchangeUint64 s.header s.mem job.req.addr
        job.req.expected job.req.value env.read env.write).stores := by
      unfold performCas
      dsimp only
      split_ifs <;> rfl
    simp only [hkind, hput] at h
    obtain ⟨i, hlt, ho⟩ := atomicCompareExchangeUint64_mem h
    exact ⟨i, by simpa [accessed, isAtomic, hkind] using hlt, ho⟩
  | read | fence | writeback => simp [isStore, isAtomic, hkind] at hstore

lemma perform_protected (hent : Entitled s.controller job)
    (hs : JobSound s job) (hne : (perform s job env).server.mem o ≠ s.mem o) : MayStore s job o := by
  by_cases hread : job.kind = .read
  · -- a quiet line: the read changes nothing
    simp only [JobSound, hread] at hs
    rw [show perform s job env = performRead s job env by simp only [perform, hread], (performRead_mem s job env).1,
      checkAndApplyBackInvalidations_mem _ hs] at hne
    exact absurd rfl hne
  · rw [perform_mem s job env hread] at hne
    obtain ⟨v, hv⟩ := exists_store_of_ne hne
    have hstore : isStore job = true := by
      cases hkind : job.kind with
      | read => exact absurd hkind hread
      | fence => simp [perform, hkind] at hv
      | writeback => simp [JobSound, hkind] at hs
      | _ => simp [isStore, isAtomic, hkind]
    obtain ⟨i, hlt, rfl⟩ := stored_accessed hstore hv
    refine mayStore_of_allowed ?_ hlt
    unfold Entitled at hent
    unfold JobSound at hs
    cases hkind : job.kind with
    | write =>
      rw [hkind] at hent hs
      simpa [accessed, isAtomic, hkind] using hent hs
    | faa | cas =>
      rw [hkind] at hent hs
      simpa [accessed, isAtomic, hkind, hs] using hent
    | read => exact absurd hkind hread
    | fence | writeback => simp [isStore, isAtomic, hkind] at hstore

lemma arrive_mem (s : Sys n) (w : Fin n) (t : Int32) (req : ServerRequest) :
    (arrive s w t req).srv.mem = s.srv.mem := by
  have hsame := admitRequest_sameStorage s.srv t req
  unfold arrive
  cases hadm : admitRequest s.srv t req with
  | answered resp srv | locked job srv => rw [hadm] at hsame; exact hsame.mem

lemma step_protected {s : Sys n} (hi : Inv s) (hs : Sound s l) : Protected s l := by
  intro o hne
  rcases step_cases s l with heq | ⟨w, tr, t, req, req', rfl, hrec, heq⟩ | ⟨w, env, job, rfl, hjob, heq⟩
  · rw [heq] at hne
    exact absurd rfl hne
  · -- nothing is stored before the lock
    rw [heq, arrive_mem] at hne
    exact absurd rfl hne
  · rw [heq] at hne
    exact ⟨job, hjob, perform_protected (hi.pending w job hjob) (hs job hjob) hne⟩

/-- With GFAM enabled and sound steps a byte changes only when the request being finished may store it. -/
theorem stores_are_protected (srv : ServerState) (hen : srv.controller.gfamDevice.isSome = true)
    (labels : List (Label n)) (hs : AllSteps step Sound (start n srv) labels) :
    AllSteps step Protected (start n srv) labels :=
  Core.allSteps_of_inv (P := Inv) (fun _ _ hi hc => step_inv hi hc) (fun _ _ hi hc => step_protected hi hc)
    (inv_start hen) hs

def orderlyRun : List (Label 2) :=
  serve .tcp 1 (request 1 8 8 1 0 0 7) ++ serve .shm 1 (request 3 16 8 2 5 0 0) ++
    serve .tcp 0 (request 0 8 8 3 0 0 0) ++ serve .tcp 0 (request 12 0 4096 4 1 0 0)

theorem stores_are_protected_orderly : fabricServer.controller.gfamDevice.isSome = true ∧
      AllSteps step Sound (start 2 fabricServer) orderlyRun ∧
      (run step (start 2 fabricServer) orderlyRun).srv.mem 8 = 7 ∧
      AllSteps step Protected (start 2 fabricServer) orderlyRun :=
  have hen : fabricServer.controller.gfamDevice.isSome = true := by decide
  have hs : AllSteps step Sound (start 2 fabricServer) orderlyRun := by decide
  ⟨hen, hs, by decide, stores_are_protected fabricServer hen orderlyRun hs⟩

end CxlMemSim.Server.Protection
