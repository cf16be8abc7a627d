/-
Capacity management over PGAS slots against the same requests over TCP. Both make the same calls of the controller, but
a slot is first tested for an address in range, and here the address is a base on the device, unused, or UINT64_MAX for
"anywhere".
-/
import CxlMemSim.Server.Pgas

namespace CxlMemSim.Server.Pgas

open CxlMemSim.Core
open Dcd
open Gfam

/-! ## The requests -/

inductive MgmtOp where
  | dcdAdd
  | dcdRelease
  | dcdQuery
  | gfamMap
  | gfamUnmap
  | gfamQuery
deriving DecidableEq, Repr

def MgmtOp.tcpCode : MgmtOp → UInt8
  | .dcdAdd => 8
  | .dcdRelease => 9
  | .dcdQuery => 10
  | .gfamMap => 11
  | .gfamUnmap => 12
  | .gfamQuery => 13

def MgmtOp.pgasCode : MgmtOp → UInt32
  | .dcdAdd => 10
  | .dcdRelease => 11
  | .dcdQuery => 12
  | .gfamMap => 13
  | .gfamUnmap => 14
  | .gfamQuery => 15

/-- the bytes of data in which the operation reports, 0 if it reports a status only -/
def MgmtOp.reported : MgmtOp → ℕ
  | .dcdAdd => 16
  | .dcdQuery => 32
  | .gfamQuery => 48
  | .dcdRelease | .gfamMap | .gfamUnmap => 0

structure Mgmt where
  op : MgmtOp
  addr : UInt64
  size : UInt64
  value : UInt64
  expected : UInt64
  timestamp : UInt64
deriving DecidableEq, Repr

def Mgmt.request (m : Mgmt) (payload : Buf) : ServerRequest :=
  ⟨m.op.tcpCode, m.addr, m.size, m.timestamp, m.value, m.expected, payload⟩

def Mgmt.slot (m : Mgmt) (payload : Buf) : Slot :=
  ⟨m.op.pgasCode, .none, m.addr, m.size, m.value, m.expected, m.timestamp, payload⟩

structure SameResult (op : MgmtOp) (pgas : Reply) (tcp : Served) : Prop where
  controller : pgas.1.controller = tcp.server.controller
  status : pgas.2.respStatus = if tcp.resp.status = 0 then .ok else .error
  value : 0 < op.reported → pgas.2.value = tcp.resp.oldValue
  data : ∀ k < op.reported, pgas.2.data k = tcp.resp.data k

def Mgmt.permissions (m : Mgmt) : UInt32 := if m.expected = 0 then permAll else m.expected.toUInt32

/-- the controller refuses and stays as it is, with nothing to report that the slot does not hold -/
def RefusedAnyway (c : Controller) (m : Mgmt) (payload : Buf) : Prop :=
  match m.op with
  | .dcdAdd => c.dcdDevice = none ∧ m.value = 0 ∧ ∀ k < 16, payload k = 0
  | .dcdRelease => c.dcdDevice = none
  | .dcdQuery | .gfamQuery => False
  | .gfamMap => ∀ d ∈ c.dcdDevice, ∀ g ∈ c.gfamDevice,
      isAllocated d m.addr m.size = false ∨ m.permissions = 0 ∨ hostActive g m.value.toUInt32 = false
  | .gfamUnmap => ∀ g ∈ c.gfamDevice, ∀ mapping ∈ g.mappings, sameRange m.value.toUInt32 m.addr m.size mapping = false

def freeController : Controller := ⟨some (.new 0x400000 0x100000), none⟩

/-- Automatic placement refused. 1 MB at UINT64_MAX is granted over TCP and refused over PGAS. -/
theorem automatic_placement_refused : let m : Mgmt := ⟨.dcdAdd, u64Max, 0x100000, 0, 0, 0⟩
    (serveSlot ⟨0x400000, false, 0, fun _ => 0, freeController⟩ 0 (m.slot fun _ => 0) .good).2.respStatus = .error ∧
      (handleRequest (.new ⟨.mapped, 0, 0x10000⟩ (fun _ => 0) freeController) 0 (m.request fun _ => 0)
        .good).resp.status = 0 := by
  decide +kernel

/-! ## In range -/

def AgreeBelow (n : ℕ) (a b : Buf) : Prop := ∀ k < n, a k = b k

lemma agreeBelow_zero (a b : Buf) : AgreeBelow 0 a b := fun _ hk => absurd hk (Nat.not_lt_zero _)

lemma AgreeBelow.writeU64 {n : ℕ} {a b : Buf} (h : AgreeBelow n a b) (v : UInt64) :
    AgreeBelow (n + 8) (writeU64 a n v) (writeU64 b n v) := by
  intro k hk
  unfold Server.writeU64
  by_cases hin : n ≤ k ∧ k < n + 8
  · rw [memcpy_of_mem hin, memcpy_of_mem hin]
  · rw [memcpy_of_not_mem hin, memcpy_of_not_mem hin]
    exact h k (by omega)

lemma respOf_statusCode (status : DCDStatus) : respOf status = if statusCode status = 0 then .ok else .error := by
  cases status <;> rfl

def MgmtOp.pgasReq : MgmtOp → PgasReq
  | .dcdAdd => .dcdAdd
  | .dcdRelease => .dcdRelease
  | .dcdQuery => .dcdQuery
  | .gfamMap => .gfamMap
  | .gfamUnmap => .gfamUnmap
  | .gfamQuery => .gfamQuery

lemma ofCode_pgasCode (op : MgmtOp) : PgasReq.ofCode op.pgasCode = op.pgasReq := by cases op <;> rfl

def Mgmt.claimed (m : Mgmt) (payload : Buf) : Slot := { m.slot payload with reqType := 0 }

lemma serveSlot_mgmt (p : PgasServer) (i : UInt32) (m : Mgmt) (payload : Buf) (env : PgasEnv) :
    serveSlot p i (m.slot payload) env = if outOfRange p m.addr then reject p (m.claimed payload)
      else serveCode p i (m.claimed payload) env m.op.pgasReq := by
  unfold serveSlot
  rw [show (m.slot payload).reqType = m.op.pgasCode from rfl, ofCode_pgasCode]
  rfl

lemma handleRequest_mgmt (srv : ServerState) (t : Int32) (m : Mgmt) (payload : Buf) (env : Env) :
    handleRequest srv t (m.request payload) env = ⟨(handleCapacityManagementRequest srv t (m.request payload)).1,
        (handleCapacityManagementRequest srv t (m.request payload)).2, []⟩ := by
  obtain ⟨op, addr, size, value, expected, timestamp⟩ := m
  cases op <;> rfl

/-! ## What the controller refuses -/

section

variable (d : DynamicCapacityDevice) (base size tag timestamp : UInt64)

lemma addCapacity_counts : (addCapacity d base size tag timestamp).2.allocationRequests = d.allocationRequests + 1 := by
  unfold addCapacity
  dsimp only
  split <;> rfl

lemma releaseCapacity_counts :
    (releaseCapacity d base size tag timestamp).2.releaseRequests = d.releaseRequests + 1 := by
  unfold releaseCapacity
  dsimp only
  split_ifs
  · rfl
  · split <;> rfl

end

lemma gfamGrantAccess_dcdDevice (c : Controller) (host : UInt32) (base size : UInt64) (permissions : UInt32) :
    (gfamGrantAccess c host base size permissions).2.dcdDevice = c.dcdDevice := by
  unfold gfamGrantAccess
  split <;> rfl

variable {c : Controller} {d : DynamicCapacityDevice} {g : GFAMDevice} {host : UInt32} {base : UInt64}

section

variable (hd : c.dcdDevice = some d) (base size tag timestamp : UInt64)
include hd

lemma dcdAddCapacity_changes : (dcdAddCapacity c base size tag timestamp).2.dcdDevice ≠ c.dcdDevice := by
  intro h
  unfold dcdAddCapacity at h
  rw [hd] at h
  have hcount := congrArg DynamicCapacityDevice.allocationRequests (Option.some.inj h)
  rw [addCapacity_counts] at hcount
  exact absurd (add_eq_left.1 hcount) (by decide)

lemma dcdReleaseCapacity_changes : (dcdReleaseCapacity c base size tag timestamp).2.dcdDevice ≠ c.dcdDevice := by
  intro h
  unfold dcdReleaseCapacity at h
  rw [hd] at h
  dsimp only at h
  have hsame : (releaseCapacity d base size tag timestamp).2 = d := by split_ifs at h <;> exact Option.some.inj h
  have hcount := congrArg DynamicCapacityDevice.releaseRequests hsame
  rw [releaseCapacity_counts] at hcount
  exact absurd (add_eq_left.1 hcount) (by decide)

end

lemma grantAccess_ok_iff (d : DynamicCapacityDevice) (g : GFAMDevice) (host : UInt32) (base size : UInt64)
    (permissions : UInt32) : (grantAccess d g host base size permissions).1 = .ok ↔
      isAllocated d base size = true ∧ permissions ≠ 0 ∧ hostActive g host = true := by
  unfold grantAccess
  split_ifs with hrange hhost
  · rw [Bool.or_eq_true, Bool.not_eq_true', decide_eq_true_eq] at hrange
    refine iff_of_false nofun fun ⟨halloc, hperm, _⟩ => ?_
    rcases hrange with hfree | hnone
    · exact absurd halloc (by rw [hfree]; exact Bool.false_ne_true)
    · exact hperm hnone
  · rw [Bool.not_eq_true'] at hhost
    exact iff_of_false nofun fun ⟨_, _, hactive⟩ => absurd hactive (by rw [hhost]; exact Bool.false_ne_true)
  · rw [Bool.or_eq_true, not_or, Bool.not_eq_true', decide_eq_true_eq, Bool.not_eq_false] at hrange
    rw [Bool.not_eq_true', Bool.not_eq_false] at hhost
    exact iff_of_true rfl ⟨hrange.1, hrange.2, hhost⟩

variable {size : UInt64} {permissions : UInt32}

lemma grantAccess_refused (h : (grantAccess d g host base size permissions).1 ≠ .ok) :
    (grantAccess d g host base size permissions).2 = g := by
  unfold grantAccess at h ⊢
  split_ifs at h ⊢
  · rfl
  · rfl
  · exact absurd rfl h

lemma gfamGrantAccess_refused (h : (gfamGrantAccess c host base size permissions).1 ≠ .ok) :
    (gfamGrantAccess c host base size permissions).2 = c := by
  obtain ⟨dcd, gfam⟩ := c
  cases dcd with
  | none => rfl
  | some d =>
    cases gfam with
    | none => rfl
    | some g => exact congrArg (fun g => Controller.mk (some d) (some g)) (grantAccess_refused h)

lemma gfamGrantAccess_ne_ok :
    (gfamGrantAccess c host base size permissions).1 ≠ .ok ↔ ∀ d ∈ c.dcdDevice, ∀ g ∈ c.gfamDevice,
      isAllocated d base size = false ∨ permissions = 0 ∨ hostActive g host = false := by
  obtain ⟨dcd, gfam⟩ := c
  cases dcd with
  | none => simp [gfamGrantAccess]
  | some d =>
    cases gfam with
    | none => simp [gfamGrantAccess]
    | some g =>
      have hok := grantAccess_ok_iff d g host base size permissions
      show (grantAccess d g host base size permissions).1 ≠ .ok ↔ _
      simp only [ne_eq, hok, Option.mem_def, Option.some.injEq, forall_eq', not_and_or, Bool.not_eq_true, not_not]

lemma revokeAccess_ne_ok :
    (revokeAccess g host base size).1 ≠ .ok ↔ ∀ mapping ∈ g.mappings, sameRange host base size mapping = false := by
  have hdrop : (g.mappings.filter fun m => !sameRange host base size m).length = g.mappings.length ↔
      ∀ mapping ∈ g.mappings, sameRange host base size mapping = false := by
    simp only [List.length_filter_eq_length_iff, Bool.not_eq_true']
  unfold revokeAccess
  dsimp only
  split_ifs with hall
  · exact iff_of_true nofun (hdrop.1 hall)
  · exact iff_of_false (fun h => h rfl) fun h => hall (hdrop.2 h)

lemma revokeAccess_refused (h : (revokeAccess g host base size).1 ≠ .ok) : (revokeAccess g host base size).2 = g := by
  have hkeep := revokeAccess_ne_ok.1 h
  have hall : (g.mappings.filter fun m => !sameRange host base size m) = g.mappings :=
    List.filter_eq_self.2 fun m hm => by rw [hkeep m hm]; rfl
  unfold revokeAccess
  dsimp only
  rw [hall]

lemma gfamRevokeAccess_refused (h : (gfamRevokeAccess c host base size).1 ≠ .ok) :
    (gfamRevokeAccess c host base size).2 = c := by
  obtain ⟨dcd, gfam⟩ := c
  cases gfam with
  | none => rfl
  | some g => exact congrArg (fun g => Controller.mk dcd (some g)) (revokeAccess_refused h)

lemma gfamRevokeAccess_ne_ok : (gfamRevokeAccess c host base size).1 ≠ .ok ↔
      ∀ g ∈ c.gfamDevice, ∀ mapping ∈ g.mappings, sameRange host base size mapping = false := by
  obtain ⟨dcd, gfam⟩ := c
  cases gfam with
  | none => simp [gfamRevokeAccess]
  | some g =>
    show (revokeAccess g host base size).1 ≠ .ok ↔ _
    simp only [revokeAccess_ne_ok, Option.mem_def, Option.some.injEq, forall_eq']

/-! ## Both ways -/

lemma writeU64_zero (off : ℕ) : writeU64 (fun _ => 0) off 0 = fun _ => 0 := by
  funext k
  unfold writeU64
  by_cases hin : off ≤ k ∧ k < off + 8
  · rw [memcpy_of_mem hin]
    show UInt8.ofNat (0 / 256 ^ _) = 0
    rw [Nat.zero_div]
    rfl
  · rw [memcpy_of_not_mem hin]

lemma error_eq_iff (status : DCDStatus) :
    RespStatus.error = (if statusCode status = 0 then .ok else .error) ↔ status ≠ .ok := by
  cases status <;> decide

lemma handleCapacityManagementRequest_add (srv : ServerState) (t : Int32) (payload : Buf)
    (addr size value expected timestamp : UInt64) {r : DCDAllocationResult × Controller}
    (hr : dcdAddCapacity srv.controller addr size value timestamp = r) :
    handleCapacityManagementRequest srv t (Mgmt.request ⟨.dcdAdd, addr, size, value, expected, timestamp⟩ payload) =
      (⟨statusCode r.1.status, r.1.base, writeU64 (writeU64 (fun _ => 0) 0 r.1.size) 8 r.1.tag⟩, { srv with
          controller :=
            if r.1.status = .ok ∧ r.2.gfamDevice.isSome then
              (gfamGrantAccess r.2 t.toUInt32 r.1.base r.1.size permAll).2
            else r.2 }) := by
  subst hr
  unfold handleCapacityManagementRequest
  rw [show OpType.ofCode (Mgmt.request _ payload).opType = .dcdAdd from rfl]
  dsimp only [Mgmt.request]
  split_ifs <;> rfl

section Compare

variable {p : PgasServer} {srv : ServerState} (t : Int32) (payload payload' : Buf) (envP : PgasEnv) (env : Env)
  (hc : p.controller = srv.controller)

include hc

/-- In range. Both dispatchers make the same calls and report them alike. -/
lemma sameResult_in_range (m : Mgmt) (hrange : outOfRange p m.addr = false) :
    SameResult m.op (serveSlot p t.toUInt32 (m.slot payload) envP) (handleRequest srv t (m.request payload') env) := by
  rw [serveSlot_mgmt, handleRequest_mgmt, hrange, if_neg Bool.false_ne_true]
  obtain ⟨op, addr, size, value, expected, timestamp⟩ := m
  have hzero := agreeBelow_zero payload ServerResponse.zero.data
  cases op with
  | dcdAdd =>
    show SameResult _ (serveDcdAdd p t.toUInt32 _) _
    unfold serveDcdAdd handleCapacityManagementRequest
    rw [hc, show OpType.ofCode (Mgmt.request _ payload').opType = .dcdAdd from rfl]
    dsimp only [Mgmt.claimed, Mgmt.slot, Mgmt.request]
    have hdata := (hzero.writeU64 (dcdAddCapacity srv.controller addr size value timestamp).1.size).writeU64
      (dcdAddCapacity srv.controller addr size value timestamp).1.tag
    split_ifs
    · exact ⟨rfl, respOf_statusCode _, fun _ => rfl, hdata⟩
    · exact ⟨rfl, respOf_statusCode _, fun _ => rfl, hdata⟩
  | dcdRelease =>
    show SameResult _ (serveDcdRelease p _) _
    unfold serveDcdRelease
    rw [hc]
    exact ⟨rfl, respOf_statusCode _, nofun, nofun⟩
  | dcdQuery =>
    show SameResult _ (serveDcdQuery p _) _
    unfold serveDcdQuery
    rw [hc]
    exact ⟨hc, rfl, fun _ => rfl, (((hzero.writeU64 _).writeU64 _).writeU64 _).writeU64 _⟩
  | gfamMap =>
    show SameResult _ (serveGfamMap p _) _
    unfold serveGfamMap
    rw [hc]
    exact ⟨rfl, respOf_statusCode _, nofun, nofun⟩
  | gfamUnmap =>
    show SameResult _ (serveGfamUnmap p _) _
    unfold serveGfamUnmap
    rw [hc]
    exact ⟨rfl, respOf_statusCode _, nofun, nofun⟩
  | gfamQuery =>
    show SameResult _ (serveGfamQuery p _) _
    unfold serveGfamQuery
    rw [hc]
    exact ⟨hc, rfl, fun _ => rfl, (((((hzero.writeU64 _).writeU64 _).writeU64 _).writeU64 _).writeU64 _).writeU64 _⟩

/-- Out of range. The slot is rejected, as TCP answers exactly when the controller refuses anyway. -/
lemma sameResult_rejected (m : Mgmt) (hrange : outOfRange p m.addr = true) :
    SameResult m.op (serveSlot p t.toUInt32 (m.slot payload) envP) (handleRequest srv t (m.request payload') env) ↔
      RefusedAnyway srv.controller m payload := by
  rw [serveSlot_mgmt, handleRequest_mgmt, hrange, if_pos rfl]
  obtain ⟨op, addr, size, value, expected, timestamp⟩ := m
  cases op with
  | dcdAdd =>
    cases hd : srv.controller.dcdDevice with
    | none =>
      have hr : dcdAddCapacity srv.controller addr size value timestamp =
          (⟨.invalidRequest, 0, 0, value⟩, srv.controller) := by
        unfold dcdAddCapacity
        rw [hd]
      rw [handleCapacityManagementRequest_add srv t payload' addr size value expected timestamp hr]
      constructor
      · intro h
        have hvalue : value = 0 := h.value (Nat.succ_pos 15)
        subst hvalue
        refine ⟨hd, rfl, fun k hk => ?_⟩
        have hbyte := h.data k hk
        dsimp only at hbyte
        rw [writeU64_zero, writeU64_zero] at hbyte
        exact hbyte
      · rintro ⟨-, hvalue, hbytes⟩
        dsimp only at hvalue
        subst hvalue
        refine ⟨hc, rfl, fun _ => rfl, fun k hk => ?_⟩
        dsimp only
        rw [writeU64_zero, writeU64_zero]
        exact hbytes k hk
    | some d =>
      have hchange := dcdAddCapacity_changes hd addr size value timestamp
      rw [handleCapacityManagementRequest_add srv t payload' addr size value expected timestamp rfl]
      refine iff_of_false (fun h => hchange ?_) fun h => ?_
      · have hsame := congrArg Controller.dcdDevice (hc.symm.trans h.controller)
        dsimp only at hsame
        rw [apply_ite Controller.dcdDevice, gfamGrantAccess_dcdDevice, ite_self] at hsame
        exact hsame.symm
      · exact absurd (hd.symm.trans h.1) (Option.some_ne_none d)
  | dcdRelease =>
    cases hd : srv.controller.dcdDevice with
    | none =>
      have hr : dcdReleaseCapacity srv.controller addr size value timestamp = (.invalidRequest, srv.controller) := by
        unfold dcdReleaseCapacity
        rw [hd]
      refine iff_of_true ⟨?_, ?_, nofun, nofun⟩ hd
      · exact hc.trans (congrArg Prod.snd hr).symm
      · have hno : (dcdReleaseCapacity srv.controller addr size value timestamp).1 ≠ .ok := by
          rw [hr]
          exact nofun
        exact (error_eq_iff _).2 hno
    | some d =>
      have hchange := dcdReleaseCapacity_changes hd addr size value timestamp
      refine iff_of_false (fun h => hchange ?_) fun h => absurd (hd.symm.trans h) (Option.some_ne_none d)
      exact (congrArg Controller.dcdDevice (hc.symm.trans h.controller)).symm
  | dcdQuery | gfamQuery => exact iff_of_false (fun h => nomatch h.status) id
  | gfamMap =>
    show _ ↔ ∀ d ∈ srv.controller.dcdDevice, ∀ g ∈ srv.controller.gfamDevice, _
    rw [← gfamGrantAccess_ne_ok]
    constructor
    · intro h
      exact (error_eq_iff _).1 h.status
    · intro h
      exact ⟨hc.trans (gfamGrantAccess_refused h).symm, (error_eq_iff _).2 h, nofun, nofun⟩
  | gfamUnmap =>
    show _ ↔ ∀ g ∈ srv.controller.gfamDevice, _
    rw [← gfamRevokeAccess_ne_ok]
    constructor
    · intro h
      exact (error_eq_iff _).1 h.status
    · intro h
      exact ⟨hc.trans (gfamRevokeAccess_refused h).symm, (error_eq_iff _).2 h, nofun, nofun⟩

end Compare

/-- A management request leads to the same controller and report both ways, exactly when its address is taken for one in
range, or the controller refuses it anyway. -/
theorem sameResult_iff (p : PgasServer) (srv : ServerState) (t : Int32) (m : Mgmt) (payload payload' : Buf)
    (envP : PgasEnv) (env : Env) (hc : p.controller = srv.controller) :
    SameResult m.op (serveSlot p t.toUInt32 (m.slot payload) envP) (handleRequest srv t (m.request payload') env) ↔
      outOfRange p m.addr = false ∨ RefusedAnyway p.controller m payload := by
  cases hrange : outOfRange p m.addr with
  | false => exact iff_of_true (sameResult_in_range t payload payload' envP env hc m hrange) (Or.inl rfl)
  | true =>
    rw [hc, or_iff_right (by decide)]
    exact sameResult_rejected t payload payload' envP env hc m hrange

theorem sameResult_at_zero : SameResult .dcdAdd
        (serveSlot ⟨0x400000, false, 0, fun _ => 0, freeController⟩ 3
          (Mgmt.slot ⟨.dcdAdd, 0, 0x100000, 7, 0, 0⟩ fun _ => 0) .good)
        (handleRequest (.new ⟨.mapped, 0, 0x10000⟩ (fun _ => 0) freeController) 3
          (Mgmt.request ⟨.dcdAdd, 0, 0x100000, 7, 0, 0⟩ fun _ => 0) .good) :=
  (sameResult_iff ⟨0x400000, false, 0, fun _ => 0, freeController⟩
    (.new ⟨.mapped, 0, 0x10000⟩ (fun _ => 0) freeController) 3 ⟨.dcdAdd, 0, 0x100000, 7, 0, 0⟩ (fun _ => 0)
    (fun _ => 0) .good .good rfl).2 (Or.inl (by decide))

end CxlMemSim.Server.Pgas
