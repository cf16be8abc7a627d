/-
Mapped memory against the SSD streaming backend on the same PGAS requests. The mapped memory cuts an access off at the
end of its line and answers OK, the backend splits it.
-/
import CxlMemSim.Server.Pgas

namespace CxlMemSim.Server.Pgas

open CxlMemSim.Core
open Gfam

/-! ## The two servers -/

structure Call where
  slotIndex : UInt32
  slot : Slot
  env : PgasEnv

def serveCall (s : PgasServer) (c : Call) : Reply := serveSlot s c.slotIndex c.slot c.env

def onStorage (s : PgasServer) : PgasServer := { s with useStorageBackend := true }

structure Pair where
  mapped : PgasServer
  storage : PgasServer

def pairStep (p : Pair) (c : Call) : Pair := ⟨(serveCall p.mapped c).1, (serveCall p.storage c).1⟩

def startPair (memorySize baseAddr : UInt64) (mem : Buf) (controller : Controller) : Pair :=
  ⟨⟨memorySize, false, baseAddr, mem, controller⟩, ⟨memorySize, true, baseAddr, mem, controller⟩⟩

/-! ## Statement -/

def requested (slot : Slot) : ℕ := min slot.size.toNat 64

/-- a read answered OK returns all bytes, and a write answered OK stores them and nothing else -/
def Complete (s : PgasServer) (c : Call) : Prop :=
  (PgasReq.ofCode c.slot.reqType = .read → (serveCall s c).2.respStatus = .ok →
    ∀ j < requested c.slot, (serveCall s c).2.data j = s.mem (c.slot.addr.toNat + j)) ∧
  (PgasReq.ofCode c.slot.reqType = .write → (serveCall s c).2.respStatus = .ok →
    (serveCall s c).1.mem = memcpy s.mem c.slot.addr.toNat c.slot.data 0 (requested c.slot))

/-- both backings answer alike with the same memory, and what is answered OK is complete -/
structure Agree (p : Pair) (c : Call) : Prop where
  response : (serveCall p.mapped c).2 = (serveCall p.storage c).2
  memory : (pairStep p c).mapped.mem = (pairStep p c).storage.mem
  mapped : Complete p.mapped c
  storage : Complete p.storage c

def BackendWorks (env : PgasEnv) : Prop := env.read 0 = true ∧ env.write 0 = true ∧ env.flush = true

instance (env : PgasEnv) : Decidable (BackendWorks env) := inferInstanceAs (Decidable (_ ∧ _ ∧ _))

def InLine (slot : Slot) : Prop := 0 < requested slot ∧ slot.addr.toNat % 64 + requested slot ≤ 64

instance (slot : Slot) : Decidable (InLine slot) := inferInstanceAs (Decidable (_ ∧ _))

def Whole (s : PgasServer) (c : Call) : Prop :=
  outOfRange s c.slot.addr = false → BackendWorks c.env ∧ s.baseAddr = 0 ∧
      (PgasReq.ofCode c.slot.reqType = .read ∨ PgasReq.ofCode c.slot.reqType = .write → InLine c.slot)

instance (s : PgasServer) (c : Call) : Decidable (Whole s c) := inferInstanceAs (Decidable (_ → _ ∧ _ ∧ (_ → _)))

def countingPair : Pair := startPair 128 0 (fun k => UInt8.ofNat k) ⟨none, none⟩

/-- A read cut short. Eight bytes at 60: the mapped memory answers OK with four, the backend returns all eight. -/
theorem truncated_read : let cross : Call := ⟨0, ⟨1, .none, 60, 8, 0, 0, 0, fun _ => 0⟩, .good⟩
    let empty : Call := ⟨0, ⟨1, .none, 0, 0, 0, 0, 0, fun _ => 0⟩, .good⟩
    (serveCall countingPair.mapped cross).2.respStatus = .ok ∧ (serveCall countingPair.mapped cross).2.data 3 = 63 ∧
      (serveCall countingPair.mapped cross).2.data 4 = 0 ∧ (serveCall countingPair.storage cross).2.respStatus = .ok ∧
      (serveCall countingPair.storage cross).2.data 4 = 64 ∧ (serveCall countingPair.mapped empty).2.respStatus = .ok ∧
      (serveCall countingPair.storage empty).2.respStatus = .error := by
  decide +kernel

/-! ## The backend within one line -/

lemma outOfRange_iff (s : PgasServer) (addr : UInt64) :
    outOfRange s addr = false ↔ addr.toNat / 64 < s.memorySize.toNat / 64 := by
  unfold outOfRange numCachelines
  rw [decide_eq_false_iff_not, ge_iff_le, UInt64.not_le, UInt64.lt_iff_toNat_lt, UInt64.toNat_div, UInt64.toNat_div]
  rfl

variable {s : PgasServer} {addr : UInt64} {c : Call}

lemma storeAll_range (mem data : Buf) (o n : ℕ) :
    storeAll mem ((List.range n).map fun k => (o + k, data k)) = memcpy mem o data 0 n := by
  funext x
  by_cases hx : o ≤ x ∧ x < o + n
  · have hchunk := storeAll_chunk mem data o n (j := x - o) (by omega)
    rw [show o + (x - o) = x by omega] at hchunk
    rw [memcpy_of_mem hx, hchunk, Nat.zero_add]
  · rw [memcpy_of_not_mem hx]
    by_contra hne
    obtain ⟨v, hv⟩ := exists_store_of_ne hne
    obtain ⟨k, hk, heq⟩ := List.mem_map.1 hv
    have := (Prod.mk.inj heq).1
    rw [List.mem_range] at hk
    omega

lemma loadLE_lineBuffer (mem : Buf) (addr : UInt64) :
    UInt64.ofNat (loadLE (memcpy (fun _ => 0) 0 mem addr.toNat 8) 0 8) = entryWord mem addr := by
  have hcopy : loadLE (memcpy (fun _ => 0) 0 mem addr.toNat 8) 0 8 = loadLE mem addr.toNat 8 := by
    apply loadLE_congr
    intro k hk
    rw [memcpy_of_mem ⟨by omega, by omega⟩, Nat.zero_add, Nat.sub_zero]
  rw [entryWord, hcopy]

lemma storageHeader_mode : (storageHeader s).backingMode = .ssdStream := rfl

section

variable (hbase : s.baseAddr = 0) (hrange : outOfRange s addr = false)
include hbase hrange

lemma cachelineToIndex_storage :
    (cachelineToIndex (storageHeader s) (addrToCacheline addr)).toNat = addr.toNat / 64 ∧
      cachelineToIndex (storageHeader s) (addrToCacheline addr) < (storageHeader s).numCachelines := by
  rw [outOfRange_iff] at hrange
  have h64 : (64 : UInt64).toNat = 64 := rfl
  have hnum : (storageHeader s).numCachelines.toNat = s.memorySize.toNat / 64 := UInt64.toNat_div _ _
  have hzero : (storageHeader s).baseAddr = 0 := hbase
  have hne : ¬ (storageHeader s).numCachelines = 0 := by
    rw [← UInt64.toNat_inj, hnum]
    exact (Nat.zero_lt_of_lt hrange).ne'
  have hidx : (cachelineToIndex (storageHeader s) (addrToCacheline addr)).toNat = addr.toNat / 64 := by
    unfold cachelineToIndex
    rw [if_neg hne, if_pos hzero, UInt64.toNat_mod, UInt64.toNat_div, addrToCacheline_toNat, h64, hnum]
    rw [Nat.mul_div_cancel _ (by norm_num : 0 < 64)]
    exact Nat.mod_eq_of_lt hrange
  refine ⟨hidx, ?_⟩
  rw [UInt64.lt_iff_toNat_lt, hidx, hnum]
  exact hrange

lemma byteOf_storage : byteOf (storageHeader s) addr = addr.toNat := by
  have h64 : (64 : UInt64).toNat = 64 := rfl
  have ha := addr.toNat_lt
  unfold byteOf
  rw [UInt64.toNat_mul, (cachelineToIndex_storage hbase hrange).1, lineOffset_eq, h64]
  omega

variable {n : ℕ}

section

variable (hpos : 0 < n) (hline : addr.toNat % 64 + n ≤ 64)
include hpos hline

lemma in_line :
    pieces addr n n 0 = [⟨addr, 0, n⟩] ∧ (addressToBackendOffset (storageHeader s) addr n).isNone = false := by
  have hoffset := lineOffset_eq addr
  refine ⟨pieces_one_line hpos (by omega), ?_⟩
  unfold addressToBackendOffset
  rw [if_neg hpos.ne', if_neg (by omega), if_neg (UInt64.not_le.2 (cachelineToIndex_storage hbase hrange).2)]
  rfl

/-- A read of the backend in one line is one copy. -/
lemma readCacheline_in_line (buffer : Buf) {io : Io} (hio : io 0 = true) :
    readCacheline (storageHeader s) s.mem addr buffer n io = (true, memcpy buffer 0 s.mem addr.toNat n) := by
  obtain ⟨hone, hoff⟩ := in_line hbase hrange hpos hline
  unfold readCacheline
  rw [if_neg (by omega), if_pos storageHeader_mode, hone, readPieces, hoff, hio]
  simp only [Bool.false_eq_true, if_false, Bool.not_true, readPieces, copyOut, byteOf_storage hbase hrange]

/-- A write of the backend in one line stores its bytes in order. -/
lemma writeCacheline_in_line (data : Buf) {io : Io}
    (hio : io 0 = true) : writeCacheline (storageHeader s) addr data n io =
      (true, (List.range n).map fun k => (addr.toNat + k, data k)) := by
  obtain ⟨hone, hoff⟩ := in_line hbase hrange hpos hline
  unfold writeCacheline
  rw [if_neg (by omega), if_pos storageHeader_mode, hone, writePieces, hoff, hio]
  simp only [Bool.false_eq_true, if_false, Bool.not_true, writePieces, copyIn, byteOf_storage hbase hrange,
    List.append_nil, Nat.zero_add]

end

variable {env : PgasEnv} (henv : BackendWorks env)
include henv

lemma fetchAdd_storage (value : UInt64) :
    atomicFetchAddUint64 (storageHeader s) s.mem addr value env.read env.write = entryFetchAdd s.mem addr value := by
  unfold atomicFetchAddUint64 entryFetchAdd
  rw [lineOffset_eq]
  by_cases hline : addr.toNat % 64 + 8 ≤ 64
  · have hread := readCacheline_in_line hbase hrange (by norm_num : 0 < 8) hline (fun _ => 0) henv.1
    rw [if_neg (by omega), if_pos hline, if_pos storageHeader_mode]
    simp only [hread, Bool.not_true, Bool.false_eq_true, if_false, loadLE_lineBuffer]
    rw [writeCacheline_in_line hbase hrange (by norm_num) hline _ henv.2.1]
    rfl
  · rw [if_pos (by omega), if_neg hline]

lemma compareExchange_storage (expected desired : UInt64) :
    atomicCompareExchangeUint64 (storageHeader s) s.mem addr expected desired env.read env.write =
      entryCompareExchange s.mem addr expected desired := by
  unfold atomicCompareExchangeUint64 entryCompareExchange
  rw [lineOffset_eq]
  by_cases hline : addr.toNat % 64 + 8 ≤ 64
  · have hread := readCacheline_in_line hbase hrange (by norm_num : 0 < 8) hline (fun _ => 0) henv.1
    rw [if_neg (by omega), if_pos hline, if_pos storageHeader_mode]
    simp only [hread, Bool.not_true, Bool.false_eq_true, if_false, loadLE_lineBuffer]
    by_cases hmatch : entryWord s.mem addr = expected
    · rw [if_neg (not_not.2 hmatch), if_pos hmatch]
      rw [writeCacheline_in_line hbase hrange (by norm_num) hline _ henv.2.1]
      rfl
    · rw [if_pos hmatch, if_neg hmatch]
  · rw [if_pos (by omega), if_neg hline]

end

/-! ## The flat memory -/

def flatRead (s : PgasServer) (i : UInt32) (slot : Slot) : Reply :=
  let fabric := checkPgasFabricAccess s.controller i slot.addr false false (requested slot)
  let s := { s with controller := fabric.2 }
  if !fabric.1 then reject s slot
  else (s, { slot with data := memcpy slot.data 0 s.mem slot.addr.toNat (requested slot), respStatus := .ok })

def flatWrite (s : PgasServer) (i : UInt32) (slot : Slot) : Reply :=
  let fabric := checkPgasFabricAccess s.controller i slot.addr true false (requested slot)
  let s := { s with controller := fabric.2 }
  if !fabric.1 then reject s slot
  else
    ({ s with mem := memcpy s.mem slot.addr.toNat slot.data 0 (requested slot) }, { slot with respStatus := .ok })

def flatCode (s : PgasServer) (i : UInt32) (slot : Slot) : PgasReq → Reply
  | .read => flatRead s i slot
  | .write => flatWrite s i slot
  | .atomicFaa => serveAtomic s i slot (entryFetchAdd s.mem slot.addr slot.value)
  | .atomicCas => serveAtomic s i slot (entryCompareExchange s.mem slot.addr slot.expected slot.value)
  | .fence => (s, { slot with respStatus := .ok })
  | req => serveCode s i slot .good req

lemma copySize_in_line (s : PgasServer) {slot : Slot} (hline : InLine slot) : copySize s slot = requested slot := by
  have hfit := hline.2
  unfold copySize
  unfold requested at hfit ⊢
  split_ifs
  · rfl
  · exact min_eq_left (by omega)

section OneRequest

variable {slot : Slot} {env : PgasEnv} (i : UInt32) (hbase : s.baseAddr = 0) (hrange : outOfRange s slot.addr = false)
  (henv : BackendWorks env)

include hbase hrange henv

lemma serveRead_flat (hline : InLine slot) : serveRead s i slot env = flatRead s i slot := by
  unfold serveRead flatRead
  rw [copySize_in_line s hline]
  dsimp only
  rw [copySize_in_line _ hline]
  by_cases hfabric : (checkPgasFabricAccess s.controller i slot.addr false false (requested slot)).1 = true
  · have hread := @readCacheline_in_line { s with controller := (checkPgasFabricAccess s.controller i slot.addr false
      false (requested slot)).2 } slot.addr hbase hrange _ hline.1 hline.2 slot.data env.read henv.1
    dsimp only at hread
    rw [hread, hfabric]
    cases s.useStorageBackend <;> rfl
  · rw [Bool.not_eq_true] at hfabric
    rw [hfabric]
    rfl

lemma serveWrite_flat (hline : InLine slot) : serveWrite s i slot env = flatWrite s i slot := by
  unfold serveWrite flatWrite
  rw [copySize_in_line s hline]
  dsimp only
  rw [copySize_in_line _ hline]
  by_cases hfabric : (checkPgasFabricAccess s.controller i slot.addr true false (requested slot)).1 = true
  · have hwrite := @writeCacheline_in_line { s with controller := (checkPgasFabricAccess s.controller i slot.addr true
      false (requested slot)).2 } slot.addr hbase hrange _ hline.1 hline.2 slot.data env.write henv.2.1
    rw [hwrite, hfabric, storeAll_range]
    cases s.useStorageBackend <;> rfl
  · rw [Bool.not_eq_true] at hfabric
    rw [hfabric]
    rfl

/-- Refinement. Either backing serves a request within its line as the flat memory does. -/
lemma serveCode_flat {req : PgasReq} (hline : req = .read ∨ req = .write → InLine slot) :
    serveCode s i slot env req = flatCode s i slot req := by
  cases req with
  | read => exact serveRead_flat i hbase hrange henv (hline (.inl rfl))
  | write => exact serveWrite_flat i hbase hrange henv (hline (.inr rfl))
  | atomicFaa =>
    unfold serveCode serveFaa flatCode
    rw [fetchAdd_storage hbase hrange henv, ite_self]
  | atomicCas =>
    unfold serveCode serveCas flatCode
    rw [compareExchange_storage hbase hrange henv, ite_self]
  | fence =>
    unfold serveCode serveFence flatCode
    rw [henv.2.2, Bool.not_true, Bool.and_false]
    rfl
  | _ => rfl

end OneRequest

def onStorageReply (r : Reply) : Reply := (onStorage r.1, r.2)

section

variable (s : PgasServer) (i : UInt32) (slot : Slot)

lemma flatCode_onStorage (req : PgasReq) :
    flatCode (onStorage s) i slot req = onStorageReply (flatCode s i slot req) := by
  have hatomic (atomic : AtomicResult) :
      serveAtomic (onStorage s) i slot atomic = onStorageReply (serveAtomic s i slot atomic) := by
    unfold serveAtomic
    dsimp only
    rw [apply_ite onStorageReply, apply_ite onStorageReply, apply_ite onStorageReply]
    rfl
  cases req with
  | read =>
    unfold flatCode flatRead
    dsimp only
    rw [apply_ite onStorageReply]
    rfl
  | write =>
    unfold flatCode flatWrite
    dsimp only
    rw [apply_ite onStorageReply]
    rfl
  | atomicFaa | atomicCas => exact hatomic _
  | dcdAdd =>
    unfold flatCode serveCode serveDcdAdd
    dsimp only
    rw [apply_ite onStorageReply]
    rfl
  | _ => rfl

lemma flatRead_data (hok : (flatRead s i slot).2.respStatus = .ok) {j : ℕ}
    (hj : j < requested slot) : (flatRead s i slot).2.data j = s.mem (slot.addr.toNat + j) := by
  unfold flatRead at hok ⊢
  dsimp only at hok ⊢
  split_ifs at hok ⊢ with hfabric
  · cases hok
  · dsimp only
    rw [memcpy_of_mem ⟨by omega, by omega⟩, Nat.sub_zero]

lemma flatWrite_mem (hok : (flatWrite s i slot).2.respStatus = .ok) :
    (flatWrite s i slot).1.mem = memcpy s.mem slot.addr.toNat slot.data 0 (requested slot) := by
  unfold flatWrite at hok ⊢
  dsimp only at hok ⊢
  split_ifs at hok ⊢ with hfabric
  · cases hok
  · rfl

end

/-! ## Runs -/

def flatCall (s : PgasServer) (c : Call) : Reply :=
  let slot := { c.slot with reqType := 0 }
  if outOfRange s slot.addr then reject s slot else flatCode s c.slotIndex slot (PgasReq.ofCode c.slot.reqType)

lemma serveCall_flat (h : Whole s c) : serveCall s c = flatCall s c := by
  unfold serveCall serveSlot flatCall
  dsimp only
  cases hrange : outOfRange s c.slot.addr with
  | true => rfl
  | false =>
    obtain ⟨henv, hbase, hline⟩ := h hrange
    rw [if_neg Bool.false_ne_true, if_neg Bool.false_ne_true]
    exact @serveCode_flat s { c.slot with reqType := 0 } c.env c.slotIndex hbase hrange henv _ hline

lemma flatCall_onStorage (s : PgasServer) (c : Call) : flatCall (onStorage s) c = onStorageReply (flatCall s c) := by
  unfold flatCall
  dsimp only
  rw [apply_ite onStorageReply, flatCode_onStorage]
  rfl

/-- Completeness. On either backing, what is answered OK is complete. -/
lemma complete_of_whole (h : Whole s c) : Complete s c := by
  unfold Complete
  rw [serveCall_flat h]
  unfold flatCall
  dsimp only
  cases hrange : outOfRange s c.slot.addr with
  | true => exact ⟨fun _ hok => (nomatch hok), fun _ hok => (nomatch hok)⟩
  | false =>
    refine ⟨fun hread hok j hj => ?_, fun hwrite hok => ?_⟩
    · rw [hread] at hok ⊢
      exact flatRead_data s c.slotIndex { c.slot with reqType := 0 } hok hj
    · rw [hwrite] at hok ⊢
      exact flatWrite_mem s c.slotIndex { c.slot with reqType := 0 } hok

/-- Servers that differ in the backing only serve a whole request alike. -/
lemma agree_step {p : Pair} (hp : p.storage = onStorage p.mapped) (h : Whole p.mapped c) :
    Agree p c ∧ (pairStep p c).storage = onStorage (pairStep p c).mapped := by
  have hstorage : Whole p.storage c := by
    rw [hp]
    exact h
  have hsame : serveCall p.storage c = onStorageReply (serveCall p.mapped c) := by
    rw [serveCall_flat hstorage, serveCall_flat h, hp, flatCall_onStorage]
  refine ⟨⟨?_, ?_, complete_of_whole h, complete_of_whole hstorage⟩, ?_⟩
  · rw [hsame]
    rfl
  · unfold pairStep
    rw [hsame]
    rfl
  · unfold pairStep
    rw [hsame]
    rfl

/-- On requests that are whole where in range both backings give the same responses and memory. -/
theorem backings_agree (memorySize baseAddr : UInt64) (mem : Buf) (controller : Controller) (calls : List Call)
    (h : AllSteps pairStep (fun p c => Whole p.mapped c) (startPair memorySize baseAddr mem controller) calls) :
    AllSteps pairStep Agree (startPair memorySize baseAddr mem controller) calls :=
  allSteps_of_inv (P := fun p => p.storage = onStorage p.mapped) (fun _ _ hp hc => (agree_step hp hc).2)
    (fun _ _ hp hc => (agree_step hp hc).1) rfl h

def wholeCalls : List Call :=
  [⟨0, ⟨2, .none, 64, 64, 0, 0, 0, fun k => UInt8.ofNat (k + 1)⟩, .good⟩,
    ⟨1, ⟨1, .none, 67, 8, 0, 0, 0, fun _ => 0⟩, .good⟩, ⟨0, ⟨1, .none, 128, 8, 0, 0, 0, fun _ => 0⟩, .good⟩]

theorem backings_agree_write_read : AllSteps pairStep Agree (startPair 128 0 (fun _ => 0) ⟨none, none⟩) wholeCalls :=
  backings_agree 128 0 (fun _ => 0) ⟨none, none⟩ wholeCalls (by decide +kernel)

end CxlMemSim.Server.Pgas
