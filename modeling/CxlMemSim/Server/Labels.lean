/-
The label storage area, a byte vector read and written at 64-bit offsets, in the stand-alone server and the distributed
one.

Model: a copy that leaves the vector is a fault, and so is a `resize` that gets no memory, as nothing catches it. A
ghost has the last byte written at every offset.
-/
import CxlMemSim.Server.Requests

namespace CxlMemSim.Server.Labels

open CxlMemSim.Core

/-! ## The area -/

inductive Fault where
  | outOfBounds
  | noMemory
deriving DecidableEq, Repr

structure Lsa where
  bytes : Buf
  length : ℕ
  size : UInt64

def newLsa : Lsa := ⟨fun _ => 0, 256 * 1024, 256 * 1024⟩

variable (l : Lsa) (offset : UInt64) (n : UInt64)

def copyOut : Except Fault Buf :=
  if offset.toNat + n.toNat ≤ l.length then .ok (memcpy (fun _ => 0) 0 l.bytes offset.toNat n.toNat)
  else .error .outOfBounds

def copyIn (data : Buf) : Except Fault Lsa :=
  if offset.toNat + n.toNat ≤ l.length then .ok { l with bytes := memcpy l.bytes offset.toNat data 0 n.toNat }
  else .error .outOfBounds

def resize (newSize : UInt64) (memory : Bool) : Except Fault Lsa :=
  if memory then
    .ok ⟨fun i => if i < l.length then l.bytes i else 0, newSize.toNat, newSize⟩
  else .error .noMemory

/-! ## The two servers -/

structure Reply where
  status : UInt8
  data : Buf

def refused : Reply := ⟨1, fun _ => 0⟩

def clampedSize (size : UInt64) : UInt64 := min size 64

def standAloneRead (addr size : UInt64) : Except Fault (Reply × Lsa) :=
  if addr + clampedSize size ≤ l.size then
    match copyOut l addr (clampedSize size) with
    | .ok data => .ok (⟨0, data⟩, l)
    | .error fault => .error fault
  else .ok (refused, l)

def grow (memory : Bool) : Except Fault Lsa := if offset + n > l.size then resize l (offset + n) memory else .ok l

def growAndCopy (data : Buf) (memory : Bool) : Except Fault Lsa :=
  match grow l offset n memory with
  | .ok l => copyIn l offset n data
  | .error fault => .error fault

def standAloneWrite (addr size : UInt64) (data : Buf) (memory : Bool) : Except Fault (Reply × Lsa) :=
  match growAndCopy l addr (clampedSize size) data memory with
  | .ok l => .ok (⟨0, fun _ => 0⟩, l)
  | .error fault => .error fault

def lsaRead : Except Fault (Int × Buf) :=
  if offset + n > l.size then .ok (-1, fun _ => 0)
  else
    match copyOut l offset n with
    | .ok data => .ok (0, data)
    | .error fault => .error fault

def lsaWrite (data : Buf) (memory : Bool) : Except Fault (Int × Lsa) :=
  match growAndCopy l offset n data memory with
  | .ok l => .ok (0, l)
  | .error fault => .error fault

def distributedRead (addr size : UInt64) : Except Fault (Reply × Lsa) :=
  match lsaRead l addr (clampedSize size) with
  | .ok (ret, data) => .ok (⟨if ret = 0 then 0 else 1, data⟩, l)
  | .error fault => .error fault

def distributedWrite (addr size : UInt64) (data : Buf) (memory : Bool) : Except Fault (Reply × Lsa) :=
  match lsaWrite l addr (clampedSize size) data memory with
  | .ok (ret, l) => .ok (⟨if ret = 0 then 0 else 1, fun _ => 0⟩, l)
  | .error fault => .error fault

inductive ServerKind where
  | standAlone
  | distributed
deriving DecidableEq, Repr

inductive Request where
  | read (addr size : UInt64)
  | write (addr size : UInt64) (data : Buf) (memory : Bool)

def Request.addr : Request → UInt64
  | .read addr _ => addr
  | .write addr _ _ _ => addr

def Request.bytes : Request → UInt64
  | .read _ size => clampedSize size
  | .write _ size _ _ => clampedSize size

def serve (kind : ServerKind) (l : Lsa) (r : Request) : Except Fault (Reply × Lsa) :=
  match kind, r with
  | .standAlone, .read addr size => standAloneRead l addr size
  | .standAlone, .write addr size data memory => standAloneWrite l addr size data memory
  | .distributed, .read addr size => distributedRead l addr size
  | .distributed, .write addr size data memory => distributedWrite l addr size data memory

structure State where
  lsa : Lsa
  written : Buf
  fault : Option Fault

def start : State := ⟨newLsa, fun _ => 0, none⟩

def writtenAfter (written : Buf) (reply : Reply) : Request → Buf
  | .read _ _ => written
  | .write addr size data _ =>
    if reply.status = 0 then memcpy written addr.toNat data 0 (clampedSize size).toNat else written

def step (kind : ServerKind) (s : State) (r : Request) : State :=
  match s.fault with
  | some _ => s
  | none =>
    match serve kind s.lsa r with
    | .error fault => { s with fault := some fault }
    | .ok (reply, l) => ⟨l, writtenAfter s.written reply r, none⟩

/-! ## Statement -/

def Faithful (s : State) (reply : Reply) : Request → Prop
  | .read addr size =>
    (s.lsa.length < addr.toNat + (clampedSize size).toNat → reply.status ≠ 0) ∧
      (reply.status = 0 → ∀ i < (clampedSize size).toNat, reply.data i = s.written (addr.toNat + i))
  | .write _ _ _ _ => True

/-- answered with no fault, refused if the range does not fit into 64 bits, and a read is faithful -/
def Safe (kind : ServerKind) (s : State) (r : Request) : Prop :=
  s.fault = none → ∃ reply l, serve kind s.lsa r = .ok (reply, l) ∧
    (2 ^ 64 ≤ r.addr.toNat + r.bytes.toNat → reply.status ≠ 0) ∧ Faithful s reply r

def GetsMemory (s : State) : Request → Prop
  | .read _ _ => True
  | .write addr size _ memory => s.lsa.length < addr.toNat + (clampedSize size).toNat → memory = true

instance (s : State) (r : Request) : Decidable (GetsMemory s r) :=
  match r with
  | .read _ _ => isTrue trivial
  | .write _ _ _ _ => inferInstanceAs (Decidable (_ → _))

/-- the end of the range is a 64-bit number, and a write that grows the area gets memory -/
def Representable (s : State) (r : Request) : Prop := r.addr.toNat + r.bytes.toNat < 2 ^ 64 ∧ GetsMemory s r

instance (s : State) (r : Request) : Decidable (Representable s r) := inferInstanceAs (Decidable (_ ∧ _))

lemma distributedRead_eq (l : Lsa) (addr size : UInt64) : distributedRead l addr size = standAloneRead l addr size := by
  unfold distributedRead lsaRead standAloneRead
  by_cases hend : addr + clampedSize size ≤ l.size
  · rw [if_pos hend, if_neg (UInt64.not_lt.2 hend)]
    cases copyOut l addr (clampedSize size) <;> rfl
  · rw [if_neg hend, if_pos (UInt64.not_le.1 hend)]
    rfl

lemma distributedWrite_eq (l : Lsa) (addr size : UInt64) (data : Buf) (memory : Bool) :
    distributedWrite l addr size data memory = standAloneWrite l addr size data memory := by
  unfold distributedWrite lsaWrite standAloneWrite
  cases growAndCopy l addr (clampedSize size) data memory <;> rfl

/-- Both servers do the same. -/
lemma serve_eq (kind : ServerKind) (l : Lsa) (r : Request) : serve kind l r = serve .standAlone l r := by
  cases kind with
  | standAlone => rfl
  | distributed =>
    cases r with
    | read addr size => exact distributedRead_eq l addr size
    | write addr size data memory => exact distributedWrite_eq l addr size data memory

/-! ## The vector and what was written -/

structure Holds (l : Lsa) (written : Buf) : Prop where
  length : l.length = l.size.toNat
  bytes : ∀ i < l.length, l.bytes i = written i
  rest : ∀ i, l.length ≤ i → written i = 0

lemma holds_new : Holds newLsa fun _ => 0 := ⟨rfl, fun _ _ => rfl, fun _ _ => rfl⟩

variable {offset n : UInt64} {l : Lsa} {s : ServerState} {written : Buf} {memory : Bool} {r : Request} {addr : UInt64}

lemma end_toNat (h : offset.toNat + n.toNat < 2 ^ 64) : (offset + n).toNat = offset.toNat + n.toNat := by
  rw [UInt64.toNat_add]
  exact Nat.mod_eq_of_lt h

lemma Holds.grow (h : Holds l written) (hend : offset.toNat + n.toNat < 2 ^ 64)
    (hmem : l.length < offset.toNat + n.toNat → memory = true) :
    ∃ l', Labels.grow l offset n memory = .ok l' ∧ offset.toNat + n.toNat ≤ l'.length ∧ Holds l' written := by
  have hsum := end_toNat hend
  have hlen := h.length
  unfold Labels.grow
  by_cases hbig : l.length < offset.toNat + n.toNat
  · have hgt : offset + n > l.size := by
      rw [gt_iff_lt, UInt64.lt_iff_toNat_lt]
      omega
    rw [if_pos hgt, hmem hbig]
    refine ⟨_, rfl, hsum.ge, rfl, fun i hi => ?_, fun i hi => ?_⟩
    · dsimp only at hi ⊢
      split_ifs with hold
      · exact h.bytes i hold
      · exact (h.rest i (Nat.le_of_not_lt hold)).symm
    · dsimp only at hi
      exact h.rest i (by omega)
  · have hle : ¬ offset + n > l.size := by
      rw [gt_iff_lt, UInt64.lt_iff_toNat_lt]
      omega
    rw [if_neg hle]
    exact ⟨l, rfl, Nat.le_of_not_lt hbig, h⟩

lemma Holds.growAndCopy (h : Holds l written) (data : Buf) (hend : offset.toNat + n.toNat < 2 ^ 64)
    (hmem : l.length < offset.toNat + n.toNat → memory = true) :
    ∃ l', Labels.growAndCopy l offset n data memory = .ok l' ∧
      Holds l' (memcpy written offset.toNat data 0 n.toNat) := by
  obtain ⟨l', hgrow, hroom, hl'⟩ := h.grow hend hmem
  refine ⟨{ l' with bytes := memcpy l'.bytes offset.toNat data 0 n.toNat }, ?_, hl'.length, fun i hi => ?_,
    fun i hi => ?_⟩
  · unfold Labels.growAndCopy
    rw [hgrow]
    exact if_pos hroom
  · by_cases hin : offset.toNat ≤ i ∧ i < offset.toNat + n.toNat
    · dsimp only
      rw [memcpy_of_mem hin, memcpy_of_mem hin]
    · dsimp only
      rw [memcpy_of_not_mem hin, memcpy_of_not_mem hin]
      exact hl'.bytes i hi
  · dsimp only at hi
    rw [memcpy_of_not_mem (by omega)]
    exact hl'.rest i hi

lemma Holds.read (h : Holds l written) {size : UInt64}
    (hend : addr.toNat + (clampedSize size).toNat < 2 ^ 64) : ∃ reply, standAloneRead l addr size = .ok (reply, l) ∧
      (l.length < addr.toNat + (clampedSize size).toNat → reply.status ≠ 0) ∧
      (reply.status = 0 → ∀ i < (clampedSize size).toNat, reply.data i = written (addr.toNat + i)) := by
  have hsum := end_toNat hend
  have hlen := h.length
  unfold standAloneRead
  by_cases hin : addr.toNat + (clampedSize size).toNat ≤ l.length
  · have hle : addr + clampedSize size ≤ l.size := by
      rw [UInt64.le_iff_toNat_le]
      omega
    have hcopy : copyOut l addr (clampedSize size) =
        .ok (memcpy (fun _ => 0) 0 l.bytes addr.toNat (clampedSize size).toNat) := if_pos hin
    rw [if_pos hle, hcopy]
    refine ⟨_, rfl, fun hlt => absurd hin (Nat.not_le.2 hlt), fun _ i hi => ?_⟩
    dsimp only
    rw [memcpy_of_mem ⟨Nat.zero_le i, by omega⟩, Nat.sub_zero]
    exact h.bytes _ (by omega)
  · have hgt : ¬ addr + clampedSize size ≤ l.size := by
      rw [UInt64.le_iff_toNat_le]
      omega
    rw [if_neg hgt]
    exact ⟨refused, rfl, fun _ => by decide, fun hst => absurd hst (by decide)⟩

lemma serve_spec {s : State} (h : Holds s.lsa s.written) (hr : Representable s r) (kind : ServerKind) :
    ∃ reply l, serve kind s.lsa r = .ok (reply, l) ∧ Holds l (writtenAfter s.written reply r) ∧
      Faithful s reply r := by
  obtain ⟨hend, hmem⟩ := hr
  rw [serve_eq]
  cases r with
  | read addr size =>
    obtain ⟨reply, hrun, hrefused, hdata⟩ := h.read hend
    exact ⟨reply, s.lsa, hrun, h, hrefused, hdata⟩
  | write addr size data memory =>
    have hfits : addr.toNat + (clampedSize size).toNat < 2 ^ 64 := hend
    obtain ⟨l, hrun, hl⟩ := h.growAndCopy data hfits hmem
    refine ⟨⟨0, fun _ => 0⟩, l, ?_, hl, trivial⟩
    simp only [serve, standAloneWrite, hrun]

lemma step_holds {s : State} (h : Holds s.lsa s.written) (hr : Representable s r)
    (kind : ServerKind) : Holds (step kind s r).lsa (step kind s r).written := by
  unfold step
  cases hf : s.fault with
  | some fault => exact h
  | none =>
    obtain ⟨reply, l, hrun, hl, -⟩ := serve_spec h hr kind
    simp only [hrun]
    exact hl

abbrev lsaOf (s : ServerState) : Lsa := ⟨s.lsaData, s.lsaSize.toNat, s.lsaSize⟩

def requestOf (isWrite : Bool) (req : ServerRequest) : Request :=
  if isWrite then .write req.addr req.size req.data true else .read req.addr req.size

def Agrees (s : ServerState) (served : ServerResponse × ServerState) : Except Fault (Reply × Lsa) → Prop
  | .error _ => served.2.halted = true
  | .ok (reply, l) =>
    served.1.status = reply.status ∧ served.1.data = reply.data ∧ lsaOf served.2 = l ∧ served.2.halted = s.halted

/-- the area is at least a message long and zero behind its end -/
structure Grown (s : ServerState) : Prop where
  size : 64 ≤ s.lsaSize.toNat
  rest : ∀ i, s.lsaSize.toNat ≤ i → s.lsaData i = 0

lemma unwrapped_end (h : ¬ addr + n < addr) : (addr + n).toNat = addr.toNat + n.toNat := by
  have ha := addr.toNat_lt
  have hn := n.toNat_lt
  rw [UInt64.lt_iff_toNat_lt, UInt64.toNat_add] at h
  rw [UInt64.toNat_add]
  omega

section

variable (h : Grown s)
include h

lemma wrapped_end {size : UInt64} (hwrap : addr + clampedSize size < addr) :
    addr + clampedSize size ≤ s.lsaSize ∧ ¬ addr.toNat + (clampedSize size).toNat ≤ s.lsaSize.toNat := by
  have hn : (clampedSize size).toNat ≤ 64 := UInt64.le_iff_toNat_le.1 Std.min_le_right
  have ha := addr.toNat_lt
  have hs := s.lsaSize.toNat_lt
  have hsize := h.size
  rw [UInt64.lt_iff_toNat_lt, UInt64.toNat_add] at hwrap
  rw [UInt64.le_iff_toNat_le, UInt64.toNat_add]
  omega

lemma agrees_read (req : ServerRequest) :
    Agrees s (handleLsaRequest s false req) (standAloneRead (lsaOf s) req.addr req.size) := by
  unfold handleLsaRequest
  change Agrees s (if req.addr + clampedSize req.size < req.addr then _ else
    if req.addr + clampedSize req.size ≤ s.lsaSize then _ else _)
    (if req.addr + clampedSize req.size ≤ s.lsaSize then _ else _)
  by_cases hwrap : req.addr + clampedSize req.size < req.addr
  · -- the end wraps around: the test passes and the copy leaves the vector
    obtain ⟨hpass, hout⟩ := wrapped_end h hwrap
    rw [if_pos hwrap, if_pos hpass, copyOut, if_neg hout]
    rfl
  · rw [if_neg hwrap]
    split_ifs with hin
    · rw [copyOut, if_pos (unwrapped_end hwrap ▸ UInt64.le_iff_toNat_le.1 hin)]
      exact ⟨rfl, rfl, rfl, rfl⟩
    · exact ⟨rfl, rfl, rfl, rfl⟩

lemma growAndCopy_lsaOf (data : Buf) (hwrap : ¬ addr + n < addr) : growAndCopy (lsaOf s) addr n data true =
      .ok ⟨memcpy s.lsaData addr.toNat data 0 n.toNat, (max s.lsaSize (addr + n)).toNat, max s.lsaSize (addr + n)⟩ := by
  have hsum := unwrapped_end hwrap
  have hbytes : (fun i => if i < s.lsaSize.toNat then s.lsaData i else 0) = s.lsaData := by
    funext i
    split_ifs with hi
    · rfl
    · exact (h.rest i (Nat.le_of_not_lt hi)).symm
  unfold growAndCopy grow
  by_cases hbig : addr + n > s.lsaSize
  · have hend : max s.lsaSize (addr + n) = addr + n := if_pos (UInt64.le_of_lt hbig)
    rw [if_pos hbig, resize, if_pos rfl, hbytes, hend]
    exact if_pos hsum.ge
  · have hle := UInt64.not_lt.1 hbig
    have hend : max s.lsaSize (addr + n) = s.lsaSize := ite_eq_right_iff.2 (UInt64.le_antisymm hle)
    rw [if_neg hbig, hend]
    exact if_pos (hsum ▸ UInt64.le_iff_toNat_le.1 hle)

lemma agrees_write (req : ServerRequest) :
    Agrees s (handleLsaRequest s true req) (standAloneWrite (lsaOf s) req.addr req.size req.data true) := by
  unfold handleLsaRequest standAloneWrite
  change Agrees s (if req.addr + clampedSize req.size < req.addr then _ else _) _
  by_cases hwrap : req.addr + clampedSize req.size < req.addr
  · obtain ⟨hpass, hout⟩ := wrapped_end h hwrap
    rw [if_pos hwrap, growAndCopy, grow, if_neg (UInt64.not_lt.2 hpass)]
    simp only [copyIn, if_neg hout]
    rfl
  · rw [if_neg hwrap, growAndCopy_lsaOf h req.data hwrap]
    exact ⟨rfl, rfl, rfl, rfl⟩

lemma Grown.handle (isWrite : Bool) (req : ServerRequest) : Grown (handleLsaRequest s isWrite req).2 := by
  unfold handleLsaRequest
  dsimp only
  split_ifs with hwrap
  · exact ⟨h.size, h.rest⟩
  · have hle : s.lsaSize ≤ max s.lsaSize (req.addr + min req.size 64) := by
      change _ ≤ if _ then _ else _
      split_ifs with hmax
      · exact hmax
      · exact UInt64.le_refl _
    have hholds : Holds (lsaOf s) s.lsaData := ⟨rfl, fun _ _ => rfl, h.rest⟩
    obtain ⟨l, hl, hrest⟩ := hholds.growAndCopy req.data
      (unwrapped_end hwrap ▸ UInt64.toNat_lt _) fun _ => rfl
    rw [growAndCopy_lsaOf h req.data hwrap] at hl
    obtain rfl := Except.ok.inj hl
    exact ⟨h.size.trans (UInt64.le_iff_toNat_le.1 hle), hrest.rest⟩
  · exact h
  · exact h

end

/-- Both servers answer every sequence of label requests as the server model does. -/
theorem label_run_agrees (kind : ServerKind) (header : Header) (mem : Buf) (controller : Gfam.Controller)
    (reqs : List (Bool × ServerRequest)) :
    AllSteps (fun s r => (handleLsaRequest s r.1 r.2).2)
      (fun s r => Agrees s (handleLsaRequest s r.1 r.2) (serve kind (lsaOf s) (requestOf r.1 r.2)))
      (ServerState.new header mem controller) reqs := by
  refine allSteps_of_inv (P := Grown) (C := fun _ _ => True) (fun s r h _ => h.handle r.1 r.2) (fun s r h _ => ?_)
    ⟨(by decide : 64 ≤ newLsa.size.toNat), fun _ _ => rfl⟩ (allSteps_of_forall (fun _ _ => trivial) _ _)
  rw [serve_eq]
  cases r.1 with
  | false => exact agrees_read h r.2
  | true => exact agrees_write h r.2

end CxlMemSim.Server.Labels
