/-
The intercepted collectives of the MPI shim: do all ranks issue the same underlying operations? A rank whose allocation
fails, or that finds a buffer missing, goes to the original collective; both decisions are local. A call's result is the
list of underlying operations it issues.
-/
import CxlMemSim.Core.Run

namespace CxlMemSim.Mpi.Collectives

section Meeting

variable {ι α : Type*} {seqs : ι → List α}

/-- ranks that issue blocking collectives come to their ends: in each round all are in the same one -/
inductive Finishes : (ι → List α) → Prop where
  | stop : Finishes fun _ => []
  | round (op : α) {rest : ι → List α} (h : Finishes rest) : Finishes fun r => op :: rest r

lemma finishes_const (ops : List α) : Finishes fun _ : ι => ops := by
  induction ops with
  | nil => exact .stop
  | cons op ops ih => exact .round op ih

lemma Finishes.same (h : Finishes seqs) (r r' : ι) : seqs r = seqs r' := by
  induction h with
  | stop => rfl
  | round op _ ih => exact congrArg (op :: ·) ih

/-- No rank is left waiting exactly when all have the same operations. -/
lemma finishes_iff [Nonempty ι] : Finishes seqs ↔ ∀ r r', seqs r = seqs r' := by
  refine ⟨Finishes.same, fun h => ?_⟩
  obtain ⟨r⟩ := ‹Nonempty ι›
  have hconst : seqs = fun _ => seqs r := funext fun r' => h r' r
  rw [hconst]
  exact finishes_const (seqs r)

end Meeting

/-! ## Calls -/

inductive Native where
  | barrier
  | bcast
  | allreduce
  | allgather
  | alltoall
  | gather
  | scatter
deriving DecidableEq, Repr

structure Config where
  cxlCommEnabled : Bool
  allRanksLocal : Bool
  directMaxBytes : UInt64
deriving DecidableEq, Repr

structure Args where
  count : Int32
  typeSize : Int32
  recvTypeSize : Int32
  inPlace : Bool
  isSum : Bool
  summable : Bool
deriving DecidableEq, Repr

structure Call (n : ℕ) where
  root : Fin n
  isWorld : Bool
  config : Fin n → Config
  args : Fin n → Args
  alloc : Fin n → Bool
  stale : Fin n → Bool
  /-- `cxl_collective_get_buffer(q)` at `r` finds the buffer if there is one in the table -/
  resolves : Fin n → Fin n → Bool

variable {n : ℕ} {native : Native}

namespace Call

variable (w : Call n) (r : Fin n)

def bytes : UInt64 := (w.args r).count.toInt64.toUInt64 * (w.args r).typeSize.toInt64.toUInt64

def direct : Bool :=
  0 ≤ (w.args r).typeSize && (w.config r).cxlCommEnabled && (w.config r).allRanksLocal && w.isWorld &&
    w.bytes r ≤ (w.config r).directMaxBytes && n ≤ 64

def findsRoot : Bool := w.alloc w.root && w.resolves r w.root

def finds (q : Fin n) : Bool := (w.alloc q || w.stale q) && w.resolves r q

/-- ranks that `join` meet at a barrier, and those that find all they need (`found`) at another -/
def course (native : Native) (join found : Bool) : List Native :=
  if join then .barrier :: (if found then [.barrier] else [native]) else [native]

/-- the root registers NULL when it got no memory, and does not look itself up -/
def mpiBcast : List Native := course .bcast (w.direct r) (r = w.root || w.findsRoot r)

def mpiAllreduce : List Native :=
  let a := w.args r
  course .allreduce (w.direct r && !a.inPlace && a.isSum && a.summable && w.alloc r)
    (∀ q, q ≠ r → w.finds r q)

def mpiAllgather : List Native := course .allgather (w.direct r && !(w.args r).inPlace && w.alloc r) (∀ q, w.finds r q)

def mpiAlltoall : List Native :=
  course .alltoall (w.direct r && 0 ≤ (w.args r).recvTypeSize && w.alloc r) (∀ q, w.finds r q)

def mpiGather : List Native := course .gather (w.direct r && w.alloc r) (r ≠ w.root || ∀ q, w.finds r q)

def mpiScatter : List Native := course .scatter (w.direct r) (w.findsRoot r)

end Call

inductive Collective where
  | bcast
  | allreduce
  | allgather
  | alltoall
  | gather
  | scatter
deriving DecidableEq, Repr

def Call.sequence (w : Call n) : Collective → Fin n → List Native
  | .bcast => w.mpiBcast
  | .allreduce => w.mpiAllreduce
  | .allgather => w.mpiAllgather
  | .alltoall => w.mpiAlltoall
  | .gather => w.mpiGather
  | .scatter => w.mpiScatter

/-- the rank enters the direct path: arguments and configuration allow it, and it has the memory -/
def Call.Enters (w : Call n) (r : Fin n) : Collective → Prop
  | .bcast => w.direct r
  | .allreduce => w.direct r ∧ (w.args r).inPlace = false ∧ (w.args r).isSum ∧ (w.args r).summable ∧ w.alloc r
  | .allgather => w.direct r ∧ (w.args r).inPlace = false ∧ w.alloc r
  | .alltoall => w.direct r ∧ 0 ≤ (w.args r).recvTypeSize ∧ w.alloc r
  | .gather => w.direct r ∧ w.alloc r
  | .scatter => w.direct r

/-- all look-ups work, or they fail so that no rank is left behind -/
def Call.LooksUpAlike (w : Call n) : Collective → Prop
  | .bcast => ∀ r, r ≠ w.root → w.findsRoot r
  | .allreduce => (∀ r q, q ≠ r → w.finds r q) ∨ ∀ r, ∃ q, q ≠ r ∧ w.finds r q = false
  | .allgather => (∀ r q, w.finds r q) ∨ ∀ r, ∃ q, w.finds r q = false
  | .alltoall => (∀ r q, w.finds r q) ∨ ∀ r, ∃ q, w.finds r q = false
  | .gather => (∀ q, w.finds w.root q) ∨ ∀ r, r = w.root
  | .scatter => (∀ r, w.findsRoot r) ∨ ∀ r, w.findsRoot r = false

def Call.Uniform (w : Call n) (k : Collective) : Prop :=
  (∀ r, ¬ w.Enters r k) ∨ ((∀ r, w.Enters r k) ∧ w.LooksUpAlike k)

/-! ## Result -/

lemma course_eq_iff (hnative : native ≠ .barrier) (join found join' found' : Bool) :
    Call.course native join found = Call.course native join' found' ↔
      join = join' ∧ (join = true → found = found') := by
  cases join <;> cases join' <;> cases found <;> cases found' <;> simp [Call.course, hnative, hnative.symm]

/-- ranks on the common course issue the same operations exactly when all or none join, and all or none of those find
what they need -/
lemma course_same_iff [Nonempty (Fin n)] (hnative : native ≠ .barrier) (join found : Fin n → Bool) :
    (∀ r r', Call.course native (join r) (found r) = Call.course native (join r') (found r')) ↔ (∀ r, join r = false) ∨
        ((∀ r, join r = true) ∧ ((∀ r, found r = true) ∨ ∀ r, found r = false)) := by
  simp only [course_eq_iff hnative]
  constructor
  · intro h
    obtain ⟨r0⟩ := ‹Nonempty (Fin n)›
    cases hj : join r0 with
    | false => exact .inl fun r => (h r0 r).1.symm.trans hj
    | true =>
      refine .inr ⟨fun r => (h r0 r).1.symm.trans hj, ?_⟩
      cases hf : found r0 with
      | true => exact .inl fun r => ((h r0 r).2 hj).symm.trans hf
      | false => exact .inr fun r => ((h r0 r).2 hj).symm.trans hf
  · rintro (hnone | ⟨hall, hfound | hfound⟩) r r'
    · simp [hnone]
    · simp [hall, hfound]
    · simp [hall, hfound]

lemma uniform_iff (w : Call n) {k : Collective} (native : Native) (hnative : native ≠ .barrier)
    {join found : Fin n → Bool} (hseq : ∀ r, w.sequence k r = Call.course native (join r) (found r))
    (hjoin : ∀ r, join r = true ↔ w.Enters r k)
    (hfound : ((∀ r, found r = true) ∨ ∀ r, found r = false) ↔ w.LooksUpAlike k) :
    (∀ r r', w.sequence k r = w.sequence k r') ↔ w.Uniform k := by
  have : Nonempty (Fin n) := ⟨w.root⟩
  have hnot : ∀ r, join r = false ↔ ¬ w.Enters r k := fun r => by rw [← hjoin, Bool.not_eq_true]
  simp only [hseq]
  rw [course_same_iff hnative, Call.Uniform, hfound, forall_congr' hjoin, forall_congr' hnot]

lemma all_or_none_iff (P : Fin n → Fin n → Prop) [∀ r q, Decidable (P r q)] (finds : Fin n → Fin n → Bool) :
    ((∀ r, decide (∀ q, P r q → finds r q) = true) ∨ ∀ r, decide (∀ q, P r q → finds r q) = false) ↔
      (∀ r q, P r q → finds r q) ∨ ∀ r, ∃ q, P r q ∧ finds r q = false := by
  simp

/-- The ranks issue the same operations exactly when no rank enters the direct path, or all do and their look-ups end
alike. -/
theorem same_sequence_iff (w : Call n) (k : Collective) :
    ((∀ r r', w.sequence k r = w.sequence k r') ∧ Finishes (w.sequence k)) ↔ w.Uniform k := by
  have : Nonempty (Fin n) := ⟨w.root⟩
  rw [finishes_iff, and_self]
  cases k with
  | bcast =>
    refine uniform_iff w .bcast (by decide) (fun _ => rfl) (fun _ => Iff.rfl) ?_
    constructor
    · rintro (hall | hnone) r hr
      · simpa [hr] using hall r
      · -- the root itself always goes on to the second barrier
        exact absurd (hnone w.root) (by simp)
    · intro h
      refine .inl fun r => ?_
      by_cases hr : r = w.root
      · simp [hr]
      · simp [h r hr]
  | allreduce =>
    refine uniform_iff w .allreduce (by decide) (fun _ => rfl) (fun r => ?_) ?_
    · simp [Call.Enters, and_assoc]
    · exact all_or_none_iff (fun r q => q ≠ r) w.finds
  | allgather =>
    refine uniform_iff w .allgather (by decide) (fun _ => rfl) (fun r => ?_) ?_
    · simp [Call.Enters, and_assoc]
    · simp [Call.LooksUpAlike]
  | alltoall =>
    refine uniform_iff w .alltoall (by decide) (fun _ => rfl) (fun r => ?_) ?_
    · simp [Call.Enters, and_assoc]
    · simp [Call.LooksUpAlike]
  | gather =>
    refine uniform_iff w .gather (by decide) (fun _ => rfl) (fun r => ?_) ?_
    · simp [Call.Enters]
    · constructor
      · rintro (hall | hnone)
        · exact .inl (by simpa using hall w.root)
        · -- only the root can miss a buffer
          exact .inr fun r => (by simpa using hnone r : r = w.root ∧ _).1
      · rintro (hall | hone)
        · refine .inl fun r => ?_
          by_cases hr : r = w.root
          · simpa [hr] using hall
          · simp [hr]
        · cases hfound : decide (∀ q, w.finds w.root q = true) with
          | true =>
            refine .inl fun r => ?_
            rw [hone r, hfound, Bool.or_true]
          | false =>
            refine .inr fun r => ?_
            rw [hone r, hfound]
            simp
  | scatter => exact uniform_iff w .scatter (by decide) (fun _ => rfl) (fun _ => Iff.rfl) Iff.rfl

def rootWithoutMemory : Call 2 where
  root := 0
  isWorld := true
  config := fun _ => ⟨true, true, 65536⟩
  args := fun _ => ⟨1, 8, 8, false, true, true⟩
  alloc := fun r => r = 1
  stale := fun _ => false
  resolves := fun _ _ => true

/-- the root registers NULL and waits at the second barrier; rank 1 finds no buffer and waits in the original broadcast
-/
theorem root_without_buffer :
    rootWithoutMemory.mpiBcast 0 = [.barrier, .barrier] ∧ rootWithoutMemory.mpiBcast 1 = [.barrier, .bcast] ∧
    ¬ Finishes (rootWithoutMemory.sequence .bcast) := by
  refine ⟨by decide, by decide, fun h => ?_⟩
  exact absurd (h.same 0 1) (by decide)

end CxlMemSim.Mpi.Collectives
