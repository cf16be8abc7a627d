/-
The reorder window of the branch records (`CXLController::insert_one`): counts of the instructions and misses of a
thread's last records. Counts and miss types are kept per thread, the records in one `ring_buffer` for all. `log` is a
ghost: every record pushed. The front of an empty queue is `none`.
-/
import CxlMemSim.Core.Run
import Mathlib.Algebra.BigOperators.Group.List.Basic
import Mathlib.Algebra.Order.BigOperators.Group.List

namespace CxlMemSim.ReorderBuffer

open CxlMemSim.Core List Function

def robSize : ℕ := 512

structure Record where
  owner : UInt64
  flags : UInt64
  types : List ℤ
deriving DecidableEq, Repr

def llcmCount (flags : UInt64) : ℕ := (flags &&& 3).toNat
def insCount (flags : UInt64) : ℕ := ((flags &&& 0xfffffff0000) >>> 16).toNat

structure ThreadInfo where
  insCount : ℤ
  llcmCount : ℤ
  llcmBase : ℤ
  mCount : ℤ → ℤ
  llcmType : List ℤ
  llcmTypeRob : List ℤ

structure State where
  ring : List Record
  threads : UInt64 → ThreadInfo
  log : List Record

def nextType (t : ThreadInfo) : ℤ := t.llcmType.headD 0

def pushType (t : ThreadInfo) : ThreadInfo :=
  { t with mCount := update t.mCount (nextType t) (t.mCount (nextType t) + 1)
           llcmTypeRob := t.llcmTypeRob ++ [nextType t]
           llcmType := t.llcmType.tail }

def pushTypes : ℕ → ThreadInfo → ThreadInfo × List ℤ
  | 0, t => (t, [])
  | n + 1, t => ((pushTypes n (pushType t)).1, nextType t :: (pushTypes n (pushType t)).2)

def popTypes : ℕ → ThreadInfo → Option ThreadInfo
  | 0, t => some t
  | n + 1, t =>
    match t.llcmTypeRob with
    | [] => none
    | k :: rest => popTypes n { t with mCount := update t.mCount k (t.mCount k - 1), llcmTypeRob := rest }

def retire (t : ThreadInfo) (flags : UInt64) : Option ThreadInfo :=
  popTypes (llcmCount flags) { t with
    insCount := t.insCount - insCount flags
    llcmCount := t.llcmCount - llcmCount flags
    llcmBase := t.llcmBase + llcmCount flags }

def shrink (t : ThreadInfo) : List Record → Option (ThreadInfo × List Record)
  | [] => if t.insCount > robSize then none else some (t, [])
  | r :: ring => if t.insCount > robSize then (retire t r.flags).bind fun t => shrink t ring else some (t, r :: ring)

def enter (t : ThreadInfo) (tid flags : UInt64) : ThreadInfo × Record :=
  let p := pushTypes (llcmCount flags) t
  ({ p.1 with insCount := p.1.insCount + insCount flags, llcmCount := p.1.llcmCount + llcmCount flags },
    ⟨tid, flags, p.2⟩)

def insertOne (s : State) (tid flags : UInt64) : Option State :=
  let p := enter (s.threads tid) tid flags
  (shrink p.1 (s.ring ++ [p.2])).map fun q =>
    { ring := q.2, threads := update s.threads tid q.1, log := s.log ++ [p.2] }

def step (s : Option State) (c : UInt64 × UInt64) : Option State := s.bind fun s => insertOne s c.1 c.2

/-! ## The window -/

def instructions (rs : List Record) : ℕ := (rs.map fun r => insCount r.flags).sum
def misses (rs : List Record) : ℕ := (rs.map fun r => llcmCount r.flags).sum
def types (rs : List Record) : List ℤ := rs.flatMap Record.types

def window : List Record → List Record
  | [] => []
  | r :: rs => if instructions (r :: rs) ≤ robSize then r :: rs else window rs

lemma window_concat (rs : List Record) (r : Record) : window (window rs ++ [r]) = window (rs ++ [r]) := by
  induction rs with
  | nil => rfl
  | cons x rs ih =>
    by_cases h : instructions (x :: rs) ≤ robSize
    · rw [window, if_pos h]
    · have hmore : ¬ instructions (x :: (rs ++ [r])) ≤ robSize := by
        simp only [instructions, map_cons, map_append, sum_cons, sum_append] at h ⊢
        omega
      rw [window, if_neg h, ih, cons_append, window, if_neg hmore]

structure Summary (t : ThreadInfo) (rs : List Record) : Prop where
  ins : t.insCount = instructions rs
  llcm : t.llcmCount = misses rs
  rob : t.llcmTypeRob = types rs
  counts : ∀ k, t.mCount k = (types rs).count k

def Typed (rs : List Record) : Prop := ∀ r ∈ rs, r.types.length = llcmCount r.flags

def ownOf (tid : UInt64) (rs : List Record) : List Record := rs.filter (·.owner = tid)

variable {t : ThreadInfo} {rs ring : List Record} {r : Record} {tid : UInt64} {s : State}

lemma pushTypes_spec (n : ℕ) (t : ThreadInfo) :
    (pushTypes n t).2.length = n ∧ (pushTypes n t).1.llcmTypeRob = t.llcmTypeRob ++ (pushTypes n t).2 ∧
      (∀ k, (pushTypes n t).1.mCount k = t.mCount k + (pushTypes n t).2.count k) ∧
      (pushTypes n t).1.insCount = t.insCount ∧ (pushTypes n t).1.llcmCount = t.llcmCount := by
  induction n generalizing t with
  | zero => simp [pushTypes]
  | succ n ih =>
    obtain ⟨hlen, hrob, hcount, hins, hllcm⟩ := ih (pushType t)
    refine ⟨by simp [pushTypes, hlen], ?_, fun k => ?_, hins, hllcm⟩
    · rw [pushTypes, hrob, append_cons]
      rfl
    · have hone : (pushType t).mCount k = t.mCount k + if nextType t = k then 1 else 0 := by
        by_cases hk : k = nextType t
        · simp [pushType, hk]
        · simp [pushType, hk, Ne.symm hk]
      rw [pushTypes, hcount k, count_cons, hone]
      simp only [beq_iff_eq, Nat.cast_add, Nat.cast_ite, Nat.cast_one, Nat.cast_zero]
      omega

lemma popTypes_spec (ks rest : List ℤ) (t : ThreadInfo) (hrob : t.llcmTypeRob = ks ++ rest) :
    ∃ t', popTypes ks.length t = some t' ∧ t'.llcmTypeRob = rest ∧
      (∀ k, t'.mCount k = t.mCount k - ks.count k) ∧ t'.insCount = t.insCount ∧ t'.llcmCount = t.llcmCount := by
  induction ks generalizing t with
  | nil => exact ⟨t, rfl, hrob, by simp, rfl, rfl⟩
  | cons x ks ih =>
    obtain ⟨t', heq, hrest, hcount, hins, hllcm⟩ :=
      ih { t with mCount := update t.mCount x (t.mCount x - 1), llcmTypeRob := ks ++ rest } rfl
    refine ⟨t', by rw [← heq, length_cons, popTypes, hrob]; rfl, hrest, fun k => ?_, hins, hllcm⟩
    rw [hcount k, count_cons]
    by_cases hk : k = x
    · subst hk
      simp [sub_sub, add_comm]
    · simp [hk, Ne.symm hk]

lemma Summary.enter (h : Summary t rs) (tid flags : UInt64) :
    Summary (enter t tid flags).1 (rs ++ [(enter t tid flags).2]) := by
  obtain ⟨hlen, hrob, hcount, hins, hllcm⟩ := pushTypes_spec (ReorderBuffer.llcmCount flags) t
  constructor
  · simp [ReorderBuffer.enter, hins, h.ins, instructions]
  · simp [ReorderBuffer.enter, hllcm, h.llcm, misses]
  · simp [ReorderBuffer.enter, hrob, h.rob, types]
  · intro k
    simp [ReorderBuffer.enter, hcount, h.counts, types]

lemma enter_typed (t : ThreadInfo) (tid flags : UInt64) :
    (enter t tid flags).2.types.length = llcmCount (enter t tid flags).2.flags :=
  (pushTypes_spec (llcmCount flags) t).1

lemma Summary.retire (h : Summary t (r :: rs)) (hr : r.types.length = llcmCount r.flags) :
    ∃ t', retire t r.flags = some t' ∧ Summary t' rs := by
  have hrob := h.rob
  rw [types, flatMap_cons] at hrob
  obtain ⟨t', heq, hrest, hcount, hins, hllcm⟩ := popTypes_spec r.types (types rs) { t with
    insCount := t.insCount - insCount r.flags
    llcmCount := t.llcmCount - llcmCount r.flags
    llcmBase := t.llcmBase + llcmCount r.flags } hrob
  rw [hr] at heq
  refine ⟨t', heq, ?_, ?_, hrest, fun k => ?_⟩
  · simp [hins, h.ins, instructions]
  · simp [hllcm, h.llcm, misses]
  · simp [hcount, h.counts, types]

def OwnPops (tid : UInt64) : ℤ → List Record → Prop
  | _, [] => True
  | n, r :: ring => n > robSize → r.owner = tid ∧ OwnPops tid (n - insCount r.flags) ring

lemma shrink_spec (ht : Summary t (ownOf tid ring)) (htyped : Typed ring) (hown : OwnPops tid t.insCount ring) :
    ∃ t' ring', shrink t ring = some (t', ring') ∧ Summary t' (ownOf tid ring') ∧ Typed ring' ∧
      ownOf tid ring' = window (ownOf tid ring) ∧ ∀ u ≠ tid, ownOf u ring' = ownOf u ring := by
  induction ring generalizing t with
  | nil =>
    have hins : t.insCount = 0 := by simpa [ownOf, instructions] using ht.ins
    exact ⟨t, [], by simp [shrink, hins], ht, htyped, rfl, fun _ _ => rfl⟩
  | cons r ring ih =>
    by_cases hbig : t.insCount > robSize
    · obtain ⟨howner, hown'⟩ := hown hbig
      have hsplit : ownOf tid (r :: ring) = r :: ownOf tid ring := by simp [ownOf, howner]
      rw [hsplit] at ht ⊢
      obtain ⟨t', hret, ht'⟩ := ht.retire (htyped r mem_cons_self)
      have hins : t'.insCount = t.insCount - insCount r.flags := by
        rw [ht.ins, ht'.ins]
        simp [instructions]
      obtain ⟨t'', ring', hsh, hsum, hty, hwin, hother⟩ :=
        ih ht' (fun x hx => htyped x (mem_cons_of_mem r hx)) (hins ▸ hown')
      have hover : ¬ instructions (r :: ownOf tid ring) ≤ robSize := by
        have := ht.ins
        omega
      refine ⟨t'', ring', by simp [shrink, hbig, hret, hsh], hsum, hty, by rw [hwin, window, if_neg hover], ?_⟩
      intro u hu
      rw [hother u hu]
      simp [ownOf, howner, Ne.symm hu]
    · refine ⟨t, r :: ring, by simp [shrink, hbig], ht, htyped, ?_, fun _ _ => rfl⟩
      have hfit : instructions (ownOf tid (r :: ring)) ≤ robSize := by
        have := ht.ins
        omega
      cases hw : ownOf tid (r :: ring) with
      | nil => rfl
      | cons x xs => rw [window, if_pos (hw ▸ hfit)]

/-! ## Runs -/

structure Inv (s : State) : Prop where
  typed : Typed s.ring
  summary : ∀ tid, Summary (s.threads tid) (ownOf tid s.ring)
  windowed : ∀ tid, ownOf tid s.ring = window (ownOf tid s.log)

def TakesOwn (s : State) (c : UInt64 × UInt64) : Prop :=
  let p := enter (s.threads c.1) c.1 c.2
  OwnPops c.1 p.1.insCount (s.ring ++ [p.2])

lemma insertOne_inv (h : Inv s) (c : UInt64 × UInt64) (hown : TakesOwn s c) :
    ∃ s', insertOne s c.1 c.2 = some s' ∧ Inv s' ∧
      s'.log.map (fun r => (r.owner, r.flags)) = s.log.map (fun r => (r.owner, r.flags)) ++ [c] := by
  obtain ⟨tid, flags⟩ := c
  have henter := (h.summary tid).enter tid flags
  have htyped := enter_typed (s.threads tid) tid flags
  simp only [TakesOwn] at hown
  generalize hp : enter (s.threads tid) tid flags = p at henter htyped hown
  have howner : p.2.owner = tid ∧ p.2.flags = flags := by rw [← hp]; exact ⟨rfl, rfl⟩
  have happend (u : UInt64) (rs : List Record) :
      ownOf u (rs ++ [p.2]) = ownOf u rs ++ if u = tid then [p.2] else [] := by
    by_cases hu : u = tid
    · simp [ownOf, howner.1, hu]
    · simp [ownOf, howner.1, hu, Ne.symm hu]
  have hown' := happend tid s.ring
  rw [if_pos rfl] at hown'
  have hall : Typed (s.ring ++ [p.2]) := fun r hr =>
    (List.mem_append.mp hr).elim (h.typed r) fun h => List.mem_singleton.mp h ▸ htyped
  rw [← hown'] at henter
  obtain ⟨t', ring', hshrink, hsum, hty, hwin, hother⟩ := shrink_spec henter hall hown
  refine ⟨⟨ring', update s.threads tid t', s.log ++ [p.2]⟩, by simp [insertOne, hp, hshrink], ⟨hty, ?_, ?_⟩, ?_⟩
  · intro u
    by_cases hu : u = tid
    · subst hu
      simpa using hsum
    · simpa [hu, hother u hu, happend] using h.summary u
  · intro u
    by_cases hu : u = tid
    · subst hu
      rw [hwin, hown', happend, if_pos rfl, h.windowed, window_concat]
    · simpa [hu, hother u hu, happend] using h.windowed u
  · simp [howner]

def Start (s : State) : Prop :=
  s.ring = [] ∧ s.log = [] ∧ ∀ tid, (s.threads tid).insCount = 0 ∧ (s.threads tid).llcmCount = 0 ∧
    (s.threads tid).llcmTypeRob = [] ∧ ∀ k, (s.threads tid).mCount k = 0

lemma start_inv (h : Start s) : Inv s := by
  obtain ⟨hring, hlog, hthreads⟩ := h
  refine ⟨by simp [Typed, hring], fun tid => ?_, fun tid => by rw [hring, hlog]; rfl⟩
  obtain ⟨hins, hllcm, hrob, hcount⟩ := hthreads tid
  rw [hring]
  exact ⟨hins, hllcm, hrob, hcount⟩

def Condition (s : Option State) (c : UInt64 × UInt64) : Prop := ∀ s' ∈ s, TakesOwn s' c

lemma run_window (h : Inv s) (calls : List (UInt64 × UInt64))
    (hown : AllSteps step Condition (some s) calls) : ∃ s', run step (some s) calls = some s' ∧ Inv s' ∧
      s'.log.map (fun r => (r.owner, r.flags)) = s.log.map (fun r => (r.owner, r.flags)) ++ calls := by
  induction calls generalizing s with
  | nil => exact ⟨s, rfl, h, by simp⟩
  | cons c calls ih =>
    obtain ⟨s1, heq, h1, hlog⟩ := insertOne_inv h c (hown.1 s rfl)
    have hstep : step (some s) c = some s1 := heq
    obtain ⟨s2, hrun, h2, hlog2⟩ := ih h1 (hstep ▸ hown.2)
    exact ⟨s2, by rw [run_cons, hstep, hrun], h2, by rw [hlog2, hlog, append_assoc]; rfl⟩

/-- The reorder window, while each thread takes only its own records: its counts are those of the longest suffix
that fits. -/
theorem window_per_thread (s : State) (hs : Start s) (calls : List (UInt64 × UInt64))
    (hown : AllSteps step Condition (some s) calls) :
    ∃ s', run step (some s) calls = some s' ∧ s'.log.map (fun r => (r.owner, r.flags)) = calls ∧
      ∀ tid, Summary (s'.threads tid) (window (ownOf tid s'.log)) ∧ 0 ≤ (s'.threads tid).insCount ∧
        0 ≤ (s'.threads tid).llcmCount ∧ ∀ k, 0 ≤ (s'.threads tid).mCount k := by
  obtain ⟨s', hrun, hinv, hlog⟩ := run_window (start_inv hs) calls hown
  refine ⟨s', hrun, by simpa [hs.2.1] using hlog, fun tid => ?_⟩
  have hsum := hinv.windowed tid ▸ hinv.summary tid
  exact ⟨hsum, by rw [hsum.ins]; exact Int.natCast_nonneg _, by rw [hsum.llcm]; exact Int.natCast_nonneg _,
    fun k => by rw [hsum.counts]; exact Int.natCast_nonneg _⟩

def start : State := ⟨[], fun _ => ⟨0, 0, 0, fun _ => 0, [], []⟩, []⟩

lemma start_ok : Start start := ⟨rfl, rfl, fun _ => ⟨rfl, rfl, rfl, fun _ => rfl⟩⟩

def twoThreads : List (UInt64 × UInt64) := [(1, 0x1900001), (2, 0x100002), (1, 0xC80001)]

/-- the third call retires the first record and leaves that of the other thread -/
theorem window_of_two_threads : ∃ s', run step (some start) twoThreads = some s' ∧ s'.ring.length = 2 ∧
    ∀ tid, Summary (s'.threads tid) (window (ownOf tid s'.log)) := by
  have hown : AllSteps step Condition (some start) twoThreads := by
    refine ⟨?_, ?_, ?_, trivial⟩ <;> rintro s' ⟨⟩
    · exact fun h => absurd h (by decide)
    · exact fun h => absurd h (by decide)
    · exact fun _ => ⟨rfl, fun h => absurd h (by decide)⟩
  obtain ⟨s', hrun, -, hall⟩ := window_per_thread start start_ok twoThreads hown
  refine ⟨s', hrun, ?_, fun tid => (hall tid).1⟩
  cases hrun
  rfl

/-- the first thread fills the ring, the second takes its record: the second's queue is empty -/
theorem other_thread_faults : run step (some start) [(1, 0x1900001), (2, 0x2590000)] = none := by decide +kernel

end CxlMemSim.ReorderBuffer
