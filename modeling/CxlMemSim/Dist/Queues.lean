/-
The queues between nodes: are messages delivered exactly once, in order, when any number of threads send and two workers
poll?

Model: one queue at the grain of its atomic accesses and slot copies. `accepted`, `returned` and `delivered` are ghosts:
the head stores, the ends of calls and the calls of `process_message`.
-/
import CxlMemSim.Core.Ring
import CxlMemSim.Dist.Region

namespace CxlMemSim.Dist.Queues

open CxlMemSim.Core List Function

structure Item where
  thread : ℕ
  number : ℕ
  msg : Message
deriving DecidableEq, Repr

inductive Sender where
  | idle
  | gotHead (i : Item) (head : UInt32)
  | ready (i : Item) (head : UInt32)
  | copied (i : Item) (head : UInt32)
  | stored (i : Item)
deriving DecidableEq, Repr

inductive Worker where
  | idle
  | gotHead (head : UInt32)
  | ready (tail : UInt32)
  | copied (tail : UInt32) (i : Item)
  | stored (i : Item)
  | counted (i : Item)
deriving DecidableEq, Repr

structure Queue where
  head : UInt32
  tail : UInt32
  msgCount : UInt32
  capacity : UInt32
  messages : ℕ → Item
  senders : ℕ → Sender
  workers : ℕ → Worker
  made : ℕ
  returned : List (Item × Bool)
  accepted : List Item
  delivered : List (ℕ × Item)

def Queue.fresh : Queue where
  head := 0
  tail := 0
  msgCount := 0
  capacity := msgQueueSize
  messages := fun _ => ⟨0, 0, {}⟩
  senders := fun _ => .idle
  workers := fun _ => .idle
  made := 0
  returned := []
  accepted := []
  delivered := []

/-! ## Steps -/

inductive Op where
  | send (t : ℕ) (msg : Message)
  | sender (t : ℕ)
  | poll (w : ℕ) (visited : Bool)
  | worker (w : ℕ)
deriving DecidableEq, Repr

variable (s : Queue)

def Queue.setSender (t : ℕ) (p : Sender) : Queue := { s with senders := update s.senders t p }

def Queue.setWorker (w : ℕ) (p : Worker) : Queue := { s with workers := update s.workers w p }

def sendStep (t : ℕ) (msg : Message) : Queue :=
  if s.senders t = .idle then
    { s with made := s.made + 1 }.setSender t (.gotHead ⟨t, s.made, msg⟩ s.head)
  else s

def senderStep (t : ℕ) : Queue :=
  match s.senders t with
  | .idle => s
  | .gotHead i h =>
    -- the load of `tail` and the test for a full queue
    if (h + 1) % s.capacity = s.tail then { s with returned := s.returned ++ [(i, false)] }.setSender t .idle
    else s.setSender t (.ready i h)
  | .ready i h => { s with messages := update s.messages h.toNat i }.setSender t (.copied i h)
  | .copied i h => { s with head := (h + 1) % s.capacity, accepted := s.accepted ++ [i] }.setSender t (.stored i)
  | .stored i => { s with msgCount := s.msgCount + 1, returned := s.returned ++ [(i, true)] }.setSender t .idle

/-- `visited`: the source of the queue is active and is not the node itself -/
def pollStep (w : ℕ) (visited : Bool) : Queue :=
  if visited ∧ s.workers w = .idle then s.setWorker w (.gotHead s.head) else s

def workerStep (w : ℕ) : Queue :=
  match s.workers w with
  | .idle => s
  | .gotHead h => if h = s.tail then s.setWorker w .idle else s.setWorker w (.ready s.tail)
  | .ready t => s.setWorker w (.copied t (s.messages t.toNat))
  | .copied t i => { s with tail := (t + 1) % s.capacity }.setWorker w (.stored i)
  | .stored i => { s with msgCount := s.msgCount - 1 }.setWorker w (.counted i)
  | .counted i => { s with delivered := s.delivered ++ [(w, i)] }.setWorker w .idle

def step : Op → Queue
  | .send t msg => sendStep s t msg
  | .sender t => senderStep s t
  | .poll w visited => pollStep s w visited
  | .worker w => workerStep s w

abbrev Net := UInt32 → Queue

/-! ## Statement -/

def Queue.contents : List Item :=
  window s.messages s.capacity.toNat s.tail.toNat
    ((s.head.toNat + s.capacity.toNat - s.tail.toNat) % s.capacity.toNat)

def Queue.Quiet : Prop := (∀ t, s.senders t = .idle) ∧ ∀ w, s.workers w = .idle

def round (w : ℕ) : List Op := [.poll w true, .worker w, .worker w, .worker w, .worker w, .worker w]

def rounds (w : ℕ) : ℕ → List Op
  | 0 => []
  | n + 1 => round w ++ rounds w n

structure Delivers (s : Queue) : Prop where
  once : ∃ hand, (∀ i ∈ hand, ∃ w, s.workers w = .stored i ∨ s.workers w = .counted i) ∧
    s.delivered.map Prod.snd ++ hand ++ s.contents = s.accepted
  order : s.accepted.Pairwise fun i j => i.number < j.number
  sent : ∀ i ok, (i, ok) ∈ s.returned → (i ∈ s.accepted ↔ ok = true)
  bound : s.contents.length ≤ msgQueueSize.toNat - 1
  count : s.Quiet → s.msgCount.toNat = s.contents.length ∧ s.delivered.map Prod.snd ++ s.contents = s.accepted
  all : (∀ w, s.workers w = .idle) → ∀ w, (run step s (rounds w s.contents.length)).delivered.map Prod.snd = s.accepted

def Exclusive : Op → Prop
  | .send _ _ => ∀ t, s.senders t = .idle
  | .poll _ visited => visited → ∀ w, s.workers w = .idle
  | _ => True

/-! ## Invariant -/

def Sender.owes : Sender → UInt32
  | .stored _ => 1
  | _ => 0

def Worker.owes : Worker → UInt32
  | .stored _ => 1
  | _ => 0

def Sender.unreturned : Sender → List Item
  | .stored i => [i]
  | _ => []

def Worker.hand : Worker → List Item
  | .stored i => [i]
  | .counted i => [i]
  | _ => []

/-- the message of a call that has not stored `head` has a number above those of all earlier calls -/
structure Fresh (s : Queue) (i : Item) : Prop where
  accepted : ∀ j ∈ s.accepted, j.number < i.number
  returned : ∀ j ok, (j, ok) ∈ s.returned → j.number < i.number
  made : i.number < s.made

def SenderOk (out : ℕ) : Sender → Prop
  | .idle => True
  | .gotHead i h => h = s.head ∧ Fresh s i
  | .ready i h => h = s.head ∧ Fresh s i ∧ s.accepted.length + 1 < out + 4096
  | .copied i h => h = s.head ∧ Fresh s i ∧ s.accepted.length + 1 < out + 4096 ∧ s.messages h.toNat = i
  | .stored _ => True

def WorkerOk (out : ℕ) : Worker → Prop
  | .idle => True
  | .gotHead h => ∃ a, out ≤ a ∧ a ≤ s.accepted.length ∧ h.toNat = a % 4096
  | .ready t => t = s.tail ∧ out < s.accepted.length
  | .copied t i => t = s.tail ∧ s.accepted[out]? = some i
  | .stored _ => True
  | .counted _ => True

structure Ring (s : Queue) (out : ℕ) (p : Sender) (q : Worker) : Prop where
  capacity : s.capacity = msgQueueSize
  head : s.head.toNat = s.accepted.length % 4096
  tail : s.tail.toNat = out % 4096
  le : out ≤ s.accepted.length
  room : s.accepted.length < out + 4096
  items : window s.messages 4096 out (s.accepted.length - out) = s.accepted.drop out
  sender : SenderOk s out p
  worker : WorkerOk s out q
  hand : s.delivered.map Prod.snd ++ q.hand = s.accepted.take out
  count : s.msgCount + p.owes = UInt32.ofNat (s.accepted.length - out) + q.owes
  order : s.accepted.Pairwise fun i j => i.number < j.number
  numbers : ∀ i ∈ s.accepted, i.number < s.made
  returned : ∀ i ok, (i, ok) ∈ s.returned → (i ∈ s.accepted ↔ ok = true) ∧ i.number < s.made
  unreturned : ∀ i ∈ p.unreturned, i ∈ s.accepted ∧ ∀ ok, (i, ok) ∉ s.returned

structure Inv (s : Queue) (out t w : ℕ) : Prop where
  ring : Ring s out (s.senders t) (s.workers w)
  senders : ∀ t', t' ≠ t → s.senders t' = .idle
  workers : ∀ w', w' ≠ w → s.workers w' = .idle

lemma inv_fresh (t w : ℕ) : Inv Queue.fresh 0 t w where
  ring :=
    { capacity := rfl
      head := rfl
      tail := rfl
      le := Nat.zero_le _
      room := by decide
      items := rfl
      sender := trivial
      worker := trivial
      hand := rfl
      count := rfl
      order := List.Pairwise.nil
      numbers := fun _ hi => absurd hi not_mem_nil
      returned := fun _ _ hi => absurd hi not_mem_nil
      unreturned := fun _ hi => absurd hi not_mem_nil }
  senders _ _ := rfl
  workers _ _ := rfl

/-! ## A thread sends -/

variable {s : Queue} {out t w : ℕ} {p : Sender} {q : Worker}

variable {x : UInt32} {i : Item} {s' : Queue} {out' : ℕ}

lemma next_toNat {a : ℕ} (h : x.toNat = a % 4096) : ((x + 1) % msgQueueSize).toNat = (a + 1) % 4096 := by
  rw [UInt32.toNat_mod, UInt32.toNat_add, h]
  change (a % 4096 + 1) % 4294967296 % 4096 = (a + 1) % 4096
  omega

lemma Ring.call (h : Ring s out .idle q) (t : ℕ) (msg : Message) :
    Ring { s with made := s.made + 1 } out (.gotHead ⟨t, s.made, msg⟩ s.head) q :=
  { h with
    sender := ⟨rfl, h.numbers, fun j ok hj => (h.returned j ok hj).2, Nat.lt_succ_self _⟩
    numbers := fun i hi => (h.numbers i hi).trans (Nat.lt_succ_self _)
    returned := fun i ok hi => ⟨(h.returned i ok hi).1, (h.returned i ok hi).2.trans (Nat.lt_succ_self _)⟩
    unreturned := fun _ hi => absurd hi not_mem_nil }

lemma Fresh.not_mem (h : Fresh s i) : i ∉ s.accepted := fun hi => Nat.lt_irrefl _ (h.accepted i hi)

lemma Ring.refuse (h : Ring s out (.gotHead i x) q) :
    Ring { s with returned := s.returned ++ [(i, false)] } out .idle q :=
  { h with
    sender := trivial
    returned := by
      intro j ok hj
      rcases List.mem_append.mp hj with hj | hj
      · exact h.returned j ok hj
      · obtain ⟨rfl, rfl⟩ := Prod.mk.inj (List.mem_singleton.mp hj)
        have hfresh := h.sender.2
        exact ⟨iff_of_false hfresh.not_mem (by decide), hfresh.made⟩
    unreturned := fun _ hi => absurd hi not_mem_nil }

lemma Ring.notFull (h : Ring s out (.gotHead i x) q)
    (hfull : (x + 1) % s.capacity ≠ s.tail) : Ring s out (.ready i x) q := by
  obtain ⟨rfl, hfresh⟩ := h.sender
  have hroom : s.accepted.length + 1 < out + 4096 := by
    by_contra hlt
    refine hfull (UInt32.toNat_inj.mp ?_)
    have hle := h.le
    have hr := h.room
    rw [h.capacity, next_toNat h.head, h.tail, ← Nat.mod_add_mod, (full_iff hle hr).mpr (by omega)]
  exact { h with
    sender := ⟨rfl, hfresh, hroom⟩
    unreturned := fun _ hi => absurd hi not_mem_nil }

lemma Ring.copy (h : Ring s out (.ready i x) q) :
    Ring { s with messages := update s.messages x.toNat i } out (.copied i x) q := by
  obtain ⟨rfl, hfresh, hroom⟩ := h.sender
  have hle := h.le
  have hr := h.room
  exact { h with
    items := by
      have hbehind : out + (s.accepted.length - out) ≤ s.accepted.length := by omega
      rw [h.head]
      exact (window_update s.messages hbehind hr i).trans h.items
    sender := ⟨rfl, ⟨hfresh.accepted, hfresh.returned, hfresh.made⟩, hroom, update_self ..⟩
    unreturned := fun _ hi => absurd hi not_mem_nil }

lemma Ring.store (h : Ring s out (.copied i x) q) :
    Ring { s with head := (x + 1) % s.capacity, accepted := s.accepted ++ [i] } out (.stored i) q := by
  obtain ⟨rfl, hfresh, hroom, hslot⟩ := h.sender
  have hle := h.le
  have hlen : (s.accepted ++ [i]).length = s.accepted.length + 1 := by simp
  exact { h with
    head := by
      rw [hlen, h.capacity]
      exact next_toNat h.head
    le := by rw [hlen]; omega
    room := by rw [hlen]; exact hroom
    items := by
      rw [hlen, Nat.sub_add_comm hle, drop_append_of_le_length hle, ← h.items]
      refine window_push ?_
      rw [Nat.add_sub_cancel' hle, ← h.head]
      exact hslot
    sender := trivial
    worker := by
      have hw := h.worker
      cases q with
      | idle => trivial
      | gotHead y =>
        obtain ⟨a, ha, hle', hy⟩ := hw
        exact ⟨a, ha, by rw [hlen]; omega, hy⟩
      | ready y => exact ⟨hw.1, by rw [hlen]; exact Nat.lt_succ_of_lt hw.2⟩
      | copied y j =>
        obtain ⟨hlt, -⟩ := List.getElem?_eq_some_iff.mp hw.2
        exact ⟨hw.1, by rw [getElem?_append_left hlt]; exact hw.2⟩
      | stored j | counted j => trivial
    hand := by rw [take_append_of_le_length hle]; exact h.hand
    count := by
      have hcount := h.count
      simp only [Sender.owes, UInt32.add_zero] at hcount ⊢
      rw [hlen, Nat.sub_add_comm hle, UInt32.ofNat_add, hcount, UInt32.add_assoc, UInt32.add_assoc,
        UInt32.add_comm (q.owes)]
      rfl
    order := by
      rw [pairwise_append]
      exact ⟨h.order, pairwise_singleton .., fun a ha b hb => by
        rw [List.mem_singleton.mp hb]; exact hfresh.accepted a ha⟩
    numbers := by
      intro j hj
      rcases List.mem_append.mp hj with hj | hj
      · exact h.numbers j hj
      · rw [List.mem_singleton.mp hj]; exact hfresh.made
    returned := by
      intro j ok hj
      have hne : j ≠ i := fun heq => Nat.lt_irrefl _ (heq ▸ hfresh.returned j ok hj)
      simpa [hne] using h.returned j ok hj
    unreturned := by
      intro j hj
      obtain rfl := List.mem_singleton.mp hj
      exact ⟨by simp, fun ok hok => Nat.lt_irrefl _ (hfresh.returned j ok hok)⟩ }

lemma Ring.countUp (h : Ring s out (.stored i) q) :
    Ring { s with msgCount := s.msgCount + 1, returned := s.returned ++ [(i, true)] } out .idle q :=
  { h with
    sender := trivial
    count := by
      have hcount := h.count
      simpa [Sender.owes] using hcount
    returned := by
      intro j ok hj
      rcases List.mem_append.mp hj with hj | hj
      · exact h.returned j ok hj
      · obtain ⟨rfl, rfl⟩ := Prod.mk.inj (List.mem_singleton.mp hj)
        have hmem := (h.unreturned j (mem_singleton_self j)).1
        exact ⟨iff_of_true hmem rfl, h.numbers j hmem⟩
    unreturned := fun _ hi => absurd hi not_mem_nil }

/-! ## A worker receives -/

lemma SenderOk.mono (h : SenderOk s out p) (hhead : s'.head = s.head)
    (haccepted : s'.accepted = s.accepted) (hreturned : s'.returned = s.returned) (hmade : s'.made = s.made)
    (hmessages : s'.messages = s.messages) (hout : out ≤ out') : SenderOk s' out' p := by
  have hfresh : ∀ i, Fresh s i → Fresh s' i := by
    intro i hi
    refine ⟨?_, ?_, ?_⟩
    · rw [haccepted]; exact hi.accepted
    · rw [hreturned]; exact hi.returned
    · rw [hmade]; exact hi.made
  cases p with
  | idle => trivial
  | gotHead i x => exact ⟨h.1.trans hhead.symm, hfresh i h.2⟩
  | ready i x =>
    obtain ⟨hx, hi, hroom⟩ := h
    exact ⟨hx.trans hhead.symm, hfresh i hi, by rw [haccepted]; omega⟩
  | copied i x =>
    obtain ⟨hx, hi, hroom, hslot⟩ := h
    exact ⟨hx.trans hhead.symm, hfresh i hi, by rw [haccepted]; omega, by rw [hmessages]; exact hslot⟩
  | stored i => trivial

lemma Ring.look (h : Ring s out p .idle) : Ring s out p (.gotHead s.head) :=
  { h with worker := ⟨s.accepted.length, h.le, le_rfl, h.head⟩ }

lemma Ring.leave (h : Ring s out p (.gotHead x)) : Ring s out p .idle :=
  { h with worker := trivial }

lemma Ring.notEmpty (h : Ring s out p (.gotHead x)) (hne : x ≠ s.tail) : Ring s out p (.ready s.tail) := by
  obtain ⟨a, hle, hle', hx⟩ := h.worker
  have hlt : out < s.accepted.length := by
    by_contra hlt
    refine hne (UInt32.toNat_inj.mp ?_)
    rw [hx, h.tail, show a = out by omega]
  exact { h with worker := ⟨rfl, hlt⟩ }

lemma Ring.first (h : Ring s out p q) (hlt : out < s.accepted.length) :
    s.accepted[out]? = some (s.messages s.tail.toNat) ∧
      window s.messages 4096 (out + 1) (s.accepted.length - (out + 1)) = s.accepted.drop (out + 1) := by
  have hitems := h.items
  rw [show s.accepted.length - out = s.accepted.length - (out + 1) + 1 by omega, window_succ, ← h.tail,
    drop_eq_getElem_cons hlt, List.cons.injEq] at hitems
  exact ⟨by rw [getElem?_eq_getElem hlt, hitems.1], hitems.2⟩

lemma Ring.take (h : Ring s out p (.ready x)) : Ring s out p (.copied x (s.messages x.toNat)) := by
  obtain ⟨rfl, hlt⟩ := h.worker
  exact { h with worker := ⟨rfl, (h.first hlt).1⟩ }

lemma Ring.release (h : Ring s out p (.copied x i)) :
    Ring { s with tail := (x + 1) % s.capacity } (out + 1) p (.stored i) := by
  obtain ⟨rfl, hi⟩ := h.worker
  obtain ⟨hlt, -⟩ := List.getElem?_eq_some_iff.mp hi
  have hroom := h.room
  exact { h with
    tail := by
      rw [h.capacity]
      exact next_toNat h.tail
    le := hlt
    room := Nat.lt_of_lt_of_le hroom (by omega)
    items := (h.first hlt).2
    sender := h.sender.mono rfl rfl rfl rfl rfl (Nat.le_succ out)
    worker := trivial
    hand := by
      have hhand := h.hand
      simp only [Worker.hand, append_nil] at hhand ⊢
      rw [take_add_one, hi, hhand]
      rfl
    count := by
      have hcount := h.count
      simp only [Worker.owes, UInt32.add_zero] at hcount ⊢
      rw [hcount, show s.accepted.length - out = s.accepted.length - (out + 1) + 1 by omega, UInt32.ofNat_add]
      rfl }

lemma Ring.countDown (h : Ring s out p (.stored i)) : Ring { s with msgCount := s.msgCount - 1 } out p (.counted i) :=
  { h with
    sender := h.sender.mono rfl rfl rfl rfl rfl le_rfl
    worker := trivial
    count := by
      have hcount := h.count
      simp only [Worker.owes, UInt32.add_zero] at hcount ⊢
      rw [UInt32.sub_eq_add_neg, UInt32.add_assoc, UInt32.add_comm (-1), ← UInt32.add_assoc, hcount,
        ← UInt32.sub_eq_add_neg, UInt32.add_sub_cancel] }

lemma Ring.deliver (h : Ring s out p (.counted i)) (w : ℕ) :
    Ring { s with delivered := s.delivered ++ [(w, i)] } out p .idle :=
  { h with
    sender := h.sender.mono rfl rfl rfl rfl rfl le_rfl
    worker := trivial
    hand := by simpa [Worker.hand] using h.hand }

/-! ## Steps and runs -/

lemma Ring.setSender (h : Ring s out p q) (t : ℕ) (p' : Sender) : Ring (s.setSender t p') out p q :=
  { h with sender := h.sender.mono rfl rfl rfl rfl rfl le_rfl }

lemma Ring.setWorker (h : Ring s out p q) (w : ℕ) (q' : Worker) : Ring (s.setWorker w q') out p q :=
  { h with sender := h.sender.mono rfl rfl rfl rfl rfl le_rfl }

variable (h : Inv s out t w)
include h

lemma Inv.atSender (hring : Ring s' out p (s.workers w))
    (hsenders : s'.senders = s.senders) (hworkers : s'.workers = s.workers) : Inv (s'.setSender t p) out t w where
  ring := by
    have hp : (s'.setSender t p).senders t = p := update_self ..
    have hw : (s'.setSender t p).workers w = s.workers w := congrFun hworkers w
    rw [hp, hw]
    exact hring.setSender t p
  senders t' ht' := by
    have : (s'.setSender t p).senders t' = s'.senders t' := update_of_ne ht' ..
    rw [this, hsenders]
    exact h.senders t' ht'
  workers w' hw' := by
    have : (s'.setSender t p).workers w' = s.workers w' := congrFun hworkers w'
    rw [this]
    exact h.workers w' hw'

lemma Inv.atWorker (hring : Ring s' out' (s.senders t) q)
    (hsenders : s'.senders = s.senders) (hworkers : s'.workers = s.workers) : Inv (s'.setWorker w q) out' t w where
  ring := by
    have hq : (s'.setWorker w q).workers w = q := update_self ..
    have ht : (s'.setWorker w q).senders t = s.senders t := congrFun hsenders t
    rw [hq, ht]
    exact hring.setWorker w q
  senders t' ht' := by
    have : (s'.setWorker w q).senders t' = s.senders t' := congrFun hsenders t'
    rw [this]
    exact h.senders t' ht'
  workers w' hw' := by
    have : (s'.setWorker w q).workers w' = s'.workers w' := update_of_ne hw' ..
    rw [this, hworkers]
    exact h.workers w' hw'

lemma Inv.ofSender (hidle : ∀ t', s.senders t' = .idle) (t' : ℕ) : Inv s out t' w :=
  ⟨by rw [hidle t', ← hidle t]; exact h.ring, fun t'' _ => hidle t'', h.workers⟩

lemma Inv.ofWorker (hidle : ∀ w', s.workers w' = .idle) (w' : ℕ) : Inv s out t w' :=
  ⟨by rw [hidle w', ← hidle w]; exact h.ring, h.senders, fun w'' _ => hidle w''⟩

lemma inv_sendStep (hidle : ∀ t', s.senders t' = .idle) (t' : ℕ) (msg : Message) :
    Inv (sendStep s t' msg) out t' w := by
  have h' := h.ofSender hidle t'
  have hring := h'.ring
  rw [hidle t'] at hring
  rw [sendStep, if_pos (hidle t')]
  exact h'.atSender (hring.call t' msg) rfl rfl

lemma inv_senderStep (t' : ℕ) : Inv (senderStep s t') out t w := by
  by_cases ht : t' = t
  · subst ht
    have hring := h.ring
    unfold senderStep
    cases hp : s.senders t' with
    | idle => exact h
    | gotHead i x =>
      rw [hp] at hring
      dsimp only
      split_ifs with hfull
      · exact h.atSender hring.refuse rfl rfl
      · exact h.atSender (hring.notFull hfull) rfl rfl
    | ready i x =>
      rw [hp] at hring
      exact h.atSender hring.copy rfl rfl
    | copied i x =>
      rw [hp] at hring
      exact h.atSender hring.store rfl rfl
    | stored i =>
      rw [hp] at hring
      exact h.atSender hring.countUp rfl rfl
  · have hidle : senderStep s t' = s := by rw [senderStep, h.senders t' ht]
    rw [hidle]
    exact h

lemma inv_pollStep (w' : ℕ) (visited : Bool) (hidle : visited → ∀ w', s.workers w' = .idle) :
    ∃ w, Inv (pollStep s w' visited) out t w := by
  cases visited with
  | false => exact ⟨w, by simpa [pollStep] using h⟩
  | true =>
    have h' := h.ofWorker (hidle rfl) w'
    have hring := h'.ring
    rw [hidle rfl w'] at hring
    rw [pollStep, if_pos ⟨rfl, hidle rfl w'⟩]
    exact ⟨w', h'.atWorker hring.look rfl rfl⟩

lemma inv_workerStep (w' : ℕ) : ∃ out', Inv (workerStep s w') out' t w := by
  by_cases hw : w' = w
  · subst hw
    have hring := h.ring
    unfold workerStep
    cases hq : s.workers w' with
    | idle => exact ⟨out, h⟩
    | gotHead x =>
      rw [hq] at hring
      dsimp only
      split_ifs with hempty
      · exact ⟨out, h.atWorker hring.leave rfl rfl⟩
      · exact ⟨out, h.atWorker (hring.notEmpty hempty) rfl rfl⟩
    | ready x =>
      rw [hq] at hring
      exact ⟨out, h.atWorker hring.take rfl rfl⟩
    | copied x i =>
      rw [hq] at hring
      exact ⟨out + 1, h.atWorker hring.release rfl rfl⟩
    | stored i =>
      rw [hq] at hring
      exact ⟨out, h.atWorker hring.countDown rfl rfl⟩
    | counted i =>
      rw [hq] at hring
      exact ⟨out, h.atWorker (hring.deliver w') rfl rfl⟩
  · have hidle : workerStep s w' = s := by rw [workerStep, h.workers w' hw]
    rw [hidle]
    exact ⟨out, h⟩

omit h

lemma inv_step (h : ∃ out t w, Inv s out t w) (op : Op) (hop : Exclusive s op) :
    ∃ out t w, Inv (step s op) out t w := by
  obtain ⟨out, t, w, h⟩ := h
  cases op with
  | send t' msg => exact ⟨out, t', w, inv_sendStep h hop t' msg⟩
  | sender t' => exact ⟨out, t, w, inv_senderStep h t'⟩
  | poll w' visited => exact ⟨out, t, inv_pollStep h w' visited hop⟩
  | worker w' =>
    obtain ⟨out', h'⟩ := inv_workerStep h w'
    exact ⟨out', t, w, h'⟩

/-! ## What the invariant says -/

lemma Ring.contents_eq (h : Ring s out p q) : s.contents = s.accepted.drop out := by
  have hcap : s.capacity.toNat = 4096 := by rw [h.capacity]; rfl
  rw [Queue.contents, hcap, h.head, h.tail, dist_mod h.le h.room, window_mod]
  exact h.items

def Queue.afterRound (s : Queue) (w : ℕ) : Queue :=
  { s with
    tail := (s.tail + 1) % s.capacity
    msgCount := s.msgCount - 1
    delivered := s.delivered ++ [(w, s.messages s.tail.toNat)] }.setWorker w .idle

lemma run_round (hidle : s.workers w = .idle) (hne : s.head ≠ s.tail) : run step s (round w) = s.afterRound w := by
  simp [round, run, step, pollStep, workerStep, Queue.setWorker, Queue.afterRound, hidle, hne]

lemma inv_round (h : Inv s out t w) (hidle : s.workers w = .idle) (hlt : out < s.accepted.length) :
    run step s (round w) = s.afterRound w ∧ Inv (s.afterRound w) (out + 1) t w := by
  have hring := h.ring
  rw [hidle] at hring
  have hne : s.head ≠ s.tail := by
    intro heq
    have htoNat := congrArg UInt32.toNat heq
    rw [hring.head, hring.tail, mod_eq_iff hring.le hring.room] at htoNat
    omega
  exact ⟨run_round hidle hne, h.atWorker (((hring.look.notEmpty hne).take.release.countDown).deliver w) rfl rfl⟩

/-- Polling on delivers everything. -/
lemma rounds_deliver (h : Inv s out t w) (hidle : s.workers w = .idle) :
    (run step s (rounds w (s.accepted.length - out))).delivered.map Prod.snd = s.accepted := by
  induction hn : s.accepted.length - out generalizing s out with
  | zero =>
    have hhand := h.ring.hand
    have hle := h.ring.le
    have hempty : Worker.idle.hand = [] := rfl
    rw [hidle, hempty, append_nil, take_of_length_le (by omega)] at hhand
    exact hhand
  | succ n ih =>
    obtain ⟨hrun, hinv⟩ := inv_round h hidle (by omega)
    rw [rounds, run_append, hrun]
    have hn' : (s.afterRound w).accepted.length - (out + 1) = n := by
      change s.accepted.length - (out + 1) = n
      omega
    exact ih hinv (update_self ..) hn'

lemma Inv.delivers (h : Inv s out t w) : Delivers s := by
  have hcontents := h.ring.contents_eq
  have hle := h.ring.le
  have hroom := h.ring.room
  have hlength : s.contents.length = s.accepted.length - out := by rw [hcontents, length_drop]
  have hall : s.delivered.map Prod.snd ++ (s.workers w).hand ++ s.contents = s.accepted := by
    rw [h.ring.hand, hcontents, take_append_drop]
  refine ⟨⟨(s.workers w).hand, ?_, hall⟩, h.ring.order, fun i ok hi => (h.ring.returned i ok hi).1, ?_, ?_, ?_⟩
  · intro i hi
    refine ⟨w, ?_⟩
    cases hq : s.workers w with
    | stored j =>
      rw [hq] at hi
      exact .inl (by rw [List.mem_singleton.mp hi])
    | counted j =>
      rw [hq] at hi
      exact .inr (by rw [List.mem_singleton.mp hi])
    | idle | gotHead | ready | copied =>
      rw [hq] at hi
      cases hi
  · change s.contents.length ≤ 4095
    omega
  · intro hquiet
    have hcount := h.ring.count
    rw [hquiet.1 t, hquiet.2 w] at hcount
    rw [hquiet.2 w] at hall
    simp only [Sender.owes, Worker.owes, UInt32.add_zero] at hcount
    refine ⟨?_, by simpa [Worker.hand] using hall⟩
    rw [hcount, hlength, UInt32.toNat_ofNat_of_lt']
    exact lt_of_lt_of_le (show s.accepted.length - out < 4096 by omega) (by decide)
  · intro hidle w'
    rw [hlength]
    exact rounds_deliver (h.ofWorker hidle w') (hidle w')

/-- As long as no two calls of a kind overlap at a queue, it delivers what was sent exactly once, in order; and its
count is right whenever no call is in progress. -/
theorem exactly_once (ops : List (UInt32 × Op))
    (hops : AllSteps (each step) (fun s o => Exclusive (s o.1) o.2) (fun _ => Queue.fresh) ops) (src : UInt32) :
    Delivers (run (each step) (fun _ => Queue.fresh) ops src) := by
  rw [run_each]
  obtain ⟨out, t, w, h⟩ := run_inv (P := fun s => ∃ out t w, Inv s out t w) (fun s o hs ho => inv_step hs o ho)
    ⟨0, 0, 0, inv_fresh 0 0⟩ (allSteps_each hops src)
  exact h.delivers

def inTurn : List (UInt32 × Op) :=
  [(3, .send 0 {}), (3, .sender 0), (5, .send 7 {}), (3, .sender 0), (3, .sender 0), (3, .sender 0), (3, .poll 1 true),
    (3, .worker 1), (3, .worker 1), (3, .worker 1), (3, .worker 1), (3, .worker 1)]

theorem exactly_once_in_turn : (run (each step) (fun _ => Queue.fresh) inTurn 3).delivered = [(1, ⟨0, 0, {}⟩)] ∧
    Delivers (run (each step) (fun _ => Queue.fresh) inTurn 3) := by
  refine ⟨by decide +kernel, exactly_once inTurn ?_ 3⟩
  exact ⟨fun _ => rfl, trivial, fun _ => rfl, trivial, trivial, trivial, fun _ _ => rfl, trivial, trivial, trivial,
    trivial, trivial, trivial⟩

def atOnce : List (UInt32 × Op) :=
  [(3, .send 0 {}), (3, .send 1 {}), (3, .sender 0), (3, .sender 1), (3, .sender 0), (3, .sender 1), (3, .sender 0),
    (3, .sender 1), (3, .sender 0), (3, .sender 1)]

/-- both sends return true; the queue holds the second message alone and counts two -/
theorem two_senders_lose :
    (run (each step) (fun _ => Queue.fresh) atOnce 3).returned = [(⟨0, 0, {}⟩, true), (⟨1, 1, {}⟩, true)] ∧
    (run (each step) (fun _ => Queue.fresh) atOnce 3).delivered = [] ∧
    (run (each step) (fun _ => Queue.fresh) atOnce 3).contents = [⟨1, 1, {}⟩] ∧
    (run (each step) (fun _ => Queue.fresh) atOnce 3).msgCount = 2 ∧
    ¬ Delivers (run (each step) (fun _ => Queue.fresh) atOnce 3) := by
  have hcontents : (run (each step) (fun _ => Queue.fresh) atOnce 3).contents = [⟨1, 1, {}⟩] := by decide +kernel
  refine ⟨by decide +kernel, by decide +kernel, hcontents, by decide +kernel, fun h => ?_⟩
  obtain ⟨hand, hheld, heq⟩ := h.once
  -- no worker has begun, so nothing is in a hand
  have hnone : hand = [] := List.eq_nil_iff_forall_not_mem.mpr fun i hi => by
    obtain ⟨w, hw | hw⟩ := hheld i hi <;> cases hw
  have hlength := congrArg List.length heq
  rw [hnone, hcontents] at hlength
  exact absurd hlength (by decide +kernel)

end CxlMemSim.Dist.Queues
