/-
The request ring of a shared-memory client: `send_request`, `wait_for_response`, `wait_for_request`, `send_response`,
and the workers that call them.

Model: one client's ring at the grain of its atomic accesses and slot copies, with one client thread and any number of
workers. `accepted`, `handled` and `returned` are ghosts: successful sends, calls of the handler and successful waits.
-/
import CxlMemSim.Core.Run
import CxlMemSim.Core.Ring

namespace CxlMemSim.Server.ShmRing

open CxlMemSim.Core List Function

/-! ## Model -/

def ringSize : UInt32 := 1024

structure Entry (α β : Type) where
  requestReady : Bool
  responseReady : Bool
  request : α
  response : β
deriving DecidableEq, Repr

inductive Client (α β : Type) where
  | idle
  | gotHead (r : α) (head : UInt32)
  | ready (r : α) (head : UInt32)
  | copied (r : α) (head : UInt32)
  | marked (r : α) (head : UInt32)
  | cleared (r : α) (head : UInt32)
  | scanning (i : ℕ)
  | found (i : ℕ)
  | taken (i : ℕ) (v : β)
  | scanned
deriving Repr

inductive Worker (α β : Type) where
  | idle
  | gotTail (tail : UInt32)
  | nonempty (tail : UInt32)
  | ready (tail : UInt32)
  | copied (tail : UInt32) (r : α)
  | cleared (tail : UInt32) (r : α)
  | holding (r : α)
  | answered (v : β)
  | seeking (head : UInt32) (i : ℕ) (v : β)
  | half (head : UInt32) (i : ℕ) (v : β)
  | chosen (k : ℕ) (v : β)
  | written (k : ℕ) (v : β)
deriving Repr

structure Handled (α β : Type) where
  worker : ℕ
  request : α
  response : β
deriving DecidableEq, Repr

structure Ring (α β : Type) where
  head : UInt32
  tail : UInt32
  entries : ℕ → Entry α β
  client : Client α β
  workers : ℕ → Worker α β
  accepted : List α
  handled : List (Handled α β)
  returned : List β

inductive Op (α β : Type) where
  | send (r : α)
  | wait
  | client
  | timeout
  | poll (w : ℕ)
  | worker (w : ℕ)
  | handle (w : ℕ) (v : β)
  | respond (w : ℕ)
deriving Repr

variable {α β : Type}

def Ring.fresh [Inhabited α] [Inhabited β] : Ring α β where
  head := 0
  tail := 0
  entries := fun _ => ⟨false, false, default, default⟩
  client := .idle
  workers := fun _ => .idle
  accepted := []
  handled := []
  returned := []

variable (s : Ring α β) (w : ℕ)

def Ring.setEntry (k : ℕ) (e : Entry α β) : Ring α β :=
  { s with entries := update s.entries k e }

def Ring.setWorker (q : Worker α β) : Ring α β :=
  { s with workers := update s.workers w q }

/-! ## Steps -/

def sendStep (r : α) : Ring α β :=
  match s.client with
  | .idle => { s with client := .gotHead r s.head }
  | _ => s

def waitStep : Ring α β :=
  match s.client with
  | .idle => { s with client := .scanning 0 }
  | _ => s

def timeoutStep : Ring α β :=
  match s.client with
  | .scanned => { s with client := .idle }
  | _ => s

def clientStep : Ring α β :=
  match s.client with
  | .idle => s
  | .gotHead r h =>
    -- the load of `tail` and the test for a full ring
    if (h + 1) % ringSize = s.tail then { s with client := .idle } else { s with client := .ready r h }
  | .ready r h => { s with client := .copied r h }.setEntry h.toNat { s.entries h.toNat with request := r }
  | .copied r h => { s with client := .marked r h }.setEntry h.toNat { s.entries h.toNat with requestReady := true }
  | .marked r h => { s with client := .cleared r h }.setEntry h.toNat { s.entries h.toNat with responseReady := false }
  | .cleared r h => { s with head := (h + 1) % ringSize, accepted := s.accepted ++ [r], client := .idle }
  | .scanning i =>
    if (s.entries i).responseReady then { s with client := .found i }
    else if i + 1 < ringSize.toNat then { s with client := .scanning (i + 1) }
    else { s with client := .scanned }
  | .found i => { s with client := .taken i (s.entries i).response }
  | .taken i v =>
    { s with client := .idle, returned := s.returned ++ [v] }.setEntry i { s.entries i with responseReady := false }
  | .scanned => { s with client := .scanning 0 }

def pollStep : Ring α β :=
  match s.workers w with
  | .idle => s.setWorker w (.gotTail s.tail)
  | _ => s

def handleStep (v : β) : Ring α β :=
  match s.workers w with
  | .holding r => { s with handled := s.handled ++ [Handled.mk w r v] }.setWorker w (.answered v)
  | _ => s

def respondStep : Ring α β :=
  match s.workers w with
  | .answered v => s.setWorker w (.seeking s.head 0 v)
  | _ => s

def seekOn (h : UInt32) (i : ℕ) (v : β) : Worker α β := if i + 1 < ringSize.toNat then .seeking h (i + 1) v else .idle

def seekIndex (h : UInt32) (i : ℕ) : ℕ := ((h + UInt32.ofNat i) % ringSize).toNat

def workerStep : Ring α β :=
  match s.workers w with
  | .gotTail t => s.setWorker w (if t = s.head then .idle else .nonempty t)
  | .nonempty t => s.setWorker w (if (s.entries (t % ringSize).toNat).requestReady then .ready t else .idle)
  | .ready t => s.setWorker w (.copied t (s.entries (t % ringSize).toNat).request)
  | .copied t r =>
    (s.setEntry (t % ringSize).toNat { s.entries (t % ringSize).toNat with requestReady := false }).setWorker w
      (.cleared t r)
  | .cleared t r => { s with tail := (t + 1) % ringSize }.setWorker w (.holding r)
  | .seeking h i v => s.setWorker w (if (s.entries (seekIndex h i)).requestReady then seekOn h i v else .half h i v)
  | .half h i v =>
    s.setWorker w (if (s.entries (seekIndex h i)).responseReady then seekOn h i v else .chosen (seekIndex h i) v)
  | .chosen k v => (s.setEntry k { s.entries k with response := v }).setWorker w (.written k v)
  | .written k _ => (s.setEntry k { s.entries k with responseReady := true }).setWorker w .idle
  | .idle | .holding _ | .answered _ => s

def step : Op α β → Ring α β
  | .send r => sendStep s r
  | .wait => waitStep s
  | .client => clientStep s
  | .timeout => timeoutStep s
  | .poll w => pollStep s w
  | .worker w => workerStep s w
  | .handle w v => handleStep s w v
  | .respond w => respondStep s w

/-! ## Statement -/

def Ring.Quiet : Prop := s.client = .idle ∧ ∀ w, s.workers w = .idle

def Ring.Empty : Prop := ∀ k < ringSize.toNat, (s.entries k).responseReady = false

instance : Decidable s.Empty := Nat.decidableBallLT _ _

def Client.sending : Client α β → Bool
  | .gotHead .. | .ready .. | .copied .. | .marked .. | .cleared .. => true
  | _ => false

def Worker.placing : Worker α β → Bool
  | .seeking .. | .half .. | .chosen .. | .written .. => true
  | _ => false

/-- a worker looks at the ring only when no other serves it; a response is placed only when the earlier ones were
returned and no send is in progress; a send starts only when no response is there or coming -/
def Orderly : Op α β → Prop
  | .poll _ => ∀ w, s.workers w = .idle
  | .respond _ => s.Empty ∧ s.client.sending = false
  | .send _ => s.Empty ∧ ∀ w, (s.workers w).placing = false
  | _ => True

structure Matched (s : Ring α β) : Prop where
  handled : ∀ (i : ℕ) (x : Handled α β), s.handled[i]? = some x → s.accepted[i]? = some x.request
  /-- the i-th successful wait returns what the handler computed for the i-th request -/
  returned : ∀ (i : ℕ) (v : β), s.returned[i]? = some v → ∃ x, s.handled[i]? = some x ∧ Handled.response x = v
  /-- every accepted request can be handled, and the client gets every response -/
  all : s.Quiet → ∀ (w : ℕ) (respond : α → β), ∃ ops, AllSteps step Orderly s ops ∧
    (run step s ops).accepted = s.accepted ∧ (run step s ops).handled =
      s.handled ++ (s.accepted.drop s.handled.length).map (fun r => ⟨w, r, respond r⟩) ∧
    (run step s ops).returned = (run step s ops).handled.map Handled.response

/-! ## Out of order -/

def sendOps (r : α) : List (Op α β) := [.send r, .client, .client, .client, .client, .client]

def takeOps (v : β) : List (Op α β) := [.poll w, .worker w, .worker w, .worker w, .worker w, .worker w, .handle w v]

def placeOps : List (Op α β) := [.respond w, .worker w, .worker w, .worker w, .worker w]

def serveOps (v : β) : List (Op α β) := takeOps w v ++ placeOps w

def waitOps (k : ℕ) : List (Op α β) := .wait :: List.replicate (k + 3) .client

/-- A response wiped out. 10 is answered 100, 20 is answered 200; the first wait returns 200. -/
theorem response_wiped :
    let s := run step (Ring.fresh : Ring ℕ ℕ)
      (sendOps 10 ++ serveOps 0 100 ++ sendOps 20 ++ serveOps 0 200 ++ waitOps 2)
    s.accepted = [10, 20] ∧ s.handled = [⟨0, 10, 100⟩, ⟨0, 20, 200⟩] ∧ s.returned = [200] := by
  decide +kernel

def bothTake : List (Op ℕ ℕ) :=
  [.poll 0, .poll 1, .worker 0, .worker 1, .worker 0, .worker 1, .worker 0, .worker 1, .worker 0, .worker 1, .worker 0,
    .worker 1, .handle 0 100, .handle 1 101]

/-- A request handled twice. Two workers look at the ring at once. -/
lemma handled_twice :
    let s := run step (Ring.fresh : Ring ℕ ℕ) (sendOps 10 ++ bothTake)
    s.accepted = [10] ∧ s.handled = [⟨0, 10, 100⟩, ⟨1, 10, 101⟩] := by
  decide +kernel

/-! ## Invariant -/

def Client.marks : Client α β → ℕ
  | .marked .. | .cleared .. => 1
  | _ => 0

def Worker.unmarks : Worker α β → ℕ
  | .cleared .. => 1
  | _ => 0

def Worker.hand : Worker α β → List α
  | .holding r => [r]
  | _ => []

def Worker.unplaced : Worker α β → List β
  | .answered v | .seeking _ _ v | .half _ _ v | .chosen _ v | .written _ v => [v]
  | _ => []

def ClientOk (out : ℕ) (f : Option β) : Client α β → Prop
  | .gotHead _ h => h = s.head
  | .ready _ h => h = s.head ∧ s.accepted.length + 1 < out + 1024
  | .copied r h | .marked r h | .cleared r h =>
    h = s.head ∧ s.accepted.length + 1 < out + 1024 ∧ (s.entries h.toNat).request = r
  | .found i => i = s.head.toNat ∧ f.isSome
  | .taken i v => i = s.head.toNat ∧ f = some v
  | .idle | .scanning _ | .scanned => True

def WorkerOk (out : ℕ) : Worker α β → Prop
  | .gotTail t => t = s.tail
  | .nonempty t | .ready t => t = s.tail ∧ out < s.accepted.length
  | .copied t r | .cleared t r => t = s.tail ∧ s.accepted[out]? = some r
  | .seeking h i _ | .half h i _ => h = s.head ∧ i = 0
  | .chosen k _ => k = s.head.toNat
  | .written k v => k = s.head.toNat ∧ (s.entries k).response = v
  | .idle | .holding _ | .answered _ => True

/-- `out` requests have been taken, the client is at `p`, one worker at `q`, and the response `f` is in the entry at
`head` -/
structure RingOk (s : Ring α β) (out : ℕ) (p : Client α β) (q : Worker α β) (f : Option β) : Prop where
  head : s.head.toNat = s.accepted.length % 1024
  tail : s.tail.toNat = out % 1024
  le : out ≤ s.accepted.length
  room : s.accepted.length < out + 1024
  items : window (fun k => (s.entries k).request) 1024 out (s.accepted.length - out) = s.accepted.drop out
  marks : ∀ k, (s.entries k).requestReady = true ↔ Occupied 1024 (out + q.unmarks) (s.accepted.length + p.marks) k
  flags : ∀ k, (s.entries k).responseReady = true ↔ f.isSome ∧ k = s.head.toNat
  answer : ∀ v ∈ f, (s.entries s.head.toNat).response = v
  sending : p.sending = true → f = none ∧ q.placing = false
  placing : q.placing = true → f = none
  client : ClientOk s out f p
  worker : WorkerOk s out q
  taken : s.handled.map Handled.request ++ q.hand = s.accepted.take out
  answered : s.returned ++ f.toList ++ q.unplaced = s.handled.map Handled.response

structure Inv (s : Ring α β) (out w : ℕ) (f : Option β) : Prop where
  ring : RingOk s out s.client (s.workers w) f
  workers : ∀ w', w' ≠ w → s.workers w' = .idle

lemma inv_fresh [Inhabited α] [Inhabited β] (w : ℕ) : Inv (Ring.fresh : Ring α β) 0 w none where
  ring :=
    { head := rfl
      tail := rfl
      le := le_rfl
      room := (by decide : 0 < 0 + 1024)
      items := rfl
      marks := fun k => iff_of_false Bool.false_ne_true fun ⟨_, _, hj, _⟩ => absurd hj (Nat.not_lt_zero _)
      flags := fun k => iff_of_false Bool.false_ne_true fun h => Bool.false_ne_true h.1
      answer := nofun
      sending := nofun
      placing := nofun
      client := trivial
      worker := trivial
      taken := rfl
      answered := rfl }
  workers _ _ := rfl

variable {s : Ring α β} {out w : ℕ} {p : Client α β} {q : Worker α β} {f : Option β}

variable {s' : Ring α β} {out' : ℕ} {x : UInt32} {r : α} {k : ℕ} {e : Entry α β} {i : ℕ} {v : β} {n : ℕ}

lemma ClientOk.mono (h : ClientOk s out f p) (hhead : s'.head = s.head)
    (haccepted : s'.accepted = s.accepted) (hrequest : ∀ k, (s'.entries k).request = (s.entries k).request)
    (hout : out ≤ out') : ClientOk s' out' f p := by
  have hroom : s.accepted.length + 1 < out + 1024 → s'.accepted.length + 1 < out' + 1024 := by
    rw [haccepted]
    omega
  cases p with
  | gotHead r x => exact h.trans hhead.symm
  | ready r x => exact ⟨h.1.trans hhead.symm, hroom h.2⟩
  | copied r x | marked r x | cleared r x => exact ⟨h.1.trans hhead.symm, hroom h.2.1, (hrequest _).trans h.2.2⟩
  | found i | taken i v => exact ⟨h.1.trans (congrArg UInt32.toNat hhead.symm), h.2⟩
  | idle | scanning i | scanned => trivial

lemma WorkerOk.mono (h : WorkerOk s out q) (htail : s'.tail = s.tail)
    (haccepted : s.accepted <+: s'.accepted) (hhead : q.placing = true → s'.head = s.head)
    (hresponse : ∀ k, (s'.entries k).response = (s.entries k).response) : WorkerOk s' out q := by
  have hlength := haccepted.length_le
  have hget : ∀ r, s.accepted[out]? = some r → s'.accepted[out]? = some r := by
    intro r hr
    obtain ⟨hlt, -⟩ := List.getElem?_eq_some_iff.1 hr
    obtain ⟨rest, hrest⟩ := haccepted
    rw [← hrest, getElem?_append_left hlt]
    exact hr
  cases q with
  | gotTail x => exact h.trans htail.symm
  | nonempty x | ready x => exact ⟨h.1.trans htail.symm, Nat.lt_of_lt_of_le h.2 hlength⟩
  | copied x r | cleared x r => exact ⟨h.1.trans htail.symm, hget r h.2⟩
  | seeking x i v | half x i v => exact ⟨h.1.trans (hhead rfl).symm, h.2⟩
  | chosen k v => exact h.trans (congrArg UInt32.toNat (hhead rfl).symm)
  | written k v => exact ⟨h.1.trans (congrArg UInt32.toNat (hhead rfl).symm), (hresponse k).trans h.2⟩
  | idle | holding r | answered v => trivial

lemma RingOk.setClient (h : RingOk s out p q f) (c : Client α β) : RingOk { s with client := c } out p q f :=
  { h with
    client := h.client.mono rfl rfl (fun _ => rfl) le_rfl
    worker := h.worker.mono rfl (prefix_refl _) (fun _ => rfl) fun _ => rfl }

lemma RingOk.setWorker (h : RingOk s out p q f) (w : ℕ) (q' : Worker α β) : RingOk (s.setWorker w q') out p q f :=
  { h with
    client := h.client.mono rfl rfl (fun _ => rfl) le_rfl
    worker := h.worker.mono rfl (prefix_refl _) (fun _ => rfl) fun _ => rfl }

/-! ## The client sends -/

lemma next_toNat {a : ℕ} (h : x.toNat = a % 1024) : ((x + 1) % ringSize).toNat = (a + 1) % 1024 := by
  rw [UInt32.toNat_mod, UInt32.toNat_add, h]
  change (a % 1024 + 1) % 4294967296 % 1024 = (a + 1) % 1024
  omega

lemma RingOk.call (h : RingOk s out .idle q none) (hq : q.placing = false) (r : α) :
    RingOk s out (.gotHead r s.head) q none :=
  { h with
    sending := fun _ => ⟨rfl, hq⟩
    client := rfl }

lemma RingOk.refuse (h : RingOk s out (.gotHead r x) q f) : RingOk s out .idle q f :=
  { h with
    sending := nofun
    client := trivial }

lemma RingOk.notFull (h : RingOk s out (.gotHead r x) q f)
    (hfull : (x + 1) % ringSize ≠ s.tail) : RingOk s out (.ready r x) q f := by
  obtain rfl : x = s.head := h.client
  have hroom : s.accepted.length + 1 < out + 1024 := by
    by_contra hlt
    refine hfull (UInt32.toNat_inj.mp ?_)
    have hle := h.le
    have hr := h.room
    rw [next_toNat h.head, h.tail, ← Nat.mod_add_mod, (full_iff hle hr).mpr (by omega)]
  exact { h with
    sending := fun _ => h.sending rfl
    client := ⟨rfl, hroom⟩ }

lemma setEntry_self (s : Ring α β) (k : ℕ) (e : Entry α β) : (s.setEntry k e).entries k = e := update_self ..

lemma setEntry_of_ne (s : Ring α β) {k' : ℕ} (h : k' ≠ k) (e : Entry α β) :
    (s.setEntry k e).entries k' = s.entries k' :=
  update_of_ne h ..

lemma setEntry_field {γ : Type} (field : Entry α β → γ) (k' : ℕ)
    (he : field e = field (s.entries k) := by rfl) : field ((s.setEntry k e).entries k') = field (s.entries k') := by
  by_cases hk : k' = k
  · rw [hk, setEntry_self, he]
  · rw [setEntry_of_ne s hk]

section

variable (flag : Entry α β → Bool) {P : ℕ → Prop}

lemma setEntry_iff (hself : flag e = true ↔ P k) (hne : ∀ k', k' ≠ k → (flag (s.entries k') = true ↔ P k')) (k' : ℕ) :
    flag ((s.setEntry k e).entries k') = true ↔ P k' := by
  by_cases hk : k' = k
  · rw [hk, setEntry_self]
    exact hself
  · rw [setEntry_of_ne s hk]
    exact hne k' hk

lemma setEntry_flag (h : ∀ k', flag (s.entries k') = true ↔ P k') (he : flag e = flag (s.entries k) := by rfl) (k' : ℕ) :
    flag ((s.setEntry k e).entries k') = true ↔ P k' := by
  rw [setEntry_field flag k' he]
  exact h k'

end

lemma setEntry_window (he : e.request = (s.entries k).request := by rfl) :
    window (fun k' => ((s.setEntry k e).entries k').request) 1024 out n =
      window (fun k' => (s.entries k').request) 1024 out n :=
  congrArg (window · 1024 out n) (funext fun k' => setEntry_field Entry.request k' he)

lemma WorkerOk.setEntry (h : WorkerOk s out q) (he : e.response = (s.entries k).response := by rfl) :
    WorkerOk (s.setEntry k e) out q :=
  h.mono rfl (prefix_refl _) (fun _ => rfl) fun k' => setEntry_field Entry.response k' he

lemma ClientOk.setEntry (h : ClientOk s out f p) (he : e.request = (s.entries k).request := by rfl) :
    ClientOk (s.setEntry k e) out f p :=
  h.mono rfl rfl (fun k' => setEntry_field Entry.request k' he) le_rfl

lemma RingOk.copy (h : RingOk s out (.ready r x) q f) :
    RingOk (s.setEntry x.toNat { s.entries x.toNat with request := r }) out (.copied r x) q f := by
  obtain ⟨rfl, hroom⟩ := h.client
  have hle := h.le
  have hr := h.room
  have hbehind : out + (s.accepted.length - out) ≤ s.accepted.length := by omega
  exact { h with
    items := by
      refine Eq.trans ?_ ((window_update _ hbehind hr r).trans h.items)
      refine congrArg (window · 1024 out _) (funext fun k => ?_)
      rw [← h.head]
      by_cases hk : k = s.head.toNat
      · rw [hk, setEntry_self, update_self]
      · rw [setEntry_of_ne s hk, update_of_ne hk]
    marks := setEntry_flag Entry.requestReady h.marks
    flags := setEntry_flag Entry.responseReady h.flags
    answer := fun v hv => (setEntry_field Entry.response _).trans (h.answer v hv)
    sending := fun _ => h.sending rfl
    client := ⟨rfl, hroom, congrArg Entry.request (setEntry_self ..)⟩
    worker := h.worker.setEntry }

lemma RingOk.unmarks_le (h : RingOk s out p q f) : out + q.unmarks ≤ s.accepted.length := by
  have hle := h.le
  have hworker := h.worker
  cases q with
  | cleared x r =>
    obtain ⟨hlt, -⟩ := List.getElem?_eq_some_iff.1 hworker.2
    exact hlt
  | _ => exact hle

lemma RingOk.mark (h : RingOk s out (.copied r x) q f) :
    RingOk (s.setEntry x.toNat { s.entries x.toNat with requestReady := true }) out (.marked r x) q f := by
  obtain ⟨rfl, hroom, hreq⟩ := h.client
  exact { h with
    items := .trans setEntry_window h.items
    marks := fun k => by
      show _ ↔ Occupied 1024 (out + q.unmarks) (s.accepted.length + 1) k
      rw [occupied_push h.unmarks_le, ← h.head]
      refine setEntry_iff Entry.requestReady (P := fun k => _ ∨ k = _) (iff_of_true rfl (.inr rfl)) (fun k hk => ?_) k
      rw [or_iff_left hk]
      exact h.marks k
    flags := setEntry_flag Entry.responseReady h.flags
    answer := fun v hv => (setEntry_field Entry.response _).trans (h.answer v hv)
    sending := fun _ => h.sending rfl
    client := ⟨rfl, hroom, (setEntry_field Entry.request _).trans hreq⟩
    worker := h.worker.setEntry }

lemma RingOk.clear (h : RingOk s out (.marked r x) q f) :
    RingOk (s.setEntry x.toNat { s.entries x.toNat with responseReady := false }) out (.cleared r x) q f := by
  obtain ⟨rfl, hroom, hreq⟩ := h.client
  obtain ⟨rfl, hplacing⟩ := h.sending rfl
  exact { h with
    items := .trans setEntry_window h.items
    marks := setEntry_flag Entry.requestReady h.marks
    flags := setEntry_iff Entry.responseReady (iff_of_false Bool.false_ne_true fun hf => Bool.false_ne_true hf.1)
      fun k _ => h.flags k
    answer := nofun
    sending := fun _ => ⟨rfl, hplacing⟩
    client := ⟨rfl, hroom, (setEntry_field Entry.request _).trans hreq⟩
    worker := h.worker.setEntry }

lemma RingOk.store (h : RingOk s out (.cleared r x) q f) :
    RingOk { s with head := (x + 1) % ringSize, accepted := s.accepted ++ [r] } out .idle q f := by
  obtain ⟨rfl, hroom, hreq⟩ := h.client
  obtain ⟨rfl, hplacing⟩ := h.sending rfl
  have hle := h.le
  have hlen : (s.accepted ++ [r]).length = s.accepted.length + 1 := by simp
  exact { h with
    head := by
      rw [hlen]
      exact next_toNat h.head
    le := by rw [hlen]; omega
    room := by rw [hlen]; exact hroom
    items := by
      rw [hlen, Nat.sub_add_comm hle, drop_append_of_le_length hle, ← h.items]
      refine window_push ?_
      rw [Nat.add_sub_cancel' hle, ← h.head]
      exact hreq
    marks := fun k => by
      rw [hlen]
      exact h.marks k
    flags := fun k => by
      rw [h.flags k]
      exact iff_of_false (fun hf => Bool.false_ne_true hf.1) fun hf => Bool.false_ne_true hf.1
    answer := nofun
    sending := nofun
    client := trivial
    worker := h.worker.mono rfl (prefix_append _ _)
      (fun hp => absurd (hplacing.symm.trans hp) Bool.false_ne_true) fun _ => rfl
    taken := by rw [take_append_of_le_length hle]; exact h.taken }

lemma RingOk.scan (h : RingOk s out p q f) (hp : p.marks = 0) (p' : Client α β) (hp' : p'.marks = 0)
    (hsend : p'.sending = false) (hclient : ClientOk s out f p') : RingOk s out p' q f :=
  { h with
    marks := fun k => by
      have hmarks := h.marks k
      rw [hp] at hmarks
      rw [hp']
      exact hmarks
    sending := fun hs => absurd (hsend.symm.trans hs) Bool.false_ne_true
    client := hclient }

lemma RingOk.find (h : RingOk s out (.scanning i) q f) (hflag : (s.entries i).responseReady = true) :
    RingOk s out (.found i) q f :=
  have hat := (h.flags i).1 hflag
  h.scan rfl (.found i) rfl rfl ⟨hat.2, hat.1⟩

lemma RingOk.copyOut (h : RingOk s out (.found i) q f) : RingOk s out (.taken i (s.entries i).response) q f := by
  obtain ⟨rfl, hsome⟩ := h.client
  obtain ⟨v, rfl⟩ := Option.isSome_iff_exists.1 hsome
  exact h.scan rfl (.taken _ _) rfl rfl ⟨rfl, by rw [h.answer v rfl]⟩

lemma RingOk.finish (h : RingOk s out (.taken i v) q f) :
    RingOk ({ s with returned := s.returned ++ [v] }.setEntry i { s.entries i with responseReady := false }) out .idle q
      none := by
  obtain ⟨rfl, rfl⟩ := h.client
  exact { h with
    items := .trans setEntry_window h.items
    marks := setEntry_flag Entry.requestReady h.marks
    flags := fun k => by
      refine setEntry_iff Entry.responseReady (P := fun _ => _) (iff_of_false Bool.false_ne_true ?_) (fun k hk => ?_) k
      · exact fun hf => Bool.false_ne_true hf.1
      · exact iff_of_false (fun hf => hk ((h.flags k).1 hf).2) fun hf => Bool.false_ne_true hf.1
    answer := nofun
    sending := nofun
    placing := fun _ => rfl
    client := trivial
    worker := (h.worker.mono rfl (prefix_refl _) (fun _ => rfl) fun _ => rfl :
      WorkerOk { s with returned := s.returned ++ [v] } out q).setEntry
    answered := by
      have hanswered := h.answered
      rw [Option.toList_some] at hanswered
      show s.returned ++ [v] ++ [] ++ q.unplaced = _
      rw [append_nil]
      exact hanswered }

/-! ## A worker takes a request -/

lemma Client.marks_le (p : Client α β) : p.marks ≤ 1 := by cases p <;> simp [Client.marks]

lemma Client.marks_of_not_sending (h : p.sending = false) : p.marks = 0 := by cases p <;> first | rfl | cases h

lemma RingOk.move (h : RingOk s out p q f) (q' : Worker α β) (hmarks : q'.unmarks = q.unmarks)
    (hplacing : q'.placing = q.placing) (hhand : q'.hand = q.hand) (hunplaced : q'.unplaced = q.unplaced)
    (hworker : WorkerOk s out q') : RingOk s out p q' f :=
  { h with
    marks := fun k => by rw [hmarks]; exact h.marks k
    sending := fun hp => by rw [hplacing]; exact h.sending hp
    placing := fun hq => h.placing (hplacing.symm.trans hq)
    worker := hworker
    taken := by rw [hhand]; exact h.taken
    answered := by rw [hunplaced]; exact h.answered }

lemma RingOk.notEmpty (h : RingOk s out p (.gotTail x) f) (hne : x ≠ s.head) : RingOk s out p (.nonempty x) f := by
  obtain rfl : x = s.tail := h.worker
  have hlt : out < s.accepted.length := by
    refine lt_of_le_of_ne h.le fun heq => hne (UInt32.toNat_inj.mp ?_)
    rw [h.tail, h.head, heq]
  exact h.move _ rfl rfl rfl rfl ⟨rfl, hlt⟩

lemma RingOk.slot (h : RingOk s out p q f) : (s.tail % ringSize).toNat = out % 1024 := by
  rw [UInt32.toNat_mod, h.tail]
  exact Nat.mod_mod _ _

lemma RingOk.first (h : RingOk s out p q f) (hlt : out < s.accepted.length) :
    s.accepted[out]? = some (s.entries (out % 1024)).request ∧
      window (fun k => (s.entries k).request) 1024 (out + 1) (s.accepted.length - (out + 1)) =
        s.accepted.drop (out + 1) := by
  have hitems := h.items
  rw [show s.accepted.length - out = s.accepted.length - (out + 1) + 1 by omega, window_succ,
    drop_eq_getElem_cons hlt, List.cons.injEq] at hitems
  exact ⟨by rw [getElem?_eq_getElem hlt, hitems.1], hitems.2⟩

lemma RingOk.take (h : RingOk s out p (.ready x) f) :
    RingOk s out p (.copied x (s.entries (x % ringSize).toNat).request) f := by
  obtain ⟨rfl, hlt⟩ := h.worker
  refine h.move _ rfl rfl rfl rfl ⟨rfl, ?_⟩
  rw [h.slot]
  exact (h.first hlt).1

lemma RingOk.unmark (h : RingOk s out p (.copied x r) f) :
    RingOk (s.setEntry (x % ringSize).toNat { s.entries (x % ringSize).toNat with requestReady := false }) out p
      (.cleared x r) f := by
  obtain ⟨rfl, hr⟩ := h.worker
  have hroom := h.room
  have hmarks := p.marks_le
  exact { h with
    items := .trans setEntry_window h.items
    marks := fun k => by
      show _ ↔ Occupied 1024 (out + 1) (s.accepted.length + p.marks) k
      rw [occupied_pop (by omega), ← h.slot]
      refine setEntry_iff Entry.requestReady (P := fun k => _ ∧ k ≠ _)
        (iff_of_false Bool.false_ne_true fun hocc => hocc.2 rfl) (fun k hk => ?_) k
      rw [and_iff_left hk]
      exact h.marks k
    flags := setEntry_flag Entry.responseReady h.flags
    answer := fun v hv => (setEntry_field Entry.response _).trans (h.answer v hv)
    sending := fun hp => ⟨(h.sending hp).1, rfl⟩
    placing := nofun
    client := h.client.setEntry
    worker := ⟨rfl, hr⟩ }

lemma RingOk.release (h : RingOk s out p (.cleared x r) f) :
    RingOk { s with tail := (x + 1) % ringSize } (out + 1) p (.holding r) f := by
  obtain ⟨rfl, hr⟩ := h.worker
  obtain ⟨hlt, -⟩ := List.getElem?_eq_some_iff.mp hr
  have hroom := h.room
  exact { h with
    tail := next_toNat h.tail
    le := hlt
    room := Nat.lt_of_lt_of_le hroom (by omega)
    items := (h.first hlt).2
    sending := fun hp => ⟨(h.sending hp).1, rfl⟩
    placing := nofun
    client := h.client.mono rfl rfl (fun _ => rfl) (Nat.le_succ out)
    worker := trivial
    taken := by
      have htaken := h.taken
      simp only [Worker.hand, append_nil] at htaken ⊢
      rw [take_add_one, hr, htaken]
      rfl }

lemma RingOk.handle (h : RingOk s out p (.holding r) f) (w : ℕ) (v : β) :
    RingOk { s with handled := s.handled ++ [Handled.mk w r v] } out p (.answered v) f :=
  { h with
    sending := fun hp => ⟨(h.sending hp).1, rfl⟩
    placing := nofun
    client := h.client.mono rfl rfl (fun _ => rfl) le_rfl
    worker := trivial
    taken := by
      have htaken := h.taken
      simpa [Worker.hand] using htaken
    answered := by
      have hanswered := h.answered
      simp only [Worker.unplaced, append_nil] at hanswered ⊢
      rw [map_append, ← hanswered]
      rfl }

/-! ## A worker places a response -/

lemma RingOk.head_lt (h : RingOk s out p q f) : s.head.toNat < 1024 := by
  rw [h.head]
  exact Nat.mod_lt _ (by norm_num)

lemma RingOk.respond (h : RingOk s out p (.answered v) none) (hp : p.sending = false) :
    RingOk s out p (.seeking s.head 0 v) none :=
  { h with
    sending := fun hs => absurd (hp.symm.trans hs) Bool.false_ne_true
    placing := fun _ => rfl
    worker := ⟨rfl, rfl⟩ }

lemma RingOk.not_sending (h : RingOk s out p q f) (hq : q.placing = true) : p.sending = false := by
  cases hp : p.sending with
  | false => rfl
  | true => exact absurd ((h.sending hp).2.symm.trans hq) Bool.false_ne_true

lemma RingOk.seekIndex_zero (h : RingOk s out p q f) : seekIndex s.head 0 = s.head.toNat := by
  unfold seekIndex
  rw [show UInt32.ofNat 0 = 0 from rfl, UInt32.add_zero, UInt32.toNat_mod]
  exact Nat.mod_eq_of_lt h.head_lt

lemma RingOk.head_free (h : RingOk s out p q f) (hq : q.placing = true) :
    (s.entries s.head.toNat).requestReady = false := by
  rw [← Bool.not_eq_true, h.marks, Client.marks_of_not_sending (h.not_sending hq), h.head]
  have hroom := h.room
  exact not_occupied_next (by omega)

lemma RingOk.head_empty (h : RingOk s out p q none) : (s.entries s.head.toNat).responseReady = false := by
  rw [← Bool.not_eq_true, h.flags]
  exact fun hf => Bool.false_ne_true hf.1

lemma RingOk.write (h : RingOk s out p (.chosen k v) f) :
    RingOk (s.setEntry k { s.entries k with response := v }) out p (.written k v) f := by
  obtain rfl : k = s.head.toNat := h.worker
  obtain rfl := h.placing rfl
  exact { h with
    items := .trans setEntry_window h.items
    marks := setEntry_flag Entry.requestReady h.marks
    flags := setEntry_flag Entry.responseReady h.flags
    answer := nofun
    sending := h.sending
    placing := fun _ => rfl
    client := h.client.setEntry
    worker := ⟨rfl, congrArg Entry.response (setEntry_self ..)⟩ }

lemma ClientOk.publish (h : ClientOk s out none p) (hp : p.sending = false) (v : β) : ClientOk s out (some v) p := by
  cases p with
  | found i => exact absurd h.2 Bool.false_ne_true
  | taken i x => exact absurd h.2 (Option.some_ne_none x).symm
  | idle | scanning i | scanned => trivial
  | _ => cases hp

lemma RingOk.publish (h : RingOk s out p (.written k v) f) :
    RingOk (s.setEntry k { s.entries k with responseReady := true }) out p .idle (some v) := by
  obtain ⟨rfl, hv⟩ := h.worker
  obtain rfl := h.placing rfl
  have hp := h.not_sending rfl
  exact { h with
    items := .trans setEntry_window h.items
    marks := setEntry_flag Entry.requestReady h.marks
    flags := setEntry_iff Entry.responseReady (iff_of_true rfl ⟨rfl, rfl⟩) fun k hk =>
      iff_of_false (fun hf => Bool.false_ne_true ((h.flags k).1 hf).1) fun hf => hk hf.2
    answer := fun x hx => by
      rw [← Option.some.inj hx]
      exact (setEntry_field Entry.response _).trans hv
    sending := fun hs => absurd (hp.symm.trans hs) Bool.false_ne_true
    placing := nofun
    client := (h.client.publish hp v).setEntry
    worker := trivial
    answered := by
      have hanswered : s.returned ++ [] ++ [v] = s.handled.map Handled.response := h.answered
      rw [append_nil] at hanswered
      show s.returned ++ [v] ++ [] = s.handled.map Handled.response
      rw [append_nil]
      exact hanswered }

/-! ## Steps and runs -/

variable (h : Inv s out w f) {f' : Option β}
include h

lemma Inv.atClient
    (hring : RingOk s' out' s'.client (s.workers w) f') (hworkers : s'.workers = s.workers) : Inv s' out' w f' where
  ring := by rw [hworkers]; exact hring
  workers w' hw' := by rw [hworkers]; exact h.workers w' hw'

lemma Inv.atWorker (hring : RingOk s' out' s.client q f') (hclient : s'.client = s.client)
    (hworkers : s'.workers = s.workers) :
    Inv (s'.setWorker w q) out' w f' where
  ring := by
    have hq : (s'.setWorker w q).workers w = q := update_self ..
    have hc : (s'.setWorker w q).client = s.client := hclient
    rw [hq, hc]
    exact hring.setWorker w q
  workers w' hw' := by
    have hother : (s'.setWorker w q).workers w' = s'.workers w' := update_of_ne hw' ..
    rw [hother, hworkers]
    exact h.workers w' hw'

lemma Inv.ofWorker (hidle : ∀ w', s.workers w' = .idle) (w' : ℕ) : Inv s out w' f :=
  ⟨by rw [hidle w', ← hidle w]; exact h.ring, fun w'' _ => hidle w''⟩

omit h

lemma RingOk.eq_none (h : RingOk s out p q f) (hempty : s.Empty) : f = none := by
  cases f with
  | none => rfl
  | some v => exact absurd ((hempty _ h.head_lt).symm.trans ((h.flags _).2 ⟨rfl, rfl⟩)) Bool.false_ne_true

lemma RingOk.empty (h : RingOk s out p q none) : s.Empty := by
  intro k _
  rw [← Bool.not_eq_true, h.flags]
  exact fun hf => Bool.false_ne_true hf.1

include h

lemma inv_sendStep (hempty : s.Empty) (hplacing : ∀ w', (s.workers w').placing = false) (r : α) :
    Inv (sendStep s r) out w f := by
  have hring := h.ring
  obtain rfl := hring.eq_none hempty
  unfold sendStep
  cases hp : s.client with
  | idle =>
    rw [hp] at hring
    exact h.atClient ((hring.call (hplacing w) r).setClient _) rfl
  | _ => exact h

lemma inv_waitStep : Inv (waitStep s) out w f := by
  have hring := h.ring
  unfold waitStep
  cases hp : s.client with
  | idle =>
    rw [hp] at hring
    exact h.atClient ((hring.scan rfl (.scanning 0) rfl rfl trivial).setClient _) rfl
  | _ => exact h

lemma inv_timeoutStep : Inv (timeoutStep s) out w f := by
  have hring := h.ring
  unfold timeoutStep
  cases hp : s.client with
  | scanned =>
    rw [hp] at hring
    exact h.atClient ((hring.scan rfl .idle rfl rfl trivial).setClient _) rfl
  | _ => exact h

lemma inv_clientStep : ∃ f', Inv (clientStep s) out w f' := by
  have hring := h.ring
  unfold clientStep
  cases hp : s.client with
  | idle => exact ⟨f, h⟩
  | gotHead r x =>
    rw [hp] at hring
    dsimp only
    split_ifs with hfull
    · exact ⟨f, h.atClient (hring.refuse.setClient _) rfl⟩
    · exact ⟨f, h.atClient ((hring.notFull hfull).setClient _) rfl⟩
  | ready r x =>
    rw [hp] at hring
    exact ⟨f, h.atClient (hring.copy.setClient _) rfl⟩
  | copied r x =>
    rw [hp] at hring
    exact ⟨f, h.atClient (hring.mark.setClient _) rfl⟩
  | marked r x =>
    rw [hp] at hring
    exact ⟨f, h.atClient (hring.clear.setClient _) rfl⟩
  | cleared r x =>
    rw [hp] at hring
    exact ⟨f, h.atClient (hring.store.setClient _) rfl⟩
  | scanning i =>
    rw [hp] at hring
    dsimp only
    split_ifs with hflag hlast
    · exact ⟨f, h.atClient ((hring.find hflag).setClient _) rfl⟩
    · exact ⟨f, h.atClient ((hring.scan rfl (.scanning (i + 1)) rfl rfl trivial).setClient _) rfl⟩
    · exact ⟨f, h.atClient ((hring.scan rfl .scanned rfl rfl trivial).setClient _) rfl⟩
  | found i =>
    rw [hp] at hring
    exact ⟨f, h.atClient (hring.copyOut.setClient _) rfl⟩
  | taken i v =>
    rw [hp] at hring
    exact ⟨none, h.atClient (hring.finish.setClient _) rfl⟩
  | scanned =>
    rw [hp] at hring
    exact ⟨f, h.atClient ((hring.scan rfl (.scanning 0) rfl rfl trivial).setClient _) rfl⟩

lemma inv_pollStep (hidle : ∀ w', s.workers w' = .idle) (w' : ℕ) : Inv (pollStep s w') out w' f := by
  have h' := h.ofWorker hidle w'
  have hring := h'.ring
  rw [hidle w'] at hring
  rw [pollStep, hidle w']
  exact h'.atWorker (hring.move _ rfl rfl rfl rfl rfl) rfl rfl

lemma inv_handleStep (w' : ℕ) (v : β) : Inv (handleStep s w' v) out w f := by
  have hring := h.ring
  unfold handleStep
  by_cases hw : w' = w
  · subst hw
    cases hq : s.workers w' with
    | holding r =>
      rw [hq] at hring
      exact h.atWorker (hring.handle w' v) rfl rfl
    | _ => exact h
  · rw [h.workers w' hw]
    exact h

lemma inv_respondStep (hempty : s.Empty) (hsend : s.client.sending = false) (w' : ℕ) :
    Inv (respondStep s w') out w f := by
  have hring := h.ring
  obtain rfl := hring.eq_none hempty
  unfold respondStep
  by_cases hw : w' = w
  · subst hw
    cases hq : s.workers w' with
    | answered v =>
      rw [hq] at hring
      exact h.atWorker (hring.respond hsend) rfl rfl
    | _ => exact h
  · rw [h.workers w' hw]
    exact h

lemma inv_workerStep (w' : ℕ) : ∃ out' f', Inv (workerStep s w') out' w f' := by
  by_cases hw : w' = w
  · subst hw
    have hring := h.ring
    unfold workerStep
    cases hq : s.workers w' with
    | idle | holding r | answered v => exact ⟨out, f, h⟩
    | gotTail x =>
      rw [hq] at hring
      dsimp only
      split_ifs with hempty
      · exact ⟨out, f, h.atWorker (hring.move _ rfl rfl rfl rfl trivial) rfl rfl⟩
      · exact ⟨out, f, h.atWorker (hring.notEmpty hempty) rfl rfl⟩
    | nonempty x =>
      rw [hq] at hring
      dsimp only
      split_ifs with hready
      · exact ⟨out, f, h.atWorker (hring.move _ rfl rfl rfl rfl hring.worker) rfl rfl⟩
      · exact ⟨out, f, h.atWorker (hring.move _ rfl rfl rfl rfl trivial) rfl rfl⟩
    | ready x =>
      rw [hq] at hring
      exact ⟨out, f, h.atWorker hring.take rfl rfl⟩
    | copied x r =>
      rw [hq] at hring
      exact ⟨out, f, h.atWorker hring.unmark rfl rfl⟩
    | cleared x r =>
      rw [hq] at hring
      exact ⟨out + 1, f, h.atWorker hring.release rfl rfl⟩
    | seeking x i v =>
      rw [hq] at hring
      obtain ⟨rfl, rfl⟩ := hring.worker
      dsimp only
      rw [hring.seekIndex_zero, hring.head_free rfl, if_neg Bool.false_ne_true]
      exact ⟨out, f, h.atWorker (hring.move _ rfl rfl rfl rfl ⟨rfl, rfl⟩) rfl rfl⟩
    | half x i v =>
      rw [hq] at hring
      obtain ⟨rfl, rfl⟩ := hring.worker
      obtain rfl := hring.placing rfl
      dsimp only
      rw [hring.seekIndex_zero, hring.head_empty, if_neg Bool.false_ne_true]
      exact ⟨out, none, h.atWorker (hring.move _ rfl rfl rfl rfl rfl) rfl rfl⟩
    | chosen k v =>
      rw [hq] at hring
      exact ⟨out, f, h.atWorker hring.write rfl rfl⟩
    | written k v =>
      rw [hq] at hring
      exact ⟨out, some v, h.atWorker hring.publish rfl rfl⟩
  · have hidle : workerStep s w' = s := by rw [workerStep, h.workers w' hw]
    rw [hidle]
    exact ⟨out, f, h⟩

omit h

lemma inv_step (h : ∃ out w f, Inv s out w f) (op : Op α β) (hop : Orderly s op) :
    ∃ out w f, Inv (step s op) out w f := by
  obtain ⟨out, w, f, h⟩ := h
  cases op with
  | send r => exact ⟨out, w, f, inv_sendStep h hop.1 hop.2 r⟩
  | wait => exact ⟨out, w, f, inv_waitStep h⟩
  | client =>
    obtain ⟨f', h'⟩ := inv_clientStep h
    exact ⟨out, w, f', h'⟩
  | timeout => exact ⟨out, w, f, inv_timeoutStep h⟩
  | poll w' => exact ⟨out, w', f, inv_pollStep h hop w'⟩
  | worker w' =>
    obtain ⟨out', f', h'⟩ := inv_workerStep h w'
    exact ⟨out', w, f', h'⟩
  | handle w' v => exact ⟨out, w, f, inv_handleStep h w' v⟩
  | respond w' => exact ⟨out, w, f, inv_respondStep h hop.1 hop.2 w'⟩

/-! ## Serving on -/

lemma allSteps_free {ops : List (Op α β)} (h : ∀ o ∈ ops, ∀ s, Orderly s o) (s : Ring α β) :
    AllSteps step Orderly s ops := by
  induction ops generalizing s with
  | nil => trivial
  | cons o ops ih => exact ⟨h o mem_cons_self s, ih (fun o' ho' => h o' (mem_cons_of_mem o ho')) _⟩

def Ring.afterTake (s : Ring α β) (w : ℕ) (v : β) : Ring α β :=
  let k := (s.tail % ringSize).toNat
  ({ s with
    tail := (s.tail + 1) % ringSize
    handled := s.handled ++ [Handled.mk w (s.entries k).request v] }.setEntry k
      { s.entries k with requestReady := false }).setWorker w (.answered v)

lemma run_takeOps (hidle : s.workers w = .idle) (hne : s.tail ≠ s.head)
    (hready : (s.entries (s.tail % ringSize).toNat).requestReady = true) (v : β) :
    run step s (takeOps w v) = s.afterTake w v := by
  simp [takeOps, run, step, pollStep, workerStep, handleStep, Ring.setWorker, Ring.setEntry, Ring.afterTake, hidle, hne,
    hready, -UInt32.toNat_mod]

def Ring.afterPlace (s : Ring α β) (w : ℕ) (v : β) : Ring α β :=
  let k := s.head.toNat
  let s' := s.setEntry k { s.entries k with response := v }
  (s'.setEntry k { s'.entries k with responseReady := true }).setWorker w .idle

lemma run_placeOps (hq : s.workers w = .answered v) (hindex : seekIndex s.head 0 = s.head.toNat)
    (hfree : (s.entries s.head.toNat).requestReady = false)
    (hempty : (s.entries s.head.toNat).responseReady = false) : run step s (placeOps w) = s.afterPlace w v := by
  simp [placeOps, run, step, respondStep, workerStep, Ring.setWorker, Ring.setEntry, Ring.afterPlace, hq, hindex, hfree,
    hempty]

lemma run_scan (hflags : ∀ j, i ≤ j → j < i + n → (s.entries j).responseReady = false) (hn : i + n < ringSize.toNat) :
    run step { s with client := .scanning i } (List.replicate n .client) = { s with client := .scanning (i + n) } := by
  induction n generalizing i with
  | zero => rfl
  | succ n ih =>
    have hpass : step { s with client := .scanning i } .client = { s with client := .scanning (i + 1) } := by
      have hi := hflags i le_rfl (by omega)
      have hlt : i + 1 < ringSize.toNat := by omega
      simp [step, clientStep, hi, hlt]
    rw [replicate_succ, run_cons, hpass, ih (fun j hj hlt => hflags j (by omega) (by omega)) (by omega)]
    congr 2
    omega

def Ring.afterWait (s : Ring α β) (k : ℕ) : Ring α β :=
  { s with client := .idle, returned := s.returned ++ [(s.entries k).response] }.setEntry k
    { s.entries k with responseReady := false }

lemma run_waitOps (hidle : s.client = .idle) (hflags : ∀ j < k, (s.entries j).responseReady = false)
    (hk : k < ringSize.toNat) (hflag : (s.entries k).responseReady = true) :
    run step s (waitOps k) = s.afterWait k := by
  have hstart : step s .wait = { s with client := .scanning 0 } := by simp [step, waitStep, hidle]
  have hscan := run_scan (s := s) (i := 0) (n := k) (fun j _ hj => hflags j (by omega)) (by omega)
  rw [waitOps, run_cons, hstart, replicate_add, run_append, hscan, Nat.zero_add]
  simp [run, step, clientStep, hflag, Ring.afterWait]

lemma Inv.workers_idle (h : Inv s out w f) (hw : s.workers w = .idle) (w' : ℕ) : s.workers w' = .idle := by
  by_cases hne : w' = w
  · rw [hne, hw]
  · exact h.workers w' hne

/-- A request is taken and handled. -/
lemma Inv.take (h : Inv s out w f) (hidle : s.workers w = .idle) (hlt : out < s.accepted.length) (v : β) :
    AllSteps step Orderly s (takeOps w v) ∧ run step s (takeOps w v) = s.afterTake w v ∧
      Inv (s.afterTake w v) (out + 1) w f := by
  have hring := h.ring
  rw [hidle] at hring
  have hne : s.tail ≠ s.head := by
    intro heq
    have htoNat := congrArg UInt32.toNat heq
    rw [hring.head, hring.tail] at htoNat
    have := (mod_eq_iff hring.le hring.room).1 htoNat.symm
    omega
  have hready : (s.entries (s.tail % ringSize).toNat).requestReady = true :=
    (hring.marks _).2 ⟨out, le_rfl, Nat.lt_of_lt_of_le hlt (Nat.le_add_right _ _), hring.slot.symm⟩
  have hlook := (hring.move (.gotTail s.tail) rfl rfl rfl rfl rfl).notEmpty hne
  have hcopied := (hlook.move (.ready s.tail) rfl rfl rfl rfl hlook.worker).take
  have horderly : AllSteps step Orderly s (takeOps w v) :=
    ⟨h.workers_idle hidle, trivial, trivial, trivial, trivial, trivial, trivial, trivial⟩
  exact ⟨horderly, run_takeOps hidle hne hready v, h.atWorker (hcopied.unmark.release.handle w v) rfl rfl⟩

/-- Its response is placed. -/
lemma Inv.place (h : Inv s out w none) (hq : s.workers w = .answered v) (hsend : s.client.sending = false) :
    AllSteps step Orderly s (placeOps w) ∧ run step s (placeOps w) = s.afterPlace w v ∧
      Inv (s.afterPlace w v) out w (some v) := by
  have hring := h.ring
  rw [hq] at hring
  have hseek := hring.respond hsend
  have hchosen := hseek.move (.chosen s.head.toNat v) rfl rfl rfl rfl rfl
  have hrun := run_placeOps hq hseek.seekIndex_zero (hseek.head_free rfl) hseek.head_empty
  exact ⟨⟨⟨hring.empty, hsend⟩, trivial, trivial, trivial, trivial, trivial⟩, hrun,
    h.atWorker hchosen.write.publish rfl rfl⟩

/-- And returned to the client. -/
lemma Inv.collect (h : Inv s out w (some v)) (hidle : s.client = .idle) :
    AllSteps step Orderly s (waitOps s.head.toNat) ∧ run step s (waitOps s.head.toNat) = s.afterWait s.head.toNat ∧
      Inv (s.afterWait s.head.toNat) out w none := by
  have hring := h.ring
  rw [hidle] at hring
  have hflag : (s.entries s.head.toNat).responseReady = true := (hring.flags _).2 ⟨rfl, rfl⟩
  have hflags : ∀ j < s.head.toNat, (s.entries j).responseReady = false := by
    intro j hj
    rw [← Bool.not_eq_true, hring.flags]
    exact fun hf => hj.ne hf.2
  have hscan := hring.scan rfl (.scanning s.head.toNat) rfl rfl trivial
  refine ⟨allSteps_free (fun o ho s => ?_) s, run_waitOps hidle hflags hring.head_lt hflag,
    h.atClient (((hscan.find hflag).copyOut).finish.setClient .idle) rfl⟩
  rcases List.mem_cons.1 ho with rfl | ho
  · trivial
  · rw [eq_of_mem_replicate ho]
    trivial

lemma Inv.serve (h : Inv s out w none) (hquiet : s.Quiet) (hr : s.accepted[out]? = some r) (v : β) :
    ∃ ops s', AllSteps step Orderly s ops ∧ run step s ops = s' ∧ Inv s' (out + 1) w none ∧ s'.Quiet ∧
      s'.accepted = s.accepted ∧ s'.handled = s.handled ++ [⟨w, r, v⟩] := by
  obtain ⟨hlt, -⟩ := List.getElem?_eq_some_iff.1 hr
  have hfirst := (h.ring.first hlt).1
  rw [hr, ← h.ring.slot] at hfirst
  obtain ⟨htake, hrun, hinv⟩ := h.take (hquiet.2 w) hlt v
  have hclient : (s.afterTake w v).client.sending = false := by
    show s.client.sending = false
    rw [hquiet.1]
    rfl
  obtain ⟨hplace, hrun', hinv'⟩ := hinv.place (update_self ..) hclient
  obtain ⟨hwait, hrun'', hinv''⟩ := hinv'.collect hquiet.1
  have hidle : ((s.afterTake w v).afterPlace w v).workers w = .idle := update_self ..
  have hserve : run step s (serveOps w v) = (s.afterTake w v).afterPlace w v := by
    rw [serveOps, run_append, hrun, hrun']
  refine ⟨serveOps w v ++ waitOps ((s.afterTake w v).afterPlace w v).head.toNat, _, ?_, ?_, hinv'',
    ⟨rfl, hinv''.workers_idle hidle⟩, rfl, ?_⟩
  · rw [allSteps_append, hserve, serveOps, allSteps_append, hrun]
    exact ⟨⟨htake, hplace⟩, hwait⟩
  · rw [run_append, hserve, hrun'']
  · show s.handled ++ [Handled.mk w (s.entries (s.tail % ringSize).toNat).request v] = _
    rw [Option.some.inj hfirst]

/-- Serving on handles everything. -/
lemma Inv.serveAll (h : Inv s out w none) (hquiet : s.Quiet) (respond : α → β) :
    ∃ ops, AllSteps step Orderly s ops ∧ (run step s ops).accepted = s.accepted ∧
      (run step s ops).handled = s.handled ++ (s.accepted.drop out).map (fun r => ⟨w, r, respond r⟩) ∧
      (run step s ops).returned = (run step s ops).handled.map Handled.response := by
  induction hn : s.accepted.length - out generalizing s out with
  | zero =>
    have hanswered := h.ring.answered
    rw [hquiet.2 w] at hanswered
    refine ⟨[], trivial, rfl, ?_, by simpa [Worker.unplaced] using hanswered⟩
    rw [drop_eq_nil_of_le (by omega), map_nil, append_nil, run_nil]
  | succ n ih =>
    have hlt : out < s.accepted.length := by omega
    have hr := getElem?_eq_getElem hlt
    obtain ⟨ops, s', hops, hrun, hinv, hquiet', haccepted, hhandled⟩ := h.serve hquiet hr (respond s.accepted[out])
    obtain ⟨rest, hrest, hacc, hhand, hret⟩ := ih hinv hquiet' (by rw [haccepted]; omega)
    refine ⟨ops ++ rest, ?_, ?_, ?_, ?_⟩
    · rw [allSteps_append, hrun]
      exact ⟨hops, hrest⟩
    · rw [run_append, hrun, hacc, haccepted]
    · rw [run_append, hrun, hhand, hhandled, haccepted, drop_eq_getElem_cons hlt, append_assoc]
      rfl
    · rw [run_append, hrun, hret]

lemma Inv.handled_length (h : Inv s out w f) (hquiet : s.Quiet) : s.handled.length = out := by
  have htaken := congrArg List.length h.ring.taken
  rw [hquiet.2 w, length_append, length_map, length_take, min_eq_left h.ring.le] at htaken
  exact htaken

lemma Inv.matched (h : Inv s out w f) : Matched s := by
  have htaken := h.ring.taken
  have hanswered := h.ring.answered
  refine ⟨fun i x hx => ?_, fun i v hv => ?_, fun hquiet w' respond => ?_⟩
  · have hi : i < s.handled.length := (List.getElem?_eq_some_iff.1 hx).1
    have hreq : (s.accepted.take out)[i]? = some x.request := by
      rw [← htaken, getElem?_append_left (by rw [length_map]; exact hi), getElem?_map, hx]
      rfl
    rw [getElem?_take] at hreq
    split_ifs at hreq
    exact hreq
  · have hi : i < s.returned.length := (List.getElem?_eq_some_iff.1 hv).1
    have hresp : (s.handled.map Handled.response)[i]? = some v := by
      rw [← hanswered, append_assoc, getElem?_append_left hi, hv]
    rw [getElem?_map] at hresp
    obtain ⟨x, hx, hxv⟩ := Option.map_eq_some_iff.1 hresp
    exact ⟨x, hx, hxv⟩
  · have h' := h.ofWorker hquiet.2 w'
    rw [h'.handled_length hquiet]
    cases f with
    | none => exact h'.serveAll hquiet respond
    | some v =>
      -- the client first gets the response that is there
      obtain ⟨hwait, hrun, hinv⟩ := h'.collect hquiet.1
      obtain ⟨ops, hops, hacc, hhand, hret⟩ := hinv.serveAll ⟨rfl, hquiet.2⟩ respond
      refine ⟨waitOps s.head.toNat ++ ops, ?_, ?_, ?_, ?_⟩
      · rw [allSteps_append, hrun]
        exact ⟨hwait, hops⟩
      · rw [run_append, hrun]
        exact hacc
      · rw [run_append, hrun]
        exact hhand
      · rw [run_append, hrun]
        exact hret

/-- In orderly runs requests are handled once and in order, the i-th successful wait returns the i-th response, and from
every quiet state all requests can be answered. -/
theorem responses_matched [Inhabited α] [Inhabited β] (ops : List (UInt32 × Op α β))
    (hops : AllSteps (each step) (fun s o => Orderly (s o.1) o.2) (fun _ => Ring.fresh) ops) (c : UInt32) :
    Matched (run (each step) (fun _ => Ring.fresh) ops c) := by
  rw [run_each]
  obtain ⟨out, w, f, h⟩ := run_inv (P := fun s => ∃ out w f, Inv s out w f) (fun s o hs ho => inv_step hs o ho)
    ⟨0, 0, none, inv_fresh 0⟩ (allSteps_each hops c)
  exact h.matched

def atRing (c : UInt32) (ops : List (Op ℕ ℕ)) : List (UInt32 × Op ℕ ℕ) := ops.map fun o => (c, o)

def inTurn : List (UInt32 × Op ℕ ℕ) :=
  atRing 3 (sendOps 10 ++ sendOps 20) ++ (5, .send 7) :: atRing 3 (serveOps 0 100 ++ waitOps 2)

theorem responses_matched_in_turn : (run (each step) (fun _ => Ring.fresh) inTurn 3).returned = [100] ∧
      Matched (run (each step) (fun _ => Ring.fresh) inTurn 3) := by
  refine ⟨by decide +kernel, responses_matched inTurn ?_ 3⟩
  exact ⟨⟨fun _ _ => rfl, fun _ => rfl⟩, trivial, trivial, trivial, trivial, trivial,
    ⟨by decide +kernel, fun _ => rfl⟩, trivial, trivial, trivial, trivial, trivial,
    ⟨fun _ _ => rfl, fun _ => rfl⟩, fun _ => rfl, trivial, trivial, trivial, trivial, trivial, trivial,
    ⟨by decide +kernel, rfl⟩, trivial, trivial, trivial, trivial, trivial, trivial, trivial, trivial, trivial, trivial,
    trivial⟩

end CxlMemSim.Server.ShmRing
