/-
Is every peer served on its own connection (`TCPServer`)? The accept thread stores the socket in `sock_fd_` and sets
`connected_`; a handler reads `sock_fd_` for every message and clears `connected_` at its end. Both fields belong to the
server.

Model: a load or store of a field is one step, and so is a completed `recv_all` or `send_all`.
-/
import CxlMemSim.Core.Run

namespace CxlMemSim.Dist.Connections

open CxlMemSim.Core Function

/-! ## The server -/

/-- where the accept thread stands: in `accept`, or before a store or the start of the handler -/
inductive Acceptor where
  | accepting
  | got
  | published
  | connected
deriving DecidableEq, Repr

inductive Cause where
  | notRunning
  | notConnected
  | recvError (sock : Option ℕ)
  | authFailed (sock : Option ℕ)
  | sendError (sock : Option ℕ)
deriving DecidableEq, Repr

inductive Phase where
  | unborn
  | loop
  | loopConnected
  | receive
  | receiveSocket
  | receiving (sock : Option ℕ)
  | send
  | sendSocket
  | sending (sock : Option ℕ)
  | leaving (cause : Cause)
  | ended (cause : Cause)
deriving DecidableEq, Repr

inductive Event where
  | received (handler sock : ℕ)
  | sent (handler sock : ℕ)
deriving DecidableEq, Repr

inductive Stopping where
  | no
  | disconnect
  | close
  | done
deriving DecidableEq, Repr

structure TCPServer where
  sockFd : Option ℕ
  clientFd : Option ℕ
  connected : Bool
  running : Bool
  authToken : UInt64
  acceptor : Acceptor
  accepted : ℕ
  handler : ℕ → Phase
  stopping : Stopping
  log : List Event

def TCPServer.start (authToken : UInt64) : TCPServer where
  sockFd := none
  clientFd := none
  connected := false
  running := true
  authToken := authToken
  acceptor := .accepting
  accepted := 0
  handler := fun _ => .unborn
  stopping := .no
  log := []

/-- one step of a thread; `ok` is the outcome of a system call, `token` that of the message received -/
inductive Op where
  | accept (ok : Bool)
  | handle (h : ℕ) (ok : Bool) (token : UInt64)
  | stop
deriving DecidableEq, Repr

variable (s : TCPServer)

def acceptStep (ok : Bool) : TCPServer :=
  match s.acceptor with
  | .accepting =>
    if ok then { s with clientFd := some s.accepted, accepted := s.accepted + 1, acceptor := .got }
    else { s with clientFd := none }
  | .got => { s with sockFd := s.clientFd, acceptor := .published }
  | .published => { s with connected := true, acceptor := .connected }
  | .connected =>
    { s with handler := update s.handler (s.accepted - 1) .loop, acceptor := .accepting }

def TCPServer.setPhase (h : ℕ) (p : Phase) : TCPServer :=
  { s with handler := update s.handler h p }

def receivedStep (h : ℕ) (sock : Option ℕ) (ok : Bool) (token : UInt64) : TCPServer :=
  match sock with
  | none => s.setPhase h (.leaving (.recvError none))
  | some c =>
    if ok then
      let s : TCPServer := { s with log := s.log ++ [.received h c] }
      if s.authToken ≠ 0 ∧ token ≠ s.authToken then s.setPhase h (.leaving (.authFailed (some c)))
      else s.setPhase h .send
    else s.setPhase h (.leaving (.recvError (some c)))

def sentStep (h : ℕ) (sock : Option ℕ) (ok : Bool) : TCPServer :=
  match sock with
  | none => s.setPhase h (.leaving (.sendError none))
  | some c =>
    if ok then TCPServer.setPhase { s with log := s.log ++ [.sent h c] } h .loop
    else s.setPhase h (.leaving (.sendError (some c)))

def handleStep (h : ℕ) (ok : Bool) (token : UInt64) : TCPServer :=
  match s.handler h with
  | .unborn => s
  | .loop => s.setPhase h (if s.running then .loopConnected else .leaving .notRunning)
  | .loopConnected => s.setPhase h (if s.connected then .receive else .leaving .notConnected)
  | .receive => s.setPhase h (if s.connected then .receiveSocket else .leaving .notConnected)
  | .receiveSocket => s.setPhase h (.receiving s.sockFd)
  | .receiving sock => receivedStep s h sock ok token
  | .send => s.setPhase h (if s.connected then .sendSocket else .leaving .notConnected)
  | .sendSocket => s.setPhase h (.sending s.sockFd)
  | .sending sock => sentStep s h sock ok
  | .leaving cause => TCPServer.setPhase { s with connected := false } h (.ended cause)
  | .ended _ => s

def stopStep : TCPServer :=
  match s.stopping with
  | .no => { s with running := false, stopping := .disconnect }
  | .disconnect => { s with connected := false, stopping := .close }
  | .close => { s with sockFd := none, stopping := .done }
  | .done => s

def step : Op → TCPServer
  | .accept ok => acceptStep s ok
  | .handle h ok token => handleStep s h ok token
  | .stop => stopStep s

/-! ## Statement -/

def Phase.Idle : Phase → Prop
  | .unborn => True
  | .ended _ => True
  | _ => False

instance (p : Phase) : Decidable p.Idle := by cases p <;> unfold Phase.Idle <;> infer_instance

def OneAtATime : Op → Prop
  | .accept _ => s.acceptor = .accepting → ∀ h < s.accepted, (s.handler h).Idle
  | _ => True

instance (o : Op) : Decidable (OneAtATime s o) := by cases o <;> unfold OneAtATime <;> infer_instance

def Cause.Own (h : ℕ) : Cause → Prop
  | .notRunning => False
  | .notConnected => False
  | .recvError sock => sock = some h
  | .authFailed sock => sock = some h
  | .sendError sock => sock = some h

/-- every transfer is on the handler's own connection, and a handler ends only because of it or of `stop` -/
structure Separate (s : TCPServer) : Prop where
  received : ∀ h c, .received h c ∈ s.log → c = h
  sent : ∀ h c, .sent h c ∈ s.log → c = h
  ends : ∀ h cause, s.handler h = .leaving cause ∨ s.handler h = .ended cause → cause.Own h ∨ s.running = false

/-- the handler is at work on its own connection, or on descriptor -1 while the server is stopped -/
def Phase.Holds (running : Bool) (h : ℕ) : Phase → Prop
  | .receiving sock => sock = some h ∨ (sock = none ∧ running = false)
  | .sending sock => sock = some h ∨ (sock = none ∧ running = false)
  | .leaving cause => cause.Own h ∨ running = false
  | .ended cause => cause.Own h ∨ running = false
  | _ => True

/-- Invariant. At most one handler is at work, that of the last connection, and the server's fields are its. -/
structure Inv (s : TCPServer) : Prop where
  received : ∀ h c, .received h c ∈ s.log → c = h
  sent : ∀ h c, .sent h c ∈ s.log → c = h
  holds : ∀ h, (s.handler h).Holds s.running h
  stopping : s.stopping ≠ .no → s.running = false
  last : ∀ h, ¬ (s.handler h).Idle → h + 1 = s.accepted ∧ s.acceptor = .accepting
  sock : (∃ h, ¬ (s.handler h).Idle) ∨ s.acceptor = .published ∨ s.acceptor = .connected →
    s.sockFd = some (s.accepted - 1) ∨ (s.sockFd = none ∧ s.running = false)
  connected : (∃ h, ¬ (s.handler h).Idle) ∨ s.acceptor = .connected → s.connected = true ∨ s.running = false
  client : s.acceptor ≠ .accepting → s.clientFd = some (s.accepted - 1) ∧ 0 < s.accepted

lemma inv_start (authToken : UInt64) : Inv (.start authToken) where
  received := fun h c hm => absurd hm List.not_mem_nil
  sent := fun h c hm => absurd hm List.not_mem_nil
  holds := fun h => trivial
  stopping := fun h => absurd rfl h
  last := fun h hw => absurd trivial hw
  sock := by
    rintro (⟨h, hw⟩ | h | h)
    · exact absurd trivial hw
    · cases h
    · cases h
  connected := by
    rintro (⟨h, hw⟩ | h)
    · exact absurd trivial hw
    · cases h
  client := fun h => absurd rfl h

lemma Inv.separate {s : TCPServer} (hi : Inv s) : Separate s where
  __ := hi
  ends := by
    intro h cause hc
    have hh := hi.holds h
    rcases hc with hc | hc <;> rw [hc] at hh <;> exact hh

/-! ## Steps of a handler -/

variable {s : TCPServer} {h : ℕ}

lemma setPhase_self (s : TCPServer) (h : ℕ) (p : Phase) : (s.setPhase h p).handler h = p := update_self ..

lemma setPhase_other (s : TCPServer) {h' : ℕ} (p : Phase) (hne : h' ≠ h) :
    (s.setPhase h p).handler h' = s.handler h' := update_of_ne hne ..

variable (hi : Inv s) {p : Phase} {sock : Option ℕ}
include hi

section

variable (hw : ¬ (s.handler h).Idle)
include hw

lemma Inv.setPhase (hp : p.Holds s.running h) : Inv (s.setPhase h p) where
  __ := hi
  holds := by
    intro h'
    by_cases hh : h' = h
    · subst hh
      rw [setPhase_self]
      exact hp
    · rw [setPhase_other s p hh]
      exact hi.holds h'
  last := by
    intro h' hw'
    by_cases hh : h' = h
    · subst hh
      exact hi.last h' hw
    · rw [setPhase_other s p hh] at hw'
      exact hi.last h' hw'
  sock := fun _ => hi.sock (.inl ⟨h, hw⟩)
  connected := fun _ => hi.connected (.inl ⟨h, hw⟩)

lemma Inv.sockFd : s.sockFd = some h ∨ (s.sockFd = none ∧ s.running = false) := by
  have hlast := (hi.last h hw).1
  have hsock := hi.sock (.inl ⟨h, hw⟩)
  rwa [show s.accepted - 1 = h by omega] at hsock

lemma Inv.not_connected (hc : s.connected = false) : s.running = false := by
  rcases hi.connected (.inl ⟨h, hw⟩) with h1 | h1
  · rw [hc] at h1
    cases h1
  · exact h1

lemma Inv.test_connected (hp : p.Holds s.running h) :
    Inv (s.setPhase h (if s.connected then p else .leaving .notConnected)) := by
  refine hi.setPhase hw ?_
  split_ifs with hc
  · exact hp
  · exact .inr (hi.not_connected hw (by simpa using hc))

end

lemma Inv.logged {e : Event} (hown : e = .received h h ∨ e = .sent h h) : Inv { s with log := s.log ++ [e] } where
  __ := hi
  received := by
    intro h' c hm
    rcases List.mem_append.mp hm with hm | hm
    · exact hi.received h' c hm
    · rcases hown with rfl | rfl <;> cases List.mem_singleton.mp hm
      rfl
  sent := by
    intro h' c hm
    rcases List.mem_append.mp hm with hm | hm
    · exact hi.sent h' c hm
    · rcases hown with rfl | rfl <;> cases List.mem_singleton.mp hm
      rfl

section

variable (hw : ¬ (s.handler h).Idle) (hsock : sock = some h ∨ (sock = none ∧ s.running = false)) (ok : Bool)
include hw hsock

lemma receivedStep_inv (token : UInt64) : Inv (receivedStep s h sock ok token) := by
  rcases hsock with rfl | ⟨rfl, hstop⟩
  · unfold receivedStep
    dsimp only
    split_ifs with h1 h2
    · exact (hi.logged (.inl rfl)).setPhase hw (.inl rfl)
    · exact (hi.logged (.inl rfl)).setPhase hw trivial
    · exact hi.setPhase hw (.inl rfl)
  · exact hi.setPhase hw (.inr hstop)

lemma sentStep_inv : Inv (sentStep s h sock ok) := by
  rcases hsock with rfl | ⟨rfl, hstop⟩
  · unfold sentStep
    dsimp only
    split_ifs with h1
    · exact (hi.logged (.inr rfl)).setPhase hw trivial
    · exact hi.setPhase hw (.inl rfl)
  · exact hi.setPhase hw (.inr hstop)

end

lemma end_inv {cause : Cause} (hphase : s.handler h = .leaving cause) :
    Inv (TCPServer.setPhase { s with connected := false } h (.ended cause)) := by
  have hw : ¬ (s.handler h).Idle := by rw [hphase]; exact id
  have hlast := hi.last h hw
  have hcause := hi.holds h
  rw [hphase] at hcause
  have hidle : ∀ h', ((TCPServer.setPhase { s with connected := false } h (.ended cause)).handler h').Idle := by
    intro h'
    by_cases hh : h' = h
    · subst hh
      rw [setPhase_self]
      trivial
    · rw [setPhase_other _ _ hh]
      by_contra hw'
      have := (hi.last h' hw').1
      omega
  refine ⟨hi.received, hi.sent, ?_, hi.stopping, fun h' hw' => absurd (hidle h') hw', ?_, ?_, hi.client⟩
  · intro h'
    by_cases hh : h' = h
    · subst hh
      rw [setPhase_self]
      exact hcause
    · rw [setPhase_other _ _ hh]
      exact hi.holds h'
  · exact fun _ => hi.sock (.inl ⟨h, hw⟩)
  · rintro (⟨h', hw'⟩ | hacc)
    · exact absurd (hidle h') hw'
    · exact absurd (hlast.2.symm.trans hacc) (by decide)

lemma handleStep_inv (h : ℕ) (ok : Bool) (token : UInt64) : Inv (handleStep s h ok token) := by
  have hw : ∀ p, s.handler h = p → ¬ p.Idle → ¬ (s.handler h).Idle := by
    rintro p rfl hp
    exact hp
  have hheld := hi.holds h
  unfold handleStep
  cases hphase : s.handler h with
  | unborn | ended cause => exact hi
  | loop =>
    refine hi.setPhase (hw _ hphase id) ?_
    cases hr : s.running with
    | true => trivial
    | false => exact .inr rfl
  | loopConnected | receive | send => exact hi.test_connected (hw _ hphase id) trivial
  | receiveSocket | sendSocket => exact hi.setPhase (hw _ hphase id) (hi.sockFd (hw _ hphase id))
  | receiving sock =>
    rw [hphase] at hheld
    exact receivedStep_inv hi (hw _ hphase id) hheld ok token
  | sending sock =>
    rw [hphase] at hheld
    exact sentStep_inv hi (hw _ hphase id) hheld ok
  | leaving cause => exact end_inv hi hphase

lemma Inv.idle_of_acceptor (hacc : s.acceptor ≠ .accepting) (h : ℕ) : (s.handler h).Idle := by
  by_contra hw
  exact hacc (hi.last h hw).2

/-- The accept thread, if it takes a connection only while no handler is at work. -/
lemma acceptStep_inv (ok : Bool)
    (hone : s.acceptor = .accepting → ∀ h < s.accepted, (s.handler h).Idle) : Inv (acceptStep s ok) := by
  unfold acceptStep
  cases hacc : s.acceptor with
  | accepting =>
    have hidle : ∀ h, (s.handler h).Idle := by
      intro h
      by_contra hw
      have hlt : h < s.accepted := by
        have := (hi.last h hw).1
        omega
      exact hw (hone hacc h hlt)
    dsimp only
    split_ifs with hok
    · refine ⟨hi.received, hi.sent, hi.holds, hi.stopping, fun h hw => absurd (hidle h) hw, ?_, ?_, fun _ => ⟨rfl, ?_⟩⟩
      · rintro (⟨h, hw⟩ | hp | hp)
        · exact absurd (hidle h) hw
        · cases hp
        · cases hp
      · rintro (⟨h, hw⟩ | hp)
        · exact absurd (hidle h) hw
        · cases hp
      · exact Nat.succ_pos _
    · refine ⟨hi.received, hi.sent, hi.holds, hi.stopping, fun h hw => absurd (hidle h) hw, ?_, ?_,
        fun hne => absurd rfl hne⟩
      · rintro (⟨h, hw⟩ | hp | hp)
        · exact absurd (hidle h) hw
        · cases hp
        · cases hp
      · rintro (⟨h, hw⟩ | hp)
        · exact absurd (hidle h) hw
        · cases hp
  | got =>
    have hidle := hi.idle_of_acceptor (by rw [hacc]; decide)
    have hclient := hi.client (by rw [hacc]; decide)
    refine ⟨hi.received, hi.sent, hi.holds, hi.stopping, fun h hw => absurd (hidle h) hw, fun _ => .inl hclient.1, ?_,
      fun _ => hclient⟩
    rintro (⟨h, hw⟩ | hp)
    · exact absurd (hidle h) hw
    · cases hp
  | published =>
    have hidle := hi.idle_of_acceptor (by rw [hacc]; decide)
    exact ⟨hi.received, hi.sent, hi.holds, hi.stopping, fun h hw => absurd (hidle h) hw,
      fun _ => hi.sock (.inr (.inl hacc)), fun _ => .inl rfl, fun _ => hi.client (by rw [hacc]; decide)⟩
  | connected =>
    have hidle := hi.idle_of_acceptor (by rw [hacc]; decide)
    have hpos := (hi.client (by rw [hacc]; decide)).2
    refine ⟨hi.received, hi.sent, ?_, hi.stopping, ?_, fun _ => hi.sock (.inr (.inr hacc)),
      fun _ => hi.connected (.inr hacc), fun hne => absurd rfl hne⟩
    · intro h
      by_cases hh : h = s.accepted - 1
      · subst hh
        change (update s.handler (s.accepted - 1) .loop (s.accepted - 1)).Holds _ _
        rw [update_self]
        trivial
      · change (update s.handler (s.accepted - 1) .loop h).Holds _ _
        rw [update_of_ne hh]
        exact hi.holds h
    · intro h hw
      by_cases hh : h = s.accepted - 1
      · exact ⟨by dsimp only; omega, rfl⟩
      · change ¬ (update s.handler (s.accepted - 1) .loop h).Idle at hw
        rw [update_of_ne hh] at hw
        exact absurd (hidle h) hw

omit hi

lemma Phase.Holds.stopped {running : Bool} (hp : p.Holds running h) : p.Holds false h := by
  cases p with
  | receiving sock | sending sock => exact hp.imp_right fun hn => ⟨hn.1, rfl⟩
  | leaving cause | ended cause => exact .inr rfl
  | _ => trivial

/-- `stop` keeps the invariant. -/
lemma stopStep_inv (hi : Inv s) : Inv (stopStep s) := by
  unfold stopStep
  cases hst : s.stopping with
  | no =>
    exact ⟨hi.received, hi.sent, fun h => (hi.holds h).stopped, fun _ => rfl, hi.last,
      fun hp => (hi.sock hp).imp_right fun hn => ⟨hn.1, rfl⟩, fun _ => .inr rfl, hi.client⟩
  | disconnect =>
    have hstop := hi.stopping (by rw [hst]; decide)
    exact ⟨hi.received, hi.sent, hi.holds, fun _ => hstop, hi.last, hi.sock, fun _ => .inr hstop, hi.client⟩
  | close =>
    have hstop := hi.stopping (by rw [hst]; decide)
    exact ⟨hi.received, hi.sent, hi.holds, fun _ => hstop, hi.last, fun _ => .inr ⟨rfl, hstop⟩, hi.connected, hi.client⟩
  | done => exact hi

/-! ## Result -/

lemma step_inv (s : TCPServer) (o : Op) (hi : Inv s) (hone : OneAtATime s o) : Inv (step s o) := by
  cases o with
  | accept ok => exact acceptStep_inv hi ok hone
  | handle h ok token => exact handleStep_inv hi h ok token
  | stop => exact stopStep_inv hi

/-- If connections are accepted only while no handler is at work, every handler uses its own connection only. -/
theorem connections_separate (authToken : UInt64) (ops : List Op)
    (hone : AllSteps step OneAtATime (.start authToken) ops) : Separate (run step (.start authToken) ops) :=
  (run_inv step_inv (inv_start authToken) hone).separate

def acceptOne : List Op := [.accept true, .accept true, .accept true, .accept true]

def serveOne (h : ℕ) : List Op := List.replicate 8 (.handle h true 0)

theorem connections_separate_in_turn :
    (run step (.start 0) (acceptOne ++ serveOne 0 ++ List.replicate 4 (.handle 0 true 0) ++
        [.handle 0 false 0, .handle 0 true 0] ++ acceptOne ++ serveOne 1)).log =
      [.received 0 0, .sent 0 0, .received 1 1, .sent 1 1] ∧
    Separate (run step (.start 0) (acceptOne ++ serveOne 0 ++ List.replicate 4 (.handle 0 true 0) ++
        [.handle 0 false 0, .handle 0 true 0] ++ acceptOne ++ serveOne 1)) :=
  ⟨by decide +kernel, connections_separate 0 _ (by decide +kernel)⟩

/-- two peers connect before the first sends: handler 0 serves connection 1, and after an error handler 1 leaves at once -/
theorem second_accept_mixes :
    let ops := acceptOne ++ acceptOne ++ serveOne 0
    let more := List.replicate 4 (.handle 0 true 0) ++ [.handle 0 false 0, .handle 0 true 0, .handle 1 true 0,
      .handle 1 true 0, .handle 1 true 0]
    (run step (.start 0) ops).log = [.received 0 1, .sent 0 1] ∧
    (run step (.start 0) (ops ++ more)).handler 1 = .ended .notConnected ∧
    (run step (.start 0) (ops ++ more)).running = true ∧
    ¬ Separate (run step (.start 0) ops) := by
  refine ⟨by decide +kernel, by decide +kernel, by decide +kernel, ?_⟩
  intro h
  exact absurd (h.received 0 1 (by decide +kernel)) (by decide)

end CxlMemSim.Dist.Connections
