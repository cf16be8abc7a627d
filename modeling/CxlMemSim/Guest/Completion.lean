/-
Whose result is it? Completions of GPU commands that several processes submit through one BAR2 region
(`cxl_gpu_transport_execute`).

Model: at most one execution holds the transport lock. The device may complete its oldest submission at any time. A
completion carries the execution it was produced for, an answer the one that returned it.
-/
import CxlMemSim.Core.Run

namespace CxlMemSim.Guest.Completion

open CxlMemSim.Core (AllSteps run run_inv)

/-! ## Descriptor and device -/

inductive CompletionStatus where
  | empty
  | complete
  | error
deriving DecidableEq, Repr

structure Produced where
  submission : UInt64
  deviceGeneration : UInt64
  status : CompletionStatus
  result : UInt64
  producedFor : Option ℕ
deriving DecidableEq, Repr

structure Submitted where
  submission : UInt64
  deviceGeneration : UInt64
  command : UInt32
  execution : ℕ
deriving DecidableEq, Repr

inductive Place where
  | loadGeneration
  | loadPrevious (generation : UInt64)
  | submit (generation previous : UInt64)
  | loadStatus (generation submission : UInt64)
  | loadSubmission (generation submission : UInt64) (status : CompletionStatus)
  | loadCompletionGeneration (generation submission : UInt64) (status : CompletionStatus)
  | loadResult (status : CompletionStatus)
deriving DecidableEq, Repr

structure Execution where
  process : ℕ
  number : ℕ
  command : UInt32
  place : Place
deriving DecidableEq, Repr

structure Answer where
  execution : ℕ
  result : UInt32
  producedFor : Option ℕ
deriving DecidableEq, Repr

structure State where
  deviceGeneration : UInt64
  completion : Produced
  queue : List Submitted
  running : Option Execution
  begun : ℕ
  unusable : ℕ → Bool
  answers : List Answer

def start (generation : UInt64) : State := ⟨generation, ⟨0, 0, .empty, 0, none⟩, [], none, 0, fun _ => false, []⟩

/-! ## Steps -/

inductive Op where
  | execute (process : ℕ) (command : UInt32)
  | advance
  | timeOut
  | complete (failed : Bool) (result : UInt64)
deriving DecidableEq, Repr

variable (s : State)

def State.goto (e : Execution) (place : Place) : State := { s with running := some { e with place } }

def State.abandon (e : Execution) : State :=
  { s with running := none, unusable := Function.update s.unusable e.process true }

def advance (e : Execution) : State :=
  match e.place with
  | .loadGeneration => s.goto e (.loadPrevious s.deviceGeneration)
  | .loadPrevious generation => s.goto e (.submit generation s.completion.submission)
  | .submit generation previous =>
    if generation = 0 ∨ previous = 0xFFFFFFFFFFFFFFFF then s.abandon e
    else
      { s.goto e (.loadStatus generation (previous + 1)) with
        queue := s.queue ++ [⟨previous + 1, generation, e.command, e.number⟩] }
  | .loadStatus generation submission =>
    if s.completion.status = .empty then s
    else s.goto e (.loadSubmission generation submission s.completion.status)
  | .loadSubmission generation submission status =>
    if s.completion.submission = submission then s.goto e (.loadCompletionGeneration generation submission status)
    else s.goto e (.loadStatus generation submission)
  | .loadCompletionGeneration generation submission status =>
    if s.completion.deviceGeneration = generation then s.goto e (.loadResult status)
    else s.goto e (.loadStatus generation submission)
  | .loadResult status =>
    { s with
      running := none
      unusable := if status = .error then Function.update s.unusable e.process true else s.unusable
      answers := s.answers ++ [⟨e.number, s.completion.result.toUInt32, s.completion.producedFor⟩] }

def polling (e : Execution) : Bool :=
  match e.place with
  | .loadStatus _ _ => true
  | _ => false

def step : Op → State
  | .execute process command =>
    if s.running.isSome ∨ s.unusable process then s
    else { s with running := some ⟨process, s.begun, command, .loadGeneration⟩, begun := s.begun + 1 }
  | .advance =>
    match s.running with
    | none => s
    | some e => advance s e
  | .timeOut =>
    match s.running with
    | none => s
    | some e => if polling e then s.abandon e else s
  | .complete failed result =>
    match s.queue with
    | [] => s
    | oldest :: rest =>
      { s with
        queue := rest
        completion := ⟨oldest.submission, oldest.deviceGeneration, if failed then .error else .complete, result,
          some oldest.execution⟩ }

/-! ## Statement -/

def Attributed : Prop := ∀ a ∈ s.answers, a.producedFor = some a.execution

instance : Decidable (Attributed s) := by unfold Attributed; infer_instance

def CaughtUp : Op → Prop
  | .execute _ _ => s.queue = []
  | _ => True

instance (o : Op) : Decidable (CaughtUp s o) := by cases o <;> unfold CaughtUp <;> infer_instance

/-- process 0 submits and gives up; process 1 submits under the same number; the device completes the first with 7 -/
def lateCompletion : List Op :=
  [.execute 0 1, .advance, .advance, .advance, .advance, .timeOut, .execute 1 2, .advance, .advance, .advance,
    .complete false 7, .advance, .advance, .advance, .advance]

/-- A late result is taken for another command's. Execution 1 returns the 7 of execution 0. -/
theorem late_result_taken : (run step (start 1) lateCompletion).answers = [⟨1, 7, some 0⟩] ∧
    ¬ Attributed (run step (start 1) lateCompletion) := by
  decide

/-! ## Executions that begin caught up -/

/-- the submission is with the device, numbered above the last completed one, or is the last completed one -/
def InFlight (number : ℕ) (submission : UInt64) : Prop :=
  (∃ job, s.queue = [job] ∧ job.execution = number ∧ job.submission = submission ∧
      s.completion.submission ≠ submission) ∨
    s.queue = [] ∧ s.completion.submission = submission ∧ s.completion.producedFor = some number

def Completed (number : ℕ) : Prop := s.queue = [] ∧ s.completion.producedFor = some number

def PlaceInv (e : Execution) : Prop :=
  match e.place with
  | .loadGeneration => s.queue = []
  | .loadPrevious _ => s.queue = []
  | .submit _ previous => s.queue = [] ∧ s.completion.submission = previous
  | .loadStatus _ submission => InFlight s e.number submission
  | .loadSubmission _ submission _ => InFlight s e.number submission
  | .loadCompletionGeneration _ submission _ => Completed s e.number ∧ s.completion.submission = submission
  | .loadResult _ => Completed s e.number

structure Inv (s : State) : Prop where
  attributed : Attributed s
  place : ∀ e, s.running = some e → PlaceInv s e

lemma inv_start (generation : UInt64) : Inv (start generation) := ⟨fun _ ha => (by cases ha), fun _ he => (by cases he)⟩

variable {s : State} {e : Execution}

lemma Inv.goto (hi : Inv s) {place : Place} (hplace : PlaceInv s { e with place }) : Inv (s.goto e place) := by
  refine ⟨hi.attributed, fun e' he' => ?_⟩
  cases he'
  exact hplace

lemma Inv.abandon (hi : Inv s) (e : Execution) : Inv (s.abandon e) := ⟨hi.attributed, fun _ he => (by cases he)⟩

lemma succ_ne_self {x : UInt64} : x ≠ x + 1 := by
  intro h
  have hlt := x.toNat_lt
  have := congrArg UInt64.toNat h
  rw [UInt64.toNat_add, UInt64.toNat_one] at this
  omega

lemma InFlight.completed {number : ℕ} {submission : UInt64} (h : InFlight s number submission)
    (hmatch : s.completion.submission = submission) : Completed s number := by
  rcases h with ⟨job, -, -, -, hne⟩ | ⟨hqueue, -, hfor⟩
  · exact absurd hmatch hne
  · exact ⟨hqueue, hfor⟩

lemma Inv.advance (hi : Inv s) (he : s.running = some e) : Inv (advance s e) := by
  have hp := hi.place e he
  unfold Completion.advance
  unfold PlaceInv at hp
  cases hplace : e.place with
  | loadGeneration =>
    rw [hplace] at hp
    exact hi.goto hp
  | loadPrevious generation =>
    rw [hplace] at hp
    exact hi.goto ⟨hp, rfl⟩
  | submit generation previous =>
    rw [hplace] at hp
    obtain ⟨hqueue, hprev⟩ := hp
    dsimp only
    split_ifs
    · exact hi.abandon e
    · refine ⟨hi.attributed, fun e' he' => ?_⟩
      cases he'
      refine .inl ⟨⟨previous + 1, generation, e.command, e.number⟩, ?_, rfl, rfl, ?_⟩
      · simp [hqueue]
      · exact hprev ▸ succ_ne_self
  | loadStatus generation submission =>
    rw [hplace] at hp
    dsimp only
    split_ifs
    · exact hi
    · exact hi.goto hp
  | loadSubmission generation submission status =>
    rw [hplace] at hp
    dsimp only
    split_ifs with hmatch
    · exact hi.goto ⟨hp.completed hmatch, hmatch⟩
    · exact hi.goto hp
  | loadCompletionGeneration generation submission status =>
    rw [hplace] at hp
    dsimp only
    split_ifs
    · exact hi.goto hp.1
    · exact hi.goto (.inr ⟨hp.1.1, hp.2, hp.1.2⟩)
  | loadResult status =>
    rw [hplace] at hp
    refine ⟨fun a ha => ?_, fun _ hrun => by cases hrun⟩
    rcases List.mem_append.1 ha with ha | ha
    · exact hi.attributed a ha
    · rw [List.mem_singleton.1 ha]
      exact hp.2

lemma PlaceInv.complete (h : PlaceInv s e) {oldest : Submitted} {rest : List Submitted}
    (hqueue : s.queue = oldest :: rest) (status : CompletionStatus) (result : UInt64) : PlaceInv { s with
      queue := rest
      completion := ⟨oldest.submission, oldest.deviceGeneration, status, result, some oldest.execution⟩ } e := by
  have hflight : ∀ submission, InFlight s e.number submission → InFlight { s with
      queue := rest
      completion := ⟨oldest.submission, oldest.deviceGeneration, status, result, some oldest.execution⟩ } e.number
      submission := by
    rintro submission (⟨job, hjob, hnumber, hsub, -⟩ | ⟨hnone, -, -⟩)
    · rw [hqueue] at hjob
      obtain ⟨rfl, rfl⟩ := List.cons.inj hjob
      exact .inr ⟨rfl, hsub, congrArg some hnumber⟩
    · rw [hqueue] at hnone
      cases hnone
  unfold PlaceInv at h ⊢
  cases hplace : e.place with
  | loadStatus generation submission | loadSubmission generation submission st =>
    rw [hplace] at h
    exact hflight submission h
  | loadGeneration | loadPrevious generation =>
    rw [hplace, hqueue] at h
    cases h
  | submit generation previous =>
    rw [hplace, hqueue] at h
    cases h.1
  | loadCompletionGeneration generation submission st =>
    rw [hplace] at h
    have hnone := h.1.1
    rw [hqueue] at hnone
    cases hnone
  | loadResult st =>
    rw [hplace] at h
    have hnone := h.1
    rw [hqueue] at hnone
    cases hnone

/-- The running execution keeps knowing where its submission is. -/
lemma Inv.step (hi : Inv s) (o : Op) (hc : CaughtUp s o) : Inv (step s o) := by
  cases o with
  | execute process command =>
    simp only [Completion.step]
    split_ifs
    · exact hi
    · refine ⟨hi.attributed, fun e he => ?_⟩
      cases he
      exact hc
  | advance =>
    simp only [Completion.step]
    cases hrun : s.running with
    | none => exact hi
    | some e => exact hi.advance hrun
  | timeOut =>
    simp only [Completion.step]
    cases hrun : s.running with
    | none => exact hi
    | some e =>
      dsimp only
      split_ifs
      · exact hi.abandon e
      · exact hi
  | complete failed result =>
    simp only [Completion.step]
    cases hqueue : s.queue with
    | nil => exact hi
    | cons oldest rest => exact ⟨hi.attributed, fun e he => (hi.place e he).complete hqueue _ result⟩

/-- If an execution begins only when every earlier submission is completed, every result is of its own command. -/
theorem results_attributed (generation : UInt64) (ops : List Op) (hc : AllSteps step CaughtUp (start generation) ops) :
    Attributed (run step (start generation) ops) :=
  (run_inv (fun _ o hi h => hi.step o h) (inv_start generation) hc).attributed

theorem results_attributed_after_timeout :
    let ops := [.execute 0 1, .advance, .advance, .advance, .advance, .timeOut, .complete false 7, .execute 1 2, .advance,
      .advance, .advance, .complete false 8, .advance, .advance, .advance, .advance]
    Attributed (run step (start 1) ops) ∧ (run step (start 1) ops).answers = [⟨1, 8, some 1⟩] := by
  intro ops
  exact ⟨results_attributed 1 ops (by decide), by decide⟩

end CxlMemSim.Guest.Completion
