/-
Is a context created and destroyed once? `cuDevicePrimaryCtxRetain` and `cuCtxDestroy_v2` ask the context state
(`prepare`), execute the device command and tell the context state (`commit`), which is unlocked in between: two threads
that ask before either has told are both sent to the device. The k-th CTX_CREATE returns `device k`.
-/
import CxlMemSim.Core.Threads
import CxlMemSim.Guest.Context

namespace CxlMemSim.Guest.Context

open Function
open CxlMemSim.Core

variable {n : ℕ}

/-! ## The calls -/

structure Shared (n : ℕ) where
  process : ProcessState
  depth : Fin n → UInt32
  creates : ℕ
  destroys : ℕ

def Shared.view (s : Shared n) (i : Fin n) : View := ⟨s.process, s.depth i⟩

def Shared.put (s : Shared n) (i : Fin n) (v : View) : Shared n :=
  { s with process := v.process, depth := update s.depth i v.currentDepth }

inductive Retain where
  | ask
  | create
  | commit (token : UInt64)
  | done (result : CtxResult) (ctx : UInt64)
deriving DecidableEq, Repr

def retainMove (device : ℕ → UInt64) (i : Fin n) (s : Shared n) : Retain → Shared n × Retain
  | .ask =>
    match preparePrimaryRetain (s.view i) with
    | (_, v, some prepared) =>
      (s.put i v, if prepared.needsCreate then .create else .done .success prepared.existingToken)
    | (err, v, none) => (s.put i v, .done err 0)
  | .create => ({ s with creates := s.creates + 1 }, .commit (device s.creates))
  | .commit token =>
    match commitPrimaryRetain (s.view i) token with
    | (.success, v) => (s.put i v, .done .success token)
    | (err, v) => (s.put i v, .done err 0)
  | .done result ctx => (s, .done result ctx)

inductive Destroy where
  | ask
  | destroy
  | commit
  | done (result : CtxResult)
deriving DecidableEq, Repr

def destroyMove (ctx : UInt64) (i : Fin n) (s : Shared n) : Destroy → Shared n × Destroy
  | .ask =>
    match prepareDestroy (s.view i) ctx with
    | .success => (s, .destroy)
    | err => (s, .done err)
  | .destroy => ({ s with destroys := s.destroys + 1 }, .commit)
  | .commit => (s.put i (commitDestroy (s.view i) ctx).2, .done (commitDestroy (s.view i) ctx).1)
  | .done result => (s, .done result)

def retainStart (depth : Fin n → UInt32) : Sys n (Shared n) Retain := ⟨⟨⟨0, .empty, 0⟩, depth, 0, 0⟩, fun _ => .ask⟩

def destroyStart (ctx : UInt64) (depth : Fin n → UInt32) : Sys n (Shared n) Destroy :=
  ⟨⟨⟨ctx, .ordinaryLive, 0⟩, depth, 0, 0⟩, fun _ => .ask⟩

/-! ## The race -/

def Retain.pending : Retain → Bool
  | .create => true
  | .commit _ => true
  | _ => false

def Destroy.pending : Destroy → Bool
  | .destroy => true
  | .commit => true
  | _ => false

def AsksAlone {P : Type} (ask : P) (pending : P → Bool) (s : Sys n (Shared n) P) (i : Fin n) : Prop :=
  s.pc i = ask → ∀ j, pending (s.pc j) = false

instance {P : Type} [DecidableEq P] (ask : P) (pending : P → Bool) (s : Sys n (Shared n) P) (i : Fin n) :
    Decidable (AsksAlone ask pending s i) := by unfold AsksAlone; infer_instance

def bothAsk : List (Fin 2) := [0, 1, 0, 0, 1, 1]

def bothRetain : Sys 2 (Shared 2) Retain :=
  run (Sys.step (retainMove fun k => UInt64.ofNat (k + 1))) (retainStart fun _ => 0) bothAsk

def bothDestroy : Sys 2 (Shared 2) Destroy := run (Sys.step (destroyMove 1)) (destroyStart 1 fun _ => 1) bothAsk

/-- Two commands are executed. Two retains create two contexts; two destroys destroy one context twice. -/
theorem executed_twice :
    (bothRetain.shared.creates = 2 ∧ bothRetain.pc 0 = .done .success 1 ∧ bothRetain.pc 1 = .done .notSupported 0) ∧
      bothDestroy.shared.destroys = 2 := by
  decide

def Retain.rank : Retain → ℕ
  | .ask => 3
  | .create => 2
  | .commit _ => 1
  | .done _ _ => 0

def Destroy.rank : Destroy → ℕ
  | .ask => 3
  | .destroy => 2
  | .commit => 1
  | .done _ => 0

lemma retainMove_rank (device : ℕ → UInt64) (i : Fin n) (s : Shared n) (p : Retain) :
    (retainMove device i s p).2.rank ≤ p.rank - 1 := by
  cases p with
  | ask =>
    simp only [retainMove]
    split
    · split_ifs <;> simp [Retain.rank]
    · simp [Retain.rank]
  | create => simp [retainMove, Retain.rank]
  | commit token =>
    simp only [retainMove]
    split <;> simp [Retain.rank]
  | done result ctx => simp [retainMove, Retain.rank]

lemma destroyMove_rank (ctx : UInt64) (i : Fin n) (s : Shared n) (p : Destroy) :
    (destroyMove ctx i s p).2.rank ≤ p.rank - 1 := by
  cases p with
  | ask =>
    simp only [destroyMove]
    split <;> simp [Destroy.rank]
  | destroy | commit | done result => simp [destroyMove, Destroy.rank]

/-! ## Retains that ask alone -/

inductive RetainStage (ctx : UInt64) (s : Sys n (Shared n) Retain) : Prop where
  | before (hpc : ∀ j, s.pc j = .ask) (hmode : s.shared.process.mode = .empty) (hcreates : s.shared.creates = 0)
  | create {i : Fin n} (hi : s.pc i = .create) (hpc : ∀ j, j ≠ i → s.pc j = .ask)
      (hmode : s.shared.process.mode = .empty) (hcreates : s.shared.creates = 0)
  | commit {i : Fin n} (hi : s.pc i = .commit ctx) (hpc : ∀ j, j ≠ i → s.pc j = .ask)
      (hmode : s.shared.process.mode = .empty) (hcreates : s.shared.creates = 1)
  | live (hpc : ∀ j, s.pc j = .ask ∨ s.pc j = .done .success ctx) (hmode : s.shared.process.mode = .primaryLive)
      (htoken : s.shared.process.token = ctx) (hcreates : s.shared.creates = 1)

variable {s : Shared n} {ctx : UInt64} {device : ℕ → UInt64} {sched : List (Fin n)}

section

variable (device : ℕ → UInt64) (i : Fin n)

lemma retainMove_ask_empty (hmode : s.process.mode = .empty) :
    retainMove device i s .ask = (s.put i (s.view i), .create) := by
  have hprep : preparePrimaryRetain (s.view i) = (.success, s.view i, some ⟨true, 0⟩) := by
    simp [preparePrimaryRetain, Shared.view, hmode]
  simp [retainMove, hprep]

lemma retainMove_ask_live (hmode : s.process.mode = .primaryLive) :
    ∃ v : View, v.process.mode = .primaryLive ∧ v.process.token = s.process.token ∧
      retainMove device i s .ask = (s.put i v, .done .success s.process.token) := by
  have hprep : preparePrimaryRetain (s.view i) = (.success,
      ⟨{ s.process with primaryRetainCount := s.process.primaryRetainCount + 1 }, s.depth i⟩,
      some ⟨false, s.process.token⟩) := by
    simp [preparePrimaryRetain, Shared.view, hmode]
  exact ⟨⟨{ s.process with primaryRetainCount := s.process.primaryRetainCount + 1 }, s.depth i⟩, hmode, rfl,
    by simp [retainMove, hprep]⟩

lemma retainMove_commit {token : UInt64} (htoken : token ≠ 0)
    (hmode : s.process.mode = .empty) : retainMove device i s (.commit token) =
      (s.put i ⟨⟨token, .primaryLive, 1⟩, s.depth i⟩, .done .success token) := by
  have hcommit : commitPrimaryRetain (s.view i) token = (.success, ⟨⟨token, .primaryLive, 1⟩, s.depth i⟩) := by
    simp [commitPrimaryRetain, Shared.view, hmode, htoken]
  simp [retainMove, hcommit]

end

lemma not_asksAlone {P : Type} {ask : P} {pending : P → Bool} {s : Sys n (Shared n) P} {i j : Fin n}
    (hi : s.pc i = ask) (hj : pending (s.pc j) = true) : ¬ AsksAlone ask pending s i := by
  intro h
  rw [h hi j] at hj
  cases hj

lemma RetainStage.step (hdev : device 0 ≠ 0) {s : Sys n (Shared n) Retain} (hs : RetainStage (device 0) s) (i : Fin n)
    (halone : AsksAlone .ask Retain.pending s i) :
    RetainStage (device 0) (Sys.step (retainMove device) s i) := by
  have updated : (∀ j, j ≠ i → s.pc j = .ask ∨ s.pc j = .done .success (device 0)) → ∀ j,
      update s.pc i (.done .success (device 0)) j = .ask ∨
        update s.pc i (.done .success (device 0)) j = .done .success (device 0) := fun hpc =>
    (forall_update_iff s.pc fun _ p => p = .ask ∨ p = .done .success (device 0)).2 ⟨.inr rfl, hpc⟩
  unfold Sys.step
  cases hs with
  | before hpc hmode hcreates =>
    rw [hpc i, retainMove_ask_empty device i hmode]
    exact .create (i := i) (update_self ..)
      (fun j hj => (update_of_ne hj ..).trans (hpc j)) hmode hcreates
  | @create k hk hpc hmode hcreates =>
    by_cases hik : i = k
    · subst hik
      rw [hk]
      simp only [retainMove, hcreates]
      exact .commit (i := i) (update_self ..)
        (fun j hj => (update_of_ne hj ..).trans (hpc j hj)) hmode rfl
    · exact absurd halone (not_asksAlone (hpc i hik) (by rw [hk]; rfl))
  | @commit k hk hpc hmode hcreates =>
    by_cases hik : i = k
    · subst hik
      rw [hk, retainMove_commit device i hdev hmode]
      exact .live (updated fun j hj => .inl (hpc j hj)) rfl rfl hcreates
    · exact absurd halone (not_asksAlone (hpc i hik) (by rw [hk]; rfl))
  | live hpc hmode htoken hcreates =>
    rcases hpc i with hi | hi
    · obtain ⟨v, hvmode, hvtoken, hmove⟩ := retainMove_ask_live device i hmode
      rw [hi, hmove, htoken]
      exact .live (updated fun j _ => hpc j) hvmode (hvtoken.trans htoken) hcreates
    · rw [hi]
      exact .live (updated fun j _ => hpc j) hmode htoken hcreates

lemma retains_once (hdev : device 0 ≠ 0) (hn : 0 < n) (depth : Fin n → UInt32) (hall : ∀ i, 3 ≤ sched.count i)
    (halone : AllSteps (Sys.step (retainMove device)) (AsksAlone .ask Retain.pending) (retainStart depth) sched) :
    (run (Sys.step (retainMove device)) (retainStart depth) sched).shared.creates = 1 ∧
      ∀ i, (run (Sys.step (retainMove device)) (retainStart depth) sched).pc i = .done .success (device 0) := by
  have hstage : RetainStage (device 0) (run (Sys.step (retainMove device)) (retainStart depth) sched) :=
    run_inv (fun _ i hs h => hs.step hdev i h) (.before (fun _ => rfl) rfl rfl) halone
  have hend : ∀ i, ((run (Sys.step (retainMove device)) (retainStart depth) sched).pc i).rank = 0 := by
    intro i
    have hrank := rank_run (retainMove_rank device) (retainStart depth) sched i
    have hthree : ((retainStart depth).pc i).rank = 3 := rfl
    have := hall i
    omega
  cases hstage with
  | before hpc hmode hcreates =>
    have := hend ⟨0, hn⟩
    rw [hpc] at this
    cases this
  | @create k hk hpc hmode hcreates | @commit k hk hpc hmode hcreates =>
    have := hend k
    rw [hk] at this
    cases this
  | live hpc hmode htoken hcreates =>
    refine ⟨hcreates, fun i => (hpc i).resolve_left fun hi => ?_⟩
    have := hend i
    rw [hi] at this
    cases this

/-! ## Destroys that ask alone -/

inductive DestroyStage (ctx : UInt64) (s : Sys n (Shared n) Destroy) : Prop where
  | before (hpc : ∀ j, s.pc j = .ask) (hmode : s.shared.process.mode = .ordinaryLive)
      (htoken : s.shared.process.token = ctx) (hdestroys : s.shared.destroys = 0)
  | destroy {i : Fin n} (hi : s.pc i = .destroy) (hpc : ∀ j, j ≠ i → s.pc j = .ask)
      (hmode : s.shared.process.mode = .ordinaryLive) (htoken : s.shared.process.token = ctx)
      (hdestroys : s.shared.destroys = 0)
  | commit {i : Fin n} (hi : s.pc i = .commit) (hpc : ∀ j, j ≠ i → s.pc j = .ask)
      (hmode : s.shared.process.mode = .ordinaryLive) (htoken : s.shared.process.token = ctx)
      (hdestroys : s.shared.destroys = 1)
  | destroyed {i : Fin n} (hi : s.pc i = .done .success)
      (hpc : ∀ j, j ≠ i → s.pc j = .ask ∨ s.pc j = .done .invalidContext)
      (hmode : s.shared.process.mode = .ordinaryDestroyed) (hdestroys : s.shared.destroys = 1)

lemma destroyMove_ask_live (hctx : ctx ≠ 0) (i : Fin n)
    (hmode : s.process.mode = .ordinaryLive) (htoken : s.process.token = ctx) :
    destroyMove ctx i s .ask = (s, .destroy) := by
  have hprep : prepareDestroy (s.view i) ctx = .success := by
    simp [prepareDestroy, tokenIsLive, Shared.view, hmode, htoken, hctx]
  simp [destroyMove, hprep]

lemma destroyMove_ask_destroyed (ctx : UInt64) (i : Fin n)
    (hmode : s.process.mode = .ordinaryDestroyed) : destroyMove ctx i s .ask = (s, .done .invalidContext) := by
  have hprep : prepareDestroy (s.view i) ctx = .invalidContext := by simp [prepareDestroy, Shared.view, hmode]
  simp [destroyMove, hprep]

lemma destroyMove_commit (hctx : ctx ≠ 0) (i : Fin n)
    (hmode : s.process.mode = .ordinaryLive) (htoken : s.process.token = ctx) :
    ∃ v : View, v.process.mode = .ordinaryDestroyed ∧
      destroyMove ctx i s .commit = (s.put i v, .done .success) := by
  have hlive : (!tokenIsLive (s.view i).process ctx || (s.view i).process.mode ≠ .ordinaryLive) = false := by
    simp [tokenIsLive, Shared.view, hmode, htoken, hctx]
  have hcommit : commitDestroy (s.view i) ctx = (.success, ⟨{ s.process with mode := .ordinaryDestroyed },
      if 0 < s.depth i then s.depth i - 1 else s.depth i⟩) := by
    unfold commitDestroy
    rw [hlive]
    rfl
  refine ⟨(commitDestroy (s.view i) ctx).2, by rw [hcommit], ?_⟩
  simp only [destroyMove, hcommit]

lemma DestroyStage.step (hctx : ctx ≠ 0) {s : Sys n (Shared n) Destroy} (hs : DestroyStage ctx s)
    (i : Fin n) (halone : AsksAlone .ask Destroy.pending s i) : DestroyStage ctx (Sys.step (destroyMove ctx) s i) := by
  unfold Sys.step
  cases hs with
  | before hpc hmode htoken hdestroys =>
    rw [hpc i, destroyMove_ask_live hctx i hmode htoken]
    exact .destroy (i := i) (update_self ..)
      (fun j hj => (update_of_ne hj ..).trans (hpc j)) hmode htoken hdestroys
  | @destroy k hk hpc hmode htoken hdestroys =>
    by_cases hik : i = k
    · subst hik
      rw [hk]
      simp only [destroyMove, hdestroys]
      exact .commit (i := i) (update_self ..)
        (fun j hj => (update_of_ne hj ..).trans (hpc j hj)) hmode htoken rfl
    · exact absurd halone (not_asksAlone (hpc i hik) (by rw [hk]; rfl))
  | @commit k hk hpc hmode htoken hdestroys =>
    by_cases hik : i = k
    · subst hik
      obtain ⟨v, hvmode, hmove⟩ := destroyMove_commit hctx i hmode htoken
      rw [hk, hmove]
      exact .destroyed (i := i) (update_self ..)
        (fun j hj => .inl ((update_of_ne hj ..).trans (hpc j hj))) hvmode hdestroys
    · exact absurd halone (not_asksAlone (hpc i hik) (by rw [hk]; rfl))
  | @destroyed k hk hpc hmode hdestroys =>
    by_cases hik : i = k
    · subst hik
      rw [hk]
      have hothers : ∀ j, j ≠ i → update s.pc i (.done .success) j = .ask ∨
          update s.pc i (.done .success) j = .done .invalidContext := by
        intro j hj
        rw [update_of_ne hj]
        exact hpc j hj
      exact .destroyed (i := i) (update_self ..) hothers hmode hdestroys
    · have hkeep : ∀ p : Destroy, update s.pc i p k = .done .success := fun p =>
        (update_of_ne (Ne.symm hik) p s.pc).trans hk
      have hothers : ∀ j, j ≠ k → update s.pc i (.done .invalidContext) j = .ask ∨
          update s.pc i (.done .invalidContext) j = .done .invalidContext :=
        (forall_update_iff s.pc fun j p => j ≠ k → p = .ask ∨ p = .done .invalidContext).2
          ⟨fun _ => .inr rfl, fun j _ hj => hpc j hj⟩
      rcases hpc i hik with hi | hi
      · rw [hi, destroyMove_ask_destroyed ctx i hmode]
        exact .destroyed (i := k) (hkeep _) hothers hmode hdestroys
      · rw [hi]
        exact .destroyed (i := k) (hkeep _) hothers hmode hdestroys

lemma destroys_once (hctx : ctx ≠ 0) (hn : 0 < n) (depth : Fin n → UInt32) (hall : ∀ i, 3 ≤ sched.count i)
    (halone : AllSteps (Sys.step (destroyMove ctx)) (AsksAlone .ask Destroy.pending) (destroyStart ctx depth) sched) :
    (run (Sys.step (destroyMove ctx)) (destroyStart ctx depth) sched).shared.destroys = 1 ∧
      ∃ i, ∀ j, (run (Sys.step (destroyMove ctx)) (destroyStart ctx depth) sched).pc j =
        .done (if j = i then .success else .invalidContext) := by
  have hstage : DestroyStage ctx (run (Sys.step (destroyMove ctx)) (destroyStart ctx depth) sched) :=
    run_inv (fun _ i hs h => hs.step hctx i h) (.before (fun _ => rfl) rfl rfl rfl) halone
  have hend : ∀ i, ((run (Sys.step (destroyMove ctx)) (destroyStart ctx depth) sched).pc i).rank = 0 := by
    intro i
    have hrank := rank_run (destroyMove_rank ctx) (destroyStart ctx depth) sched i
    have hthree : ((destroyStart ctx depth).pc i).rank = 3 := rfl
    have := hall i
    omega
  cases hstage with
  | before hpc hmode htoken hdestroys =>
    have := hend ⟨0, hn⟩
    rw [hpc] at this
    cases this
  | @destroy k hk hpc hmode htoken hdestroys | @commit k hk hpc hmode htoken hdestroys =>
    have := hend k
    rw [hk] at this
    cases this
  | @destroyed k hk hpc hmode hdestroys =>
    refine ⟨hdestroys, k, fun j => ?_⟩
    by_cases hj : j = k
    · rw [if_pos hj, hj, hk]
    · rw [if_neg hj]
      refine (hpc j hj).resolve_left fun hask => ?_
      have := hend j
      rw [hask] at this
      cases this

/-- If no call asks while another is between its question and its commit, all retains share one CTX_CREATE, and of all
destroys of a live context one returns SUCCESS. -/
theorem executed_once (device : ℕ → UInt64) (hdev : device 0 ≠ 0) (n : ℕ) (hn : 0 < n) (depth : Fin n → UInt32)
    (sched : List (Fin n)) (hall : ∀ i, 3 ≤ sched.count i) :
    (AllSteps (Sys.step (retainMove device)) (AsksAlone .ask Retain.pending) (retainStart depth) sched →
      (run (Sys.step (retainMove device)) (retainStart depth) sched).shared.creates = 1 ∧
        ∀ i, (run (Sys.step (retainMove device)) (retainStart depth) sched).pc i = .done .success (device 0)) ∧
    ∀ ctx, ctx ≠ 0 →
      AllSteps (Sys.step (destroyMove ctx)) (AsksAlone .ask Destroy.pending) (destroyStart ctx depth) sched →
      (run (Sys.step (destroyMove ctx)) (destroyStart ctx depth) sched).shared.destroys = 1 ∧
        ∃ i, ∀ j, (run (Sys.step (destroyMove ctx)) (destroyStart ctx depth) sched).pc j =
          .done (if j = i then .success else .invalidContext) :=
  ⟨fun halone => retains_once hdev hn depth hall halone, fun _ hctx halone => destroys_once hctx hn depth hall halone⟩

theorem executed_once_in_turn :
    (run (Sys.step (retainMove fun _ => 9)) (retainStart fun _ => 0) ([0, 0, 0, 1, 1, 1] : List (Fin 2))).shared.creates
        = 1 ∧
      (run (Sys.step (destroyMove 9)) (destroyStart 9 fun _ => 0) ([0, 0, 0, 1, 1, 1] : List (Fin 2))).shared.destroys
        = 1 := by
  have h := executed_once (fun _ => 9) (by decide) 2 (by decide) (fun _ => 0) [0, 0, 0, 1, 1, 1] (by decide)
  exact ⟨(h.1 (by decide)).1, (h.2 9 (by decide) (by decide)).1⟩

end CxlMemSim.Guest.Context
