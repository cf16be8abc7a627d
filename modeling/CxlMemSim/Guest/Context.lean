/-
The CUDA context state of the guest library (`cxl_gpu_context_state.c`): one context token per process, a mode, a count
of retains, and the depth of every thread's context stack.

Model: an entry holds the process lock throughout and is one step; it sees the process state and its own thread's depth.
-/
import CxlMemSim.Core.Run

namespace CxlMemSim.Guest.Context

open CxlMemSim.Core

inductive CxlCudaContextMode where
  | empty
  | ordinaryLive
  | ordinaryDestroyed
  | primaryLive
  | primaryInactive
deriving DecidableEq, Repr

inductive CtxResult where
  | success
  | outOfMemory
  | invalidContext
  | primaryContextActive
  | contextIsDestroyed
  | notSupported
deriving DecidableEq, Repr

structure ProcessState where
  token : UInt64
  mode : CxlCudaContextMode
  primaryRetainCount : UInt32
deriving DecidableEq, Repr

structure View where
  process : ProcessState
  currentDepth : UInt32
deriving DecidableEq, Repr

def tokenIsLive (p : ProcessState) (token : UInt64) : Bool :=
  token ≠ 0 && token = p.token && (p.mode = .ordinaryLive || p.mode = .primaryLive)

/-! ## Entries -/

variable (v : View)

def prepareOrdinaryCreate : CtxResult := if v.process.mode ≠ .empty then .notSupported else .success

def commitOrdinaryCreate (token : UInt64) : CtxResult × View :=
  if token = 0 ∨ v.process.mode ≠ .empty then (.notSupported, v)
  else (.success, ⟨{ v.process with token, mode := .ordinaryLive }, 1⟩)

structure PreparedRetain where
  needsCreate : Bool
  existingToken : UInt64
deriving DecidableEq, Repr

def preparePrimaryRetain : CtxResult × View × Option PreparedRetain :=
  match v.process.mode with
  | .empty => (.success, v, some ⟨true, 0⟩)
  | .primaryLive =>
    (.success, { v with process := { v.process with primaryRetainCount := v.process.primaryRetainCount + 1 } },
      some ⟨false, v.process.token⟩)
  | _ => (.notSupported, v, none)

def commitPrimaryRetain (token : UInt64) : CtxResult × View :=
  if token = 0 ∨ v.process.mode ≠ .empty then (.notSupported, v)
  else (.success, { v with process := ⟨token, .primaryLive, 1⟩ })

def primaryRelease : CtxResult × View :=
  if v.process.mode ≠ .primaryLive ∨ v.process.primaryRetainCount = 0 then (.invalidContext, v)
  else
    let count := v.process.primaryRetainCount - 1
    let mode := if count = 0 then .primaryInactive else v.process.mode
    (.success, { v with process := { v.process with primaryRetainCount := count, mode } })

def primarySetZeroFlags : CtxResult :=
  match v.process.mode with
  | .empty => .success
  | .primaryLive => .primaryContextActive
  | _ => .notSupported

def primaryGetState : UInt32 × Bool := (0, v.process.mode = .primaryLive)

def primaryReset : CtxResult := if v.process.mode = .primaryLive then .primaryContextActive else .success

def prepareDestroy (token : UInt64) : CtxResult :=
  if !tokenIsLive v.process token || v.process.mode ≠ .ordinaryLive then .invalidContext else .success

def commitDestroy (token : UInt64) : CtxResult × View :=
  if !tokenIsLive v.process token || v.process.mode ≠ .ordinaryLive then (.invalidContext, v)
  else
    (.success, ⟨{ v.process with mode := .ordinaryDestroyed },
      if 0 < v.currentDepth then v.currentDepth - 1 else v.currentDepth⟩)

def getCurrent : UInt64 := if v.currentDepth = 0 then 0 else v.process.token

def setCurrent (token : UInt64) : CtxResult × View :=
  if token = 0 then (.success, if 0 < v.currentDepth then { v with currentDepth := v.currentDepth - 1 } else v)
  else if !tokenIsLive v.process token then (.invalidContext, v)
  else (.success, if v.currentDepth = 0 then { v with currentDepth := 1 } else v)

def pushCurrent (token : UInt64) : CtxResult × View :=
  if !tokenIsLive v.process token then (.invalidContext, v)
  else if v.currentDepth = 0xFFFFFFFF then (.outOfMemory, v)
  else (.success, { v with currentDepth := v.currentDepth + 1 })

def popCurrent : CtxResult × View × Option UInt64 :=
  if v.currentDepth = 0 then (.invalidContext, v, none)
  else (.success, { v with currentDepth := v.currentDepth - 1 }, some v.process.token)

def getCurrentLive : CtxResult × Option UInt64 :=
  if v.currentDepth = 0 then (.invalidContext, none)
  else if v.process.mode = .ordinaryDestroyed ∨ v.process.mode = .primaryInactive then (.contextIsDestroyed, none)
  else if !tokenIsLive v.process v.process.token then (.invalidContext, none)
  else (.success, some v.process.token)

inductive Entry where
  | prepareOrdinaryCreate
  | commitOrdinaryCreate (token : UInt64)
  | preparePrimaryRetain
  | commitPrimaryRetain (token : UInt64)
  | primaryRelease
  | primarySetZeroFlags
  | primaryGetState
  | primaryReset
  | prepareDestroy (token : UInt64)
  | commitDestroy (token : UInt64)
  | getCurrent
  | setCurrent (token : UInt64)
  | pushCurrent (token : UInt64)
  | popCurrent
  | getCurrentLive
deriving DecidableEq, Repr

def call : Entry → CtxResult × View
  | .prepareOrdinaryCreate => (Context.prepareOrdinaryCreate v, v)
  | .commitOrdinaryCreate token => Context.commitOrdinaryCreate v token
  | .preparePrimaryRetain => ((Context.preparePrimaryRetain v).1, (Context.preparePrimaryRetain v).2.1)
  | .commitPrimaryRetain token => Context.commitPrimaryRetain v token
  | .primaryRelease => Context.primaryRelease v
  | .primarySetZeroFlags => (Context.primarySetZeroFlags v, v)
  | .primaryGetState => (.success, v)
  | .primaryReset => (Context.primaryReset v, v)
  | .prepareDestroy token => (Context.prepareDestroy v token, v)
  | .commitDestroy token => Context.commitDestroy v token
  | .getCurrent => (.success, v)
  | .setCurrent token => Context.setCurrent v token
  | .pushCurrent token => Context.pushCurrent v token
  | .popCurrent => ((Context.popCurrent v).1, (Context.popCurrent v).2.1)
  | .getCurrentLive => ((Context.getCurrentLive v).1, v)

/-! ## Threads -/

variable {T : Type}

structure Hist (T : Type) where
  process : ProcessState
  depth : T → UInt32
  retains : ℕ
  releases : ℕ
  created : List UInt64

def start : Hist T := ⟨⟨0, .empty, 0⟩, fun _ => 0, 0, 0, []⟩

def Hist.view (h : Hist T) (t : T) : View := ⟨h.process, h.depth t⟩

def retained : Entry → Bool
  | .preparePrimaryRetain => (preparePrimaryRetain v).2.2.any fun prepared => !prepared.needsCreate
  | .commitPrimaryRetain token => (commitPrimaryRetain v token).1 = .success
  | _ => false

def released : Entry → Bool
  | .primaryRelease => (primaryRelease v).1 = .success
  | _ => false

def createdToken : Entry → List UInt64
  | .commitOrdinaryCreate token => if (commitOrdinaryCreate v token).1 = .success then [token] else []
  | .commitPrimaryRetain token => if (commitPrimaryRetain v token).1 = .success then [token] else []
  | _ => []

variable [DecidableEq T] {n : UInt32}

def step (h : Hist T) (c : T × Entry) : Hist T :=
  let v := h.view c.1
  let after := (call v c.2).2
  { process := after.process
    depth := Function.update h.depth c.1 after.currentDepth
    retains := h.retains + (retained v c.2).toNat
    releases := h.releases + (released v c.2).toNat
    created := h.created ++ createdToken v c.2 }

/-! ## What an entry can do -/

inductive Change (p : ProcessState) : ProcessState → Bool → Bool → List UInt64 → Prop where
  | stay : Change p p false false []
  | createOrdinary {token : UInt64} (htoken : token ≠ 0) (hmode : p.mode = .empty) :
      Change p { p with token, mode := .ordinaryLive } false false [token]
  | createPrimary {token : UInt64} (htoken : token ≠ 0) (hmode : p.mode = .empty) :
      Change p ⟨token, .primaryLive, 1⟩ true false [token]
  | retain (hmode : p.mode = .primaryLive) :
      Change p { p with primaryRetainCount := p.primaryRetainCount + 1 } true false []
  | release (hmode : p.mode = .primaryLive) (hcount : p.primaryRetainCount - 1 ≠ 0) (hpos : p.primaryRetainCount ≠ 0) :
      Change p { p with primaryRetainCount := p.primaryRetainCount - 1 } false true []
  | releaseLast (hmode : p.mode = .primaryLive) (hcount : p.primaryRetainCount - 1 = 0)
      (hpos : p.primaryRetainCount ≠ 0) :
      Change p { p with primaryRetainCount := 0, mode := .primaryInactive } false true []
  | destroy (hmode : p.mode = .ordinaryLive) : Change p { p with mode := .ordinaryDestroyed } false false []

lemma primaryRelease_change :
    Change v.process (primaryRelease v).2.process false ((primaryRelease v).1 = .success) [] := by
  unfold primaryRelease
  split_ifs with hrefused
  · exact .stay
  · obtain ⟨hmode, hpos⟩ := not_or.1 hrefused
    rw [not_not] at hmode
    by_cases hcount : v.process.primaryRetainCount - 1 = 0
    · simpa [hcount] using Change.releaseLast hmode hcount hpos
    · simpa [hcount] using Change.release hmode hcount hpos

lemma preparePrimaryRetain_change :
    Change v.process (preparePrimaryRetain v).2.1.process (retained v .preparePrimaryRetain) false [] := by
  unfold retained preparePrimaryRetain
  cases hmode : v.process.mode
  case primaryLive => exact .retain hmode
  all_goals exact .stay

lemma call_change (e : Entry) :
    Change v.process (call v e).2.process (retained v e) (released v e) (createdToken v e) := by
  cases e with
  | commitOrdinaryCreate token =>
    by_cases hrefused : token = 0 ∨ v.process.mode ≠ .empty
    · simpa [call, retained, released, createdToken, commitOrdinaryCreate, hrefused] using Change.stay
    · have hcreate := Change.createOrdinary (not_or.1 hrefused).1 (not_not.1 (not_or.1 hrefused).2)
      simpa [call, retained, released, createdToken, commitOrdinaryCreate, hrefused] using hcreate
  | preparePrimaryRetain => exact preparePrimaryRetain_change v
  | commitPrimaryRetain token =>
    by_cases hrefused : token = 0 ∨ v.process.mode ≠ .empty
    · simpa [call, retained, released, createdToken, commitPrimaryRetain, hrefused] using Change.stay
    · have hcreate := Change.createPrimary (not_or.1 hrefused).1 (not_not.1 (not_or.1 hrefused).2)
      simpa [call, retained, released, createdToken, commitPrimaryRetain, hrefused] using hcreate
  | primaryRelease => exact primaryRelease_change v
  | commitDestroy token =>
    simp only [call, retained, released, createdToken, commitDestroy]
    by_cases hrefused : (!tokenIsLive v.process token || v.process.mode ≠ .ordinaryLive) = true
    · rw [if_pos hrefused]
      exact .stay
    · rw [if_neg hrefused]
      simp only [Bool.or_eq_true, decide_eq_true_eq, not_or, not_not] at hrefused
      exact .destroy hrefused.2
  | setCurrent token =>
    simp only [call, retained, released, createdToken, setCurrent]
    split_ifs <;> exact .stay
  | pushCurrent token =>
    simp only [call, retained, released, createdToken, pushCurrent]
    split_ifs <;> exact .stay
  | popCurrent =>
    simp only [call, retained, released, createdToken, popCurrent]
    split_ifs <;> exact .stay
  | _ => exact .stay

lemma live_mode {p : ProcessState} {token : UInt64} (h : tokenIsLive p token = true) : p.mode ≠ .empty := by
  intro hmode
  simp [tokenIsLive, hmode] at h

lemma call_depth (e : Entry) (h : (call v e).2.currentDepth ≠ 0) :
    v.currentDepth ≠ 0 ∨ (call v e).2.process.mode ≠ .empty := by
  cases e with
  | commitOrdinaryCreate token =>
    simp only [call, commitOrdinaryCreate] at h ⊢
    split_ifs at h ⊢ with hrefused
    · exact .inl h
    · exact .inr (by simp)
  | preparePrimaryRetain =>
    simp only [call, preparePrimaryRetain] at h ⊢
    split at h <;> exact .inl h
  | commitPrimaryRetain token =>
    simp only [call, commitPrimaryRetain] at h ⊢
    split_ifs at h ⊢ <;> exact .inl h
  | primaryRelease =>
    simp only [call, primaryRelease] at h ⊢
    split_ifs at h ⊢ <;> exact .inl h
  | commitDestroy token =>
    simp only [call, commitDestroy] at h ⊢
    split_ifs at h ⊢ with hrefused
    · exact .inl h
    · exact .inr (by simp)
    · exact .inr (by simp)
  | setCurrent token =>
    simp only [call, setCurrent] at h ⊢
    split_ifs at h ⊢ with h0 hpos hdead hzero
    · exact .inl fun hz => by simp [hz] at hpos
    · exact .inl h
    · exact .inl h
    · exact .inr (live_mode (by simpa using hdead))
    · exact .inl h
  | pushCurrent token =>
    simp only [call, pushCurrent] at h ⊢
    split_ifs at h ⊢ with hdead hfull
    · exact .inl h
    · exact .inl h
    · exact .inr (live_mode (by simpa using hdead))
  | popCurrent =>
    simp only [call, popCurrent] at h ⊢
    split_ifs at h ⊢ with hzero
    · exact absurd hzero h
    · exact .inl hzero
  | _ => exact .inl h

/-! ## Every reachable state -/

inductive Moves : CxlCudaContextMode → CxlCudaContextMode → Prop where
  | stay (m : CxlCudaContextMode) : Moves m m
  | createOrdinary : Moves .empty .ordinaryLive
  | destroyOrdinary : Moves .ordinaryLive .ordinaryDestroyed
  | createPrimary : Moves .empty .primaryLive
  | releasePrimary : Moves .primaryLive .primaryInactive

lemma Moves.to_empty {m : CxlCudaContextMode} (h : Moves m .empty) : m = .empty := by
  cases h
  rfl

lemma Change.moves {p p' : ProcessState} {retain release : Bool} {created : List UInt64}
    (h : Change p p' retain release created) : Moves p.mode p'.mode := by
  cases h with
  | stay => exact .stay _
  | createOrdinary htoken hmode => exact hmode ▸ .createOrdinary
  | createPrimary htoken hmode => exact hmode ▸ .createPrimary
  | retain hmode | release hmode hcount hpos => exact .stay _
  | releaseLast hmode hcount hpos => exact hmode ▸ .releasePrimary
  | destroy hmode => exact hmode ▸ .destroyOrdinary

structure Sound (h : Hist T) : Prop where
  token_iff : h.process.token ≠ 0 ↔ h.process.mode ≠ .empty
  count_iff : h.process.primaryRetainCount ≠ 0 ↔ h.process.mode = .primaryLive
  count_eq : h.process.primaryRetainCount.toNat + h.releases = h.retains
  depth_mode : ∀ t, h.depth t ≠ 0 → h.process.mode ≠ .empty
  one_token : h.created = if h.process.mode = .empty then [] else [h.process.token]

omit [DecidableEq T] in
lemma sound_start : Sound (start : Hist T) := by constructor <;> simp [start]

def FewRetains (h : Hist T) (c : T × Entry) : Prop := (step h c).retains < (step h c).releases + 2 ^ 32

instance (h : Hist T) (c : T × Entry) : Decidable (FewRetains h c) := by unfold FewRetains; infer_instance

lemma succ_toNat (h : n.toNat + 1 < 2 ^ 32) : (n + 1).toNat = n.toNat + 1 := by
  rw [UInt32.toNat_add, UInt32.toNat_one, Nat.mod_eq_of_lt h]

lemma pred_toNat (h : n ≠ 0) : (n - 1).toNat + 1 = n.toNat := by
  have hpos : n.toNat ≠ 0 := fun h0 => h (UInt32.toNat_inj.1 h0)
  rw [UInt32.toNat_sub_of_le _ _ (by rw [UInt32.le_iff_toNat_le]; simpa using Nat.one_le_iff_ne_zero.2 hpos)]
  simp only [UInt32.toNat_one]
  omega

lemma Change.keeps {p p' : ProcessState} {retain release : Bool} {created created' : List UInt64}
    {retains releases : ℕ} (h : Change p p' retain release created')
    (htoken : p.token ≠ 0 ↔ p.mode ≠ .empty) (hcount : p.primaryRetainCount ≠ 0 ↔ p.mode = .primaryLive)
    (heq : p.primaryRetainCount.toNat + releases = retains) (hone : created = if p.mode = .empty then [] else [p.token])
    (hfew : retains + retain.toNat < releases + release.toNat + 2 ^ 32) :
    (p'.token ≠ 0 ↔ p'.mode ≠ .empty) ∧ (p'.primaryRetainCount ≠ 0 ↔ p'.mode = .primaryLive) ∧
      p'.primaryRetainCount.toNat + (releases + release.toNat) = retains + retain.toNat ∧
      created ++ created' = if p'.mode = .empty then [] else [p'.token] := by
  cases h with
  | stay => exact ⟨htoken, hcount, by simpa using heq, by simpa using hone⟩
  | createOrdinary hnew hmode =>
    have hzero : p.primaryRetainCount = 0 := by
      by_contra hne
      rw [hcount.1 hne] at hmode
      cases hmode
    refine ⟨by simp [hnew], by simp [hzero], by simpa using heq, ?_⟩
    simp [hone, hmode]
  | createPrimary hnew hmode =>
    have hzero : p.primaryRetainCount = 0 := by
      by_contra hne
      rw [hcount.1 hne] at hmode
      cases hmode
    rw [hzero] at heq
    refine ⟨by simp [hnew], by simp, ?_, by simp [hone, hmode]⟩
    simp at heq ⊢
    omega
  | retain hmode =>
    have hsucc : (p.primaryRetainCount + 1).toNat = p.primaryRetainCount.toNat + 1 := by
      refine succ_toNat ?_
      simp at hfew
      omega
    have hne : p.primaryRetainCount + 1 ≠ 0 := fun h0 => by
      rw [h0, UInt32.toNat_zero] at hsucc
      omega
    refine ⟨htoken, by simp [hmode, hne], ?_, by simpa using hone⟩
    simp [hsucc]
    omega
  | release hmode hleft hpos =>
    have hpred := pred_toNat hpos
    refine ⟨htoken, by simp [hmode, hleft], ?_, by simpa using hone⟩
    simp
    omega
  | releaseLast hmode hleft hpos =>
    have hpred := pred_toNat hpos
    rw [hleft, UInt32.toNat_zero] at hpred
    refine ⟨?_, by simp, ?_, ?_⟩
    · simpa [hmode] using htoken
    · simp
      omega
    · simp [hone, hmode]
  | destroy hmode =>
    refine ⟨by simpa [hmode] using htoken, by simpa [hmode] using hcount, by simpa using heq, by simp [hone, hmode]⟩

/-- A call by any thread keeps process, threads and record together. -/
lemma Sound.step {h : Hist T} (hs : Sound h) (c : T × Entry) (hfew : FewRetains h c) : Sound (step h c) := by
  have hchange := call_change (h.view c.1) c.2
  obtain ⟨htoken, hcount, heq, hone⟩ := hchange.keeps hs.token_iff hs.count_iff hs.count_eq hs.one_token hfew
  refine ⟨htoken, hcount, heq, fun t ht => ?_, hone⟩
  -- a context that exists does not go away
  have hstays : h.process.mode ≠ .empty → (Context.step h c).process.mode ≠ .empty := by
    intro hne hempty
    have hmoves : Moves h.process.mode (Context.step h c).process.mode := hchange.moves
    rw [hempty] at hmoves
    exact hne hmoves.to_empty
  by_cases hthread : t = c.1
  · subst hthread
    have hdepth : (call (h.view c.1) c.2).2.currentDepth ≠ 0 := by simpa [Context.step] using ht
    rcases call_depth _ _ hdepth with hbefore | hafter
    · exact hstays (hs.depth_mode c.1 hbefore)
    · exact hafter
  · have hdepth : h.depth t ≠ 0 := by simpa [Context.step, Function.update_of_ne hthread] using ht
    exact hstays (hs.depth_mode t hdepth)

def Hist.current (h : Hist T) (t : T) : UInt64 := getCurrent (h.view t)

/-- While fewer than 2^32 retains are outstanding: there is a token exactly when there is a context; the retain count is
retains minus releases; `get_current` answers 0 or the one token ever created; and the mode moves along its chain. -/
theorem context_sound (calls : List (T × Entry)) (hfew : AllSteps step FewRetains (start : Hist T) calls) :
    let h := run step (start : Hist T) calls
    (h.process.token ≠ 0 ↔ h.process.mode ≠ .empty) ∧
      (0 < h.process.primaryRetainCount ↔ h.process.mode = .primaryLive) ∧
      h.process.primaryRetainCount.toNat = h.retains - h.releases ∧ h.releases ≤ h.retains ∧
      (∀ t, 0 < h.depth t → h.process.mode ≠ .empty) ∧ (∀ t, h.current t = 0 ∨ h.created = [h.current t]) ∧
      AllSteps step (fun h c => Moves h.process.mode (step h c).process.mode) (start : Hist T) calls := by
  intro h
  have hs : Sound h := run_inv (fun _ c hs hf => hs.step c hf) sound_start hfew
  have hcount := hs.count_eq
  have hpos : ∀ n : UInt32, 0 < n ↔ n ≠ 0 := by
    intro n
    rw [UInt32.lt_iff_toNat_lt, Ne, ← UInt32.toNat_inj, UInt32.toNat_zero]
    omega
  refine ⟨hs.token_iff, (hpos _).trans hs.count_iff, by omega, by omega, fun t ht => ?_, fun t => ?_, ?_⟩
  · exact hs.depth_mode t ((hpos _).1 ht)
  · by_cases hdepth : h.depth t = 0
    · exact .inl (if_pos hdepth)
    · right
      have hcurrent : h.current t = h.process.token := if_neg hdepth
      rw [hs.one_token, hcurrent, if_neg (hs.depth_mode t hdepth)]
  · exact allSteps_of_forall (fun h c => (call_change (h.view c.1) c.2).moves) start calls

def sharePrimary : List (ℕ × Entry) :=
  [(0, .preparePrimaryRetain), (0, .commitPrimaryRetain 7), (1, .preparePrimaryRetain), (1, .pushCurrent 7),
    (0, .primaryRelease), (1, .primaryRelease)]

theorem context_sound_shared :
    let h := run step start sharePrimary
    (h.process.mode = .primaryInactive ∧ h.retains = 2 ∧ h.releases = 2) ∧
      (h.current 1 = 0 ∨ h.created = [h.current 1]) := by
  intro h
  have hsound := context_sound sharePrimary (by decide)
  exact ⟨by decide, hsound.2.2.2.2.2.1 1⟩

/-! ## A dead context -/

def Dead (p : ProcessState) : Prop := p.mode = .ordinaryDestroyed ∨ p.mode = .primaryInactive

lemma Change.of_dead {p p' : ProcessState} {retain release : Bool} {created : List UInt64}
    (h : Change p p' retain release created) (hdead : Dead p) :
    p' = p ∧ retain = false ∧ release = false ∧ created = [] := by
  unfold Dead at hdead
  cases h <;> simp_all

/-- A dead context is final. Whatever the threads call, only their stacks change, no token is live, and
`get_current_live` never succeeds. -/
theorem dead_final (h : Hist T) (hdead : Dead h.process) (calls : List (T × Entry)) :
    let h' := run step h calls
    h' = { h with depth := h'.depth } ∧ (∀ token, tokenIsLive h'.process token = false) ∧
      ∀ t, (getCurrentLive (h'.view t)).1 ≠ .success := by
  intro h'
  have hrun : h' = { h with depth := h'.depth } := by
    refine run_inv_all (P := fun g : Hist T => g = { h with depth := g.depth }) (fun g c hg => ?_) calls rfl
    obtain ⟨hp, hr, hq, hc⟩ := (call_change ⟨h.process, g.depth c.1⟩ c.2).of_dead hdead
    rw [hg]
    simp [step, Hist.view, hp, hr, hq, hc]
  refine ⟨hrun, ?_⟩
  rw [hrun]
  rcases hdead with hm | hm
  all_goals
    refine ⟨by simp [tokenIsLive, hm], fun t => ?_⟩
    simp only [getCurrentLive, Hist.view, hm, true_or, or_true, if_true]
    split_ifs <;> simp

theorem dead_final_shared :
    tokenIsLive (run step (run step start sharePrimary) [(2, .commitPrimaryRetain 8)]).process 8 = false :=
  (dead_final _ (.inr (by decide)) _).2.1 8

end CxlMemSim.Guest.Context
