/-
Are the expander's credits conserved? The requests in flight are a map keyed by address: issuing to an address in flight
overwrites the earlier request, and its credit never comes back. Two such losses of a kind hold the queue for good
(`credits_lost`, `stuck`).
-/
import CxlMemSim.Fabric.Expander

namespace CxlMemSim.Expander

open List
open CxlMemSim.Core

namespace Pipeline

/-! ## Credits -/

def inFlightOf (p : Pipeline) (isRead : Bool) : ℕ := p.inFlightRequests.countP fun e => e.2.isRead = isRead

def Conserved (p : Pipeline) : Prop := ∀ isRead, p.credits isRead + p.inFlightOf isRead = initialCredits

instance (p : Pipeline) : Decidable p.Conserved :=
  inferInstanceAs (Decidable (∀ isRead, p.credits isRead + p.inFlightOf isRead = initialCredits))

lemma credits_setCredits (p : Pipeline) (isRead kind : Bool) (n : ℕ) :
    (p.setCredits isRead n).credits kind = if kind = isRead then n else p.credits kind := by
  cases isRead <;> cases kind <;> rfl

section

variable (p : Pipeline) (isRead : Bool)

@[simp] lemma setCredits_inFlightRequests (n : ℕ) :
    (p.setCredits isRead n).inFlightRequests = p.inFlightRequests := by cases isRead <;> rfl

@[simp] lemma setCredits_requestQueue (n : ℕ) :
    (p.setCredits isRead n).requestQueue = p.requestQueue := by cases isRead <;> rfl

@[simp] lemma releaseCredit_requestQueue : (p.releaseCredit isRead).requestQueue = p.requestQueue := by
  unfold releaseCredit
  split_ifs
  · exact setCredits_requestQueue p isRead _
  · rfl

end

variable {p : Pipeline}

lemma credits_releaseCredit {isRead : Bool} (kind : Bool) (h : p.credits isRead < initialCredits) :
    (p.releaseCredit isRead).credits kind = p.credits kind + if isRead = kind then 1 else 0 := by
  rw [releaseCredit, if_pos h, credits_setCredits]
  rcases eq_or_ne kind isRead with rfl | hne
  · simp
  · simp [hne, hne.symm]

lemma credits_foldl_releaseCredit (done : List (UInt64 × CXLRequest)) (p : Pipeline)
    (h : ∀ kind, p.credits kind + done.countP (fun e => e.2.isRead = kind) ≤ initialCredits) (kind : Bool) :
    (done.foldl (fun q e => q.releaseCredit e.2.isRead) p).credits kind =
      p.credits kind + done.countP fun e => e.2.isRead = kind := by
  induction done generalizing p with
  | nil => rfl
  | cons e done ih =>
    have hroom : p.credits e.2.isRead < initialCredits := by
      have := h e.2.isRead
      rw [countP_cons_of_pos (by simp)] at this
      omega
    have hrel := fun k => credits_releaseCredit (p := p) k hroom
    rw [foldl_cons, ih _ fun k => ?_, hrel, countP_cons]
    · simp only [decide_eq_true_eq]
      omega
    · have := h k
      rw [countP_cons] at this
      simp only [decide_eq_true_eq] at this
      rw [hrel]
      omega

lemma foldl_releaseCredit_requestQueue (done : List (UInt64 × CXLRequest)) (p : Pipeline) :
    (done.foldl (fun q e => q.releaseCredit e.2.isRead) p).requestQueue = p.requestQueue := by
  induction done generalizing p with
  | nil => rfl
  | cons e done ih => rw [foldl_cons, ih, releaseCredit_requestQueue]

@[simp] lemma completeRequests_requestQueue (now : ℕ) (p : Pipeline) :
    (p.completeRequests now).requestQueue = p.requestQueue := foldl_releaseCredit_requestQueue _ p

@[simp] lemma completeRequests_inFlightRequests (now : ℕ) (p : Pipeline) :
    (p.completeRequests now).inFlightRequests = p.inFlightRequests.filter fun e => now < e.2.completeTime := rfl

/-- Completion conserves credits. -/
lemma Conserved.completeRequests (h : p.Conserved) (now : ℕ) : (p.completeRequests now).Conserved := by
  -- the requests of a kind in flight are those done and those that stay
  have hsplit : ∀ kind, p.inFlightOf kind =
      (p.inFlightRequests.filter fun e => e.2.completeTime ≤ now).countP (fun e => e.2.isRead = kind) +
      (p.inFlightRequests.filter fun e => now < e.2.completeTime).countP (fun e => e.2.isRead = kind) := by
    intro kind
    rw [inFlightOf, countP_eq_countP_filter_add _ _ fun e => decide (e.2.completeTime ≤ now)]
    simp only [← decide_not, not_le]
  intro kind
  have hback := credits_foldl_releaseCredit (p.inFlightRequests.filter fun e => e.2.completeTime ≤ now) p
    (fun k => by have h₁ := h k; have h₂ := hsplit k; omega) kind
  have hkind := h kind
  rw [hsplit kind] at hkind
  calc (p.completeRequests now).credits kind + (p.completeRequests now).inFlightOf kind
      = (p.credits kind + (p.inFlightRequests.filter fun e => e.2.completeTime ≤ now).countP fun e => e.2.isRead = kind)
        + (p.inFlightRequests.filter fun e => now < e.2.completeTime).countP fun e => e.2.isRead = kind := by
          rw [← hback]; rfl
    _ = initialCredits := by omega

/-! ## Issue -/

lemma Conserved.length_inFlight (h : p.Conserved) :
    p.readCredits + p.writeCredits + p.inFlightRequests.length = 2 * initialCredits := by
  have hreads := h true
  have hwrites := h false
  have hkinds := length_eq_countP_add_countP (fun e : UInt64 × CXLRequest => decide (e.2.isRead = true))
    (l := p.inFlightRequests)
  simp only [decide_eq_true_eq, Bool.not_eq_true] at hkinds
  simp only [credits, inFlightOf, if_true, Bool.false_eq_true, if_false] at hreads hwrites
  omega

lemma setInFlight_fresh {m : List (UInt64 × CXLRequest)} {address : UInt64} (h : address ∉ m.map Prod.fst)
    (req : CXLRequest) : setInFlight m address req = (address, req) :: m := by
  rw [setInFlight, List.filter_eq_self.mpr]
  intro e he
  rw [decide_eq_true_eq]
  rintro rfl
  exact h (mem_map_of_mem he)

variable {req : CXLRequest}

lemma Conserved.issueFront (h : p.Conserved) (cfg : Config) (now : ℕ)
    (rest : List CXLRequest) (hcredit : p.hasCredits req.isRead = true)
    (hfresh : req.address ∉ p.inFlightRequests.map Prod.fst) : (issueFront cfg now p req rest).Conserved := by
  intro kind
  have hkind := h kind
  rw [hasCredits, decide_eq_true_eq] at hcredit
  have hcr : (Pipeline.issueFront cfg now p req rest).credits kind =
      if kind = req.isRead then p.credits req.isRead - 1 else p.credits kind :=
    credits_setCredits p req.isRead kind _
  have hfl : (Pipeline.issueFront cfg now p req rest).inFlightOf kind =
      p.inFlightOf kind + if req.isRead = kind then 1 else 0 := by
    simp only [Pipeline.issueFront, inFlightOf, consumeCredit, setCredits_inFlightRequests, setInFlight_fresh hfresh,
      countP_cons, decide_eq_true_eq]
  rw [hcr, hfl]
  rcases eq_or_ne kind req.isRead with rfl | hne
  · simp only [if_true]
    omega
  · simp only [hne, hne.symm, if_false]
    omega

/-- the addresses in flight and those the credits can still let through are all different -/
def Fresh (p : Pipeline) : Prop :=
  (p.inFlightRequests.map Prod.fst ++
    (p.requestQueue.take (2 * initialCredits - p.inFlightRequests.length)).map (·.address)).Nodup

instance (p : Pipeline) : Decidable p.Fresh := inferInstanceAs (Decidable (List.Nodup _))

lemma Conserved.issueRequests (cfg : Config) (now : ℕ) (p : Pipeline) (h : p.Conserved) (hfresh : p.Fresh) :
    (issueRequests cfg now p.requestQueue p).Conserved := by
  generalize hq : p.requestQueue = queue
  induction queue generalizing p with
  | nil => exact h
  | cons req rest ih =>
    rw [Pipeline.issueRequests]
    split_ifs with hsize hcredit
    · -- a credit is left, so fewer requests are in flight than there are credits: the front is among those let through
      have hlen := h.length_inFlight
      have hroom : 0 < 2 * initialCredits - p.inFlightRequests.length := by
        rw [hasCredits, decide_eq_true_eq, credits] at hcredit
        split_ifs at hcredit <;> omega
      obtain ⟨k, hk⟩ : ∃ k, 2 * initialCredits - p.inFlightRequests.length = k + 1 :=
        ⟨_, (Nat.succ_pred hroom.ne').symm⟩
      rw [Fresh, hq, hk, take_succ_cons, map_cons] at hfresh
      have hnew : req.address ∉ p.inFlightRequests.map Prod.fst := fun hmem =>
        (List.nodup_append.mp hfresh).2.2 _ hmem _ mem_cons_self rfl
      have hfl : (Pipeline.issueFront cfg now p req rest).inFlightRequests.map Prod.fst =
          req.address :: p.inFlightRequests.map Prod.fst := by
        simp only [Pipeline.issueFront, consumeCredit, setCredits_inFlightRequests, setInFlight_fresh hnew, map_cons]
      refine ih _ (h.issueFront cfg now rest hcredit hnew) ?_ rfl
      have hlen' : 2 * initialCredits - (Pipeline.issueFront cfg now p req rest).inFlightRequests.length = k := by
        rw [← length_map (f := Prod.fst), hfl, length_cons, length_map]
        omega
      rw [Fresh, hlen', hfl]
      exact (List.perm_middle.nodup_iff.mp hfresh)
    · exact h
    · exact h

def IssuesFresh (p : Pipeline) (now : ℕ) : Prop :=
  ((p.inFlightRequests.filter fun e => now < e.2.completeTime).map Prod.fst ++
    (p.requestQueue.take (2 * initialCredits - (p.inFlightRequests.filter fun e => now < e.2.completeTime).length)).map
      (·.address)).Nodup

instance (p : Pipeline) (now : ℕ) : Decidable (p.IssuesFresh now) := inferInstanceAs (Decidable (List.Nodup _))

/-- Processing the queue conserves credits when it issues to fresh addresses only. -/
lemma Conserved.processQueuedRequests (h : p.Conserved) (cfg : Config) {now : ℕ}
    (hfresh : p.IssuesFresh now) : (p.processQueuedRequests cfg now).Conserved := by
  refine Conserved.issueRequests cfg now _ (h.completeRequests now) ?_
  rw [Fresh, completeRequests_inFlightRequests, completeRequests_requestQueue]
  exact hfresh

/-! ## Progress -/

def CanIssue (p : Pipeline) : Prop :=
  ∃ req ∈ p.requestQueue.head?, p.inFlightRequests.length < maxQueueSize / 2 ∧ p.hasCredits req.isRead = true

lemma Conserved.canIssue (h : p.Conserved) (hq : p.requestQueue ≠ []) (hfl : p.inFlightRequests = []) : p.CanIssue := by
  obtain ⟨req, rest, hqueue⟩ := exists_cons_of_ne_nil hq
  have hfull := h req.isRead
  refine ⟨req, by rw [hqueue]; rfl, by rw [hfl]; decide, ?_⟩
  rw [inFlightOf, hfl, countP_nil, Nat.add_zero] at hfull
  rw [hasCredits, hfull]
  decide

section

variable (cfg : Config) (now : ℕ) (p : Pipeline)

lemma length_issueRequests_le :
    (issueRequests cfg now p.requestQueue p).requestQueue.length ≤ p.requestQueue.length := by
  generalize hq : p.requestQueue = queue
  induction queue generalizing p with
  | nil => rw [issueRequests, hq]
  | cons req rest ih =>
    rw [issueRequests]
    split_ifs
    · have := ih (issueFront cfg now p req rest) rfl
      rw [length_cons]
      omega
    · rw [hq]
    · rw [hq]

lemma issueRequests_cases : ¬ p.CanIssue ∧ issueRequests cfg now p.requestQueue p = p ∨
    p.CanIssue ∧ (issueRequests cfg now p.requestQueue p).requestQueue.length < p.requestQueue.length := by
  cases hq : p.requestQueue with
  | nil => exact .inl ⟨by simp [CanIssue, hq], rfl⟩
  | cons req rest =>
    have hhead : p.CanIssue ↔ p.inFlightRequests.length < maxQueueSize / 2 ∧ p.hasCredits req.isRead = true := by
      simp [CanIssue, hq]
    rw [issueRequests]
    by_cases hcan : p.CanIssue
    · refine .inr ⟨hcan, ?_⟩
      obtain ⟨hsize, hcredit⟩ := hhead.mp hcan
      rw [if_pos hsize, if_pos hcredit, length_cons]
      have := length_issueRequests_le cfg now (issueFront cfg now p req rest)
      exact Nat.lt_succ_of_le this
    · refine .inl ⟨hcan, ?_⟩
      rw [hhead, not_and_or] at hcan
      rcases hcan with hsize | hcredit
      · rw [if_neg hsize]
      · rw [if_neg hcredit, ite_self]

lemma processQueuedRequests_cases : (p.processQueuedRequests cfg now).requestQueue.length < p.requestQueue.length ∨
    ¬ (p.completeRequests now).CanIssue ∧ p.processQueuedRequests cfg now = p.completeRequests now := by
  rcases issueRequests_cases cfg now (p.completeRequests now) with ⟨hcan, heq⟩ | ⟨-, hlt⟩
  · exact .inr ⟨hcan, heq⟩
  · rw [completeRequests_requestQueue] at hlt
    exact .inl (by rwa [processQueuedRequests, completeRequests_requestQueue])

end

def processedAt (cfg : Config) (times : ℕ → ℕ) (p : Pipeline) : ℕ → Pipeline
  | 0 => p
  | n + 1 => (processedAt cfg times p n).processQueuedRequests cfg (times n)

section Drain

variable {cfg : Config} {times : ℕ → ℕ} {p : Pipeline}

lemma conserved_processedAt (h : p.Conserved)
    (hfresh : ∀ n, (processedAt cfg times p n).IssuesFresh (times n)) (n : ℕ) :
    (processedAt cfg times p n).Conserved := by
  induction n with
  | zero => exact h
  | succ n ih => exact ih.processQueuedRequests cfg (hfresh n)

lemma processedAt_waiting {n : ℕ}
    (hwait : ∀ m, (processedAt cfg times p n).requestQueue.length ≤ (processedAt cfg times p m).requestQueue.length)
    (j : ℕ) : (processedAt cfg times p (n + j)).requestQueue = (processedAt cfg times p n).requestQueue ∧
    (processedAt cfg times p (n + j)).inFlightRequests ⊆ (processedAt cfg times p n).inFlightRequests := by
  induction j with
  | zero => exact ⟨rfl, fun _ h => h⟩
  | succ j ih =>
    have hlen := hwait (n + j + 1)
    rw [← ih.1] at hlen
    rw [processedAt] at hlen
    rw [← Nat.add_assoc, processedAt]
    rcases processQueuedRequests_cases cfg (times (n + j)) (processedAt cfg times p (n + j)) with hlt | ⟨-, heq⟩
    · exact absurd hlen (not_le.mpr hlt)
    · rw [heq, completeRequests_requestQueue, completeRequests_inFlightRequests]
      exact ⟨ih.1, fun e he => ih.2 (mem_of_mem_filter he)⟩

variable (h : p.Conserved) (hmono : StrictMono times) (hfresh : ∀ n, (processedAt cfg times p n).IssuesFresh (times n))
include h hmono hfresh

lemma processedAt_shorter {n : ℕ} (hq : (processedAt cfg times p n).requestQueue ≠ []) :
    ∃ m, (processedAt cfg times p m).requestQueue.length < (processedAt cfg times p n).requestQueue.length := by
  by_contra hno
  simp only [not_exists, not_lt] at hno
  let T := ((processedAt cfg times p n).inFlightRequests.map fun e => e.2.completeTime).sum
  obtain ⟨hqueue, hsub⟩ := processedAt_waiting hno T
  have hpast : ∀ e ∈ (processedAt cfg times p (n + T)).inFlightRequests, e.2.completeTime ≤ times (n + T) := by
    intro e he
    calc e.2.completeTime ≤ T := le_sum_of_mem (mem_map_of_mem (hsub he))
      _ ≤ n + T := Nat.le_add_left T n
      _ ≤ times (n + T) := hmono.le_apply
  have hempty : ((processedAt cfg times p (n + T)).completeRequests (times (n + T))).inFlightRequests = [] := by
    rw [completeRequests_inFlightRequests, filter_eq_nil_iff]
    intro e he
    simpa using hpast e he
  have hcons := (conserved_processedAt h hfresh (n + T)).completeRequests (times (n + T))
  rcases processQueuedRequests_cases cfg (times (n + T)) (processedAt cfg times p (n + T)) with hlt | ⟨hcan, -⟩
  · rw [hqueue] at hlt
    exact absurd (hno (n + T + 1)) (not_le.mpr hlt)
  · refine hcan (hcons.canIssue ?_ hempty)
    rw [completeRequests_requestQueue, hqueue]
    exact hq

/-- Drain. Processing at advancing times empties the queue. -/
lemma drains : ∃ n, (processedAt cfg times p n).requestQueue = [] := by
  obtain ⟨n, -, hmin⟩ := (measure fun n => (processedAt cfg times p n).requestQueue.length).wf.has_min Set.univ
    ⟨0, trivial⟩
  refine ⟨n, ?_⟩
  by_contra hq
  obtain ⟨m, hm⟩ := processedAt_shorter h hmono hfresh hq
  exact hmin m trivial hm

end Drain

/-! ## Distinct addresses -/

def Apart (p : Pipeline) : Prop := (p.inFlightRequests.map Prod.fst ++ p.requestQueue.map (·.address)).Nodup

instance (p : Pipeline) : Decidable p.Apart := inferInstanceAs (Decidable (List.Nodup _))

lemma Apart.completeRequests (h : p.Apart) (now : ℕ) : (p.completeRequests now).Apart := by
  rw [Apart, completeRequests_inFlightRequests, completeRequests_requestQueue]
  exact h.sublist ((List.filter_sublist.map _).append (List.Sublist.refl _))

lemma Apart.issueRequests (cfg : Config) (now : ℕ) (p : Pipeline) (h : p.Apart) :
    (issueRequests cfg now p.requestQueue p).Apart := by
  generalize hq : p.requestQueue = queue
  induction queue generalizing p with
  | nil => exact h
  | cons req rest ih =>
    rw [Pipeline.issueRequests]
    split_ifs
    · refine ih _ ?_ rfl
      rw [Apart, hq, map_cons] at h
      have hnew : req.address ∉ p.inFlightRequests.map Prod.fst := fun hmem =>
        (List.nodup_append.mp h).2.2 _ hmem _ mem_cons_self rfl
      simp only [Apart, Pipeline.issueFront, consumeCredit, setCredits_inFlightRequests, setInFlight_fresh hnew,
        map_cons]
      exact List.perm_middle.nodup_iff.mp h
    · exact h
    · exact h

lemma Apart.issuesFresh (h : p.Apart) (now : ℕ) : p.IssuesFresh now :=
  h.sublist ((List.filter_sublist.map _).append ((take_sublist _ _).map _))

lemma Apart.processedAt (h : p.Apart) (cfg : Config) (times : ℕ → ℕ) (n : ℕ) : (p.processedAt cfg times n).Apart := by
  induction n with
  | zero => exact h
  | succ n ih => exact Apart.issueRequests cfg (times n) _ (ih.completeRequests (times n))

/-- with nothing in flight and no credit for the front, processing does nothing, at any time -/
lemma stuck (cfg : Config) (hreq : p.requestQueue.head? = some req)
    (hfl : p.inFlightRequests = []) (hcredit : p.credits req.isRead = 0) (now : ℕ) :
    p.processQueuedRequests cfg now = p := by
  have hdone : p.completeRequests now = p := by
    obtain ⟨queue, inFlight, reads, writes⟩ := p
    cases hfl
    rfl
  rcases issueRequests_cases cfg now p with ⟨-, heq⟩ | ⟨⟨req', hreq', -, hcan⟩, -⟩
  · rw [processQueuedRequests, hdone, heq]
  · rw [hreq, Option.mem_some_iff] at hreq'
    rw [← hreq', hasCredits, hcredit] at hcan
    cases hcan

end Pipeline

/-! ## Runs -/

def FreshStep (cfg : Config) (s : CXLMemExpander) (o : Op) : Prop :=
  ∀ now ∈ o.processesAt cfg, s.pipeline.IssuesFresh now

instance (cfg : Config) (s : CXLMemExpander) (o : Op) : Decidable (FreshStep cfg s o) :=
  inferInstanceAs (Decidable (∀ now ∈ o.processesAt cfg, s.pipeline.IssuesFresh now))

/-- Queueing a request takes no credit, so only the processing matters. -/
lemma step_conserved (cfg : Config) (s : CXLMemExpander) (o : Op) (h : s.pipeline.Conserved)
    (hfresh : FreshStep cfg s o) : (step cfg s o).pipeline.Conserved := by
  rcases step_pipeline cfg s o with heq | ⟨now, hnow, heq | ⟨req, heq⟩⟩
  · rw [heq]; exact h
  · rw [heq]; exact h.processQueuedRequests cfg (hfresh now hnow)
  · rw [heq]; exact h.processQueuedRequests cfg (hfresh now hnow)

/-- If requests go to fresh addresses only, credits are conserved, and processing empties the queue. -/
theorem credits_conserved (cfg : Config) (ops : List Op)
    (hops : AllSteps (step cfg) (FreshStep cfg) CXLMemExpander.start ops) :
    (run (step cfg) .start ops).pipeline.Conserved ∧
    ((run (step cfg) .start ops).pipeline.requestQueue.length = maxQueueSize →
      (run (step cfg) .start ops).pipeline.inFlightRequests ≠ [] ∨ (run (step cfg) .start ops).pipeline.CanIssue) ∧
    ∀ times : ℕ → ℕ, StrictMono times →
      (∀ n, ((run (step cfg) .start ops).pipeline.processedAt cfg times n).IssuesFresh (times n)) →
      ∃ n, ((run (step cfg) .start ops).pipeline.processedAt cfg times n).requestQueue = [] := by
  have hcons : (run (step cfg) .start ops).pipeline.Conserved :=
    run_inv (P := fun s : CXLMemExpander => s.pipeline.Conserved) (step_conserved cfg) (by decide) hops
  refine ⟨hcons, fun hfull => ?_, fun times hmono hfresh => Pipeline.drains hcons hmono hfresh⟩
  by_cases hfl : (run (step cfg) .start ops).pipeline.inFlightRequests = []
  · refine .inr (hcons.canIssue ?_ hfl)
    intro hq
    rw [hq] at hfull
    exact absurd hfull (by decide)
  · exact .inl hfl

def freshOps : List Op :=
  [.recordAccess 0 1 0x1000 0 false, .recordAccess 10 1 0x1040 0 true, .recordAccess 20 1 0x1080 0 false,
    .recordAccess 1000 1 0x1000 0 false]

theorem credits_conserved_repeat : (run (step exactConfig) .start freshOps).pipeline.Conserved ∧
    (run (step exactConfig) .start freshOps).pipeline.inFlightOf true = 1 ∧
    ∃ n, ((run (step exactConfig) .start freshOps).pipeline.processedAt exactConfig (fun n => 2000 + n) n).requestQueue
      = [] := by
  obtain ⟨hcons, -, hdrain⟩ := credits_conserved exactConfig freshOps (by decide +kernel)
  have hapart : (run (step exactConfig) .start freshOps).pipeline.Apart := by decide +kernel
  refine ⟨hcons, by decide +kernel, hdrain _ (fun a b hab => ?_) fun n => ?_⟩
  · exact Nat.add_lt_add_left hab 2000
  · exact (hapart.processedAt exactConfig _ n).issuesFresh _

/-- reads and writes of ONE line, each issued while the one before is in flight, then a read of another line -/
def overwriteOps : List Op :=
  [.recordAccess 0 1 0x1000 0 false, .recordAccess 1 1 0x1000 0 true, .recordAccess 2 1 0x1000 0 false,
    .recordAccess 3 1 0x1000 0 true, .recordAccess 4 1 0x2000 0 false, .processQueuedRequests 1000]

/-- both read credits are gone with nothing in flight, and the other line is never read -/
theorem credits_lost : (run (step exactConfig) .start overwriteOps).pipeline.inFlightRequests = [] ∧
    (run (step exactConfig) .start overwriteOps).pipeline.readCredits = 0 ∧
    ¬ (run (step exactConfig) .start overwriteOps).pipeline.Conserved ∧
    (run (step exactConfig) .start overwriteOps).pipeline.requestQueue.map (·.address) = [0x2000] ∧
    ∀ now, (run (step exactConfig) .start overwriteOps).pipeline.processQueuedRequests exactConfig now =
      (run (step exactConfig) .start overwriteOps).pipeline := by
  have hfl : (run (step exactConfig) .start overwriteOps).pipeline.inFlightRequests = [] := by decide +kernel
  have hfront : (run (step exactConfig) .start overwriteOps).pipeline.requestQueue.head? =
      some ⟨4, 0x2000, 1, true, false, 4, 4⟩ := by decide +kernel
  refine ⟨hfl, by decide +kernel, by decide +kernel, by decide +kernel, fun now => ?_⟩
  exact Pipeline.stuck exactConfig hfront hfl (by decide +kernel) now

end CxlMemSim.Expander
