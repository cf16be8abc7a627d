/-
Waking up in the page cache: here a waiter sleeps until notified, or wakes spuriously, then takes the lock, and sleeps
again if its page is busy. `load_page_locked` notifies at its end in any case, `flush_page_locked` only after a
successful transfer.

Results:
* `step_change`, `asleep_step`: a thread sleeps only while its page is being transferred, as long as no write-back fails
  with a sleeper on its page (`NoUnheardFailure`).
* `waiters_woken`: the ends of transfers wake all their waiters exactly under that condition, in every run; and in every
  endless run that meets it under a fair scheduler (`FairRun`) no thread waits for ever on an idle page.
* `unheard_failure`: the run in which a reader sleeps for ever. `waiters_woken_reader`: a fair run with a sleeper.
-/
import CxlMemSim.Core.Fair
import CxlMemSim.Ssd.Budget

namespace CxlMemSim.Ssd

open CxlMemSim.Core

variable {n : ℕ} {cfg : SsdStreamingConfig} {s s' : Sys n} {t : Fin n} {v : List ℕ}

/-! ## What a step comes to -/

/-- thread `t` moved; a page busy now was so before, or `t` does its I/O; and `t` sleeps only on a busy page -/
structure Local (s s' : Sys n) (t : Fin n) : Prop where
  others : ∀ t', t' ≠ t → s'.pc t' = s.pc t'
  busy : ∀ o, s'.cache.busy o = true → s.cache.busy o = true ∨ (s'.pc t).owns o ≠ 0
  waits : ∀ o, (s'.pc t).waitsOn = some o → s'.cache.busy o = true

lemma Calm.local (h : Calm v s s' t) : Local s s' t := ⟨h.others, h.busy, h.waits⟩

variable {c : Cache} {a : ℕ} {o x : ObjId} {p : Pc}

lemma Calm.local_of_cache (h : Calm v (s.withCache c) s' t)
    (hbusy : ∀ o, c.busy o = true → s.cache.busy o = true) : Local s s' t :=
  ⟨h.others, fun o ho => (h.busy o ho).imp_left (hbusy o), h.waits⟩

lemma busy_dropped (h : (c.dropped a o).busy x = true) : c.busy x = true :=
  (busy_of_idle (fun _ hx => heap_dropped_ne c a hx) (by rw [heap_dropped_self]; rfl) h).2

lemma busy_create (h : (c.create a).busy x = true) : c.busy x = true :=
  (busy_of_idle (fun _ hx => heap_create_ne c a hx) (by rw [heap_create_self]; rfl) h).2

lemma Evicts.local {ret : EvictRet} (h : Evicts cfg s s' t a o ret) : Local s s' t := by
  cases h with
  | waits h | refused _ h => exact h.local
  | erased _ h => exact h.local_of_cache fun _ => busy_dropped

lemma Gets.local (h : Gets s s' t a) : Local s s' t := by
  obtain ⟨c, hgot, hcalm⟩ := h
  cases hgot with
  | found => exact hcalm.local
  | created _ => exact hcalm.local_of_cache fun _ => busy_create

lemma roomStep_local (r : Room) (alloc : Bool) : Local s (roomStep cfg s t r alloc) t := by
  rcases roomStep_gets cfg s t r alloc with h | ⟨-, a, h⟩
  · exact h.local
  · exact h.local

lemma evictOne_local (k : ℕ) (ret : OneRet) : Local s (evictOne cfg s t k ret) t := by
  unfold evictOne
  split
  · exact (oneReturn_calm ret false).local
  · exact (oneReturn_calm ret false).local
  · next k a queue hqueue =>
    dsimp only
    split
    · exact (calm_move rfl rfl).local_of_cache fun _ => id
    · next o ho =>
      split_ifs
      · exact (calm_move rfl rfl).local_of_cache fun _ => id
      · exact (calm_modify rfl rfl (.inl rfl)).local_of_cache fun _ => id
      · have h := evictPage_evicts cfg (t := t) (s := s.withCache { s.cache with clockQueue := queue })
          (.one ret) ho
        exact ⟨h.local.others, h.local.busy, h.local.waits⟩

lemma evictLoopStep_local (a last : ℕ) (acc : Bool) : Local s (evictLoopStep cfg s t a last acc) t := by
  unfold evictLoopStep
  split_ifs
  · cases ho : s.cache.pages.lookup a with
    | none => exact (evictPage_absent _ ho).local
    | some o => exact (evictPage_evicts cfg _ ho).local
  · exact (calm_finish _).local

lemma flushReturn_local (cfg : SsdStreamingConfig) (o : ObjId) (ret : FlushRet) (ok : Bool) :
    Local s (flushReturn cfg s t o ret ok) t := by
  cases ret with
  | flush a b acc => exact (flushReturn_calm fun _ _ _ h => by cases h).local
  | evict a r =>
    cases ok with
    | true => exact (flushReturn_erases cfg a o r).local_of_cache fun _ => busy_dropped
    | false => exact (flushReturn_calm fun h => by cases h).local

lemma flushPage_local (o : ObjId) (ret : FlushRet) : Local s (flushPage cfg s t o ret) t := by
  cases ret with
  | flush a b acc => exact flushPage_calm_flush.local
  | evict a r => exact (flushPage_evicts a o r).local

def Pc.endsOn : Pc → Option ObjId
  | .loadDone o _ _ => some o
  | .flushDone o _ _ => some o
  | _ => none

inductive Change (s s' : Sys n) (t : Fin n) : Prop
  | stay : s'.cache = s.cache → s'.pc = s.pc → Change s s' t
  | moves : (∀ o, (s.pc t).owns o = 0) → Local s s' t → Change s s' t
  | transfers : Local s s' t → (∀ o, (s'.pc t).owns o = (s.pc t).owns o) → (s.pc t).endsOn = none →
      (s'.pc t).waitsOn = none → Change s s' t
  | ends (o : ObjId) : (s.pc t).endsOn = some o → s.lock = none → Local s s' t →
      (∀ x, s'.cache.busy x = true → x ≠ o ∧ s.cache.busy x = true ∨ (s'.pc t).owns x ≠ 0) → Change s s' t

lemma owns_endsOn (h : p.endsOn = some o) (hx : p.owns x ≠ 0) : x = o := by
  by_contra hne
  cases p with
  | loadDone y ok ret | flushDone y ok ret =>
    cases h
    exact hx (by simp [Pc.owns, Pc.loading, Pc.flushing, objCount_ne hne])
  | _ => cases h

lemma stepOk_change (ok : Bool) : Change s (stepOk cfg s t ok) t := by
  have howns : ∀ {p : Pc}, s.pc t = p → (∀ o, p.owns o = 0) → ∀ o, (s.pc t).owns o = 0 := fun h hp o => h ▸ hp o
  unfold stepOk
  cases hpc : s.pc t with
  | loop job => exact .moves (howns hpc fun _ => rfl) (loopStep_calm job ok).local
  | room r => exact .moves (howns hpc fun _ => rfl) (roomStep_local r ok)
  | evictOne k ret => exact .moves (howns hpc fun _ => rfl) (evictOne_local k ret)
  | trim r => exact .moves (howns hpc fun _ => rfl) (trimStep_calm r).local
  | ahead job x i => exact .moves (howns hpc fun _ => rfl) (aheadStep_calm job x i ok).local
  | loaded job => exact .moves (howns hpc fun _ => rfl) (useLoaded_calm job).local
  | loadRead o ret =>
    have hto : (readPage s t o ret ok).pc t = .loadDone o ok ret := by
      unfold readPage
      cases ok <;> simp
    refine .transfers (readPage_calm ret ok).local (fun x => ?_) (by rw [hpc]; rfl) ?_
    · dsimp only
      rw [hto, hpc]
      rfl
    · dsimp only
      rw [hto]
      rfl
  | flushWrite o ret =>
    have hto : (writePage s t o ret ok).pc t = .flushDone o ok ret := by
      unfold writePage
      cases ok <;> simp
    refine .transfers (writePage_calm ret ok).local (fun x => ?_) (by rw [hpc]; rfl) ?_
    · dsimp only
      rw [hto, hpc]
      rfl
    · dsimp only
      rw [hto]
      rfl
  | evictLoop a last acc => exact .moves (howns hpc fun _ => rfl) (evictLoopStep_local a last acc)
  | streamLoop a last => exact .moves (howns hpc fun _ => rfl) (streamLoopStep_calm a last ok).local
  | unpinLoop a last => exact .moves (howns hpc fun _ => rfl) (unpinLoopStep_calm a last).local
  | flushLoop snapshot rest acc => exact .moves (howns hpc fun _ => rfl) (flushLoopStep_calm snapshot rest acc ok).local
  | _ => exact .stay rfl rfl

lemma Local.ends {f : PageMeta → PageMeta} (h : Local (s.modify o f) s' t)
    (hidle : (f (s.cache.heap o)).state.busy = false) (hends : (s.pc t).endsOn = some o) (hlock : s.lock = none) :
    Change s s' t := by
  have hbusy : ∀ x, s'.cache.busy x = true → x ≠ o ∧ s.cache.busy x = true ∨ (s'.pc t).owns x ≠ 0 := fun x hx =>
    (h.busy x hx).imp_left fun hx' => busy_modify_idle s.cache o hidle hx'
  exact .ends o hends hlock ⟨h.others, fun x hx => (hbusy x hx).imp_left And.right, h.waits⟩ hbusy

lemma stepWake_local (hwaits : (s.pc t).waitsOn = some o) : Local s (stepWake cfg { s with lock := some t } t) t := by
  have hlocal : ∀ {s' : Sys n}, Local { s with lock := some t } s' t → Local s s' t :=
    fun h => ⟨h.others, h.busy, h.waits⟩
  unfold stepWake
  dsimp only
  cases hpc : s.pc t with
  | ensureWait job x => exact hlocal (ensureChecked_calm job x).local
  | evictWait a x ret => exact hlocal (evictChecked_evicts a x ret).local
  | flushWait x ret => exact hlocal (flushPage_local x ret)
  | _ => rw [hpc] at hwaits; cases hwaits

lemma stepWake_change (hlock : s.lock = none) : Change s (stepWake cfg { s with lock := some t } t) t := by
  have hmoves : ∀ {o : ObjId}, (s.pc t).waitsOn = some o → (∀ x, (s.pc t).owns x = 0) →
      Change s (stepWake cfg { s with lock := some t } t) t := fun hwaits howns => .moves howns (stepWake_local hwaits)
  cases hpc : s.pc t with
  | loadDone o ok ret =>
    rw [stepWake, hpc]
    have h := (loadReturn_calm (s := Sys.modify { s with lock := some t } o fun p =>
      if ok then { p with refcnt := p.refcnt - 1, state := .residentClean, dirty := false, accessed := true }
      else { p with refcnt := p.refcnt - 1, state := .nonResident }) (t := t) o ret ok).local
    refine Local.ends (s := s) ⟨h.others, h.busy, h.waits⟩ ?_ (by rw [hpc]; rfl) hlock
    cases ok <;> rfl
  | flushDone o ok ret =>
    rw [stepWake, hpc]
    have h := flushReturn_local cfg (s := Sys.modify { s with lock := some t } o fun p =>
      if ok then { p with dirty := false, state := .residentClean } else { p with state := .residentDirty })
      (t := t) o ret ok
    refine Local.ends (s := s) ⟨h.others, h.busy, h.waits⟩ ?_ (by rw [hpc]; rfl) hlock
    cases ok <;> rfl
  | ensureWait job o | evictWait a o ret | flushWait o ret => exact hmoves (by rw [hpc]; rfl) fun x => by rw [hpc]; rfl
  | _ =>
    rw [stepWake, hpc]
    exact .stay rfl rfl

lemma enter_change {call : Call} (hpc : s.pc t = .entry call) (ch : Choice) : Change s (enter cfg s t call ch) t := by
  have howns : ∀ o, (s.pc t).owns o = 0 := fun o => by rw [hpc]; rfl
  unfold enter
  split
  · next order =>
    split_ifs
    · have h := (flushStart_calm (s := { s with lock := some t }) (t := t) order).local
      exact .moves howns ⟨h.others, h.busy, h.waits⟩
    · exact .stay rfl rfl
  · exact .stay rfl rfl
  · have h := (calm_move (s := { s with lock := some t }) (t := t) (p := call.start cfg) (v := [])
      (by cases call <;> rfl) (by cases call <;> rfl)).local
    exact .moves howns ⟨h.others, h.busy, h.waits⟩

/-- What a step comes to. -/
lemma step_change (cfg : SsdStreamingConfig) (s : Sys n) (l : Fin n × Choice) : Change s (step cfg s l) l.1 := by
  unfold step
  dsimp only
  split
  · next hpc hcall =>
    split
    · exact .stay rfl rfl
    · exact .moves (fun o => by rw [hpc]; rfl) (calm_move rfl rfl).local
  · exact .stay rfl rfl
  · next hpc =>
    split_ifs
    · exact enter_change hpc _
    · exact .stay rfl rfl
  · split_ifs with hw hlock
    · exact stepWake_change hlock.1
    · exact .stay rfl rfl
    · exact stepOk_change _
  · exact .stay rfl rfl

lemma Change.others (h : Change s s' t) {x : Fin n} (hx : x ≠ t) : s'.pc x = s.pc x := by
  cases h with
  | stay _ hpc => rw [hpc]
  | moves _ h | transfers h _ _ _ | ends _ _ _ h _ => exact h.others x hx

/-! ## The machine with sleepers -/

structure Waits (n : ℕ) where
  sys : Sys n
  asleep : Fin n → Bool

def Pc.notifies : Pc → Option ObjId
  | .loadDone o _ _ => some o
  | .flushDone o true _ => some o
  | _ => none

/-- the page whose write-back has failed -/
def Pc.failedOn : Pc → Option ObjId
  | .flushDone o false _ => some o
  | _ => none

def Choice.isRun : Choice → Bool
  | .run _ => true
  | _ => false

def Waits.stuck (w : Waits n) (t : Fin n) (ch : Choice) : Bool :=
  w.asleep t || ((w.sys.pc t).wakes && (w.sys.lock.isSome || !ch.isRun))

def wakeStep (cfg : SsdStreamingConfig) (w : Waits n) (l : Fin n × Option Choice) : Waits n :=
  match l.2 with
  | none => { w with asleep := Function.update w.asleep l.1 false }
  | some ch =>
    if w.stuck l.1 ch then w
    -- `while (busy) cv.wait(lock)`
    else if sleeping w.sys l.1 then { w with asleep := Function.update w.asleep l.1 true }
    else
      let sys' := step cfg w.sys (l.1, ch)
      { sys := sys'
        asleep := fun t =>
          if t = l.1 then (sys'.pc t).waitsOn.isSome
          else w.asleep t && decide ((w.sys.pc t).waitsOn ≠ (w.sys.pc l.1).notifies) }

def wakeStart (n : ℕ) (content : ℕ → Buf) : Waits n := ⟨start n content, fun _ => false⟩

def Waits.ending (w : Waits n) (l : Fin n × Option Choice) : Option ObjId :=
  match l.2 with
  | none => none
  | some ch => if w.stuck l.1 ch then none else (w.sys.pc l.1).endsOn

/-- a transfer that ends in this step wakes every thread that sleeps on its page -/
def Notifies (cfg : SsdStreamingConfig) (w : Waits n) (l : Fin n × Option Choice) : Prop :=
  ∀ t o, w.ending l = some o → w.asleep t = true → (w.sys.pc t).waitsOn = some o → (wakeStep cfg w l).asleep t = false

/-- a write-back that ends in failure in this step ends while nobody sleeps on its page -/
def NoUnheardFailure (w : Waits n) (l : Fin n × Option Choice) : Prop :=
  w.ending l ≠ none → (w.sys.pc l.1).failedOn ≠ none →
    ∀ t, w.asleep t = true → (w.sys.pc t).waitsOn ≠ (w.sys.pc l.1).failedOn

instance (w : Waits n) (l : Fin n × Option Choice) : Decidable (NoUnheardFailure w l) := by
  unfold NoUnheardFailure
  infer_instance

variable {w : Waits n} {l : Fin n × Option Choice} {ch : Choice}

lemma not_sleeping_of_endsOn (h : (s.pc t).endsOn = some o) : sleeping s t = false := by
  unfold sleeping
  cases hpc : s.pc t <;> simp_all [Pc.endsOn]

lemma waits_owns (h : p.waitsOn = some o) (x : ObjId) : p.owns x = 0 := by cases p <;> first | rfl | cases h

lemma waits_wakes (h : p.waitsOn = some o) : p.wakes = true := by cases p <;> first | rfl | cases h

lemma sleeping_iff : sleeping s t = true ↔ ∃ o, (s.pc t).waitsOn = some o ∧ s.cache.busy o = true := by
  unfold sleeping
  cases hpc : s.pc t <;> simp [Pc.waitsOn]

lemma asleep_ending (h : w.ending l = some o) (hasleep : w.asleep t = true) :
    (wakeStep cfg w l).asleep t = decide ((w.sys.pc t).waitsOn ≠ (w.sys.pc l.1).notifies) := by
  obtain ⟨x, ch⟩ := l
  unfold Waits.ending at h
  cases ch with
  | none => cases h
  | some ch =>
    dsimp only at h
    split_ifs at h with hstuck
    have hx : t ≠ x := by
      rintro rfl
      simp [Waits.stuck, hasleep] at hstuck
    simp [wakeStep, hstuck, not_sleeping_of_endsOn h, hx, hasleep]

/-- Every end of a transfer notifies, but for a failed write-back. -/
lemma notifies_or_fails (h : p.endsOn = some o) :
    p.notifies = some o ∧ p.failedOn = none ∨ p.notifies = none ∧ p.failedOn = some o := by
  cases p with
  | loadDone x ok ret =>
    cases h
    exact .inl ⟨rfl, rfl⟩
  | flushDone x ok ret =>
    cases h
    cases ok with
    | true => exact .inl ⟨rfl, rfl⟩
    | false => exact .inr ⟨rfl, rfl⟩
  | _ => cases h

lemma endsOn_of_ending (h : w.ending l = some o) : (w.sys.pc l.1).endsOn = some o := by
  unfold Waits.ending at h
  split at h
  · cases h
  · split_ifs at h
    exact h

lemma NoUnheardFailure.notified (h : NoUnheardFailure w l) (hend : w.ending l = some o) (hasleep : w.asleep t = true)
    (hwaits : (w.sys.pc t).waitsOn = some o) : (w.sys.pc l.1).notifies = some o := by
  rcases notifies_or_fails (endsOn_of_ending hend) with ⟨hn, -⟩ | ⟨-, hf⟩
  · exact hn
  · exact absurd (hwaits.trans hf.symm) (h (by simp [hend]) (by simp [hf]) t hasleep)

lemma notifies_iff : Notifies cfg w l ↔ NoUnheardFailure w l := by
  constructor
  · intro h hne hfailed t hasleep hwaits
    obtain ⟨o, hend⟩ := Option.ne_none_iff_exists'.mp hne
    rcases notifies_or_fails (endsOn_of_ending hend) with ⟨-, hf⟩ | ⟨hn, hf⟩
    · exact hfailed hf
    · -- the sleeper is not notified, so it sleeps on
      have hawake := h t o hend hasleep (hwaits.trans hf)
      rw [asleep_ending hend hasleep, hwaits, hf, hn] at hawake
      simp at hawake
  · intro h t o hend hasleep hwaits
    rw [asleep_ending hend hasleep, hwaits, h.notified hend hasleep hwaits]
    simp

/-! ## Sleepers and transfers -/

/-- a busy page is being transferred, and so is the page of a thread that sleeps -/
structure AsleepInv (w : Waits n) : Prop where
  busy : ∀ o, w.sys.cache.busy o = true → ∃ t, (w.sys.pc t).owns o ≠ 0
  asleep : ∀ t, w.asleep t = true → ∃ o, (w.sys.pc t).waitsOn = some o ∧ ∃ t', (w.sys.pc t').owns o ≠ 0

lemma asleepInv_start (content : ℕ → Buf) : AsleepInv (wakeStart n content) where
  busy := fun o h => by simp [wakeStart, start, Cache.busy, newPage, SsdPageState.busy] at h
  asleep := fun t h => by cases h

lemma owner_stays {x : Fin n} (h : Change s s' t) (hx : (s.pc x).owns o ≠ 0) :
    (s'.pc x).owns o ≠ 0 ∨ x = t ∧ (s.pc t).endsOn = some o := by
  by_cases hxt : x = t
  · subst hxt
    cases h with
    | stay _ hpc => exact .inl (by rwa [hpc])
    | moves hnone _ => exact absurd (hnone o) hx
    | transfers _ hsame _ _ => exact .inl (by rwa [hsame])
    | ends o' hends _ _ _ =>
      rw [owns_endsOn hends hx]
      exact .inr ⟨rfl, hends⟩
  · rw [h.others hxt]
    exact .inl hx

lemma owns_of_endsOn (h : p.endsOn = some o) : p.owns o ≠ 0 := by
  cases p with
  | loadDone y ok ret | flushDone y ok ret =>
    cases h
    simp [Pc.owns, Pc.loading, Pc.flushing, objCount]
  | _ => cases h

lemma busy_owned (h : Change s s' t) (hi : ∀ o, s.cache.busy o = true → ∃ x, (s.pc x).owns o ≠ 0)
    (ho : s'.cache.busy o = true) :
    ∃ x, (s'.pc x).owns o ≠ 0 := by
  -- a page that was busy keeps its owner, unless this step ends the transfer
  have hstays : s.cache.busy o = true → (s.pc t).endsOn ≠ some o → ∃ x, (s'.pc x).owns o ≠ 0 := by
    intro hbusy hends
    obtain ⟨x, hx⟩ := hi o hbusy
    rcases owner_stays h hx with hx' | ⟨-, he⟩
    · exact ⟨x, hx'⟩
    · exact absurd he hends
  cases h with
  | stay hcache hpc =>
    rw [hcache] at ho
    obtain ⟨x, hx⟩ := hi o ho
    exact ⟨x, by rwa [hpc]⟩
  | moves hnone hl =>
    rcases hl.busy o ho with hbusy | hown
    · exact hstays hbusy fun he => owns_of_endsOn he (hnone o)
    · exact ⟨t, hown⟩
  | transfers hl hsame hends hwaits =>
    rcases hl.busy o ho with hbusy | hown
    · exact hstays hbusy fun he => by rw [hends] at he; cases he
    · exact ⟨t, hown⟩
  | ends o' hends hlock hl hbusy =>
    rcases hbusy o ho with ⟨hne, hbusy⟩ | hown
    · exact hstays hbusy fun he => by rw [hends] at he; exact hne (Option.some.inj he).symm
    · exact ⟨t, hown⟩

lemma step_waiting (cfg : SsdStreamingConfig)
    (hwaits : (s.pc t).waitsOn = some o) (hlock : s.lock = none) (hidle : sleeping s t = false) (ok : Bool) :
    Local s (step cfg s (t, .run ok)) t := by
  have heq : step cfg s (t, .run ok) = stepWake cfg { s with lock := some t } t := by
    cases hpc : s.pc t with
    | ensureWait job x | evictWait a x ret | flushWait x ret => simp [step, hpc, Pc.wakes, hlock, hidle]
    | _ => rw [hpc] at hwaits; cases hwaits
  rw [heq]
  exact stepWake_local hwaits

lemma not_stuck_run (hstuck : ¬ w.stuck t ch = true) (hwakes : (w.sys.pc t).wakes = true) :
    w.sys.lock = none ∧ ∃ ok, ch = .run ok := by
  simp only [Waits.stuck, hwakes, Bool.true_and, Bool.or_eq_true, not_or, Bool.not_eq_true', Bool.not_eq_true,
    Option.isSome_eq_false_iff, Option.isNone_iff_eq_none] at hstuck
  refine ⟨hstuck.2.1, ?_⟩
  cases ch with
  | run ok => exact ⟨ok, rfl⟩
  | call c | snapshot order => simp [Choice.isRun] at hstuck

lemma waits_busy (hstuck : ¬ w.stuck t ch = true) (hidle : ¬ sleeping w.sys t = true)
    (ho : ((step cfg w.sys (t, ch)).pc t).waitsOn = some o) :
    (step cfg w.sys (t, ch)).cache.busy o = true := by
  cases hbefore : (w.sys.pc t).waitsOn with
  | some o' =>
    obtain ⟨hlock, ok, rfl⟩ := not_stuck_run hstuck (waits_wakes hbefore)
    exact (step_waiting cfg hbefore hlock (Bool.eq_false_iff.mpr hidle) ok).waits o ho
  | none =>
    cases step_change cfg w.sys (t, ch) with
    | stay _ hpc =>
      rw [hpc, hbefore] at ho
      cases ho
    | moves _ h | transfers h _ _ _ | ends _ _ _ h _ => exact h.waits o ho

/-- A thread sleeps only while its page is being transferred, as long as no failure goes unheard. -/
lemma asleep_step (hi : AsleepInv w) (hheard : NoUnheardFailure w l) : AsleepInv (wakeStep cfg w l) := by
  obtain ⟨t, ch⟩ := l
  cases ch with
  | none =>
    refine ⟨hi.busy, fun x hx => hi.asleep x ?_⟩
    by_cases hxt : x = t
    · simp [wakeStep, hxt] at hx
    · simpa [wakeStep, hxt] using hx
  | some ch =>
    unfold wakeStep
    dsimp only
    split_ifs with hstuck hsleeps
    · exact hi
    · obtain ⟨o, hwaits, hbusy⟩ := sleeping_iff.mp hsleeps
      refine ⟨hi.busy, fun x hx => ?_⟩
      by_cases hxt : x = t
      · exact ⟨o, hxt ▸ hwaits, hi.busy o hbusy⟩
      · exact hi.asleep x (by simpa [hxt] using hx)
    · have hchange := step_change cfg w.sys (t, ch)
      have hbusy' : ∀ o, (step cfg w.sys (t, ch)).cache.busy o = true →
          ∃ x, ((step cfg w.sys (t, ch)).pc x).owns o ≠ 0 := fun o ho => busy_owned hchange hi.busy ho
      refine ⟨hbusy', fun x hx => ?_⟩
      dsimp only at hx ⊢
      by_cases hxt : x = t
      · rw [if_pos hxt] at hx
        obtain ⟨o, ho⟩ := Option.isSome_iff_exists.mp hx
        rw [hxt] at ho ⊢
        exact ⟨o, ho, hbusy' o (waits_busy hstuck hsleeps ho)⟩
      · rw [if_neg hxt, Bool.and_eq_true, decide_eq_true_eq] at hx
        obtain ⟨o, hwaits, y, hy⟩ := hi.asleep x hx.1
        refine ⟨o, by rw [hchange.others hxt, hwaits], y, ?_⟩
        rcases owner_stays hchange hy with h | ⟨-, hends⟩
        · exact h
        · -- the transfer it waits for ends here, and wakes it
          have hending : w.ending (t, some ch) = some o := by simpa [Waits.ending, hstuck] using hends
          exact absurd (hwaits.trans (hheard.notified hending hx.1 hwaits).symm) hx.2

/-! ## A fair scheduler -/

def Wants (w : Waits n) (t : Fin n) : Prop := w.asleep t = false ∧ (w.sys.pc t).wakes = true

instance (w : Waits n) (t : Fin n) : Decidable (Wants w t) := by
  unfold Wants
  infer_instance

/-- a thread that from some point on wants `mutex_` runs when it is free -/
def FairRun (T : Trace (wakeStep (n := n) cfg)) : Prop :=
  ∀ t k, (∀ m ≥ k, Wants (T.state m) t) → ∃ m ≥ k, (T.state m).sys.lock = none ∧ ∃ ok, T.op m = (t, some (.run ok))

def Waits.waitsIdle (w : Waits n) (t : Fin n) (o : ObjId) : Prop :=
  (w.sys.pc t).waitsOn = some o ∧ ∀ t', (w.sys.pc t').owns o = 0

lemma awake_of_waitsIdle (hi : AsleepInv w) (h : w.waitsIdle t o) :
    w.asleep t = false ∧ w.sys.cache.busy o = false := by
  constructor
  · refine Bool.eq_false_iff.mpr fun hasleep => ?_
    obtain ⟨o', hwaits, x, hx⟩ := hi.asleep t hasleep
    rw [h.1] at hwaits
    cases hwaits
    exact hx (h.2 x)
  · refine Bool.eq_false_iff.mpr fun hbusy => ?_
    obtain ⟨x, hx⟩ := hi.busy o hbusy
    exact hx (h.2 x)

lemma waitsIdle_moves (cfg : SsdStreamingConfig) (hi : AsleepInv w) (h : w.waitsIdle t o)
    (hlock : w.sys.lock = none) (ok : Bool) : ((wakeStep cfg w (t, some (.run ok))).sys.pc t).waitsOn ≠ some o := by
  obtain ⟨hawake, hbusy⟩ := awake_of_waitsIdle hi h
  have hidle : sleeping w.sys t = false := by
    refine Bool.eq_false_iff.mpr fun hsleeps => ?_
    obtain ⟨o', hwaits, hbusy'⟩ := sleeping_iff.mp hsleeps
    rw [h.1] at hwaits
    cases hwaits
    rw [hbusy] at hbusy'
    cases hbusy'
  have hstuck : w.stuck t (.run ok) = false := by simp [Waits.stuck, hawake, hlock, Choice.isRun]
  have heq : (wakeStep cfg w (t, some (.run ok))).sys = step cfg w.sys (t, .run ok) := by simp [wakeStep, hstuck, hidle]
  have hlocal := step_waiting cfg h.1 hlock hidle ok
  rw [heq]
  intro hwaits
  rcases hlocal.busy o (hlocal.waits o hwaits) with hbefore | hown
  · rw [hbusy] at hbefore
    cases hbefore
  · exact hown (waits_owns hwaits o)

lemma no_endless_wait {T : Trace (wakeStep (n := n) cfg)} (hinv : ∀ m, AsleepInv (T.state m)) (hfair : FairRun T)
    (t : Fin n) (o : ObjId) (k : ℕ) : ∃ m ≥ k, ¬ (T.state m).waitsIdle t o := by
  by_contra hnever
  push Not at hnever
  -- awake all the time, it gets the lock, and then waits on that page no more
  obtain ⟨m, hm, hlock, ok, hop⟩ := hfair t k fun m hm =>
    ⟨(awake_of_waitsIdle (hinv m) (hnever m hm)).1, waits_wakes (hnever m hm).1⟩
  have hmoves := waitsIdle_moves cfg (hinv m) (hnever m hm) hlock ok
  rw [← hop, ← T.next] at hmoves
  exact hmoves (hnever (m + 1) (by omega)).1

lemma allNotify_iff (cfg : SsdStreamingConfig) (w : Waits n) (ls : List (Fin n × Option Choice)) :
    AllSteps (wakeStep cfg) (Notifies cfg) w ls ↔ AllSteps (wakeStep cfg) NoUnheardFailure w ls := by
  have hiff : (Notifies cfg : Waits n → _ → Prop) = NoUnheardFailure :=
    funext fun w => funext fun l => propext notifies_iff
  rw [hiff]

/-- Waiters on a page are woken by the transfers that end, exactly if no failed write-back finds a sleeper; and in
every such fair run no thread waits for ever on a page without a transfer. -/
theorem waiters_woken (n : ℕ) (cfg : SsdStreamingConfig) (content : ℕ → Buf) :
    (∀ ls, AllSteps (wakeStep cfg) (Notifies cfg) (wakeStart n content) ls ↔
      AllSteps (wakeStep cfg) NoUnheardFailure (wakeStart n content) ls) ∧
    ∀ T : Trace (wakeStep (n := n) cfg), T.state 0 = wakeStart n content →
      (∀ m, NoUnheardFailure (T.state m) (T.op m)) → FairRun T →
        ∀ t o k, ∃ m ≥ k, ¬ (T.state m).waitsIdle t o := by
  refine ⟨allNotify_iff cfg (wakeStart n content), fun T hstart hheard hfair => ?_⟩
  exact no_endless_wait (T.inv (fun w l hi hl => asleep_step hi hl) (hstart ▸ asleepInv_start content) hheard) hfair

/-- thread 0 writes a page and evicts it; during the write-back, which ends with `ok`, thread 1 reads it -/
def evictedRun (ok : Bool) : List (Fin 2 × Option Choice) :=
  [((0 : Fin 2), some (Choice.call (Call.write 0 1 fun _ => 7)))] ++
  List.replicate 8 ((0 : Fin 2), some (Choice.run true)) ++ [((0 : Fin 2), some (Choice.call (Call.evictAfter 0 1)))] ++
  List.replicate 2 ((0 : Fin 2), some (Choice.run true)) ++ [((1 : Fin 2), some (Choice.call (Call.read 0 1)))] ++
  List.replicate 2 ((1 : Fin 2), some (Choice.run true)) ++ [((0 : Fin 2), some (Choice.run ok))] ++
  List.replicate 2 ((0 : Fin 2), some (Choice.run true))

/-- A failed write-back is not heard. The reader sleeps for ever, in a fair run, and nobody transfers its page. -/
theorem unheard_failure :
    ¬ AllSteps (wakeStep tinyConfig) (Notifies tinyConfig) (wakeStart 2 fun _ _ => 0) (evictedRun false) ∧
      ∃ T : Trace (wakeStep (n := 2) tinyConfig),
        T.state 0 = run (wakeStep tinyConfig) (wakeStart 2 fun _ _ => 0) (evictedRun false) ∧ FairRun T ∧
          ∀ m, (T.state m).waitsIdle 1 0 := by
  refine ⟨by rw [allNotify_iff]; decide, ?_⟩
  set w := run (wakeStep tinyConfig) (wakeStart 2 fun _ _ => 0) (evictedRun false) with hw
  have hasleep : w.asleep 1 = true := by decide
  have hwants : ∀ t, ¬ Wants w t := by decide
  let T : Trace (wakeStep (n := 2) tinyConfig) := Trace.of _ w fun _ => ((1 : Fin 2), some (Choice.run true))
  have hstate : ∀ m, T.state m = w := by
    intro m
    induction m with
    | zero => rfl
    | succ m ih =>
      rw [T.next, ih]
      simp [T, Trace.of, wakeStep, Waits.stuck, hasleep]
  refine ⟨T, rfl, fun t k hagain => ?_, fun m => ?_⟩
  · have hk := hagain k le_rfl
    rw [hstate] at hk
    exact absurd hk (hwants t)
  · rw [hstate]
    exact ⟨rfl, by decide⟩

def heardRun : List (Fin 2 × Option Choice) :=
  [((0 : Fin 2), some (Choice.call (Call.write 0 1 fun _ => 7)))] ++
  List.replicate 8 ((0 : Fin 2), some (Choice.run true)) ++
  [((0 : Fin 2), some (Choice.call Call.flush)), ((0 : Fin 2), some (Choice.snapshot [0])),
    ((0 : Fin 2), some (Choice.run true)), ((1 : Fin 2), some (Choice.call (Call.read 0 1)))] ++
  List.replicate 2 ((1 : Fin 2), some (Choice.run true)) ++ List.replicate 3 ((0 : Fin 2), some (Choice.run true)) ++
  List.replicate 3 ((1 : Fin 2), some (Choice.run true))

def heardTrace : Trace (wakeStep (n := 2) tinyConfig) :=
  Trace.of _ (wakeStart 2 fun _ _ => 0) fun m => heardRun.getD m (0, none)

lemma heardTrace_quiet (m : ℕ) (hm : 21 ≤ m) :
    ∀ t, (heardTrace.state m).asleep t = false ∧ ((heardTrace.state m).sys.pc t).wakes = false := by
  induction m, hm using Nat.le_induction with
  | base => decide
  | succ m hm ih =>
    have hop : heardTrace.op m = (0, none) := List.getD_eq_default heardRun _ hm
    intro t
    rw [heardTrace.next, hop]
    by_cases ht : t = 0
    · simp [wakeStep, ht, (ih 0).2]
    · simp [wakeStep, ht, ih t]

theorem waiters_woken_reader :
    (heardTrace.state 15).asleep 1 = true ∧ (∀ m, NoUnheardFailure (heardTrace.state m) (heardTrace.op m)) ∧
      FairRun heardTrace ∧ ∀ t o k, ∃ m ≥ k, ¬ (heardTrace.state m).waitsIdle t o := by
  have hheard : ∀ m, NoUnheardFailure (heardTrace.state m) (heardTrace.op m) := by
    intro m
    rcases lt_or_ge m 21 with hm | hm
    · revert m
      decide
    · intro _ _ t hasleep
      rw [(heardTrace_quiet m hm t).1] at hasleep
      cases hasleep
  have hfair : FairRun heardTrace := by
    intro t k hagain
    have hwakes := (hagain (max k 21) (le_max_left k 21)).2
    rw [(heardTrace_quiet _ (le_max_right k 21) t).2] at hwakes
    cases hwakes
  exact ⟨by decide, hheard, hfair, (waiters_woken 2 tinyConfig fun _ _ => 0).2 heardTrace rfl hheard hfair⟩

end CxlMemSim.Ssd
