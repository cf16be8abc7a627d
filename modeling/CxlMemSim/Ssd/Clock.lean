/-
The clock queue of the page cache, used by one thread, should hold every page of `pages_` once. `evict_after` erases a
page and leaves its number (`stale_number`); `evict_one_locked` takes the victim's number off before the write-back, so
a page whose write-back fails never comes up again (`lost_page`).
-/
import CxlMemSim.Ssd.Budget
import CxlMemSim.Ssd.FlatArray

namespace CxlMemSim.Ssd

open List
open CxlMemSim.Core

variable {n : ℕ} {cfg : SsdStreamingConfig} {c : Cache} {a : ℕ} {o : ObjId} {v queue : List ℕ}

/-! ## Map and queue -/

def Tracks (c : Cache) (v : List ℕ) : Prop := ∀ p, (c.clockQueue ++ v).count p = if p ∈ c.pages then 1 else 0

/-- every page of the map stands once in the clock queue, and nothing else does -/
def InStep (c : Cache) : Prop := ∀ p, c.clockQueue.count p = if p ∈ c.pages then 1 else 0

lemma tracks_nil : Tracks c [] ↔ InStep c := by simp [Tracks, InStep]

lemma Tracks.mem_pages (h : Tracks c v) (ha : a ∈ c.clockQueue ++ v) : a ∈ c.pages := by
  have hpos := List.count_pos_iff.mpr ha
  rw [h a] at hpos
  by_contra hnot
  rw [if_neg hnot] at hpos
  exact Nat.lt_irrefl 0 hpos

lemma Tracks.mem_queue (h : Tracks c []) (ha : a ∈ c.pages) : a ∈ c.clockQueue := by
  have hone := h a
  rw [if_pos ha, append_nil] at hone
  exact List.count_pos_iff.mp (by omega)

lemma Tracks.congr {c' : Cache} (h : Tracks c v) (hpages : c'.pages = c.pages)
    (hqueue : c'.clockQueue = c.clockQueue) : Tracks c' v := by
  intro p
  rw [hpages, hqueue]
  exact h p

lemma Calm.tracks {s s' : Sys n} {t : Fin n} (h : Calm v s s' t) (ht : Tracks s.cache v) :
    Tracks s'.cache (s'.pc t).victim := by
  rw [h.victim]
  exact ht.congr h.pages h.queue

lemma Tracks.dropped (h : Tracks c [a]) (o : ObjId) : Tracks (c.dropped a o) [] := by
  intro p
  have hp := h p
  simp only [Cache.dropped, Finmap.mem_erase, append_nil]
  rw [count_append, count_singleton] at hp
  have hqueue : (c.modify o fun q => { q with state := .nonResident }).clockQueue = c.clockQueue := rfl
  rw [hqueue]
  by_cases hpa : p = a
  · subst hpa
    simp only [beq_self_eq_true, if_true] at hp
    split_ifs at hp with hmem
    · simpa using hp
  · have hne : (a == p) = false := beq_eq_false_iff_ne.mpr (Ne.symm hpa)
    simp only [hne, Bool.false_eq_true, if_false, Nat.add_zero] at hp
    simpa [hpa] using hp

lemma Tracks.create (h : Tracks c []) (hnone : c.pages.lookup a = none) : Tracks (c.create a) [] := by
  intro p
  have hp := h p
  simp only [Cache.create, Finmap.mem_insert, append_nil, count_append, count_singleton] at hp ⊢
  rw [hp]
  by_cases hpa : p = a
  · subst hpa
    simp [Finmap.lookup_eq_none.mp hnone]
  · simp [hpa, Ne.symm hpa]

lemma Tracks.rotate (h : Tracks c []) (hq : c.clockQueue = a :: queue) :
    Tracks { c with clockQueue := queue ++ [a] } [] := by
  intro p
  have hp := h p
  rw [hq] at hp
  simp only [append_nil] at hp ⊢
  rw [count_append, count_singleton, ← hp, count_cons]

lemma Tracks.pop (h : Tracks c []) (hq : c.clockQueue = a :: queue) : Tracks { c with clockQueue := queue } [a] := by
  intro p
  have hp := h p
  rw [hq, append_nil] at hp
  rw [count_append, count_singleton, ← hp, count_cons]

/-! ## Steps of one thread -/

def Pc.evictsAfter : Pc → Bool
  | .evictLoop _ _ _ => true
  | .flushWrite _ (.evict _ (.after _ _ _)) => true
  | .flushDone _ _ (.evict _ (.after _ _ _)) => true
  | .flushWait _ (.evict _ (.after _ _ _)) => true
  | .evictWait _ _ (.after _ _ _) => true
  | _ => false

def Pc.losesVictim : Pc → Bool
  | .flushDone _ false (.evict _ (.one _)) => true
  | _ => false

/-- `evict_after` erases no page, and no write-back of a clock victim has failed -/
def KeepsClock (cfg : SsdStreamingConfig) (s : Sys n) (l : Fin n × Choice) : Prop :=
  ((s.pc l.1).evictsAfter = true → (step cfg s l).cache.pages = s.cache.pages) ∧ (s.pc l.1).losesVictim = false

instance (cfg : SsdStreamingConfig) (s : Sys n) (l : Fin n × Choice) : Decidable (KeepsClock cfg s l) :=
  inferInstanceAs (Decidable (_ ∧ _))

def ClockInv (t : Fin n) (s : Sys n) : Prop := Tracks s.cache (s.pc t).victim

section Turns

variable {s s' : Sys 1}

lemma Gets.clockInv (h : Gets s s' 0 a) (ht : Tracks s.cache []) : ClockInv 0 s' := by
  obtain ⟨c, hgot, hcalm⟩ := h
  cases hgot with
  | found => exact hcalm.tracks ht
  | created hnone => exact hcalm.tracks (ht.create hnone)

lemma evictOne_clockInv (k : ℕ) (ret : OneRet) (ht : Tracks s.cache []) : ClockInv 0 (evictOne cfg s 0 k ret) := by
  unfold evictOne
  split
  · exact (oneReturn_calm ret false).tracks ht
  · exact (oneReturn_calm ret false).tracks ht
  · next k a queue hqueue =>
    dsimp only
    split
    · next hnone =>
      -- nothing but pages of the map is in the queue
      have hmem : a ∈ s.cache.pages := ht.mem_pages (by rw [hqueue]; simp)
      exact absurd hmem (Finmap.lookup_eq_none.mp hnone)
    · next o ho =>
      have hpopped := ht.pop hqueue
      split_ifs with hkept haccessed
      · exact (calm_move (p := .evictOne k ret) rfl rfl).tracks (ht.rotate hqueue)
      · exact (calm_modify (p := .evictOne k ret) rfl rfl (.inl rfl)).tracks (ht.rotate hqueue)
      · cases evictPage_evicts cfg (t := 0) (s := s.withCache { s.cache with clockQueue := queue }) (.one ret)
          ho with
        | waits h => exact h.tracks hpopped
        | refused h _ =>
          rw [Bool.or_eq_true, not_or] at hkept
          exact absurd h hkept.1
        | erased _ h => exact h.tracks (hpopped.dropped o)

lemma evictLoopStep_clockInv {last : ℕ} {acc : Bool} (ht : Tracks s.cache [])
    (hkeeps : (evictLoopStep cfg s 0 a last acc).cache.pages = s.cache.pages) :
    ClockInv 0 (evictLoopStep cfg s 0 a last acc) := by
  revert hkeeps
  unfold evictLoopStep
  split_ifs
  · intro hkeeps
    cases ho : s.cache.pages.lookup a with
    | none => exact (evictPage_absent _ ho).tracks ht
    | some o =>
      cases evictPage_evicts cfg (t := 0) (.after a last acc) ho with
      | waits h | refused _ h => exact h.tracks ht
      | erased _ h =>
        rw [ClockInv, h.victim]
        exact ht.congr hkeeps h.queue
  · exact fun _ => (calm_finish _).tracks ht

lemma flushFinish_clockInv {ok : Bool} {ret : FlushRet} (ht : Tracks s.cache ret.victim)
    (hlost : (Pc.flushDone o ok ret).losesVictim = false) (hkeeps : (Pc.flushDone o ok ret).evictsAfter = true →
      (flushFinish cfg s 0 o ok ret).cache.pages = s.cache.pages) :
    ClockInv 0 (flushFinish cfg s 0 o ok ret) := by
  unfold flushFinish at hkeeps ⊢
  generalize hf : (fun p : PageMeta => if ok then { p with dirty := false, state := .residentClean }
    else { p with state := .residentDirty }) = f at hkeeps ⊢
  have ht' : Tracks (s.modify o f).cache ret.victim := ht.congr rfl rfl
  cases ret with
  | flush snapshot rest acc => exact (flushReturn_calm fun _ _ _ h => by cases h).tracks ht'
  | evict a r =>
    cases r with
    | one r =>
      cases ok with
      | true => exact (flushReturn_erases cfg (s := s.modify o f) a o (.one r)).tracks (ht'.dropped o)
      | false => cases hlost
    | after b last acc =>
      cases ok with
      | true =>
        have h := flushReturn_erases cfg (t := 0) (s := s.modify o f) a o (.after b last acc)
        rw [ClockInv, h.victim]
        exact ht'.congr (hkeeps rfl) h.queue
      | false => exact (flushReturn_calm fun h => by cases h).tracks ht'

lemma stepOk_clockInv (ht : ClockInv 0 s) (ok : Bool)
    (hkeeps : (s.pc 0).evictsAfter = true → (stepOk cfg s 0 ok).cache.pages = s.cache.pages) :
    ClockInv 0 (stepOk cfg s 0 ok) := by
  have htracks : ∀ {p}, s.pc 0 = p → Tracks s.cache p.victim := fun h => h ▸ ht
  revert hkeeps
  unfold stepOk
  cases hpc : s.pc 0 with
  | loop job => exact fun _ => (loopStep_calm job ok).tracks (htracks hpc)
  | room r =>
    intro _
    rcases roomStep_gets cfg s 0 r ok with hcalm | ⟨-, a, hgets⟩
    · exact hcalm.tracks (htracks hpc)
    · exact hgets.clockInv (htracks hpc)
  | evictOne k ret => exact fun _ => evictOne_clockInv k ret (htracks hpc)
  | trim r => exact fun _ => (trimStep_calm r).tracks (htracks hpc)
  | ahead job x i => exact fun _ => (aheadStep_calm job x i ok).tracks (htracks hpc)
  | loaded job => exact fun _ => (useLoaded_calm job).tracks (htracks hpc)
  | loadRead o ret => exact fun _ => (readPage_calm ret ok).tracks (htracks hpc)
  | flushWrite o ret => exact fun _ => (writePage_calm ret ok).tracks (htracks hpc)
  | evictLoop a last acc => exact fun hkeeps => evictLoopStep_clockInv (htracks hpc) (hkeeps rfl)
  | streamLoop a last => exact fun _ => (streamLoopStep_calm a last ok).tracks (htracks hpc)
  | unpinLoop a last => exact fun _ => (unpinLoopStep_calm a last).tracks (htracks hpc)
  | flushLoop snapshot rest acc => exact fun _ => (flushLoopStep_calm snapshot rest acc ok).tracks (htracks hpc)
  | _ => exact fun _ => ht

lemma stepWake_clockInv (ht : ClockInv 0 s) (hawake : (s.pc 0).waits = false) (hlost : (s.pc 0).losesVictim = false)
    (hkeeps : (s.pc 0).evictsAfter = true → (stepWake cfg s 0).cache.pages = s.cache.pages) :
    ClockInv 0 (stepWake cfg s 0) := by
  have htracks : ∀ {p}, s.pc 0 = p → Tracks s.cache p.victim := fun h => h ▸ ht
  revert hkeeps
  unfold stepWake
  cases hpc : s.pc 0 with
  | loadDone o ok ret =>
    exact fun _ => (loadReturn_calm (s := s.modify o _) o ret ok).tracks ((htracks hpc).congr rfl rfl)
  | flushDone o ok ret =>
    rw [hpc] at hlost
    exact fun hkeeps => flushFinish_clockInv (htracks hpc) hlost hkeeps
  | ensureWait job o | evictWait a o ret | flushWait o ret => rw [hpc] at hawake; cases hawake
  | _ => exact fun _ => ht

end Turns

lemma enter_clockInv {s : Sys 1} (ht : Tracks s.cache []) (hpc : (s.pc 0).victim = []) (call : Call) (ch : Choice) :
    ClockInv 0 (enter cfg s 0 call ch) := by
  have hstay : ClockInv 0 s := by rwa [ClockInv, hpc]
  unfold enter
  split
  · split_ifs
    · exact (flushStart_calm (s := { s with lock := some 0 }) _).tracks ht
    · exact hstay
  · exact hstay
  · refine (calm_move (s := { s with lock := some 0 }) (t := 0) ?_ ?_).tracks ht
    · cases call <;> rfl
    · cases call <;> rfl

/-- A step that keeps the clock keeps map and queue in step. -/
lemma clockInv_step {s : Sys 1} {A₀ : Buf} (harray : ArrayInv cfg A₀ s) (ht : ClockInv 0 s) (l : Fin 1 × Choice)
    (hkeeps : KeepsClock cfg s l) : ClockInv 0 (step cfg s l) := by
  obtain ⟨t, ch⟩ := l
  obtain rfl : t = 0 := Subsingleton.elim _ _
  obtain ⟨hpages, hlost⟩ := hkeeps
  revert hpages
  unfold step
  dsimp only at hlost ⊢
  split
  · next c hpc =>
    have ht' : Tracks s.cache [] := by rwa [ClockInv, hpc] at ht
    split
    · exact fun _ => ht
    · exact fun _ => (calm_move (p := .entry c) rfl rfl).tracks ht'
  · exact fun _ => ht
  · next hpc =>
    have ht' : Tracks s.cache [] := by rwa [ClockInv, hpc] at ht
    split_ifs
    · exact fun _ => enter_clockInv ht' (by rw [hpc]; rfl) _ _
    · exact fun _ => ht
  · split_ifs
    · exact fun hpages => stepWake_clockInv (s := { s with lock := some 0 }) ht harray.awake hlost hpages
    · exact fun _ => ht
    · exact fun hpages => stepOk_clockInv ht _ hpages
  · exact fun _ => ht

/-! ## The clock finds a page -/

def Free (c : Cache) (o : ObjId) : Prop := (c.heap o).pinned = false ∧ (c.heap o).refcnt = 0 ∧ c.busy o = false

def Evicted (cfg : SsdStreamingConfig) (t : Fin n) (s : Sys n) (ret : OneRet) : Prop :=
  ∃ (k : ℕ) (s' : Sys n) (b : ℕ), b ∈ s.cache.pages ∧ s'.cache.pages = s.cache.pages.erase b ∧
    run (step cfg) s (List.replicate k (t, .run true)) = oneReturn cfg s' t ret true

section Progress

variable {s s' : Sys 1} {ret : OneRet} {k : ℕ} {r : FlushRet}

lemma step_evictOne (cfg : SsdStreamingConfig) (hpc : s.pc 0 = .evictOne k ret) : step cfg s
    (0, .run true) = evictOne cfg s 0 k ret := by
  simp [step, hpc, Pc.wakes, stepOk]

lemma step_flushWrite (hpc : s.pc 0 = .flushWrite o r) : step cfg s (0, .run true) = writePage s 0 o r true := by
  simp [step, hpc, Pc.wakes, stepOk]

lemma step_flushDone (hpc : s.pc 0 = .flushDone o true r) (hlock : s.lock = none) :
    step cfg s (0, .run true) = flushFinish cfg { s with lock := some 0 } 0 o true r := by
  simp [step, hpc, Pc.wakes, hlock, sleeping, stepWake]

lemma evictPage_free (r : EvictRet) (ha : s.cache.pages.lookup a = some o) (hfree : Free s.cache o) :
    evictPage cfg s 0 a r = flushPage cfg s 0 o (.evict a r) := by
  obtain ⟨hpinned, hrefs, hidle⟩ := hfree
  unfold evictPage
  rw [ha]
  simp [hidle, evictChecked, hpinned, hrefs]

lemma Evicted.cons (h : Evicted cfg 0 (step cfg s (0, .run true)) ret)
    (hpages : (step cfg s (0, .run true)).cache.pages = s.cache.pages) : Evicted cfg 0 s ret := by
  obtain ⟨k, s', b, hb, hs', hrun⟩ := h
  rw [hpages] at hb hs'
  exact ⟨k + 1, s', b, hb, hs', by rw [replicate_succ, run_cons, hrun]⟩

lemma flushPage_evicted {b : ℕ} (hb : b ∈ s.cache.pages) (hidle : s.cache.busy o = false)
    (hstep : step cfg s' (0, .run true) = flushPage cfg s 0 o (.evict b (.one ret)))
    (hpages : s'.cache.pages = s.cache.pages) : Evicted cfg 0 s' ret := by
  rw [flushPage, if_neg (by rw [hidle]; exact Bool.false_ne_true)] at hstep
  cases hd : (s.cache.heap o).dirty with
  | false =>
    rw [hd, Bool.not_false, if_pos rfl] at hstep
    exact ⟨1, s.withCache (s.cache.dropped b o), b, hpages ▸ hb, by rw [hpages]; rfl, hstep⟩
  | true =>
    rw [hd, Bool.not_true, if_neg Bool.false_ne_true] at hstep
    let written := writePage (step cfg s' (0, .run true)) 0 o (.evict b (.one ret)) true
    let clean := Sys.modify { written with lock := some 0 } o fun p =>
      if true then { p with dirty := false, state := .residentClean } else { p with state := .residentDirty }
    refine ⟨3, clean.withCache (clean.cache.dropped b o), b, hpages ▸ hb, ?_, ?_⟩
    · change (step cfg s' (0, .run true)).cache.pages.erase b = _
      rw [hpages, hstep]
      rfl
    · have hfirst : (step cfg s' (0, .run true)).pc 0 = .flushWrite o (.evict b (.one ret)) := by
        rw [hstep]
        simp [Sys.release]
      have hlock : (step cfg s' (0, .run true)).lock = none := by rw [hstep]; rfl
      have hsecond : step cfg (step cfg s' (0, .run true)) (0, .run true) = written := step_flushWrite hfirst
      have hthird : step cfg written (0, .run true) = flushFinish cfg { written with lock := some 0 } 0 o true
          (.evict b (.one ret)) := step_flushDone (by simp [written, writePage]) hlock
      simp only [replicate_succ, replicate_zero, run_cons, Core.run_nil, hsecond, hthird]
      rfl

/-- The clock comes round. With turns enough to reach a free page it evicts that page or one before. -/
lemma evictOne_evicted (k : ℕ) (hpc : s.pc 0 = .evictOne k ret) (ht : Tracks s.cache [])
    (hinj : ∀ b, s.cache.pages.lookup b = some o → b = a) (ha : s.cache.pages.lookup a = some o)
    (hfree : Free s.cache o) (hturns : s.cache.clockQueue.idxOf a +
      (if (s.cache.heap o).accessed = true then s.cache.clockQueue.length else 0) < k) : Evicted cfg 0 s ret := by
  have hmem : a ∈ s.cache.clockQueue := ht.mem_queue (Finmap.mem_iff.mpr ⟨o, ha⟩)
  induction k generalizing s with
  | zero => omega
  | succ k ih =>
    have hstep := step_evictOne cfg hpc
    cases hq : s.cache.clockQueue with
    | nil => rw [hq] at hmem; cases hmem
    | cons b queue =>
      have hb : b ∈ s.cache.pages := ht.mem_pages (by rw [hq]; simp)
      obtain ⟨x, hx⟩ := Finmap.mem_iff.mp hb
      have hrotate := ht.rotate hq
      have hlen : (queue ++ [b]).length = s.cache.clockQueue.length := by rw [hq]; simp
      unfold evictOne at hstep
      rw [hq] at hstep
      simp only [hx] at hstep
      -- a turn that passes over `b ≠ a`
      have hpass : b ≠ a → (queue ++ [b]).idxOf a + 1 = s.cache.clockQueue.idxOf a := by
        intro hba
        have haq : a ∈ queue := by
          rw [hq] at hmem
          exact (List.mem_cons.mp hmem).resolve_left (Ne.symm hba)
        rw [hq, idxOf_append_of_mem haq, idxOf_cons, beq_eq_false_iff_ne.mpr hba, cond_false]
      split_ifs at hstep with hkept haccessed
      · -- `b` is pinned, held or busy: it is not the free page
        have hba : b ≠ a := by
          rintro rfl
          rw [ha] at hx
          cases hx
          simp [hfree.1, hfree.2.1, hfree.2.2] at hkept
        have hpass' := hpass hba
        refine Evicted.cons ?_ (by rw [hstep]; rfl)
        rw [hstep]
        refine ih (by simp) hrotate hinj ha hfree ?_ (hrotate.mem_queue (Finmap.mem_iff.mpr ⟨o, ha⟩))
        change (queue ++ [b]).idxOf a + (if (s.cache.heap o).accessed = true then (queue ++ [b]).length else 0) < k
        rw [hlen]
        omega
      · -- `b` was accessed: its flag is cleared
        refine Evicted.cons ?_ (by rw [hstep]; rfl)
        rw [hstep]
        have hfree' : Free ({ s.cache with clockQueue := queue ++ [b] }.modify x fun p => { p with accessed := false })
            o := by
          refine ⟨?_, ?_, ?_⟩
          · rw [modify_field _ x PageMeta.pinned rfl]; exact hfree.1
          · rw [modify_field _ x PageMeta.refcnt rfl]; exact hfree.2.1
          · rw [busy_modify _ x rfl]; exact hfree.2.2
        refine ih (by simp) (hrotate.congr rfl rfl) hinj ha hfree' ?_
          (hrotate.mem_queue (Finmap.mem_iff.mpr ⟨o, ha⟩))
        change (queue ++ [b]).idxOf a + (if (Function.update s.cache.heap x
          { s.cache.heap x with accessed := false } o).accessed = true then (queue ++ [b]).length else 0) < k
        rw [hlen]
        by_cases hba : b = a
        · subst hba
          rw [ha] at hx
          cases hx
          have hidx := List.idxOf_lt_length_iff.mpr (hrotate.mem_queue (Finmap.mem_iff.mpr ⟨o, ha⟩))
          rw [Function.update_self, if_neg Bool.false_ne_true]
          rw [if_pos haccessed] at hturns
          change (queue ++ [b]).idxOf b < (queue ++ [b]).length at hidx
          omega
        · have hxo : o ≠ x := fun h => hba (hinj b (h ▸ hx))
          have hpass' := hpass hba
          rw [Function.update_of_ne hxo]
          omega
      · -- `b` is the victim
        have hvictim : Free s.cache x := by simpa [Free, and_assoc] using hkept
        refine flushPage_evicted (s := s.withCache { s.cache with clockQueue := queue }) hb hvictim.2.2 ?_ rfl
        rw [hstep]
        exact evictPage_free (.one ret) hx hvictim

end Progress

/-! ## Result -/

def Evictable (c : Cache) : Prop := ∃ a o, c.pages.lookup a = some o ∧ (c.heap o).pinned = false ∧
  (c.heap o).dirty = false ∧ (c.heap o).refcnt = 0

lemma Pc.quiet_of_holding {p : Pc} (h : p = .idle ∨ p.holding = true) : p.victim = [] ∧ ∀ o, p.owns o = 0 := by
  rcases h with rfl | h
  · exact ⟨rfl, fun _ => rfl⟩
  · cases p <;> first | exact ⟨rfl, fun _ => rfl⟩ | cases h

lemma clockInv_run (cfg : SsdStreamingConfig) (content : ℕ → Buf) (ls : List (Fin 1 × Choice))
    (hkeeps : AllSteps (step cfg) (KeepsClock cfg) (start 1 content) ls) :
    ArrayInv cfg (flat cfg content) (run (step cfg) (start 1 content) ls) ∧
      ClockInv 0 (run (step cfg) (start 1 content) ls) := by
  refine Core.run_inv (P := fun s => ArrayInv cfg (flat cfg content) s ∧ ClockInv 0 s)
    (fun s l hs hl => ⟨arrayInv_step hs.1 l, clockInv_step hs.1 hs.2 l hl⟩) ⟨arrayInv_start content, ?_⟩ hkeeps
  intro p
  simp [start, Pc.victim, Finmap.notMem_empty]

/-- As long as `evict_after` erases nothing and no write-back of a clock victim fails, the clock queue has every page of
the map once, and `evict_one_locked` evicts a page if some page can be. -/
theorem clock_in_step (cfg : SsdStreamingConfig) (content : ℕ → Buf) (ls : List (Fin 1 × Choice))
    (hkeeps : AllSteps (step cfg) (KeepsClock cfg) (start 1 content) ls) :
    let s := run (step cfg) (start 1 content) ls
    s.pc 0 = .idle ∨ (s.pc 0).holding = true →
      InStep s.cache ∧ (Evictable s.cache → ∀ ret, Evicted cfg 0 (callEvictOne cfg { s with lock := some 0 } 0 ret) ret) := by
  intro s hplace
  obtain ⟨harray, hclock⟩ := clockInv_run cfg content ls hkeeps
  obtain ⟨hvictim, howns⟩ := Pc.quiet_of_holding hplace
  have ht : Tracks s.cache [] := by
    rw [← hvictim]
    exact hclock
  refine ⟨tracks_nil.mp ht, ?_⟩
  rintro ⟨a, o, ha, hpinned, -, hrefs⟩ ret
  have hidle : s.cache.busy o = false := by
    by_contra hb
    rw [Bool.not_eq_false] at hb
    obtain ⟨t, hown⟩ := harray.inv.owner_of_busy hb
    obtain rfl : t = 0 := Subsingleton.elim _ _
    exact hown (howns o)
  have hmem : a ∈ s.cache.pages := Finmap.mem_iff.mpr ⟨o, ha⟩
  have hsize : s.cache.size ≠ 0 := Finset.card_ne_zero_of_mem (Finmap.mem_keys.mpr hmem)
  have hcall : callEvictOne cfg { s with lock := some 0 } 0 ret =
      { s with lock := some 0 }.goto 0 (.evictOne (s.cache.clockQueue.length * 2 + 1) ret) := if_neg hsize
  rw [hcall]
  refine evictOne_evicted (a := a) (o := o) _ (goto_pc_self) ht (fun b hb => ?_) ha ⟨hpinned, hrefs, hidle⟩ ?_
  · exact (harray.inv.cache.mapped b o hb).1.symm.trans (harray.inv.cache.mapped a o ha).1
  · have hidx := List.idxOf_lt_length_iff.mpr (ht.mem_queue hmem)
    change s.cache.clockQueue.idxOf a +
      (if (s.cache.heap o).accessed = true then s.cache.clockQueue.length else 0) < s.cache.clockQueue.length * 2 + 1
    split_ifs <;> omega

def writeThenRead (t : Fin n) (written : Bool) : List (Fin n × Choice) :=
  (t, Choice.call (.write 0 1 fun _ => 7)) :: List.replicate 8 (t, Choice.run true) ++
    (t, Choice.call (.read 512 1)) :: List.replicate 5 (t, Choice.run true) ++ [(t, Choice.run written)]

theorem clock_in_step_turn :
    (run (step tinyConfig) (start 1 fun _ _ => 0) (writeThenRead 0 true ++ List.replicate 8 (0, .run true))).pc 0 = .idle ∧
    InStep (run (step tinyConfig) (start 1 fun _ _ => 0)
      (writeThenRead 0 true ++ List.replicate 8 (0, .run true))).cache ∧
    Evicted tinyConfig 0 (callEvictOne tinyConfig { run (step tinyConfig) (start 1 fun _ _ => 0)
      (writeThenRead 0 true ++ List.replicate 8 (0, .run true)) with lock := some 0 } 0 (.room (.streaming 0 0)))
      (.room (.streaming 0 0)) := by
  have h := clock_in_step tinyConfig (fun _ _ => 0) (writeThenRead 0 true ++ List.replicate 8 (0, .run true)) (by decide)
    (.inl (by rfl))
  exact ⟨by rfl, h.1, h.2 ⟨1, 1, by decide⟩ _⟩

def lostRun (t : Fin n) : List (Fin n × Choice) :=
  writeThenRead t false ++ (t, Choice.run true) :: (t, Choice.call .flush) :: (t, Choice.snapshot [0]) ::
    List.replicate 4 (t, Choice.run true)

/-- A lost page. After the failed write-back page 0 is in the map and not in the queue. -/
theorem lost_page :
    let s := run (step tinyConfig) (start 1 fun _ _ => 0) (lostRun 0)
    s.pc 0 = .idle ∧ ¬ InStep s.cache ∧ Evictable s.cache ∧
      ∀ ret, step tinyConfig (callEvictOne tinyConfig { s with lock := some 0 } 0 ret) (0, .run true) =
        oneReturn tinyConfig (callEvictOne tinyConfig { s with lock := some 0 } 0 ret) 0 ret false := by
  refine ⟨by rfl, fun h => absurd (h 0) (by decide), ⟨0, 0, by decide⟩, fun ret => ?_⟩
  rfl

lemma stale_number : let written : List (Fin 1 × Choice) :=
      (0, Choice.call (.write 0 1 fun _ => 7)) :: List.replicate 8 (0, Choice.run true)
    let evicted := written ++ (0, Choice.call (.evictAfter 0 1)) :: List.replicate 5 (0, Choice.run true)
    let again := evicted ++ (0, Choice.call (.read 0 1)) :: List.replicate 9 (0, Choice.run true)
    (run (step tinyConfig) (start 1 fun _ _ => 0) evicted).pc 0 = .idle ∧
    ¬ InStep (run (step tinyConfig) (start 1 fun _ _ => 0) evicted).cache ∧
    (run (step tinyConfig) (start 1 fun _ _ => 0) again).pc 0 = .idle ∧
    (run (step tinyConfig) (start 1 fun _ _ => 0) again).cache.clockQueue = [0, 0] := by
  exact ⟨by rfl, fun h => absurd (h 0) (by decide), by rfl, by decide⟩

end CxlMemSim.Ssd
