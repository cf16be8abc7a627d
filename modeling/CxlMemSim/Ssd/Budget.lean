/-
What a step can do to the page table, the clock queue and the busy pages, and the budget of the cache. A part of the
source between two releases of `mutex_` changes `pages_` and `clock_queue_` in at most one place; the rest is `Calm`.
-/
import CxlMemSim.Ssd.Changes

namespace CxlMemSim.Ssd

open CxlMemSim.Core

variable {n : ℕ} {cfg : SsdStreamingConfig} {s s' : Sys n} {t : Fin n} {v : List ℕ} {f : PageMeta → PageMeta}

def EvictRet.victim (a : ℕ) : EvictRet → List ℕ
  | .one _ => [a]
  | .after _ _ _ => []

def FlushRet.victim : FlushRet → List ℕ
  | .evict a ret => ret.victim a
  | .flush _ _ _ => []

def Pc.victim : Pc → List ℕ
  | .flushWrite _ ret => ret.victim
  | .flushDone _ _ ret => ret.victim
  | .flushWait _ ret => ret.victim
  | .evictWait a _ ret => ret.victim a
  | _ => []

def Pc.waitsOn : Pc → Option ObjId
  | .ensureWait _ o => some o
  | .evictWait _ o _ => some o
  | .flushWait o _ => some o
  | _ => none

/-! ## Calm steps -/

/-- thread `t` moved, evicting `v` for the clock; a page busy now was so before, or `t` does its I/O -/
structure Calm (v : List ℕ) (s s' : Sys n) (t : Fin n) : Prop where
  pages : s'.cache.pages = s.cache.pages
  queue : s'.cache.clockQueue = s.cache.clockQueue
  others : ∀ t', t' ≠ t → s'.pc t' = s.pc t'
  victim : (s'.pc t).victim = v
  busy : ∀ o, s'.cache.busy o = true → s.cache.busy o = true ∨ (s'.pc t).owns o ≠ 0
  waits : ∀ o, (s'.pc t).waitsOn = some o → s'.cache.busy o = true

lemma busy_modify (c : Cache) (o : ObjId) (h : (f (c.heap o)).state = (c.heap o).state)
    (x : ObjId) : (c.modify o f).busy x = c.busy x := by
  unfold Cache.busy
  rw [modify_field c o PageMeta.state h]

variable {c' : Cache} {o : ObjId} {a : ℕ} {x : ObjId}

lemma busy_of_idle {c : Cache} (hne : ∀ x, x ≠ o → c'.heap x = c.heap x)
    (ho : (c'.heap o).state.busy = false) (hx : c'.busy x = true) : x ≠ o ∧ c.busy x = true := by
  have hxo : x ≠ o := by
    rintro rfl
    rw [Cache.busy, ho] at hx
    cases hx
  refine ⟨hxo, ?_⟩
  rwa [Cache.busy, hne x hxo] at hx

lemma busy_modify_idle (c : Cache) (o : ObjId)
    (h : (f (c.heap o)).state.busy = false) (hx : (c.modify o f).busy x = true) : x ≠ o ∧ c.busy x = true :=
  busy_of_idle (fun _ => modify_heap_ne c f) (by rwa [modify_heap_self]) hx

section Rules

variable {c : Cache} {p : Pc} {f : PageMeta → PageMeta}

lemma calm_goto (hpages : c.pages = s.cache.pages) (hqueue : c.clockQueue = s.cache.clockQueue)
    (hv : p.victim = v) (hbusy : ∀ o, c.busy o = true → s.cache.busy o = true ∨ p.owns o ≠ 0)
    (hwaits : ∀ o, p.waitsOn = some o → c.busy o = true) : Calm v s ((s.withCache c).goto t p) t where
  pages := hpages
  queue := hqueue
  others := fun t' ht' => by rw [goto_pc_other ht', withCache_pc]
  victim := by rw [goto_pc_self, hv]
  busy := fun o ho => by rw [goto_pc_self]; exact hbusy o ho
  waits := fun o ho => by rw [goto_pc_self] at ho; exact hwaits o ho

lemma Calm.congr {s'' : Sys n} (h : Calm v s s' t) (hcache : s''.cache = s'.cache) (hpc : s''.pc = s'.pc) :
    Calm v s s'' t where
  pages := hcache ▸ h.pages
  queue := hcache ▸ h.queue
  others := fun t' ht' => hpc ▸ h.others t' ht'
  victim := hpc ▸ h.victim
  busy := fun o ho => by rw [hcache] at ho; rw [hpc]; exact h.busy o ho
  waits := fun o ho => by rw [hpc] at ho; rw [hcache]; exact h.waits o ho

lemma Calm.of_cache (h : Calm v (s.withCache c) s' t) (hpages : c.pages = s.cache.pages)
    (hqueue : c.clockQueue = s.cache.clockQueue) (hbusy : ∀ o, c.busy o = s.cache.busy o) : Calm v s s' t where
  __ := h
  pages := h.pages.trans hpages
  queue := h.queue.trans hqueue
  busy := fun o ho => by rw [← hbusy o]; exact h.busy o ho

lemma calm_move (hv : p.victim = v) (hw : p.waitsOn = none) : Calm v s (s.goto t p) t :=
  calm_goto (c := s.cache) rfl rfl hv (fun _ ho => .inl ho) fun o ho => by rw [hw] at ho; cases ho

lemma calm_sleep (hv : p.victim = v) (hw : p.waitsOn = some o) (hb : s.cache.busy o = true) :
    Calm v s (s.release t p) t :=
  (calm_goto (t := t) (c := s.cache) rfl rfl hv (fun _ ho => .inl ho) fun x hx => by
    rw [hw] at hx
    cases hx
    exact hb).congr rfl rfl

lemma calm_finish (e : Event) : Calm [] s (s.finish t e) t :=
  (calm_move (s := s) (t := t) (p := .idle) rfl rfl).congr rfl rfl

lemma calm_modify (hv : p.victim = v) (hw : p.waitsOn = none)
    (hst : (f (s.cache.heap o)).state = (s.cache.heap o).state ∨ (f (s.cache.heap o)).state.busy = false) :
    Calm v s ((s.modify o f).goto t p) t := by
  refine calm_goto (c := s.cache.modify o f) rfl rfl hv (fun x hx => .inl ?_) fun x hx => by rw [hw] at hx; cases hx
  rcases hst with hst | hst
  · rwa [busy_modify _ o hst] at hx
  · exact (busy_modify_idle _ o hst hx).2

lemma calm_start (hv : p.victim = v) (hw : p.waitsOn = none)
    (howns : p.owns o ≠ 0) : Calm v s ((s.modify o f).release t p) t := by
  refine (calm_goto (t := t) (c := s.cache.modify o f) rfl rfl hv (fun x hx => ?_)
    fun x hx => by rw [hw] at hx; cases hx).congr rfl rfl
  by_cases hxo : x = o
  · exact .inr (hxo ▸ howns)
  · rw [Cache.busy, modify_heap_ne _ f hxo] at hx
    exact .inl hx

end Rules

/-! ## The parts of the source -/

lemma loadReturn_calm (o : ObjId) (ret : LoadRet) (ok : Bool) : Calm [] s (loadReturn s t o ret ok) t := by
  unfold loadReturn
  cases ret with
  | ahead job x i => exact calm_move rfl rfl
  | demand job =>
    dsimp only
    split_ifs
    · exact calm_modify (p := .ahead job o 1) rfl rfl (.inl rfl)
    · exact calm_move rfl rfl
    · exact calm_finish _

lemma loadPage_calm (o : ObjId) (ret : LoadRet) : Calm [] s (loadPage cfg s t o ret) t := by
  unfold loadPage
  split_ifs
  · exact loadReturn_calm o ret false
  · exact calm_start rfl rfl (by simp [Pc.owns, Pc.loading])

lemma aheadStop_calm (job : Job) (x : ObjId) : Calm [] s (aheadStop s t job x) t := calm_modify rfl rfl (.inl rfl)

lemma oneReturn_calm (ret : OneRet) (ok : Bool) : Calm [] s (oneReturn cfg s t ret ok) t := by
  unfold oneReturn
  split
  · exact calm_move rfl rfl
  · exact calm_finish _
  · exact aheadStop_calm _ _
  · exact calm_finish _
  · exact calm_move rfl rfl
  · exact loadPage_calm _ (.demand _)
  · exact calm_move rfl rfl

lemma evictReturn_calm (ret : EvictRet) (ok : Bool) : Calm [] s (evictReturn cfg s t ret ok) t := by
  unfold evictReturn
  cases ret with
  | one ret => exact oneReturn_calm ret ok
  | after a last acc => exact calm_move rfl rfl

lemma flushReturn_erases (cfg : SsdStreamingConfig) (a : ℕ) (o : ObjId) (ret : EvictRet) :
    Calm [] (s.withCache (s.cache.dropped a o)) (flushReturn cfg s t o (.evict a ret) true) t :=
  (evictReturn_calm (s := s.withCache (s.cache.dropped a o)) ret true).congr rfl rfl

lemma flushReturn_calm {ret : FlushRet} {ok : Bool} (h : ok = true → ∀ a r, ret ≠ .evict a r) :
    Calm [] s (flushReturn cfg s t o ret ok) t := by
  unfold flushReturn
  cases ret with
  | flush a b acc => exact calm_move rfl rfl
  | evict a r =>
    cases ok with
    | true => exact absurd rfl (h rfl a r)
    | false => exact evictReturn_calm r false

lemma callEvictOne_calm (ret : OneRet) : Calm [] s (callEvictOne cfg s t ret) t := by
  unfold callEvictOne
  split_ifs
  · exact oneReturn_calm ret true
  · exact calm_move rfl rfl

lemma ensureChecked_calm (job : Job) (o : ObjId) : Calm [] s (ensureChecked s t job o) t := by
  unfold ensureChecked
  split_ifs
  · exact calm_modify rfl rfl (.inl rfl)
  · exact calm_move rfl rfl

lemma trimStep_calm (r : Trim) : Calm [] s (trimStep cfg s t r) t := by
  unfold trimStep
  split_ifs
  · exact callEvictOne_calm (.trim r)
  · cases r with
    | demand job o => exact loadPage_calm o (.demand job)
    | ahead job x i => exact calm_move rfl rfl

lemma useLoaded_calm (job : Job) : Calm [] s (useLoaded cfg s t job) t := by
  unfold useLoaded
  cases job with
  | prefetch p last => exact calm_move rfl rfl
  | pin p last =>
    dsimp only
    split
    · exact (calm_move (p := .threw) rfl rfl).congr rfl rfl
    · exact calm_modify rfl rfl (.inl rfl)
  | read addr size copied dst =>
    dsimp only
    split
    · exact (calm_move (p := .threw) rfl rfl).congr rfl rfl
    · exact calm_move rfl rfl
  | write addr size copied src =>
    dsimp only
    split
    · exact (calm_move (p := .threw) rfl rfl).congr rfl rfl
    · next o ho =>
      let len := chunk cfg (addr + copied) (size - copied)
      let store (b : Buf) : Buf := memcpy b ((addr + copied) % cfg.ps) src copied len
      have hcalm : Calm [] s ((s.withCache (s.cache.stored ((addr + copied) / cfg.ps) o store)).goto t
          (.loop (.write addr size (copied + len) src))) t := by
        refine calm_goto rfl rfl rfl (fun x hx => .inl ?_) fun x hx => by cases hx
        exact (busy_of_idle (fun y hy => heap_stored_ne s.cache _ _ hy) (by rw [heap_stored_self]; rfl) hx).2
      exact hcalm

lemma unpinLoopStep_calm (a last : ℕ) : Calm [] s (unpinLoopStep s t a last) t := by
  unfold unpinLoopStep
  split_ifs
  · split
    · exact calm_move rfl rfl
    · exact calm_modify rfl rfl (.inl rfl)
  · exact calm_finish _

lemma flushStart_calm (order : List ℕ) : Calm [] s (flushStart s t order) t :=
  calm_goto rfl rfl rfl (fun _ hx => .inl hx) fun x hx => by cases hx

lemma flushPage_calm_flush {snapshot rest : List ObjId} {acc : Bool} :
    Calm [] s (flushPage cfg s t o (.flush snapshot rest acc)) t := by
  unfold flushPage
  split_ifs with hb
  · exact calm_sleep rfl rfl hb
  · exact flushReturn_calm fun _ _ _ h => by cases h
  · exact calm_start rfl rfl (by simp [Pc.owns, Pc.flushing])

lemma flushLoopStep_calm (snapshot rest : List ObjId) (acc fsync : Bool) :
    Calm [] s (flushLoopStep cfg s t snapshot rest acc fsync) t := by
  unfold flushLoopStep
  split
  · exact flushPage_calm_flush
  · exact (calm_finish _).of_cache rfl rfl fun _ => rfl

/-! ### Evictions -/

/-- an eviction of page `a`, object `o`, sleeps or starts the write-back, gives up, or erases the page -/
inductive Evicts (cfg : SsdStreamingConfig) (s s' : Sys n) (t : Fin n) (a : ℕ) (o : ObjId) (ret : EvictRet) : Prop
  | waits : Calm (ret.victim a) s s' t → Evicts cfg s s' t a o ret
  | refused : ((s.cache.heap o).pinned || (s.cache.heap o).refcnt ≠ 0) = true → Calm [] s s' t →
      Evicts cfg s s' t a o ret
  | erased : (s.cache.heap o).dirty = false → Calm [] (s.withCache (s.cache.dropped a o)) s' t →
      Evicts cfg s s' t a o ret

lemma flushPage_evicts (a : ℕ) (o : ObjId) (ret : EvictRet) :
    Evicts cfg s (flushPage cfg s t o (.evict a ret)) t a o ret := by
  unfold flushPage
  split_ifs with hb hd
  · exact .waits (calm_sleep rfl rfl hb)
  · exact .erased (by simpa using hd) (flushReturn_erases cfg a o ret)
  · exact .waits (calm_start rfl rfl (by simp [Pc.owns, Pc.flushing]))

lemma evictChecked_evicts (a : ℕ) (o : ObjId) (ret : EvictRet) :
    Evicts cfg s (evictChecked cfg s t a o ret) t a o ret := by
  unfold evictChecked
  split_ifs with h
  · exact .refused h (evictReturn_calm ret false)
  · exact flushPage_evicts a o ret

lemma evictPage_evicts (cfg : SsdStreamingConfig) (ret : EvictRet) (ho : s.cache.pages.lookup a = some o) :
    Evicts cfg s (evictPage cfg s t a ret) t a o ret := by
  unfold evictPage
  rw [ho]
  dsimp only
  split_ifs with hb
  · exact .waits (calm_sleep rfl rfl hb)
  · exact evictChecked_evicts a o ret

lemma evictPage_absent (ret : EvictRet) (ho : s.cache.pages.lookup a = none) :
    Calm [] s (evictPage cfg s t a ret) t := by
  unfold evictPage
  rw [ho]
  exact evictReturn_calm ret true

/-! ### Pages found or created -/

inductive Got (c : Cache) (a : ℕ) : Cache → Prop
  | found : Got c a c
  | created : c.pages.lookup a = none → Got c a (c.create a)

lemma got_getOrCreate {c : Cache} {alloc : Bool} (h : c.getOrCreate a alloc = some (c', o)) : Got c a c' := by
  unfold Cache.getOrCreate at h
  split at h
  · cases h
    exact .found
  · next hnone =>
    split_ifs at h
    cases h
    exact .created hnone

lemma Got.eq_of_isSome {c : Cache} (h : Got c a c') (hsome : (c.pages.lookup a).isSome = true) : c' = c := by
  cases h with
  | found => rfl
  | created hnone => rw [hnone] at hsome; cases hsome

def Gets (s s' : Sys n) (t : Fin n) (a : ℕ) : Prop := ∃ c, Got s.cache a c ∧ Calm [] (s.withCache c) s' t

lemma Calm.gets (h : Calm [] s s' t) (a : ℕ) : Gets s s' t a := ⟨s.cache, .found, h⟩

lemma Gets.calm (h : Gets s s' t a) (hsome : (s.cache.pages.lookup a).isSome = true) : Calm [] s s' t := by
  obtain ⟨c, hgot, hcalm⟩ := h
  rwa [hgot.eq_of_isSome hsome] at hcalm

lemma ensureGet_gets (job : Job) (alloc : Bool) : Gets s (ensureGet cfg s t job alloc) t (job.page cfg) := by
  unfold ensureGet
  split
  · exact (calm_finish _).gets _
  · next c o hget =>
    refine ⟨c, got_getOrCreate hget, ?_⟩
    split_ifs with hb
    · exact calm_sleep rfl rfl hb
    · exact ensureChecked_calm job o

lemma aheadGet_gets (job : Job) (x : ObjId) (i : UInt32) (alloc : Bool) :
    Gets s (aheadGet cfg s t job x i alloc) t (job.page cfg + i.toNat) := by
  unfold aheadGet
  split
  · exact (aheadStop_calm job x).gets _
  · next c o hget =>
    refine ⟨c, got_getOrCreate hget, ?_⟩
    split_ifs
    · exact loadPage_calm o (.ahead job x i)
    · exact calm_move rfl rfl

lemma streamGet_gets (a last : ℕ) (alloc : Bool) : Gets s (streamGet s t a last alloc) t a := by
  unfold streamGet
  split
  · exact (calm_finish _).gets _
  · next c o hget => exact ⟨c, got_getOrCreate hget, calm_modify rfl rfl (.inl rfl)⟩

lemma roomStep_gets (cfg : SsdStreamingConfig) (s : Sys n) (t : Fin n) (r : Room) (alloc : Bool) :
    Calm [] s (roomStep cfg s t r alloc) t ∨
      (¬ (s.cache.size ≥ cfg.cachePages ∧ s.cache.size ≠ 0)) ∧ ∃ a, Gets s (roomStep cfg s t r alloc) t a := by
  unfold roomStep
  split_ifs with hfull
  · exact .inl (callEvictOne_calm (.room r))
  · refine .inr ⟨hfull, ?_⟩
    cases r with
    | demand job => exact ⟨_, ensureGet_gets job alloc⟩
    | ahead job x i => exact ⟨_, aheadGet_gets job x i alloc⟩
    | streaming a last => exact ⟨_, streamGet_gets a last alloc⟩

lemma loopStep_calm (job : Job) (alloc : Bool) : Calm [] s (loopStep cfg s t job alloc) t := by
  unfold loopStep ensure
  split_ifs with hmore hsome
  · exact (ensureGet_gets job alloc).calm hsome
  · exact calm_move rfl rfl
  · exact calm_finish _

lemma aheadStep_calm (job : Job) (x : ObjId) (i : UInt32) (alloc : Bool) :
    Calm [] s (aheadStep cfg s t job x i alloc) t := by
  unfold aheadStep
  split_ifs with hmore hsome
  · exact (aheadGet_gets job x i alloc).calm hsome
  · exact calm_move rfl rfl
  · exact aheadStop_calm job x

lemma streamLoopStep_calm (a last : ℕ) (alloc : Bool) : Calm [] s (streamLoopStep s t a last alloc) t := by
  unfold streamLoopStep
  split_ifs with hmore hsome
  · exact (streamGet_gets a last alloc).calm hsome
  · exact calm_move rfl rfl
  · exact calm_finish _

/-! ### Transfers -/

lemma readPage_calm (ret : LoadRet) (ok : Bool) : Calm [] s (readPage s t o ret ok) t := by
  unfold readPage
  split_ifs
  · exact calm_modify rfl rfl (.inl rfl)
  · exact calm_move rfl rfl

lemma writePage_calm (ret : FlushRet) (ok : Bool) : Calm ret.victim s (writePage s t o ret ok) t := by
  unfold writePage
  split_ifs
  · exact calm_goto rfl rfl rfl (fun _ hx => .inl hx) fun x hx => by cases hx
  · exact calm_move rfl rfl

/-! ## The budget -/

lemma Calm.size (h : Calm v s s' t) : s'.cache.size = s.cache.size := by
  unfold Cache.size
  rw [h.pages]

lemma size_dropped_le (c : Cache) (a : ℕ) (o : ObjId) : (c.dropped a o).size ≤ c.size := by
  unfold Cache.size Cache.dropped
  rw [Finmap.keys_erase]
  exact Finset.card_le_card (Finset.erase_subset _ _)

lemma Evicts.size_le {ret : EvictRet} (h : Evicts cfg s s' t a o ret) : s'.cache.size ≤ s.cache.size := by
  cases h with
  | waits h | refused _ h => exact h.size.le
  | erased _ h => exact h.size.le.trans (size_dropped_le _ a o)

lemma Gets.size_le (h : Gets s s' t a) (hs : s.cache.size ≤ cfg.cachePages)
    (hroom : ¬ (s.cache.size ≥ cfg.cachePages ∧ s.cache.size ≠ 0)) : s'.cache.size ≤ cfg.cachePages := by
  have hpos := cfg.cache_pos
  obtain ⟨c, hgot, hcalm⟩ := h
  rw [hcalm.size]
  cases hgot with
  | found => exact hs
  | created _ =>
    refine (size_create_le s.cache a).trans ?_
    omega

lemma evictOne_size_le (k : ℕ) (ret : OneRet) : (evictOne cfg s t k ret).cache.size ≤ s.cache.size := by
  unfold evictOne
  split
  · exact (oneReturn_calm ret false).size.le
  · exact (oneReturn_calm ret false).size.le
  · next k a queue hqueue =>
    dsimp only
    split
    · exact le_rfl
    · next o ho =>
      split_ifs
      · exact le_rfl
      · exact le_rfl
      · exact (evictPage_evicts cfg (s := s.withCache { s.cache with clockQueue := queue }) (.one ret) ho).size_le

lemma evictLoopStep_size_le (a last : ℕ) (acc : Bool) :
    (evictLoopStep cfg s t a last acc).cache.size ≤ s.cache.size := by
  unfold evictLoopStep
  split_ifs
  · cases ho : s.cache.pages.lookup a with
    | none => exact (evictPage_absent _ ho).size.le
    | some o => exact (evictPage_evicts cfg _ ho).size_le
  · exact (calm_finish _).size.le

lemma flushReturn_size_le (o : ObjId) (ret : FlushRet) (ok : Bool) :
    (flushReturn cfg s t o ret ok).cache.size ≤ s.cache.size := by
  cases ret with
  | flush a b acc => exact (flushReturn_calm fun _ _ _ h => by cases h).size.le
  | evict a r =>
    cases ok with
    | true => exact (flushReturn_erases cfg a o r).size.le.trans (size_dropped_le _ a o)
    | false => exact (flushReturn_calm fun h => by cases h).size.le

lemma flushPage_size_le (o : ObjId) (ret : FlushRet) : (flushPage cfg s t o ret).cache.size ≤ s.cache.size := by
  cases ret with
  | flush a b acc => exact flushPage_calm_flush.size.le
  | evict a r => exact (flushPage_evicts a o r).size_le

lemma stepOk_budget (hs : s.cache.size ≤ cfg.cachePages) (ok : Bool) :
    (stepOk cfg s t ok).cache.size ≤ cfg.cachePages := by
  unfold stepOk
  split
  · exact (loopStep_calm _ ok).size.le.trans hs
  · next r _ =>
    rcases roomStep_gets cfg s t r ok with hcalm | ⟨hroom, a, hgets⟩
    · exact hcalm.size.le.trans hs
    · exact hgets.size_le hs hroom
  · exact (evictOne_size_le _ _).trans hs
  · exact (trimStep_calm _).size.le.trans hs
  · exact (aheadStep_calm _ _ _ ok).size.le.trans hs
  · exact (useLoaded_calm _).size.le.trans hs
  · exact (readPage_calm _ ok).size.le.trans hs
  · exact (writePage_calm _ ok).size.le.trans hs
  · exact (evictLoopStep_size_le _ _ _).trans hs
  · exact (streamLoopStep_calm _ _ ok).size.le.trans hs
  · exact (unpinLoopStep_calm _ _).size.le.trans hs
  · exact (flushLoopStep_calm _ _ _ ok).size.le.trans hs
  · exact hs

lemma stepWake_size_le : (stepWake cfg s t).cache.size ≤ s.cache.size := by
  unfold stepWake
  split
  · exact (loadReturn_calm (s := s.modify _ _) _ _ _).size.le
  · exact flushReturn_size_le (s := s.modify _ _) _ _ _
  · exact (ensureChecked_calm _ _).size.le
  · exact (evictChecked_evicts _ _ _).size_le
  · exact flushPage_size_le _ _
  · exact le_rfl

lemma enter_size (call : Call) (ch : Choice) : (enter cfg s t call ch).cache.size = s.cache.size := by
  unfold enter
  split
  · split_ifs
    · exact (flushStart_calm (s := { s with lock := some t }) _).size
    · rfl
  · rfl
  · rfl

lemma budget_step (hs : s.cache.size ≤ cfg.cachePages) (l : Fin n × Choice) :
    (step cfg s l).cache.size ≤ cfg.cachePages := by
  unfold step
  dsimp only
  split
  · split <;> exact hs
  · exact hs
  · split_ifs
    · exact (enter_size _ _).le.trans hs
    · exact hs
  · split_ifs
    · exact (stepWake_size_le (s := { s with lock := some l.1 })).trans hs
    · exact hs
    · exact stepOk_budget hs _
  · exact hs

/-- The cache stays within its budget. The map never holds more than `cache_pages` pages. -/
theorem within_budget (n : ℕ) (cfg : SsdStreamingConfig) (content : ℕ → Buf) (ls : List (Fin n × Choice)) :
    (run (step cfg) (start n content) ls).cache.pages.keys.card ≤ cfg.cachePages :=
  Core.run_inv_all (P := fun s : Sys n => s.cache.size ≤ cfg.cachePages) (fun _ l hs => budget_step hs l) ls
    (by simp [Cache.size, start])

end CxlMemSim.Ssd
