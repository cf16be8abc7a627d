/-
Every step of the page cache machine keeps the invariant as long as sleepers wake well (`GoodWake`): one lemma per
function, put together from its changes (`step_inv`).
-/
import CxlMemSim.Ssd.Changes

namespace CxlMemSim.Ssd

open Function
open CxlMemSim.Core

variable {n : ℕ} {cfg : SsdStreamingConfig} {s : Sys n} {t : Fin n} {p q : Pc} {c c' : Cache}

variable {o : ObjId} {ret : FlushRet} {a last : ℕ}

variable {f : PageMeta → PageMeta}

lemma PcOk.dataChange (h : PcOk cfg c p) (hc : CacheInv cfg c)
    (hva : (f (c.heap o)).vaPageNo = (c.heap o).vaPageNo) (hst : (f (c.heap o)).state = (c.heap o).state)
    (hown : p.owns o = 0) : PcOk cfg (c.modify o f) p := by
  have hva' := modify_field c o PageMeta.vaPageNo hva
  have hst' := modify_field c o PageMeta.state hst
  by_cases htr : p.transient = false
  · refine h.frame hc htr le_rfl (fun x _ => hva' x) (fun x hx hm _ => ?_) fun job x _ hx =>
      ⟨hx.1, by rw [hst' x]; exact hx.2.1, hx.2.2⟩
    have hxo : x ≠ o := fun hxo => hx (by rw [hxo]; exact hown)
    refine ⟨?_, hst' x, by rw [modify_heap_ne c f hxo], rfl⟩
    unfold Cache.maps
    rw [hva']
    exact hm
  · cases p with
    | loaded job =>
      obtain ⟨x, h1, h2, h3⟩ := h
      exact ⟨x, h1, by rw [hst' x]; exact h2, fun hr => by rw [hst' x]; exact h3 hr⟩
    | trim r =>
      cases r with
      | demand job x => exact ⟨h.1, (hst' x).trans h.2⟩
      | ahead job x i => exact absurd rfl htr
    | _ => exact absurd rfl htr

lemma readPage_inv (hi : Inv cfg s) {ret : LoadRet} (hpc : s.pc t = .loadRead o ret) (ok : Bool) :
    Inv cfg (readPage s t o ret ok) := by
  have hp := hi.pcs t
  rw [hpc] at hp
  obtain ⟨hm, hst, hret⟩ := hp
  have hheld : ∀ x, Pc.heldObj (.loadDone o ok ret) = some x → (s.pc t).heldObj = some x := fun x hx => by
    rw [hpc]; exact hx
  have hev : ∀ x, Pc.heldObj (.loadDone o ok ret) = some x → ∀ t', t' ≠ t → (s.pc t').evicting ≠ some x :=
    fun x hx t' _ he => hi.evictFree t' t x he (hheld x hx)
  cases ok with
  | false =>
    exact hi.change (c := s.cache) (q := .loadDone o false ret) (fun hh => by cases hh) hi.cache
      (fun x => by rw [hpc]; rfl) (fun x => by rw [hpc]; rfl) ⟨hm, hst, hret, fun hh => by cases hh⟩
      (fun t' _ hp' => hp') (fun x hx => by cases hx) hev
  | true =>
    have hd : (s.cache.heap o).dirty = false := hi.cache.not_dirty (by simp [hst]) (by simp [hst])
    have hown : (s.pc t).owns o ≠ 0 := by rw [hpc]; simp [Pc.owns, Pc.loading]
    refine hi.change (c := s.cache.modify o fun q => { q with data := s.cache.backing q.vaPageNo })
      (q := .loadDone o true ret) (fun hh => by cases hh) (hi.cache.modify hm rfl ?_ ?_ ?_) (fun x => ?_) (fun x => ?_)
      ⟨?_, ?_, LoadOk.modify hret rfl (by rw [hst]; rfl), fun _ => ?_⟩
      (fun t' ht hp' => hp'.dataChange hi.cache rfl rfl (hi.owns_unique ht hown)) (fun x hx => by cases hx) hev
    · simp [hd, hst]
    · intro hh
      rw [show (s.cache.heap o).state.holdsData = false by rw [hst]; rfl] at hh
      cases hh
    · exact fun _ => hi.cache.saved_of_clean hm hd
    · rw [hpc, modify_field s.cache o PageMeta.refcnt rfl]
      rfl
    · rw [hpc, Cache.busy, modify_field s.cache o PageMeta.state rfl]
      rfl
    · unfold Cache.maps
      rw [modify_heap_self]
      exact hm
    · rw [modify_heap_self]
      exact hst
    · rw [modify_heap_self]
      rfl

lemma PcOk.storeChange (h : PcOk cfg c p) (hc : CacheInv cfg c) (hm : c.maps o) (b : Buf) (hown : p.owns o = 0) :
    PcOk cfg { c with backing := update c.backing (c.heap o).vaPageNo b } p := by
  by_cases htr : p.transient = false
  · refine h.frame hc htr le_rfl (fun x _ => rfl) (fun x hx hmx _ => ⟨hmx, rfl, rfl, ?_⟩) fun job x _ hx => hx
    have hxo : x ≠ o := fun hxo => hx (by rw [hxo]; exact hown)
    exact update_of_ne (fun he => hxo (Cache.maps_inj hmx hm he)) _ _
  · cases p with
    | loaded job => exact h
    | trim r =>
      cases r with
      | demand job x => exact h
      | ahead job x i => exact absurd rfl htr
    | _ => exact absurd rfl htr

lemma writePage_inv (hi : Inv cfg s) (hpc : s.pc t = .flushWrite o ret) (ok : Bool) :
    Inv cfg (writePage s t o ret ok) := by
  have hp := hi.pcs t
  rw [hpc] at hp
  obtain ⟨hm, hst, hret⟩ := hp
  have hheld : ∀ x, Pc.heldObj (.flushDone o ok ret) = some x → ∀ t', t' ≠ t → (s.pc t').evicting ≠ some x :=
    fun x hx t' _ he => hi.evictFree t' t x he (by rw [hpc]; exact hx)
  have hevict : ∀ x, Pc.evicting (.flushDone o ok ret) = some x →
      Pc.heldObj (.flushDone o ok ret) ≠ some x ∧ ∀ t', t' ≠ t → (s.pc t').heldObj ≠ some x := by
    intro x hx
    have he : (s.pc t).evicting = some x := by rw [hpc]; cases ret <;> exact hx
    refine ⟨fun hh => hi.evictFree t t x he (by rw [hpc]; exact hh), fun t' _ => hi.evictFree t t' x he⟩
  cases ok with
  | false =>
    exact hi.change (c := s.cache) (q := .flushDone o false ret) (fun hh => by cases hh) hi.cache
      (fun x => by rw [hpc]; rfl) (fun x => by rw [hpc]; rfl) ⟨hm, hst, hret, fun hh => by cases hh⟩
      (fun t' _ hp' => hp') hevict hheld
  | true =>
    have hd : (s.cache.heap o).dirty = true := (hi.cache.dirty_iff o).2 (Or.inr hst)
    have hown : (s.pc t).owns o ≠ 0 := by rw [hpc]; simp [Pc.owns, Pc.loading, Pc.flushing]
    have hc : CacheInv cfg { s.cache with
        backing := update s.cache.backing (s.cache.heap o).vaPageNo (s.cache.heap o).data } :=
      { hi.cache with
        saved := fun a ha => by
          have hne : a ≠ (s.cache.heap o).vaPageNo := fun he => by
            have := ha o (by rw [he]; exact hm)
            rw [show (s.cache.heap o).dirty = false from this] at hd
            cases hd
          exact (update_of_ne hne _ _).trans (hi.cache.saved a ha) }
    refine hi.change (q := .flushDone o true ret) (fun hh => by cases hh) hc (fun x => by rw [hpc]; rfl)
      (fun x => by rw [hpc]; rfl) ⟨hm, hst, ?_, fun _ => update_self _ _ _⟩
      (fun t' ht hp' => hp'.storeChange hi.cache hm _ (hi.owns_unique ht hown)) hevict hheld
    cases ret <;> exact hret

/-! ## Returns -/

lemma At.finish (h : At cfg s t p) (hholds : ∀ x, p.holds x = 0) (howns : ∀ x, p.owns x = 0) (e : Event) :
    Inv cfg (s.finish t e) := by
  have hidle : At cfg s t .idle :=
    h.move ⟨fun x => (hholds x).symm, fun x => (howns x).symm, fun x hx => (by cases hx), rfl⟩ trivial
  exact (hidle.release rfl).log _

lemma Calls.moves {held : Option (Job × ObjId)} (hp : Calls p held) (hq : Calls q held) (hev : q.evicting = none) :
    Moves p q :=
  ⟨fun x => by rw [hp.holds, hq.holds], fun x => by rw [hp.owns, hq.owns],
    fun x hx => by rw [Pc.heldObj, hp.held, ← hq.held]; exact hx, hev⟩

lemma Calls.finish (h : At cfg s t p) (hp : Calls p none) (e : Event) : Inv cfg (s.finish t e) :=
  h.finish (fun x => by rw [hp.holds]; rfl) hp.owns e

lemma FlushCalls.moves (hp : FlushCalls p ret) (hq : FlushCalls q ret) (hev : q.evicting = none) : Moves p q :=
  ⟨fun x => by rw [hp.holds, hq.holds], fun x => by rw [hp.owns, hq.owns],
    fun x hx => by rw [Pc.heldObj, hp.held, ← hq.held]; exact hx, hev⟩

lemma calls_plain (hload : p.loading = none) (hflush : p.flushing = none) (hsnap : p.snapshot = []) :
    Calls p p.held where
  holds := fun x => by simp [Pc.holds, Pc.heldObj, hload, hsnap]
  owns := fun x => by simp [Pc.owns, hload, hflush]
  held := rfl

lemma Calls.flush {ret : EvictRet} (hp : Calls p ret.held) : FlushCalls p (.evict a ret) where
  __ := hp
  holds := fun x => by rw [hp.holds]; simp [FlushRet.held, FlushRet.snapshot]

variable {k : ℕ}

lemma oneReturn_inv {ret : OneRet} (h : At cfg s t (.evictOne k ret)) (ok : Bool) :
    Inv cfg (oneReturn cfg s t ret ok) := by
  have hp := h.pcOk
  have hcall := calls_plain (p := .evictOne k ret) rfl rfl rfl
  cases ret with
  | trim r => exact absurd hp id
  | room r =>
    cases ok with
    | true => exact (h.move (hcall.moves (calls_plain (p := .room r) rfl rfl rfl) rfl) hp).inv
    | false =>
      cases r with
      | demand job => exact hcall.finish h _
      | ahead job x i => exact h.unhold hcall hp
      | streaming a b => exact hcall.finish h _

/-! ## Evicting a page -/

lemma evictReturn_inv {ret : EvictRet} (h : At cfg s t (FlushRet.evict a ret).back) (ok : Bool) :
    Inv cfg (evictReturn cfg s t ret ok) := by
  cases ret with
  | one ret => exact oneReturn_inv h ok
  | after b last acc =>
    exact (h.move (q := .evictLoop (b + 1) last (ok && acc))
      ⟨fun x => rfl, fun x => rfl, fun x hx => (by cases hx), rfl⟩ trivial).inv

lemma flushReturn_inv (h : At cfg s t ret.back) (ok : Bool)
    (hev : ok = true → ∀ a r, ret = .evict a r → s.cache.pages.lookup a = some o ∧ (s.cache.heap o).dirty = false ∧
      s.cache.busy o = false ∧ ret.back.heldObj ≠ some o ∧ ∀ t', t' ≠ t → (s.pc t').heldObj ≠ some o) :
    Inv cfg (flushReturn cfg s t o ret ok) := by
  cases ret with
  | flush snapshot rest acc =>
    exact (h.move (q := .flushLoop snapshot rest (ok && acc))
      ⟨fun x => rfl, fun x => rfl, fun x hx => (by cases hx), rfl⟩ h.pcOk).inv
  | evict a r =>
    cases ok with
    | false => exact evictReturn_inv (a := a) h false
    | true =>
      obtain ⟨hl, hd, hb, hfree⟩ := hev rfl a r rfl
      have htr : ((FlushRet.evict a r).back).transient = false := by cases r <;> rfl
      exact evictReturn_inv (a := a) (h.erase htr (FlushRet.back_evicting _) hl hd hb hfree) true

def EvictReady (s : Sys n) (o : ObjId) : FlushRet → Prop
  | .evict a _ => s.cache.pages.lookup a = some o ∧ (s.cache.heap o).refcnt = 0 ∧ s.cache.busy o = false
  | .flush _ _ _ => True

lemma flushPage_inv (ret : FlushRet) (h : At cfg s t p) (hcall : FlushCalls p ret)
    (hlt : o < s.cache.nextObj) (hret : FlushOk cfg s.cache o ret) (hready : EvictReady s o ret) :
    Inv cfg (flushPage cfg s t o ret) := by
  unfold flushPage
  split_ifs with hb hd
  · -- only `flush` can find the page busy here
    have hwait : FlushCalls (.flushWait o ret) ret :=
      ⟨fun x => by simp [Pc.holds, Pc.heldObj, Pc.held, Pc.loading, Pc.snapshot], fun x => rfl, rfl⟩
    refine (h.move (hcall.moves hwait rfl) ?_).release rfl
    cases ret with
    | evict a r => rw [hready.2.2] at hb; cases hb
    | flush a b acc => exact ⟨hlt, hret⟩
  · have hd' : (s.cache.heap o).dirty = false := by simpa using hd
    have hback := h.move (hcall.moves ret.back_calls ret.back_evicting) hret.back
    refine flushReturn_inv hback true fun _ a r hr => ?_
    subst hr
    have hnone := hback.none_held hready.2.1
    exact ⟨hready.1, hd', hready.2.2, hnone.1, hnone.2⟩
  · have hd' : (s.cache.heap o).dirty = true := by simpa using hd
    refine (h.flushStart hcall hd' (by simpa using hb) hret fun a r hr => ?_).release rfl
    subst hr
    exact hready.2.1

variable {ok : Bool}

lemma flushFinish_inv (h : At cfg s t (.flushDone o ok ret)) : Inv cfg (flushFinish cfg s t o ok ret) := by
  obtain ⟨hm, -, hret, -⟩ := h.pcOk
  refine flushReturn_inv h.flushEnd ok fun hok a r hr => ?_
  subst hok hr
  -- nobody holds a page that is being evicted
  have hfree : ∀ t', ((s.goto t (.flushDone o true (.evict a r))).pc t').heldObj ≠ some o := fun t' =>
    h.inv.evictFree t t' o (by rw [goto_pc_self]; rfl)
  refine ⟨?_, ?_, ?_, ?_, fun t' ht => ?_⟩
  · rw [modify_cache, ← hret.1]
    exact hm
  · rw [modify_cache, modify_heap_self]
    rfl
  · rw [modify_cache, Cache.busy, modify_heap_self]
    rfl
  · have := hfree t
    rw [goto_pc_self] at this
    rw [Pc.heldObj, (FlushRet.evict a r).back_calls.held]
    exact this
  · have := hfree t'
    rwa [goto_pc_other ht] at this

lemma evictChecked_inv {ret : EvictRet} (h : At cfg s t p) (hcall : Calls p ret.held)
    (hret : EvictOk cfg s.cache ret) (hl : s.cache.pages.lookup a = some o) (hb : s.cache.busy o = false) :
    Inv cfg (evictChecked cfg s t a o ret) := by
  obtain ⟨hva, hlt⟩ := h.cache.mapped a o hl
  have hflush := hcall.flush (a := a)
  have hok : FlushOk cfg s.cache o (.evict a ret) := ⟨hva, hret⟩
  unfold evictChecked
  split_ifs with hpin
  · exact evictReturn_inv (a := a) (h.move (hflush.moves (FlushRet.back_calls _) (FlushRet.back_evicting _)) hok.back)
      false
  · have href : (s.cache.heap o).refcnt = 0 := by
      by_contra hne
      exact hpin (by simp [hne])
    exact flushPage_inv _ h hflush hlt hok ⟨hl, href, hb⟩

lemma evictPage_inv (ret : EvictRet) (h : At cfg s t p) (hcall : Calls p ret.held)
    (hret : EvictOk cfg s.cache ret) : Inv cfg (evictPage cfg s t a ret) := by
  unfold evictPage
  cases hl : s.cache.pages.lookup a with
  | none =>
    have hflush := hcall.flush (a := a)
    refine evictReturn_inv (a := a) (h.move (hflush.moves (FlushRet.back_calls _) (FlushRet.back_evicting _)) ?_) true
    cases ret with
    | one ret => exact hret
    | after b last acc => trivial
  | some o =>
    dsimp only
    obtain ⟨hva, hlt⟩ := h.cache.mapped a o hl
    split_ifs with hb
    · have hwait : Calls (.evictWait a o ret) ret.held := calls_plain (p := .evictWait a o ret) rfl rfl rfl
      exact (h.move (hcall.moves hwait rfl) ⟨hlt, hva, hret⟩).release rfl
    · exact evictChecked_inv h hcall hret hl (by simpa using hb)

lemma evictOne_inv {ret : OneRet} (h : At cfg s t (.evictOne k ret)) : Inv cfg (evictOne cfg s t k ret) := by
  have hcall := calls_plain (p := .evictOne k ret) rfl rfl rfl
  have hagain : ∀ k', Moves (.evictOne k ret) (.evictOne k' ret) := fun k' =>
    hcall.moves (calls_plain (p := .evictOne k' ret) rfl rfl rfl) rfl
  have hqueue : ∀ q, At cfg (s.withCache { s.cache with clockQueue := q }) t (.evictOne k ret) := fun q =>
    h.touch ⟨rfl, rfl, rfl, rfl, fun _ => rfl, fun _ => rfl, fun _ => rfl, fun _ => rfl⟩ (fun _ => rfl) (fun _ => rfl)
      h.pcOk rfl h.cache.fresh fun x hx t' ht => h.evicting_other hx ht
  unfold evictOne
  split
  · exact oneReturn_inv h false
  · exact oneReturn_inv h false
  · rename_i k' a queue hq
    dsimp only
    cases hl : s.cache.pages.lookup a with
    | none => exact ((hqueue queue).move (hagain k') h.pcOk).inv
    | some o =>
      dsimp only
      split_ifs with hbusy hacc
      · exact ((hqueue (queue ++ [a])).move (hagain k') h.pcOk).inv
      · have hlt := (h.cache.mapped a o hl).2
        have hat := (hqueue (queue ++ [a])).touch (q := .evictOne k' ret)
          (Same.modify _ o (f := fun q => { q with accessed := false }) rfl rfl rfl rfl)
          (fun x => by rw [modify_field _ o PageMeta.refcnt rfl]; rfl) (fun x => rfl) h.pcOk rfl
          (fun x hx => by rw [modify_field _ o PageMeta.refcnt rfl]; exact h.cache.fresh x hx)
          fun x hx t' ht => h.evicting_other hx ht
        exact hat.inv
      · exact evictPage_inv _ (hqueue queue) hcall h.pcOk

lemma loadReturn_fail_inv {ret : LoadRet} (h : At cfg s t p) (hcall : Calls p ret.held)
    (hret : LoadOk cfg s.cache o ret) : Inv cfg (loadReturn s t o ret false) := by
  cases ret with
  | demand job => exact Calls.finish h hcall _
  | ahead job x i => exact (h.move (hcall.moves (calls_plain (p := .trim (.ahead job x i)) rfl rfl rfl) rfl) hret).inv

lemma loadPage_inv (ret : LoadRet) (h : At cfg s t p) (hcall : Calls p ret.held)
    (hm : s.cache.maps o) (hst : (s.cache.heap o).state = .nonResident) (hret : LoadOk cfg s.cache o ret) :
    Inv cfg (loadPage cfg s t o ret) := by
  unfold loadPage
  split_ifs with hcap
  · exact loadReturn_fail_inv h hcall hret
  · exact (h.loadStart hcall hm hst hret).release rfl

variable {job : Job}

lemma loadReturn_ok_inv (h : At cfg s t (.loop job))
    (hl : s.cache.pages.lookup (job.page cfg) = some o) (hst : (s.cache.heap o).state = .residentClean) :
    Inv cfg (loadReturn s t o (.demand job) true) := by
  unfold loadReturn
  simp only [if_true]
  split_ifs with hra
  · exact (h.hold hl hst hra).inv
  · refine (h.move (q := .loaded job) ⟨fun x => rfl, fun x => rfl, fun x hx => (by cases hx), rfl⟩
      ⟨o, hl, by rw [hst]; rfl, fun _ he => ?_⟩).inv
    rw [hst] at he
    cases he

lemma loadFinish_inv {ret : LoadRet} (h : At cfg s t (.loadDone o ok ret)) : Inv cfg (loadFinish s t o ok ret) := by
  obtain ⟨hm, -, hret, -⟩ := h.pcOk
  unfold loadFinish
  cases ret with
  | ahead job x i => exact h.loadEnd.inv
  | demand job =>
    cases ok with
    | false => exact (calls_plain (p := .loop job) rfl rfl rfl).finish h.loadEnd _
    | true =>
      refine loadReturn_ok_inv h.loadEnd ?_ (by rw [modify_cache, modify_heap_self]; rfl)
      rw [← (show (s.cache.heap o).vaPageNo = job.page cfg from hret)]
      exact hm

/-! ## ensure_page_loaded_locked, read-ahead and set_streaming -/

lemma ensureChecked_inv (h : At cfg s t p) (hcall : Calls p none)
    (hl : s.cache.pages.lookup (job.page cfg) = some o) (hb : s.cache.busy o = false) :
    Inv cfg (ensureChecked s t job o) := by
  have hlt := (h.cache.mapped _ _ hl).2
  unfold ensureChecked
  split_ifs with hres
  · have hloaded : LoadedOk cfg s.cache job := by
      refine ⟨o, hl, ?_, fun _ he => ?_⟩
      · rcases hres with hs | hs <;> rw [hs] <;> rfl
      · rcases hres with hs | hs <;> rw [hs] at he <;> cases he
    refine (h.touch (q := .loaded job) (Same.modify s.cache o (f := fun q => { q with accessed := true }) rfl rfl rfl rfl)
      (fun x => ?_) (fun x => (hcall.owns x).symm) hloaded rfl (fun x hx => ?_) fun x hx => by cases hx).inv
    · rw [modify_field s.cache o PageMeta.refcnt rfl, hcall.holds]
      rfl
    · rw [modify_field s.cache o PageMeta.refcnt rfl]
      exact h.cache.fresh x hx
  · have hst : (s.cache.heap o).state = .nonResident := by
      unfold Cache.busy at hb
      cases hs : (s.cache.heap o).state <;> rw [hs] at hres hb <;> simp_all [SsdPageState.busy]
    exact (h.move (hcall.moves (calls_plain (p := .trim (.demand job o)) rfl rfl rfl) rfl) ⟨hl, hst⟩).inv

lemma ensureGet_inv (h : At cfg s t p) (hcall : Calls p none) (htr : p.transient = false) (alloc : Bool)
    (hroom : s.cache.pages.lookup (job.page cfg) = none → s.cache.size < cfg.cachePages) :
    Inv cfg (ensureGet cfg s t job alloc) := by
  unfold ensureGet
  cases hget : s.cache.getOrCreate (job.page cfg) alloc with
  | none => exact hcall.finish h _
  | some co =>
    obtain ⟨c, o⟩ := co
    obtain ⟨hat, hl⟩ := h.getOrCreate htr hroom hget
    dsimp only
    split_ifs with hb
    · have hlt : o < c.nextObj := (hat.cache.mapped _ _ hl).2
      exact (hat.move (hcall.moves (calls_plain (p := .ensureWait job o) rfl rfl rfl) rfl) hlt).release rfl
    · exact ensureChecked_inv hat hcall hl (by simpa using hb)

variable {i : UInt32} {x : ObjId}

lemma aheadGet_inv (h : At cfg s t p) (hcall : Calls p (some (job, x)))
    (htr : p.transient = false) (hp : ∀ c, PcOk cfg c p → HeldOk cfg c job x) (alloc : Bool)
    (hroom : s.cache.pages.lookup (job.page cfg + i.toNat) = none → s.cache.size < cfg.cachePages) :
    Inv cfg (aheadGet cfg s t job x i alloc) := by
  unfold aheadGet
  cases hget : s.cache.getOrCreate (job.page cfg + i.toNat) alloc with
  | none => exact h.unhold hcall (hp _ h.pcOk)
  | some co =>
    obtain ⟨c, o⟩ := co
    obtain ⟨hat, hl⟩ := h.getOrCreate htr hroom hget
    have hheld : HeldOk cfg c job x := hp _ hat.pcOk
    dsimp only
    split_ifs with hst
    · exact loadPage_inv (.ahead job x i) hat hcall (hat.cache.of_lookup hl).1 hst hheld
    · exact (hat.move (hcall.moves (calls_plain (p := .trim (.ahead job x i)) rfl rfl rfl) rfl) hheld).inv

lemma streamGet_inv (h : At cfg s t p) (hcall : Calls p none) (htr : p.transient = false)
    (alloc : Bool) (hroom : s.cache.pages.lookup a = none → s.cache.size < cfg.cachePages) :
    Inv cfg (streamGet s t a last alloc) := by
  unfold streamGet
  cases hget : s.cache.getOrCreate a alloc with
  | none => exact hcall.finish h _
  | some co =>
    obtain ⟨c, o⟩ := co
    obtain ⟨hat, hl⟩ := h.getOrCreate htr hroom hget
    refine (hat.touch (q := .streamLoop (a + 1) last)
      (Same.modify c o (f := fun q => { q with streaming := true, accessed := false }) rfl rfl rfl rfl)
      (fun x => ?_) (fun x => (hcall.owns x).symm) trivial rfl (fun x hx => ?_) fun x hx => by cases hx).inv
    · rw [modify_field c o PageMeta.refcnt rfl, hcall.holds]
      rfl
    · rw [modify_field c o PageMeta.refcnt rfl]
      exact hat.cache.fresh x hx

lemma roomStep_inv {r : Room} (h : At cfg s t (.room r)) (alloc : Bool) : Inv cfg (roomStep cfg s t r alloc) := by
  have hcall := calls_plain (p := .room r) rfl rfl rfl
  unfold roomStep
  split_ifs with hfull
  · unfold callEvictOne
    have hone : At cfg s t (.evictOne (s.cache.clockQueue.length * 2 + 1) (.room r)) :=
      h.move (hcall.moves (calls_plain (p := .evictOne _ (.room r)) rfl rfl rfl) rfl) h.pcOk
    split_ifs with hempty
    · exact absurd hempty hfull.2
    · exact hone.inv
  · -- the cache has room: at least one page may be cached
    have hroom : s.cache.size < cfg.cachePages := by
      by_contra hge
      have := cfg.cache_pos
      exact hfull ⟨not_lt.1 hge, by omega⟩
    cases r with
    | demand job => exact ensureGet_inv h hcall rfl alloc fun _ => hroom
    | ahead job x i => exact aheadGet_inv h hcall rfl (fun _ hc => hc) alloc fun _ => hroom
    | streaming a b => exact streamGet_inv h hcall rfl alloc fun _ => hroom

lemma trimStep_inv {r : Trim} (h : At cfg s t (.trim r)) : Inv cfg (trimStep cfg s t r) := by
  have hcall := calls_plain (p := .trim r) rfl rfl rfl
  have hp := h.pcOk
  unfold trimStep
  rw [if_neg (not_lt.2 h.cache.budget)]
  cases r with
  | demand job o =>
    obtain ⟨hm, hva⟩ := h.cache.of_lookup hp.1
    exact loadPage_inv (.demand job) h hcall hm hp.2 hva
  | ahead job x i => exact (h.move (hcall.moves (calls_plain (p := .ahead job x (i + 1)) rfl rfl rfl) rfl) hp).inv

lemma aheadStep_inv (h : At cfg s t (.ahead job x i)) (alloc : Bool) : Inv cfg (aheadStep cfg s t job x i alloc) := by
  have hcall := calls_plain (p := .ahead job x i) rfl rfl rfl
  unfold aheadStep
  split_ifs with hmore hfound
  · exact aheadGet_inv h hcall rfl (fun _ hc => hc) alloc fun hnone => by rw [hnone] at hfound; cases hfound
  · exact (h.move (hcall.moves (calls_plain (p := .room (.ahead job x i)) rfl rfl rfl) rfl) h.pcOk).inv
  · exact h.unhold hcall h.pcOk

/-! ## The loops of the public calls -/

lemma loopStep_inv (h : At cfg s t (.loop job)) (alloc : Bool) : Inv cfg (loopStep cfg s t job alloc) := by
  have hcall : Calls (.loop job) none := calls_plain (p := .loop job) rfl rfl rfl
  unfold loopStep ensure
  split_ifs with hmore hfound
  · exact ensureGet_inv h hcall rfl alloc fun hnone => by rw [hnone] at hfound; cases hfound
  · exact (h.move (hcall.moves (calls_plain (p := .room (.demand job)) rfl rfl rfl) rfl) trivial).inv
  · exact hcall.finish h _

lemma At.flag (h : At cfg s t p) (hcall : Calls p none) (hq : Calls q none)
    (hqok : PcOk cfg s.cache q) (hev : q.evicting = none) (hs : Same s.cache (s.cache.modify o f))
    (href : (f (s.cache.heap o)).refcnt = (s.cache.heap o).refcnt) : Inv cfg ((s.modify o f).goto t q) := by
  refine (h.touch (q := q) hs (fun x => ?_) (fun x => by rw [hq.owns, hcall.owns]) hqok hev (fun x hx => ?_)
    fun x hx => ?_).inv
  · rw [modify_field s.cache o PageMeta.refcnt href, hcall.holds, hq.holds]
  · rw [modify_field s.cache o PageMeta.refcnt href]
    exact h.cache.fresh x hx
  · rw [Pc.heldObj, hq.held] at hx
    cases hx

lemma not_busy_of_resident (h1 : (c.heap o).state.holdsData = true) (h2 : (c.heap o).state ≠ .evicting) :
    c.busy o = false := by
  unfold Cache.busy
  cases hs : (c.heap o).state with
  | loading => rw [hs] at h1; cases h1
  | evicting => exact absurd hs h2
  | nonResident | residentClean | residentDirty => rfl

lemma useLoaded_inv (h : At cfg s t (.loaded job)) : Inv cfg (useLoaded cfg s t job) := by
  have hcall : Calls (.loaded job) none := calls_plain (p := .loaded job) rfl rfl rfl
  obtain ⟨o, hl, hd, hev⟩ := h.pcOk
  have hgo : ∀ job', Inv cfg (s.goto t (.loop job')) := fun job' =>
    (h.move (hcall.moves (calls_plain (p := .loop job') rfl rfl rfl) rfl) trivial).inv
  unfold useLoaded
  cases job with
  | prefetch a last => exact hgo _
  | pin a last =>
    dsimp only [Job.page] at hl ⊢
    rw [hl]
    exact h.flag hcall (calls_plain (p := .loop (.pin (a + 1) last)) rfl rfl rfl) trivial rfl
      (Same.modify s.cache o rfl rfl rfl rfl) rfl
  | read addr size copied dst =>
    dsimp only [Job.page] at hl ⊢
    rw [hl]
    exact hgo _
  | write addr size copied src =>
    dsimp only [Job.page] at hl ⊢
    rw [hl]
    exact (h.store hl hd (not_busy_of_resident hd (hev rfl)) fun b =>
      memcpy b ((addr + copied) % cfg.ps) src copied (chunk cfg (addr + copied) (size - copied))).inv

variable {acc : Bool}

lemma evictLoopStep_inv (h : At cfg s t (.evictLoop a last acc)) : Inv cfg (evictLoopStep cfg s t a last acc) := by
  have hcall : Calls (.evictLoop a last acc) none := calls_plain (p := .evictLoop a last acc) rfl rfl rfl
  unfold evictLoopStep
  split_ifs with hmore
  · exact evictPage_inv (.after a last acc) h hcall trivial
  · exact hcall.finish h _

lemma streamLoopStep_inv (h : At cfg s t (.streamLoop a last)) (alloc : Bool) :
    Inv cfg (streamLoopStep s t a last alloc) := by
  have hcall : Calls (.streamLoop a last) none := calls_plain (p := .streamLoop a last) rfl rfl rfl
  unfold streamLoopStep
  split_ifs with hmore hfound
  · exact streamGet_inv h hcall rfl alloc fun hnone => by rw [hnone] at hfound; cases hfound
  · exact (h.move (hcall.moves (calls_plain (p := .room (.streaming a last)) rfl rfl rfl) rfl) trivial).inv
  · exact hcall.finish h _

lemma unpinLoopStep_inv (h : At cfg s t (.unpinLoop a last)) : Inv cfg (unpinLoopStep s t a last) := by
  have hcall : Calls (.unpinLoop a last) none := calls_plain (p := .unpinLoop a last) rfl rfl rfl
  have hnext : Calls (.unpinLoop (a + 1) last) none := calls_plain (p := .unpinLoop (a + 1) last) rfl rfl rfl
  unfold unpinLoopStep
  split_ifs with hmore
  · cases hl : s.cache.pages.lookup a with
    | none => exact (h.move (hcall.moves hnext rfl) trivial).inv
    | some o => exact h.flag hcall hnext trivial rfl (Same.modify s.cache o rfl rfl rfl rfl) rfl
  · exact hcall.finish h _

lemma flushStart_inv {order : List ℕ} (h : At cfg s t p) (hcall : Calls p none) : Inv cfg (flushStart s t order) := by
  have hlt : ∀ o ∈ order.filterMap s.cache.pages.lookup, o < s.cache.nextObj := fun o ho => by
    obtain ⟨a, -, ha⟩ := List.mem_filterMap.1 ho
    exact (h.cache.mapped a o ha).2
  refine (h.touch (q := .flushLoop _ _ true)
    (c := { s.cache with heap := fun o => { s.cache.heap o with
      refcnt := (s.cache.heap o).refcnt + (order.filterMap s.cache.pages.lookup).count o } })
    ⟨rfl, rfl, rfl, rfl, fun _ => rfl, fun _ => rfl, fun _ => rfl, fun _ => rfl⟩ (fun x => ?_)
    (fun x => (hcall.owns x).symm) ⟨hlt, hlt⟩ rfl (fun x hx => ?_) fun x hx => by cases hx).inv
  · rw [hcall.holds]
    simp [Pc.holds, Pc.heldObj, Pc.held, Pc.loading, Pc.snapshot]
  · have : (order.filterMap s.cache.pages.lookup).count x = 0 :=
      List.count_eq_zero.2 fun hm => absurd (hlt x hm) (not_lt.2 hx)
    simp only [this, h.cache.fresh x hx]

lemma flushLoopStep_inv {snapshot rest : List ObjId} (h : At cfg s t (.flushLoop snapshot rest acc))
    (fsync : Bool) : Inv cfg (flushLoopStep cfg s t snapshot rest acc fsync) := by
  obtain ⟨hsnap, hrest⟩ := h.pcOk
  unfold flushLoopStep
  cases rest with
  | cons o rest =>
    refine flushPage_inv (.flush snapshot rest acc) h ⟨fun x => ?_, fun x => rfl, rfl⟩
      (hrest o List.mem_cons_self) ⟨hsnap, fun x hx => hrest x (List.mem_cons_of_mem _ hx)⟩ trivial
    simp [Pc.holds, Pc.heldObj, Pc.held, Pc.loading, Pc.snapshot, FlushRet.held, FlushRet.snapshot]
  | nil =>
    have hholds : ∀ x, Pc.holds (.flushLoop snapshot [] acc) x = snapshot.count x := fun x => by
      simp [Pc.holds, Pc.heldObj, Pc.held, Pc.loading, Pc.snapshot]
    have hidle : At cfg (s.withCache { s.cache with heap := fun o =>
        { s.cache.heap o with refcnt := (s.cache.heap o).refcnt - snapshot.count o } }) t .idle := by
      refine h.touch ⟨rfl, rfl, rfl, rfl, fun _ => rfl, fun _ => rfl, fun _ => rfl, fun _ => rfl⟩ (fun x => ?_)
        (fun x => rfl) trivial rfl (fun x hx => ?_) fun x hx => by cases hx
      · have hle := h.holds_le x
        rw [hholds] at hle ⊢
        exact Nat.sub_add_cancel hle
      · simp only [h.cache.fresh x hx, Nat.zero_sub]
    exact hidle.finish (fun x => rfl) (fun x => rfl) _

/-! ## The step -/

lemma enter_inv (hi : Inv cfg s) {call : Call} (hpc : s.pc t = .entry call) (hlock : s.lock = none) (ch : Choice) :
    Inv cfg (enter cfg s t call ch) := by
  have hat : At cfg { s with lock := some t } t (.entry call) := hpc ▸ hi.acquire hlock
  have hcall : Calls (.entry call) none := calls_plain (p := .entry call) rfl rfl rfl
  have hgo : ∀ q, Calls q none → q.evicting = none → PcOk cfg s.cache q →
      Inv cfg ({ s with lock := some t }.goto t q) := fun q hq hev hqok => (hat.move (hcall.moves hq hev) hqok).inv
  unfold enter
  cases call with
  | flush =>
    cases ch with
    | snapshot order =>
      dsimp only
      split_ifs
      · exact flushStart_inv hat hcall
      · exact hi
    | call c | run ok => exact hi
  | read addr size | write addr size src | prefetch addr size =>
    exact hgo _ (calls_plain (p := .loop _) rfl rfl rfl) rfl trivial
  | evictAfter addr size => exact hgo _ (calls_plain (p := .evictLoop _ _ _) rfl rfl rfl) rfl trivial
  | pin addr size => exact hgo _ (calls_plain (p := .loop _) rfl rfl rfl) rfl trivial
  | unpin addr size => exact hgo _ (calls_plain (p := .unpinLoop _ _) rfl rfl rfl) rfl trivial
  | setStreaming addr size => exact hgo _ (calls_plain (p := .streamLoop _ _) rfl rfl rfl) rfl trivial

lemma stepOk_inv (hi : Inv cfg s) (ok : Bool) : Inv cfg (stepOk cfg s t ok) := by
  have hat : (s.pc t).holding = true → At cfg s t (s.pc t) := hi.at
  unfold stepOk
  cases hpc : s.pc t <;> rw [hpc] at hat
  case loop job => exact loopStep_inv (hat rfl) ok
  case room r => exact roomStep_inv (hat rfl) ok
  case evictOne k ret => exact evictOne_inv (hat rfl)
  case trim r => exact trimStep_inv (hat rfl)
  case ahead job x i => exact aheadStep_inv (hat rfl) ok
  case loaded job => exact useLoaded_inv (hat rfl)
  case loadRead o ret => exact readPage_inv hi hpc ok
  case flushWrite o ret => exact writePage_inv hi hpc ok
  case evictLoop a last acc => exact evictLoopStep_inv (hat rfl)
  case streamLoop a last => exact streamLoopStep_inv (hat rfl) ok
  case unpinLoop a last => exact unpinLoopStep_inv (hat rfl)
  case flushLoop a b acc => exact flushLoopStep_inv (hat rfl) ok
  all_goals exact hi

def WakesWell (cfg : SsdStreamingConfig) (s : Sys n) : Pc → Prop
  | .ensureWait job o => s.lock = none → s.cache.busy o = false → s.cache.pages.lookup (job.page cfg) = some o
  | .evictWait a o _ => s.lock = none → s.cache.busy o = false → s.cache.pages.lookup a = some o
  | _ => True

instance (s : Sys n) (p : Pc) : Decidable (WakesWell cfg s p) := by cases p <;> unfold WakesWell <;> infer_instance

/-- The condition. A thread that slept in `ensure_page_loaded_locked` or `evict_page_locked` finds its page still in
the map. -/
def GoodWake (cfg : SsdStreamingConfig) (s : Sys n) (l : Fin n × Choice) : Prop := WakesWell cfg s (s.pc l.1)

instance (s : Sys n) (l : Fin n × Choice) : Decidable (GoodWake cfg s l) :=
  inferInstanceAs (Decidable (WakesWell cfg s (s.pc l.1)))

lemma stepWake_inv (hi : Inv cfg s) (hlock : s.lock = none) (hwakes : (s.pc t).wakes = true)
    (hawake : ¬ sleeping s t) {ch : Choice} (hgood : GoodWake cfg s (t, ch)) :
    Inv cfg (stepWake cfg { s with lock := some t } t) := by
  have hat : At cfg { s with lock := some t } t (s.pc t) := hi.acquire hlock
  have hp := hi.pcs t
  unfold stepWake
  unfold sleeping at hawake
  unfold GoodWake at hgood
  dsimp only at hgood ⊢
  cases hpc : s.pc t <;> rw [hpc] at hat hp hawake hgood hwakes
  case loadDone o ok ret => exact loadFinish_inv hat
  case flushDone o ok ret => exact flushFinish_inv hat
  case ensureWait job o =>
    have hb : s.cache.busy o = false := by simpa using hawake
    exact ensureChecked_inv hat (calls_plain (p := .ensureWait job o) rfl rfl rfl) (hgood hlock hb) hb
  case evictWait a o ret =>
    have hb : s.cache.busy o = false := by simpa using hawake
    exact evictChecked_inv hat (calls_plain (p := .evictWait a o ret) rfl rfl rfl) hp.2.2 (hgood hlock hb) hb
  case flushWait o ret =>
    cases ret with
    | evict a r => exact absurd hp id
    | flush a b acc =>
      refine flushPage_inv _ hat ⟨fun x => ?_, fun x => rfl, rfl⟩ hp.1 hp.2 trivial
      simp [Pc.holds, Pc.heldObj, Pc.held, Pc.loading, Pc.snapshot]
  all_goals cases hwakes

/-- A step that wakes nobody badly keeps the invariant. -/
lemma step_inv (hi : Inv cfg s) (l : Fin n × Choice) (hgood : GoodWake cfg s l) : Inv cfg (step cfg s l) := by
  obtain ⟨t, ch⟩ := l
  unfold step
  dsimp only
  split
  · -- a new call
    rename_i hpc
    split
    · exact hi.log _
    · exact hi.change (c := s.cache) (q := .entry _) (fun hh => by cases hh) hi.cache (fun x => by rw [hpc]; rfl)
        (fun x => by rw [hpc]; rfl) trivial (fun _ _ hp => hp) (fun x hx => by cases hx) fun x hx => by cases hx
  · exact hi
  · rename_i hpc
    split_ifs with hlock
    · exact enter_inv hi hpc hlock _
    · exact hi
  · split_ifs with hw hlock
    · exact stepWake_inv hi hlock.1 hw hlock.2 hgood
    · exact hi
    · exact stepOk_inv hi _
  · exact hi

end CxlMemSim.Ssd
