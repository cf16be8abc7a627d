/-
The changes the steps of the page cache are made of, each with the rule by which it keeps the invariant. They are safe
for the other threads by one frame rule (`PcOk.frame`): a thread relies on the page whose I/O it does, the page it holds
and the numbers it mentions, and on nothing else.
-/
import CxlMemSim.Ssd.Inv

namespace CxlMemSim.Ssd

open Finmap Function
open CxlMemSim.Core

variable {n : ℕ} {cfg : SsdStreamingConfig} {s : Sys n} {t : Fin n} {p q : Pc} {c c' : Cache}

/-! ## What a thread relies on, under changes by others -/

def Pc.transient : Pc → Bool
  | .loaded _ => true
  | .trim (.demand _ _) => true
  | _ => false

lemma transient_of_holding (h : p.holding = false) : p.transient = false := by cases p <;> first | rfl | cases h

lemma RoomOk.frame {r : Room} (h : RoomOk cfg c r)
    (hr : ∀ job x, r.held = some (job, x) → HeldOk cfg c job x → HeldOk cfg c' job x) : RoomOk cfg c' r := by
  cases r with
  | ahead job x i => exact hr job x rfl h
  | demand job | streaming a b => trivial

lemma OneOk.frame {r : OneRet} (h : OneOk cfg c r)
    (hr : ∀ job x, r.held = some (job, x) → HeldOk cfg c job x → HeldOk cfg c' job x) : OneOk cfg c' r := by
  cases r with
  | room r => exact RoomOk.frame h hr
  | trim r => exact h

lemma EvictOk.frame {r : EvictRet} (h : EvictOk cfg c r)
    (hr : ∀ job x, r.held = some (job, x) → HeldOk cfg c job x → HeldOk cfg c' job x) : EvictOk cfg c' r := by
  cases r with
  | one r => exact OneOk.frame h hr
  | after a b ok => trivial

variable {o x : ObjId} {f : PageMeta → PageMeta} {a : ℕ} {ret : FlushRet} {job : Job} {t' : Fin n} {ok : Bool}

lemma FlushOk.frame {r : FlushRet} (h : FlushOk cfg c o r) (hnext : c.nextObj ≤ c'.nextObj)
    (hva : (c'.heap o).vaPageNo = (c.heap o).vaPageNo)
    (hr : ∀ job x, r.held = some (job, x) → HeldOk cfg c job x → HeldOk cfg c' job x) : FlushOk cfg c' o r := by
  cases r with
  | evict a r => exact ⟨hva.trans h.1, EvictOk.frame h.2 hr⟩
  | flush a b ok => exact ⟨fun x hx => (h.1 x hx).trans_le hnext, fun x hx => (h.2 x hx).trans_le hnext⟩

lemma LoadOk.frame {r : LoadRet} (h : LoadOk cfg c o r) (hva : (c'.heap o).vaPageNo = (c.heap o).vaPageNo)
    (hr : ∀ job x, r.held = some (job, x) → HeldOk cfg c job x → HeldOk cfg c' job x) : LoadOk cfg c' o r := by
  cases r with
  | demand job => exact hva.trans h
  | ahead job x i => exact hr job x rfl h

lemma PcOk.owned (h : PcOk cfg c p) (ho : p.owns o ≠ 0) : c.maps o ∧ c.busy o = true := by
  have heq : ∀ {x : ObjId}, objCount (some x) o ≠ 0 → x = o := fun {x} hx => by
    by_contra hne
    exact hx (objCount_ne (Ne.symm hne))
  cases p <;> simp only [Pc.owns, Pc.loading, Pc.flushing, objCount_none, add_zero, zero_add, ne_eq,
    not_true_eq_false] at ho
  all_goals
    obtain rfl := heq ho
    exact ⟨h.1, by rw [Cache.busy, h.2.1]; rfl⟩

/-- The frame rule. A thread keeps what it relies on if its I/O's page is left alone and the page it holds stays
with its data. -/
lemma PcOk.frame (h : PcOk cfg c p) (hc : CacheInv cfg c) (htr : p.transient = false)
    (hnext : c.nextObj ≤ c'.nextObj) (hva : ∀ o, o < c.nextObj → (c'.heap o).vaPageNo = (c.heap o).vaPageNo)
    (hown : ∀ o, p.owns o ≠ 0 → c.maps o → c.busy o = true → c'.maps o ∧ (c'.heap o).state = (c.heap o).state ∧
      (c'.heap o).data = (c.heap o).data ∧ c'.backing (c.heap o).vaPageNo = c.backing (c.heap o).vaPageNo)
    (hheld : ∀ job x, p.held = some (job, x) → HeldOk cfg c job x → HeldOk cfg c' job x) : PcOk cfg c' p := by
  have hlt : ∀ {o}, c.maps o → o < c.nextObj := fun hm => (hc.mapped _ _ hm).2
  have hown' : ∀ o, p.owns o ≠ 0 → c.maps o ∧ c'.maps o ∧ (c'.heap o).vaPageNo = (c.heap o).vaPageNo ∧
      (c'.heap o).state = (c.heap o).state ∧ (c'.heap o).data = (c.heap o).data ∧
      c'.backing (c.heap o).vaPageNo = c.backing (c.heap o).vaPageNo := fun o ho => by
    obtain ⟨hm, hb⟩ := h.owned ho
    obtain ⟨h1, h2, h3, h4⟩ := hown o ho hm hb
    exact ⟨hm, h1, hva o (hlt hm), h2, h3, h4⟩
  cases p with
  | idle | entry call | loop job => trivial
  | room r => exact RoomOk.frame h hheld
  | evictOne k ret => exact OneOk.frame h hheld
  | trim r =>
    cases r with
    | demand job o => cases htr
    | ahead job x i => exact hheld job x rfl h
  | ahead job x i => exact hheld job x rfl h
  | loaded job => cases htr
  | loadRead o ret =>
    obtain ⟨hm, hm', hv, hst, -, -⟩ := hown' o (by simp [Pc.owns, Pc.loading])
    exact ⟨hm', hst.trans h.2.1, LoadOk.frame h.2.2 hv hheld⟩
  | loadDone o ok ret =>
    obtain ⟨hm, hm', hv, hst, hd, hb⟩ := hown' o (by simp [Pc.owns, Pc.loading])
    exact ⟨hm', hst.trans h.2.1, LoadOk.frame h.2.2.1 hv hheld, fun hok => by rw [hd, hv, hb, h.2.2.2 hok]⟩
  | flushWrite o ret =>
    obtain ⟨hm, hm', hv, hst, -, -⟩ := hown' o (by simp [Pc.owns, Pc.flushing])
    exact ⟨hm', hst.trans h.2.1, FlushOk.frame h.2.2 hnext hv hheld⟩
  | flushDone o ok ret =>
    obtain ⟨hm, hm', hv, hst, hd, hb⟩ := hown' o (by simp [Pc.owns, Pc.flushing])
    exact ⟨hm', hst.trans h.2.1, FlushOk.frame h.2.2.1 hnext hv hheld, fun hok => by rw [hd, hv, hb, h.2.2.2 hok]⟩
  | ensureWait job o => exact lt_of_lt_of_le h hnext
  | evictWait a o ret => exact ⟨h.1.trans_le hnext, (hva o h.1).trans h.2.1, EvictOk.frame h.2.2 hheld⟩
  | flushWait o ret =>
    cases ret with
    | evict a r => exact h
    | flush a b ok =>
      exact ⟨h.1.trans_le hnext, fun x hx => (h.2.1 x hx).trans_le hnext, fun x hx => (h.2.2 x hx).trans_le hnext⟩
  | evictLoop a b ok | streamLoop a b | unpinLoop a b => trivial
  | flushLoop a b ok => exact ⟨fun x hx => (h.1 x hx).trans_le hnext, fun x hx => (h.2 x hx).trans_le hnext⟩
  | threw => exact h

/-! ## Changes that touch no contents -/

structure Same (c c' : Cache) : Prop where
  pages : c'.pages = c.pages
  next : c'.nextObj = c.nextObj
  backing : c'.backing = c.backing
  mem : c'.mem = c.mem
  va : ∀ o, (c'.heap o).vaPageNo = (c.heap o).vaPageNo
  state : ∀ o, (c'.heap o).state = (c.heap o).state
  dirty : ∀ o, (c'.heap o).dirty = (c.heap o).dirty
  data : ∀ o, (c'.heap o).data = (c.heap o).data

lemma Same.heldOk (hs : Same c c') (h : HeldOk cfg c job x) : HeldOk cfg c' job x := by
  unfold HeldOk at h ⊢
  rwa [hs.pages, hs.state]

lemma Same.pcOk (hs : Same c c') (hc : CacheInv cfg c) (h : PcOk cfg c p) : PcOk cfg c' p := by
  by_cases htr : p.transient = false
  · refine h.frame hc htr hs.next.ge (fun o _ => hs.va o) (fun o _ hm _ => ?_) fun _ _ _ hx => hs.heldOk hx
    exact ⟨by unfold Cache.maps at hm ⊢; rwa [hs.pages, hs.va], hs.state o, hs.data o, by rw [hs.backing]⟩
  · cases p with
    | loaded job =>
      obtain ⟨o, h1, h2, h3⟩ := h
      exact ⟨o, by rwa [hs.pages], by rwa [hs.state], fun hr => by rw [hs.state]; exact h3 hr⟩
    | trim r =>
      cases r with
      | demand job o => exact ⟨by rw [hs.pages]; exact h.1, (hs.state o).trans h.2⟩
      | ahead job x i => exact absurd rfl htr
    | _ => exact absurd rfl htr

lemma Same.cacheInv (hs : Same c c') (hc : CacheInv cfg c) (hfresh : ∀ o, c.nextObj ≤ o → (c'.heap o).refcnt = 0) :
    CacheInv cfg c' where
  mapped := fun p o h => by
    rw [hs.pages] at h
    rw [hs.va, hs.next]
    exact hc.mapped p o h
  fresh := fun o h => hfresh o (hs.next ▸ h)
  budget := by unfold Cache.size; rw [hs.pages]; exact hc.budget
  orphan := fun o h => by
    rw [hs.pages, hs.va] at h
    exact (hs.state o).trans (hc.orphan o h)
  dirty_iff := fun o => by rw [hs.dirty, hs.state]; exact hc.dirty_iff o
  cached := fun p o h hd => by
    rw [hs.pages] at h
    rw [hs.state] at hd
    rw [hs.data, hs.mem]
    exact hc.cached p o h hd
  saved := fun p h => by
    rw [hs.backing, hs.mem]
    refine hc.saved p fun o ho => ?_
    rw [← hs.dirty]
    exact h o (by rwa [hs.pages])

structure Moves (p q : Pc) : Prop where
  holds : ∀ o, q.holds o = p.holds o
  owns : ∀ o, q.owns o = p.owns o
  held : ∀ o, q.heldObj = some o → p.heldObj = some o
  evicting : q.evicting = none

lemma At.evicting_other (h : At cfg s t p) (ho : p.heldObj = some o) (ht : t' ≠ t) : (s.pc t').evicting ≠ some o := by
  intro he
  have := h.inv.evictFree t' t o (by rwa [goto_pc_other ht])
  rw [goto_pc_self] at this
  exact this ho

lemma At.move (h : At cfg s t p) (hm : Moves p q) (hq : PcOk cfg s.cache q) : At cfg s t q :=
  h.change (c := s.cache) h.cache (fun o => by rw [hm.holds]) (fun o => by rw [hm.owns]) hq (fun _ _ _ hp => hp)
    (fun o ho => by rw [hm.evicting] at ho; cases ho) fun _ ho _ ht => h.evicting_other (hm.held _ ho) ht

lemma At.touch (h : At cfg s t p) (hs : Same s.cache c)
    (hrefs : ∀ o, (c.heap o).refcnt + p.holds o = (s.cache.heap o).refcnt + q.holds o)
    (howns : ∀ o, q.owns o = p.owns o) (hq : PcOk cfg s.cache q) (hev : q.evicting = none)
    (hfresh : ∀ o, s.cache.nextObj ≤ o → (c.heap o).refcnt = 0)
    (hheld : ∀ o, q.heldObj = some o → ∀ t', t' ≠ t → (s.pc t').evicting ≠ some o) : At cfg (s.withCache c) t q := by
  refine h.change (hs.cacheInv h.cache hfresh) hrefs (fun o => ?_) (hs.pcOk h.cache hq)
    (fun t' ht hh hp => hs.pcOk h.cache hp) (fun o ho => by rw [hev] at ho; cases ho) hheld
  rw [howns]
  unfold Cache.busy
  rw [hs.state]

/-! ## Changes of one object in the map -/

@[simp] lemma modify_heap_self (c : Cache) (o : ObjId) (f : PageMeta → PageMeta) :
    (c.modify o f).heap o = f (c.heap o) := by simp [Cache.modify]

lemma modify_heap_ne (c : Cache) (f : PageMeta → PageMeta) (h : x ≠ o) :
    (c.modify o f).heap x = c.heap x := by simp [Cache.modify, update_of_ne h]

lemma modify_field {α : Type} (c : Cache) (o : ObjId) (g : PageMeta → α)
    (h : g (f (c.heap o)) = g (c.heap o)) (x : ObjId) : g ((c.modify o f).heap x) = g (c.heap x) := by
  by_cases hx : x = o
  · subst hx; rw [modify_heap_self, h]
  · rw [modify_heap_ne c f hx]

lemma Same.modify (c : Cache) (o : ObjId)
    (hva : (f (c.heap o)).vaPageNo = (c.heap o).vaPageNo) (hst : (f (c.heap o)).state = (c.heap o).state)
    (hd : (f (c.heap o)).dirty = (c.heap o).dirty) (hdata : (f (c.heap o)).data = (c.heap o).data) :
    Same c (c.modify o f) where
  pages := rfl
  next := rfl
  backing := rfl
  mem := rfl
  va := modify_field c o PageMeta.vaPageNo hva
  state := modify_field c o PageMeta.state hst
  dirty := modify_field c o PageMeta.dirty hd
  data := modify_field c o PageMeta.data hdata

lemma CacheInv.modify (hc : CacheInv cfg c) (hm : c.maps o) (hva : (f (c.heap o)).vaPageNo = (c.heap o).vaPageNo)
    (hdirty : (f (c.heap o)).dirty = true ↔ (f (c.heap o)).state = .residentDirty ∨ (f (c.heap o)).state = .evicting)
    (hcached : (f (c.heap o)).state.holdsData = true → (f (c.heap o)).data = c.mem (c.heap o).vaPageNo)
    (hsaved : (f (c.heap o)).dirty = false → c.backing (c.heap o).vaPageNo = c.mem (c.heap o).vaPageNo) :
    CacheInv cfg (c.modify o f) where
  mapped := fun p x h => by
    rw [modify_field c o PageMeta.vaPageNo hva]
    exact hc.mapped p x h
  fresh := fun x h => by
    have hx : x ≠ o := fun hxo => absurd ((hc.mapped _ _ hm).2) (by subst hxo; exact not_lt.2 h)
    rw [modify_heap_ne c f hx]
    exact hc.fresh x h
  budget := hc.budget
  orphan := fun x h => by
    rw [modify_field c o PageMeta.vaPageNo hva] at h
    have hx : x ≠ o := fun hxo => h (by subst hxo; exact hm)
    rw [modify_heap_ne c f hx]
    exact hc.orphan x h
  dirty_iff := fun x => by
    by_cases hx : x = o
    · subst hx; rw [modify_heap_self]; exact hdirty
    · rw [modify_heap_ne c f hx]; exact hc.dirty_iff x
  cached := fun p x h hd => by
    by_cases hx : x = o
    · subst hx
      rw [modify_heap_self] at hd ⊢
      rw [hcached hd, (hc.mapped p x h).1]
      rfl
    · rw [modify_heap_ne c f hx] at hd ⊢
      exact hc.cached p x h hd
  saved := fun p h => by
    by_cases hp : p = (c.heap o).vaPageNo
    · subst hp
      have := h o hm
      rw [modify_heap_self] at this
      exact hsaved this
    · refine hc.saved p fun x hx => ?_
      have hxo : x ≠ o := fun hxo => hp (by rw [← (hc.mapped p x hx).1, hxo])
      have := h x hx
      rwa [modify_heap_ne c f hxo] at this

lemma Cache.maps_inj (ho : c.maps o) (hx : c.maps x) (h : (c.heap o).vaPageNo = (c.heap x).vaPageNo) : o = x := by
  unfold Cache.maps at ho hx
  rw [h, hx] at ho
  exact (Option.some.inj ho).symm

/-- the others keep what they rely on when an object changes whose I/O none of them does, if it keeps its data -/
lemma At.others_modify (h : At cfg s t p) (hva : (f (s.cache.heap o)).vaPageNo = (s.cache.heap o).vaPageNo)
    (hown : ∀ t', t' ≠ t → (s.pc t').owns o = 0)
    (hd : (s.cache.heap o).state.holdsData = true → (f (s.cache.heap o)).state.holdsData = true) :
    ∀ t', t' ≠ t → (s.pc t').holding = false → PcOk cfg s.cache (s.pc t') →
      PcOk cfg (s.cache.modify o f) (s.pc t') := by
  intro t' ht hh hp
  have hfield := modify_field s.cache o PageMeta.vaPageNo hva
  refine hp.frame h.cache (transient_of_holding hh) le_rfl (fun x _ => hfield x) (fun x hx hm _ => ?_)
    fun job x _ hx => ?_
  · have hxo : x ≠ o := fun hxo => hx (by rw [hxo]; exact hown t' ht)
    refine ⟨?_, by rw [modify_heap_ne _ f hxo], by rw [modify_heap_ne _ f hxo], rfl⟩
    unfold Cache.maps at hm ⊢
    rw [hfield]
    exact hm
  · refine ⟨hx.1, ?_, hx.2.2⟩
    by_cases hxo : x = o
    · subst hxo; rw [modify_heap_self]; exact hd hx.2.1
    · rw [modify_heap_ne _ f hxo]; exact hx.2.1

lemma At.none_owns (h : At cfg s t p) (hb : s.cache.busy o = false) (ht : t' ≠ t) : (s.pc t').owns o = 0 := by
  by_contra hne
  rw [h.busy_of_owns ht hne] at hb
  cases hb

lemma CacheInv.saved_of_clean (hc : CacheInv cfg c) (hm : c.maps o) (hd : (c.heap o).dirty = false) :
    c.backing (c.heap o).vaPageNo = c.mem (c.heap o).vaPageNo := by
  refine hc.saved _ fun x hx => ?_
  rw [Cache.maps, hx] at hm
  rw [Option.some.inj hm]
  exact hd

lemma CacheInv.not_dirty (hc : CacheInv cfg c) (h1 : (c.heap o).state ≠ .residentDirty)
    (h2 : (c.heap o).state ≠ .evicting) : (c.heap o).dirty = false := by
  by_contra hd
  rw [Bool.not_eq_false] at hd
  rcases (hc.dirty_iff o).1 hd with h | h
  · exact h1 h
  · exact h2 h

/-! ## Creation -/

section

variable (c : Cache)

lemma lookup_create_self (a : ℕ) : (c.create a).pages.lookup a = some c.nextObj := by simp [Cache.create]

lemma lookup_create_ne {b : ℕ} (h : b ≠ a) : (c.create a).pages.lookup b = c.pages.lookup b := by
  simp [Cache.create, lookup_insert_of_ne _ h]

lemma heap_create_ne (a : ℕ) (h : x ≠ c.nextObj) : (c.create a).heap x = c.heap x := by
  simp [Cache.create, update_of_ne h]

@[simp] lemma heap_create_self (a : ℕ) : (c.create a).heap c.nextObj = newPage a := by simp [Cache.create]

lemma size_create_le (a : ℕ) : (c.create a).size ≤ c.size + 1 := by
  have hsub : (c.create a).pages.keys ⊆ insert a c.pages.keys := by
    intro b hb
    simp only [Cache.create, mem_keys, mem_insert] at hb
    simpa [mem_keys] using hb
  exact (Finset.card_le_card hsub).trans (Finset.card_insert_le _ _)

end

lemma CacheInv.next_nonResident (hc : CacheInv cfg c) : (c.heap c.nextObj).state = .nonResident := by
  refine hc.orphan _ fun h => ?_
  exact lt_irrefl _ (hc.mapped _ _ h).2

lemma CacheInv.create (hc : CacheInv cfg c) (hnone : c.pages.lookup a = none)
    (hroom : c.size < cfg.cachePages) : CacheInv cfg (c.create a) where
  mapped := fun b x h => by
    by_cases hb : b = a
    · subst hb
      rw [lookup_create_self] at h
      cases h
      rw [heap_create_self]
      exact ⟨rfl, Nat.lt_succ_self _⟩
    · rw [lookup_create_ne c hb] at h
      obtain ⟨h1, h2⟩ := hc.mapped b x h
      rw [heap_create_ne c a h2.ne]
      exact ⟨h1, h2.trans (Nat.lt_succ_self _)⟩
  fresh := fun x h => by
    have hx : c.nextObj < x := h
    rw [heap_create_ne c a hx.ne']
    exact hc.fresh x hx.le
  budget := (size_create_le c a).trans hroom
  orphan := fun x h => by
    by_cases hx : x = c.nextObj
    · subst hx; rw [heap_create_self]; rfl
    · rw [heap_create_ne c a hx] at h ⊢
      refine hc.orphan x fun hold => h ?_
      have hne : (c.heap x).vaPageNo ≠ a := fun he => by rw [he, hnone] at hold; cases hold
      rwa [lookup_create_ne c hne]
  dirty_iff := fun x => by
    by_cases hx : x = c.nextObj
    · subst hx; rw [heap_create_self]; simp [newPage]
    · rw [heap_create_ne c a hx]; exact hc.dirty_iff x
  cached := fun b x h hd => by
    by_cases hb : b = a
    · subst hb
      rw [lookup_create_self] at h
      cases h
      rw [heap_create_self] at hd
      cases hd
    · rw [lookup_create_ne c hb] at h
      rw [heap_create_ne c a (hc.mapped b x h).2.ne] at hd ⊢
      exact hc.cached b x h hd
  saved := fun b h => by
    by_cases hb : b = a
    · subst hb
      exact hc.saved b fun x hx => by rw [hnone] at hx; cases hx
    · refine hc.saved b fun x hx => ?_
      have := h x (by rwa [lookup_create_ne c hb])
      rwa [heap_create_ne c a (hc.mapped b x hx).2.ne] at this

lemma PcOk.create (h : PcOk cfg c p) (hc : CacheInv cfg c) (hnone : c.pages.lookup a = none)
    (htr : p.transient = false) : PcOk cfg (c.create a) p := by
  have hne : ∀ {b x}, c.pages.lookup b = some x → b ≠ a ∧ x ≠ c.nextObj := fun {b x} hx => by
    refine ⟨fun he => ?_, (hc.mapped b x hx).2.ne⟩
    rw [he, hnone] at hx
    cases hx
  refine h.frame hc htr (Nat.le_succ _) (fun x hx => by rw [heap_create_ne c a hx.ne]) (fun x _ hm _ => ?_)
    fun job x _ hx => ?_
  · obtain ⟨h1, h2⟩ := hne hm
    refine ⟨?_, by rw [heap_create_ne c a h2], by rw [heap_create_ne c a h2], rfl⟩
    unfold Cache.maps
    rw [heap_create_ne c a h2, lookup_create_ne c h1]
    exact hm
  · obtain ⟨h1, h2⟩ := hne hx.1
    exact ⟨by rw [lookup_create_ne c h1]; exact hx.1, by rw [heap_create_ne c a h2]; exact hx.2.1, hx.2.2⟩

lemma At.create (h : At cfg s t p) (htr : p.transient = false) (hnone : s.cache.pages.lookup a = none)
    (hroom : s.cache.size < cfg.cachePages) : At cfg (s.withCache (s.cache.create a)) t p := by
  have hold := h.cache.next_nonResident
  refine h.change (h.cache.create hnone hroom) (fun x => ?_) (fun x => ?_) (h.pcOk.create h.cache hnone htr)
    (fun t' ht hh hp => hp.create h.cache hnone (transient_of_holding hh)) (fun o ho => ?_)
    fun _ ho _ ht => h.evicting_other ho ht
  · by_cases hx : x = s.cache.nextObj
    · subst hx
      rw [heap_create_self, h.cache.fresh _ le_rfl]
      rfl
    · rw [heap_create_ne _ a hx]
  · unfold Cache.busy
    by_cases hx : x = s.cache.nextObj
    · subst hx
      rw [heap_create_self, hold]
      rfl
    · rw [heap_create_ne _ a hx]
  · have hself := h.inv.evictFree t t o (by rwa [goto_pc_self])
    rw [goto_pc_self] at hself
    refine ⟨hself, fun t' ht => ?_⟩
    have := h.inv.evictFree t t' o (by rwa [goto_pc_self])
    rwa [goto_pc_other ht] at this

/-- `get_or_create_page_locked`, with room for a page if it has to be created -/
lemma At.getOrCreate (h : At cfg s t p) (htr : p.transient = false) {alloc : Bool}
    (hroom : s.cache.pages.lookup a = none → s.cache.size < cfg.cachePages)
    (hget : s.cache.getOrCreate a alloc = some (c, o)) : At cfg (s.withCache c) t p ∧ c.pages.lookup a = some o := by
  unfold Cache.getOrCreate at hget
  cases hl : s.cache.pages.lookup a with
  | some x =>
    rw [hl] at hget
    cases hget
    exact ⟨h, hl⟩
  | none =>
    rw [hl] at hget
    dsimp only at hget
    split_ifs at hget
    cases hget
    exact ⟨h.create htr hl (hroom hl), lookup_create_self _ _⟩

/-! ## Loads -/

lemma CacheInv.of_lookup (hc : CacheInv cfg c) (h : c.pages.lookup a = some o) :
    c.maps o ∧ (c.heap o).vaPageNo = a := by
  have hva := (hc.mapped a o h).1
  exact ⟨by unfold Cache.maps; rw [hva]; exact h, hva⟩

structure Calls (p : Pc) (held : Option (Job × ObjId)) : Prop where
  holds : ∀ x, p.holds x = objCount (held.map Prod.snd) x
  owns : ∀ x, p.owns x = 0
  held : p.held = held

lemma LoadOk.modify {ret : LoadRet} (h : LoadOk cfg c o ret)
    (hva : (f (c.heap o)).vaPageNo = (c.heap o).vaPageNo) (hst : (c.heap o).state.holdsData = false) :
    LoadOk cfg (c.modify o f) o ret := by
  refine LoadOk.frame h (by rw [modify_heap_self, hva]) fun job x _ hx => ⟨hx.1, ?_, hx.2.2⟩
  have hxo : x ≠ o := fun hxo => by have := hx.2.1; rw [hxo, hst] at this; cases this
  rw [modify_heap_ne c f hxo]
  exact hx.2.1

/-- A load starts on a page in the map that is not resident. -/
lemma At.loadStart (h : At cfg s t p) {ret : LoadRet} (hcall : Calls p ret.held)
    (hm : s.cache.maps o) (hst : (s.cache.heap o).state = .nonResident) (hret : LoadOk cfg s.cache o ret) :
    At cfg (s.modify o fun q => { q with state := .loading, refcnt := q.refcnt + 1 }) t (.loadRead o ret) := by
  have hd : (s.cache.heap o).dirty = false := h.cache.not_dirty (by simp [hst]) (by simp [hst])
  have hb : s.cache.busy o = false := by rw [Cache.busy, hst]; rfl
  refine h.change (h.cache.modify hm rfl ?_ ?_ ?_) (fun x => ?_) (fun x => ?_) ⟨?_, ?_, ?_⟩
    (h.others_modify rfl (fun t' ht => h.none_owns hb ht) ?_) (fun x hx => by cases hx) fun x hx t' ht => ?_
  · simp [hd]
  · intro hh; cases hh
  · exact fun _ => h.cache.saved_of_clean hm hd
  · rw [hcall.holds]
    by_cases hx : x = o
    · subst hx
      rw [modify_heap_self]
      simp only [Pc.holds, Pc.heldObj, Pc.held, Pc.loading, Pc.snapshot, objCount_self, List.count_nil]
      omega
    · rw [modify_heap_ne _ _ hx]
      simp [Pc.holds, Pc.heldObj, Pc.held, Pc.loading, Pc.snapshot, objCount_ne hx]
  · rw [hcall.owns]
    by_cases hx : x = o
    · subst hx
      rw [hb]
      simp [Cache.busy, SsdPageState.busy, Pc.owns, Pc.loading, Pc.flushing]
    · simp [Cache.busy, modify_heap_ne _ _ hx, Pc.owns, Pc.loading, Pc.flushing, objCount_ne hx]
  · unfold Cache.maps
    rw [modify_heap_self]
    exact hm
  · rw [modify_heap_self]
  · exact LoadOk.modify hret rfl (by rw [hst]; rfl)
  · intro hh
    rw [hst] at hh
    cases hh
  · exact h.evicting_other (by unfold Pc.heldObj; rw [hcall.held]; exact hx) ht

def LoadRet.back : LoadRet → Pc
  | .demand job => .loop job
  | .ahead job held i => .trim (.ahead job held i)

/-- A load ends: the page is clean with the data read, or not resident again. -/
lemma At.loadEnd {ret : LoadRet} (h : At cfg s t (.loadDone o ok ret)) : At cfg (s.modify o fun q =>
      if ok then { q with refcnt := q.refcnt - 1, state := .residentClean, dirty := false, accessed := true }
      else { q with refcnt := q.refcnt - 1, state := .nonResident }) t ret.back := by
  obtain ⟨hm, hst, hret, hdata⟩ := h.pcOk
  have hd : (s.cache.heap o).dirty = false := h.cache.not_dirty (by simp [hst]) (by simp [hst])
  have hsaved := h.cache.saved_of_clean hm hd
  have hown : Pc.owns (.loadDone o ok ret) o ≠ 0 := by simp [Pc.owns, Pc.loading]
  have hb : s.cache.busy o = true := by rw [Cache.busy, hst]; rfl
  -- the thread's own reference is counted, so the count can be lowered
  have hpos : 1 ≤ (s.cache.heap o).refcnt := by
    refine le_trans ?_ (h.holds_le o)
    simp only [Pc.holds, Pc.loading, objCount_self]
    omega
  have hback : ∀ x, (ret.back).holds x = objCount (ret.held.map Prod.snd) x := by
    intro x
    cases ret <;> simp [LoadRet.back, Pc.holds, Pc.heldObj, Pc.held, Pc.loading, Pc.snapshot, LoadRet.held, Trim.held]
  have hbacko : ∀ x, (ret.back).owns x = 0 := by
    intro x
    cases ret <;> simp [LoadRet.back, Pc.owns, Pc.loading, Pc.flushing]
  refine h.change (h.cache.modify hm (by cases ok <;> rfl) ?_ ?_ ?_) (fun x => ?_) (fun x => ?_) ?_
    (h.others_modify (by cases ok <;> rfl) (fun t' ht => h.other_owns ht hown) ?_) (fun x hx => ?_)
    fun x hx t' ht => h.evicting_other (p := .loadDone o ok ret) ?_ ht
  · cases ok <;> simp [hd]
  · cases ok
    · intro hh; cases hh
    · exact fun _ => (hdata rfl).trans hsaved
  · exact fun _ => hsaved
  · rw [hback]
    by_cases hx : x = o
    · subst hx
      rw [modify_heap_self]
      simp only [Pc.holds, Pc.heldObj, Pc.held, Pc.loading, Pc.snapshot, objCount_self, List.count_nil]
      cases ok <;> simp only [if_true, if_false, Bool.false_eq_true] <;> omega
    · rw [modify_heap_ne _ _ hx]
      simp [Pc.holds, Pc.heldObj, Pc.held, Pc.loading, Pc.snapshot, objCount_ne hx]
  · rw [hbacko]
    by_cases hx : x = o
    · subst hx
      rw [hb]
      cases ok <;> simp [Cache.busy, SsdPageState.busy, Pc.owns, Pc.loading, Pc.flushing]
    · simp [Cache.busy, modify_heap_ne _ _ hx, Pc.owns, Pc.loading, Pc.flushing, objCount_ne hx]
  · have hret' := LoadOk.modify (f := fun q =>
      if ok then { q with refcnt := q.refcnt - 1, state := .residentClean, dirty := false, accessed := true }
      else { q with refcnt := q.refcnt - 1, state := .nonResident }) hret (by cases ok <;> rfl) (by rw [hst]; rfl)
    cases ret with
    | demand job => trivial
    | ahead job x i => exact hret'
  · intro hh
    rw [hst] at hh
    cases hh
  · cases ret <;> cases hx
  · cases ret with
    | demand job => cases hx
    | ahead job y i => exact hx

/-- A page is held for read-ahead, right after its load. -/
lemma At.hold (h : At cfg s t (.loop job)) (hl : s.cache.pages.lookup (job.page cfg) = some o)
    (hst : (s.cache.heap o).state = .residentClean) (hra : job.readAhead = true) :
    At cfg (s.modify o fun q => { q with refcnt := q.refcnt + 1 }) t (.ahead job o 1) := by
  have hlt := (h.cache.mapped _ _ hl).2
  refine h.touch (Same.modify _ _ rfl rfl rfl rfl) (fun x => ?_) (fun x => rfl) ⟨hl, by rw [hst]; rfl, hra⟩ rfl
    (fun x hx => ?_) fun x hx t' ht he => ?_
  · by_cases hx : x = o
    · subst hx
      rw [modify_heap_self]
      simp [Pc.holds, Pc.heldObj, Pc.held, Pc.loading, Pc.snapshot]
    · rw [modify_heap_ne _ _ hx]
      simp [Pc.holds, Pc.heldObj, Pc.held, Pc.loading, Pc.snapshot, objCount_ne hx]
  · rw [modify_heap_ne _ _ (hlt.trans_le hx).ne']
    exact h.cache.fresh x hx
  · -- a page being evicted is in state Evicting, this one is clean
    cases hx
    have hp := h.other_pcOk ht
    cases hpc : s.pc t' with
    | flushWrite y ret | flushDone y ok ret =>
      rw [hpc] at he hp
      cases ret <;> cases he
      exact absurd (hp.2.1.symm.trans hst) (by decide)
    | _ => rw [hpc] at he; cases he

/-- The held page is let go: it is still in the map with its data. -/
lemma At.unhold (h : At cfg s t p) (hcall : Calls p (some (job, x)))
    (hok : HeldOk cfg s.cache job x) : Inv cfg (aheadStop s t job x) := by
  have hlt := (h.cache.mapped _ _ hok.1).2
  have hholds : ∀ y, p.holds y = objCount (some x) y := hcall.holds
  have hpos : 1 ≤ (s.cache.heap x).refcnt := by
    refine le_trans ?_ (h.holds_le x)
    rw [hholds, objCount_self]
  have hat : At cfg (s.modify x fun q => { q with refcnt := q.refcnt - 1 }) t (.loaded job) := by
    refine h.touch (Same.modify _ _ rfl rfl rfl rfl) (fun y => ?_) (fun y => (hcall.owns y).symm)
      ⟨x, hok.1, hok.2.1, fun hr => ?_⟩ rfl (fun y hy => ?_) fun y hy => by cases hy
    · rw [hholds, show Pc.holds (.loaded job) y = 0 from rfl]
      by_cases hy : y = x
      · subst hy
        rw [modify_heap_self, objCount_self]
        exact Nat.sub_add_cancel hpos
      · rw [modify_heap_ne _ _ hy, objCount_ne hy]
    · rw [hok.2.2] at hr; cases hr
    · rw [modify_heap_ne _ _ (hlt.trans_le hy).ne']
      exact h.cache.fresh y hy
  exact hat.inv

/-! ## Write-backs -/

lemma FlushOk.modify (h : FlushOk cfg c o ret) (hva : (f (c.heap o)).vaPageNo = (c.heap o).vaPageNo)
    (hst : (c.heap o).state.holdsData = true → (f (c.heap o)).state.holdsData = true) :
    FlushOk cfg (c.modify o f) o ret := by
  refine FlushOk.frame h le_rfl (by rw [modify_heap_self, hva]) fun job x _ hx => ⟨hx.1, ?_, hx.2.2⟩
  by_cases hxo : x = o
  · subst hxo; rw [modify_heap_self]; exact hst hx.2.1
  · rw [modify_heap_ne c f hxo]; exact hx.2.1

structure FlushCalls (p : Pc) (ret : FlushRet) : Prop where
  holds : ∀ x, p.holds x = objCount (ret.held.map Prod.snd) x + ret.snapshot.count x
  owns : ∀ x, p.owns x = 0
  held : p.held = ret.held

/-- A write-back starts on a dirty page; a page to be erased afterwards is held by nobody. -/
lemma At.flushStart (h : At cfg s t p) (hcall : FlushCalls p ret)
    (hd : (s.cache.heap o).dirty = true) (hb : s.cache.busy o = false) (hret : FlushOk cfg s.cache o ret)
    (hfree : ∀ a r, ret = .evict a r → (s.cache.heap o).refcnt = 0) :
    At cfg (s.modify o fun q => { q with state := .evicting }) t (.flushWrite o ret) := by
  have hst : (s.cache.heap o).state = .residentDirty := by
    rcases (h.cache.dirty_iff o).1 hd with hs | hs
    · exact hs
    · rw [Cache.busy, hs] at hb; cases hb
  have hm : s.cache.maps o := by
    by_contra hno
    rw [h.cache.orphan o hno] at hst
    cases hst
  refine h.change (h.cache.modify hm rfl ?_ ?_ ?_) (fun x => ?_) (fun x => ?_) ⟨?_, ?_, ?_⟩
    (h.others_modify rfl (fun t' ht => h.none_owns hb ht) fun _ => rfl) (fun x hx => ?_) fun x hx t' ht => ?_
  · simp [hd]
  · exact fun _ => h.cache.cached _ _ hm (by rw [hst]; rfl)
  · intro hh
    rw [show (s.cache.heap o).dirty = false from hh] at hd
    cases hd
  · rw [hcall.holds, modify_field s.cache o PageMeta.refcnt rfl]
    simp [Pc.holds, Pc.heldObj, Pc.held, Pc.loading, Pc.snapshot]
  · rw [hcall.owns]
    by_cases hx : x = o
    · subst hx
      rw [hb]
      simp [Cache.busy, SsdPageState.busy, Pc.owns, Pc.loading, Pc.flushing]
    · simp [Cache.busy, modify_heap_ne _ _ hx, Pc.owns, Pc.loading, Pc.flushing, objCount_ne hx]
  · unfold Cache.maps
    rw [modify_heap_self]
    exact hm
  · rw [modify_heap_self]
  · exact FlushOk.modify hret rfl fun _ => rfl
  · cases ret with
    | flush a b acc => cases hx
    | evict a r =>
      cases hx
      have hnone := h.none_held (hfree a r rfl)
      refine ⟨?_, hnone.2⟩
      have := hnone.1
      rw [Pc.heldObj, hcall.held] at this
      exact this
  · refine h.evicting_other (o := x) ?_ ht
    rw [Pc.heldObj, hcall.held]
    exact hx

def FlushRet.back : FlushRet → Pc
  | .evict _ (.one ret) => .evictOne 0 ret
  | .evict _ (.after a last ok) => .evictLoop a last ok
  | .flush snapshot rest ok => .flushLoop snapshot rest ok

lemma FlushRet.back_calls (ret : FlushRet) : FlushCalls ret.back ret where
  holds := fun x => by
    cases ret with
    | evict a r => cases r <;> simp [FlushRet.back, Pc.holds, Pc.heldObj, Pc.held, Pc.loading, Pc.snapshot,
        FlushRet.held, FlushRet.snapshot, EvictRet.held]
    | flush a b ok => simp [FlushRet.back, Pc.holds, Pc.heldObj, Pc.held, Pc.loading, Pc.snapshot, FlushRet.held,
        FlushRet.snapshot]
  owns := fun x => by
    cases ret with
    | evict a r => cases r <;> simp [FlushRet.back, Pc.owns, Pc.loading, Pc.flushing]
    | flush a b ok => simp [FlushRet.back, Pc.owns, Pc.loading, Pc.flushing]
  held := by
    cases ret with
    | evict a r => cases r <;> rfl
    | flush a b ok => rfl

lemma FlushOk.back (h : FlushOk cfg c o ret) : PcOk cfg c ret.back := by
  cases ret with
  | evict a r =>
    cases r with
    | one r => exact h.2
    | after a b ok => trivial
  | flush a b ok => exact h

lemma FlushRet.back_evicting (ret : FlushRet) : ret.back.evicting = none := by
  cases ret with
  | evict a r => cases r <;> rfl
  | flush a b ok => rfl

/-- A write-back ends: the page is clean and saved, or dirty as before. -/
lemma At.flushEnd (h : At cfg s t (.flushDone o ok ret)) : At cfg (s.modify o fun q =>
      if ok then { q with dirty := false, state := .residentClean } else { q with state := .residentDirty })
      t ret.back := by
  obtain ⟨hm, hst, hret, hsaved⟩ := h.pcOk
  have hd : (s.cache.heap o).dirty = true := (h.cache.dirty_iff o).2 (Or.inr hst)
  have hdata := h.cache.cached _ _ hm (by rw [hst]; rfl)
  have hown : Pc.owns (.flushDone o ok ret) o ≠ 0 := by simp [Pc.owns, Pc.loading, Pc.flushing]
  have hb : s.cache.busy o = true := by rw [Cache.busy, hst]; rfl
  refine h.change (h.cache.modify hm (by cases ok <;> rfl) ?_ ?_ ?_) (fun x => ?_) (fun x => ?_) ?_
    (h.others_modify (by cases ok <;> rfl) (fun t' ht => h.other_owns ht hown) ?_) (fun x hx => ?_)
    fun x hx t' ht => h.evicting_other (p := .flushDone o ok ret) ?_ ht
  · cases ok <;> simp [hd]
  · cases ok <;> exact fun _ => hdata
  · cases ok
    · intro hh
      rw [show (s.cache.heap o).dirty = false from hh] at hd
      cases hd
    · exact fun _ => (hsaved rfl).trans hdata
  · rw [ret.back_calls.holds, modify_field s.cache o PageMeta.refcnt (by cases ok <;> rfl)]
    simp [Pc.holds, Pc.heldObj, Pc.held, Pc.loading, Pc.snapshot]
  · rw [ret.back_calls.owns]
    by_cases hx : x = o
    · subst hx
      rw [hb]
      cases ok <;> simp [Cache.busy, SsdPageState.busy, Pc.owns, Pc.loading, Pc.flushing]
    · simp [Cache.busy, modify_heap_ne _ _ hx, Pc.owns, Pc.loading, Pc.flushing, objCount_ne hx]
  · exact (FlushOk.modify hret (by cases ok <;> rfl) (by cases ok <;> exact fun _ => rfl)).back
  · cases ok <;> exact fun _ => rfl
  · rw [ret.back_evicting] at hx; cases hx
  · rw [Pc.heldObj, ret.back_calls.held] at hx
    exact hx

/-! ## Erasing a page -/

def Cache.dropped (c : Cache) (a : ℕ) (o : ObjId) : Cache :=
  { c.modify o fun q => { q with state := .nonResident } with pages := c.pages.erase a }

section

variable (c : Cache)

lemma lookup_dropped_self (a : ℕ) (o : ObjId) : (c.dropped a o).pages.lookup a = none := by simp [Cache.dropped]

lemma lookup_dropped_ne {b : ℕ} (o : ObjId) (h : b ≠ a) : (c.dropped a o).pages.lookup b = c.pages.lookup b := by
  simp [Cache.dropped, lookup_erase_ne h]

lemma heap_dropped_ne (a : ℕ) (h : x ≠ o) : (c.dropped a o).heap x = c.heap x := by
  simp [Cache.dropped, Cache.modify, update_of_ne h]

lemma heap_dropped_self (a : ℕ) (o : ObjId) : (c.dropped a o).heap o = { c.heap o with state := .nonResident } := by
  simp [Cache.dropped, Cache.modify]

lemma va_dropped (a : ℕ) (o x : ObjId) : ((c.dropped a o).heap x).vaPageNo = (c.heap x).vaPageNo := by
  by_cases hx : x = o
  · subst hx; rw [heap_dropped_self]
  · rw [heap_dropped_ne c a hx]

end

lemma CacheInv.dropped (hc : CacheInv cfg c) (hl : c.pages.lookup a = some o)
    (hd : (c.heap o).dirty = false) : CacheInv cfg (c.dropped a o) where
  mapped := fun b x h => by
    have hb : b ≠ a := fun hb => by rw [hb, lookup_dropped_self] at h; cases h
    rw [lookup_dropped_ne c o hb] at h
    rw [va_dropped]
    exact hc.mapped b x h
  fresh := fun x h => by
    have hx : x ≠ o := ((hc.mapped a o hl).2.trans_le h).ne'
    rw [heap_dropped_ne c a hx]
    exact hc.fresh x h
  budget := by
    refine le_trans ?_ hc.budget
    unfold Cache.size Cache.dropped
    rw [keys_erase]
    exact Finset.card_le_card (Finset.erase_subset _ _)
  orphan := fun x h => by
    by_cases hx : x = o
    · subst hx; rw [heap_dropped_self]
    · rw [va_dropped] at h
      rw [heap_dropped_ne c a hx]
      refine hc.orphan x fun hold => ?_
      by_cases hva : (c.heap x).vaPageNo = a
      · rw [hva, hl] at hold
        exact hx (Option.some.inj hold).symm
      · exact h (by rwa [lookup_dropped_ne c o hva])
  dirty_iff := fun x => by
    by_cases hx : x = o
    · subst hx; rw [heap_dropped_self]; simp [hd]
    · rw [heap_dropped_ne c a hx]; exact hc.dirty_iff x
  cached := fun b x h hh => by
    have hb : b ≠ a := fun hb => by rw [hb, lookup_dropped_self] at h; cases h
    rw [lookup_dropped_ne c o hb] at h
    have hx : x ≠ o := fun hx => hb (by rw [← (hc.mapped b x h).1, hx, (hc.mapped a o hl).1])
    rw [heap_dropped_ne c a hx] at hh ⊢
    exact hc.cached b x h hh
  saved := fun b h => by
    by_cases hb : b = a
    · subst hb
      obtain ⟨hm, hva⟩ := hc.of_lookup hl
      have := hc.saved_of_clean hm hd
      rwa [hva] at this
    · refine hc.saved b fun x hx => ?_
      have hxo : x ≠ o := fun hxo => hb (by rw [← (hc.mapped b x hx).1, hxo, (hc.mapped a o hl).1])
      have := h x (by rwa [lookup_dropped_ne c o hb])
      rwa [heap_dropped_ne c a hxo] at this

lemma PcOk.dropped (h : PcOk cfg c p) (hc : CacheInv cfg c) (hl : c.pages.lookup a = some o)
    (hb : c.busy o = false) (htr : p.transient = false) (hfree : p.heldObj ≠ some o) : PcOk cfg (c.dropped a o) p := by
  obtain ⟨hm, hva⟩ := hc.of_lookup hl
  refine h.frame hc htr le_rfl (fun x _ => va_dropped c a o x) (fun x _ hmx hbx => ?_) fun job x hp hx => ?_
  · have hxo : x ≠ o := fun hxo => by rw [hxo, hb] at hbx; cases hbx
    refine ⟨?_, by rw [heap_dropped_ne c a hxo], by rw [heap_dropped_ne c a hxo], rfl⟩
    unfold Cache.maps
    rw [va_dropped, lookup_dropped_ne c o fun he => hxo (Cache.maps_inj hmx hm (he.trans hva.symm))]
    exact hmx
  · have hxo : x ≠ o := fun hxo => hfree (by rw [Pc.heldObj, hp, ← hxo]; rfl)
    have hne : job.page cfg ≠ a := fun he => by
      have h1 := hx.1
      rw [he, hl] at h1
      exact hxo (Option.some.inj h1).symm
    exact ⟨by rw [lookup_dropped_ne c o hne]; exact hx.1, by rw [heap_dropped_ne c a hxo]; exact hx.2.1, hx.2.2⟩

/-- A page is erased: it is saved, not busy, and held by nobody. -/
lemma At.erase (h : At cfg s t p) (htr : p.transient = false) (hev : p.evicting = none)
    (hl : s.cache.pages.lookup a = some o) (hd : (s.cache.heap o).dirty = false) (hb : s.cache.busy o = false)
    (hfree : p.heldObj ≠ some o ∧ ∀ t', t' ≠ t → (s.pc t').heldObj ≠ some o) :
    At cfg (s.withCache (s.cache.dropped a o)) t p := by
  refine h.change (h.cache.dropped hl hd) (fun x => ?_) (fun x => ?_) (h.pcOk.dropped h.cache hl hb htr hfree.1)
    (fun t' ht hh hp => hp.dropped h.cache hl hb (transient_of_holding hh) (hfree.2 t' ht))
    (fun x hx => by rw [hev] at hx; cases hx) fun _ hx _ ht => h.evicting_other hx ht
  · by_cases hx : x = o
    · subst hx; rw [heap_dropped_self]
    · rw [heap_dropped_ne _ a hx]
  · by_cases hx : x = o
    · subst hx
      rw [hb, Cache.busy, heap_dropped_self]
      rfl
    · rw [Cache.busy, heap_dropped_ne _ a hx]
      rfl

/-! ## Storing a chunk -/

def Cache.stored (c : Cache) (a : ℕ) (o : ObjId) (store : Buf → Buf) : Cache :=
  { c.modify o fun q =>
      { q with data := store q.data, dirty := true, state := .residentDirty, accessed := true } with
    mem := update c.mem a (store (c.mem a)) }

lemma heap_stored_ne (c : Cache) (a : ℕ) (store : Buf → Buf) (h : x ≠ o) : (c.stored a o store).heap x = c.heap x := by
  simp [Cache.stored, Cache.modify, update_of_ne h]

lemma heap_stored_self (c : Cache) (a : ℕ) (o : ObjId) (store : Buf → Buf) :
    (c.stored a o store).heap o = { c.heap o with
      data := store (c.heap o).data, dirty := true, state := .residentDirty, accessed := true } := by
  simp [Cache.stored, Cache.modify]

lemma va_stored (c : Cache) (a : ℕ) (o x : ObjId) (store : Buf → Buf) :
    ((c.stored a o store).heap x).vaPageNo = (c.heap x).vaPageNo := by
  by_cases hx : x = o
  · subst hx; rw [heap_stored_self]
  · rw [heap_stored_ne c a store hx]

lemma CacheInv.stored (hc : CacheInv cfg c) (hl : c.pages.lookup a = some o)
    (hd : (c.heap o).state.holdsData = true) (store : Buf → Buf) : CacheInv cfg (c.stored a o store) where
  mapped := fun b x h => by rw [va_stored]; exact hc.mapped b x h
  fresh := fun x h => by
    rw [heap_stored_ne c a store ((hc.mapped a o hl).2.trans_le h).ne']
    exact hc.fresh x h
  budget := hc.budget
  orphan := fun x h => by
    rw [va_stored] at h
    have hx : x ≠ o := fun hx => h (by rw [hx]; exact (hc.of_lookup hl).1)
    rw [heap_stored_ne c a store hx]
    exact hc.orphan x h
  dirty_iff := fun x => by
    by_cases hx : x = o
    · subst hx; rw [heap_stored_self]; simp
    · rw [heap_stored_ne c a store hx]; exact hc.dirty_iff x
  cached := fun b x h hh => by
    by_cases hx : x = o
    · subst hx
      have hb : b = a := (hc.mapped b x h).1.symm.trans (hc.mapped a x hl).1
      subst hb
      rw [heap_stored_self]
      simp only [Cache.stored, update_self, hc.cached b x hl hd]
    · have hb : b ≠ a := fun hb => by
        have h' : c.pages.lookup b = some x := h
        rw [hb, hl] at h'
        exact hx (Option.some.inj h').symm
      rw [heap_stored_ne c a store hx] at hh ⊢
      simp only [Cache.stored, update_of_ne hb]
      exact hc.cached b x h hh
  saved := fun b h => by
    by_cases hb : b = a
    · subst hb
      have := h o hl
      rw [heap_stored_self] at this
      cases this
    · simp only [Cache.stored, update_of_ne hb]
      refine hc.saved b fun x hx => ?_
      have hxo : x ≠ o := fun hxo => hb (by rw [← (hc.mapped b x hx).1, hxo, (hc.mapped a o hl).1])
      have := h x hx
      rwa [heap_stored_ne c a store hxo] at this

lemma PcOk.stored (h : PcOk cfg c p) (hc : CacheInv cfg c) (hb : c.busy o = false)
    (htr : p.transient = false) (store : Buf → Buf) : PcOk cfg (c.stored a o store) p := by
  refine h.frame hc htr le_rfl (fun x _ => va_stored c a o x store) (fun x _ hmx hbx => ?_) fun job x _ hx => ?_
  · have hxo : x ≠ o := fun hxo => by rw [hxo, hb] at hbx; cases hbx
    refine ⟨?_, by rw [heap_stored_ne c a store hxo], by rw [heap_stored_ne c a store hxo], rfl⟩
    unfold Cache.maps
    rw [va_stored]
    exact hmx
  · refine ⟨hx.1, ?_, hx.2.2⟩
    by_cases hxo : x = o
    · subst hxo; rw [heap_stored_self]; rfl
    · rw [heap_stored_ne c a store hxo]; exact hx.2.1

/-- A chunk is stored in a resident page that is not busy. -/
lemma At.store {job' : Job} (h : At cfg s t (.loaded job)) (hl : s.cache.pages.lookup a = some o)
    (hd : (s.cache.heap o).state.holdsData = true) (hb : s.cache.busy o = false) (store : Buf → Buf) :
    At cfg (s.withCache (s.cache.stored a o store)) t (.loop job') := by
  refine h.change (h.cache.stored hl hd store) (fun x => ?_) (fun x => ?_) trivial
    (fun t' ht hh hp => hp.stored h.cache hb (transient_of_holding hh) store) (fun x hx => by cases hx)
    fun x hx => by cases hx
  · by_cases hx : x = o
    · subst hx; rw [heap_stored_self]; rfl
    · rw [heap_stored_ne _ a store hx]; rfl
  · by_cases hx : x = o
    · subst hx
      rw [hb, Cache.busy, heap_stored_self]
      rfl
    · rw [Cache.busy, heap_stored_ne _ a store hx]
      rfl

end CxlMemSim.Ssd
