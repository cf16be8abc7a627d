/-
The invariant of the page cache machine, and the rules by which a step keeps it. `At` is the invariant read as if the
thread were already at another place: `At.change`, `At.release`, `At.finish`.
-/
import CxlMemSim.Ssd.Backend

namespace CxlMemSim.Ssd

open Finset Function
open CxlMemSim.Core

variable {n : ℕ} {cfg : SsdStreamingConfig}

def SsdPageState.holdsData : SsdPageState → Bool
  | .residentClean => true
  | .residentDirty => true
  | .evicting => true
  | _ => false

structure CacheInv (cfg : SsdStreamingConfig) (c : Cache) : Prop where
  mapped : ∀ p o, c.pages.lookup p = some o → (c.heap o).vaPageNo = p ∧ o < c.nextObj
  fresh : ∀ o, c.nextObj ≤ o → (c.heap o).refcnt = 0
  budget : c.size ≤ cfg.cachePages
  orphan : ∀ o, c.pages.lookup (c.heap o).vaPageNo ≠ some o → (c.heap o).state = .nonResident
  dirty_iff : ∀ o, (c.heap o).dirty = true ↔ (c.heap o).state = .residentDirty ∨ (c.heap o).state = .evicting
  cached : ∀ p o, c.pages.lookup p = some o → (c.heap o).state.holdsData = true → (c.heap o).data = c.mem p
  saved : ∀ p, (∀ o, c.pages.lookup p = some o → (c.heap o).dirty = false) → c.backing p = c.mem p

/-! ## Threads -/

def Room.held : Room → Option (Job × ObjId)
  | .ahead job h _ => some (job, h)
  | _ => none

def Trim.held : Trim → Option (Job × ObjId)
  | .ahead job h _ => some (job, h)
  | .demand _ _ => none

def OneRet.held : OneRet → Option (Job × ObjId)
  | .room r => r.held
  | .trim r => r.held

def EvictRet.held : EvictRet → Option (Job × ObjId)
  | .one ret => ret.held
  | .after _ _ _ => none

def FlushRet.held : FlushRet → Option (Job × ObjId)
  | .evict _ ret => ret.held
  | .flush _ _ _ => none

def LoadRet.held : LoadRet → Option (Job × ObjId)
  | .ahead job h _ => some (job, h)
  | .demand _ => none

def Pc.held : Pc → Option (Job × ObjId)
  | .room r => r.held
  | .evictOne _ ret => ret.held
  | .trim r => r.held
  | .ahead job h _ => some (job, h)
  | .loadRead _ ret => ret.held
  | .loadDone _ _ ret => ret.held
  | .flushWrite _ ret => ret.held
  | .flushDone _ _ ret => ret.held
  | .evictWait _ _ ret => ret.held
  | .flushWait _ ret => ret.held
  | _ => none

def FlushRet.snapshot : FlushRet → List ObjId
  | .flush snapshot _ _ => snapshot
  | .evict _ _ => []

def Pc.snapshot : Pc → List ObjId
  | .flushLoop snapshot _ _ => snapshot
  | .flushWrite _ ret => ret.snapshot
  | .flushDone _ _ ret => ret.snapshot
  | .flushWait _ ret => ret.snapshot
  | _ => []

def Pc.loading : Pc → Option ObjId
  | .loadRead o _ => some o
  | .loadDone o _ _ => some o
  | _ => none

def Pc.flushing : Pc → Option ObjId
  | .flushWrite o _ => some o
  | .flushDone o _ _ => some o
  | _ => none

def Pc.evicting : Pc → Option ObjId
  | .flushWrite o (.evict _ _) => some o
  | .flushDone o _ (.evict _ _) => some o
  | _ => none

def Pc.heldObj (p : Pc) : Option ObjId := p.held.map Prod.snd

def objCount (x : Option ObjId) (o : ObjId) : ℕ := if x = some o then 1 else 0

@[simp] lemma objCount_none (o : ObjId) : objCount none o = 0 := rfl

@[simp] lemma objCount_self (o : ObjId) : objCount (some o) o = 1 := if_pos rfl

lemma objCount_ne {o x : ObjId} (h : x ≠ o) : objCount (some o) x = 0 := if_neg fun he => h (Option.some.inj he).symm

lemma objCount_of_eq {x : Option ObjId} {o : ObjId} (h : x = some o) : objCount x o = 1 := if_pos h

def Pc.holds (p : Pc) (o : ObjId) : ℕ := objCount p.heldObj o + objCount p.loading o + p.snapshot.count o

def Pc.owns (p : Pc) (o : ObjId) : ℕ := objCount p.loading o + objCount p.flushing o

def Pc.holding : Pc → Bool
  | .loop _ => true
  | .room _ => true
  | .evictOne _ _ => true
  | .trim _ => true
  | .ahead _ _ _ => true
  | .loaded _ => true
  | .evictLoop _ _ _ => true
  | .streamLoop _ _ => true
  | .unpinLoop _ _ => true
  | .flushLoop _ _ _ => true
  | _ => false

section

variable (cfg : SsdStreamingConfig) (c : Cache)

def HeldOk (job : Job) (h : ObjId) : Prop :=
  c.pages.lookup (job.page cfg) = some h ∧ (c.heap h).state.holdsData = true ∧ job.readAhead = true

/-- the page is in the map with its data, and not being written back unless the caller read ahead -/
def LoadedOk (job : Job) : Prop :=
  ∃ o, c.pages.lookup (job.page cfg) = some o ∧ (c.heap o).state.holdsData = true ∧
    (job.readAhead = false → (c.heap o).state ≠ .evicting)

def RoomOk : Room → Prop
  | .ahead job h _ => HeldOk cfg c job h
  | _ => True

def OneOk : OneRet → Prop
  | .room r => RoomOk cfg c r
  | .trim _ => False

def EvictOk : EvictRet → Prop
  | .one ret => OneOk cfg c ret
  | .after _ _ _ => True

def SnapshotOk (snapshot rest : List ObjId) : Prop := (∀ o ∈ snapshot, o < c.nextObj) ∧ ∀ o ∈ rest, o < c.nextObj

def FlushOk (o : ObjId) : FlushRet → Prop
  | .evict p ret => (c.heap o).vaPageNo = p ∧ EvictOk cfg c ret
  | .flush snapshot rest _ => SnapshotOk c snapshot rest

def LoadOk (o : ObjId) : LoadRet → Prop
  | .demand job => (c.heap o).vaPageNo = job.page cfg
  | .ahead job h _ => HeldOk cfg c job h

def Cache.maps (o : ObjId) : Prop := c.pages.lookup (c.heap o).vaPageNo = some o

def PcOk : Pc → Prop
  | .idle => True
  | .entry _ => True
  | .loop _ => True
  | .room r => RoomOk cfg c r
  | .evictOne _ ret => OneOk cfg c ret
  | .trim (.demand job o) => c.pages.lookup (job.page cfg) = some o ∧ (c.heap o).state = .nonResident
  | .trim (.ahead job h _) => HeldOk cfg c job h
  | .ahead job h _ => HeldOk cfg c job h
  | .loaded job => LoadedOk cfg c job
  | .loadRead o ret => c.maps o ∧ (c.heap o).state = .loading ∧ LoadOk cfg c o ret
  | .loadDone o ok ret => c.maps o ∧ (c.heap o).state = .loading ∧ LoadOk cfg c o ret ∧
      (ok = true → (c.heap o).data = c.backing (c.heap o).vaPageNo)
  | .flushWrite o ret => c.maps o ∧ (c.heap o).state = .evicting ∧ FlushOk cfg c o ret
  | .flushDone o ok ret => c.maps o ∧ (c.heap o).state = .evicting ∧ FlushOk cfg c o ret ∧
      (ok = true → c.backing (c.heap o).vaPageNo = (c.heap o).data)
  | .ensureWait _ o => o < c.nextObj
  | .evictWait p o ret => o < c.nextObj ∧ (c.heap o).vaPageNo = p ∧ EvictOk cfg c ret
  -- an eviction finds its page not busy just before the write-back, so only `flush` waits there
  | .flushWait _ (.evict _ _) => False
  | .flushWait o (.flush snapshot rest _) => o < c.nextObj ∧ SnapshotOk c snapshot rest
  | .evictLoop _ _ _ => True
  | .streamLoop _ _ => True
  | .unpinLoop _ _ => True
  | .flushLoop snapshot rest _ => SnapshotOk c snapshot rest
  | .threw => False

end

/-! ## The invariant -/

structure Inv (cfg : SsdStreamingConfig) (s : Sys n) : Prop where
  cache : CacheInv cfg s.cache
  locked : ∀ t, (s.pc t).holding = true → s.lock = some t
  refs : ∀ o, (s.cache.heap o).refcnt = ∑ t, (s.pc t).holds o
  owned : ∀ o, (s.cache.busy o).toNat = ∑ t, (s.pc t).owns o
  pcs : ∀ t, PcOk cfg s.cache (s.pc t)
  evictFree : ∀ t t' o, (s.pc t).evicting = some o → (s.pc t').heldObj ≠ some o

structure At (cfg : SsdStreamingConfig) (s : Sys n) (t : Fin n) (p : Pc) : Prop where
  inv : Inv cfg (s.goto t p)
  lock : s.lock = some t

lemma inv_start (n : ℕ) (content : ℕ → Buf) : Inv cfg (start n content) where
  cache := {
    mapped := fun p o h => by simp [start] at h
    fresh := fun o _ => rfl
    budget := by simp [Cache.size, start]
    orphan := fun o _ => rfl
    dirty_iff := fun o => by simp [start, newPage]
    cached := fun p o h => by simp [start] at h
    saved := fun p _ => rfl }
  locked := fun t h => by simp [start, Pc.holding] at h
  refs := fun o => by simp [start, newPage, Pc.holds, Pc.heldObj, Pc.held, Pc.loading, Pc.snapshot]
  owned := fun o => by simp [start, newPage, Cache.busy, SsdPageState.busy, Pc.owns, Pc.loading, Pc.flushing]
  pcs := fun t => trivial
  evictFree := fun t t' o h => by simp [start, Pc.evicting] at h

lemma sum_move (pc : Fin n → Pc) (t : Fin n) (q : Pc) (f : Pc → ℕ) :
    (∑ t', f (update pc t q t')) + f (pc t) = (∑ t', f (pc t')) + f q := by
  have h1 := add_sum_erase Finset.univ (fun t' => f (update pc t q t')) (mem_univ t)
  have h2 := add_sum_erase Finset.univ (fun t' => f (pc t')) (mem_univ t)
  have hrest : ∑ t' ∈ Finset.univ.erase t, f (update pc t q t') = ∑ t' ∈ Finset.univ.erase t, f (pc t') :=
    sum_congr rfl fun t' ht' => by rw [update_of_ne (ne_of_mem_erase ht')]
  simp only [update_self] at h1
  omega

section Rules

variable {s : Sys n} {t : Fin n} {p q : Pc}

@[simp] lemma goto_pc_self : (s.goto t p).pc t = p := by simp [Sys.goto]

variable {t' : Fin n} {o : ObjId} {c : Cache}

lemma goto_pc_other (h : t' ≠ t) : (s.goto t p).pc t' = s.pc t' := by simp [Sys.goto, update_of_ne h]

@[simp] lemma goto_cache : (s.goto t p).cache = s.cache := rfl

@[simp] lemma goto_lock : (s.goto t p).lock = s.lock := rfl

@[simp] lemma withCache_cache (c : Cache) : (s.withCache c).cache = c := rfl

@[simp] lemma withCache_pc (c : Cache) : (s.withCache c).pc = s.pc := rfl

@[simp] lemma modify_cache (o : ObjId) (f : PageMeta → PageMeta) : (s.modify o f).cache = s.cache.modify o f := rfl

lemma Inv.at (hi : Inv cfg s) (h : (s.pc t).holding = true) : At cfg s t (s.pc t) := by
  refine ⟨?_, hi.locked t h⟩
  simpa [Sys.goto] using hi

lemma Inv.acquire (hi : Inv cfg s) (h : s.lock = none) : At cfg { s with lock := some t } t (s.pc t) := by
  refine ⟨⟨hi.cache, fun t' ht' => ?_, ?_, ?_, ?_, ?_⟩, rfl⟩
  · have : (s.pc t').holding = true := by simpa [Sys.goto] using ht'
    rw [hi.locked t' this] at h; cases h
  · simpa [Sys.goto] using hi.refs
  · simpa [Sys.goto] using hi.owned
  · simpa [Sys.goto] using hi.pcs
  · simpa [Sys.goto] using hi.evictFree

section

variable (h : At cfg s t p)
include h

lemma At.cache : CacheInv cfg s.cache := h.inv.cache

lemma At.pcOk : PcOk cfg s.cache p := by
  have := h.inv.pcs t
  rwa [goto_pc_self] at this

lemma At.other_holding (ht : t' ≠ t) : (s.pc t').holding = false := by
  by_contra hh
  have hl := h.inv.locked t' (by rw [goto_pc_other ht]; simpa using hh)
  rw [goto_lock, h.lock] at hl
  exact ht (Option.some.inj hl).symm

lemma At.other_pcOk (ht : t' ≠ t) : PcOk cfg s.cache (s.pc t') := by
  have := h.inv.pcs t'
  rwa [goto_pc_other ht] at this

end

lemma Inv.owns_unique (hi : Inv cfg s) (ht : t' ≠ t) (ho : (s.pc t).owns o ≠ 0) : (s.pc t').owns o = 0 := by
  have hsum := hi.owned o
  have hle : ∑ x ∈ {t, t'}, (s.pc x).owns o ≤ ∑ x, (s.pc x).owns o := sum_le_sum_of_subset (subset_univ _)
  rw [sum_pair ht.symm, ← hsum] at hle
  have := Bool.toNat_le (s.cache.busy o)
  omega

lemma Inv.busy_of_owns (hi : Inv cfg s) (ho : (s.pc t).owns o ≠ 0) : s.cache.busy o = true := by
  have hsum := hi.owned o
  have hle : (s.pc t).owns o ≤ ∑ x, (s.pc x).owns o :=
    single_le_sum (f := fun x => (s.pc x).owns o) (fun _ _ => Nat.zero_le _) (mem_univ t)
  rw [← hsum] at hle
  by_contra hb
  rw [Bool.not_eq_true] at hb
  rw [hb] at hle
  exact ho (Nat.le_zero.1 hle)

lemma Inv.owner_of_busy (hi : Inv cfg s) (ho : s.cache.busy o = true) : ∃ t, (s.pc t).owns o ≠ 0 := by
  by_contra hno
  push Not at hno
  have hsum := hi.owned o
  rw [sum_eq_zero fun t _ => hno t, ho] at hsum
  cases hsum

lemma At.other_owns (h : At cfg s t p) (ht : t' ≠ t) (ho : p.owns o ≠ 0) : (s.pc t').owns o = 0 := by
  have := h.inv.owns_unique (t := t) ht (o := o) (by rwa [goto_pc_self])
  rwa [goto_pc_other ht] at this

lemma At.busy_of_owns (h : At cfg s t p) (ht : t' ≠ t) (ho : (s.pc t').owns o ≠ 0) : s.cache.busy o = true :=
  h.inv.busy_of_owns (t := t') (by rwa [goto_pc_other ht])

lemma Inv.holds_le (hi : Inv cfg s) (t : Fin n) (o : ObjId) : (s.pc t).holds o ≤ (s.cache.heap o).refcnt := by
  rw [hi.refs o]
  exact single_le_sum (f := fun x => (s.pc x).holds o) (fun _ _ => Nat.zero_le _) (mem_univ t)

lemma At.holds_le (h : At cfg s t p) (o : ObjId) : p.holds o ≤ (s.cache.heap o).refcnt := by
  have := h.inv.holds_le t o
  rwa [goto_pc_self] at this

lemma At.none_held (h : At cfg s t p) (ho : (s.cache.heap o).refcnt = 0) :
    p.heldObj ≠ some o ∧ ∀ t', t' ≠ t → (s.pc t').heldObj ≠ some o := by
  have hcount : ∀ {x : Pc}, x.holds o ≤ 0 → x.heldObj ≠ some o := fun {x} hx hh => by
    rw [Pc.holds, objCount_of_eq hh] at hx
    omega
  refine ⟨hcount (ho ▸ h.holds_le o), fun t' ht => ?_⟩
  have := h.inv.holds_le t' o
  rw [goto_pc_other ht, goto_cache, ho] at this
  exact hcount this

/-- The rule of change. The counts move with the thread, and the others keep what they rely on. -/
lemma Inv.change (hi : Inv cfg s) (hlock : q.holding = true → s.lock = some t) (hc : CacheInv cfg c)
    (hrefs : ∀ o, (c.heap o).refcnt + (s.pc t).holds o = (s.cache.heap o).refcnt + q.holds o)
    (howned : ∀ o, (c.busy o).toNat + (s.pc t).owns o = (s.cache.busy o).toNat + q.owns o) (hq : PcOk cfg c q)
    (hothers : ∀ t', t' ≠ t → PcOk cfg s.cache (s.pc t') → PcOk cfg c (s.pc t'))
    (hevict : ∀ o, q.evicting = some o → q.heldObj ≠ some o ∧ ∀ t', t' ≠ t → (s.pc t').heldObj ≠ some o)
    (hheld : ∀ o, q.heldObj = some o → ∀ t', t' ≠ t → (s.pc t').evicting ≠ some o) :
    Inv cfg ((s.withCache c).goto t q) := by
  refine ⟨hc, fun t' ht' => ?_, fun o => ?_, fun o => ?_, fun t' => ?_, fun t₁ t₂ o he => ?_⟩
  · by_cases htt : t' = t
    · subst htt
      exact hlock (by simpa using ht')
    · rw [goto_pc_other htt] at ht'
      exact hi.locked t' ht'
  · have h1 := sum_move s.pc t q (fun x => x.holds o)
    have h2 := hi.refs o
    have h3 := hrefs o
    simp only [Sys.goto, withCache_pc, withCache_cache]
    omega
  · have h1 := sum_move s.pc t q (fun x => x.owns o)
    have h2 := hi.owned o
    have h3 := howned o
    simp only [Sys.goto, withCache_pc, withCache_cache]
    omega
  · by_cases htt : t' = t
    · subst htt; rw [goto_pc_self]; exact hq
    · rw [goto_pc_other htt]
      exact hothers t' htt (hi.pcs t')
  · by_cases h1 : t₁ = t
    · subst h1
      rw [goto_pc_self] at he
      by_cases h2 : t₂ = t₁
      · subst h2; rw [goto_pc_self]; exact (hevict o he).1
      · rw [goto_pc_other h2]; exact (hevict o he).2 t₂ h2
    · rw [goto_pc_other h1] at he
      by_cases h2 : t₂ = t
      · subst h2; rw [goto_pc_self]; exact fun hh => hheld o hh t₁ h1 he
      · rw [goto_pc_other h2]; exact hi.evictFree t₁ t₂ o he

lemma At.change (h : At cfg s t p) (hc : CacheInv cfg c)
    (hrefs : ∀ o, (c.heap o).refcnt + p.holds o = (s.cache.heap o).refcnt + q.holds o)
    (howned : ∀ o, (c.busy o).toNat + p.owns o = (s.cache.busy o).toNat + q.owns o) (hq : PcOk cfg c q)
    (hothers : ∀ t', t' ≠ t → (s.pc t').holding = false → PcOk cfg s.cache (s.pc t') → PcOk cfg c (s.pc t'))
    (hevict : ∀ o, q.evicting = some o → q.heldObj ≠ some o ∧ ∀ t', t' ≠ t → (s.pc t').heldObj ≠ some o)
    (hheld : ∀ o, q.heldObj = some o → ∀ t', t' ≠ t → (s.pc t').evicting ≠ some o) : At cfg (s.withCache c) t q := by
  refine ⟨?_, h.lock⟩
  have := h.inv.change (q := q) (c := c) (t := t) (fun _ => h.lock) hc (by simpa using hrefs) (by simpa using howned) hq
    (fun t' ht' hp => by
      rw [goto_pc_other ht'] at hp ⊢
      exact hothers t' ht' (h.other_holding ht') hp)
    (fun o ho => ⟨(hevict o ho).1, fun t' ht' => by rw [goto_pc_other ht']; exact (hevict o ho).2 t' ht'⟩)
    (fun o ho t' ht' => by rw [goto_pc_other ht']; exact hheld o ho t' ht')
  have hgoto : ((s.goto t p).withCache c).goto t q = (s.withCache c).goto t q := by simp [Sys.goto, Sys.withCache]
  rwa [hgoto] at this

lemma At.release (h : At cfg s t q) (hq : q.holding = false) : Inv cfg (s.release t q) where
  cache := h.inv.cache
  locked := fun t' ht' => by
    by_cases htt : t' = t
    · subst htt
      simp [Sys.release, hq] at ht'
    · have := h.other_holding htt
      simp [Sys.release, update_of_ne htt, this] at ht'
  refs := h.inv.refs
  owned := h.inv.owned
  pcs := h.inv.pcs
  evictFree := h.inv.evictFree

lemma Inv.log (hi : Inv cfg s) (l : List Event) : Inv cfg { s with log := l } :=
  ⟨hi.cache, hi.locked, hi.refs, hi.owned, hi.pcs, hi.evictFree⟩

end Rules

end CxlMemSim.Ssd
