/-
The TLBs of the paging policy (`check_page_table_walk`), for 4K, 2M and 1G pages: lists by recency with an index. A walk
is counted when a miss has an address not walked before.
-/
import CxlMemSim.Fabric.Controller

namespace CxlMemSim.Tlb

open CxlMemSim.Core List

section Recency

variable {α : Type*} [DecidableEq α] {l : List α} {p : α} {c : ℕ}

/-- the distinct elements of a history (the latest first), in the order of their last use -/
def distinct : List α → List α
  | [] => []
  | p :: h => p :: (distinct h).filter (· != p)

lemma nodup_distinct (h : List α) : (distinct h).Nodup := by
  induction h with
  | nil => exact nodup_nil
  | cons p h ih => exact nodup_cons.mpr ⟨by simp, ih.filter _⟩

lemma erase_take (hl : l.Nodup) (hp : p ∈ l.take c) : (l.take c).erase p = (l.filter (· != p)).take (c - 1) := by
  induction l generalizing c with
  | nil => simp at hp
  | cons x l ih =>
    obtain ⟨c, rfl⟩ := Nat.exists_eq_succ_of_ne_zero (n := c) (by rintro rfl; simp at hp)
    obtain ⟨hx, hl⟩ := nodup_cons.mp hl
    rw [take_succ_cons] at hp ⊢
    by_cases hxp : x = p
    · subst hxp
      have hself : l.filter (· != x) = l := filter_eq_self.mpr fun a ha => bne_iff_ne.mpr fun hax => hx (hax ▸ ha)
      simp [hself]
    · have hp' := (mem_cons.mp hp).resolve_left (Ne.symm hxp)
      obtain ⟨c, rfl⟩ := Nat.exists_eq_succ_of_ne_zero (n := c) (by rintro rfl; simp at hp')
      rw [erase_cons_tail (by simpa using hxp), ih hl hp', filter_cons_of_pos (p := (· != p)) (bne_iff_ne.mpr hxp)]
      rfl

lemma take_filter (hp : p ∉ l.take c) : (l.filter (· != p)).take (c - 1) = l.take (c - 1) := by
  have hself : (l.take c).filter (· != p) = l.take c :=
    filter_eq_self.mpr fun a ha => bne_iff_ne.mpr fun hap => hp (hap ▸ ha)
  rcases Nat.lt_or_ge l.length c with hlt | hle
  · rw [take_of_length_le hlt.le] at hself
    rw [hself]
  · conv_lhs => rw [← take_append_drop c l, filter_append, hself]
    rw [take_append_of_le_length (by rw [length_take]; omega), take_take, min_eq_left (Nat.sub_le _ _)]

end Recency

/-! ## One TLB -/

structure TLBCache where
  entries : List UInt64
  index : Finset UInt64
  capacity : ℕ

def TLBCache.lookup (t : TLBCache) (page : UInt64) : Bool × TLBCache :=
  if page ∈ t.index then (true, { t with entries := page :: t.entries.erase page }) else (false, t)

def TLBCache.insert (t : TLBCache) (page : UInt64) : TLBCache :=
  let t := if page ∈ t.index then { t with entries := t.entries.erase page, index := t.index.erase page } else t
  let t := if t.entries.length ≥ t.capacity then
      { t with entries := t.entries.dropLast, index := t.entries.getLast?.elim t.index t.index.erase }
    else t
  { t with entries := page :: t.entries, index := Insert.insert page t.index }

/-- the TLB holds the most recent pages of a history, and its index is about them -/
structure TLBCache.Holds (t : TLBCache) (h : List UInt64) : Prop where
  entries : t.entries = (distinct h).take t.capacity
  index : ∀ page, page ∈ t.index ↔ page ∈ t.entries

variable {t : TLBCache} {h : List UInt64} {page : UInt64}

lemma TLBCache.Holds.nodup (ht : t.Holds h) : t.entries.Nodup :=
  ht.entries ▸ (nodup_distinct h).sublist (take_sublist _ _)

lemma TLBCache.Holds.lookup (ht : t.Holds h) (hhit : page ∈ t.entries) :
    (t.lookup page).1 = true ∧ (t.lookup page).2.Holds (page :: h) ∧ (t.lookup page).2.capacity = t.capacity := by
  have hcap : t.capacity ≠ 0 := fun h0 => by simp [ht.entries, h0] at hhit
  simp only [TLBCache.lookup, (ht.index page).mpr hhit, if_true, true_and, and_true]
  refine ⟨?_, fun q => ?_⟩
  · have hrest := erase_take (nodup_distinct h) (ht.entries ▸ hhit)
    obtain ⟨n, hn⟩ := Nat.exists_eq_succ_of_ne_zero hcap
    dsimp only
    rw [distinct, hn, take_succ_cons, ht.entries, hrest, hn, Nat.succ_sub_one]
  · rw [ht.index q]
    by_cases hq : q = page
    · simp [hq, hhit]
    · simp [hq, mem_erase_of_ne hq]

lemma TLBCache.Holds.insert (ht : t.Holds h) (hcap : t.capacity ≠ 0) (hmiss : page ∉ t.entries) :
    (t.insert page).Holds (page :: h) ∧ (t.insert page).capacity = t.capacity := by
  have hindex : page ∉ t.index := fun hp => hmiss ((ht.index page).mp hp)
  obtain ⟨n, hn⟩ := Nat.exists_eq_succ_of_ne_zero hcap
  have hrest := take_filter (ht.entries ▸ hmiss)
  have hlen : t.entries.length = min t.capacity (distinct h).length := by rw [ht.entries, length_take]
  simp only [TLBCache.insert, hindex, if_false]
  split_ifs with hfull
  · -- the least recent page goes
    obtain ⟨init, victim, hsplit⟩ := (eq_nil_or_concat' t.entries).resolve_left fun h0 => by
      rw [h0, length_nil] at hfull
      omega
    have hinit : init = (distinct h).take n := by
      calc init = t.entries.take init.length := by rw [hsplit, take_left]
        _ = (distinct h).take n := by
          rw [hsplit, length_append, length_singleton] at hlen hfull
          rw [ht.entries, take_take]
          congr 1
          omega
    have hnot : victim ∉ init := by
      have hnodup := ht.nodup
      rw [hsplit, ← concat_eq_append] at hnodup
      exact ((nodup_concat _ _).mp hnodup).1
    refine ⟨⟨?_, fun q => ?_⟩, rfl⟩
    · dsimp only
      rw [distinct, hn, take_succ_cons, hsplit, dropLast_concat, hinit]
      rw [hn] at hrest
      exact congrArg _ hrest.symm
    · have hq := ht.index q
      rw [hsplit] at hq
      simp only [hsplit, getLast?_concat, dropLast_concat, Option.elim_some, Finset.mem_insert, Finset.mem_erase, hq,
        mem_append, mem_cons, not_mem_nil, or_false]
      refine or_congr_right ⟨fun ⟨hne, hmem⟩ => hmem.resolve_right hne, fun hmem => ⟨?_, .inl hmem⟩⟩
      exact fun heq => hnot (heq ▸ hmem)
  · have hall : (distinct h).take t.capacity = (distinct h).take n := by
      rw [take_of_length_le (by omega), take_of_length_le (by omega)]
    refine ⟨⟨?_, fun q => by simp [ht.index q]⟩, rfl⟩
    dsimp only
    rw [distinct, hn, take_succ_cons, ht.entries, hall]
    rw [hn] at hrest
    exact congrArg _ hrest.symm

/-! ## The policy -/

open Controller (PageType)

inductive Served where
  | k4
  | m2
  | g1
deriving DecidableEq

def capacity : Served → ℕ
  | .k4 => 64
  | .m2 => 32
  | .g1 => 4

def served : PageType → Served
  | .cacheline | .page => .k4
  | .hugepage2M => .m2
  | .hugepage1G => .g1

structure Call where
  virtAddr : UInt64
  physAddr : UInt64
  pageSize : PageType

def Call.tlb (c : Call) : Served := served c.pageSize

def Call.pageAddr (c : Call) : UInt64 :=
  c.virtAddr &&& ~~~((1 : UInt64) <<< (match c.tlb with | .k4 => 12 | .m2 => 21 | .g1 => 30) - 1)

structure Policy where
  tlb : Served → TLBCache
  vaPaCache : UInt64 → Option UInt64
  hits : Served → ℕ
  misses : Served → ℕ
  ptwCount : ℕ

def new : Policy := ⟨fun k => ⟨[], ∅, capacity k⟩, fun _ => none, fun _ => 0, fun _ => 0, 0⟩

def checkPageTableWalk (s : Policy) (c : Call) : Bool × Policy :=
  let k := c.tlb
  let r := (s.tlb k).lookup c.pageAddr
  if r.1 then (true, { s with tlb := Function.update s.tlb k r.2, hits := Function.update s.hits k (s.hits k + 1) })
  else
    let s := { s with
      tlb := Function.update s.tlb k (r.2.insert c.pageAddr), misses := Function.update s.misses k (s.misses k + 1) }
    if (s.vaPaCache c.virtAddr).isSome then (false, s)
    else (false, { s with
      ptwCount := s.ptwCount + 1, vaPaCache := Function.update s.vaPaCache c.virtAddr (some c.physAddr) })

def step (s : Policy) (c : Call) : Policy := (checkPageTableWalk s c).2

/-! ## The history

The calls before, the latest first. -/

def pages (k : Served) (h : List Call) : List UInt64 := (h.filter (·.tlb = k)).map Call.pageAddr

/-- the page is among the most recent distinct pages of its TLB, as many as this TLB holds -/
def Hit (h : List Call) (c : Call) : Prop := c.pageAddr ∈ (distinct (pages c.tlb h)).take (capacity c.tlb)

instance (h : List Call) (c : Call) : Decidable (Hit h c) := inferInstanceAs (Decidable (_ ∈ _))

def hits (k : Served) : List Call → ℕ
  | [] => 0
  | c :: h => hits k h + if c.tlb = k ∧ Hit h c then 1 else 0

def misses (k : Served) : List Call → ℕ
  | [] => 0
  | c :: h => misses k h + if c.tlb = k ∧ ¬ Hit h c then 1 else 0

/-- the addresses walked: of the calls that miss with an address not walked before -/
def walked : List Call → List UInt64
  | [] => []
  | c :: h => if ¬ Hit h c ∧ c.virtAddr ∉ walked h then c.virtAddr :: walked h else walked h

structure Inv (s : Policy) (h : List Call) : Prop where
  tlb : ∀ k, (s.tlb k).Holds (pages k h) ∧ (s.tlb k).capacity = capacity k
  hits : ∀ k, s.hits k = hits k h
  misses : ∀ k, s.misses k = misses k h
  walked : ∀ v, (s.vaPaCache v).isSome ↔ v ∈ walked h
  ptwCount : s.ptwCount = (Tlb.walked h).length

variable {s : Policy} {calls : List Call}

lemma pages_cons (k : Served) (c : Call) (h : List Call) :
    pages k (c :: h) = if c.tlb = k then c.pageAddr :: pages k h else pages k h := by
  unfold pages
  split_ifs with hk <;> simp [hk]

lemma hit_iff {h : List Call} (hs : Inv s h) (c : Call) : c.pageAddr ∈ (s.tlb c.tlb).entries ↔ Hit h c := by
  rw [(hs.tlb c.tlb).1.entries, (hs.tlb c.tlb).2, Hit]

lemma capacity_ne_zero (k : Served) : capacity k ≠ 0 := by cases k <;> decide

lemma tlb_step {h : List Call} (hs : Inv s h) (c : Call) (t : TLBCache)
    (ht : t.Holds (c.pageAddr :: pages c.tlb h) ∧ t.capacity = (s.tlb c.tlb).capacity) (k : Served) :
    (Function.update s.tlb c.tlb t k).Holds (pages k (c :: h)) ∧
      (Function.update s.tlb c.tlb t k).capacity = capacity k := by
  by_cases hk : c.tlb = k
  · subst hk
    rw [Function.update_self, pages_cons, if_pos rfl]
    exact ⟨ht.1, ht.2.trans (hs.tlb _).2⟩
  · rw [Function.update_of_ne (Ne.symm hk), pages_cons, if_neg hk]
    exact hs.tlb k

lemma count_step {f g : Served → ℕ} (hf : ∀ k, f k = g k) (k₀ : Served) (P : Prop) [Decidable P] (hP : P) (k : Served) :
    Function.update f k₀ (f k₀ + 1) k = g k + if k₀ = k ∧ P then 1 else 0 := by
  by_cases hk : k₀ = k
  · subst hk
    simp [hP, hf]
  · simp [hk, Function.update_of_ne (Ne.symm hk), hf]

lemma inv_step {h : List Call} (hs : Inv s h) (c : Call) :
    Inv (step s c) (c :: h) ∧ ((checkPageTableWalk s c).1 = true ↔ Hit h c) := by
  obtain ⟨hholds, hcap⟩ := hs.tlb c.tlb
  by_cases hhit : c.pageAddr ∈ (s.tlb c.tlb).entries
  · have hH := (hit_iff hs c).mp hhit
    obtain ⟨hfound, hlookup⟩ := hholds.lookup hhit
    simp only [step, checkPageTableWalk, hfound, if_true]
    refine ⟨⟨tlb_step hs c _ hlookup, count_step hs.hits _ _ hH, fun k => ?_, fun v => ?_, ?_⟩, by simp [hH]⟩
    · simp [misses, hH, hs.misses k]
    · simp [walked, hH, hs.walked v]
    · simp [walked, hH, hs.ptwCount]
  · have hH : ¬ Hit h c := fun hH => hhit ((hit_iff hs c).mpr hH)
    have hmiss : (s.tlb c.tlb).lookup c.pageAddr = (false, s.tlb c.tlb) :=
      if_neg fun hp => hhit ((hholds.index _).mp hp)
    have hinsert := hholds.insert (hcap ▸ capacity_ne_zero _) hhit
    have htlb := tlb_step hs c _ hinsert
    have hmisses := count_step hs.misses c.tlb _ hH
    have hhits : ∀ k, s.hits k = hits k (c :: h) := fun k => by simp [hits, hH, hs.hits k]
    simp only [step, checkPageTableWalk, hmiss]
    by_cases hknown : (s.vaPaCache c.virtAddr).isSome
    · have hw : walked (c :: h) = walked h := if_neg fun hnew => hnew.2 ((hs.walked _).mp hknown)
      simp only [hknown, if_true, Bool.false_eq_true, if_false]
      exact ⟨⟨htlb, hhits, hmisses, hw ▸ hs.walked, hw ▸ hs.ptwCount⟩, by simp [hH]⟩
    · have hw : walked (c :: h) = c.virtAddr :: walked h := if_pos ⟨hH, fun hv => hknown ((hs.walked _).mpr hv)⟩
      simp only [hknown, Bool.false_eq_true, if_false]
      refine ⟨⟨htlb, hhits, hmisses, fun v => ?_, by simp [hw, hs.ptwCount]⟩, by simp [hH]⟩
      rw [hw, mem_cons]
      by_cases hv : v = c.virtAddr
      · simp [hv]
      · simp [hv, hs.walked v]

lemma inv_run (calls : List Call) : Inv (run step new calls) calls.reverse := by
  induction calls using List.reverseRecOn with
  | nil =>
    exact ⟨fun k => ⟨⟨by simp [new, pages, distinct], by simp [new]⟩, rfl⟩, fun _ => rfl, fun _ => rfl,
      by simp [new, walked], rfl⟩
  | append_singleton calls c ih =>
    rw [run_snoc, reverse_append]
    exact (inv_step ih c).1

lemma hits_add_misses (k : Served) (h : List Call) : hits k h + misses k h = h.countP (·.tlb = k) := by
  induction h with
  | nil => rfl
  | cons c h ih =>
    rw [hits, misses, countP_cons, ← ih]
    by_cases hk : c.tlb = k <;> by_cases hH : Hit h c <;> simp [hk, hH] <;> omega

/-- True LRU. A call hits exactly when its page is among the most recent distinct pages of its TLB; the counters are
the hits and misses; the walks are the misses with an address not walked before. -/
theorem tlb_is_lru (calls : List Call) (c : Call) :
    let s := run step new calls
    let h := calls.reverse
    ((checkPageTableWalk s c).1 = true ↔ Hit h c) ∧
      (∀ k, s.hits k = hits k h ∧ s.misses k = misses k h ∧ s.hits k + s.misses k = calls.countP (·.tlb = k)) ∧
      s.ptwCount = (walked h).length := by
  intro s h
  have hinv := inv_run calls
  refine ⟨(inv_step hinv c).2, fun k => ⟨hinv.hits k, hinv.misses k, ?_⟩, hinv.ptwCount⟩
  rw [hinv.hits k, hinv.misses k, hits_add_misses, countP_reverse]

end CxlMemSim.Tlb
