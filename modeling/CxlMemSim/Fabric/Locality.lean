/-
Is `is_address_local` exact? It answers from `address_ranges`, built from `occupation` when `cache_valid` is false. But
`update_address_cache` refreshes ANOTHER cache under the same flag, and `insert`, back-invalidation and migration place
or remove entries without clearing it.
-/
import CxlMemSim.Fabric.Expander

namespace CxlMemSim.Expander

open CxlMemSim.Core

namespace Placement

@[simp] lemma inRanges_nil (addr : UInt64) : inRanges [] addr = false := rfl

lemma inRanges_cons (r : AddressRange) (ranges : List AddressRange) (addr : UInt64) :
    inRanges (r :: ranges) addr = true ↔
      if r.stop < addr then inRanges ranges addr = true else r.start ≤ addr ∧ addr ≤ r.stop := by
  unfold inRanges
  by_cases h : r.stop < addr
  · rw [List.find?_cons_of_neg (by simpa using h), if_pos h]
  · rw [List.find?_cons_of_pos (by simpa using h), if_neg h, decide_eq_true_eq]

/-- The loop of `update_range_cache`. The ranges built contain exactly the addresses of the range at hand and those
to come. -/
lemma mergeRanges_spec (current : AddressRange) (addrs : List UInt64) (hrange : current.start ≤ current.stop)
    (hsorted : (current.stop :: addrs).Pairwise (· ≤ ·)) (addr : UInt64) :
    inRanges (mergeRanges current addrs) addr = true ↔
      current.start ≤ addr ∧ addr ≤ current.stop ∨ addr ∈ addrs := by
  induction addrs generalizing current with
  | nil =>
    rw [mergeRanges, inRanges_cons]
    simp only [inRanges_nil, Bool.false_eq_true, List.not_mem_nil, or_false]
    split_ifs with h
    · exact iff_of_false id fun hin => UInt64.not_le.mpr h hin.2
    · rfl
  | cons a rest ih =>
    obtain ⟨hle, hrest⟩ := List.pairwise_cons.mp hsorted
    have ha : current.stop ≤ a := hle a List.mem_cons_self
    rw [mergeRanges]
    split_ifs with hnext
    · -- the next address extends the range; the end of the address space is not passed, since `a` is not below `stop`
      rw [ih { current with stop := a } (UInt64.le_trans hrange ha) hrest, List.mem_cons]
      have hsucc : a.toNat = current.stop.toNat + 1 := by
        have hmod : a.toNat = (current.stop.toNat + 1) % 2 ^ 64 := by rw [hnext, UInt64.toNat_add]; rfl
        have hnat := UInt64.le_iff_toNat_le.mp ha
        have hlt := current.stop.toNat_lt
        omega
      simp only [UInt64.le_iff_toNat_le, ← UInt64.toNat_inj, hsucc]
      rw [← or_assoc]
      refine or_congr_left ?_
      have := UInt64.le_iff_toNat_le.mp hrange
      omega
    · -- a new range starts at `a`
      rw [inRanges_cons, ih ⟨a, a⟩ (UInt64.le_refl a) hrest, List.mem_cons]
      have hsame : a ≤ addr ∧ addr ≤ a ↔ addr = a :=
        ⟨fun h => UInt64.le_antisymm h.2 h.1, fun h => by rw [h]; exact ⟨UInt64.le_refl a, UInt64.le_refl a⟩⟩
      rw [hsame]
      split_ifs with hpast
      · have hout : ¬ (current.start ≤ addr ∧ addr ≤ current.stop) := fun h => UInt64.not_le.mpr hpast h.2
        simp only [hout, false_or]
      · -- an address to come that is not past this range is its last one
        have hlast : addr = a ∨ addr ∈ rest → addr = current.stop := fun h =>
          UInt64.le_antisymm (UInt64.not_lt.mp hpast) (hle addr (List.mem_cons.mpr h))
        refine ⟨.inl, fun h => h.elim id fun h => ?_⟩
        rw [hlast h]
        exact ⟨hrange, UInt64.le_refl _⟩

lemma rangesOf_spec {addrs : List UInt64} (hsorted : addrs.Pairwise (· ≤ ·)) (addr : UInt64) :
    inRanges (rangesOf addrs) addr = true ↔ addr ∈ addrs := by
  cases addrs with
  | nil => simp [rangesOf]
  | cons a rest =>
    rw [rangesOf, mergeRanges_spec ⟨a, a⟩ rest (UInt64.le_refl a) hsorted, List.mem_cons]
    refine or_congr_left ⟨fun h => UInt64.le_antisymm h.2 h.1, fun h => ?_⟩
    rw [h]
    exact ⟨UInt64.le_refl a, UInt64.le_refl a⟩

/-- the ranges are built in the order of their ends, as `std::lower_bound` needs them -/
lemma mergeRanges_sorted (current : AddressRange) (addrs : List UInt64)
    (hsorted : (current.stop :: addrs).Pairwise (· ≤ ·)) :
    (mergeRanges current addrs).Pairwise (fun r r' => r.stop ≤ r'.stop) ∧
      ∀ r ∈ mergeRanges current addrs, current.stop ≤ r.stop := by
  induction addrs generalizing current with
  | nil => simp [mergeRanges]
  | cons a rest ih =>
    obtain ⟨hle, hrest⟩ := List.pairwise_cons.mp hsorted
    have ha : current.stop ≤ a := hle a List.mem_cons_self
    rw [mergeRanges]
    split_ifs with hnext
    · obtain ⟨hpair, hlast⟩ := ih { current with stop := a } hrest
      exact ⟨hpair, fun r hr => UInt64.le_trans ha (hlast r hr)⟩
    · obtain ⟨hpair, hlast⟩ := ih ⟨a, a⟩ hrest
      have hafter : ∀ r ∈ mergeRanges ⟨a, a⟩ rest, current.stop ≤ r.stop := fun r hr => UInt64.le_trans ha (hlast r hr)
      exact ⟨List.pairwise_cons.mpr ⟨hafter, hpair⟩, List.forall_mem_cons.mpr ⟨UInt64.le_refl _, hafter⟩⟩

/-! ## Exactness -/

instance : Std.Total fun a b : OccupationInfo => a.address ≤ b.address :=
  ⟨fun a b => UInt64.le_total a.address b.address⟩

instance : IsTrans OccupationInfo fun a b => a.address ≤ b.address := ⟨fun _ _ _ hab hbc => UInt64.le_trans hab hbc⟩

/-- while the flag is set, the ranges contain exactly the addresses placed -/
def Exact (p : Placement) : Prop := p.cacheValid = true → ∀ addr, inRanges p.addressRanges addr = true ↔ p.Placed addr

lemma placed_iff_mem (p : Placement) (addr : UInt64) : p.Placed addr ↔ addr ∈ p.occupation.map (·.address) := by
  simp [Placed]

lemma placed_updateRangeCache (p : Placement) (addr : UInt64) : p.updateRangeCache.Placed addr ↔ p.Placed addr := by
  unfold updateRangeCache
  split_ifs
  · rfl
  · simp only [Placed, List.mem_insertionSort]

lemma pairwise_sorted (p : Placement) :
    ((p.occupation.insertionSort fun a b => a.address ≤ b.address).map (·.address)).Pairwise (· ≤ ·) :=
  List.pairwise_map.mpr (List.pairwise_insertionSort _ p.occupation)

variable {p q : Placement}

lemma Exact.updateRangeCache (h : p.Exact) : p.updateRangeCache.Exact := by
  by_cases hvalid : p.cacheValid = true
  · rw [updateRangeCache_of_valid hvalid]
    exact h
  · intro _ addr
    rw [Placement.updateRangeCache, if_neg hvalid, placed_iff_mem]
    exact rangesOf_spec p.pairwise_sorted addr

/-- The answer. From an exact placement the answer is exact. -/
lemma Exact.isAddressLocal (h : p.Exact) (addr : UInt64) : (p.isAddressLocal addr).2 = true ↔ p.Placed addr :=
  (h.updateRangeCache p.updateRangeCache_valid addr).trans (placed_updateRangeCache p addr)

/-- The range cache is an exact membership test when it is built anew, with its ranges in the order of the search. -/
theorem range_cache_exact (p : Placement) (hstale : p.cacheValid = false) (addr : UInt64) :
    ((p.isAddressLocal addr).2 = true ↔ addr ∈ p.occupation.map (·.address)) ∧
      (p.isAddressLocal addr).1.addressRanges.Pairwise (fun r r' => r.stop ≤ r'.stop) := by
  have hexact : p.Exact := fun hvalid => absurd (hstale.symm.trans hvalid) Bool.false_ne_true
  refine ⟨(hexact.isAddressLocal addr).trans (placed_iff_mem p addr), ?_⟩
  have hsorted := p.pairwise_sorted
  simp only [Placement.isAddressLocal, Placement.updateRangeCache, hstale, Bool.false_eq_true, if_false]
  cases hl : (p.occupation.insertionSort fun a b => a.address ≤ b.address).map (·.address) with
  | nil => exact .nil
  | cons a rest => exact (mergeRanges_sorted ⟨a, a⟩ rest (hl ▸ hsorted)).1

theorem range_cache_exact_twice :
    ((⟨[⟨0, 7, 1⟩, ⟨1, 6, 1⟩, ⟨2, 7, 1⟩], ∅, false, []⟩ : Placement).isAddressLocal 6).2 = true :=
  (range_cache_exact _ rfl 6).1.mpr (by decide)

lemma Exact.countLocal (h : p.Exact) (elem : List (ℕ × UInt64)) :
    (p.countLocal elem).2 = elem.countP fun e => p.Placed e.2 := by
  induction elem generalizing p with
  | nil => rfl
  | cons e elem ih =>
    simp only [Placement.countLocal, List.countP_cons, decide_eq_true_eq, h.isAddressLocal e.2]
    rw [show (p.isAddressLocal e.2).1 = p.updateRangeCache from rfl, ih h.updateRangeCache]
    simp only [placed_updateRangeCache]
    split_ifs <;> rfl

/-! ## What each change does to the addresses placed -/

lemma placed_append (occ : List OccupationInfo) (info : OccupationInfo) (addr : UInt64) :
    (∃ o ∈ occ ++ [info], o.address = addr) ↔ (∃ o ∈ occ, o.address = addr) ∨ addr = info.address := by
  simp only [List.mem_append, List.mem_singleton, or_and_right, exists_or, exists_eq_left]
  exact or_congr_right eq_comm

section

variable (p : Placement) (info : OccupationInfo) (addr : UInt64)

lemma placed_replaceEntry : (p.replaceEntry info).Placed addr ↔ p.Placed addr ∨ addr = info.address := by
  rw [Placed, replaceEntry, placed_append]
  by_cases haddr : addr = info.address
  · simp only [haddr, or_true]
  · -- the entry taken out has another address
    refine or_congr_left (exists_congr fun o => and_congr_left fun ho => ?_)
    refine List.mem_eraseP_of_neg ?_
    rw [decide_eq_true_eq, ho]
    exact haddr

lemma placed_insertEntry : (p.insertEntry info).1.Placed addr ↔ p.Placed addr ∨ addr = info.address := by
  unfold insertEntry
  split_ifs
  · exact placed_replaceEntry p info addr
  · exact placed_append p.occupation info addr

end

lemma placed_invalidateInExpanders (p : Placement) (gone addr : UInt64) :
    (p.invalidateInExpanders gone).Placed addr ↔ p.Placed addr ∧ addr ≠ gone := by
  simp only [Placed, invalidateInExpanders, List.mem_filter, decide_eq_true_eq]
  constructor
  · rintro ⟨o, ⟨ho, hne⟩, rfl⟩
    exact ⟨⟨o, ho, rfl⟩, hne⟩
  · rintro ⟨⟨o, ho, rfl⟩, hne⟩
    exact ⟨o, ⟨ho, hne⟩, rfl⟩

lemma insertEntry_frame (p : Placement) (info : OccupationInfo) :
    (p.insertEntry info).1.addressRanges = p.addressRanges ∧ (p.insertEntry info).1.cacheValid = p.cacheValid := by
  unfold insertEntry
  split_ifs <;> exact ⟨rfl, rfl⟩

lemma survivors_sublist (coins : List Bool) (occ : List OccupationInfo) : (survivors coins occ).Sublist occ := by
  fun_induction survivors coins occ with
  | case1 coins o occ ih => exact ih.cons o
  | case2 coins o occ ih => exact ih.cons_cons o
  | case3 coins occ => exact List.Sublist.refl occ

lemma freeStats_cases (p : Placement) (coins : List Bool) :
    (p.freeStats coins).cacheValid = false ∨ p.freeStats coins = p := by
  unfold freeStats
  by_cases hlen : (survivors coins p.occupation).length < p.occupation.length
  · exact .inl (by simp only [hlen, if_true]; rfl)
  · have hall := (survivors_sublist coins p.occupation).eq_of_length_le (not_lt.mp hlen)
    exact .inr (by simp only [hall, lt_irrefl, if_false])

lemma deleteEntry_cases (p : Placement) (time : ℕ) (addr length : UInt64) :
    (p.deleteEntry time addr length).cacheValid = false ∨ p.deleteEntry time addr length = p := by
  unfold deleteEntry
  by_cases hany : p.occupation.any (touched addr length) = true
  · exact .inl (by simp only [hany, if_true]; rfl)
  · have hnone : p.occupation.map (fun o => if touched addr length o = true then
        { o with accessCount := o.accessCount + 1, timestamp := time } else o) = p.occupation := by
      refine (List.map_congr_left fun o ho => ?_).trans (List.map_id p.occupation)
      exact if_neg fun ht => hany (List.any_eq_true.mpr ⟨o, ho, ht⟩)
    exact .inr (by simp only [hany, hnone]; rfl)

/-! ## The flag -/

def FlagKept (cfg : Config) (p : Placement) : Op → Prop
  | .insert _ _ physAddr index => index = cfg.id → physAddr ≠ 0 → p.cacheValid = false ∨ p.Placed physAddr
  | .updateAddressCache => p.cacheValid = true
  | .calculateLatency elem => elem ≠ [] → p.cacheValid = true
  | .invalidateInExpanders addr => p.cacheValid = false ∨ ¬ p.Placed addr
  | .migrateIn info => p.cacheValid = false ∨ p.Placed info.address
  | .migrateOut addr => p.cacheValid = false ∨ ¬ p.Placed addr
  | _ => True

instance (cfg : Config) (p : Placement) (o : Op) : Decidable (p.FlagKept cfg o) :=
  match o with
  | .insert _ _ physAddr index =>
    inferInstanceAs (Decidable (index = cfg.id → physAddr ≠ 0 → p.cacheValid = false ∨ p.Placed physAddr))
  | .updateAddressCache => inferInstanceAs (Decidable (p.cacheValid = true))
  | .calculateLatency elem => inferInstanceAs (Decidable (elem ≠ [] → p.cacheValid = true))
  | .invalidateInExpanders addr => inferInstanceAs (Decidable (p.cacheValid = false ∨ ¬ p.Placed addr))
  | .migrateIn info => inferInstanceAs (Decidable (p.cacheValid = false ∨ p.Placed info.address))
  | .migrateOut addr => inferInstanceAs (Decidable (p.cacheValid = false ∨ ¬ p.Placed addr))
  | .recordAccess .. | .processQueuedRequests _ | .isAddressLocal _ | .calculateBandwidth _ | .freeStats _
  | .deleteEntry .. => isTrue trivial

lemma exact_of_invalid (h : p.cacheValid = false) : p.Exact := fun hvalid => by
  rw [h] at hvalid
  cases hvalid

section

variable (h : p.Exact) (hranges : q.addressRanges = p.addressRanges) (hflag : q.cacheValid = p.cacheValid)
include h hranges hflag

/-- a change of the entries under the same flag that keeps the addresses placed while it is set -/
lemma Exact.of_placed (hplaced : p.cacheValid = true → ∀ addr, q.Placed addr ↔ p.Placed addr) : q.Exact := by
  intro hvalid addr
  rw [hflag] at hvalid
  rw [hranges, hplaced hvalid]
  exact h hvalid addr

lemma Exact.added {new : UInt64} (hplaced : ∀ addr, q.Placed addr ↔ p.Placed addr ∨ addr = new)
    (hkept : p.cacheValid = false ∨ p.Placed new) : q.Exact := by
  refine h.of_placed hranges hflag fun hvalid addr => ?_
  have hnew : p.Placed new := hkept.resolve_left (by rw [hvalid]; decide)
  rw [hplaced]
  constructor
  · rintro (haddr | rfl)
    · exact haddr
    · exact hnew
  · exact .inl

end

lemma updateAddressCache_of_valid (h : p.cacheValid = true) : p.updateAddressCache = p := by
  rw [updateAddressCache, if_pos h]

/-- A change that meets the condition keeps the placement exact. -/
lemma Change.exact {cfg : Config} {o : Op} (hchange : p.Change cfg o q) (h : p.Exact)
    (hkept : p.FlagKept cfg o) : q.Exact := by
  cases hchange with
  | same => exact h
  | @insert timestamp tid physAddr index hid haddr =>
    obtain ⟨hranges, hflag⟩ := insertEntry_frame p ⟨timestamp, physAddr, 0⟩
    exact h.added hranges hflag (placed_insertEntry p _) (hkept hid haddr)
  | record _ info => exact exact_of_invalid rfl
  | addressCache =>
    rw [updateAddressCache_of_valid hkept]
    exact h
  | latency hne =>
    rw [updateAddressCache_of_valid (hkept hne)]
    exact h
  | rangeCache => exact h.updateRangeCache
  | invalidate gone =>
    refine h.of_placed rfl rfl fun hvalid addr => ?_
    have hgone : ¬ p.Placed gone := hkept.resolve_left (by rw [hvalid]; decide)
    rw [placed_invalidateInExpanders]
    exact and_iff_left_of_imp fun haddr heq => hgone (heq ▸ haddr)
  | migrateIn info => exact h.added rfl rfl (placed_append p.occupation info) hkept
  | migrateOut gone =>
    refine h.of_placed rfl rfl fun hvalid addr => ?_
    have hgone : ¬ p.Placed gone := hkept.resolve_left (by rw [hvalid]; decide)
    rw [Placement.migrateOut, List.eraseP_of_forall_not fun o ho heq => hgone ⟨o, ho, of_decide_eq_true heq⟩]
  | freeStats _ coins =>
    rcases freeStats_cases p coins with hclear | hsame
    · exact exact_of_invalid hclear
    · rw [hsame]; exact h
  | deleteEntry _ time addr length =>
    rcases deleteEntry_cases p time addr length with hclear | hsame
    · exact exact_of_invalid hclear
    · rw [hsame]; exact h

end Placement

/-- While the flag is honest an address is local exactly when an entry with it is placed, and accesses are counted
accordingly. -/
theorem locality_exact (cfg : Config) (ops : List Op)
    (hops : AllSteps (step cfg) (fun s => s.placement.FlagKept cfg) CXLMemExpander.start ops) :
    (∀ addr, ((run (step cfg) .start ops).placement.isAddressLocal addr).2 = true ↔
      (run (step cfg) .start ops).placement.Placed addr) ∧ ∀ elem : List (ℕ × UInt64),
      (calculateBandwidth (run (step cfg) .start ops) elem).2 =
        elem.countP (fun e => (run (step cfg) .start ops).placement.Placed e.2) ∧
      ((run (step cfg) .start ops).placement.cacheValid = true →
        (calculateLatency cfg (run (step cfg) .start ops) elem).2 =
          elem.countP fun e => (run (step cfg) .start ops).placement.Placed e.2) := by
  have hexact : (run (step cfg) .start ops).placement.Exact := by
    refine run_inv (P := fun s : CXLMemExpander => s.placement.Exact) (fun s o hs hkept => ?_) ?_ hops
    · exact (step_change cfg s o).exact hs hkept
    · exact Placement.exact_of_invalid rfl
  generalize run (step cfg) .start ops = s at hexact ⊢
  refine ⟨hexact.isAddressLocal, fun elem => ⟨hexact.countLocal elem, fun hvalid => ?_⟩⟩
  unfold calculateLatency
  cases hlast : elem.getLast? with
  | none => rw [List.getLast?_eq_none_iff.mp hlast]; rfl
  | some e =>
    simp only [Placement.updateAddressCache_of_valid hvalid]
    exact hexact.countLocal elem

/-- entries placed before the first question and by `record_access` after it, one back-invalidated before the next -/
def honestOps : List Op :=
  [.insert 0 1 0x1000 0, .insert 1 1 0x1001 0, .isAddressLocal 0x1000, .insert 2 1 0x1001 0,
    .recordAccess 3 1 0x2000 0 true, .invalidateInExpanders 0x1000, .isAddressLocal 0x2000]

theorem locality_exact_honest : (((run (step exactConfig) .start honestOps).placement.isAddressLocal 0x1001).2 = true ↔
      (run (step exactConfig) .start honestOps).placement.Placed 0x1001) ∧
    (run (step exactConfig) .start honestOps).placement.Placed 0x1001 ∧
    ¬ (run (step exactConfig) .start honestOps).placement.Placed 0x1000 ∧
    (calculateLatency exactConfig (run (step exactConfig) .start honestOps) [(4, 0x1000), (5, 0x1001), (6, 0x2000)]).2
      = [((4 : ℕ), (0x1000 : UInt64)), (5, 0x1001), (6, 0x2000)].countP
        fun e => (run (step exactConfig) .start honestOps).placement.Placed e.2 := by
  obtain ⟨hlocal, hcounts⟩ := locality_exact exactConfig honestOps (by decide +kernel)
  exact ⟨hlocal 0x1001, by decide +kernel, by decide +kernel, (hcounts _).2 (by decide +kernel)⟩

/-- an address just inserted is not counted, and one back-invalidated is still local -/
theorem locality_stale : ((run (step exactConfig) .start [.insert 0 1 0x1000 0]).placement.Placed 0x1000 ∧
      (calculateLatency exactConfig (run (step exactConfig) .start [.insert 0 1 0x1000 0]) [(1, 0x1000)]).2 = 0 ∧
      ((run (step exactConfig) .start [.insert 0 1 0x1000 0, .updateAddressCache]).placement.isAddressLocal
        0x1000).2 = false) ∧ (¬ (run (step exactConfig) .start
        [.insert 0 1 0x1000 0, .isAddressLocal 0x1000, .invalidateInExpanders 0x1000]).placement.Placed 0x1000 ∧
      ((run (step exactConfig) .start
        [.insert 0 1 0x1000 0, .isAddressLocal 0x1000, .invalidateInExpanders 0x1000]).placement.isAddressLocal
        0x1000).2 = true) := by
  decide +kernel

end CxlMemSim.Expander
