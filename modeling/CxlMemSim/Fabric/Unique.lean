/-
Does an expander hold each address once? `insert` looks for an old entry if `address_cache` has the address,
`record_access` looks at all entries, `perform_migration` pushes without looking.

Results
  - `linked_step`: an address that is held is in `address_cache` or has migrated in (`Linked`)
  - `unique_of_clean`: in runs whose calls are `Clean` no address is held twice (`migrated_then_inserted`: not in
    others); premises met by `unique_of_clean_returns`
-/
import CxlMemSim.Fabric.Locality

namespace CxlMemSim.Expander

open List
open CxlMemSim.Core

namespace Placement

def Unique (p : Placement) : Prop := p.occupation.Pairwise fun o o' => o.address = o'.address → o.address = 0

instance (p : Placement) : Decidable p.Unique := inferInstanceAs (Decidable (List.Pairwise _ _))

variable {p : Placement} {occ : List OccupationInfo} {q : Placement}

lemma Unique.sublist (h : p.Unique) (hsub : q.occupation.Sublist p.occupation) : q.Unique :=
  List.Pairwise.sublist hsub h

lemma unique_append {info : OccupationInfo} (h : occ.Pairwise fun o o' => o.address = o'.address → o.address = 0) :
    ((occ ++ [info]).Pairwise fun o o' => o.address = o'.address → o.address = 0) ↔
      info.address = 0 ∨ ¬ ∃ o ∈ occ, o.address = info.address := by
  simp only [pairwise_append, h, pairwise_singleton, mem_singleton, forall_eq, true_and]
  constructor
  · intro hnew
    by_contra hboth
    push Not at hboth
    obtain ⟨hne, o, ho, heq⟩ := hboth
    exact hne (heq ▸ hnew o ho heq)
  · rintro (hzero | hnot) o ho heq
    · rw [heq, hzero]
    · exact absurd ⟨o, ho, heq⟩ hnot

lemma not_mem_eraseP {addr : UInt64} (hne : addr ≠ 0)
    (h : occ.Pairwise fun o o' => o.address = o'.address → o.address = 0) :
    ¬ ∃ o ∈ occ.eraseP (·.address = addr), o.address = addr := by
  induction occ with
  | nil => simp
  | cons o occ ih =>
    rw [pairwise_cons] at h
    by_cases ho : o.address = addr
    · rw [eraseP_cons_of_pos (by simpa using ho)]
      rintro ⟨x, hx, rfl⟩
      exact hne (ho ▸ h.1 x hx ho)
    · rw [eraseP_cons_of_neg (by simpa using ho)]
      rintro ⟨x, hx, heq⟩
      rcases List.mem_cons.mp hx with rfl | hx
      · exact ho heq
      · exact ih h.2 ⟨x, hx, heq⟩

lemma deleteEntry_addresses (p : Placement) (time : ℕ) (addr length : UInt64) :
    (p.deleteEntry time addr length).occupation.map (·.address) = p.occupation.map (·.address) := by
  have hmark : ∀ o : OccupationInfo, (if touched addr length o then
      { o with accessCount := o.accessCount + 1, timestamp := time } else o).address = o.address := by
    intro o
    split_ifs <;> rfl
  unfold Placement.deleteEntry
  dsimp only
  split_ifs <;> simp [invalidateCache, Function.comp_def, hmark]

section

variable (h : p.Unique)
include h

lemma Unique.replaceEntry (info : OccupationInfo) : (p.replaceEntry info).Unique := by
  refine (unique_append (List.Pairwise.sublist eraseP_sublist h)).mpr ?_
  by_cases hzero : info.address = 0
  · exact .inl hzero
  · exact .inr (not_mem_eraseP hzero h)

lemma Unique.updateRangeCache : p.updateRangeCache.Unique := by
  unfold Placement.updateRangeCache
  split_ifs
  · exact h
  · refine (List.Perm.pairwise_iff (fun {o o'} ho heq => ?_) (perm_insertionSort _ p.occupation)).mpr h
    rw [heq]
    exact ho heq.symm

lemma Unique.updateAddressCache : p.updateAddressCache.Unique := by
  unfold Placement.updateAddressCache
  split_ifs <;> exact h

lemma Unique.freeStats (coins : List Bool) : (p.freeStats coins).Unique := by
  unfold Placement.freeStats
  dsimp only
  split_ifs <;> exact h.sublist (survivors_sublist coins p.occupation)

lemma Unique.deleteEntry (time : ℕ) (addr length : UInt64) : (p.deleteEntry time addr length).Unique := by
  have haddresses : (p.occupation.map (·.address)).Pairwise fun a b => a = b → a = 0 := pairwise_map.mpr h
  rw [← deleteEntry_addresses p time addr length] at haddresses
  exact pairwise_map.mp haddresses

lemma unique_insertEntry (info : OccupationInfo) (hne : info.address ≠ 0) :
    (p.insertEntry info).1.Unique ↔ (p.Placed info.address → info.address ∈ p.addressCache) := by
  unfold insertEntry
  split_ifs with hfound
  · exact iff_of_true (h.replaceEntry info) fun _ => hfound.1
  · refine (unique_append h).trans ?_
    change (info.address = 0 ∨ ¬ p.Placed info.address) ↔ _
    tauto

end

lemma Change.unique {cfg : Config} {o : Op} (hc : p.Change cfg o q) (h : p.Unique) :
    q.Unique ∨ (∃ timestamp tid physAddr index, o = .insert timestamp tid physAddr index) ∨
      ∃ info, o = .migrateIn info := by
  cases hc with
  | same _ => exact .inl h
  | insert _ _ => exact .inr (.inl ⟨_, _, _, _, rfl⟩)
  | record _ info => exact .inl (h.replaceEntry info)
  | addressCache | latency _ => exact .inl h.updateAddressCache
  | rangeCache _ => exact .inl h.updateRangeCache
  | invalidate addr => exact .inl (h.sublist filter_sublist)
  | migrateIn info => exact .inr (.inr ⟨info, rfl⟩)
  | migrateOut addr => exact .inl (h.sublist eraseP_sublist)
  | freeStats _ coins => exact .inl (h.freeStats coins)
  | deleteEntry _ time addr length => exact .inl (h.deleteEntry time addr length)

/-- an address that is held is in `address_cache` or among the `strays` -/
def Linked (p : Placement) (strays : Finset UInt64) : Prop :=
  ∀ addr ≠ 0, p.Placed addr → addr ∈ p.addressCache ∨ addr ∈ strays

variable {strays : Finset UInt64} {addr : UInt64}

lemma Linked.of_subset (h : p.Linked strays) (hcache : q.addressCache = p.addressCache)
    (hplaced : ∀ a, q.Placed a → p.Placed a) : q.Linked strays :=
  fun a hne hq => hcache ▸ h a hne (hplaced a hq)

lemma Linked.erase (h : p.Linked strays) (haddr : addr ≠ 0 → p.Placed addr → addr ∈ p.addressCache) :
    p.Linked (strays.erase addr) := by
  intro a hne hp
  by_cases ha : a = addr
  · exact .inl (ha ▸ haddr (ha ▸ hne) (ha ▸ hp))
  · exact (h a hne hp).imp_right fun hmem => Finset.mem_erase.mpr ⟨ha, hmem⟩

/-- an entry is placed and its address listed -/
lemma Linked.list (h : p.Linked strays) (hcache : p.addressCache ⊆ q.addressCache) (hlisted : addr ∈ q.addressCache)
    (hplaced : ∀ a, q.Placed a ↔ p.Placed a ∨ a = addr) : q.Linked strays := by
  intro a hne hq
  rcases (hplaced a).mp hq with hp | rfl
  · exact (h a hne hp).imp_left fun hmem => hcache hmem
  · exact .inl hlisted

lemma Linked.insertEntry (h : p.Linked strays) (info : OccupationInfo) : (p.insertEntry info).1.Linked strays := by
  refine h.list ?_ ?_ fun a => placed_insertEntry p info a <;> unfold Placement.insertEntry
  · split_ifs
    · exact subset_rfl
    · exact Finset.subset_insert _ _
  · split_ifs with hfound
    · exact hfound.1
    · exact Finset.mem_insert_self _ _

lemma Linked.updateAddressCache (h : p.Linked strays) : p.updateAddressCache.Linked strays := by
  unfold Placement.updateAddressCache
  split_ifs
  · exact h
  · exact fun addr _ hp => .inl (by simpa [Placed] using hp)

lemma Change.linked {cfg : Config} {o : Op} (hc : p.Change cfg o q) (h : p.Linked strays) :
    q.Linked strays ∨ ∃ info, o = .migrateIn info ∧ q = p.migrateIn info := by
  cases hc with
  | same _ => exact .inl h
  | insert _ _ => exact .inl (h.insertEntry _)
  | record _ info =>
    exact .inl (h.list (Finset.subset_insert _ _) (Finset.mem_insert_self _ _) fun a => placed_replaceEntry p info a)
  | addressCache | latency _ => exact .inl h.updateAddressCache
  | rangeCache _ =>
    refine .inl (h.of_subset ?_ fun a => (placed_updateRangeCache p a).mp)
    unfold Placement.updateRangeCache
    split_ifs <;> rfl
  | invalidate addr => exact .inl (h.of_subset rfl fun _ ⟨o, ho, heq⟩ => ⟨o, mem_of_mem_filter ho, heq⟩)
  | migrateIn info => exact .inr ⟨info, rfl, rfl⟩
  | migrateOut addr => exact .inl (h.of_subset rfl fun _ ⟨o, ho, heq⟩ => ⟨o, mem_of_mem_eraseP ho, heq⟩)
  | freeStats _ coins =>
    refine .inl (h.of_subset ?_ ?_) <;> unfold Placement.freeStats <;> dsimp only
    · split_ifs <;> rfl
    · rintro _ ⟨o, ho, rfl⟩
      refine ⟨o, (survivors_sublist coins p.occupation).subset ?_, rfl⟩
      split_ifs at ho <;> exact ho
  | deleteEntry _ time addr length =>
    refine .inl (h.of_subset ?_ fun a ha => ?_)
    · unfold Placement.deleteEntry
      dsimp only
      split_ifs <;> rfl
    · rwa [placed_iff_mem, deleteEntry_addresses, ← placed_iff_mem] at ha

end Placement

/-! ## Steps -/

def takes (cfg : Config) (s : CXLMemExpander) (timestamp : ℕ) (physAddr : UInt64) (index : ℤ) : Bool :=
  index = cfg.id ∧ physAddr ≠ 0 ∧ (arrive cfg s timestamp).pipeline.canAcceptRequest

def Op.Finds (cfg : Config) (s : CXLMemExpander) : Op → Prop
  | .insert timestamp _ physAddr index => takes cfg s timestamp physAddr index = true →
      s.placement.Placed physAddr → physAddr ∈ s.placement.addressCache
  | .migrateIn info => info.address = 0 ∨ ¬ s.placement.Placed info.address
  | _ => True

lemma insert_placement (cfg : Config) (s : CXLMemExpander) (timestamp : ℕ) (tid physAddr : UInt64) (index : ℤ) :
    (insert cfg s timestamp tid physAddr index).1.placement =
      if takes cfg s timestamp physAddr index then (s.placement.insertEntry ⟨timestamp, physAddr, 0⟩).1
      else s.placement := by
  by_cases hid : index = cfg.id
  · by_cases haddr : physAddr = 0
    · simp [insert, takes, hid, haddr]
    · cases hroom : (arrive cfg s timestamp).pipeline.canAcceptRequest with
      | false => simp [insert, takes, hid, haddr, hroom]
      | true =>
        cases hfound : (s.placement.insertEntry ⟨timestamp, physAddr, 0⟩).2 <;>
          simp [insert, takes, hid, haddr, hroom, hfound]
  · simp [insert, takes, hid]

/-- A step keeps the addresses apart exactly if it finds what is there. -/
lemma unique_step (cfg : Config) {s : CXLMemExpander} (h : s.placement.Unique) (o : Op) :
    (step cfg s o).placement.Unique ↔ o.Finds cfg s := by
  cases o with
  | insert timestamp tid physAddr index =>
    rw [step, insert_placement, Op.Finds]
    cases htakes : takes cfg s timestamp physAddr index with
    | false => simpa using h
    | true =>
      have hne : physAddr ≠ 0 := by
        simp only [takes, decide_eq_true_eq] at htakes
        exact htakes.2.1
      simpa using Placement.unique_insertEntry h ⟨timestamp, physAddr, 0⟩ hne
  | migrateIn info => exact Placement.unique_append h
  | _ =>
    rcases (step_change cfg s _).unique h with hkept | ⟨_, _, _, _, ho⟩ | ⟨_, ho⟩
    · exact iff_of_true hkept trivial
    · cases ho
    · cases ho

/-- the addresses that have migrated in and have since been neither recorded nor moved out nor back-invalidated -/
def Op.strays (cfg : Config) (s : CXLMemExpander) (strays : Finset UInt64) : Op → Finset UInt64
  | .migrateIn info => Insert.insert info.address strays
  | .recordAccess timestamp _ physAddr index _ =>
    if index = cfg.id ∧ (arrive cfg s timestamp).pipeline.canAcceptRequest then strays.erase physAddr else strays
  | .migrateOut addr | .invalidateInExpanders addr => strays.erase addr
  | _ => strays

def watch (cfg : Config) (w : CXLMemExpander × Finset UInt64) (o : Op) : CXLMemExpander × Finset UInt64 :=
  (step cfg w.1 o, o.strays cfg w.1 w.2)

/-- an `insert` that is carried out names no stray that is still held, and nothing migrates to where it is -/
def Op.Clean (cfg : Config) (w : CXLMemExpander × Finset UInt64) : Op → Prop
  | .insert timestamp _ physAddr index => takes cfg w.1 timestamp physAddr index = true →
      w.1.placement.Placed physAddr → physAddr ∉ w.2
  | .migrateIn info => info.address = 0 ∨ ¬ w.1.placement.Placed info.address
  | _ => True

instance (cfg : Config) (w : CXLMemExpander × Finset UInt64) (o : Op) : Decidable (o.Clean cfg w) := by
  cases o <;> unfold Op.Clean <;> infer_instance

lemma recordAccess_listed (cfg : Config) (s : CXLMemExpander) (timestamp : ℕ) (tid physAddr : UInt64) {index : ℤ}
    (isWrite : Bool) (hid : index = cfg.id) (hroom : (arrive cfg s timestamp).pipeline.canAcceptRequest = true) :
    physAddr ∈ (recordAccess cfg s timestamp tid physAddr index isWrite).1.placement.addressCache := by
  cases isWrite <;> simp [recordAccess, hid, hroom, Placement.recordEntry, Placement.invalidateCache]

lemma linked_step (cfg : Config) {s : CXLMemExpander} {strays : Finset UInt64} (hunique : s.placement.Unique)
    (h : s.placement.Linked strays) (o : Op) : (step cfg s o).placement.Linked (o.strays cfg s strays) := by
  rcases (step_change cfg s o).linked h with hstep | ⟨info, rfl, hq⟩
  · cases o with
    | recordAccess timestamp tid physAddr index isWrite =>
      rw [Op.strays]
      split_ifs with hdone
      · exact hstep.erase fun _ _ => recordAccess_listed cfg s timestamp tid physAddr isWrite hdone.1 hdone.2
      · exact hstep
    | migrateIn info => exact fun addr hne hp => (hstep addr hne hp).imp_right (Finset.mem_insert_of_mem)
    | migrateOut addr =>
      refine hstep.erase fun hne hp => absurd hp ?_
      simp only [step, migrateOut]
      split_ifs with hplaced
      · exact Placement.not_mem_eraseP hne hunique
      · exact hplaced
    | invalidateInExpanders addr =>
      exact hstep.erase fun _ hp => absurd rfl ((Placement.placed_invalidateInExpanders _ addr addr).mp hp).2
    | _ => exact hstep
  · intro addr hne hp
    rw [hq] at hp ⊢
    rcases (Placement.placed_append _ info addr).mp hp with hp | rfl
    · exact (h addr hne hp).imp_right (Finset.mem_insert_of_mem)
    · exact .inr (Finset.mem_insert_self _ _)

lemma finds_of_clean {cfg : Config} {w : CXLMemExpander × Finset UInt64} (h : w.1.placement.Linked w.2) {o : Op}
    (hclean : o.Clean cfg w) : o.Finds cfg w.1 := by
  cases o with
  | insert timestamp tid physAddr index =>
    intro htakes hplaced
    have hne : physAddr ≠ 0 := by
      simp only [takes, decide_eq_true_eq] at htakes
      exact htakes.2.1
    exact (h physAddr hne hplaced).resolve_right (hclean htakes hplaced)
  | migrateIn info => exact hclean
  | _ => trivial

/-- An expander holds each address once in every run of clean calls. -/
theorem unique_of_clean (cfg : Config) (ops : List Op)
    (h : AllSteps (watch cfg) (fun w o => o.Clean cfg w) (.start, ∅) ops) :
    (run (step cfg) .start ops).placement.Unique := by
  have hinv := run_inv (P := fun w : CXLMemExpander × Finset UInt64 => w.1.placement.Unique ∧ w.1.placement.Linked w.2)
    (fun w o hw hclean => ⟨(unique_step cfg hw.1 o).mpr (finds_of_clean hw.2 hclean), linked_step cfg hw.1 hw.2 o⟩)
    (s := (.start, ∅)) ⟨List.Pairwise.nil, fun _ _ ⟨_, ho, _⟩ => nomatch ho⟩ h
  have hfst : ∀ (ops : List Op) (w : CXLMemExpander × Finset UInt64),
      (run (watch cfg) w ops).1 = run (step cfg) w.1 ops := by
    intro ops
    induction ops with
    | nil => exact fun _ => rfl
    | cons o ops ih => exact fun w => ih (watch cfg w o)
  rw [hfst] at hinv
  exact hinv.1

/-- inserted again after it was recorded, and moved out and back -/
theorem unique_of_clean_returns : (run (step exactConfig) .start
    [.insert 1 0 64 0, .migrateIn ⟨2, 128, 0⟩, .recordAccess 3 0 128 0 true, .insert 4 0 128 0, .insert 5 0 64 0,
      .migrateOut 64, .migrateIn ⟨6, 64, 0⟩, .invalidateInExpanders 128, .insert 7 0 128 0]).placement.Unique :=
  unique_of_clean exactConfig _ (by decide +kernel)

/-- Migrated, then inserted: the entry that migrated in is not in `address_cache`, and the `insert` adds another. -/
theorem migrated_then_inserted :
    (run (step exactConfig) .start [.migrateIn ⟨1, 64, 0⟩, .insert 2 0 64 0]).placement.occupation =
        [⟨1, 64, 0⟩, ⟨2, 64, 0⟩] ∧
      (run (step exactConfig) .start [.insert 2 0 64 0, .migrateIn ⟨1, 64, 0⟩]).placement.occupation =
        [⟨2, 64, 0⟩, ⟨1, 64, 0⟩] := by
  decide

end CxlMemSim.Expander
