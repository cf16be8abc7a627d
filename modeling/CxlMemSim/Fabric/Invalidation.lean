/-
Is what `FrequencyBasedInvalidationPolicy` decides carried out? `compute_once` builds the invalidation list and throws
it away, `perform_back_invalidation` builds it again. Building also clears the counts when the cleanup is due, so the
second list is empty just then.
-/
import CxlMemSim.Fabric.Controller

namespace CxlMemSim.Controller

open Expander

/-- an object of the class; `access_count` is a map, so an address may have no count -/
structure FrequencyBasedInvalidationPolicy where
  accessCount : UInt64 → Option UInt64
  accessThreshold : UInt64
  lastCleanup : UInt64
  cleanupInterval : UInt64

namespace FrequencyBasedInvalidationPolicy

def shouldInvalidate (p : FrequencyBasedInvalidationPolicy) (addr : UInt64) : Bool :=
  match p.accessCount addr with
  | some count => count < p.accessThreshold
  | none => false

def getInvalidationList (p : FrequencyBasedInvalidationPolicy) (c : CXLController) :
    FrequencyBasedInvalidationPolicy × List UInt64 :=
  let toInvalidate := (c.lruCache.entries.map (·.key)).filter p.shouldInvalidate
  if c.lastTimestamp - p.lastCleanup > p.cleanupInterval then
    ({ p with accessCount := fun _ => none, lastCleanup := c.lastTimestamp }, toInvalidate)
  else (p, toInvalidate)

def computeOnce (p : FrequencyBasedInvalidationPolicy) (c : CXLController) : FrequencyBasedInvalidationPolicy × ℤ :=
  let r := p.getInvalidationList c
  (r.1, if r.2.isEmpty then 0 else 1)

end FrequencyBasedInvalidationPolicy

open FrequencyBasedInvalidationPolicy

/-- the controller after `compute_once` has reported work and `perform_back_invalidation` has run -/
def CXLController.invalidated (c : CXLController) (p : FrequencyBasedInvalidationPolicy) : CXLController :=
  c.performBackInvalidation ((p.computeOnce c).1.getInvalidationList c).2

/-- every cached address with a count below the threshold is gone from cache and expanders -/
def CarriedOut (p : FrequencyBasedInvalidationPolicy) (c : CXLController) : Prop :=
  ∀ addr ∈ c.lruCache.entries.map (·.key), p.shouldInvalidate addr = true →
    addr ∉ (c.invalidated p).lruCache.entries.map (·.key) ∧ ∀ i ∈ c.searchOrder, (c.invalidated p).holds addr i = false

/-! ## What a back-invalidation removes -/

lemma keys_removed (list : List UInt64) (l : LRUCache) :
    (list.foldl LRUCache.remove l).entries.map (·.key) = (l.entries.map (·.key)).diff list := by
  induction list generalizing l with
  | nil => simp
  | cons k list ih =>
    rw [List.foldl_cons, ih, List.diff_cons]
    congr 1
    simp only [LRUCache.remove, List.erase_eq_eraseP, List.eraseP_map, Function.comp_def]
    refine congrArg (fun q => (l.entries.eraseP q).map (·.key)) (funext fun e => ?_)
    rw [beq_eq_decide]
    exact decide_eq_decide.mpr eq_comm

def Clean (addr : UInt64) (i : ℕ) (devs : Devices) : Prop :=
  ∀ d, devs[i]? = some d → ∀ o ∈ d.occupation, o.address ≠ addr

variable {addr : UInt64}

lemma mem_invalidated {d : Device} {o : OccupationInfo}
    (h : o ∈ (d.mapPlacement (·.invalidateInExpanders addr)).occupation) : o ∈ d.occupation ∧ o.address ≠ addr := by
  cases d <;> simpa [Device.mapPlacement, Device.occupation, Placement.invalidateInExpanders] using h

variable {devs : Devices} {i : ℕ} {other : UInt64}

lemma clean_modify {j : ℕ} (h : Clean addr i devs ∨ (j = i ∧ other = addr)) :
    Clean addr i (devs.modify j (Device.mapPlacement (·.invalidateInExpanders other))) := by
  intro d hd o ho
  rw [List.getElem?_modify] at hd
  obtain ⟨d', hd', rfl⟩ := Option.map_eq_some_iff.mp hd
  rcases h with hclean | ⟨rfl, rfl⟩
  · refine hclean d' hd' o ?_
    split_ifs at ho
    · exact (mem_invalidated ho).1
    · exact ho
  · rw [if_pos rfl] at ho
    exact (mem_invalidated ho).2

lemma clean_foldl (order : List ℕ) (h : Clean addr i devs ∨ (i ∈ order ∧ other = addr)) :
    Clean addr i (order.foldl (fun ds j => ds.modify j (Device.mapPlacement (·.invalidateInExpanders other))) devs) := by
  induction order generalizing devs with
  | nil => exact h.resolve_right fun h => absurd h.1 List.not_mem_nil
  | cons j order ih =>
    refine ih ?_
    rcases h with hclean | ⟨hmem, heq⟩
    · exact .inl (clean_modify (.inl hclean))
    · rcases List.mem_cons.mp hmem with rfl | hlater
      · exact .inl (clean_modify (.inr ⟨rfl, heq⟩))
      · exact .inr ⟨hlater, heq⟩

lemma clean_performBackInvalidation {c : CXLController} {list : List UInt64}
    (haddr : addr ∈ list) (hi : i ∈ c.searchOrder) : Clean addr i (c.performBackInvalidation list).devices := by
  have hrun : ∀ (l : List UInt64) (devs : Devices), Clean addr i devs ∨ addr ∈ l → Clean addr i
      (l.foldl (fun devs a => c.searchOrder.foldl (fun ds j =>
        ds.modify j (Device.mapPlacement (·.invalidateInExpanders a))) devs) devs) := by
    intro l
    induction l with
    | nil => exact fun devs h => h.resolve_right List.not_mem_nil
    | cons a l ih =>
      refine fun devs h => ih _ ?_
      rcases h with hclean | hmem
      · exact .inl (clean_foldl _ (.inl hclean))
      · rcases List.mem_cons.mp hmem with rfl | hlater
        · exact .inl (clean_foldl _ (.inr ⟨hi, rfl⟩))
        · exact .inr hlater
  exact hrun list c.devices (.inr haddr)

/-! ## Result -/

/-- The decision is carried out exactly if the cleanup of the counts is not due. -/
theorem carriedOut_iff (p : FrequencyBasedInvalidationPolicy) (c : CXLController) (hwork : 0 < (p.computeOnce c).2) :
    CarriedOut p c ↔ c.lastTimestamp - p.lastCleanup ≤ p.cleanupInterval := by
  by_cases hdue : c.lastTimestamp - p.lastCleanup > p.cleanupInterval
  · -- the counts are cleared, the second list is empty, and the address that was announced stays cached
    rw [iff_false_right (UInt64.not_le.mpr hdue)]
    intro hcarried
    have hempty : ((p.computeOnce c).1.getInvalidationList c).2 = [] := by
      simp [computeOnce, getInvalidationList, hdue, List.filter_eq_nil_iff, shouldInvalidate]
    have hsame : (c.invalidated p).lruCache = c.lruCache := by
      rw [CXLController.invalidated, hempty]
      rfl
    obtain ⟨addr, haddr⟩ : ∃ addr, addr ∈ (c.lruCache.entries.map (·.key)).filter p.shouldInvalidate := by
      refine List.exists_mem_of_ne_nil _ fun hnil => ?_
      simp [computeOnce, getInvalidationList, hdue, hnil] at hwork
    obtain ⟨hcached, hbelow⟩ := List.mem_filter.mp haddr
    exact (hcarried addr hcached hbelow).1 (hsame ▸ hcached)
  · rw [iff_true_right (UInt64.not_lt.mp hdue)]
    have hlist : ((p.computeOnce c).1.getInvalidationList c).2 =
        (c.lruCache.entries.map (·.key)).filter p.shouldInvalidate := by
      simp [computeOnce, getInvalidationList, hdue]
    intro addr hcached hbelow
    have hmem := List.mem_filter.mpr ⟨hcached, hbelow⟩
    unfold CXLController.invalidated
    rw [hlist]
    constructor
    · change addr ∉ (List.foldl LRUCache.remove c.lruCache _).entries.map (·.key)
      rw [keys_removed, ← List.count_eq_zero, List.count_diff, List.count_filter hbelow, Nat.sub_self]
    · intro i hi
      have hclean := clean_performBackInvalidation hmem hi
      rw [CXLController.holds]
      cases hd : (c.performBackInvalidation _).devices[i]? with
      | none => rfl
      | some d => simpa using hclean d hd

def onceCached (lastTimestamp : UInt64) : CXLController :=
  ⟨[], ⟨8, [⟨64, 64, 1⟩]⟩, [], [], [], [], [], none, .cacheline, 0, lastTimestamp, 0⟩

def onceCounted : FrequencyBasedInvalidationPolicy := ⟨fun addr => if addr = 64 then some 1 else none, 100, 0, 10000000⟩

theorem carriedOut_in_time : CarriedOut onceCounted (onceCached 5) :=
  (carriedOut_iff onceCounted (onceCached 5) (by decide)).mpr (by decide)

/-- A decision that is forgotten. At time 10000001 the cleanup is due: work is reported, and the line stays. -/
theorem cleanup_forgets :
    0 < (onceCounted.computeOnce (onceCached 10000001)).2 ∧ onceCounted.shouldInvalidate 64 = true ∧
      ((onceCached 10000001).invalidated onceCounted).lruCache.entries.map (·.key) = [64] := by
  decide

end CxlMemSim.Controller
