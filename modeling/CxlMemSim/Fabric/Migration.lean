/-
Does the installed migration policy decide what is migrated? `get_migration_list` is not virtual: `compute_once` decides
by the derived class's list, and the migration runs over the base class's, which is empty.
-/
import CxlMemSim.Fabric.Recording

namespace CxlMemSim.Controller

open CxlMemSim.Core CxlMemSim.Dist Expander List

/-! ## The frequency-based policy -/

namespace FrequencyBased

structure State where
  accessCount : UInt64 → UInt64
  hotThreshold : UInt64
  coldThreshold : UInt64
  lastCleanup : UInt64
  cleanupInterval : UInt64

def recordAccess (f : State) (addr : UInt64) : State :=
  { f with accessCount := Function.update f.accessCount addr (f.accessCount addr + 1) }

def collectHotData (f : State) (perSize : UInt64) (d : Device) : List (UInt64 × UInt64) :=
  (d.occupation.filter fun info => f.accessCount info.address > f.hotThreshold).map fun info => (info.address, perSize)

/-- the controller's cold addresses and the expanders' hot ones; its own expanders are visited twice -/
def getMigrationList (f : State) (c : CXLController) : List (UInt64 × UInt64) :=
  let perSize := c.pageType.perSize
  let cold := (c.occupation.filter fun e => f.accessCount e.2.address < f.coldThreshold).map
    fun e => (e.2.address, perSize)
  let hot (is : List ℕ) := is.flatMap fun i => (c.devices[i]?.map (collectHotData f perSize)).getD []
  cold ++ hot c.expanders ++ hot c.searchOrder

def computeOnce (f : State) (c : CXLController) : State × ℤ :=
  let counted := c.occupation.foldl (fun f e => recordAccess f e.2.address) f
  let cleaned :=
    if c.lastTimestamp - counted.lastCleanup > counted.cleanupInterval then
      { counted with accessCount := fun _ => 0, lastCleanup := c.lastTimestamp }
    else counted
  (cleaned, if (getMigrationList cleaned c).isEmpty then 0 else 1)

def policy : MigrationPolicy State := ⟨computeOnce, getMigrationList⟩

def start : State := ⟨fun _ => 0, 100, 10, 0, 10000000⟩

end FrequencyBased

variable {P : Type} {c : CXLController} {f : FrequencyBased.State}

def selected (pol : MigrationPolicy P) (p : P) (c : CXLController) : List UInt64 :=
  (pol.getMigrationList (pol.computeOnce p c).1 c).map Prod.fst

/-- the migration moves exactly the present addresses that the policy's own list selects -/
def MovesSelected (pol : MigrationPolicy P) (p : P) (c : CXLController) : Prop :=
  ∀ addr, addr ∈ c.performMigration.2 ↔ addr ∈ selected pol p c ∧ c.Present addr

/-! ## Result -/

lemma performMigration_eq (c : CXLController) : c.performMigration = (c, []) := rfl

lemma movesSelected_iff_none (pol : MigrationPolicy P) (p : P) (c : CXLController) :
    MovesSelected pol p c ↔ ∀ addr ∈ selected pol p c, ¬ c.Present addr := by
  unfold MovesSelected
  rw [performMigration_eq]
  constructor
  · intro h addr hsel hpresent
    exact absurd ((h addr).mpr ⟨hsel, hpresent⟩) not_mem_nil
  · intro h addr
    exact iff_of_false not_mem_nil fun ⟨hsel, hpresent⟩ => h addr hsel hpresent

lemma FrequencyBased.present_of_listed {e : UInt64 × UInt64}
    (he : e ∈ FrequencyBased.getMigrationList f c) : c.Present e.1 := by
  have hot : ∀ is : List ℕ, (∀ i ∈ is, i ∈ c.searchOrder) →
      e ∈ (is.flatMap fun i => (c.devices[i]?.map (collectHotData f c.pageType.perSize)).getD []) →
      c.Present e.1 := by
    intro is his hmem
    obtain ⟨i, hi, hin⟩ := List.mem_flatMap.mp hmem
    cases hd : c.devices[i]? with
    | none =>
      rw [hd] at hin
      exact absurd hin not_mem_nil
    | some d =>
      rw [hd, Option.map_some, Option.getD_some, collectHotData] at hin
      obtain ⟨info, hinfo, rfl⟩ := List.mem_map.mp hin
      refine .inr ⟨i, his i hi, ?_⟩
      rw [CXLController.holds, hd, Option.map_some, Option.getD_some]
      exact List.any_eq_true.mpr ⟨info, (List.mem_filter.mp hinfo).1, by simp⟩
  unfold getMigrationList at he
  rcases List.mem_append.mp he with he | he
  · rcases List.mem_append.mp he with he | he
    · obtain ⟨x, hx, rfl⟩ := List.mem_map.mp he
      exact .inl ⟨x, (List.mem_filter.mp hx).1, rfl⟩
    · exact hot c.expanders (fun i hi => mem_append_left _ hi) he
  · exact hot c.searchOrder (fun i hi => hi) he

lemma FrequencyBased.exists_present
    (h : 0 < (FrequencyBased.computeOnce f c).2) : ∃ addr ∈ selected FrequencyBased.policy f c, c.Present addr := by
  have hne : FrequencyBased.getMigrationList (FrequencyBased.computeOnce f c).1 c ≠ [] := by
    intro hnil
    have : (FrequencyBased.computeOnce f c).2 = 0 := if_pos (List.isEmpty_iff.mpr hnil)
    omega
  obtain ⟨e, he⟩ := exists_mem_of_ne_nil _ hne
  exact ⟨e.1, List.mem_map.mpr ⟨e, he, rfl⟩, FrequencyBased.present_of_listed he⟩

/-- The migration moves what the policy's own list selects if and only if it selects nothing that is present. -/
theorem moves_selected_iff (pol : MigrationPolicy P) (p : P) (c : CXLController) :
    (MovesSelected pol p c ↔ ∀ addr ∈ selected pol p c, ¬ c.Present addr) ∧
    ∀ f : FrequencyBased.State, 0 < (FrequencyBased.computeOnce f c).2 → ¬ MovesSelected FrequencyBased.policy f c := by
  refine ⟨movesSelected_iff_none pol p c, ?_⟩
  intro f hpos hmoves
  obtain ⟨addr, hsel, hpresent⟩ := FrequencyBased.exists_present hpos
  exact (movesSelected_iff_none FrequencyBased.policy f c).mp hmoves addr hsel hpresent

/-! ## A policy that is ignored -/

def oneExpander : CXLController where
  occupation := []
  lruCache := ⟨524288, []⟩
  devices := [.expander exactConfig .start]
  expanders := [0]
  switches := []
  deviceMap := [(0, 0)]
  remoteExpanders := []
  hdmDecoder := none
  pageType := .cacheline
  lastIndex := 0
  lastTimestamp := 0
  requestCounter := 0

def burst : CXLController.Call := ⟨1000, 1, 0x40, 1000, fun _ => ⟨-1, 0, true⟩, none⟩

def CXLController.Caches (c : CXLController) (addr : UInt64) : Prop :=
  ∃ e, c.lruCache.entries.find? (·.key = addr) = some e

lemma access_hit {a : CXLController.Access} (res : Bool) (h : c.Caches a.physAddr) :
    ∃ l, c.access res a = ({ c with lruCache := l }, res) ∧
      CXLController.Caches { c with lruCache := l } a.physAddr := by
  obtain ⟨e, he⟩ := h
  have hkey : e.key = a.physAddr := by simpa using find?_some he
  have hget : c.lruCache.get a.physAddr a.time = ({ c.lruCache with
        entries := { e with timestamp := a.time } :: c.lruCache.entries.eraseP (·.key = a.physAddr) }, some e.value) := by
    rw [LRUCache.get, he]
  refine ⟨{ c.lruCache with
    entries := { e with timestamp := a.time } :: c.lruCache.entries.eraseP (·.key = a.physAddr) }, ?_, ?_⟩
  · unfold CXLController.access
    rw [hget]
  · exact ⟨{ e with timestamp := a.time }, by simp [hkey]⟩

lemma foldl_hits (as : List CXLController.Access) (s : CXLController × Bool) {addr : UInt64}
    (has : ∀ a ∈ as, a.physAddr = addr) (h : s.1.Caches addr) :
    ∃ l, as.foldl (fun s a => s.1.access s.2 a) s = ({ s.1 with lruCache := l }, s.2) := by
  induction as generalizing s with
  | nil => exact ⟨s.1.lruCache, rfl⟩
  | cons a as ih =>
    have haddr := has a mem_cons_self
    obtain ⟨l, heq, hcached⟩ := access_hit s.2 (haddr.symm ▸ h)
    rw [haddr] at hcached
    obtain ⟨l', hl'⟩ := ih ({ s.1 with lruCache := l }, s.2) (fun x hx => has x (mem_cons_of_mem a hx)) hcached
    refine ⟨l', ?_⟩
    rw [foldl_cons, heq, hl']

def CXLController.counted (c : CXLController) : CXLController := { c with requestCounter := 1000 }

lemma CXLController.counted_occupation (c : CXLController) : c.counted.occupation = c.occupation := rfl

def CXLController.withCache (c : CXLController) (l : LRUCache) : CXLController := { c with lruCache := l }

section

variable (f : FrequencyBased.State) (c : CXLController) (l : LRUCache)

lemma computeOnce_withCache : FrequencyBased.computeOnce f (c.withCache l) = FrequencyBased.computeOnce f c := rfl

lemma selected_withCache : selected FrequencyBased.policy f (c.withCache l) = selected FrequencyBased.policy f c := rfl

end

def afterBurst : CXLController := (oneExpander.runAccesses (oneExpander.accesses burst)).1.counted

def burstRecorded : CXLController :=
  { oneExpander with occupation := [(1, ⟨0x40, 1, 1⟩)], requestCounter := 1000 }

def burstAccess (k : ℕ) : CXLController.Access :=
  ⟨oneExpander.lastTimestamp + UInt64.ofNat (k + 1) * (1000 / UInt64.ofNat 1000), 1, 0x40, ⟨-1, 0, true⟩⟩

lemma accesses_burst : oneExpander.accesses burst = burstAccess 0 :: (List.range' 1 999).map burstAccess := by
  have hn : (burst.index - oneExpander.lastIndex).toNat = 1000 := by decide
  have hpos : burst.index > oneExpander.lastIndex := by decide
  have hrange : List.range 1000 = 0 :: List.range' 1 999 := by rw [range_eq_range', range'_succ]
  unfold CXLController.accesses
  dsimp only
  rw [hn, if_pos hpos, hrange, map_cons]
  rfl

lemma afterBurst_eq : ∃ l, afterBurst = burstRecorded.withCache l := by
  obtain ⟨l₀, hfirst⟩ : ∃ l, oneExpander.access true (burstAccess 0) =
      (({ oneExpander with occupation := [(1, ⟨0x40, 1, 1⟩)] } : CXLController).withCache l, true) := ⟨_, rfl⟩
  have hcached : (oneExpander.access true (burstAccess 0)).1.Caches 0x40 := ⟨⟨0x40, 0x40, 1⟩, rfl⟩
  have hsame : ∀ a ∈ (List.range' 1 999).map burstAccess, a.physAddr = 0x40 := by
    intro a ha
    obtain ⟨k, -, rfl⟩ := List.mem_map.mp ha
    rfl
  obtain ⟨l, hl⟩ := foldl_hits _ (oneExpander.access true (burstAccess 0)) hsame hcached
  refine ⟨l, ?_⟩
  rw [afterBurst, accesses_burst, CXLController.runAccesses, foldl_cons, hl, hfirst]
  rfl

theorem hot_start_ignored : 0 < (FrequencyBased.computeOnce FrequencyBased.start afterBurst).2 ∧
    selected FrequencyBased.policy FrequencyBased.start afterBurst = [1] ∧ afterBurst.Present 1 ∧
    ¬ MovesSelected FrequencyBased.policy FrequencyBased.start afterBurst ∧
    (oneExpander.insert (some FrequencyBased.policy) FrequencyBased.start burst).1.1.occupation =
      [(1, ⟨0x40, 1, 1⟩)] := by
  obtain ⟨l, hl⟩ := afterBurst_eq
  have hpos : 0 < (FrequencyBased.computeOnce FrequencyBased.start afterBurst).2 := by
    rw [hl, computeOnce_withCache]
    decide
  have hsel : selected FrequencyBased.policy FrequencyBased.start afterBurst = [1] := by
    rw [hl, selected_withCache]
    decide
  have hocc : (oneExpander.runAccesses (oneExpander.accesses burst)).1.occupation = [(1, ⟨0x40, 1, 1⟩)] := by
    have h : afterBurst.occupation = [(1, ⟨0x40, 1, 1⟩)] := by
      rw [hl]
      rfl
    exact (CXLController.counted_occupation _).symm.trans h
  have hpresent : afterBurst.Present 1 := by
    rw [hl]
    exact .inl ⟨(1, ⟨0x40, 1, 1⟩), mem_singleton_self _, rfl⟩
  refine ⟨hpos, hsel, hpresent, ?_, ?_⟩
  · intro hmoves
    have hmem : (1 : UInt64) ∈ afterBurst.performMigration.2 := (hmoves 1).mpr ⟨by simp [hsel], hpresent⟩
    exact absurd hmem not_mem_nil
  · rw [CXLController.insert_occupation, hocc]

end CxlMemSim.Controller
