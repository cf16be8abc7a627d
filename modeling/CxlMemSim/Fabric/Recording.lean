/-
Is an access that the controller serves itself recorded under its address? The entry is `occupation_info{phys_addr, 1,
current_timestamp + ptw_latency}`, while the fields are timestamp, address and access count. And `emplace` keeps an
entry already there under the same time.
-/
import CxlMemSim.Fabric.Controller

namespace CxlMemSim.Controller

open CxlMemSim.Core CxlMemSim.Dist Expander List

namespace CXLController

/-! ## Statement -/

/-- the access misses the cache and is decided local -/
def LocalMiss (c : CXLController) (a : Access) : Prop :=
  (c.lruCache.get a.physAddr a.time).2 = none ∧ match c.hdmDecoder with
    | some d => (d.decode a.physAddr).isRemote = false ∧ c.localDevice (d.decode a.physAddr).targetId = none
    | none => a.decision.numaPolicy = -1

def wanted (a : Access) : OccupationInfo := ⟨(a.time + a.decision.ptwLatency).toNat, a.physAddr, 1⟩

def built (a : Access) : OccupationInfo := ⟨a.physAddr.toNat, 1, (a.time + a.decision.ptwLatency).toNat⟩

/-- the entry is there `after` the access, and it and every entry from `before` in the `final` state -/
structure Recorded (before after final : CXLController) (a : Access) : Prop where
  entry : ∃ e ∈ after.occupation, e.2 = wanted a
  kept : ∀ e ∈ after.occupation, e ∈ final.occupation
  others : ∀ e ∈ before.occupation, e ∈ final.occupation

def RecordsRight (c : CXLController) (a : Access) : Prop :=
  (∃ e ∈ c.occupation, e.2 = wanted a) ∨
    (a.physAddr = 1 ∧ a.time + a.decision.ptwLatency = 1 ∧ ∀ e ∈ c.occupation, e.1 ≠ a.time)

def step {P : Type} (policy : Option (MigrationPolicy P)) (s : CXLController × P) (call : Call) : CXLController × P :=
  (s.1.insert policy s.2 call).1

lemma mem_emplace {occ : Occupation} {key : UInt64} {info : OccupationInfo} {e : UInt64 × OccupationInfo} :
    e ∈ emplace occ key info ↔ e ∈ occ ∨ ((∀ x ∈ occ, x.1 ≠ key) ∧ e = (key, info)) := by
  unfold emplace
  split_ifs with h
  · obtain ⟨x, hx, hkey⟩ := List.any_eq_true.mp h
    have hno : ¬ ∀ x ∈ occ, x.1 ≠ key := fun hall => hall x hx (by simpa using hkey)
    exact ⟨.inl, fun he => he.resolve_right fun hnew => hno hnew.1⟩
  · have hfree : ∀ x ∈ occ, x.1 ≠ key := by
      intro x hx hkey
      exact h (List.any_eq_true.mpr ⟨x, hx, by simpa using hkey⟩)
    have hsplit : e ∈ occ ↔ e ∈ occ.takeWhile (·.1 < key) ∨ e ∈ occ.dropWhile (·.1 < key) := by
      rw [← mem_append, takeWhile_append_dropWhile]
    rw [mem_append, mem_cons, hsplit]
    constructor
    · rintro (h1 | h1 | h1)
      · exact .inl (.inl h1)
      · exact .inr ⟨hfree, h1⟩
      · exact .inl (.inr h1)
    · rintro ((h1 | h1) | ⟨-, h1⟩)
      · exact .inl h1
      · exact .inr (.inr h1)
      · exact .inr (.inl h1)

/-! ## One access -/

section

variable (c : CXLController) (a : Access)

@[simp] lemma recordLocal_occupation : (c.recordLocal a).occupation = emplace c.occupation a.time (built a) := rfl

@[simp] lemma updateCache_occupation : (c.updateCache a).occupation = c.occupation := rfl

@[simp] lemma insertInto_occupation (i : ℕ) : (c.insertInto a i).occupation = c.occupation := rfl

@[simp] lemma insertAll_occupation (res : Bool) : (c.insertAll a res).1.occupation = c.occupation := rfl

lemma accessDecoded_occupation (d : HDMDecoder) : (c.accessDecoded a d).occupation =
      if (d.decode a.physAddr).isRemote = false ∧ c.localDevice (d.decode a.physAddr).targetId = none then
        emplace c.occupation a.time (built a)
      else c.occupation := by
  unfold accessDecoded
  dsimp only
  rw [apply_ite CXLController.occupation, updateCache_occupation, ite_self]
  cases hr : (d.decode a.physAddr).isRemote with
  | true => cases c.getRemoteExpander (d.decode a.physAddr).targetId <;> simp
  | false => cases hd : c.localDevice (d.decode a.physAddr).targetId <;> simp

lemma accessAllocated_occupation (res : Bool) :
    (c.accessAllocated a res).1.occupation =
      if a.decision.numaPolicy = -1 then emplace c.occupation a.time (built a) else c.occupation := by
  unfold accessAllocated
  by_cases h : a.decision.numaPolicy = -1
  · rw [if_pos h, if_pos h]
    rfl
  · rw [if_neg h, if_neg h]
    dsimp only
    split_ifs <;> rfl

end

/-- An access adds the entry it builds when it is a local miss, and changes nothing otherwise. -/
lemma access_occupation (c : CXLController) (res : Bool) (a : Access) :
    ((c.access res a).1.occupation = emplace c.occupation a.time (built a) ∧ c.LocalMiss a) ∨
      ((c.access res a).1.occupation = c.occupation ∧ ¬ c.LocalMiss a) := by
  unfold access LocalMiss
  dsimp only
  cases hhit : (c.lruCache.get a.physAddr a.time).2 with
  | some v => exact .inr ⟨rfl, fun h => absurd h.1 (Option.some_ne_none v)⟩
  | none =>
    dsimp only
    cases hd : c.hdmDecoder with
    | some d =>
      dsimp only
      rw [accessDecoded_occupation]
      split_ifs with h
      · exact .inl ⟨rfl, rfl, h⟩
      · exact .inr ⟨rfl, fun hl => h hl.2⟩
    | none =>
      dsimp only
      rw [accessAllocated_occupation]
      split_ifs with h
      · exact .inl ⟨rfl, rfl, h⟩
      · exact .inr ⟨rfl, fun hl => h hl.2⟩

lemma access_kept (c : CXLController) (res : Bool) (a : Access) :
    ∀ e ∈ c.occupation, e ∈ (c.access res a).1.occupation := by
  intro e he
  rcases c.access_occupation res a with ⟨h, -⟩ | ⟨h, -⟩
  · rw [h]
    exact mem_emplace.mpr (.inl he)
  · rwa [h]

def AllOne (c : CXLController) : Prop := ∀ e ∈ c.occupation, e.2.address = 1

lemma access_allOne (c : CXLController) (res : Bool) (a : Access) (h : c.AllOne) : (c.access res a).1.AllOne := by
  intro e he
  rcases c.access_occupation res a with ⟨hocc, -⟩ | ⟨hocc, -⟩
  · rw [hocc] at he
    rcases mem_emplace.mp he with hold | ⟨-, rfl⟩
    · exact h e hold
    · rfl
  · rw [hocc] at he
    exact h e he

/-! ## One call -/

lemma runAccesses_snoc (c : CXLController) (as : List Access) (a : Access) :
    c.runAccesses (as ++ [a]) = (c.runAccesses as).1.access (c.runAccesses as).2 a := by
  unfold runAccesses
  rw [foldl_append, foldl_cons, foldl_nil]

lemma foldl_access_kept (as : List Access) (s : CXLController × Bool) :
    ∀ e ∈ s.1.occupation, e ∈ (as.foldl (fun s a => s.1.access s.2 a) s).1.occupation := by
  induction as generalizing s with
  | nil => exact fun e he => he
  | cons a as ih => exact fun e he => ih _ e (s.1.access_kept s.2 a e he)

lemma foldl_access_allOne (as : List Access) (s : CXLController × Bool) (h : s.1.AllOne) :
    (as.foldl (fun s a => s.1.access s.2 a) s).1.AllOne := by
  induction as generalizing s with
  | nil => exact h
  | cons a as ih => exact ih _ (s.1.access_allOne s.2 a h)

variable {P : Type}

section

variable (policy : Option (MigrationPolicy P)) (c : CXLController) (p : P) (call : Call)

lemma afterLoop_occupation : (afterLoop policy c p call).1.occupation = c.occupation := by
  unfold afterLoop
  dsimp only
  split_ifs with h
  · cases policy with
    | none => cases call.invalidations <;> rfl
    | some pol =>
      dsimp only
      cases call.invalidations <;> dsimp only <;> split_ifs <;> rfl
  · rfl

lemma insert_occupation : (c.insert policy p call).1.1.occupation = (c.runAccesses (c.accesses call)).1.occupation :=
  afterLoop_occupation policy _ p call

end

lemma step_allOne (policy : Option (MigrationPolicy P)) (s : CXLController × P) (call : Call)
    (h : s.1.AllOne) : (step policy s call).1.AllOne := by
  intro e he
  rw [step, insert_occupation] at he
  exact foldl_access_allOne _ (s.1, true) h e he

lemma entry_iff {c : CXLController} {a : Access} (res : Bool) (hlocal : c.LocalMiss a) :
    (∃ e ∈ (c.access res a).1.occupation, e.2 = wanted a) ↔ c.RecordsRight a := by
  have hocc : (c.access res a).1.occupation = emplace c.occupation a.time (built a) := by
    rcases c.access_occupation res a with ⟨h, -⟩ | ⟨-, h⟩
    · exact h
    · exact absurd hlocal h
  have hsame : built a = wanted a ↔ a.physAddr = 1 ∧ a.time + a.decision.ptwLatency = 1 := by
    unfold built wanted
    rw [OccupationInfo.mk.injEq]
    constructor
    · rintro ⟨-, h2, h3⟩
      exact ⟨h2.symm, UInt64.toNat_inj.mp h3⟩
    · rintro ⟨h1, h2⟩
      rw [h1, h2]
      exact ⟨rfl, rfl, rfl⟩
  rw [hocc]
  constructor
  · rintro ⟨e, he, hw⟩
    rcases mem_emplace.mp he with hold | ⟨hfree, rfl⟩
    · exact .inl ⟨e, hold, hw⟩
    · obtain ⟨h1, h2⟩ := hsame.mp hw
      exact .inr ⟨h1, h2, hfree⟩
  · rintro (⟨e, he, hw⟩ | ⟨h1, h2, hfree⟩)
    · exact ⟨e, mem_emplace.mpr (.inl he), hw⟩
    · exact ⟨(a.time, built a), mem_emplace.mpr (.inr ⟨hfree, rfl⟩), hsame.mpr ⟨h1, h2⟩⟩

/-- A local miss is recorded as it should be exactly under `RecordsRight`; a search by address finds only address 1. -/
theorem recorded_iff {P : Type} (policy : Option (MigrationPolicy P)) (c₀ : CXLController) (p₀ : P)
    (hempty : c₀.occupation = []) (calls : List Call) (call : Call) (pre post : List Access) (a : Access)
    (hcall : (run (step policy) (c₀, p₀) calls).1.accesses call = pre ++ a :: post)
    (hlocal : ((run (step policy) (c₀, p₀) calls).1.runAccesses pre).1.LocalMiss a) :
    let s := run (step policy) (c₀, p₀) calls
    let before := (s.1.runAccesses pre).1
    let after := (s.1.runAccesses (pre ++ [a])).1
    let final := (step policy s call).1
    (Recorded before after final a ↔ before.RecordsRight a) ∧ (a.physAddr ≠ 1 → ¬ final.InController a.physAddr) := by
  intro s before after final
  have hafter : after = (before.access (s.1.runAccesses pre).2 a).1 := congrArg Prod.fst (runAccesses_snoc s.1 pre a)
  have hkept : ∀ e ∈ after.occupation, e ∈ final.occupation := by
    intro e he
    have hfinal : final.occupation = (s.1.runAccesses (pre ++ [a] ++ post)).1.occupation := by
      rw [append_assoc, singleton_append, ← hcall]
      exact insert_occupation policy s.1 s.2 call
    rw [hfinal, runAccesses, foldl_append]
    exact foldl_access_kept post _ e he
  have hothers : ∀ e ∈ before.occupation, e ∈ after.occupation := by
    rw [hafter]
    exact before.access_kept _ a
  constructor
  · rw [← entry_iff (s.1.runAccesses pre).2 hlocal, ← hafter]
    exact ⟨fun h => h.entry, fun h => ⟨h, hkept, fun e he => hkept e (hothers e he)⟩⟩
  · intro hne hin
    have hall : (run (step policy) (c₀, p₀) (calls ++ [call])).1.AllOne := by
      refine run_inv_all (P := fun s => s.1.AllOne) (fun s op h => step_allOne policy s op h) _ ?_
      intro e he
      rw [hempty] at he
      cases he
    rw [run_append] at hall
    obtain ⟨e, he, haddr⟩ := hin
    exact hne (haddr.symm.trans (hall e he))

def bare : CXLController where
  occupation := []
  lruCache := ⟨524288, []⟩
  devices := []
  expanders := []
  switches := []
  deviceMap := []
  remoteExpanders := []
  hdmDecoder := none
  pageType := .cacheline
  lastIndex := 0
  lastTimestamp := 0
  requestCounter := 0

def oneAccess (time addr : UInt64) : Call := ⟨time, 1, addr, 1, fun _ => ⟨-1, 0, true⟩, none⟩

/-- address 0x40 at time 1000 is recorded as address 1, with timestamp 0x40 and 1000 accesses -/
theorem address_lost : (step (none : Option (MigrationPolicy Unit)) (bare, ()) (oneAccess 1000 0x40)).1.occupation =
      [(1000, ⟨0x40, 1, 1000⟩)] ∧ bare.LocalMiss ⟨1000, 1, 0x40, ⟨-1, 0, true⟩⟩ ∧
    ¬ (step (none : Option (MigrationPolicy Unit)) (bare, ()) (oneAccess 1000 0x40)).1.InController 0x40 := by
  refine ⟨by decide, ⟨by decide, rfl⟩, by decide⟩

theorem recorded_iff_one :
    (step (none : Option (MigrationPolicy Unit)) (bare, ()) (oneAccess 1 1)).1.occupation = [(1, ⟨1, 1, 1⟩)] ∧
    Recorded bare (bare.runAccesses ([] ++ [⟨1, 1, 1, ⟨-1, 0, true⟩⟩])).1
      (step (none : Option (MigrationPolicy Unit)) (bare, ()) (oneAccess 1 1)).1 ⟨1, 1, 1, ⟨-1, 0, true⟩⟩ := by
  refine ⟨by decide, ?_⟩
  have h := recorded_iff (none : Option (MigrationPolicy Unit)) bare () rfl [] (oneAccess 1 1) [] []
    ⟨1, 1, 1, ⟨-1, 0, true⟩⟩ (by decide) ⟨by decide, rfl⟩
  exact h.1.mpr (.inr ⟨rfl, by decide, fun e he => absurd he (not_mem_nil)⟩)

end CXLController

end CxlMemSim.Controller
