/-
Does releasing capacity revoke access for good? A release calls `revoke_extent` with base and size AS REQUESTED, which
drops only the mappings with exactly these. A mapping of a sub-range, or under the aligned size, stays, and grants
access again once capacity is added there. `Hist` is a history of grants and releases.
-/
import CxlMemSim.Fabric.Gfam

namespace CxlMemSim.Revocation

open CxlMemSim.Core
open Dcd hiding Op step answer run_inv step_inv Inv
open Gfam

/-! ## Runs of the controller, with their history -/

inductive Op where
  | addCapacity (requestedBase size tag timestamp : UInt64)
  | releaseCapacity (base size tag timestamp : UInt64)
  | grantAccess (hostId : UInt32) (base size : UInt64) (permissions : UInt32)
  | revokeAccess (hostId : UInt32) (base size : UInt64)
  | recordAccess (hostId : UInt32) (addr size : UInt64) (isWrite isAtomic : Bool)
deriving DecidableEq, Repr

structure Released where
  time : ℕ
  base : UInt64
  size : UInt64
deriving DecidableEq, Repr

structure Hist where
  ctrl : Controller
  clock : ℕ
  grantedAt : UInt32 → UInt64 → UInt64 → ℕ
  released : List Released

def releaseSize (c : Controller) (size : UInt64) : UInt64 :=
  match c.dcdDevice with
  | none => size
  | some d => requestSize d size

def stampGrant (h : Hist) (host : UInt32) (base size : UInt64) : UInt32 → UInt64 → UInt64 → ℕ :=
  fun host' base' size' => if host' = host ∧ base' = base ∧ size' = size then h.clock else h.grantedAt host' base' size'

def step (h : Hist) : Op → Hist
  | .addCapacity b n tag ts => { h with ctrl := (dcdAddCapacity h.ctrl b n tag ts).2, clock := h.clock + 1 }
  | .releaseCapacity b n tag ts =>
    let (status, ctrl) := dcdReleaseCapacity h.ctrl b n tag ts
    { h with
      ctrl, clock := h.clock + 1
      released := if status = .ok then ⟨h.clock, b, releaseSize h.ctrl n⟩ :: h.released else h.released }
  | .grantAccess host b n p =>
    let (status, ctrl) := gfamGrantAccess h.ctrl host b n p
    { h with
      ctrl, clock := h.clock + 1
      grantedAt := if status = .ok then stampGrant h host b n else h.grantedAt }
  | .revokeAccess host b n => { h with ctrl := (gfamRevokeAccess h.ctrl host b n).2, clock := h.clock + 1 }
  | .recordAccess host a n w at' =>
    { h with ctrl := (gfamRecordAccess h.ctrl host a n w at').2, clock := h.clock + 1 }

/-- both devices enabled, as at start-up; the DCD exists, so the default capacity is not used -/
def start (total gran initialCapacity initialTag : UInt64) (numHosts : ℕ) : Hist :=
  ⟨enableGfam (enableDcd ⟨none, none⟩ total gran initialCapacity initialTag) [] 0 numHosts, 1, fun _ _ _ => 0, []⟩

/-! ## Statement -/

def Meets (r : Released) (base size : UInt64) : Prop := ¬ Apart r.base.toNat r.size.toNat base.toNat size.toNat

instance (r : Released) (base size : UInt64) : Decidable (Meets r base size) := inferInstanceAs (Decidable (¬ _))

/-- no access to a released extent is allowed by a mapping granted before the release -/
def RevokedForGood (h : Hist) : Prop :=
  ∀ d g, h.ctrl.dcdDevice = some d → h.ctrl.gfamDevice = some g → ∀ r ∈ h.released, ∀ host addr size w a,
      checkAccess d g host addr size w a = true ∨ (recordAccess d g host addr size w a).1.allowed = true →
      Meets r addr size → ∀ m ∈ g.mappings, Grants m host addr size (requiredPermissions w a) →
        ¬ h.grantedAt m.hostId m.base m.size ≤ r.time

/-- a mapping that can grant some access: read or write permission is needed for every kind -/
def Usable (m : GFAMMapping) : Prop := m.permissions &&& (permRead ||| permWrite) ≠ 0

instance (m : GFAMMapping) : Decidable (Usable m) := inferInstanceAs (Decidable (_ ≠ _))

/-- a release finds every usable mapping that meets its extent under exactly the requested base and size -/
def ReleaseExact (h : Hist) : Op → Prop
  | .releaseCapacity b n tag _ =>
    ∀ d ∈ h.ctrl.dcdDevice, ∀ g ∈ h.ctrl.gfamDevice,
      (∃ e ∈ d.extents, releaseMatches b (requestSize d n) tag e = true) →
        ∀ m ∈ g.mappings, Usable m → Meets ⟨h.clock, b, requestSize d n⟩ m.base m.size → m.base = b ∧ m.size = n
  | _ => True

instance (h : Hist) (o : Op) : Decidable (ReleaseExact h o) := by cases o <;> unfold ReleaseExact <;> infer_instance

/-- A mapping of a sub-range survives the release. Host 0 has the first of two pages; they are released and added
again, and host 0 reads it. -/
theorem subrange_mapping_survives : ¬ RevokedForGood (run step (start 8192 4096 0 1 2)
      [.addCapacity 0 8192 1 1, .grantAccess 0 0 4096 permAll, .releaseCapacity 0 8192 1 2,
        .addCapacity 0 8192 2 3]) := by
  intro h
  exact h _ _ rfl rfl ⟨3, 0, 8192⟩ (by decide) 0 0 64 false false (Or.inl (by decide)) (by decide)
    ⟨0, 0, 4096, permAll⟩ (by decide) ⟨rfl, by decide, by decide⟩ (by decide)

/-! ## Runs whose releases are exact -/

structure Inv (h : Hist) : Prop where
  past : ∀ r ∈ h.released, r.time < h.clock
  fresh : ∀ g, h.ctrl.gfamDevice = some g → ∀ r ∈ h.released, ∀ m ∈ g.mappings, Usable m →
    Meets r m.base m.size → r.time < h.grantedAt m.hostId m.base m.size

lemma inv_start (total gran cap tag : UInt64) (n : ℕ) : Inv (start total gran cap tag n) :=
  ⟨by simp [start], by simp [start]⟩

lemma mem_setPermissions {host : UInt32} {b n : UInt64} {p : UInt32} {l : List GFAMMapping} {m : GFAMMapping}
    (hm : m ∈ setPermissions host b n p l) : m ∈ l ∨ (m.hostId = host ∧ m.base = b ∧ m.size = n) := by
  induction l with
  | nil =>
    simp only [setPermissions, List.mem_singleton] at hm
    subst hm; exact Or.inr ⟨rfl, rfl, rfl⟩
  | cons x l ih =>
    unfold setPermissions at hm
    split_ifs at hm with hx
    · rcases List.mem_cons.1 hm with rfl | hm
      · right; simpa [sameRange, and_assoc] using hx
      · exact Or.inl (List.mem_cons_of_mem _ hm)
    · rcases List.mem_cons.1 hm with rfl | hm
      · exact Or.inl List.mem_cons_self
      · rcases ih hm with h | h
        · exact Or.inl (List.mem_cons_of_mem _ h)
        · exact Or.inr h

variable {h : Hist}

lemma inv_of_shrink {c : Controller} (hi : Inv h)
    (hc : ∀ g', c.gfamDevice = some g' → ∃ g, h.ctrl.gfamDevice = some g ∧ ∀ m ∈ g'.mappings, m ∈ g.mappings) :
    Inv { h with ctrl := c, clock := h.clock + 1 } := by
  refine ⟨fun r hr => Nat.lt_succ_of_lt (hi.past r hr), fun g' hg' r hr m hm hu hmeet => ?_⟩
  obtain ⟨g, hg, hsub⟩ := hc g' hg'
  exact hi.fresh g hg r hr m (hsub m hm) hu hmeet

lemma dcdReleaseCapacity_cases (c : Controller) (b n tag ts : UInt64) :
    (∃ d, c.dcdDevice = some d ∧ (dcdReleaseCapacity c b n tag ts).1 = .ok ∧
      (∃ e ∈ d.extents, releaseMatches b (requestSize d n) tag e = true) ∧
      (dcdReleaseCapacity c b n tag ts).2.gfamDevice = c.gfamDevice.map fun g => revokeExtent g b n) ∨
    ((dcdReleaseCapacity c b n tag ts).1 ≠ .ok ∧
      (dcdReleaseCapacity c b n tag ts).2.gfamDevice = c.gfamDevice) := by
  unfold dcdReleaseCapacity
  cases hd : c.dcdDevice with
  | none => exact Or.inr ⟨by simp, rfl⟩
  | some d =>
    dsimp only
    by_cases hok : (releaseCapacity d b n tag ts).1 = .ok
    · refine Or.inl ⟨d, rfl, ?_⟩
      rw [if_pos hok]
      refine ⟨hok, ?_, rfl⟩
      unfold releaseCapacity at hok
      dsimp only at hok
      split_ifs at hok
      split at hok
      · rename_i l hl
        obtain ⟨pre, e, post, hext, hm, -⟩ := releaseFirst_some hl
        exact ⟨e, by rw [show d.extents = pre ++ e :: post from hext]; simp, hm⟩
      · cases hok
    · rw [if_neg hok]
      exact Or.inr ⟨hok, rfl⟩

lemma release_inv (hi : Inv h) (b n tag ts : UInt64)
    (hex : ReleaseExact h (.releaseCapacity b n tag ts)) : Inv (step h (.releaseCapacity b n tag ts)) := by
  rcases dcdReleaseCapacity_cases h.ctrl b n tag ts with ⟨d, hd, hok, hext, hg'⟩ | ⟨hno, hg'⟩
  · refine ⟨fun r hr => ?_, fun g' hgs r hr m hm hu hmeet => ?_⟩
    · simp only [step, hok, if_true, List.mem_cons] at hr ⊢
      rcases hr with rfl | hr
      · exact Nat.lt_succ_self _
      · exact Nat.lt_succ_of_lt (hi.past r hr)
    · simp only [step, hok, if_true, List.mem_cons] at hgs hr ⊢
      rw [hg', Option.map_eq_some_iff] at hgs
      obtain ⟨g, hg, rfl⟩ := hgs
      obtain ⟨hm, hkeep⟩ := List.mem_filter.1 hm
      rcases hr with rfl | hr
      · -- the extent just released: the condition leaves no mapping that meets it
        have hsize : releaseSize h.ctrl n = requestSize d n := by simp [releaseSize, hd]
        rw [hsize] at hmeet
        obtain ⟨hb, hn⟩ := hex d hd g hg hext m hm hu hmeet
        simp [hb, hn] at hkeep
      · exact hi.fresh g hg r hr m hm hu hmeet
  · have hstep : step h (.releaseCapacity b n tag ts) =
        { h with ctrl := (dcdReleaseCapacity h.ctrl b n tag ts).2, clock := h.clock + 1 } := by
      simp [step, hno]
    rw [hstep]
    exact inv_of_shrink hi fun g' hgs => ⟨g', by rw [← hg']; exact hgs, fun m hm => hm⟩

lemma grant_inv (hi : Inv h) (host : UInt32) (b n : UInt64) (p : UInt32) : Inv (step h (.grantAccess host b n p)) := by
  cases hd : h.ctrl.dcdDevice with
  | none =>
    have : step h (.grantAccess host b n p) = { h with ctrl := h.ctrl, clock := h.clock + 1 } := by
      simp [step, gfamGrantAccess, hd]
    rw [this]
    exact inv_of_shrink hi fun g hg => ⟨g, hg, fun m hm => hm⟩
  | some d =>
    cases hg : h.ctrl.gfamDevice with
    | none =>
      have : step h (.grantAccess host b n p) = { h with ctrl := h.ctrl, clock := h.clock + 1 } := by
        simp [step, gfamGrantAccess, hd, hg]
      rw [this]
      exact inv_of_shrink hi fun g hg => ⟨g, hg, fun m hm => hm⟩
    | some g =>
      rcases grantAccess_cases d g host b n p with ⟨hok, hnew⟩ | ⟨hno, hsame⟩
      · refine ⟨fun r hr => ?_, fun g' hgs r hr m hm hu hmeet => ?_⟩
        · simp only [step] at hr ⊢
          exact Nat.lt_succ_of_lt (hi.past r hr)
        · simp only [step, gfamGrantAccess, hd, hg, hok, hnew, if_true, Option.some.injEq] at hgs hr ⊢
          subst hgs
          -- the granted key carries the current step, every other mapping was there before
          by_cases hkey : m.hostId = host ∧ m.base = b ∧ m.size = n
          · simp only [stampGrant, if_pos hkey]
            exact hi.past r hr
          · simp only [stampGrant, if_neg hkey]
            rcases mem_setPermissions hm with hm | hm
            · exact hi.fresh g hg r hr m hm hu hmeet
            · exact absurd hm hkey
      · have : step h (.grantAccess host b n p) =
            { h with ctrl := { h.ctrl with gfamDevice := some g }, clock := h.clock + 1 } := by
          simp [step, gfamGrantAccess, hd, hg, hno, hsame]
        rw [this]
        refine inv_of_shrink hi fun g' hgs => ⟨g, hg, fun m hm => ?_⟩
        cases hgs; exact hm

lemma step_inv (hi : Inv h) (o : Op) (ho : ReleaseExact h o) : Inv (step h o) := by
  cases o with
  | addCapacity b n tag ts =>
    exact inv_of_shrink hi fun g' hgs =>
      ⟨g', by rw [← dcdAddCapacity_gfam h.ctrl b n tag ts]; exact hgs, fun m hm => hm⟩
  | releaseCapacity b n tag ts => exact release_inv hi b n tag ts ho
  | grantAccess host b n p => exact grant_inv hi host b n p
  | revokeAccess host b n =>
    refine inv_of_shrink hi fun g' hgs => ?_
    unfold gfamRevokeAccess at hgs
    cases hg : h.ctrl.gfamDevice with
    | none => rw [hg] at hgs; rw [show h.ctrl.gfamDevice = some g' from hgs] at hg; cases hg
    | some g =>
      rw [hg] at hgs
      cases hgs
      exact ⟨g, rfl, fun m hm => (List.mem_filter.1 hm).1⟩
  | recordAccess host a n w at' =>
    refine inv_of_shrink hi fun g' hgs => ?_
    unfold gfamRecordAccess at hgs
    cases hg : h.ctrl.gfamDevice with
    | none => rw [hg] at hgs; rw [show h.ctrl.gfamDevice = some g' from hgs] at hg; cases hg
    | some g =>
      rw [hg] at hgs
      refine ⟨g, rfl, fun m hm => ?_⟩
      cases hd : h.ctrl.dcdDevice with
      | none => rw [hd] at hgs; cases hgs; exact hm
      | some d =>
        rw [hd] at hgs
        have hg' : (recordAccess d g host a n w at').2 = g' := Option.some.inj hgs
        rwa [← hg', recordAccess_mappings] at hm

/-- Releases that are exact revoke for good: no released extent is accessible by a mapping granted before. -/
theorem release_revokes_for_good (total gran initialCapacity initialTag : UInt64) (numHosts : ℕ) (ops : List Op)
    (hex : AllSteps step ReleaseExact (start total gran initialCapacity initialTag numHosts) ops) :
    RevokedForGood (run step (start total gran initialCapacity initialTag numHosts) ops) := by
  have hi : Inv (run step (start total gran initialCapacity initialTag numHosts) ops) :=
    Core.run_inv (P := Inv) (fun h o hh ho => step_inv hh o ho) (inv_start _ _ _ _ _) hex
  intro d g _ hg r hr host addr size w a _ hmeet m hm hgr
  obtain ⟨-, hcov, hperm⟩ := hgr
  have hmeet' : Meets r m.base m.size := by
    unfold Meets Apart at hmeet ⊢
    obtain ⟨hpos, hlo, hhi⟩ := hcov
    omega
  exact not_le.2 (hi.fresh g hg r hr m hm (required_usable hperm) hmeet')

theorem release_revokes_for_good_whole_extent :
    let ops : List Op := [.addCapacity 0 8192 1 1, .grantAccess 0 0 8192 permAll, .releaseCapacity 0 8192 1 2,
      .addCapacity 0 8192 2 3, .grantAccess 1 0 4096 permRead, .recordAccess 0 0 64 false false]
    AllSteps step ReleaseExact (start 8192 4096 0 1 2) ops ∧
      (run step (start 8192 4096 0 1 2) ops).released = [⟨3, 0, 8192⟩] ∧
      RevokedForGood (run step (start 8192 4096 0 1 2) ops) :=
  have h : AllSteps step ReleaseExact (start 8192 4096 0 1 2)
      [.addCapacity 0 8192 1 1, .grantAccess 0 0 8192 permAll, .releaseCapacity 0 8192 1 2,
        .addCapacity 0 8192 2 3, .grantAccess 1 0 4096 permRead, .recordAccess 0 0 64 false false] := by decide
  ⟨h, by decide, release_revokes_for_good 8192 4096 0 1 2 _ h⟩

end CxlMemSim.Revocation
