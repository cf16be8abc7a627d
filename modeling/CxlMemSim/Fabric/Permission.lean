/-
Which fabric operations an allowed access survives: recording an access and adding capacity (`Keeps`), not releasing it,
revoking a mapping or granting anew.
-/
import CxlMemSim.Fabric.Gfam

namespace CxlMemSim.Gfam

open CxlMemSim.Core
open Dcd List

def Allowed (c : Controller) (h : UInt32) (addr size : UInt64) (w a : Bool) : Prop :=
  ∃ d ∈ c.dcdDevice, ∃ g ∈ c.gfamDevice, checkAccess d g h addr size w a = true

structure Keeps (c c' : Controller) : Prop where
  enabled : c.gfamDevice.isSome = true → c'.gfamDevice.isSome = true
  allowed : ∀ {h : UInt32} {addr size : UInt64} {w a : Bool}, Allowed c h addr size w a → Allowed c' h addr size w a

lemma Keeps.refl (c : Controller) : Keeps c c := ⟨id, id⟩

lemma Keeps.trans {c c' c'' : Controller} (h : Keeps c c') (h' : Keeps c' c'') : Keeps c c'' :=
  ⟨h'.enabled ∘ h.enabled, h'.allowed ∘ h.allowed⟩

/-! ## Extents -/

variable {d : DynamicCapacityDevice} {h : UInt32} {w a : Bool} {host : UInt32} {addr size : UInt64}

lemma addCapacity_extents (d : DynamicCapacityDevice) (rb n tag ts : UInt64) :
    (addCapacity d rb n tag ts).2.totalCapacityBytes = d.totalCapacityBytes ∧
      ∀ e ∈ d.extents, e ∈ (addCapacity d rb n tag ts).2.extents := by
  unfold addCapacity
  dsimp only
  split
  · exact ⟨rfl, fun e he => he⟩
  · exact ⟨rfl, fun e he => mem_append_left _ he⟩

lemma isAllocated_addCapacity (rb n tag ts : UInt64)
    (h : isAllocated d addr size = true) : isAllocated (addCapacity d rb n tag ts).2 addr size = true := by
  obtain ⟨hcap, hsub⟩ := addCapacity_extents d rb n tag ts
  rw [isAllocated_iff] at h ⊢
  obtain ⟨hin, e, he, hcover⟩ := h
  rw [hcap]
  exact ⟨hin, e, hsub e he, hcover⟩

lemma keeps_dcdAddCapacity (c : Controller) (rb n tag ts : UInt64) : Keeps c (dcdAddCapacity c rb n tag ts).2 := by
  refine ⟨by rw [dcdAddCapacity_gfam]; exact id, ?_⟩
  rintro h addr size w a ⟨d, hd, g, hg, hcheck⟩
  have hd' : (dcdAddCapacity c rb n tag ts).2.dcdDevice = some (addCapacity d rb n tag ts).2 := by
    unfold dcdAddCapacity
    rw [Option.mem_def.mp hd]
  refine ⟨_, hd', g, by rw [dcdAddCapacity_gfam]; exact hg, ?_⟩
  rw [checkAccess_iff] at hcheck ⊢
  exact ⟨isAllocated_addCapacity rb n tag ts hcheck.1, hcheck.2⟩

/-! ## Mappings and hosts -/

lemma permAll_required (w a : Bool) : permAll &&& requiredPermissions w a = requiredPermissions w a := by
  cases w <;> cases a <;> decide

lemma grants_setPermissions {b n : UInt64} {l : List GFAMMapping}
    (hex : ∃ m ∈ l, Grants m h addr size (requiredPermissions w a)) :
    ∃ m ∈ setPermissions host b n permAll l, Grants m h addr size (requiredPermissions w a) := by
  induction l with
  | nil => simp at hex
  | cons x l ih =>
    obtain ⟨m, hm, hgr⟩ := hex
    rw [setPermissions]
    split_ifs with hx
    · rcases List.mem_cons.mp hm with rfl | hm
      · exact ⟨_, mem_cons_self, hgr.1, hgr.2.1, permAll_required w a⟩
      · exact ⟨m, mem_cons_of_mem _ hm, hgr⟩
    · rcases List.mem_cons.mp hm with rfl | hm
      · exact ⟨m, mem_cons_self, hgr⟩
      · obtain ⟨m', hm', hgr'⟩ := ih ⟨m, hm, hgr⟩
        exact ⟨m', mem_cons_of_mem _ hm', hgr'⟩

lemma checkAccess_grantAll {g : GFAMDevice} {b n : UInt64} (hcheck : checkAccess d g h addr size w a = true) :
    checkAccess d (grantAccess d g host b n permAll).2 h addr size w a = true := by
  rcases grantAccess_cases d g host b n permAll with ⟨-, heq⟩ | ⟨-, heq⟩
  · rw [heq]
    rw [checkAccess_iff] at hcheck ⊢
    exact ⟨hcheck.1, hcheck.2.1, grants_setPermissions hcheck.2.2⟩
  · rwa [heq]

lemma keeps_grantAll (c : Controller) (host : UInt32) (b n : UInt64) :
    Keeps c (gfamGrantAccess c host b n permAll).2 := by
  unfold gfamGrantAccess
  split
  · rename_i d g hd hg
    refine ⟨fun _ => rfl, ?_⟩
    rintro h addr size w a ⟨d', hd', g', hg', hcheck⟩
    obtain rfl : d = d' := Option.some.inj (hd.symm.trans hd')
    obtain rfl : g = g' := Option.some.inj (hg.symm.trans hg')
    exact ⟨d, hd, _, rfl, checkAccess_grantAll hcheck⟩
  · exact .refl c

lemma hostActive_map (g : GFAMDevice) (f : GFAMHost → GFAMHost) (hid : ∀ x, (f x).hostId = x.hostId)
    (hact : ∀ x, (f x).active = x.active) (h : UInt32) (total : UInt64) :
    hostActive { g with hosts := g.hosts.map f, totalAccesses := total } h = hostActive g h := by
  unfold hostActive findHost
  rw [find?_map]
  have hp : ((fun x : GFAMHost => decide (x.hostId = h)) ∘ f) = fun x => decide (x.hostId = h) := by
    funext x; simp [hid]
  rw [hp]
  cases g.hosts.find? fun x => decide (x.hostId = h) with
  | none => rfl
  | some x => simp [hact]

lemma hostActive_recordAccess (d : DynamicCapacityDevice) (g : GFAMDevice) (h h' : UInt32) (addr size : UInt64)
    (w a : Bool) : hostActive (recordAccess d g h addr size w a).2 h' = hostActive g h' := by
  unfold recordAccess
  split_ifs
  · rfl
  · rfl
  · rfl
  · apply hostActive_map
    · intro x; unfold countAccess; split_ifs <;> rfl
    · intro x; unfold countAccess; split_ifs <;> rfl

lemma keeps_gfamRecordAccess (c : Controller) (host : UInt32) (b n : UInt64) (w' a' : Bool) :
    Keeps c (gfamRecordAccess c host b n w' a').2 := by
  unfold gfamRecordAccess
  cases hg : c.gfamDevice with
  | none => exact .refl c
  | some g =>
    cases hd : c.dcdDevice with
    | none =>
      refine ⟨fun _ => rfl, ?_⟩
      rintro h addr size w a ⟨d', hd', -⟩
      rw [hd] at hd'
      cases hd'
    | some d =>
      refine ⟨fun _ => rfl, ?_⟩
      rintro h addr size w a ⟨d', hd', g', hg', hcheck⟩
      obtain rfl : d = d' := Option.some.inj (hd.symm.trans hd')
      obtain rfl : g = g' := Option.some.inj (hg.symm.trans hg')
      refine ⟨d, rfl, _, rfl, ?_⟩
      rw [checkAccess_iff] at hcheck ⊢
      rw [hostActive_recordAccess, recordAccess_mappings]
      exact hcheck

lemma allowed_of_recordAccess {c : Controller} (hen : c.gfamDevice.isSome = true)
    (hok : (gfamRecordAccess c h addr size w a).1.allowed = true) :
    Allowed c h addr size w a := by
  obtain ⟨g, hg⟩ := Option.isSome_iff_exists.mp hen
  unfold gfamRecordAccess at hok
  cases hd : c.dcdDevice with
  | none => simp [hg, hd, denied] at hok
  | some d =>
    simp only [hg, hd, recordAccess_allowed] at hok
    exact ⟨d, hd, g, hg, hok⟩

end CxlMemSim.Gfam
