/-
Is anything lost when `perform_migration` goes through a migration list? An entry that leaves an expander is put into
the controller's map under `last_timestamp` with `emplace`: if the key is taken, as after the first such move, the entry
is in neither place.
-/
import CxlMemSim.Fabric.Controller

namespace CxlMemSim.Controller

open CxlMemSim.Core Expander Multiset

def Device.addresses (d : Device) : Multiset UInt64 := (d.occupation.map (·.address) : List UInt64)

namespace CXLController

def addresses (c : CXLController) : Multiset UInt64 :=
  ((c.occupation.map (·.2.address) : List UInt64) : Multiset UInt64) + (c.devices.map Device.addresses).sum

def migrateStep (c : CXLController) (e : UInt64 × UInt64) : CXLController := (c.migrateOne e.1).1

def Moved (c : CXLController) (e : UInt64 × UInt64) : Prop := c.Present e.1 → (c.migrateOne e.1).2 = true

/-- an entry of the controller has an expander to go to, and one of an expander a key that is not taken -/
def HasPlace (c : CXLController) (e : UInt64 × UInt64) : Prop :=
  (c.InController e.1 → c.expanders ≠ []) ∧
    (¬ c.InController e.1 → c.Present e.1 → ∀ x ∈ c.occupation, x.1 ≠ c.lastTimestamp)

def Valid (c : CXLController) : Prop := ∀ i ∈ c.expanders, i < c.devices.length

/-! ## One entry moves -/

lemma cons_eraseP {α : Type} {p : α → Bool} {l : List α} {a : α} (h : l.find? p = some a) (f : α → UInt64) :
    f a ::ₘ ((l.eraseP p).map f : Multiset UInt64) = (l.map f : Multiset UInt64) := by
  obtain ⟨hp, l₁, l₂, rfl, hl₁⟩ := List.find?_eq_some_iff_append.mp h
  rw [List.eraseP_append_right _ (fun b hb => by simpa using hl₁ b hb), List.eraseP_cons_of_pos hp, List.map_append,
    List.map_append, List.map_cons, cons_coe, coe_eq_coe]
  exact List.perm_middle.symm

lemma emplace_addresses (occ : Occupation) (key : UInt64) (info : OccupationInfo) :
    (((emplace occ key info).map (·.2.address) : List UInt64) : Multiset UInt64) =
      if ∀ x ∈ occ, x.1 ≠ key then info.address ::ₘ (occ.map (·.2.address) : List UInt64)
      else (occ.map (·.2.address) : List UInt64) := by
  unfold emplace
  have hfree : (∀ x ∈ occ, x.1 ≠ key) ↔ ¬ occ.any (·.1 = key) := by
    rw [List.any_eq_true, not_exists]
    simp only [not_and, decide_eq_true_eq, ne_eq]
  rw [if_congr hfree rfl rfl]
  split_ifs with htaken
  · rfl
  · rw [cons_coe, coe_eq_coe]
    refine (List.perm_middle.map _).trans ?_
    rw [List.takeWhile_append_dropWhile]
    exact List.Perm.refl _

lemma sum_modify {devs : Devices} {i : ℕ} {d : Device} (hd : devs[i]? = some d) (f : Device → Device) :
    (((devs.modify i f).map Device.addresses).sum) + d.addresses = (devs.map Device.addresses).sum + (f d).addresses := by
  induction devs generalizing i with
  | nil => cases hd
  | cons x devs ih =>
    cases i with
    | zero =>
      obtain rfl : x = d := Option.some.inj hd
      simp only [List.modify_zero_cons, List.map_cons, List.sum_cons]
      ac_rfl
    | succ i =>
      have h := ih (i := i) hd
      simp only [List.modify_succ_cons, List.map_cons, List.sum_cons, add_assoc, h]

def Loses (c : CXLController) (addr : UInt64) : Prop :=
  ¬ c.InController addr ∧ c.Present addr ∧ ¬ ∀ x ∈ c.occupation, x.1 ≠ c.lastTimestamp

variable {c : CXLController}

section

variable (hv : c.Valid)
include hv

/-- One address moves if it is present and has a destination; its entry is lost exactly if its key is taken. -/
lemma migrateOne_spec (addr : UInt64) :
    ((c.migrateOne addr).2 = true ↔ c.Present addr ∧ (c.InController addr → c.expanders ≠ [])) ∧
      (c.Loses addr → addr ::ₘ (c.migrateOne addr).1.addresses = c.addresses) ∧
      (¬ c.Loses addr → (c.migrateOne addr).1.addresses = c.addresses) := by
  unfold migrateOne
  cases hfind : c.occupation.find? (·.2.address = addr) with
  | some e =>
    have hin : c.InController addr := ⟨e, List.mem_of_find?_eq_some hfind, by simpa using List.find?_some hfind⟩
    have hkeep : ¬ c.Loses addr := fun h => h.1 hin
    cases hexp : c.expanders with
    | nil => simp [hin, hkeep]
    | cons dst rest =>
      obtain ⟨d, hd⟩ : ∃ d, c.devices[dst]? = some d :=
        ⟨_, List.getElem?_eq_getElem (hv dst (by rw [hexp]; exact List.mem_cons_self))⟩
      refine ⟨by simp [hin, Present], fun h => absurd h hkeep, fun _ => ?_⟩
      have hmoved : (Device.mapPlacement (·.migrateIn e.2) d).addresses = e.2.address ::ₘ d.addresses := by
        cases d <;> simp [Device.mapPlacement, Device.addresses, Device.occupation, Placement.migrateIn,
          ← coe_add, add_comm]
      have hsum := sum_modify hd (Device.mapPlacement (·.migrateIn e.2))
      rw [hmoved, add_cons, ← cons_add] at hsum
      change ((((c.occupation.eraseP (·.2.address = addr)).map (·.2.address) : List UInt64) : Multiset UInt64)) +
        ((c.devices.modify dst _).map Device.addresses).sum = _
      rw [add_right_cancel hsum, add_cons, ← cons_add, cons_eraseP hfind (·.2.address)]
      rfl
  | none =>
    have hout : ¬ c.InController addr := by
      rintro ⟨e, he, haddr⟩
      exact absurd haddr (by simpa using List.find?_eq_none.mp hfind e he)
    cases hsrc : c.sourceExpander addr with
    | none =>
      have habsent : ¬ c.Present addr := by
        rintro (hin | ⟨i, hi, hholds⟩)
        · exact hout hin
        · exact List.find?_eq_none.mp hsrc i hi hholds
      simp [habsent, Loses]
    | some i =>
      have hholds := List.find?_some hsrc
      have hpresent : c.Present addr := .inr ⟨i, List.mem_of_find?_eq_some hsrc, hholds⟩
      obtain ⟨d, hd⟩ : ∃ d, c.devices[i]? = some d := by
        cases hd : c.devices[i]? with
        | none => simp [holds, hd] at hholds
        | some d => exact ⟨d, rfl⟩
      obtain ⟨info, hinfo⟩ : ∃ info, d.occupation.find? (·.address = addr) = some info := by
        rw [holds, hd] at hholds
        exact Option.isSome_iff_exists.mp (List.find?_isSome.mpr (by simpa using hholds))
      obtain rfl : info.address = addr := by simpa using List.find?_some hinfo
      have hleft : info.address ::ₘ (Device.mapPlacement (·.migrateOut info.address) d).addresses = d.addresses := by
        cases d <;> exact cons_eraseP hinfo (·.address)
      have hsum := sum_modify hd (Device.mapPlacement (·.migrateOut info.address))
      rw [← hleft, add_cons, ← cons_add] at hsum
      have hlost := add_right_cancel hsum
      simp only [hd, Option.bind_some, hinfo]
      refine ⟨by simp [hpresent, hout], fun h => ?_, fun h => ?_⟩
      · change _ ::ₘ ((((emplace c.occupation c.lastTimestamp info).map (·.2.address) : List UInt64) :
          Multiset UInt64) + ((c.devices.modify i _).map Device.addresses).sum) = _
        rw [emplace_addresses, if_neg h.2.2, ← add_cons, hlost]
        rfl
      · have hfree : ∀ x ∈ c.occupation, x.1 ≠ c.lastTimestamp := not_not.mp fun hno => h ⟨hout, hpresent, hno⟩
        change (((emplace c.occupation c.lastTimestamp info).map (·.2.address) : List UInt64) : Multiset UInt64) +
          ((c.devices.modify i _).map Device.addresses).sum = _
        rw [emplace_addresses, if_pos hfree, cons_add, ← add_cons, hlost]
        rfl

/-! ## The list -/

lemma migrateStep_valid (e : UInt64 × UInt64) : (c.migrateStep e).Valid := by
  have hsame : (c.migrateStep e).expanders = c.expanders ∧ (c.migrateStep e).devices.length = c.devices.length := by
    unfold migrateStep migrateOne
    split
    · split <;> simp [migrateDevice]
    · split
      · simp
      · split <;> simp [migrateDevice]
  unfold Valid
  rw [hsame.1, hsame.2]
  exact hv

lemma migrateStep_le (e : UInt64 × UInt64) : (c.migrateStep e).addresses ≤ c.addresses := by
  obtain ⟨-, hlost, hkept⟩ := migrateOne_spec hv e.1
  by_cases h : c.Loses e.1
  · exact (le_cons_self _ _).trans_eq (hlost h)
  · exact (hkept h).le

lemma migrate_le (list : List (UInt64 × UInt64)) : (run migrateStep c list).addresses ≤ c.addresses :=
  (run_inv_all (P := fun s : CXLController => s.Valid ∧ s.addresses ≤ c.addresses)
    (fun _ e h => ⟨migrateStep_valid h.1 e, (migrateStep_le h.1 e).trans h.2⟩) list ⟨hv, le_rfl⟩).2

lemma hasPlace_iff (e : UInt64 × UInt64) : c.HasPlace e ↔ (c.migrateStep e).addresses = c.addresses ∧ c.Moved e := by
  obtain ⟨hmoved, hlost, hkept⟩ := migrateOne_spec hv e.1
  have hloses : (c.migrateStep e).addresses = c.addresses ↔ ¬ c.Loses e.1 :=
    ⟨fun heq h => (lt_cons_self _ e.1).ne (heq.trans (hlost h).symm), hkept⟩
  rw [hloses, Moved, hmoved]
  unfold HasPlace Loses
  by_cases hin : c.InController e.1
  · have hpresent : c.Present e.1 := .inl hin
    simp only [hin, hpresent, not_true, false_implies, false_and, not_false_eq_true, true_implies, true_and, and_true]
  · simp only [hin, not_false_eq_true, true_implies, false_implies, true_and, and_true, imp_self, not_and, not_not]

end

lemma migrate_eq_run (c : CXLController) (list : List (UInt64 × UInt64)) :
    (c.migrate list).1 = run migrateStep c list := by
  induction list generalizing c with
  | nil => rfl
  | cons e list ih => exact ih _

/-- Migration conserves the placed data exactly if each entry has a place to go to. -/
theorem migration_conserves_iff (c : CXLController) (hv : c.Valid) (list : List (UInt64 × UInt64)) :
    (c.migrate list).1.addresses = c.addresses ∧ AllSteps migrateStep Moved c list ↔
      AllSteps migrateStep HasPlace c list := by
  rw [migrate_eq_run]
  induction list generalizing c with
  | nil => exact ⟨fun _ => trivial, fun _ => ⟨rfl, trivial⟩⟩
  | cons e list ih =>
    have hnext := migrateStep_valid hv e
    rw [run_cons, allSteps_cons, allSteps_cons, hasPlace_iff hv, ← ih _ hnext]
    constructor
    · rintro ⟨heq, hmoved, hrest⟩
      -- what the first turn loses does not come back
      have hfirst : (c.migrateStep e).addresses = c.addresses :=
        le_antisymm (migrateStep_le hv e) (heq.ge.trans (migrate_le hnext list))
      exact ⟨⟨hfirst, hmoved⟩, heq.trans hfirst.symm, hrest⟩
    · rintro ⟨⟨hfirst, hmoved⟩, hlater, hrest⟩
      exact ⟨hlater.trans hfirst, hmoved, hrest⟩

def twoLines : CXLController where
  occupation := []
  lruCache := ⟨524288, []⟩
  devices := [.expander exactConfig { CXLMemExpander.start with
    placement := { Placement.start with occupation := [⟨1, 64, 0⟩, ⟨2, 128, 0⟩] } }]
  expanders := [0]
  switches := []
  deviceMap := []
  remoteExpanders := []
  hdmDecoder := none
  pageType := .cacheline
  lastIndex := 0
  lastTimestamp := 5
  requestCounter := 0

theorem one_line_conserved :
    (twoLines.migrate [(64, 64)]).1.addresses = twoLines.addresses ∧ AllSteps migrateStep Moved twoLines [(64, 64)] :=
  (migration_conserves_iff twoLines (by simp [Valid, twoLines]) [(64, 64)]).mpr
    ⟨⟨fun _ => List.cons_ne_nil _ _, fun _ _ _ hx => absurd hx List.not_mem_nil⟩, trivial⟩

/-- A lost line. Both lines are listed; the second is in neither place afterwards. -/
theorem second_line_lost :
    twoLines.addresses = {64, 128} ∧ (twoLines.migrate [(64, 64), (128, 64)]).1.addresses = {64} ∧
      (twoLines.migrate [(64, 64), (128, 64)]).2 = [64, 128] := by
  decide +kernel

end CXLController

end CxlMemSim.Controller
