/-
The table of operation gaps (`observation_record_operation_gap_locked`) is a map from pairs of identities: open addressing
with linear probing, nothing is ever removed.

Results: `probe_of_room` (a table with fewer pairs than entries has a place for every pair), `Tabulates.record` (one
recorded gap), `gap_table_exact` (every sequence of gaps), with `gap_table_exact_twice` as a run of three gaps.
Premises: at most as many pairs as entries, and each pair's number and sum of gaps below 2^64.
-/
import CxlMemSim.Guest.Terminal

namespace CxlMemSim.Guest.Observation.GapTable

open CxlMemSim.Core List Function

/-- a gap to be recorded -/
structure Gap where
  duration : UInt64
  previous : Identity
  next : Identity

abbrev Key := Option (UInt32 × UInt32 × List UInt8)

/-- what `gapIdentityEqual` compares -/
def key (i : Identity) : Key := if i.valid then some (i.categoryIndex, i.command, i.operation) else none

abbrev Pair := Key × Key

def Gap.pair (g : Gap) : Pair := (key g.previous, key g.next)

def pairOf (e : OperationGapAggregate) : Pair := (key e.previous, key e.next)

def recordGaps (gs : List Gap) : Flagged (ℕ → OperationGapAggregate) :=
  gs.foldlM (fun ops g => recordOperationGap ops g.duration g.previous g.next) fun _ => {}

/-- the gaps of one pair -/
def share (gs : List Gap) (p : Pair) : List ℕ := (gs.filter (·.pair = p)).map (·.duration.toNat)

/-- number, sum and maximum -/
structure Tallies (ds : List ℕ) (gap : GapAggregate) : Prop where
  count : gap.count.toNat = ds.length
  total : gap.totalDuration.toNat = ds.sum
  most : gap.maxDuration.toNat = ds.foldl max 0

/-! ## Probing -/

lemma gapIdentityEqual_iff {i j : Identity} : gapIdentityEqual i j = true ↔ key i = key j := by
  unfold gapIdentityEqual key
  cases hi : i.valid <;> cases hj : j.valid <;> simp [and_assoc]

lemma gapIdentityHash_congr {i j : Identity} (h : key i = key j) : gapIdentityHash i = gapIdentityHash j := by
  unfold key at h
  unfold gapIdentityHash
  cases hi : i.valid <;> cases hj : j.valid <;> simp_all

lemma accepts_iff {e : OperationGapAggregate} {g : Gap} :
    e.accepts g.previous g.next = true ↔ e.occupied = false ∨ pairOf e = g.pair := by
  simp [OperationGapAggregate.accepts, gapIdentityEqual_iff, pairOf, Gap.pair]

def find (ops : ℕ → OperationGapAggregate) (g : Gap) : Option ℕ :=
  probe ops (gapPairHash g.previous g.next) g.previous g.next operationGapCapacity 0

variable {ops ops' : ℕ → OperationGapAggregate} {g g' : Gap} {k : ℕ} {gs : List Gap}

lemma probe_mono {hash : UInt64} {left n : ℕ} (h : probe ops hash g.previous g.next left n = some k)
    (hless : ∀ j, (ops' j).accepts g'.previous g'.next = true → (ops j).accepts g.previous g.next = true)
    (hk : (ops' k).accepts g'.previous g'.next = true) :
    probe ops' hash g'.previous g'.next left n = some k := by
  induction left generalizing n with
  | zero => cases h
  | succ left ih =>
    simp only [probe] at h ⊢
    split_ifs at h with hacc
    · obtain rfl := Option.some.inj h
      rw [if_pos hk]
    · rw [if_neg fun hacc' => hacc (hless _ hacc'), ih h]

/-- A table in which more slots refuse `g'` than refused `g` finds its slot as before. -/
lemma find_mono (hpair : g.pair = g'.pair) (h : find ops g = some k)
    (hless : ∀ j, (ops' j).accepts g'.previous g'.next = true → (ops j).accepts g.previous g.next = true)
    (hk : (ops' k).accepts g'.previous g'.next = true) : find ops' g' = some k := by
  obtain ⟨hprevious, hnext⟩ := Prod.mk.inj hpair
  have hhash : gapPairHash g'.previous g'.next = gapPairHash g.previous g.next := by
    rw [gapPairHash, gapPairHash, gapIdentityHash_congr hprevious, gapIdentityHash_congr hnext]
  rw [find, hhash]
  exact probe_mono h hless hk

/-! ## The invariant -/

structure Tabulates (gs : List Gap) (ops : ℕ → OperationGapAggregate) : Prop where
  /-- the probe for the pair of an entry ends there -/
  found : ∀ k, (ops k).occupied = true → ∀ g, g.pair = pairOf (ops k) → find ops g = some k
  recorded : ∀ p, p ∈ gs.map Gap.pair ↔ ∃ k, (ops k).occupied = true ∧ pairOf (ops k) = p
  free : ∀ k, (ops k).occupied = false → (ops k).gap = {}
  exact : ∀ k, (ops k).occupied = true → Tallies (share gs (pairOf (ops k))) (ops k).gap

lemma Tabulates.slot_unique (h : Tabulates gs ops) {j : ℕ} (hj : (ops j).occupied = true)
    (hk : (ops k).occupied = true) (hpair : pairOf (ops j) = pairOf (ops k)) : j = k :=
  Option.some.inj ((h.found j hj ⟨0, (ops j).previous, (ops j).next⟩ rfl).symm.trans (h.found k hk _ hpair))

lemma Tabulates.hasRoom (h : Tabulates gs ops)
    (hpairs : ((gs ++ [g]).map Gap.pair).toFinset.card ≤ operationGapCapacity) : HasRoom ops g.previous g.next := by
  by_contra hfull
  have htaken {k : ℕ} (hk : k < operationGapCapacity) : (ops k).occupied = true ∧ pairOf (ops k) ≠ g.pair := by
    have hrefuses : ¬ (ops k).accepts g.previous g.next = true := fun hacc => hfull ⟨k, hk, hacc⟩
    rw [accepts_iff, not_or, Bool.not_eq_false] at hrefuses
    exact hrefuses
  -- every slot holds a pair of its own, and none of them is the pair of `g`
  have hle := Finset.card_le_card_of_injOn (s := Finset.range operationGapCapacity)
    (t := ((gs ++ [g]).map Gap.pair).toFinset.erase g.pair) (fun k => pairOf (ops k)) (fun k hk => by
      obtain ⟨hocc, hne⟩ := htaken (Finset.mem_range.mp hk)
      have hmem := (h.recorded _).mpr ⟨k, hocc, rfl⟩
      simp_all) fun j hj k hk hpair => h.slot_unique (htaken (Finset.mem_range.mp hj)).1 (htaken (Finset.mem_range.mp hk)).1 hpair
  rw [Finset.card_range, Finset.card_erase_of_mem (by simp)] at hle
  have hpos : 0 < operationGapCapacity := by decide
  omega

lemma share_snoc (p : Pair) : share (gs ++ [g]) p = if g.pair = p then share gs p ++ [g.duration.toNat] else share gs p := by
  unfold share
  split_ifs with hp <;> simp [hp]

lemma silent_tally {gap : GapAggregate} {ds : List ℕ} {d : UInt64} (e : LedgerError) (h : Tallies ds gap)
    (hcount : ds.length + 1 < 2 ^ 64) (hsum : ds.sum + d.toNat < 2 ^ 64) :
    Silent (gap.record e d) fun r => Tallies (ds ++ [d.toNat]) r.2 := by
  obtain ⟨hc, ht, hm⟩ := h
  have hmax : gap.count ≠ uint64Max := by
    intro hn
    rw [hn, uint64Max_toNat] at hc
    omega
  unfold GapAggregate.record
  rw [if_neg hmax]
  refine silent_bind ((silent_addOr (by rw [ht]; exact hsum)).mono ?_)
  rintro ⟨ok, total⟩ ⟨hok, htotal⟩
  dsimp only at hok htotal ⊢
  refine silent_pure ⟨?_, ?_, ?_⟩
  · rw [UInt64.toNat_add, hc, length_append, UInt64.toNat_one]
    exact Nat.mod_eq_of_lt hcount
  · rw [htotal, ht, sum_append, sum_singleton]
  · rw [foldl_append, ← hm, hok, Bool.true_and]
    simp only [decide_eq_true_eq, UInt64.lt_iff_toNat_lt, foldl_cons, foldl_nil]
    split_ifs <;> omega

section

variable (h : Tabulates gs ops) (hfind : find ops g = some k)
include h hfind

lemma Tabulates.slot_eq {j : ℕ} (hj : (ops j).occupied = true) (hp : pairOf (ops j) = g.pair) : j = k :=
  Option.some.inj ((h.found j hj g hp.symm).symm.trans hfind)

lemma Tabulates.tallies : Tallies (share gs g.pair) (ops k).gap := by
  have hacc := accepts_iff.mp (probe_some hfind).2
  cases hocc : (ops k).occupied with
  | true =>
    have hp := hacc.resolve_left (by simp [hocc])
    exact hp ▸ h.exact k hocc
  | false =>
    -- the pair is new, or the probe would have ended at its entry
    have hnew : g.pair ∉ gs.map Gap.pair := by
      intro hmem
      obtain ⟨j, hj, hp⟩ := (h.recorded _).mp hmem
      rw [h.slot_eq hfind hj hp, hocc] at hj
      cases hj
    have hnone : share gs g.pair = [] := by
      simp only [share, map_eq_nil_iff, filter_eq_nil_iff, decide_eq_true_eq]
      exact fun g' hg' hp => hnew (hp ▸ mem_map_of_mem hg')
    rw [hnone, h.free k hocc]
    exact ⟨rfl, rfl, rfl⟩

lemma Tabulates.enter {entry : OperationGapAggregate} (hocc : entry.occupied = true) (hpair : pairOf entry = g.pair)
    (htally : Tallies (share (gs ++ [g]) g.pair) entry.gap) : Tabulates (gs ++ [g]) (update ops k entry) := by
  have hacc := accepts_iff.mp (probe_some hfind).2
  -- a slot that takes a pair now took it before
  have hless {g₁ g₂ : Gap} (hp : g₁.pair = g₂.pair) : ∀ j, (update ops k entry j).accepts g₂.previous g₂.next = true →
      (ops j).accepts g₁.previous g₁.next = true := by
    simp only [accepts_iff, hp]
    refine (forall_update_iff ops fun j e => e.occupied = false ∨ pairOf e = g₂.pair → _).mpr ⟨fun hk => ?_, fun _ _ => id⟩
    rw [hocc, hpair] at hk
    rwa [← hk.resolve_left (by decide)]
  refine ⟨?_, fun p => ?_, ?_, ?_⟩
  · refine (forall_update_iff ops fun j e => e.occupied = true → ∀ g' : Gap, g'.pair = pairOf e →
      find (update ops k entry) g' = some j).mpr ⟨fun _ g' hg' => ?_, fun j hj hocc' g' hg' => ?_⟩
    · rw [hpair] at hg'
      exact find_mono hg'.symm hfind (hless hg'.symm) (accepts_iff.mpr (.inr (by rw [update_self, hpair, hg'])))
    · exact find_mono rfl (h.found j hocc' g' hg') (hless rfl) (accepts_iff.mpr (.inr (by rw [update_of_ne hj, hg'])))
  · rw [map_append, mem_append, h.recorded, map_singleton, mem_singleton,
      exists_update_iff ops fun j e => e.occupied = true ∧ pairOf e = p]
    constructor
    · rintro (⟨j, hj, hp⟩ | rfl)
      · by_cases hjk : j = k
        · subst hjk
          exact .inl ⟨hocc, by rw [hpair, ← hacc.resolve_left (by simp [hj]), hp]⟩
        · exact .inr ⟨j, hjk, hj, hp⟩
      · exact .inl ⟨hocc, hpair⟩
    · rintro (⟨-, hp⟩ | ⟨j, -, hj⟩)
      · exact .inr (hp.symm.trans hpair)
      · exact .inl ⟨j, hj⟩
  · exact (forall_update_iff ops fun j e => e.occupied = false → e.gap = {}).mpr
      ⟨fun hfree => by simp [hocc] at hfree, fun j _ => h.free j⟩
  · refine (forall_update_iff ops fun j e => e.occupied = true → Tallies (share (gs ++ [g]) (pairOf e)) e.gap).mpr
      ⟨fun _ => hpair ▸ htally, fun j hj hocc' => ?_⟩
    rw [share_snoc, if_neg fun hp => hj (h.slot_eq hfind hocc' hp.symm)]
    exact h.exact j hocc'

end

lemma Tabulates.record (h : Tabulates gs ops)
    (hpairs : ((gs ++ [g]).map Gap.pair).toFinset.card ≤ operationGapCapacity)
    (hcount : (share (gs ++ [g]) g.pair).length < 2 ^ 64) (hsum : (share (gs ++ [g]) g.pair).sum < 2 ^ 64) :
    Silent (recordOperationGap ops g.duration g.previous g.next) (Tabulates (gs ++ [g])) := by
  obtain ⟨k, hk⟩ := probe_of_room (h.hasRoom hpairs) (gapPairHash g.previous g.next)
  have hacc := accepts_iff.mp (probe_some hk).2
  have hshare : share (gs ++ [g]) g.pair = share gs g.pair ++ [g.duration.toNat] := by rw [share_snoc, if_pos rfl]
  rw [hshare, length_append] at hcount
  rw [hshare, sum_append, sum_singleton] at hsum
  unfold recordOperationGap
  rw [hk]
  refine silent_bind ((silent_tally .operationGapCountOverflow (h.tallies hk) hcount hsum).mono ?_)
  rintro ⟨ok, gap⟩ htally
  rw [← hshare] at htally
  refine silent_pure (h.enter hk ?_ ?_ ?_) <;> split_ifs with hocc
  · exact hocc
  · rfl
  · exact hacc.resolve_left (by simp [hocc])
  · rfl
  · exact htally
  · exact htally

/-- The table is an exact map: one entry for each pair, with the number, the sum and the maximum of its gaps. -/
theorem gap_table_exact (gs : List Gap) (hpairs : (gs.map Gap.pair).toFinset.card ≤ operationGapCapacity)
    (hfits : ∀ g ∈ gs, (share gs g.pair).length < 2 ^ 64 ∧ (share gs g.pair).sum < 2 ^ 64) :
    (recordGaps gs).errors = [] ∧
    (∀ g ∈ gs, ∃! k, k < operationGapCapacity ∧ ((recordGaps gs).value k).occupied = true ∧
      pairOf ((recordGaps gs).value k) = g.pair) ∧
    ∀ k, ((recordGaps gs).value k).occupied = true → pairOf ((recordGaps gs).value k) ∈ gs.map Gap.pair ∧
      Tallies (share gs (pairOf ((recordGaps gs).value k))) ((recordGaps gs).value k).gap := by
  have hrun : Silent (recordGaps gs) (Tabulates gs) := by
    refine silent_foldlM ⟨by simp, by simp, by simp, by simp⟩ fun done g ops hbegins h => ?_
    have hsub := (hbegins.map Gap.pair).subset
    obtain ⟨rest, rfl⟩ := hbegins
    obtain ⟨hcount, hsum⟩ := hfits g (by simp)
    have hsplit : share (done ++ [g] ++ rest) g.pair = share (done ++ [g]) g.pair ++ share rest g.pair := by
      simp only [share, filter_append, map_append]
    rw [hsplit, length_append] at hcount
    rw [hsplit, sum_append] at hsum
    refine h.record (le_trans (Finset.card_le_card fun p hp => ?_) hpairs) (by omega) (by omega)
    exact mem_toFinset.mpr (hsub (mem_toFinset.mp hp))
  obtain ⟨herrors, h⟩ := hrun
  refine ⟨herrors, fun g hg => ?_, fun k hk => ⟨(h.recorded _).mpr ⟨k, hk, rfl⟩, h.exact k hk⟩⟩
  obtain ⟨k, hk, hp⟩ := (h.recorded _).mp (mem_map_of_mem hg)
  have hfind := h.found k hk g hp.symm
  exact ⟨k, ⟨(probe_some hfind).1, hk, hp⟩, fun j hj => h.slot_eq hfind hj.2.1 hj.2.2⟩

/-- gaps of two pairs, the first pair twice with a gap of the other between -/
def twice : List Gap :=
  let call : Identity := { valid := true, categoryIndex := 2, command := 7 }
  [⟨5, {}, call⟩, ⟨7, call, {}⟩, ⟨9, {}, call⟩]

theorem gap_table_exact_twice : (recordGaps twice).errors = [] ∧
    ∃! k, k < operationGapCapacity ∧ ((recordGaps twice).value k).occupied = true ∧
      pairOf ((recordGaps twice).value k) = (none, some (2, 7, [])) := by
  obtain ⟨herrors, hentry, -⟩ := gap_table_exact twice (by decide) (by decide)
  exact ⟨herrors, hentry ⟨5, {}, { valid := true, categoryIndex := 2, command := 7 }⟩ (by simp [twice])⟩

end CxlMemSim.Guest.Observation.GapTable
