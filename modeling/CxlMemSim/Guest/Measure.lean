/-
Runs of the observation ledger inside one decode span. `Inv` ties every account to the spans read off the events; every
step that flags nothing keeps it.
-/
import CxlMemSim.Guest.Accounts

namespace CxlMemSim.Guest.Observation

open CxlMemSim.Core List Function

/-! ## The invariant -/

def storedOf (c : UInt32) (L : List CategoryInterval) : List (ℕ × ℕ) :=
  (L.filter fun i => i.category = c).map fun i => (i.beginNs.toNat, i.endNs.toNat)

structure StoredInv (first : UInt64) (overflow : Bool) (stored : List CategoryInterval)
    (categories : UInt32 → Aggregate) (S : List Span) (now : ℕ) : Prop where
  valid : ∀ i ∈ stored, i.category ≠ publicCall ∧ i.category < categoryCount ∧
    first.toNat ≤ i.beginNs.toNat ∧ i.beginNs.toNat ≤ i.endNs.toNat ∧ i.endNs.toNat ≤ now
  sum : overflow = false → ∀ c, c ≠ publicCall → c < categoryCount →
    lengths (storedOf c stored) = (categories c).unionDuration.toNat
  ordered : ∀ c, (storedOf c stored).Pairwise fun i j => i.2 ≤ j.1
  before : ∀ c, c < categoryCount → 0 < openSpans (ofCategory c S) →
    ∀ i ∈ storedOf c stored, i.2 ≤ (categories c).activeBegin.toNat

def commandSum (f : UInt32 → UInt64) : ℕ := (commandIndices.map fun c => (f c).toNat).sum

def idle (first now : ℕ) (S : List Span) : Finset ℕ := Finset.Ico first now \ covered (intervals S now)

structure AccountsInv (S : List Span) (l : Ledger) (now : ℕ) : Prop where
  timed : Timed l.spanBegin.toNat now S
  first : l.spanBegin.toNat ≤ now
  known : ∀ s ∈ S, s.category < categoryCount
  commands : ∀ s ∈ S, s.category = publicCall → s.command < 256
  category : ∀ c, c < categoryCount → AccountInv (l.categories c) (ofCategory c S) l.spanBegin now
  allKnown : AccountInv l.allKnown S l.spanBegin now
  pairs : ∀ a b, a < b → b < categoryCount → PairInv (l.categoryPairs a b) (ofCategory a S) (ofCategory b S) now
  gaps : GapsInv l.gaps (matrixTime l.gaps)
  gapTime : Metered (matrixTime l.gaps) (l.allKnown.gapBegin l.spanBegin).toNat (¬ 0 < openSpans S) now
    (idle l.spanBegin.toNat now S)
  stored : StoredInv l.spanBegin l.categoryIntervalsOverflow l.categoryIntervals l.categories S now
  calls : commandSum l.commandCalls + openSpans (ofCategory publicCall S) = (ofCategory publicCall S).length
  durations : commandSum l.commandTotalDuration = doneTime (ofCategory publicCall S)

variable {S A B : List Span} {s : Span} {l : Ledger} {now now' : ℕ} {nowNs : UInt64}

lemma AccountsInv.advance (h : AccountsInv S l now) (hle : now ≤ now') : AccountsInv S l now' := by
  have htimed : ∀ c, Timed l.spanBegin.toNat now (ofCategory c S) := fun c => h.timed.subset (ofCategory_subset c S)
  exact { h with
    timed := h.timed.mono hle
    first := h.first.trans hle
    category := fun c hc => (h.category c hc).advance (htimed c) hle
    allKnown := h.allKnown.advance h.timed hle
    pairs := fun a b hab hb => (h.pairs a b hab hb).advance (htimed a) (htimed b) hle
    gapTime := h.gapTime.advance hle
      (advance_compl (advance_covered h.timed hle) (fun t ht => (covered_below h.timed t ht).2) h.first hle)
    stored := { h.stored with
      valid := fun i hi => by
        obtain ⟨h1, h2, h3, h4, h5⟩ := h.stored.valid i hi
        exact ⟨h1, h2, h3, h4, h5.trans hle⟩ } }

/-! ## A span begins -/

lemma ofCategory_begin_self : ofCategory s.category (S ++ [s]) = ofCategory s.category S ++ [s] := by simp [ofCategory]

variable {c : UInt32} {agg : Aggregate} {entry : OpenToken} {token : UInt64}
  {openTokens : ℕ → OpenToken} {m : Flagged Ledger} {nextToken : UInt64}

lemma ofCategory_begin_ne (h : s.category ≠ c) : ofCategory c (S ++ [s]) = ofCategory c S := by simp [ofCategory, h]

lemma idle_begin {first : ℕ} (hs : s.beginNs = now) (ho : s.endNs = none) :
    idle first now (S ++ [s]) = idle first now S := by
  rw [idle, idle, covered_begin hs ho]

lemma covered_category_begin (c : UInt32) (hs : s.beginNs = now) (ho : s.endNs = none) :
    covered (intervals (ofCategory c (S ++ [s])) now) = covered (intervals (ofCategory c S) now) := by
  by_cases hc : s.category = c
  · subst hc
    rw [ofCategory_begin_self, covered_begin hs ho]
  · rw [ofCategory_begin_ne hc]

lemma pairs_follow {categories' : UInt32 → Aggregate} {pairs r : UInt32 → UInt32 → PairAggregate} {S' : List Span}
    (hdepth : ∀ x, x < categoryCount → (categories' x).activeDepth.toNat = openSpans (ofCategory x S'))
    (hsame : ∀ x, x ≠ c → ofCategory x S' = ofCategory x S)
    (hpairs : ∀ a b, a < b → b < categoryCount → PairInv (pairs a b) (ofCategory a S) (ofCategory b S) now)
    (hr : PairsFollow categories' pairs c now
      (fun a b => covered (intervals (ofCategory a S') now) ∩ covered (intervals (ofCategory b S') now))
      categoryIndices r) :
    ∀ a b, a < b → b < categoryCount → PairInv (r a b) (ofCategory a S') (ofCategory b S') now := by
  intro a b hab hb
  obtain ⟨hmeter, hactive, hkeep⟩ := hr a b hab hb
  have ha : a < categoryCount := UInt32.lt_trans hab hb
  refine ⟨?_, hmeter⟩
  by_cases htouch : a = c ∨ b = c
  · have hact := hactive (htouch.imp (fun h => ⟨h, mem_categoryIndices.2 hb⟩) fun h => ⟨h, mem_categoryIndices.2 ha⟩)
    have hne : ∀ x, x < categoryCount → ((categories' x).activeDepth ≠ 0 ↔ 0 < openSpans (ofCategory x S')) := by
      intro x hx
      rw [← hdepth x hx, Nat.pos_iff_ne_zero]
      exact not_congr UInt32.toNat_inj.symm
    rw [hact, Bool.and_eq_true, bne_iff_ne, bne_iff_ne, hne a ha, hne b hb]
  · push Not at htouch
    rw [hkeep htouch.1 htouch.2, hsame a htouch.1, hsame b htouch.2]
    exact (hpairs a b hab hb).active

lemma gapTime_begin (agg : Aggregate) {gaps : Gaps} (h : AccountsInv S l now) (hs : s.beginNs = now)
    (ho : s.endNs = none) (hgap : agg.gapBegin l.spanBegin = l.allKnown.gapBegin l.spanBegin)
    (hgaps : if openSpans S = 0
      then GapsInv gaps (matrixTime l.gaps + (now - (l.allKnown.gapBegin l.spanBegin).toNat)) else gaps = l.gaps) :
    GapsInv gaps (matrixTime gaps) ∧ Metered (matrixTime gaps) (agg.gapBegin l.spanBegin).toNat
      (¬ 0 < openSpans (S ++ [s])) now (idle l.spanBegin.toNat now (S ++ [s])) := by
  rw [idle_begin hs ho, hgap, openSpans_begin ho]
  by_cases hz : openSpans S = 0
  · rw [if_pos hz] at hgaps
    have htime := hgaps.matrix
    refine ⟨htime ▸ hgaps, ?_⟩
    rw [htime]
    exact (h.gapTime.turnOff (by omega) _).congr ⟨False.elim, fun hn => by omega⟩ rfl
  · rw [if_neg hz] at hgaps
    subst hgaps
    exact ⟨h.gaps, h.gapTime.congr (by omega) rfl⟩

section

variable (h : AccountsInv S l now)
include h

lemma pairs_begin_active (hs : s.beginNs = now) (ho : s.endNs = none)
    (hz : openSpans (ofCategory s.category S) ≠ 0) : ∀ a b, a < b → b < categoryCount →
      PairInv (l.categoryPairs a b) (ofCategory a (S ++ [s])) (ofCategory b (S ++ [s])) now := by
  have hopen : ∀ c, 0 < openSpans (ofCategory c (S ++ [s])) ↔ 0 < openSpans (ofCategory c S) := by
    intro c
    by_cases hc : s.category = c
    · subst hc
      rw [ofCategory_begin_self, openSpans_begin ho]
      omega
    · rw [ofCategory_begin_ne hc]
  intro a b hab hb
  obtain ⟨hactive, hunion⟩ := h.pairs a b hab hb
  refine ⟨by rw [hopen a, hopen b]; exact hactive, ?_⟩
  rw [covered_category_begin a hs ho, covered_category_begin b hs ho]
  exact hunion

lemma stored_begin (hk : s.category < categoryCount)
    (hunion : agg.unionDuration = (l.categories s.category).unionDuration)
    (hbegin : 0 < openSpans (ofCategory s.category S) → agg.activeBegin = (l.categories s.category).activeBegin)
    (hfresh : openSpans (ofCategory s.category S) = 0 → agg.activeBegin.toNat = now) :
    StoredInv l.spanBegin l.categoryIntervalsOverflow l.categoryIntervals
      (update l.categories s.category agg) (S ++ [s]) now := by
  refine { h.stored with sum := fun hover c hc hlt => ?_, before := fun c hc hpos i hi => ?_ }
  · have hsum := h.stored.sum hover c hc hlt
    by_cases hcs : s.category = c
    · subst hcs
      rwa [update_self, hunion]
    · rwa [update_of_ne (Ne.symm hcs)]
  · by_cases hcs : s.category = c
    · subst hcs
      rw [update_self]
      by_cases hz : 0 < openSpans (ofCategory s.category S)
      · rw [hbegin hz]
        exact h.stored.before _ hk hz i hi
      · rw [hfresh (by omega)]
        obtain ⟨x, hx, rfl⟩ := List.mem_map.1 hi
        exact (h.stored.valid x (List.mem_filter.1 hx).1).2.2.2.2
    · rw [ofCategory_begin_ne hcs] at hpos
      rw [update_of_ne (Ne.symm hcs)]
      exact h.stored.before c hc hpos i hi

lemma calls_begin (ho : s.endNs = none) :
    commandSum l.commandCalls + openSpans (ofCategory publicCall (S ++ [s])) =
      (ofCategory publicCall (S ++ [s])).length := by
  have hcalls := h.calls
  generalize commandSum l.commandCalls = calls at hcalls ⊢
  by_cases hp : s.category = publicCall
  · rw [← hp] at hcalls ⊢
    rw [ofCategory_begin_self, openSpans_begin ho, length_append, length_singleton]
    omega
  · rwa [ofCategory_begin_ne hp]

lemma durations_begin (ho : s.endNs = none) :
    commandSum l.commandTotalDuration = doneTime (ofCategory publicCall (S ++ [s])) := by
  have hdurations := h.durations
  generalize commandSum l.commandTotalDuration = duration at hdurations ⊢
  by_cases hp : s.category = publicCall
  · rw [← hp] at hdurations ⊢
    rwa [ofCategory_begin_self, doneTime_begin ho]
  · rwa [ofCategory_begin_ne hp]

lemma AccountsInv.beginAccounts (hnow : nowNs.toNat = now) (hs : s.beginNs = now)
    (ho : s.endNs = none) (hk : s.category < categoryCount) (hcmd : s.category = publicCall → s.command < 256)
    (identity : Identity) : Quiet (beginAccounts l s.category nowNs identity) fun r => AccountsInv (S ++ [s]) r now ∧
      ∃ categories categoryPairs allKnown gaps, r = { l with categories, categoryPairs, allKnown, gaps } := by
  unfold Observation.beginAccounts
  refine quiet_bind (((h.category _ hk).begin h.gaps hnow h.first hs ho false identity).mono ?_)
  rintro ⟨agg, g'⟩ ⟨hagg, hunion, hbegin, hfresh, -, -⟩
  dsimp only at hagg hunion hbegin hfresh ⊢
  have hcategory : ∀ c, c < categoryCount →
      AccountInv (update l.categories s.category agg c) (ofCategory c (S ++ [s])) l.spanBegin now := by
    intro c hc
    by_cases hcs : s.category = c
    · subst hcs
      rw [update_self, ofCategory_begin_self]
      exact hagg
    · rw [update_of_ne (Ne.symm hcs), ofCategory_begin_ne hcs]
      exact h.category c hc
  have hpairs : Quiet
      (updatePairsIf ((l.categories s.category).activeDepth = 0 ∧ agg.activeDepth ≠ 0)
        (update l.categories s.category agg) l.categoryPairs s.category nowNs)
        fun r => ∀ a b, a < b → b < categoryCount →
        PairInv (r a b) (ofCategory a (S ++ [s])) (ofCategory b (S ++ [s])) now := by
    refine quiet_ite (fun hbecame => ?_) fun hstays => quiet_pure ?_
    · refine (quiet_updateCategoryPairs (fun a b => covered (intervals (ofCategory a (S ++ [s])) now) ∩
        covered (intervals (ofCategory b (S ++ [s])) now)) (fun a b hab hb => ?_) hk hnow).mono fun r hr => ?_
      · rw [covered_category_begin a hs ho, covered_category_begin b hs ho]
        exact (h.pairs a b hab hb).union
      · exact pairs_follow (fun x hx => (hcategory x hx).depth) (fun x hx => ofCategory_begin_ne (Ne.symm hx)) h.pairs hr
    · refine pairs_begin_active h hs ho fun hz => hstays ⟨?_, fun hd => ?_⟩
      · exact UInt32.toNat_inj.1 (((h.category _ hk).depth).trans hz)
      · have hdepth := hagg.depth
        rw [hd, openSpans_begin ho] at hdepth
        cases hdepth
  refine quiet_bind (hpairs.mono fun pairs hpairs => ?_)
  refine quiet_bind ((h.allKnown.begin h.gaps hnow h.first hs ho true identity).mono ?_)
  rintro ⟨allKnown, gaps⟩ ⟨hall, -, -, -, hgap, hgaps⟩
  dsimp only at hall hgap hgaps ⊢
  simp only [true_and] at hgaps
  obtain ⟨hgaps, htime⟩ := gapTime_begin allKnown h hs ho hgap hgaps
  have hcalls := calls_begin h ho
  have hdurations := durations_begin h ho
  refine quiet_pure ⟨?_, _, _, _, _, rfl⟩
  exact
    { timed := by
        intro x hx
        rcases List.mem_append.1 hx with hx | hx
        · exact h.timed x hx
        · rw [List.mem_singleton.1 hx, hs, ho]
          exact ⟨h.first, le_rfl, by simp⟩
      first := h.first
      known := by
        intro x hx
        rcases List.mem_append.1 hx with hx | hx
        · exact h.known x hx
        · rw [List.mem_singleton.1 hx]; exact hk
      commands := by
        intro x hx
        rcases List.mem_append.1 hx with hx | hx
        · exact h.commands x hx
        · rw [List.mem_singleton.1 hx]; exact hcmd
      category := hcategory
      allKnown := hall
      pairs := hpairs
      gaps := hgaps
      gapTime := htime
      stored := stored_begin h hk hunion hbegin hfresh
      calls := hcalls
      durations := hdurations }

end

/-! ## A span ends -/

lemma intervals_category_close (c : UInt32) (ho : s.endNs = none) :
    intervals (ofCategory c (A ++ s.close now :: B)) now = intervals (ofCategory c (A ++ s :: B)) now := by
  by_cases hc : s.category = c
  · subst hc
    rw [ofCategory_close_self, ofCategory_mid_self, intervals_close ho]
  · rw [ofCategory_close_ne hc]

lemma open_category_close (ho : s.endNs = none) (hmore : openSpans (ofCategory s.category (A ++ s :: B)) ≠ 1)
    (c : UInt32) :
    0 < openSpans (ofCategory c (A ++ s.close now :: B)) ↔ 0 < openSpans (ofCategory c (A ++ s :: B)) := by
  by_cases hc : s.category = c
  · subst hc
    rw [ofCategory_mid_self] at hmore ⊢
    rw [ofCategory_close_self, ← openSpans_close now ho] at *
    omega
  · rw [ofCategory_close_ne hc]

section

variable (h : AccountsInv (A ++ s :: B) l now)
include h

lemma pairs_close_active (ho : s.endNs = none) (hmore : openSpans (ofCategory s.category (A ++ s :: B)) ≠ 1) :
    ∀ a b, a < b → b < categoryCount → PairInv (l.categoryPairs a b) (ofCategory a (A ++ s.close now :: B))
      (ofCategory b (A ++ s.close now :: B)) now := by
  intro a b hab hb
  obtain ⟨hactive, hunion⟩ := h.pairs a b hab hb
  refine ⟨by rw [open_category_close ho hmore a, open_category_close ho hmore b]; exact hactive, ?_⟩
  rw [intervals_category_close a ho, intervals_category_close b ho]
  exact hunion

lemma gapTime_close (hnow : nowNs.toNat = now) (ho : s.endNs = none)
    (hgap : if openSpans (A ++ s :: B) = 1 then agg.gapBegin l.spanBegin = nowNs
      else agg.gapBegin l.spanBegin = l.allKnown.gapBegin l.spanBegin) :
    Metered (matrixTime l.gaps) (agg.gapBegin l.spanBegin).toNat (¬ 0 < openSpans (A ++ s.close now :: B)) now
      (idle l.spanBegin.toNat now (A ++ s.close now :: B)) := by
  have hclose := openSpans_close (A := A) (B := B) now ho
  rw [idle, intervals_close ho]
  by_cases hone : openSpans (A ++ s :: B) = 1
  · rw [if_pos hone] at hgap
    rw [hgap, hnow]
    exact (h.gapTime.turnOn (by omega)).congr ⟨fun _ => by omega, fun _ => trivial⟩ rfl
  · rw [if_neg hone] at hgap
    rw [hgap]
    exact h.gapTime.congr (by omega) rfl

lemma calls_close (ho : s.endNs = none) :
    commandSum l.commandCalls + (if s.category = publicCall then 1 else 0) +
      openSpans (ofCategory publicCall (A ++ s.close now :: B)) =
        (ofCategory publicCall (A ++ s.close now :: B)).length := by
  have hcalls := h.calls
  generalize commandSum l.commandCalls = calls at hcalls ⊢
  by_cases hp : s.category = publicCall
  · rw [if_pos hp]
    rw [← hp] at hcalls ⊢
    rw [ofCategory_mid_self, ← openSpans_close now ho] at hcalls
    rw [ofCategory_close_self, length_close]
    omega
  · rw [if_neg hp, ofCategory_close_ne hp]
    exact hcalls

lemma durations_close (ho : s.endNs = none) :
    commandSum l.commandTotalDuration + (if s.category = publicCall then now - s.beginNs else 0) =
      doneTime (ofCategory publicCall (A ++ s.close now :: B)) := by
  have hdurations := h.durations
  generalize commandSum l.commandTotalDuration = duration at hdurations ⊢
  by_cases hp : s.category = publicCall
  · rw [if_pos hp]
    rw [← hp] at hdurations ⊢
    rw [ofCategory_mid_self] at hdurations
    rw [ofCategory_close_self, doneTime_close ho, hdurations]
  · rw [if_neg hp, ofCategory_close_ne hp]
    exact hdurations

end

lemma storedOf_append (c : UInt32) (L M : List CategoryInterval) :
    storedOf c (L ++ M) = storedOf c L ++ storedOf c M := by
  simp [storedOf]

lemma stored_close (h : AccountsInv (A ++ s :: B) l now) (hnow : nowNs.toNat = now)
    (ho : s.endNs = none) (hk : s.category < categoryCount)
    (hbegin : agg.activeBegin = (l.categories s.category).activeBegin)
    (hunion : if openSpans (ofCategory s.category (A ++ s :: B)) = 1
      then agg.unionDuration.toNat = (l.categories s.category).unionDuration.toNat +
        (now - (l.categories s.category).activeBegin.toNat)
      else agg.unionDuration = (l.categories s.category).unionDuration)
    {ended : Prop} [Decidable ended] (hended : ended ↔ openSpans (ofCategory s.category (A ++ s :: B)) = 1) :
    let stored := storeStretchIf ended l s.category agg.activeBegin nowNs
    StoredInv l.spanBegin stored.categoryIntervalsOverflow stored.categoryIntervals
      (update l.categories s.category agg) (A ++ s.close now :: B) now := by
  have hrunning := (h.category _ hk).union.running
  have hbegun := (h.category _ hk).begun
  -- what is not about the category of the span stays as it was
  have hother : ∀ c, c ≠ s.category → update l.categories s.category agg c = l.categories c :=
    fun c hc => update_of_ne hc _ _
  have hbefore : ∀ c, c < categoryCount → 0 < openSpans (ofCategory c (A ++ s.close now :: B)) →
      ∀ i ∈ storedOf c l.categoryIntervals, i.2 ≤ (update l.categories s.category agg c).activeBegin.toNat := by
    intro c hc hpos i hi
    by_cases hcs : c = s.category
    · subst hcs
      rw [update_self, hbegin]
      rw [ofCategory_close_self] at hpos
      have hpos' : 0 < openSpans (ofCategory s.category (A ++ s :: B)) := by
        rw [ofCategory_mid_self, ← openSpans_close now ho]
        omega
      exact h.stored.before _ hc hpos' i hi
    · rw [hother c hcs]
      rw [ofCategory_close_ne (Ne.symm hcs)] at hpos
      exact h.stored.before c hc hpos i hi
  have hsum : ∀ c, c ≠ publicCall → c < categoryCount → (c = s.category → ¬ ended) →
      l.categoryIntervalsOverflow = false →
      lengths (storedOf c l.categoryIntervals) = (update l.categories s.category agg c).unionDuration.toNat := by
    intro c hc hlt hstays hover
    by_cases hcs : c = s.category
    · subst hcs
      rw [hended] at hstays
      rw [if_neg (hstays rfl)] at hunion
      rw [update_self, hunion]
      exact h.stored.sum hover _ hc hlt
    · rw [hother c hcs]
      exact h.stored.sum hover c hc hlt
  intro stored
  by_cases hstore : ended ∧ s.category ≠ publicCall
  · have hone := hended.1 hstore.1
    have hdef : stored = recordCategoryInterval l s.category agg.activeBegin nowNs := if_pos hstore
    rw [hdef]
    unfold recordCategoryInterval
    dsimp only
    split_ifs with hover hfull
    · exact { h.stored with sum := fun hn => absurd (hover.symm.trans hn) (by decide), before := hbefore }
    · exact { h.stored with sum := fun hn => absurd hn (by simp), before := hbefore }
    · rw [if_pos hone] at hunion
      obtain ⟨hstart, -⟩ := hrunning (by omega)
      have hself : storedOf s.category [⟨agg.activeBegin, nowNs, s.category⟩] =
          [((l.categories s.category).activeBegin.toNat, now)] := by
        simp [storedOf, hbegin, hnow]
      have hne : ∀ c, c ≠ s.category → storedOf c [⟨agg.activeBegin, nowNs, s.category⟩] = [] := by
        intro c hc
        simp [storedOf, Ne.symm hc]
      refine ⟨fun i hi => ?_, fun hover' c hc hlt => ?_, fun c => ?_, fun c hc hpos i hi => ?_⟩
      · rcases List.mem_append.1 hi with hi | hi
        · exact h.stored.valid i hi
        · rw [List.mem_singleton.1 hi]
          dsimp only
          rw [hbegin, hnow]
          exact ⟨hstore.2, hk, hbegun (by omega), hstart, le_rfl⟩
      · rw [storedOf_append, lengths_append]
        by_cases hcs : c = s.category
        · subst hcs
          rw [hself, update_self, hunion, h.stored.sum hover' _ hc hlt]
          simp
        · rw [hne c hcs, hsum c hc hlt (fun h => absurd h hcs) hover']
          rfl
      · rw [storedOf_append]
        by_cases hcs : c = s.category
        · subst hcs
          rw [hself]
          refine List.pairwise_append.2 ⟨h.stored.ordered _, pairwise_singleton _ _, fun i hi j hj => ?_⟩
          rw [List.mem_singleton.1 hj]
          exact h.stored.before _ hk (by omega) i hi
        · rw [hne c hcs, append_nil]
          exact h.stored.ordered c
      · by_cases hcs : c = s.category
        · subst hcs
          rw [ofCategory_mid_self, ← openSpans_close now ho] at hone
          rw [ofCategory_close_self] at hpos
          omega
        · rw [storedOf_append, hne c hcs, append_nil] at hi
          exact hbefore c hc hpos i hi
  · have hdef : stored = l := if_neg hstore
    rw [hdef]
    refine { h.stored with sum := fun hover c hc hlt => ?_, before := hbefore }
    exact hsum c hc hlt (fun hcs he => hstore ⟨he, hcs ▸ hc⟩) hover

lemma storeStretchIf_eq (ended : Prop) [Decidable ended] (l : Ledger) (c : UInt32) (b e : UInt64) :
    ∃ count overflow stored, storeStretchIf ended l c b e = { l with
        categoryIntervalCount := count, categoryIntervalsOverflow := overflow, categoryIntervals := stored } := by
  unfold storeStretchIf recordCategoryInterval
  dsimp only
  split_ifs <;> exact ⟨_, _, _, rfl⟩

lemma endAccounts_eq (l : Ledger) (entry : OpenToken) (nowNs : UInt64) :
    ∃ categories categoryPairs allKnown count overflow stored, (endAccounts l entry nowNs).value = { l with
        categories, categoryPairs, allKnown
        categoryIntervalCount := count, categoryIntervalsOverflow := overflow, categoryIntervals := stored } := by
  obtain ⟨count, overflow, stored, hst⟩ := storeStretchIf_eq ((l.categories entry.category).activeDepth = 1 ∧
    (aggregateEnd (l.categories entry.category) entry.beginNs nowNs entry.identity).value.activeDepth = 0) l
    entry.category
    (aggregateEnd (l.categories entry.category) entry.beginNs nowNs entry.identity).value.activeBegin nowNs
  let r := (endAccounts l entry nowNs).value
  exact ⟨r.categories, r.categoryPairs, r.allKnown, count, overflow, stored, congrArg (fun stretched : Ledger =>
    { stretched with categories := r.categories, categoryPairs := r.categoryPairs, allKnown := r.allKnown }) hst⟩

lemma AccountsInv.endAccounts (h : AccountsInv (A ++ s :: B) l now) (hnow : nowNs.toNat = now) (ho : s.endNs = none)
    (hc : entry.category = s.category) (hb : entry.beginNs.toNat = s.beginNs)
    (hid : entry.identity.valid = true → entry.identity.categoryIndex < categoryCount) :
    Quiet (endAccounts l entry nowNs) fun r =>
      ∃ categories categoryPairs allKnown count overflow stored, r = { l with
          categories, categoryPairs, allKnown, categoryIntervalCount := count, categoryIntervalsOverflow := overflow,
          categoryIntervals := stored } ∧
        (∀ c, c < categoryCount → AccountInv (categories c) (ofCategory c (A ++ s.close now :: B)) l.spanBegin now) ∧
        AccountInv allKnown (A ++ s.close now :: B) l.spanBegin now ∧
        (∀ a b, a < b → b < categoryCount → PairInv (categoryPairs a b) (ofCategory a (A ++ s.close now :: B))
          (ofCategory b (A ++ s.close now :: B)) now) ∧
        Metered (matrixTime l.gaps) (allKnown.gapBegin l.spanBegin).toNat
          (¬ 0 < openSpans (A ++ s.close now :: B)) now (idle l.spanBegin.toNat now (A ++ s.close now :: B)) ∧
        StoredInv l.spanBegin overflow stored categories (A ++ s.close now :: B) now := by
  have hmem : s ∈ A ++ s :: B := by simp
  have hk := h.known s hmem
  obtain ⟨hfirst, hbn, -⟩ := h.timed s hmem
  have hcat := h.category _ hk
  rw [ofCategory_mid_self] at hcat
  unfold Observation.endAccounts
  rw [hc]
  refine quiet_bind ((hcat.finish hnow hb hbn ho hid).mono ?_)
  rintro agg ⟨hagg, hbegin, hunion⟩
  rw [← ofCategory_mid_self] at hunion
  rw [← ofCategory_close_self] at hagg
  have hdepth := (h.category _ hk).depth
  have hone : (l.categories s.category).activeDepth = 1 ∧ agg.activeDepth = 0 ↔
      openSpans (ofCategory s.category (A ++ s :: B)) = 1 := by
    rw [← UInt32.toNat_inj, ← UInt32.toNat_inj, hdepth, hagg.depth, ofCategory_close_self, ofCategory_mid_self,
      ← openSpans_close now ho]
    exact ⟨fun h => h.1, fun h => ⟨h, Nat.succ.inj h⟩⟩
  have hcategory : ∀ c, c < categoryCount → AccountInv (update l.categories s.category agg c)
      (ofCategory c (A ++ s.close now :: B)) l.spanBegin now := by
    intro c hlt
    by_cases hcs : c = s.category
    · subst hcs
      rw [update_self]
      exact hagg
    · rw [update_of_ne hcs, ofCategory_close_ne (Ne.symm hcs)]
      exact h.category c hlt
  have hpairs : Quiet (updatePairsIf ((l.categories s.category).activeDepth = 1 ∧ agg.activeDepth = 0)
      (update l.categories s.category agg) l.categoryPairs s.category nowNs) fun r =>
        ∀ a b, a < b → b < categoryCount → PairInv (r a b) (ofCategory a (A ++ s.close now :: B))
          (ofCategory b (A ++ s.close now :: B)) now := by
    refine quiet_ite (fun _ => ?_) fun hstays => quiet_pure (pairs_close_active h ho fun hn => hstays (hone.2 hn))
    refine (quiet_updateCategoryPairs (fun a b => covered (intervals (ofCategory a (A ++ s.close now :: B)) now) ∩
      covered (intervals (ofCategory b (A ++ s.close now :: B)) now)) (fun a b hab hb => ?_) hk hnow).mono fun r hr => ?_
    · rw [intervals_category_close a ho, intervals_category_close b ho]
      exact (h.pairs a b hab hb).union
    · exact pairs_follow (fun x hx => (hcategory x hx).depth) (fun x hx => ofCategory_close_ne (Ne.symm hx)) h.pairs hr
  refine quiet_bind (hpairs.mono fun pairs hpairs => ?_)
  refine quiet_bind ((h.allKnown.finish hnow hb hbn ho hid).mono ?_)
  rintro allKnown ⟨hall, -, hgap⟩
  have hgap' : if openSpans (A ++ s :: B) = 1 then allKnown.gapBegin l.spanBegin = nowNs
      else allKnown.gapBegin l.spanBegin = l.allKnown.gapBegin l.spanBegin := by
    split_ifs at hgap ⊢ with hn
    · exact hgap.2
    · exact hgap.2
  have hunion' : if openSpans (ofCategory s.category (A ++ s :: B)) = 1
      then agg.unionDuration.toNat = (l.categories s.category).unionDuration.toNat +
        (now - (l.categories s.category).activeBegin.toNat)
      else agg.unionDuration = (l.categories s.category).unionDuration := by
    split_ifs at hunion ⊢ with hn
    · exact hunion.1
    · exact hunion.1
  have hstored := stored_close h hnow ho hk hbegin hunion' hone
  have hgapTime := gapTime_close h hnow ho hgap'
  dsimp only at hstored
  obtain ⟨count, overflow, stored, hst⟩ :=
    storeStretchIf_eq ((l.categories s.category).activeDepth = 1 ∧ agg.activeDepth = 0) l s.category agg.activeBegin nowNs
  rw [hst] at hstored ⊢
  exact quiet_pure ⟨_, _, _, _, _, _, rfl, hcategory, hall, hpairs, hgapTime, hstored⟩

lemma nodup_commandIndices : commandIndices.Nodup := by
  refine List.nodup_range.map_on fun x hx y hy hxy => ?_
  have hx' := List.mem_range.1 hx
  have hy' := List.mem_range.1 hy
  have hnat := congrArg UInt32.toNat hxy
  rwa [UInt32.toNat_ofNat', UInt32.toNat_ofNat', Nat.mod_eq_of_lt (by omega), Nat.mod_eq_of_lt (by omega)] at hnat

lemma commandSum_update {f : UInt32 → UInt64} {v : UInt64} (hc : c < 256) {d : ℕ}
    (hv : v.toNat = (f c).toNat + d) : commandSum (update f c v) = commandSum f + d := by
  have hmem : c ∈ commandIndices := by
    refine List.mem_map.2 ⟨c.toNat, List.mem_range.2 (UInt32.lt_iff_toNat_lt.1 hc), by simp⟩
  have htable : (fun x => (update f c v x).toNat) = update (fun x => (f x).toNat) c v.toNat := by
    funext x
    by_cases hx : x = c
    · subst hx; simp
    · simp [hx]
  have hsum := sum_map_update nodup_commandIndices hmem (fun x => (f x).toNat) v.toNat
  unfold commandSum
  rw [htable]
  omega

lemma quiet_endCommand (hcmd : entry.category = publicCall → entry.command < 256)
    (hnow : nowNs.toNat = now) (hb : entry.beginNs.toNat ≤ now) : Quiet (endCommand l entry nowNs) fun r =>
      ∃ calls durations, r = { l with commandCalls := calls, commandTotalDuration := durations } ∧
        commandSum calls = commandSum l.commandCalls + (if entry.category = publicCall then 1 else 0) ∧
        commandSum durations = commandSum l.commandTotalDuration +
          (if entry.category = publicCall then now - entry.beginNs.toNat else 0) := by
  unfold endCommand
  refine quiet_ite (fun hpub => ?_) fun hother => ?_
  · refine quiet_bind ((quiet_addTo _ _ _).mono fun calls hcalls => ?_)
    refine quiet_bind ((quiet_addTo _ _ _).mono fun duration hduration => ?_)
    have hsub : (nowNs - entry.beginNs).toNat = now - entry.beginNs.toNat := by
      rw [UInt64.toNat_sub_of_le _ _ (UInt64.le_iff_toNat_le.2 (by omega)), hnow]
    rw [hsub] at hduration
    refine quiet_pure ⟨_, _, rfl, ?_, ?_⟩
    · rw [if_pos hpub.1]
      exact commandSum_update hpub.2 hcalls
    · rw [if_pos hpub.1]
      exact commandSum_update hpub.2 hduration
  · have hne : entry.category ≠ publicCall := fun hp => hother ⟨hp, hcmd hp⟩
    exact quiet_pure ⟨_, _, rfl, by simp [hne], by simp [hne]⟩

lemma AccountsInv.closeAccounts (h : AccountsInv (A ++ s :: B) l now) (hnow : nowNs.toNat = now) (ho : s.endNs = none)
    (hc : entry.category = s.category) (hcmd : entry.command = s.command) (hb : entry.beginNs.toNat = s.beginNs)
    (hid : entry.identity.valid = true → entry.identity.categoryIndex < categoryCount) :
    Quiet (do let l ← Observation.endAccounts l entry nowNs; endCommand l entry nowNs) fun r =>
      AccountsInv (A ++ s.close now :: B) r now ∧ r.active = l.active ∧ r.flags = l.flags ∧
        r.spanBegin = l.spanBegin ∧ r.lastClock = l.lastClock ∧ r.nextToken = l.nextToken ∧
        r.openCount = l.openCount ∧ r.openTokens = l.openTokens := by
  have hmem : s ∈ A ++ s :: B := by simp
  have hbn := (h.timed s hmem).2.1
  have hcalls := calls_close h ho
  have hdurations := durations_close h ho
  refine quiet_bind ((h.endAccounts hnow ho hc hb hid).mono ?_)
  rintro r ⟨categories, pairs, allKnown, count, overflow, stored, rfl, hcategory, hall, hpairs, hgap, hstored⟩
  have hcommand : entry.category = publicCall → entry.command < 256 := by
    intro hp
    rw [hcmd]
    exact h.commands s hmem (hc ▸ hp)
  refine (quiet_endCommand hcommand hnow (by omega)).mono ?_
  rintro r ⟨calls, durations, rfl, hcalls', hdurations'⟩
  refine ⟨?_, rfl, rfl, rfl, rfl, rfl, rfl, rfl⟩
  rw [hc, hb] at hdurations'
  rw [hc] at hcalls'
  rw [← hcalls'] at hcalls
  rw [← hdurations'] at hdurations
  have hsub : ∀ x ∈ A ++ s.close now :: B, x ∈ A ++ s :: B ∨ x = s.close now := by
    intro x hx
    rcases List.mem_append.1 hx with hx | hx
    · exact .inl (mem_append_left _ hx)
    · rcases List.mem_cons.1 hx with hx | hx
      · exact .inr hx
      · exact .inl (mem_append_right _ (mem_cons_of_mem _ hx))
  exact
    { timed := by
        intro x hx
        rcases hsub x hx with hx | rfl
        · exact h.timed x hx
        · obtain ⟨h1, h2, -⟩ := h.timed s hmem
          exact ⟨h1, h2, by simp [Span.close, ho, h2]⟩
      first := h.first
      known := by
        intro x hx
        rcases hsub x hx with hx | rfl
        · exact h.known x hx
        · exact h.known s hmem
      commands := by
        intro x hx
        rcases hsub x hx with hx | rfl
        · exact h.commands x hx
        · exact h.commands s hmem
      category := hcategory
      allKnown := hall
      pairs := hpairs
      gaps := h.gaps
      gapTime := hgap
      stored := hstored
      calls := hcalls
      durations := hdurations }

/-! ## The flag is sticky -/

def Sticky (l l' : Ledger) : Prop := l'.flags.incomplete = false → l.flags.incomplete = false

lemma sticky_fail (l : Ledger) (e : LedgerError) : Sticky l (l.fail e) := fun h => (Flags.raise_incomplete h).1

lemma sticky_commit (h : m.value.flags = l.flags) : Sticky l (Ledger.commit m) := by
  intro hf
  rw [← h]
  exact (Flags.raise_incomplete hf).1

lemma commit_quiet {Q : Ledger → Prop} (hm : Quiet m Q)
    (h : (Ledger.commit m).flags.incomplete = false) : Q m.value ∧ Ledger.commit m = m.value := by
  obtain ⟨-, he⟩ := Flags.raise_incomplete h
  exact ⟨hm he, by simp [Ledger.commit, he]⟩

section

variable (l : Ledger)

lemma sticky_openSpan (r : SpanRequest) (token nowNs : UInt64) : Sticky l (openSpan l r token nowNs) :=
  sticky_commit rfl

lemma sticky_spanBegin (r : SpanRequest) (clockNs : UInt64) : Sticky l (spanBeginLocked l r clockNs).2 := by
  unfold spanBeginLocked
  dsimp only
  split_ifs
  · exact id
  · exact sticky_fail l _
  · exact sticky_fail l _
  · exact sticky_fail l _
  · exact sticky_fail { l with lastClock := clockNs } _
  · exact sticky_fail { l with lastClock := clockNs, nextToken := l.nextToken + 1 } _
  · exact sticky_fail { l with lastClock := clockNs, nextToken := l.nextToken + 1 } _
  · exact sticky_openSpan { l with lastClock := clockNs, nextToken := l.nextToken + 1 } _ _ _

lemma endAccounts_flags (entry : OpenToken) (nowNs : UInt64) : (endAccounts l entry nowNs).value.flags = l.flags := by
  obtain ⟨categories, categoryPairs, allKnown, count, overflow, stored, hl⟩ := endAccounts_eq l entry nowNs
  rw [hl]

lemma endCommand_flags (entry : OpenToken) (nowNs : UInt64) : (endCommand l entry nowNs).value.flags = l.flags := by
  unfold endCommand
  split_ifs <;> rfl

lemma sticky_closeSpan (token nowNs : UInt64) : Sticky l (closeSpan l token nowNs) :=
  sticky_commit (l := l) ((endCommand_flags _ _ _).trans (endAccounts_flags _ _ _))

lemma sticky_spanEnd (token clockNs : UInt64) : Sticky l (spanEndLocked l token clockNs).2 := by
  unfold spanEndLocked
  dsimp only
  split_ifs
  · exact sticky_fail l _
  · exact sticky_fail l _
  · exact sticky_fail l _
  · exact fun h => sticky_fail l _ (sticky_closeSpan { l.fail .clockReversal with lastClock := clockNs } _ _ h)
  · exact sticky_closeSpan { l with lastClock := clockNs } _ _

lemma sticky_step (e : SpanEvent) : Sticky l (spanStep l e) := by
  cases e with
  | spanBegin r clockNs => exact sticky_spanBegin l r clockNs
  | callBegin symbol command callId clockNs =>
    intro h
    refine sticky_spanBegin l (callRequest symbol command callId) clockNs ?_
    exact sticky_commit (l := (spanBeginLocked l (callRequest symbol command callId) clockNs).2) rfl h
  | spanEnd token clockNs => exact sticky_spanEnd l token clockNs
  | statusPolls command pollCount =>
    simp only [spanStep, commandStatusPolls]
    split_ifs
    · exact id
    · exact id
    · exact sticky_commit rfl

end

structure TokensInv (S : List Span) (nextToken : UInt64) (openTokens : ℕ → OpenToken) : Prop where
  next : nextToken.toNat = S.length
  place : ∀ k, (openTokens k).token ≠ 0 → k = slot (openTokens k).token
  entry : ∀ k, (openTokens k).token ≠ 0 → ∃ i s, S[i]? = some s ∧ s.endNs = none ∧
    (openTokens k).token.toNat = i + 1 ∧ (openTokens k).category = s.category ∧ (openTokens k).command = s.command ∧
    (openTokens k).beginNs.toNat = s.beginNs ∧
    ((openTokens k).identity.valid = true → (openTokens k).identity.categoryIndex < categoryCount)

lemma TokensInv.begin (h : TokensInv S nextToken openTokens) (hmax : nextToken ≠ uint64Max)
    (htoken : entry.token = nextToken + 1) (hc : entry.category = s.category) (hcmd : entry.command = s.command)
    (hb : entry.beginNs.toNat = s.beginNs) (ho : s.endNs = none)
    (hid : entry.identity.valid = true → entry.identity.categoryIndex < categoryCount) :
    TokensInv (S ++ [s]) (nextToken + 1) (update openTokens (slot (nextToken + 1)) entry) := by
  have hnext : (nextToken + 1).toNat = S.length + 1 := by
    have hlt := nextToken.toNat_lt
    have hne : nextToken.toNat ≠ 18446744073709551615 := fun hn => hmax (UInt64.toNat_inj.1 hn)
    have hone : (1 : UInt64).toNat = 1 := rfl
    rw [UInt64.toNat_add, Nat.mod_eq_of_lt (by omega), h.next, hone]
  refine ⟨by rw [hnext]; simp, fun k hk => ?_, fun k hk => ?_⟩
  · by_cases hks : k = slot (nextToken + 1)
    · subst hks
      rw [update_self, htoken]
    · rw [update_of_ne hks] at hk ⊢
      exact h.place k hk
  · by_cases hks : k = slot (nextToken + 1)
    · subst hks
      rw [update_self]
      exact ⟨S.length, s, by simp, ho, by rw [htoken, hnext], hc, hcmd, hb, hid⟩
    · rw [update_of_ne hks] at hk ⊢
      obtain ⟨i, x, hi, hrest⟩ := h.entry k hk
      refine ⟨i, x, ?_, hrest⟩
      rw [getElem?_append_left (List.getElem?_eq_some_iff.1 hi).1]
      exact hi

lemma TokensInv.close (h : TokensInv (A ++ s :: B) nextToken openTokens) (hA : token.toNat = A.length + 1) :
    TokensInv (A ++ s.close now :: B) nextToken (update openTokens (slot token) {}) := by
  refine ⟨by rw [h.next, length_close], fun k hk => ?_, fun k hk => ?_⟩
  · by_cases hks : k = slot token
    · subst hks
      rw [update_self] at hk
      exact absurd rfl hk
    · rw [update_of_ne hks] at hk ⊢
      exact h.place k hk
  · by_cases hks : k = slot token
    · subst hks
      rw [update_self] at hk
      exact absurd rfl hk
    · rw [update_of_ne hks] at hk ⊢
      obtain ⟨i, x, hi, hx, htok, hrest⟩ := h.entry k hk
      refine ⟨i, x, ?_, hx, htok, hrest⟩
      -- another slot holds another token, so the span of this one is another one
      have hne : i ≠ A.length := by
        intro heq
        have hsame : (openTokens k).token = token := UInt64.toNat_inj.1 (by omega)
        exact hks (by rw [h.place k hk, hsame])
      rw [← hi]
      rcases Nat.lt_or_ge i A.length with hlt | hge
      · rw [getElem?_append_left hlt, getElem?_append_left hlt]
      · obtain ⟨d, hd⟩ : ∃ d, i - A.length = d + 1 := ⟨i - A.length - 1, by omega⟩
        rw [getElem?_append_right hge, getElem?_append_right hge, hd]
        rfl

lemma record_spanEnd {i : ℕ} (clockNs : UInt64) (htoken : token.toNat = i + 1) (hi : S[i]? = some s) :
    ∃ A B, S = A ++ s :: B ∧ A.length = i ∧ record S (.spanEnd token clockNs) = A ++ s.close clockNs.toNat :: B := by
  obtain ⟨hlt, hget⟩ := List.getElem?_eq_some_iff.1 hi
  refine ⟨S.take i, S.drop (i + 1), ?_, by simp [hlt.le], ?_⟩
  · rw [← hget, ← drop_eq_getElem_cons hlt, take_append_drop]
  · simp only [record, htoken]
    rw [modify_eq_take_cons_drop hlt, hget]

/-! ## Runs -/

structure Inv (S : List Span) (l : Ledger) (now : ℕ) : Prop where
  active : l.active = true
  positive : 0 < l.spanBegin.toNat
  clock : l.lastClock.toNat ≤ now
  tokens : TokensInv S l.nextToken l.openTokens
  openCount : l.openCount = UInt32.ofNat (openSpans S)
  accounts : AccountsInv S l now

lemma Inv.advance (h : Inv S l now) (hle : now ≤ now') : Inv S l now' :=
  { h with clock := h.clock.trans hle, accounts := h.accounts.advance hle }

def SpanEvent.Numbered : SpanEvent → Prop
  | .spanBegin r _ => r.category = publicCall → r.command < 256
  | .callBegin _ command _ _ => command < 256
  | _ => True

instance (e : SpanEvent) : Decidable e.Numbered := by cases e <;> simp only [SpanEvent.Numbered] <;> infer_instance

lemma fail_incomplete {e : LedgerError} (h : (l.fail e).flags.incomplete = false) : False :=
  absurd (Flags.raise_incomplete h).2 (cons_ne_nil _ _)

lemma Inv.spanBegin (h : Inv S l now) {r : SpanRequest} (hle : now ≤ nowNs.toNat)
    (hcmd : r.category = publicCall → r.command < 256) (hf : (spanBeginLocked l r nowNs).2.flags.incomplete = false) :
    Inv (S ++ [⟨r.category, r.command, nowNs.toNat, none⟩]) (spanBeginLocked l r nowNs).2 nowNs.toNat := by
  unfold spanBeginLocked at hf ⊢
  rw [if_neg (by rw [h.active]; decide)] at hf ⊢
  dsimp only at hf ⊢
  split_ifs at hf ⊢ with hk h0 hrev hmax hslot hseq
  · exact (fail_incomplete hf).elim
  · exact (fail_incomplete hf).elim
  · exact (fail_incomplete hf).elim
  · exact (fail_incomplete hf).elim
  · exact (fail_incomplete hf).elim
  · exact (fail_incomplete hf).elim
  · have hadv := h.advance hle
    have hk' : r.category < categoryCount := UInt32.not_le.1 hk
    have hentered : AccountsInv S
        { l with
          lastClock := nowNs, nextToken := l.nextToken + 1, nextSequence := l.nextSequence + 1
          openTokens := update l.openTokens (slot (l.nextToken + 1))
            ⟨l.nextToken + 1, nowNs, r.graphOrdinal, r.operationSequence, r.category, r.command,
              ⟨true, l.nextSequence + 1, r.owner, r.operation, r.category, r.command⟩⟩
          openCount := l.openCount + 1 } nowNs.toNat := { hadv.accounts with }
    obtain ⟨⟨hacc, categories, pairs, allKnown, gaps, heq⟩, hcommit⟩ := commit_quiet
      (hentered.beginAccounts (s := ⟨r.category, r.command, nowNs.toNat, none⟩) rfl rfl rfl hk' hcmd
        ⟨true, l.nextSequence + 1, r.owner, r.operation, r.category, r.command⟩) hf
    have hvalue : openSpan { l with lastClock := nowNs, nextToken := l.nextToken + 1 } r (l.nextToken + 1) nowNs = _ :=
      hcommit.trans heq
    rw [heq] at hacc
    rw [hvalue]
    refine ⟨h.active, h.positive, le_rfl, ?_, ?_, hacc⟩
    · exact h.tokens.begin hmax rfl rfl rfl rfl rfl fun _ => hk'
    · dsimp only
      rw [h.openCount, openSpans_begin rfl, UInt32.ofNat_add]
      rfl

lemma Inv.spanEnd (h : Inv S l now) (hle : now ≤ nowNs.toNat)
    (hf : (spanEndLocked l token nowNs).2.flags.incomplete = false) :
    Inv (record S (.spanEnd token nowNs)) (spanEndLocked l token nowNs).2 nowNs.toNat := by
  have hrev : ¬ nowNs < l.lastClock := by
    rw [UInt64.lt_iff_toNat_lt]
    have := h.clock
    omega
  unfold spanEndLocked at hf ⊢
  dsimp only at hf ⊢
  rw [if_neg hrev] at hf ⊢
  split_ifs at hf ⊢ with h0 hpair hclock
  · exact (fail_incomplete hf).elim
  · exact (fail_incomplete hf).elim
  · exact (fail_incomplete hf).elim
  · push Not at h0 hpair
    have hopen : (l.openTokens (slot token)).token ≠ 0 := by rw [hpair]; exact h0.2
    obtain ⟨i, s, hi, ho, htoken, hc, hcmd, hb, hid⟩ := h.tokens.entry _ hopen
    rw [hpair] at htoken
    obtain ⟨A, B, rfl, hA, hrecord⟩ := record_spanEnd nowNs htoken hi
    rw [hrecord]
    have hadv := h.advance hle
    have htimed : AccountsInv (A ++ s :: B) { l with lastClock := nowNs } nowNs.toNat := { hadv.accounts with }
    obtain ⟨⟨hacc, hactive, hflags, hfirst, hlast, hnext, hcount, htokens⟩, hcommit⟩ :=
      commit_quiet (htimed.closeAccounts rfl ho hc hcmd hb hid) hf
    rw [← hcommit] at hacc hactive hfirst hlast hnext hcount htokens
    unfold closeSpan
    dsimp only
    generalize Ledger.commit _ = closed at hacc hactive hfirst hlast hnext hcount htokens ⊢
    have hone := openSpans_close (A := A) (B := B) nowNs.toNat ho
    refine ⟨hactive.trans h.active, ?_, ?_, ?_, ?_, { hacc with }⟩
    · exact hfirst ▸ h.positive
    · exact (congrArg UInt64.toNat hlast).le
    · dsimp only
      rw [hnext, htokens]
      exact h.tokens.close (by omega)
    · dsimp only
      rw [hcount, h.openCount, ← hone, UInt32.ofNat_add]
      exact UInt32.add_sub_cancel ..

lemma Inv.congr {l' : Ledger} (h : Inv S l now) (bursts : CommandBarrierBursts) (polls : UInt32 → UInt64)
    (hl : l' = { l with commandBarrierBursts := bursts, commandStatusPollCount := polls }) : Inv S l' now := by
  subst hl
  exact { h with accounts := { h.accounts with } }

def SpanEvent.clock? : SpanEvent → Option UInt64
  | .spanBegin _ clockNs => some clockNs
  | .callBegin _ _ _ clockNs => some clockNs
  | .spanEnd _ clockNs => some clockNs
  | .statusPolls _ _ => none

def clocks (evs : List SpanEvent) : List UInt64 := evs.filterMap SpanEvent.clock?

lemma Inv.step (h : Inv S l now) {e : SpanEvent} (hle : ∀ t ∈ e.clock?, now ≤ t.toNat) (hn : e.Numbered)
    (hf : (spanStep l e).flags.incomplete = false) :
    Inv (record S e) (spanStep l e) ((e.clock?.map UInt64.toNat).getD now) := by
  cases e with
  | spanBegin r clockNs => exact h.spanBegin (hle clockNs rfl) hn hf
  | callBegin symbol command callId clockNs =>
    have hf' : (spanBeginLocked l (callRequest symbol command callId) clockNs).2.flags.incomplete = false :=
      sticky_commit (l := (spanBeginLocked l (callRequest symbol command callId) clockNs).2) rfl hf
    have hinv := h.spanBegin (r := callRequest symbol command callId) (hle clockNs rfl) (fun _ => hn) hf'
    obtain ⟨⟨bursts, heq⟩, hcommit⟩ := commit_quiet (Q := fun r => ∃ bursts,
      r = { (spanBeginLocked l (callRequest symbol command callId) clockNs).2 with commandBarrierBursts := bursts })
      (fun _ => ⟨_, rfl⟩) hf
    exact hinv.congr bursts _ (hcommit.trans heq)
  | spanEnd token clockNs => exact h.spanEnd (hle clockNs rfl) hf
  | statusPolls command pollCount =>
    simp only [spanStep, commandStatusPolls] at hf ⊢
    split_ifs at hf ⊢
    · exact h
    · exact h
    · obtain ⟨⟨polls, heq⟩, hcommit⟩ := commit_quiet (Q := fun r => ∃ polls, r = { l with commandStatusPollCount := polls })
        (fun _ => ⟨_, rfl⟩) hf
      exact h.congr _ polls (hcommit.trans heq)

lemma sticky_run (l : Ledger) (evs : List SpanEvent) : Sticky l (run spanStep l evs) := by
  induction evs generalizing l with
  | nil => exact id
  | cons e evs ih => exact fun h => sticky_step l e (ih _ h)

/-- The accounts are exact after every run that flags nothing. -/
lemma run_spans {evs : List SpanEvent} {t : UInt64} (h : Inv S l now)
    (hclock : (now :: (clocks evs ++ [t]).map UInt64.toNat).Pairwise (· ≤ ·)) (hn : ∀ e ∈ evs, e.Numbered)
    (hf : (run spanStep l evs).flags.incomplete = false) : Inv (evs.foldl record S) (run spanStep l evs) t.toNat := by
  induction evs generalizing S l now with
  | nil =>
    refine h.advance ?_
    simpa [clocks] using hclock
  | cons e evs ih =>
    have hstep := sticky_run (spanStep l e) evs hf
    rw [forall_mem_cons] at hn
    rw [run_cons] at hf ⊢
    rw [foldl_cons]
    cases he : e.clock? with
    | none =>
      have hclocks : clocks (e :: evs) = clocks evs := filterMap_cons_none he
      rw [hclocks] at hclock
      have hinv := h.step (by simp [he]) hn.1 hstep
      rw [he] at hinv
      exact ih hinv hclock hn.2 hf
    | some t' =>
      have hclocks : clocks (e :: evs) = t' :: clocks evs := filterMap_cons_some he
      rw [hclocks, cons_append, map_cons] at hclock
      obtain ⟨hfirst, hrest⟩ := List.pairwise_cons.1 hclock
      have hinv := h.step (by simpa [he] using hfirst t'.toNat mem_cons_self) hn.1 hstep
      rw [he] at hinv
      exact ih hinv hrest hn.2 hf

end CxlMemSim.Guest.Observation
