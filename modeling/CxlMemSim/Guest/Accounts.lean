/-
What the accounts of the observation ledger measure. The spans of a decode epoch are read off its events (`spans`);
`AccountInv` says what each field of an account is of its spans.
-/
import CxlMemSim.Core.Meter
import CxlMemSim.Guest.Ledger

namespace CxlMemSim.Guest.Observation

open CxlMemSim.Core List Function

/-! ## The spans of an epoch -/

structure Span where
  category : UInt32
  command : UInt32
  beginNs : ℕ
  endNs : Option ℕ
deriving DecidableEq, Repr

def Span.at (s : Span) (now : ℕ) : ℕ × ℕ := (s.beginNs, s.endNs.getD now)

def Span.isOpen (s : Span) : Bool := s.endNs.isNone

def Span.close (s : Span) (now : ℕ) : Span := { s with endNs := s.endNs.or (some now) }

def Span.done (s : Span) : ℕ := s.endNs.getD s.beginNs - s.beginNs

def record (S : List Span) : SpanEvent → List Span
  | .spanBegin r clockNs => S ++ [⟨r.category, r.command, clockNs.toNat, none⟩]
  | .callBegin _ command _ clockNs => S ++ [⟨publicCall, command, clockNs.toNat, none⟩]
  | .spanEnd token clockNs =>
    match token.toNat with
    | 0 => S
    | i + 1 => S.modify i fun s => s.close clockNs.toNat
  | .statusPolls _ _ => S

def spans (evs : List SpanEvent) : List Span := evs.foldl record []

def intervals (S : List Span) (now : ℕ) : List (ℕ × ℕ) := S.map fun s => s.at now

def ofCategory (c : UInt32) (S : List Span) : List Span := S.filter fun s => s.category = c

def openSpans (S : List Span) : ℕ := S.countP Span.isOpen

def doneTime (S : List Span) : ℕ := (S.map Span.done).sum

def Timed (first now : ℕ) (S : List Span) : Prop :=
  ∀ s ∈ S, first ≤ s.beginNs ∧ s.beginNs ≤ now ∧ ∀ e ∈ s.endNs, s.beginNs ≤ e ∧ e ≤ now

variable {S A B : List Span} {s : Span} {first now now' : ℕ} {c : UInt32}

lemma Timed.mono (h : Timed first now S) (hle : now ≤ now') : Timed first now' S := by
  intro s hs
  obtain ⟨h1, h2, h3⟩ := h s hs
  exact ⟨h1, by omega, fun e he => ⟨(h3 e he).1, (h3 e he).2.trans hle⟩⟩

lemma Timed.subset {S' : List Span} (h : Timed first now S) (hsub : S' ⊆ S) : Timed first now S' :=
  fun s hs => h s (hsub hs)

lemma ofCategory_subset (c : UInt32) (S : List Span) : ofCategory c S ⊆ S := List.filter_sublist.subset

lemma openSpans_pos : 0 < openSpans S ↔ ∃ s ∈ S, s.endNs = none := by simp [openSpans, countP_pos_iff, Span.isOpen]

lemma mem_covered_intervals {t : ℕ} :
    t ∈ covered (intervals S now) ↔ ∃ s ∈ S, s.beginNs ≤ t ∧ t < s.endNs.getD now := by
  simp [mem_covered, intervals, Span.at]

lemma covered_below (h : Timed first now S) : ∀ t ∈ covered (intervals S now), first ≤ t ∧ t < now := by
  intro t ht
  obtain ⟨s, hs, hl, hr⟩ := mem_covered_intervals.1 ht
  obtain ⟨h1, h2, h3⟩ := h s hs
  refine ⟨h1.trans hl, ?_⟩
  cases he : s.endNs with
  | none => simpa [he] using hr
  | some e =>
    have hle := h3 e (by rw [he]; rfl)
    simp only [he, Option.getD_some] at hr
    omega

lemma advance_covered (h : Timed first now S) (hle : now ≤ now') :
    Advance (0 < openSpans S) now now' (covered (intervals S now)) (covered (intervals S now')) := by
  intro t
  rw [mem_covered_intervals, mem_covered_intervals, openSpans_pos]
  constructor
  · rintro ⟨s, hs, hl, hr⟩
    cases he : s.endNs with
    | some e => exact .inl ⟨s, hs, hl, by simpa [he] using hr⟩
    | none =>
      rw [he, Option.getD_none] at hr
      by_cases ht : t < now
      · exact .inl ⟨s, hs, hl, by simpa [he] using ht⟩
      · exact .inr ⟨⟨s, hs, he⟩, by omega, hr⟩
  · rintro (⟨s, hs, hl, hr⟩ | ⟨⟨s, hs, he⟩, hl, hr⟩)
    · refine ⟨s, hs, hl, ?_⟩
      cases he : s.endNs with
      | some e => simpa [he] using hr
      | none =>
        rw [he, Option.getD_none] at hr
        simpa [he] using lt_of_lt_of_le hr hle
    · exact ⟨s, hs, (h s hs).2.1.trans hl, by simpa [he] using hr⟩

lemma covered_begin (hs : s.beginNs = now) (ho : s.endNs = none) :
    covered (intervals (S ++ [s]) now) = covered (intervals S now) := by
  ext t
  simp only [mem_covered_intervals, mem_append, mem_singleton]
  constructor
  · rintro ⟨s', hs' | rfl, hl, hr⟩
    · exact ⟨s', hs', hl, hr⟩
    · rw [ho, Option.getD_none] at hr
      omega
  · rintro ⟨s', hs', h⟩
    exact ⟨s', .inl hs', h⟩

lemma intervals_close (ho : s.endNs = none) : intervals (A ++ s.close now :: B) now = intervals (A ++ s :: B) now := by
  simp [intervals, Span.at, Span.close, ho]

lemma openSpans_close (now : ℕ) (ho : s.endNs = none) :
    openSpans (A ++ s.close now :: B) + 1 = openSpans (A ++ s :: B) := by
  simp [openSpans, Span.isOpen, Span.close, ho]
  omega

lemma doneTime_close (ho : s.endNs = none) :
    doneTime (A ++ s.close now :: B) = doneTime (A ++ s :: B) + (now - s.beginNs) := by
  simp [doneTime, Span.done, Span.close, ho]
  omega

lemma length_close : (A ++ s.close now :: B).length = (A ++ s :: B).length := by simp

@[simp] lemma category_close (s : Span) (now : ℕ) : (s.close now).category = s.category := rfl

lemma ofCategory_close_self : ofCategory s.category (A ++ s.close now :: B) =
    ofCategory s.category A ++ s.close now :: ofCategory s.category B := by
  simp [ofCategory]

lemma ofCategory_mid_self :
    ofCategory s.category (A ++ s :: B) = ofCategory s.category A ++ s :: ofCategory s.category B := by
  simp [ofCategory]

lemma ofCategory_close_ne (h : s.category ≠ c) : ofCategory c (A ++ s.close now :: B) = ofCategory c (A ++ s :: B) := by
  simp [ofCategory, h]

lemma doneTime_of_closed (h : openSpans S = 0) (now : ℕ) : doneTime S = lengths (intervals S now) := by
  induction S with
  | nil => rfl
  | cons s S ih =>
    simp only [openSpans, countP_cons] at h
    have ho : s.isOpen = false := by
      by_contra hn
      simp [hn] at h
    have hS := ih (by unfold openSpans; omega)
    cases he : s.endNs with
    | none => simp [Span.isOpen, he] at ho
    | some e =>
      simp only [doneTime, map_cons, sum_cons, intervals, lengths_cons, Span.at, Span.done, he,
        Option.getD_some] at hS ⊢
      rw [hS]

structure AccountInv (agg : Aggregate) (S : List Span) (first : UInt64) (now : ℕ) : Prop where
  depth : agg.activeDepth.toNat = openSpans S
  count : agg.intervalCount.toNat = S.length
  total : agg.totalDuration.toNat = doneTime S
  union : Metered agg.unionDuration.toNat agg.activeBegin.toNat (0 < openSpans S) now (covered (intervals S now))
  begun : 0 < openSpans S → first.toNat ≤ agg.activeBegin.toNat
  gap : (agg.gapBegin first).toNat ≤ now
  lastEnd : agg.lastEnd.valid = true → agg.lastEnd.categoryIndex < categoryCount

lemma AccountInv.advance {agg : Aggregate} {first : UInt64} (h : AccountInv agg S first now)
    (ht : Timed first.toNat now S) (hle : now ≤ now') : AccountInv agg S first now' :=
  { h with
    union := h.union.advance hle (advance_covered ht hle)
    gap := h.gap.trans hle }

/-! ## Gap tables -/

def matrixTime (g : Gaps) : ℕ := ((matrixTotals g).map UInt64.toNat).sum

def operationTime (g : Gaps) : ℕ := ((operationTotals g).map UInt64.toNat).sum

/-- both tables record `time`; a free entry is empty, and no account counts more gaps than ticks -/
structure GapsInv (g : Gaps) (time : ℕ) : Prop where
  matrix : matrixTime g = time
  operations : operationTime g = time
  free : ∀ k, (g.operations k).occupied = false → (g.operations k).gap = {}
  matrixCount : ∀ p n, (g.allKnown p n).count.toNat ≤ (g.allKnown p n).totalDuration.toNat
  operationCount : ∀ k, (g.operations k).gap.count.toNat ≤ (g.operations k).gap.totalDuration.toNat

lemma matrixTime_eq (g : Gaps) : matrixTime g =
    (identityIndices.map fun p => (identityIndices.map fun n => (g.allKnown p n).totalDuration.toNat).sum).sum := by
  simp only [matrixTime, matrixTotals, List.flatMap, map_flatten, map_map, sum_flatten, comp_def]

lemma sum_filter_of_zero {L : List ℕ} {p : ℕ → Bool} {f : ℕ → ℕ} (h : ∀ k, p k = false → f k = 0) :
    ((L.filter p).map f).sum = (L.map f).sum := by
  induction L with
  | nil => rfl
  | cons k L ih =>
    cases hk : p k with
    | true => simp [hk, ih]
    | false => simp [hk, ih, h k hk]

variable {g : Gaps}

lemma operationTime_eq (hfree : ∀ k, (g.operations k).occupied = false → (g.operations k).gap = {}) :
    operationTime g =
      ((List.range operationGapCapacity).map fun k => (g.operations k).gap.totalDuration.toNat).sum := by
  unfold operationTime operationTotals
  rw [map_map]
  exact sum_filter_of_zero fun k hk => by simp [hfree k hk]

lemma probe_some {ops : ℕ → OperationGapAggregate} {hash : UInt64} {previous next : Identity} {left n index : ℕ}
    (h : probe ops hash previous next left n = some index) :
    index < operationGapCapacity ∧ (ops index).accepts previous next = true := by
  induction left generalizing n with
  | zero => simp [probe] at h
  | succ left ih =>
    simp only [probe] at h
    split_ifs at h with hacc
    · obtain rfl := Option.some.inj h
      refine ⟨?_, hacc⟩
      rw [UInt64.toNat_and]
      exact lt_of_le_of_lt Nat.and_le_right (by decide)
    · exact ih h

variable {duration : UInt64}

lemma quiet_record (gap : GapAggregate) (overflow : LedgerError) (hd : 0 < duration.toNat)
    (hc : gap.count.toNat ≤ gap.totalDuration.toNat) : Quiet (gap.record overflow duration) fun r => r.1 = true ∧
      r.2.totalDuration.toNat = gap.totalDuration.toNat + duration.toNat ∧
      r.2.count.toNat ≤ r.2.totalDuration.toNat := by
  unfold GapAggregate.record
  refine quiet_ite (fun _ => quiet_bind quiet_fail) fun hmax => quiet_bind ((quiet_addOr _ _ _).mono ?_)
  rintro ⟨ok, total⟩ ⟨hok, htotal⟩
  refine quiet_pure ⟨hok, htotal, ?_⟩
  have hlt := gap.count.toNat_lt
  have hne : gap.count.toNat ≠ 18446744073709551615 := fun h => hmax (UInt64.toNat_inj.1 h)
  have hsucc : (gap.count + 1).toNat = gap.count.toNat + 1 := by
    rw [UInt64.toNat_add, Nat.mod_eq_of_lt]
    · rfl
    · have : (1 : UInt64).toNat = 1 := rfl
      omega
  dsimp only at htotal ⊢
  omega

variable {time : ℕ}

lemma quiet_recordOperationGap (h : GapsInv g time) (hd : 0 < duration.toNat) (previous next : Identity) :
    Quiet (recordOperationGap g.operations duration previous next) fun ops =>
      operationTime { g with operations := ops } = time + duration.toNat ∧
      (∀ k, (ops k).occupied = false → (ops k).gap = {}) ∧
      ∀ k, (ops k).gap.count.toNat ≤ (ops k).gap.totalDuration.toNat := by
  unfold recordOperationGap
  split
  · exact quiet_bind quiet_fail
  · rename_i index hindex
    obtain ⟨hlt, -⟩ := probe_some hindex
    refine quiet_bind ((quiet_record _ _ hd (h.operationCount index)).mono ?_)
    rintro ⟨ok, gap⟩ ⟨-, htotal, hcount⟩
    refine quiet_pure ?_
    set entry : OperationGapAggregate := if (g.operations index).occupied then { g.operations index with gap }
      else { occupied := true, previous, next, gap } with hentry
    have hgap : entry.gap = gap := by rw [hentry]; split_ifs <;> rfl
    have hocc : entry.occupied = true := by rw [hentry]; split_ifs with ho <;> simp [ho]
    have hfree : ∀ k, (update g.operations index entry k).occupied = false →
        (update g.operations index entry k).gap = {} := by
      intro k hk
      by_cases hki : k = index
      · subst hki
        rw [update_self, hocc] at hk
        cases hk
      · rw [update_of_ne hki] at hk ⊢
        exact h.free k hk
    refine ⟨?_, hfree, fun k => ?_⟩
    · rw [operationTime_eq hfree]
      have htable : (fun k => (update g.operations index entry k).gap.totalDuration.toNat) =
          update (fun k => (g.operations k).gap.totalDuration.toNat) index gap.totalDuration.toNat := by
        funext k
        by_cases hki : k = index
        · subst hki; simp [hgap]
        · simp [hki]
      have hsum := sum_map_update nodup_range (List.mem_range.2 hlt)
        (fun k => (g.operations k).gap.totalDuration.toNat) gap.totalDuration.toNat
      have hold := h.operations
      rw [operationTime_eq h.free] at hold
      dsimp only
      rw [htable]
      dsimp only at hsum htotal
      omega
    · by_cases hki : k = index
      · subst hki
        rw [update_self, hgap]
        exact hcount
      · rw [update_of_ne hki]
        exact h.operationCount k

lemma quiet_gapIdentityIndex (i : Identity) : Quiet (gapIdentityIndex i) fun r => r ∈ identityIndices := by
  unfold gapIdentityIndex
  refine quiet_ite (fun _ => quiet_pure (by decide)) fun _ => quiet_ite (fun _ => quiet_bind quiet_fail) fun h => ?_
  refine quiet_pure ?_
  have hlt : i.categoryIndex.toNat < 9 := by
    have : ¬ (9 : UInt32).toNat ≤ i.categoryIndex.toNat := fun hle => h (UInt32.le_iff_toNat_le.2 hle)
    have h9 : (9 : UInt32).toNat = 9 := rfl
    omega
  have hof : i.categoryIndex = UInt32.ofNat i.categoryIndex.toNat := by simp
  rw [hof]
  generalize i.categoryIndex.toNat = n at hlt
  interval_cases n <;> decide

lemma quiet_recordAllKnownGap (h : GapsInv g time) {b e : UInt64} (hbe : b.toNat ≤ e.toNat) (previous next : Identity) :
    Quiet (recordAllKnownGap g b e previous next) fun r => GapsInv r (time + (e.toNat - b.toNat)) := by
  unfold recordAllKnownGap
  refine quiet_ite (fun hle => ?_) fun hlt => ?_
  · have hzero : e.toNat - b.toNat = 0 := by
      have := UInt64.le_iff_toNat_le.1 hle
      omega
    rw [hzero]
    exact quiet_pure h
  · have hsub : (e - b).toNat = e.toNat - b.toNat := UInt64.toNat_sub_of_le _ _ (UInt64.le_iff_toNat_le.2 hbe)
    have hd : 0 < (e - b).toNat := by
      have : ¬ e.toNat ≤ b.toNat := fun hle => hlt (UInt64.le_iff_toNat_le.2 hle)
      omega
    refine quiet_bind ((quiet_gapIdentityIndex previous).mono fun p hp => ?_)
    refine quiet_bind ((quiet_gapIdentityIndex next).mono fun n hn => ?_)
    refine quiet_bind ((quiet_record _ _ hd (h.matrixCount p n)).mono ?_)
    rintro ⟨ok, gap⟩ ⟨hok, htotal, hcount⟩
    dsimp only at hok htotal hcount ⊢
    rw [hok, if_pos rfl]
    refine quiet_bind ((quiet_recordOperationGap h hd previous next).mono ?_)
    rintro ops ⟨hops, hfree, hcounts⟩
    refine quiet_pure ⟨?_, ?_, hfree, ?_, hcounts⟩
    · have hrow := sum_map_update (L := identityIndices) (by decide) hn
        (fun n => (g.allKnown p n).totalDuration.toNat) gap.totalDuration.toNat
      have hall := sum_map_update (L := identityIndices) (by decide) hp
        (fun p => (identityIndices.map fun n => (g.allKnown p n).totalDuration.toNat).sum)
        (identityIndices.map (update (fun n => (g.allKnown p n).totalDuration.toNat) n
          gap.totalDuration.toNat)).sum
      have hold := h.matrix
      rw [matrixTime_eq] at hold
      rw [matrixTime_eq]
      have htable : (fun p' => (identityIndices.map fun n' =>
          (update g.allKnown p (update (g.allKnown p) n gap) p' n').totalDuration.toNat).sum) =
          update (fun p => (identityIndices.map fun n => (g.allKnown p n).totalDuration.toNat).sum) p
            (identityIndices.map (update (fun n => (g.allKnown p n).totalDuration.toNat) n
              gap.totalDuration.toNat)).sum := by
        funext p'
        by_cases hpp : p' = p
        · subst hpp
          rw [update_self, update_self]
          refine congrArg List.sum (map_congr_left fun n' _ => ?_)
          by_cases hnn : n' = n
          · subst hnn; simp
          · simp [hnn]
        · simp [hpp]
      rw [htable]
      omega
    · rw [← hsub]
      exact hops
    · intro p' n'
      by_cases hpp : p' = p
      · subst hpp
        by_cases hnn : n' = n
        · subst hnn
          simpa using hcount
        · simpa [hnn] using h.matrixCount p' n'
      · simpa [hpp] using h.matrixCount p' n'
/-! ## Begins and ends in an account -/

section
variable {agg : Aggregate} {firstNs nowNs : UInt64} {g : Gaps} {time : ℕ}

lemma quiet_considerGap (agg : Aggregate) (b e : UInt64) (previous next : Identity) :
    Quiet (considerGap agg b e previous next) fun r =>
      ∃ have' b' e' p' n', r = { agg with haveLargestGap := have', largestGapBegin := b', largestGapEnd := e',
                                          largestGapPrevious := p', largestGapNext := n' } := by
  unfold considerGap
  refine quiet_ite (fun _ => quiet_bind quiet_fail) fun _ => quiet_ite (fun _ => ?_) fun _ => ?_
  · exact quiet_pure ⟨_, _, _, _, _, rfl⟩
  · exact quiet_pure ⟨_, _, _, _, _, rfl⟩

lemma quiet_closeGap (isAllKnown : Bool) (hg : GapsInv g time) {endNs : UInt64}
    (hle : (agg.gapBegin firstNs).toNat ≤ endNs.toNat) (next : Identity) :
    Quiet (closeGap isAllKnown firstNs g agg endNs next) fun r =>
      (∃ have' b' e' p' n', r.1 = { agg with haveLargestGap := have', largestGapBegin := b', largestGapEnd := e',
                                             largestGapPrevious := p', largestGapNext := n' }) ∧
      if isAllKnown then GapsInv r.2 (time + (endNs.toNat - (agg.gapBegin firstNs).toNat)) else r.2 = g := by
  unfold closeGap
  refine quiet_bind ((quiet_considerGap _ _ _ _ _).mono fun a ha => ?_)
  cases isAllKnown with
  | false => exact quiet_bind (quiet_pure (quiet_pure ⟨ha, rfl⟩))
  | true => exact quiet_bind ((quiet_recordAllKnownGap hg hle _ next).mono fun g' hg' => quiet_pure ⟨ha, hg'⟩)

lemma quiet_enter (agg : Aggregate) :
    Quiet agg.enter fun r => ∃ count depth, r = { agg with activeDepth := depth, intervalCount := count } ∧
      count.toNat = agg.intervalCount.toNat + 1 ∧ depth.toNat = agg.activeDepth.toNat + 1 := by
  unfold Aggregate.enter
  refine quiet_ite (fun _ => quiet_bind quiet_fail) fun hmax => ?_
  refine quiet_bind ((quiet_addTo _ _ _).mono fun count hcount => quiet_pure ⟨count, _, rfl, hcount, ?_⟩)
  have hne : agg.activeDepth.toNat ≠ 0xffffffff := fun h => hmax (UInt32.toNat_inj.1 h)
  have hlt := agg.activeDepth.toNat_lt
  rw [UInt32.toNat_add, Nat.mod_eq_of_lt]
  · rfl
  · have : (1 : UInt32).toNat = 1 := rfl
    omega

lemma openSpans_begin (ho : s.endNs = none) : openSpans (S ++ [s]) = openSpans S + 1 := by
  simp [openSpans, Span.isOpen, ho]

lemma doneTime_begin (ho : s.endNs = none) : doneTime (S ++ [s]) = doneTime S := by simp [doneTime, Span.done, ho]

lemma AccountInv.enter {agg' : Aggregate} (h : AccountInv agg S firstNs now) (hs : s.beginNs = now)
    (ho : s.endNs = none) (hdepth : agg'.activeDepth.toNat = agg.activeDepth.toNat + 1)
    (hcount : agg'.intervalCount.toNat = agg.intervalCount.toNat + 1)
    (htotal : agg'.totalDuration = agg.totalDuration) (hunion : agg'.unionDuration = agg.unionDuration)
    (hbegin : agg'.activeBegin.toNat = if openSpans S = 0 then now else agg.activeBegin.toNat)
    (hfirst : firstNs.toNat ≤ now) (hgap : agg'.gapBegin firstNs = agg.gapBegin firstNs)
    (hlast : agg'.lastEnd = agg.lastEnd) : AccountInv agg' (S ++ [s]) firstNs now := by
  have hopen := openSpans_begin (S := S) ho
  refine ⟨by rw [hdepth, h.depth, hopen], by rw [hcount, h.count]; simp, ?_, ?_, fun _ => ?_, ?_, ?_⟩
  · rw [htotal, h.total, doneTime_begin ho]
  · rw [covered_begin hs ho, hunion, hbegin]
    by_cases hz : openSpans S = 0
    · rw [if_pos hz]
      exact (h.union.turnOn (by omega)).congr (by simp [hopen]) rfl
    · rw [if_neg hz]
      exact h.union.congr (by omega) rfl
  · rw [hbegin]
    split_ifs with hz
    · exact hfirst
    · exact h.begun (by omega)
  · rw [hgap]; exact h.gap
  · rw [hlast]; exact h.lastEnd

lemma AccountInv.begin (h : AccountInv agg S firstNs now) (hg : GapsInv g time) (hnow : nowNs.toNat = now)
    (hfirst : firstNs.toNat ≤ now) (hs : s.beginNs = now) (ho : s.endNs = none) (isAllKnown : Bool)
    (identity : Identity) : Quiet (aggregateBegin isAllKnown firstNs g agg nowNs identity) fun r =>
      AccountInv r.1 (S ++ [s]) firstNs now ∧ r.1.unionDuration = agg.unionDuration ∧
      (0 < openSpans S → r.1.activeBegin = agg.activeBegin) ∧ (openSpans S = 0 → r.1.activeBegin.toNat = now) ∧
      r.1.gapBegin firstNs = agg.gapBegin firstNs ∧
      if isAllKnown = true ∧ openSpans S = 0 then GapsInv r.2 (time + (now - (agg.gapBegin firstNs).toNat))
      else r.2 = g := by
  have hzero : agg.activeDepth = 0 ↔ openSpans S = 0 := by
    rw [← h.depth]
    exact UInt32.toNat_inj.symm
  unfold aggregateBegin
  refine quiet_ite (fun hd => ?_) fun hd => ?_
  · have hz := hzero.1 hd
    refine quiet_bind ((quiet_closeGap isAllKnown hg (hnow ▸ h.gap) identity).mono ?_)
    rintro ⟨a, g'⟩ ⟨⟨have', b', e', p', n', rfl⟩, hg'⟩
    refine quiet_bind ((quiet_enter _).mono ?_)
    rintro r ⟨count, depth, rfl, hcount, hdepth⟩
    refine quiet_pure ⟨h.enter hs ho hdepth hcount rfl rfl (by rw [if_pos hz]; exact hnow) hfirst rfl rfl, rfl,
      fun hpos => by omega, fun _ => hnow, rfl, ?_⟩
    rw [hnow] at hg'
    simpa [hz] using hg'
  · have hz : ¬ openSpans S = 0 := fun hz => hd (hzero.2 hz)
    refine quiet_bind ((quiet_enter _).mono ?_)
    rintro r ⟨count, depth, rfl, hcount, hdepth⟩
    refine quiet_pure ⟨h.enter hs ho hdepth hcount rfl rfl (by rw [if_neg hz]) hfirst rfl rfl, rfl, fun _ => rfl,
      fun hz' => absurd hz' hz, rfl, by simp [hz]⟩

lemma AccountInv.finish (h : AccountInv agg (A ++ s :: B) firstNs now) (hnow : nowNs.toNat = now) {beginNs : UInt64}
    (hb : beginNs.toNat = s.beginNs) (hbn : s.beginNs ≤ now) (ho : s.endNs = none) {identity : Identity}
    (hid : identity.valid = true → identity.categoryIndex < categoryCount) :
    Quiet (aggregateEnd agg beginNs nowNs identity) fun r =>
      AccountInv r (A ++ s.close now :: B) firstNs now ∧ r.activeBegin = agg.activeBegin ∧
      (if openSpans (A ++ s :: B) = 1 then r.unionDuration.toNat = agg.unionDuration.toNat + (now - agg.activeBegin.toNat) ∧
          r.gapBegin firstNs = nowNs
        else r.unionDuration = agg.unionDuration ∧ r.gapBegin firstNs = agg.gapBegin firstNs) := by
  have hclose := openSpans_close (A := A) (B := B) now ho
  have hdepth := h.depth
  unfold aggregateEnd
  refine quiet_ite (fun _ => quiet_bind quiet_fail) fun hd => ?_
  unfold clampEnd
  have hclamp : ¬ nowNs < beginNs := by
    rw [UInt64.lt_iff_toNat_lt]
    omega
  rw [if_neg hclamp]
  refine quiet_bind (quiet_pure (quiet_bind ((quiet_addTo _ _ _).mono fun total htotal => ?_)))
  have hsub : (nowNs - beginNs).toNat = now - s.beginNs := by
    rw [UInt64.toNat_sub_of_le _ _ (UInt64.le_iff_toNat_le.2 (by omega)), hnow, hb]
  have hless : (agg.activeDepth - 1).toNat = agg.activeDepth.toNat - 1 :=
    UInt32.toNat_sub_of_le _ _ (UInt32.le_iff_toNat_le.2 (by
      have : (1 : UInt32).toNat = 1 := rfl
      omega))
  have htotal' : total.toNat = doneTime (A ++ s.close now :: B) := by rw [htotal, h.total, hsub, doneTime_close ho]
  have hcount : agg.intervalCount.toNat = (A ++ s.close now :: B).length := by rw [h.count, length_close]
  refine quiet_ite (fun hz => ?_) fun hz => ?_
  · have hone : openSpans (A ++ s :: B) = 1 := by
      have : (agg.activeDepth - 1).toNat = 0 := by
        have hz' : agg.activeDepth - 1 = 0 := hz
        rw [hz']; rfl
      omega
    obtain ⟨hstart, -⟩ := h.union.running (by omega)
    have hrun : ¬ nowNs < agg.activeBegin := by
      rw [UInt64.lt_iff_toNat_lt]
      omega
    unfold Aggregate.unionUntil
    rw [if_neg hrun]
    refine quiet_bind ((quiet_addTo _ _ _).mono fun union hunion => quiet_pure ?_)
    have hsub' : (nowNs - agg.activeBegin).toNat = now - agg.activeBegin.toNat := by
      rw [UInt64.toNat_sub_of_le _ _ (UInt64.le_iff_toNat_le.2 (by omega)), hnow]
    rw [hsub'] at hunion
    refine ⟨⟨?_, hcount, htotal', ?_, fun hpos => by omega, ?_, hid⟩, rfl, ?_⟩
    · dsimp only
      omega
    · dsimp only at hunion ⊢
      rw [intervals_close ho, hunion]
      exact (h.union.turnOff (by omega) _).congr ⟨False.elim, fun hpos => by omega⟩ rfl
    · simp [Aggregate.gapBegin, hnow]
    · rw [if_pos hone]
      exact ⟨hunion, by simp [Aggregate.gapBegin]⟩
  · have hmore : openSpans (A ++ s :: B) ≠ 1 := by
      intro hone
      have hz' : (agg.activeDepth - 1).toNat = (0 : UInt32).toNat := by
        have h0 : (0 : UInt32).toNat = 0 := rfl
        omega
      exact hz (UInt32.toNat_inj.1 hz')
    refine quiet_pure ⟨⟨?_, hcount, htotal', ?_, fun _ => h.begun (by omega), h.gap, h.lastEnd⟩, rfl, ?_⟩
    · dsimp only
      omega
    · rw [intervals_close ho]
      exact h.union.congr (by omega) rfl
    · rw [if_neg hmore]
      exact ⟨rfl, rfl⟩

end

/-! ## Pairs of categories -/

def PairMeter (pair : PairAggregate) (now : ℕ) (ticks : Finset ℕ) : Prop :=
  Metered pair.unionDuration.toNat pair.activeBegin.toNat (pair.active = true) now ticks

structure PairInv (pair : PairAggregate) (Sa Sb : List Span) (now : ℕ) : Prop where
  active : pair.active = true ↔ 0 < openSpans Sa ∧ 0 < openSpans Sb
  union : PairMeter pair now (covered (intervals Sa now) ∩ covered (intervals Sb now))

variable {pair : PairAggregate}

lemma PairInv.advance {Sa Sb : List Span} (h : PairInv pair Sa Sb now)
    (ha : Timed first now Sa) (hb : Timed first now Sb) (hle : now ≤ now') : PairInv pair Sa Sb now' := by
  refine ⟨h.active, ?_⟩
  have hadv := advance_inter (advance_covered ha hle) (advance_covered hb hle)
    (fun t ht => (covered_below ha t ht).2) fun t ht => (covered_below hb t ht).2
  have hmeter := (h.union.congr h.active rfl).advance hle hadv
  exact hmeter.congr h.active.symm rfl

variable {nowNs : UInt64}

lemma quiet_updatePair {ticks : Finset ℕ} (h : PairMeter pair now ticks) (hnow : nowNs.toNat = now) (active : Bool) :
    Quiet (updatePair pair active nowNs) fun r => r.active = active ∧ PairMeter r now ticks := by
  unfold updatePair
  refine quiet_ite (fun hsame => quiet_pure ⟨hsame.symm, h⟩) fun hne => quiet_ite (fun hon => ?_) fun hoff => ?_
  · have hwas : ¬ pair.active = true := fun hp => hne (by rw [hon, hp])
    refine quiet_pure ⟨hon.symm, ?_⟩
    have hmeter := h.turnOn hwas
    rw [← hnow] at hmeter ⊢
    exact hmeter.congr (by simp) rfl
  · have hoff' : active = false := by simpa using hoff
    have hwas : pair.active = true := by
      cases hp : pair.active
      · exact absurd (hoff'.trans hp.symm) hne
      · rfl
    refine quiet_ite (fun _ => quiet_bind quiet_fail) fun hge => ?_
    rw [UInt64.lt_iff_toNat_lt] at hge
    refine quiet_bind ((quiet_addTo _ _ _).mono fun union hunion => quiet_pure ⟨hoff'.symm, ?_⟩)
    have hsub : (nowNs - pair.activeBegin).toNat = now - pair.activeBegin.toNat := by
      rw [UInt64.toNat_sub_of_le _ _ (UInt64.le_iff_toNat_le.2 (by omega)), hnow]
    rw [hsub] at hunion
    have hmeter := h.turnOff hwas pair.activeBegin.toNat
    unfold PairMeter
    dsimp only
    rw [hunion]
    exact hmeter.congr (by simp) rfl

lemma mem_categoryIndices : c ∈ categoryIndices ↔ c < categoryCount := by
  constructor
  · intro h
    simp only [categoryIndices, mem_cons, not_mem_nil, or_false] at h
    rcases h with h | h | h | h | h | h | h | h | h <;> subst h <;> decide
  · intro h
    have hlt : c.toNat < 9 := UInt32.lt_iff_toNat_lt.1 h
    have hof : c = UInt32.ofNat c.toNat := by simp
    rw [hof]
    generalize c.toNat = n at hlt
    interval_cases n <;> decide

def PairsFollow (categories : UInt32 → Aggregate) (pairs : UInt32 → UInt32 → PairAggregate) (c : UInt32) (now : ℕ)
    (ticks : UInt32 → UInt32 → Finset ℕ) (done : List UInt32) (r : UInt32 → UInt32 → PairAggregate) : Prop :=
  ∀ a b, a < b → b < categoryCount → PairMeter (r a b) now (ticks a b) ∧ ((a = c ∧ b ∈ done) ∨ (b = c ∧ a ∈ done) →
      (r a b).active = ((categories a).activeDepth != 0 && (categories b).activeDepth != 0)) ∧
    (a ≠ c → b ≠ c → r a b = pairs a b)

variable {categories : UInt32 → Aggregate}

lemma quiet_updateOther {pairs r : UInt32 → UInt32 → PairAggregate}
    {ticks : UInt32 → UInt32 → Finset ℕ} {done : List UInt32} (h : PairsFollow categories pairs c now ticks done r)
    (hc : c < categoryCount) (hnow : nowNs.toNat = now) {other : UInt32} (ho : other < categoryCount) :
    Quiet (updateOther categories c nowNs r other) (PairsFollow categories pairs c now ticks (done ++ [other])) := by
  unfold updateOther
  refine quiet_ite (fun heq => quiet_pure ?_) fun hne => ?_
  · intro a b hab hb
    obtain ⟨h1, h2, h3⟩ := h a b hab hb
    refine ⟨h1, fun hd => h2 ?_, h3⟩
    have hne := UInt32.ne_of_lt hab
    rcases hd with ⟨rfl, hd⟩ | ⟨rfl, hd⟩
    · rcases List.mem_append.1 hd with hd | hd
      · exact .inl ⟨rfl, hd⟩
      · exact absurd ((List.mem_singleton.1 hd).trans heq).symm hne
    · rcases List.mem_append.1 hd with hd | hd
      · exact .inr ⟨rfl, hd⟩
      · exact absurd ((List.mem_singleton.1 hd).trans heq) hne
  · -- the one pair touched is (low, high)
    set low := if c < other then c else other with hlow
    set high := if c < other then other else c with hhigh
    have hends : low < high ∧ high < categoryCount ∧ ((low = c ∧ high = other) ∨ (low = other ∧ high = c)) := by
      by_cases hlt : c < other
      · rw [hlow, hhigh, if_pos hlt, if_pos hlt]
        exact ⟨hlt, ho, .inl ⟨rfl, rfl⟩⟩
      · rw [hlow, hhigh, if_neg hlt, if_neg hlt]
        exact ⟨UInt32.lt_of_le_of_ne (UInt32.not_lt.1 hlt) hne, hc, .inr ⟨rfl, rfl⟩⟩
    clear_value low high
    obtain ⟨hlh, hh, hends⟩ := hends
    refine quiet_bind ((quiet_updatePair (h low high hlh hh).1 hnow _).mono ?_)
    rintro pair ⟨hactive, hmeter⟩
    refine quiet_pure fun a b hab hb => ?_
    by_cases hself : a = low ∧ b = high
    · obtain ⟨rfl, rfl⟩ := hself
      simp only [update_self]
      refine ⟨hmeter, fun _ => hactive, fun ha hb' => ?_⟩
      rcases hends with ⟨h1, -⟩ | ⟨-, h1⟩
      · exact absurd h1 ha
      · exact absurd h1 hb'
    · have hsame : update r low (update (r low) high pair) a b = r a b := by
        by_cases ha : a = low
        · subst ha
          have hb' : b ≠ high := fun hb' => hself ⟨rfl, hb'⟩
          simp [hb']
        · simp [ha]
      rw [hsame]
      obtain ⟨h1, h2, h3⟩ := h a b hab hb
      refine ⟨h1, fun hd => h2 ?_, h3⟩
      -- a pair of `c` and `other` is the one touched
      rcases hd with ⟨hac, hd⟩ | ⟨hbc, hd⟩
      · rcases List.mem_append.1 hd with hd | hd
        · exact .inl ⟨hac, hd⟩
        · have hbo := List.mem_singleton.1 hd
          rcases hends with ⟨hl, hr⟩ | ⟨hl, hr⟩
          · exact absurd ⟨hac.trans hl.symm, hbo.trans hr.symm⟩ hself
          · rw [hl, hr, ← hbo, ← hac] at hlh
            exact absurd hab (UInt32.lt_asymm hlh)
      · rcases List.mem_append.1 hd with hd | hd
        · exact .inr ⟨hbc, hd⟩
        · have hao := List.mem_singleton.1 hd
          rcases hends with ⟨hl, hr⟩ | ⟨hl, hr⟩
          · rw [hl, hr, ← hao, ← hbc] at hlh
            exact absurd hab (UInt32.lt_asymm hlh)
          · exact absurd ⟨hao.trans hl.symm, hbc.trans hr.symm⟩ hself

lemma quiet_updateCategoryPairs {pairs : UInt32 → UInt32 → PairAggregate} (ticks : UInt32 → UInt32 → Finset ℕ)
    (h : ∀ a b, a < b → b < categoryCount → PairMeter (pairs a b) now (ticks a b)) (hc : c < categoryCount)
    (hnow : nowNs.toNat = now) : Quiet (updateCategoryPairs categories pairs c nowNs)
      (PairsFollow categories pairs c now ticks categoryIndices) := by
  refine quiet_foldlM (fun a b hab hb => ⟨h a b hab hb, by simp, fun _ _ => rfl⟩) ?_
  intro done other r hpre hr
  have hmem : other ∈ categoryIndices := hpre.subset (by simp)
  exact quiet_updateOther hr hc hnow (mem_categoryIndices.1 hmem)

end CxlMemSim.Guest.Observation
