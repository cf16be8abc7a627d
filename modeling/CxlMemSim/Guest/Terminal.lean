/-
The end of a decode span: when all spans are ended the terminal validators raise nothing, as long as the table of
operation gaps has an entry for the last gap (`RoomForLastGap`), and every account is exact.
-/
import CxlMemSim.Guest.Measure

namespace CxlMemSim.Guest.Observation

open CxlMemSim.Core List Function

/-! ## The last gap -/

section
variable {g : Gaps} {time : ℕ}

lemma index_toNat (hash : UInt64) (n : ℕ) :
    ((hash + UInt64.ofNat n) &&& 1023).toNat = (hash.toNat + n) % operationGapCapacity := by
  have hmask : (1023 : UInt64).toNat = 2 ^ 10 - 1 := rfl
  rw [UInt64.toNat_and, hmask, Nat.and_two_pow_sub_one_eq_mod, UInt64.toNat_add, UInt64.toNat_ofNat']
  unfold operationGapCapacity
  omega

variable {ops : ℕ → OperationGapAggregate} {previous : Identity} {next : Identity}

lemma probe_none {hash : UInt64} {left n : ℕ} (h : probe ops hash previous next left n = none) :
    ∀ d < left, (ops ((hash.toNat + (n + d)) % operationGapCapacity)).accepts previous next = false := by
  induction left generalizing n with
  | zero => intro d hd; omega
  | succ left ih =>
    simp only [probe, index_toNat] at h
    split_ifs at h with hacc
    intro d hd
    cases d with
    | zero => simpa using hacc
    | succ d =>
      have hrest := ih h d (by omega)
      rwa [show n + 1 + d = n + (d + 1) by omega] at hrest

def HasRoom (ops : ℕ → OperationGapAggregate) (previous next : Identity) : Prop :=
  ∃ k < operationGapCapacity, (ops k).accepts previous next = true

lemma probe_of_room (h : HasRoom ops previous next)
    (hash : UInt64) : ∃ k, probe ops hash previous next operationGapCapacity 0 = some k := by
  obtain ⟨k, hk, hacc⟩ := h
  by_contra hnone
  have hprobe := probe_none (Option.eq_none_iff_forall_ne_some.2 fun k hk => hnone ⟨k, hk⟩)
  have hd := hprobe ((k + operationGapCapacity - hash.toNat % operationGapCapacity) % operationGapCapacity)
    (Nat.mod_lt _ (by decide))
  have hindex : (hash.toNat + (0 + (k + operationGapCapacity - hash.toNat % operationGapCapacity) %
      operationGapCapacity)) % operationGapCapacity = k := by
    unfold operationGapCapacity at hk ⊢
    omega
  rw [hindex, hacc] at hd
  cases hd

lemma recordOperationGap_full (h : ¬ HasRoom ops previous next) (duration : UInt64) :
    recordOperationGap ops duration previous next = ⟨ops, [.operationGapCapacity]⟩ := by
  have hnone : probe ops (gapPairHash previous next) previous next operationGapCapacity 0 = none := by
    refine Option.eq_none_iff_forall_ne_some.2 fun k hk => h ?_
    obtain ⟨hlt, hacc⟩ := probe_some hk
    exact ⟨k, hlt, hacc⟩
  unfold recordOperationGap
  rw [hnone]
  rfl

lemma uint64Max_toNat : uint64Max.toNat = 18446744073709551615 := by decide

lemma silent_record {gap : GapAggregate} (overflow : LedgerError) {duration : UInt64}
    (hcount : gap.count.toNat ≤ gap.totalDuration.toNat)
    (hfit : gap.totalDuration.toNat + duration.toNat + 1 < 2 ^ 64) : (gap.record overflow duration).errors = [] := by
  unfold GapAggregate.record
  have hmax : gap.count ≠ uint64Max := by
    intro hn
    rw [hn, uint64Max_toNat] at hcount
    omega
  rw [if_neg hmax]
  have hadd : Silent (addLocked gap.totalDuration duration) fun _ => True :=
    (silent_addOr (by omega)).mono fun _ _ => trivial
  refine (silent_bind (Q := fun _ => True) (hadd.mono ?_)).1
  rintro ⟨ok, total⟩ -
  exact silent_pure trivial

lemma operation_le (h : GapsInv g time) {k : ℕ} (hk : k < operationGapCapacity) :
    (g.operations k).gap.totalDuration.toNat ≤ time := by
  have hsum := h.operations
  rw [operationTime_eq h.free] at hsum
  rw [← hsum]
  exact le_sum_of_mem (List.mem_map.2 ⟨k, List.mem_range.2 hk, rfl⟩)

lemma matrix_le (h : GapsInv g time) {p n : UInt32} (hp : p ∈ identityIndices) (hn : n ∈ identityIndices) :
    (g.allKnown p n).totalDuration.toNat ≤ time := by
  have hsum := h.matrix
  rw [matrixTime_eq] at hsum
  rw [← hsum]
  refine le_trans ?_ (le_sum_of_mem (List.mem_map.2 ⟨p, hp, rfl⟩))
  exact le_sum_of_mem (List.mem_map.2 ⟨n, hn, rfl⟩)

lemma silent_gapIdentityIndex {i : Identity} (hi : i.valid = true → i.categoryIndex < categoryCount) :
    (gapIdentityIndex i).errors = [] := by
  unfold gapIdentityIndex
  split_ifs with hv hlt
  · rfl
  · exact absurd (hi (by simpa using hv)) (UInt32.not_lt.2 hlt)
  · rfl

lemma silent_recordAllKnownGap (h : GapsInv g time) {b e : UInt64} (hbe : b.toNat ≤ e.toNat)
    (hp : previous.valid = true → previous.categoryIndex < categoryCount)
    (hn : next.valid = true → next.categoryIndex < categoryCount) (hfit : time + (e.toNat - b.toNat) + 1 < 2 ^ 64)
    (hroom : b.toNat < e.toNat → HasRoom g.operations previous next) :
    (recordAllKnownGap g b e previous next).errors = [] := by
  unfold recordAllKnownGap
  split_ifs with hle
  · rfl
  have hlt : b.toNat < e.toNat := by
    have : ¬ e.toNat ≤ b.toNat := fun hn => hle (UInt64.le_iff_toNat_le.2 hn)
    omega
  have hsub : (e - b).toNat = e.toNat - b.toNat := UInt64.toNat_sub_of_le _ _ (UInt64.le_iff_toNat_le.2 hbe)
  have hd : 0 < (e - b).toNat := by omega
  refine (?_ : Silent _ fun _ => True).1
  refine silent_bind (((quiet_gapIdentityIndex previous).silent (silent_gapIdentityIndex hp)).mono fun p hp' => ?_)
  refine silent_bind (((quiet_gapIdentityIndex next).silent (silent_gapIdentityIndex hn)).mono fun n hn' => ?_)
  have hcell := matrix_le h hp' hn'
  have hcellFit : (g.allKnown p n).totalDuration.toNat + (e - b).toNat + 1 < 2 ^ 64 := by omega
  have hcellOk := silent_record .gapCountOverflow (h.matrixCount p n) hcellFit
  refine silent_bind (((quiet_record _ _ hd (h.matrixCount p n)).silent hcellOk).mono ?_)
  rintro ⟨ok, gap⟩ ⟨hok, -, -⟩
  dsimp only at hok ⊢
  rw [hok, if_pos rfl]
  have hops : (recordOperationGap g.operations (e - b) previous next).errors = [] := by
    obtain ⟨k, hk⟩ := probe_of_room (hroom hlt) (gapPairHash previous next)
    have hentry := operation_le h (probe_some hk).1
    have hentryFit : (g.operations k).gap.totalDuration.toNat + (e - b).toNat + 1 < 2 ^ 64 := by omega
    have hentryOk := silent_record .operationGapCountOverflow (h.operationCount k) hentryFit
    unfold recordOperationGap
    rw [hk]
    refine (silent_bind (Q := fun _ => True)
      (((quiet_record _ _ hd (h.operationCount k)).silent hentryOk).mono ?_)).1
    rintro ⟨ok, gap⟩ -
    exact silent_pure trivial
  exact silent_bind ⟨hops, silent_pure trivial⟩

def Aggregate.SameTimes (r agg : Aggregate) : Prop :=
  ∃ have' b' e' p' n', r = { agg with haveLargestGap := have', largestGapBegin := b', largestGapEnd := e',
                                      largestGapPrevious := p', largestGapNext := n' }

lemma silent_considerGap (agg : Aggregate) {b e : UInt64} (hbe : b.toNat ≤ e.toNat) (previous next : Identity) :
    (considerGap agg b e previous next).errors = [] := by
  unfold considerGap
  rw [if_neg (by rw [UInt64.lt_iff_toNat_lt]; omega)]
  split_ifs <;> rfl

lemma silent_closeFinalGap (isAllKnown : Bool) (h : GapsInv g time) {agg : Aggregate} {firstNs endNs : UInt64}
    (hle : (agg.gapBegin firstNs).toNat ≤ endNs.toNat) (hdepth : agg.activeDepth = 0)
    (hlast : agg.lastEnd.valid = true → agg.lastEnd.categoryIndex < categoryCount)
    (hfit : isAllKnown = true → time + (endNs.toNat - (agg.gapBegin firstNs).toNat) + 1 < 2 ^ 64)
    (hroom : isAllKnown = true → (agg.gapBegin firstNs).toNat < endNs.toNat → HasRoom g.operations agg.lastEnd {}) :
    Silent (closeFinalGap isAllKnown firstNs g agg endNs) fun r => r.1.SameTimes agg ∧
      if isAllKnown then GapsInv r.2 (time + (endNs.toNat - (agg.gapBegin firstNs).toNat)) else r.2 = g := by
  unfold closeFinalGap
  rw [if_pos hdepth]
  refine (quiet_closeGap isAllKnown h hle {}).silent ?_
  unfold closeGap
  refine (?_ : Silent _ fun _ => True).1
  refine silent_bind ⟨silent_considerGap agg hle _ _, ?_⟩
  cases isAllKnown with
  | false => exact silent_bind (silent_pure (silent_pure trivial))
  | true =>
    have hrecord :=
      silent_recordAllKnownGap h hle hlast (fun hn : ({} : Identity).valid = true => by cases hn) (hfit rfl) (hroom rfl)
    exact silent_bind ⟨hrecord, silent_pure trivial⟩
end

/-! ## The validators -/

lemma silent_addAll {ws : List UInt64} (h : (ws.map UInt64.toNat).sum < 2 ^ 64) :
    Silent (addAll 0 ws) fun r => r.toNat = (ws.map UInt64.toNat).sum := by
  have hzero : (0 : UInt64).toNat = 0 := rfl
  refine (silent_sumOr (by rw [hzero, Nat.zero_add]; exact h)).mono fun r hr => ?_
  rw [hr, hzero, Nat.zero_add]

lemma silent_failIf {c : Prop} [Decidable c] {e : LedgerError} (h : ¬c) : Silent (failIf c e) fun _ => True := by
  unfold failIf
  rw [if_neg h]
  exact silent_pure trivial

lemma silent_emitSummary (isAllKnown : Bool) {g : Gaps} {time : ℕ} (hg : GapsInv g time) {agg : Aggregate}
    {S : List Span} {firstNs endNs : UInt64} (h : AccountInv agg S firstNs endNs.toNat)
    (ht : Timed firstNs.toNat endNs.toNat S) (hfirst : firstNs.toNat ≤ endNs.toNat) (hopen : openSpans S = 0)
    (htime : isAllKnown = true → time + (endNs.toNat - (agg.gapBegin firstNs).toNat) + agg.unionDuration.toNat =
      endNs.toNat - firstNs.toNat ∧ 0 < firstNs.toNat)
    (hroom : isAllKnown = true → (agg.gapBegin firstNs).toNat < endNs.toNat → HasRoom g.operations agg.lastEnd {}) :
    Silent (emitSummary isAllKnown firstNs g agg endNs) fun r => r.1.SameTimes agg ∧
      if isAllKnown then GapsInv r.2 (time + (endNs.toNat - (agg.gapBegin firstNs).toNat)) else r.2 = g := by
  have hlt := endNs.toNat_lt
  have hdepth : agg.activeDepth = 0 := UInt32.toNat_inj.1 (h.depth.trans hopen)
  have hunion : agg.unionDuration.toNat = (covered (intervals S endNs.toNat)).card := h.union.off (by omega)
  have htotal : agg.totalDuration.toNat = lengths (intervals S endNs.toNat) := by
    rw [h.total, doneTime_of_closed hopen endNs.toNat]
  have hspan : (covered (intervals S endNs.toNat)).card ≤ endNs.toNat - firstNs.toNat := by
    have hsub : covered (intervals S endNs.toNat) ⊆ Finset.Ico firstNs.toNat endNs.toNat :=
      fun t h' => Finset.mem_Ico.2 (covered_below ht t h')
    simpa using Finset.card_le_card hsub
  have hcard := card_covered_le (intervals S endNs.toNat)
  have hsub : (endNs - firstNs).toNat = endNs.toNat - firstNs.toNat :=
    UInt64.toNat_sub_of_le _ _ (UInt64.le_iff_toNat_le.2 hfirst)
  unfold emitSummary
  refine silent_bind ((silent_failIf (not_not.2 hdepth)).mono fun _ _ => ?_)
  refine silent_bind ((silent_closeFinalGap isAllKnown hg h.gap hdepth h.lastEnd (fun hall => ?_) hroom).mono ?_)
  · obtain ⟨htime, hpos⟩ := htime hall
    omega
  rintro ⟨r, g'⟩ ⟨⟨have', b', e', p', n', rfl⟩, hg'⟩
  dsimp only at hg' ⊢
  rw [if_pos (UInt64.le_iff_toNat_le.2 hfirst)]
  refine silent_bind ((silent_failIf (by rw [UInt64.lt_iff_toNat_lt]; omega)).mono fun _ _ => ?_)
  refine silent_bind ((silent_failIf (by rw [UInt64.lt_iff_toNat_lt]; omega)).mono fun _ _ => ?_)
  refine silent_bind ((silent_failIf (by rw [UInt64.lt_iff_toNat_lt]; omega)).mono fun _ _ => ?_)
  rw [if_pos (UInt64.le_iff_toNat_le.2 (by omega))]
  have hcheck : Silent (checkRecordedGaps isAllKnown g' (endNs - firstNs - agg.unionDuration)) fun _ => True := by
    unfold checkRecordedGaps
    cases isAllKnown with
    | false => exact silent_pure trivial
    | true =>
      obtain ⟨htime, hpos⟩ := htime rfl
      have hgap : (endNs - firstNs - agg.unionDuration).toNat =
          time + (endNs.toNat - (agg.gapBegin firstNs).toNat) := by
        rw [UInt64.toNat_sub_of_le _ _ (UInt64.le_iff_toNat_le.2 (by omega)), hsub]
        omega
      have hg'' : GapsInv g' (time + (endNs.toNat - (agg.gapBegin firstNs).toNat)) := hg'
      rw [if_neg (by decide)]
      have hm : ((matrixTotals g').map UInt64.toNat).sum = _ := hg''.matrix
      have hop : ((operationTotals g').map UInt64.toNat).sum = _ := hg''.operations
      refine silent_bind ((silent_addAll (by omega)).mono fun r hr => ?_)
      refine silent_bind ((silent_failIf (not_not.2 (UInt64.toNat_inj.1 (by omega)))).mono fun _ _ => ?_)
      refine silent_bind ((silent_addAll (by omega)).mono fun r hr => ?_)
      exact silent_failIf (not_not.2 (UInt64.toNat_inj.1 (by omega)))
  exact silent_bind (hcheck.mono fun _ _ => silent_pure ⟨⟨have', b', e', p', n', rfl⟩, hg'⟩)

lemma openSpans_ofCategory {S : List Span} (h : openSpans S = 0) (c : UInt32) : openSpans (ofCategory c S) = 0 := by
  have hle : openSpans (ofCategory c S) ≤ openSpans S := List.filter_sublist.countP_le
  omega

section
variable {S : List Span} {l : Ledger} {endNs : UInt64}

lemma idle_time (h : Inv S l endNs.toNat) (hopen : openSpans S = 0) :
    matrixTime l.gaps + (endNs.toNat - (l.allKnown.gapBegin l.spanBegin).toNat) + l.allKnown.unionDuration.toNat =
      endNs.toNat - l.spanBegin.toNat := by
  have hunion := h.accounts.allKnown.union.off (by omega)
  obtain ⟨-, hgap⟩ := h.accounts.gapTime.running (by omega)
  have hsub : covered (intervals S endNs.toNat) ⊆ Finset.Ico l.spanBegin.toNat endNs.toNat :=
    fun t ht => Finset.mem_Ico.2 (covered_below h.accounts.timed t ht)
  have hle := Finset.card_le_card hsub
  rw [idle, Finset.card_sdiff_of_subset hsub] at hgap
  rw [Nat.card_Ico] at hgap hle
  generalize matrixTime l.gaps = time at hgap ⊢
  omega

lemma silent_validateTerminalGaps (h : Inv S l endNs.toNat) (hopen : openSpans S = 0) :
    Silent (validateTerminalGaps l endNs) fun _ => True := by
  have hlt := endNs.toNat_lt
  have hfirst := h.accounts.first
  have hgap := h.accounts.allKnown.gap
  have htime := idle_time h hopen
  have hsub : (endNs - l.spanBegin).toNat = endNs.toNat - l.spanBegin.toNat :=
    UInt64.toNat_sub_of_le _ _ (UInt64.le_iff_toNat_le.2 hfirst)
  have hsub' : (endNs - l.allKnown.gapBegin l.spanBegin).toNat =
      endNs.toNat - (l.allKnown.gapBegin l.spanBegin).toNat :=
    UInt64.toNat_sub_of_le _ _ (UInt64.le_iff_toNat_le.2 hgap)
  have hexpected : (endNs - l.spanBegin - l.allKnown.unionDuration).toNat =
      matrixTime l.gaps + (endNs.toNat - (l.allKnown.gapBegin l.spanBegin).toNat) := by
    generalize matrixTime l.gaps = time at htime ⊢
    rw [UInt64.toNat_sub_of_le _ _ (UInt64.le_iff_toNat_le.2 (by omega)), hsub]
    omega
  have hafter : ¬ endNs < l.allKnown.gapBegin l.spanBegin := by
    rw [UInt64.lt_iff_toNat_lt]
    exact not_lt.2 hgap
  unfold validateTerminalGaps
  rw [matrixTime] at htime hexpected
  generalize matrixTotals l.gaps = totals at htime hexpected ⊢
  rw [if_neg (by simp only [UInt64.lt_iff_toNat_lt]; omega)]
  refine silent_bind ((silent_addAll (by omega)).mono fun recorded hr => ?_)
  rw [if_neg hafter]
  refine silent_bind ((silent_addOr (by omega)).mono ?_)
  rintro ⟨ok, r⟩ ⟨hok, hr'⟩
  dsimp only at hok hr' ⊢
  rw [hok, if_pos rfl]
  exact silent_failIf (not_not.2 (UInt64.toNat_inj.1 (by omega)))

lemma silent_sumCommand (l : Ledger) {calls duration : UInt64} {command : UInt32}
    (hcalls : calls.toNat + (l.commandCalls command).toNat < 2 ^ 64)
    (hduration : duration.toNat + (l.commandTotalDuration command).toNat < 2 ^ 64) :
    Silent (sumCommand l (some (calls, duration)) command) fun r => ∃ a b, r = some (a, b) ∧
      a.toNat = calls.toNat + (l.commandCalls command).toNat ∧
      b.toNat = duration.toNat + (l.commandTotalDuration command).toNat := by
  unfold sumCommand
  refine silent_bind ((silent_addOr hcalls).mono fun calls' hcalls' => ?_)
  rw [if_pos hcalls'.1]
  refine silent_bind ((silent_addOr hduration).mono fun duration' hduration' => ?_)
  rw [if_pos hduration'.1]
  exact silent_pure ⟨calls'.2, duration'.2, rfl, hcalls'.2, hduration'.2⟩

lemma silent_sumCommands (l : Ledger) {cs : List UInt32}
    (hcalls : (cs.map fun c => (l.commandCalls c).toNat).sum < 2 ^ 64)
    (hduration : (cs.map fun c => (l.commandTotalDuration c).toNat).sum < 2 ^ 64) :
    Silent (cs.foldlM (sumCommand l) (some (0, 0))) fun r => ∃ a b, r = some (a, b) ∧
      a.toNat = (cs.map fun c => (l.commandCalls c).toNat).sum ∧
      b.toNat = (cs.map fun c => (l.commandTotalDuration c).toNat).sum := by
  refine silent_foldlM (P := fun done (r : Option (UInt64 × UInt64)) => ∃ a b, r = some (a, b) ∧
    a.toNat = (done.map fun c => (l.commandCalls c).toNat).sum ∧
    b.toNat = (done.map fun c => (l.commandTotalDuration c).toNat).sum) ⟨0, 0, rfl, rfl, rfl⟩ ?_
  rintro done c r ⟨rest, rfl⟩ ⟨a, b, rfl, ha, hb⟩
  simp only [map_append, map_cons, map_nil, sum_append, sum_cons, sum_nil, Nat.add_zero] at hcalls hduration ⊢
  rw [← ha] at hcalls
  rw [← hb] at hduration
  refine (silent_sumCommand l (by omega) (by omega)).mono ?_
  rintro r ⟨a', b', rfl, ha', hb'⟩
  exact ⟨a', b', rfl, by rw [ha', ha], by rw [hb', hb]⟩

variable (h : Inv S l endNs.toNat)
include h

section

variable (hopen : openSpans S = 0)
include hopen

lemma command_totals :
    commandSum l.commandCalls = (l.categories publicCall).intervalCount.toNat ∧
      commandSum l.commandTotalDuration = (l.categories publicCall).totalDuration.toNat := by
  have hzero : openSpans (ofCategory publicCall S) = 0 := openSpans_ofCategory hopen publicCall
  have hcat := h.accounts.category publicCall (by decide)
  have hcalls := h.accounts.calls
  rw [hzero, Nat.add_zero] at hcalls
  exact ⟨hcalls.trans hcat.count.symm, h.accounts.durations.trans hcat.total.symm⟩

lemma silent_validateCommandTotals : Silent (validateCommandTotals l) fun _ => True := by
  obtain ⟨hcalls, hduration⟩ := command_totals h hopen
  have hc := (l.categories publicCall).intervalCount.toNat_lt
  have hd := (l.categories publicCall).totalDuration.toNat_lt
  rw [← hcalls, commandSum] at hc
  rw [← hduration, commandSum] at hd
  rw [commandSum] at hcalls hduration
  unfold validateCommandTotals
  generalize commandIndices = cs at hcalls hduration hc hd ⊢
  refine silent_bind ((silent_sumCommands l hc hd).mono ?_)
  rintro r ⟨a, b, rfl, ha, hb⟩
  have ha' : a = (l.categories publicCall).intervalCount := UInt64.toNat_inj.1 (ha.trans hcalls)
  have hb' : b = (l.categories publicCall).totalDuration := UInt64.toNat_inj.1 (hb.trans hduration)
  refine silent_failIf ?_
  rintro (hn | hn)
  · exact hn ha'
  · exact hn hb'

lemma pair_union {a b : UInt32} (hab : a < b)
    (hb : b < categoryCount) : (l.categoryPairs a b).active = false ∧ (l.categoryPairs a b).unionDuration.toNat =
      (covered (intervals (ofCategory a S) endNs.toNat) ∩ covered (intervals (ofCategory b S) endNs.toNat)).card := by
  obtain ⟨hactive, hunion⟩ := h.accounts.pairs a b hab hb
  have hzero := openSpans_ofCategory hopen a
  have hoff : ¬ (l.categoryPairs a b).active = true := fun hn => by
    have := (hactive.1 hn).1
    omega
  exact ⟨by simpa using hoff, hunion.off hoff⟩

lemma category_union {c : UInt32} (hc : c < categoryCount) :
    (l.categories c).unionDuration.toNat = (covered (intervals (ofCategory c S) endNs.toNat)).card := by
  have hzero := openSpans_ofCategory hopen c
  exact (h.accounts.category c hc).union.off (by omega)

lemma silent_validateCategoryPairs : Silent (validateCategoryPairs l) fun _ => True := by
  unfold validateCategoryPairs
  refine silent_bind ((silent_foldlM (P := fun _ _ => True) trivial ?_).mono fun _ _ => silent_failIf (by decide))
  intro done p _ hpre _
  have hmem : p ∈ pairIndices := hpre.subset (by simp)
  have hp : p.1 < p.2 ∧ p.2 < categoryCount := by
    have hall : (pairIndices.all fun q => q.1 < q.2 ∧ q.2 < categoryCount) = true := by decide
    exact of_decide_eq_true (List.all_eq_true.mp hall p hmem)
  have ha : p.1 < categoryCount := UInt32.lt_trans hp.1 hp.2
  obtain ⟨hactive, hunion⟩ := pair_union h hopen hp.1 hp.2
  unfold validatePair
  dsimp only
  rw [if_neg (by simp [hactive])]
  refine silent_failIf ?_
  have h1 := category_union h hopen ha
  have h2 := category_union h hopen hp.2
  have hboth (u v : Finset ℕ) : (u ∩ v).card ≤ u.card ∧ (u ∩ v).card ≤ v.card :=
    ⟨Finset.card_le_card Finset.inter_subset_left, Finset.card_le_card Finset.inter_subset_right⟩
  obtain ⟨hl, hr⟩ := hboth (covered (intervals (ofCategory p.1 S) endNs.toNat))
    (covered (intervals (ofCategory p.2 S) endNs.toNat))
  simp only [UInt64.lt_iff_toNat_lt]
  omega

end

omit h

lemma SameTimes.refl (agg : Aggregate) : agg.SameTimes agg := ⟨_, _, _, _, _, rfl⟩

lemma silent_emitCategories (h : Inv S l endNs.toNat) (hopen : openSpans S = 0) :
    Silent (categoryIndices.foldlM (emitCategory l endNs) l.categories) fun r =>
      ∀ c, (r c).SameTimes (l.categories c) := by
  refine silent_foldlM (P := fun done (r : UInt32 → Aggregate) => (∀ c, (r c).SameTimes (l.categories c)) ∧
    ∀ c, c ∉ done → r c = l.categories c) ⟨fun c => SameTimes.refl _, fun _ _ => rfl⟩ ?_ |>.mono fun _ h => h.1
  intro done c r hpre hr
  have hc : c < categoryCount := mem_categoryIndices.1 (hpre.subset (by simp))
  have hfresh : c ∉ done := by
    have hnodup : (done ++ [c]).Nodup := hpre.sublist.nodup (by decide)
    rw [nodup_append] at hnodup
    exact fun hn => hnodup.2.2 c hn c (by simp) rfl
  have hsummary := silent_emitSummary false h.accounts.gaps (h.accounts.category c hc)
    (h.accounts.timed.subset (ofCategory_subset c S)) h.accounts.first (openSpans_ofCategory hopen c)
    (fun hn => by cases hn) (fun hn => by cases hn)
  unfold emitCategory
  rw [hr.2 c hfresh]
  refine silent_bind (hsummary.mono ?_)
  rintro ⟨agg, g⟩ ⟨hagg, -⟩
  refine silent_pure ⟨fun x => ?_, fun x hx => ?_⟩
  · by_cases hxc : x = c
    · subst hxc
      rw [update_self]
      exact hagg
    · rw [update_of_ne hxc]
      exact hr.1 x
  · have hxc : x ≠ c := fun hxc => hx (by simp [hxc])
    rw [update_of_ne hxc]
    exact hr.2 x fun hn => hx (by simp [hn])

lemma silent_emitCategoryIntervals (h : Inv S l endNs.toNat) {categories : UInt32 → Aggregate}
    (hsame : ∀ c, (categories c).unionDuration = (l.categories c).unionDuration) (allKnown : Aggregate) (gaps : Gaps) :
    Silent (emitCategoryIntervals { l with categories, allKnown, gaps } endNs) fun _ => True := by
  unfold emitCategoryIntervals
  refine silent_ite (fun _ => silent_pure trivial) fun hover => ?_
  have hover' : l.categoryIntervalsOverflow = false := by simpa using hover
  have hloop : Silent (l.categoryIntervals.foldlM (addInterval { l with categories, allKnown, gaps } endNs) fun _ => 0)
      fun r => ∀ c, c ≠ publicCall → c < categoryCount → (r c).toNat = lengths (storedOf c l.categoryIntervals) := by
    refine silent_foldlM (P := fun done (r : UInt32 → UInt64) => ∀ c, c ≠ publicCall → c < categoryCount →
      (r c).toNat = lengths (storedOf c done)) (fun c _ _ => rfl) ?_
    rintro done i r ⟨rest, hrest⟩ hr
    obtain ⟨h1, h2, h3, h4, h5⟩ := h.accounts.stored.valid i (by rw [← hrest]; simp)
    unfold addInterval
    rw [if_neg (by
      simp only [UInt64.lt_iff_toNat_lt]
      rintro (hn | hn | hn | hn | hn)
      · exact h1 hn
      · exact UInt32.not_lt.2 hn h2
      · omega
      · omega
      · omega)]
    have hfit : lengths (storedOf i.category l.categoryIntervals) < 2 ^ 64 := by
      rw [h.accounts.stored.sum hover' _ h1 h2]
      exact (l.categories i.category).unionDuration.toNat_lt
    have hself : storedOf i.category [i] = [(i.beginNs.toNat, i.endNs.toNat)] := by simp [storedOf]
    have hsub : (i.endNs - i.beginNs).toNat = i.endNs.toNat - i.beginNs.toNat :=
      UInt64.toNat_sub_of_le _ _ (UInt64.le_iff_toNat_le.2 h4)
    have hold := hr i.category h1 h2
    rw [← hrest, storedOf_append, lengths_append, storedOf_append, lengths_append, hself, lengths_cons] at hfit
    refine silent_bind ((silent_addTo (by dsimp only at hfit; omega)).mono fun v hv => silent_pure fun c hc hlt => ?_)
    rw [storedOf_append, lengths_append]
    by_cases hci : c = i.category
    · subst hci
      rw [update_self, hself, lengths_cons]
      dsimp only
      simp only [lengths_nil]
      omega
    · have hne : storedOf c [i] = [] := by simp [storedOf, Ne.symm hci]
      rw [update_of_ne hci, hne]
      exact hr c hc hlt
  refine silent_bind (hloop.mono fun durations hd => ?_)
  refine silent_foldlM (P := fun _ _ => True) trivial fun done c _ hpre _ => silent_failIf (not_not.2 ?_)
  have hc : c ≠ publicCall ∧ c < categoryCount := by
    have hall : (([1, 2, 3, 4, 5, 6, 7, 8] : List UInt32).all fun x => x ≠ publicCall ∧ x < categoryCount) = true := by
      decide
    exact of_decide_eq_true (List.all_eq_true.mp hall c (hpre.subset (by simp)))
  refine UInt64.toNat_inj.1 ?_
  dsimp only
  rw [hd c hc.1 hc.2, h.accounts.stored.sum hover' c hc.1 hc.2, hsame c]
end

section
variable {S : List Span} {l : Ledger} {endNs : UInt64}

def RoomForLastGap (l : Ledger) (endNs : UInt64) : Prop :=
  (l.allKnown.gapBegin l.spanBegin).toNat < endNs.toNat → HasRoom l.gaps.operations l.allKnown.lastEnd {}

lemma silent_emitTerminal (h : Inv S l endNs.toNat) (hopen : openSpans S = 0) (hroom : RoomForLastGap l endNs) :
    Silent (emitTerminal l endNs) fun r => ∃ categories allKnown gaps, r = { l with categories, allKnown, gaps } ∧
      (∀ c, (categories c).SameTimes (l.categories c)) ∧ allKnown.SameTimes l.allKnown ∧
      GapsInv gaps (matrixTime l.gaps + (endNs.toNat - (l.allKnown.gapBegin l.spanBegin).toNat)) := by
  unfold emitTerminal
  refine silent_bind ((silent_validateTerminalGaps h hopen).mono fun _ _ => ?_)
  refine silent_bind ((silent_validateCommandTotals h hopen).mono fun _ _ => ?_)
  refine silent_bind ((silent_validateCategoryPairs h hopen).mono fun _ _ => ?_)
  refine silent_bind ((silent_emitCategories h hopen).mono fun categories hcategories => ?_)
  have hsummary := silent_emitSummary true h.accounts.gaps h.accounts.allKnown h.accounts.timed h.accounts.first hopen
    (fun _ => ⟨idle_time h hopen, h.positive⟩) fun _ => hroom
  refine silent_bind (hsummary.mono ?_)
  rintro ⟨allKnown, gaps⟩ ⟨hall, hgaps⟩
  have hsame : ∀ c, (categories c).unionDuration = (l.categories c).unionDuration := by
    intro c
    obtain ⟨have', b', e', p', n', heq⟩ := hcategories c
    rw [heq]
  refine silent_bind ((silent_emitCategoryIntervals h hsame allKnown gaps).mono fun _ _ => ?_)
  exact silent_pure ⟨_, _, _, rfl, hcategories, hall, hgaps⟩

structure Exact (S : List Span) (l : Ledger) (firstNs lastNs : ℕ) : Prop where
  union : ∀ c, c < categoryCount →
    (l.categories c).unionDuration.toNat = (covered (intervals (ofCategory c S) lastNs)).card
  total : ∀ c, c < categoryCount → (l.categories c).totalDuration.toNat = lengths (intervals (ofCategory c S) lastNs)
  allKnown : l.allKnown.unionDuration.toNat = (covered (intervals S lastNs)).card
  gaps : l.allKnown.unionDuration.toNat + matrixTime l.gaps = lastNs - firstNs
  operationGaps : operationTime l.gaps = matrixTime l.gaps
  pairs : ∀ a b, a < b → b < categoryCount → (l.categoryPairs a b).unionDuration.toNat =
    (covered (intervals (ofCategory a S) lastNs) ∩ covered (intervals (ofCategory b S) lastNs)).card
  stored : l.categoryIntervalsOverflow = false → ∀ c, c ≠ publicCall → c < categoryCount →
    (storedOf c l.categoryIntervals).Pairwise (fun i j => i.2 ≤ j.1) ∧
      lengths (storedOf c l.categoryIntervals) = (l.categories c).unionDuration.toNat
  calls : commandSum l.commandCalls = (l.categories publicCall).intervalCount.toNat
  durations : commandSum l.commandTotalDuration = (l.categories publicCall).totalDuration.toNat

lemma exact_of_inv (h : Inv S l endNs.toNat) (hopen : openSpans S = 0) {categories : UInt32 → Aggregate}
    {allKnown : Aggregate} {gaps : Gaps} (hcategories : ∀ c, (categories c).SameTimes (l.categories c))
    (hall : allKnown.SameTimes l.allKnown)
    (hgaps : GapsInv gaps (matrixTime l.gaps + (endNs.toNat - (l.allKnown.gapBegin l.spanBegin).toNat))) (f : Bool) :
    Exact S { l with categories, allKnown, gaps, active := f } l.spanBegin.toNat endNs.toNat := by
  have htimes : ∀ c, (categories c).unionDuration = (l.categories c).unionDuration ∧
      (categories c).totalDuration = (l.categories c).totalDuration ∧
      (categories c).intervalCount = (l.categories c).intervalCount := by
    intro c
    obtain ⟨have', b', e', p', n', heq⟩ := hcategories c
    rw [heq]
    exact ⟨rfl, rfl, rfl⟩
  have hallUnion : allKnown.unionDuration = l.allKnown.unionDuration := by
    obtain ⟨have', b', e', p', n', heq⟩ := hall
    rw [heq]
  obtain ⟨hcalls, hdurations⟩ := command_totals h hopen
  have htime := idle_time h hopen
  refine ⟨fun c hc => ?_, fun c hc => ?_, ?_, ?_, hgaps.operations.trans hgaps.matrix.symm,
    fun a b hab hb => (pair_union h hopen hab hb).2, fun hover c hc hlt => ⟨h.accounts.stored.ordered c, ?_⟩, ?_, ?_⟩
  · exact (congrArg UInt64.toNat (htimes c).1).trans (category_union h hopen hc)
  · refine (congrArg UInt64.toNat (htimes c).2.1).trans ?_
    rw [(h.accounts.category c hc).total, doneTime_of_closed (openSpans_ofCategory hopen c)]
  · exact (congrArg UInt64.toNat hallUnion).trans (h.accounts.allKnown.union.off (by omega))
  · have hmatrix := hgaps.matrix
    dsimp only
    rw [hmatrix, hallUnion]
    generalize matrixTime l.gaps = time at htime ⊢
    omega
  · exact (h.accounts.stored.sum hover c hc hlt).trans (congrArg UInt64.toNat (htimes c).1).symm
  · exact hcalls.trans (congrArg UInt64.toNat (htimes publicCall).2.2).symm
  · exact hdurations.trans (congrArg UInt64.toNat (htimes publicCall).2.1).symm

lemma decodeEnd_exact (h : Inv S l endNs.toNat) (hopen : openSpans S = 0) (hroom : RoomForLastGap l endNs) :
    Exact S (decodeEnd l l.caseEpoch endNs).2 l.spanBegin.toNat endNs.toNat ∧
      (decodeEnd l l.caseEpoch endNs).2.flags = l.flags := by
  have hpos : endNs ≠ 0 := by
    rintro rfl
    have hfirst := h.accounts.first
    have hpositive := h.positive
    have hzero : (0 : UInt64).toNat = 0 := rfl
    omega
  have hcount : l.openCount = 0 := by rw [h.openCount, hopen]; rfl
  obtain ⟨herrors, categories, allKnown, gaps, hvalue, hcategories, hall, hgaps⟩ := silent_emitTerminal h hopen hroom
  have hend : (decodeEnd l l.caseEpoch endNs).2 = { l with categories, allKnown, gaps, active := false } := by
    unfold decodeEnd
    rw [if_neg (by rw [h.active]; decide), if_neg (by simp)]
    dsimp only
    rw [if_neg hpos, if_neg hpos, if_neg (not_not.2 hcount)]
    unfold Ledger.commit
    rw [herrors, hvalue, Flags.raise_nil]
  rw [hend]
  exact ⟨exact_of_inv h hopen hcategories hall hgaps false, rfl⟩
end

/-! ## The decode span -/

lemma inv_opened {caseEpoch firstNs : UInt64} (hpos : firstNs ≠ 0) :
    Inv [] (opened caseEpoch firstNs) firstNs.toNat := by
  have hopened : opened caseEpoch firstNs =
      { active := true, caseEpoch, spanBegin := firstNs, lastClock := firstNs } := if_neg hpos
  have hpos' : 0 < firstNs.toNat := by
    rcases Nat.eq_zero_or_pos firstNs.toNat with hz | hp
    · exact absurd (UInt64.toNat_inj.1 hz) hpos
    · exact hp
  have haccount : AccountInv {} [] firstNs firstNs.toNat :=
    ⟨rfl, rfl, rfl, ⟨by simp [intervals, covered], fun _ => rfl, fun hn => absurd hn (by decide)⟩,
      fun hn => absurd hn (by decide), le_rfl, fun hn => by cases hn⟩
  have hgaps : GapsInv {} 0 :=
    ⟨by decide +kernel, by decide +kernel, fun _ _ => rfl, fun _ _ => le_rfl, fun _ => le_rfl⟩
  have hpair : PairInv {} [] [] firstNs.toNat :=
    ⟨⟨fun hn => (by cases hn), fun hn => absurd hn.1 (by decide)⟩,
      ⟨by simp [intervals, covered], fun _ => rfl, fun hn => by cases hn⟩⟩
  have hstored : StoredInv firstNs false [] (fun _ => {}) [] firstNs.toNat :=
    ⟨fun i hi => by simp at hi, fun _ _ _ _ => rfl, fun _ => List.Pairwise.nil,
     fun c _ _ i hi => by simp [storedOf] at hi⟩
  have hidle : Metered (matrixTime {}) firstNs.toNat (¬ 0 < openSpans []) firstNs.toNat
      (idle firstNs.toNat firstNs.toNat []) := by
    rw [hgaps.matrix]
    exact ⟨by simp [idle], fun hn => absurd (by decide) hn, fun _ => ⟨le_rfl, by simp [idle]⟩⟩
  have hcommands : commandSum (fun _ => 0) = 0 := by decide +kernel
  have hcalls : commandSum (fun _ => 0) + openSpans (ofCategory publicCall []) = (ofCategory publicCall []).length := by
    rw [hcommands]
    rfl
  rw [hopened]
  refine ⟨rfl, hpos', le_rfl, ⟨rfl, fun k hk => absurd rfl hk, fun k hk => absurd rfl hk⟩, rfl, ?_⟩
  exact ⟨fun s hs => by simp at hs, le_rfl, fun s hs => by simp at hs, fun s hs => by simp at hs, fun c _ => haccount,
    haccount, fun a b _ _ => hpair, hgaps.matrix.symm ▸ hgaps, hidle, hstored, hcalls, hcommands⟩

lemma openSpans_eq_zero {S : List Span} (h : ∀ s ∈ S, s.endNs ≠ none) : openSpans S = 0 := by
  by_contra hn
  obtain ⟨s, hs, he⟩ := openSpans_pos.1 (Nat.pos_of_ne_zero hn)
  exact h s hs he

section

variable (l : Ledger)

lemma openSpan_span (r : SpanRequest) (token nowNs : UInt64) : (openSpan l r token nowNs).caseEpoch = l.caseEpoch ∧
    (openSpan l r token nowNs).spanBegin = l.spanBegin := ⟨rfl, rfl⟩

lemma spanBegin_span (r : SpanRequest) (clockNs : UInt64) :
    (spanBeginLocked l r clockNs).2.caseEpoch = l.caseEpoch ∧
      (spanBeginLocked l r clockNs).2.spanBegin = l.spanBegin := by
    unfold spanBeginLocked
    dsimp only
    split_ifs
    · exact ⟨rfl, rfl⟩
    · exact ⟨rfl, rfl⟩
    · exact ⟨rfl, rfl⟩
    · exact ⟨rfl, rfl⟩
    · exact ⟨rfl, rfl⟩
    · exact ⟨rfl, rfl⟩
    · exact ⟨rfl, rfl⟩
    · exact openSpan_span { l with lastClock := clockNs, nextToken := l.nextToken + 1 } _ _ _

lemma endAccounts_span (entry : OpenToken) (nowNs : UInt64) :
    (endAccounts l entry nowNs).value.caseEpoch = l.caseEpoch ∧
    (endAccounts l entry nowNs).value.spanBegin = l.spanBegin := by
  obtain ⟨categories, categoryPairs, allKnown, count, overflow, stored, hl⟩ := endAccounts_eq l entry nowNs
  rw [hl]
  exact ⟨rfl, rfl⟩

lemma endCommand_span (entry : OpenToken) (nowNs : UInt64) : (endCommand l entry nowNs).value.caseEpoch = l.caseEpoch ∧
    (endCommand l entry nowNs).value.spanBegin = l.spanBegin := by
  unfold endCommand
  split_ifs <;> exact ⟨rfl, rfl⟩

lemma closeSpan_span (token nowNs : UInt64) :
    (closeSpan l token nowNs).caseEpoch = l.caseEpoch ∧ (closeSpan l token nowNs).spanBegin = l.spanBegin := by
  obtain ⟨h1, h2⟩ := endAccounts_span l (l.openTokens (slot token)) nowNs
  obtain ⟨h3, h4⟩ :=
    endCommand_span (endAccounts l (l.openTokens (slot token)) nowNs).value (l.openTokens (slot token)) nowNs
  exact ⟨h3.trans h1, h4.trans h2⟩

lemma step_span (e : SpanEvent) : (spanStep l e).caseEpoch = l.caseEpoch ∧ (spanStep l e).spanBegin = l.spanBegin := by
  cases e with
  | spanBegin r clockNs => exact spanBegin_span l r clockNs
  | callBegin symbol command callId clockNs => exact spanBegin_span l (callRequest symbol command callId) clockNs
  | spanEnd token clockNs =>
    simp only [spanStep, spanEndLocked]
    split_ifs
    · exact ⟨rfl, rfl⟩
    · exact ⟨rfl, rfl⟩
    · exact ⟨rfl, rfl⟩
    · exact closeSpan_span { l.fail .clockReversal with lastClock := clockNs } token clockNs
    · exact closeSpan_span { l with lastClock := clockNs } token clockNs
  | statusPolls command pollCount =>
    simp only [spanStep, commandStatusPolls]
    split_ifs
    · exact ⟨rfl, rfl⟩
    · exact ⟨rfl, rfl⟩
    · exact ⟨rfl, rfl⟩

end

/-- With a nondecreasing clock, every span ended and nothing flagged: if the table of operation gaps has an entry for
the last gap, every account is exact and the terminal validators flag nothing. -/
theorem ledger_exact {l : Ledger} (hidle : l.active = false) {caseEpoch firstNs lastNs : UInt64}
    (hepoch : caseEpoch ≠ 0) {evs : List SpanEvent} (hclock : (firstNs :: (clocks evs ++ [lastNs])).Pairwise (· ≤ ·))
    (hcommands : ∀ e ∈ evs, e.Numbered) (hended : ∀ s ∈ spans evs, s.endNs ≠ none)
    (hquiet : (run spanStep (decodeBegin l caseEpoch firstNs).2 evs).flags.incomplete = false)
    (hroom : RoomForLastGap (run spanStep (decodeBegin l caseEpoch firstNs).2 evs) lastNs) :
    Exact (spans evs) (decodeEnd (run spanStep (decodeBegin l caseEpoch firstNs).2 evs) caseEpoch lastNs).2
        firstNs.toNat lastNs.toNat ∧
      (decodeEnd (run spanStep (decodeBegin l caseEpoch firstNs).2 evs) caseEpoch lastNs).2.flags.incomplete = false := by
  have hbegin : (decodeBegin l caseEpoch firstNs).2 = opened caseEpoch firstNs := by
    unfold decodeBegin
    rw [if_neg (by simp [hidle]), if_neg hepoch]
  rw [hbegin] at hquiet hroom ⊢
  have hpos : firstNs ≠ 0 := by
    rintro rfl
    have hflag := sticky_run (opened caseEpoch 0) evs hquiet
    cases hflag
  have hclock' : (firstNs.toNat :: (clocks evs ++ [lastNs]).map UInt64.toNat).Pairwise (· ≤ ·) := by
    rw [← map_cons (f := UInt64.toNat)]
    exact hclock.map _ fun a b hab => UInt64.le_iff_toNat_le.1 hab
  have hinv := run_spans (inv_opened hpos) hclock' hcommands hquiet
  have hspan : (run spanStep (opened caseEpoch firstNs) evs).caseEpoch = caseEpoch ∧
      (run spanStep (opened caseEpoch firstNs) evs).spanBegin = firstNs := by
    refine run_inv_all (P := fun l : Ledger => l.caseEpoch = caseEpoch ∧ l.spanBegin = firstNs)
      (fun l e hl => ?_) evs ?_
    · obtain ⟨h1, h2⟩ := step_span l e
      exact ⟨h1.trans hl.1, h2.trans hl.2⟩
    · unfold opened
      dsimp only
      rw [if_neg hpos]
      exact ⟨rfl, rfl⟩
  obtain ⟨hexact, hflags⟩ := decodeEnd_exact hinv (openSpans_eq_zero hended) hroom
  rw [hspan.1] at hexact hflags
  rw [hspan.2] at hexact
  exact ⟨hexact, by rw [hflags]; exact hquiet⟩

def overlap : List SpanEvent :=
  [.callBegin [99] 3 7 10, .spanBegin ⟨2, 0, 0, 0xffffffff, "llama", [108]⟩ 12, .spanEnd 1 15, .spanEnd 2 20]

theorem ledger_exact_overlap :
    Exact (spans overlap) (decodeEnd (run spanStep (decodeBegin {} 1 5).2 overlap) 1 25).2 5 25 ∧
      (decodeEnd (run spanStep (decodeBegin {} 1 5).2 overlap) 1 25).2.flags.incomplete = false :=
  ledger_exact (l := {}) rfl (by decide) (by decide) (by decide) (by decide) (by decide +kernel)
    fun _ => ⟨0, by decide, by decide +kernel⟩

/-- The stretches of the public calls are not stored. One public call from tick 10 to 15: its union is counted, and
no interval is held. -/
theorem public_stretch_not_stored : let evs : List SpanEvent := [.callBegin [99] 3 7 10, .spanEnd 1 15]
    let before := run spanStep (decodeBegin {} 1 5).2 evs
    let l := (decodeEnd before 1 25).2
    ((5 : UInt64) :: (clocks evs ++ [25])).Pairwise (· ≤ ·) ∧ (∀ e ∈ evs, e.Numbered) ∧
      (∀ s ∈ spans evs, s.endNs ≠ none) ∧ before.flags.incomplete = false ∧ l.flags.incomplete = false ∧
      l.categoryIntervalsOverflow = false ∧ (l.categories publicCall).unionDuration = 5 ∧
      lengths (storedOf publicCall l.categoryIntervals) = 0 := by
  decide +kernel

end CxlMemSim.Guest.Observation
