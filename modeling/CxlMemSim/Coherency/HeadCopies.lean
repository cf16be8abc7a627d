/-
Who still holds a copy after a write? (`MHSLDDevice`.) A ghost, `copies`, has the heads that hold each line: a head
joins when its access completes, and leaves at a back-invalidation, when it disconnects, releases the line or writes it
back.
-/
import CxlMemSim.Coherency.Heads

namespace CxlMemSim.Coherency.Heads

open Finset Function
open CxlMemSim.Core

/-! ## The device beside its copies -/

structure Held where
  device : MHSLDDevice
  copies : UInt64 → Finset UInt32
  stuck : Bool

def Counted (d d' : MHSLDDevice) (head : UInt32) : Prop :=
  (d'.heads head).backInvalidations ≠ (d.heads head).backInvalidations

instance (d d' : MHSLDDevice) (head : UInt32) : Decidable (Counted d d' head) := inferInstanceAs (Decidable (_ ≠ _))

def Within (line addr size : UInt64) : Prop := addr.toNat ≤ line.toNat ∧ line.toNat + 64 ≤ addr.toNat + size.toNat

instance (line addr size : UInt64) : Decidable (Within line addr size) := inferInstanceAs (Decidable (_ ∧ _))

def holdersAfterWrite (d d' : MHSLDDevice) (holders : Finset UInt32) (head : UInt32) : Finset UInt32 :=
  insert head (holders.filter fun x => ¬ Counted d d' x)

def copiesAfter (d d' : MHSLDDevice) (copies : UInt64 → Finset UInt32) : HeadOp → UInt64 → Finset UInt32
  | .activateHead _ _ => copies
  | .deactivateHead head => if maxHeads ≤ head then copies else fun line => (copies line).erase head
  | .releasePool head addr size =>
    if serves d head then fun line => if Within line addr size then (copies line).erase head else copies line
    else copies
  | .read head addr _ =>
    if serves d head then update copies (lineOf addr) (insert head (copies (lineOf addr))) else copies
  | .write head addr _ | .atomic head addr _ =>
    if serves d head then
      update copies (lineOf addr) (holdersAfterWrite d d' (copies (lineOf addr)) head)
    else copies
  | .writeback addr head =>
    match d.directory (lineOf addr) with
    | none => copies
    | some info =>
      if info.ownerHead = head then update copies (lineOf addr) ((copies (lineOf addr)).erase head)
      else copies

def step (h : Held) (o : HeadOp) : Held :=
  if h.stuck then h
  else
    match headCall h.device o with
    | none => { h with stuck := true }
    | some d' => ⟨d', copiesAfter h.device d' h.copies o, false⟩

def start : Held := ⟨newDevice, fun _ => ∅, false⟩

/-! ## Statement -/

def LeavesAlone (h : Held) (o : HeadOp) (head : UInt32) (addr : UInt64) : Prop :=
  h.stuck = false → serves h.device head = true → (step h o).copies (lineOf addr) = {head}

def LeavesNoOther (h : Held) (o : HeadOp) : Prop :=
  match o with
  | .write head addr _ => LeavesAlone h o head addr
  | .atomic head addr _ => LeavesAlone h o head addr
  | _ => True

def SoleOwner (head : UInt32) (info : MHSLDCachelineInfo) : Prop := info.ownerHead = head → ∀ n ∈ info.sharers, n = head

def MayDrop (head : UInt32) (addr size line : UInt64) (info : MHSLDCachelineInfo) : Prop :=
  SoleOwner head info ∧ (Within line addr size ∨ info.ownerHead ≠ head ∧ head ∉ info.sharers)

/-- a line made INVALID has no sharer but the head that leaves, and a released range covers no line of the head in part -/
def NoCopyForgotten (h : Held) : HeadOp → Prop
  | .deactivateHead head => head < maxHeads → ∀ line, ∀ info ∈ h.device.directory line, SoleOwner head info
  | .releasePool head addr size =>
    serves h.device head = true → ∀ lines ∈ releasedLines addr size, ∀ line ∈ lines,
      ∀ info ∈ h.device.directory line, MayDrop head addr size line info
  | .writeback addr head => ∀ info ∈ h.device.directory (lineOf addr), SoleOwner head info
  | _ => True

instance (head : UInt32) (info : MHSLDCachelineInfo) : Decidable (SoleOwner head info) :=
  have : Decidable (∀ n ∈ info.sharers, n = head) := Finset.decidableDforallFinset
  inferInstanceAs (Decidable (_ → _))

def decidableEntry (entry : Option MHSLDCachelineInfo) (p : MHSLDCachelineInfo → Prop) [DecidablePred p] :
    Decidable (∀ info ∈ entry, p info) :=
  match entry with
  | none => isTrue fun _ h => nomatch h
  | some info => decidable_of_iff (p info) ⟨fun hp i hi => by cases hi; exact hp, fun h => h info rfl⟩

def decidableWriteback (h : Held) (addr : UInt64) (head : UInt32) :
    Decidable (NoCopyForgotten h (.writeback addr head)) :=
  decidableEntry (h.device.directory (lineOf addr)) (SoleOwner head)

instance (head : UInt32) (addr size line : UInt64) (info : MHSLDCachelineInfo) :
    Decidable (MayDrop head addr size line info) := inferInstanceAs (Decidable (_ ∧ _))

def decidableReleased (h : Held) (head : UInt32) (addr size : UInt64) :
    Decidable (NoCopyForgotten h (.releasePool head addr size)) :=
  have : ∀ line, Decidable (∀ info ∈ h.device.directory line, MayDrop head addr size line info) :=
    fun line => decidableEntry _ _
  match hl : releasedLines addr size with
  | none => isTrue fun _ lines hlines => nomatch hl.symm.trans hlines
  | some lines =>
    have : Decidable (∀ line ∈ lines, ∀ info ∈ h.device.directory line, MayDrop head addr size line info) :=
      List.decidableBAll _ lines
    decidable_of_iff (serves h.device head = true → ∀ line ∈ lines, ∀ info ∈ h.device.directory line,
        MayDrop head addr size line info)
      ⟨fun hall hs ls hls => by cases hl.symm.trans hls; exact hall hs, fun hall hs => hall hs lines hl⟩

def leaveThenWrite (leave : HeadOp) : List HeadOp :=
  [.activateHead 1 0, .activateHead 2 0, .activateHead 3 0, .read 1 0 1, .read 2 0 2, leave, .write 3 0 3]

/-- A sharer survives a write, whether head 1 leaves by a write-back, by disconnecting or by a release. -/
theorem sharer_outlives_write : (run step start (leaveThenWrite (.writeback 0 1))).copies 0 = {2, 3} ∧
      (run step start (leaveThenWrite (.deactivateHead 1))).copies 0 = {2, 3} ∧
      (run step start (leaveThenWrite (.releasePool 1 0 64))).copies 0 = {2, 3} := by
  decide +kernel

/-- A release forgets a line it only touches. Head 1 reads a line and releases its first 16 bytes. -/
lemma partial_release_forgets :
    (run step start [.activateHead 1 0, .activateHead 2 0, .read 1 0 1, .releasePool 1 0 16, .write 2 0 2]).copies 0 =
      {1, 2} := by
  decide +kernel

/-! ## What the directory knows about the copies -/

def Bounded (info : MHSLDCachelineInfo) (holders : Finset UInt32) : Prop :=
  match info.ownerState with
  | .invalid => info.sharers = ∅ ∧ holders = ∅
  | .shared => holders ⊆ info.sharers
  | .exclusive => False
  | .modified => info.sharers = ∅ ∧ holders ⊆ {info.ownerHead}
  | .owned => holders ⊆ insert info.ownerHead info.sharers

structure LineInv (heads : UInt32 → MHSLDHeadState) (info : MHSLDCachelineInfo) (holders : Finset UInt32) :
    Prop where
  bounded : Bounded info holders
  connected : ∀ n ∈ info.sharers, (heads n).active = true

variable {holders : Finset UInt32} {info' : MHSLDCachelineInfo} {head : UInt32}
  {heads heads' : UInt32 → MHSLDHeadState} {w : LineWork} {h : Held} {d' : MHSLDDevice}

variable {info : MHSLDCachelineInfo}

lemma Bounded.mono {holders' : Finset UInt32} (h : Bounded info holders)
    (hsub : holders' ⊆ holders) : Bounded info holders' := by
  unfold Bounded at h ⊢
  cases hst : info.ownerState <;> rw [hst] at h <;> dsimp only at h ⊢
  case invalid => exact ⟨h.1, Finset.subset_empty.1 (h.2 ▸ hsub)⟩
  case modified => exact ⟨h.1, hsub.trans h.2⟩
  all_goals exact hsub.trans h

lemma Bounded.erase (h : Bounded info holders)
    (hst : info'.ownerState = info.ownerState) (hown : info'.ownerHead = info.ownerHead)
    (hsh : info'.sharers = info.sharers.erase head) : Bounded info' (holders.erase head) := by
  unfold Bounded at h ⊢
  rw [hst, hown, hsh]
  cases hs : info.ownerState <;> rw [hs] at h <;> dsimp only at h ⊢
  case invalid => exact ⟨by simp [h.1], by simp [h.2]⟩
  case shared => exact erase_subset_erase _ h
  case modified => exact ⟨by simp [h.1], (erase_subset _ _).trans h.2⟩
  case owned =>
    intro n hn
    obtain ⟨hne, hn⟩ := Finset.mem_erase.1 hn
    rcases Finset.mem_insert.1 (h hn) with rfl | hn
    · exact mem_insert_self _ _
    · exact mem_insert_of_mem (Finset.mem_erase.2 ⟨hne, hn⟩)

lemma Bounded.erase_owner (h : Bounded info holders)
    (hsole : ∀ n ∈ info.sharers, n = info.ownerHead) : holders.erase info.ownerHead = ∅ := by
  refine eq_empty_of_forall_notMem fun n hn => ?_
  obtain ⟨hne, hn⟩ := Finset.mem_erase.1 hn
  unfold Bounded at h
  cases hs : info.ownerState <;> rw [hs] at h <;> dsimp only at h
  case invalid => simp [h.2] at hn
  case shared => exact hne (hsole n (h hn))
  case modified => exact hne (Finset.mem_singleton.1 (h.2 hn))
  case owned =>
    rcases Finset.mem_insert.1 (h hn) with hown | hsh
    · exact hne hown
    · exact hne (hsole n hsh)

lemma erase_eq_empty_of_sole (h : ∀ n ∈ info.sharers, n = head) : info.sharers.erase head = ∅ :=
  eq_empty_of_forall_notMem fun n hn => (Finset.mem_erase.1 hn).1 (h n (Finset.mem_erase.1 hn).2)

lemma LineInv.leave_owner (h : LineInv heads info holders) (hsole : SoleOwner head info)
    (hown : info.ownerHead = head) (hst : info'.ownerState = .invalid)
    (hsh : info'.sharers = info.sharers.erase head) : LineInv heads' info' (holders.erase head) := by
  have hnone : info'.sharers = ∅ := hsh.trans (erase_eq_empty_of_sole (hsole hown))
  constructor
  · unfold Bounded
    rw [hst]
    exact ⟨hnone, hown ▸ h.bounded.erase_owner (hown ▸ hsole hown)⟩
  · rw [hnone]
    exact fun n hn => absurd hn (notMem_empty n)

lemma LineInv.leave_other (h : LineInv heads info holders)
    (hst : info'.ownerState = info.ownerState) (hown : info'.ownerHead = info.ownerHead)
    (hsh : info'.sharers = info.sharers.erase head)
    (hactive : ∀ n, n ≠ head → (heads' n).active = (heads n).active) : LineInv heads' info' (holders.erase head) := by
  refine ⟨h.bounded.erase hst hown hsh, fun n hn => ?_⟩
  rw [hsh] at hn
  obtain ⟨hne, hn⟩ := Finset.mem_erase.1 hn
  exact (hactive n hne).trans (h.connected n hn)

lemma LineInv.congr_heads (h : LineInv heads info holders)
    (hactive : ∀ n, (heads n).active = true → (heads' n).active = true) : LineInv heads' info holders :=
  ⟨h.bounded, fun n hn => hactive n (h.connected n hn)⟩

lemma acquireSharedLine_bounded (h : Bounded w.info holders) : Bounded (acquireSharedLine w head).info
    (insert head holders) := by
  unfold acquireSharedLine
  cases hst : w.info.ownerState <;> simp only [Bounded, hst] at h ⊢
  case invalid =>
    simp only [LineWork.setOwner, LineWork.setState, LineWork.addSharer, h.2]
    exact insert_subset_insert _ (empty_subset _)
  case shared => simpa only [LineWork.addSharer, hst] using insert_subset_insert _ h
  case modified =>
    simp only [LineWork.countMessage, LineWork.addSharer, LineWork.countDowngrade, LineWork.setState]
    intro x hx
    rcases Finset.mem_insert.1 hx with rfl | hx
    · exact mem_insert_of_mem (mem_insert_self _ _)
    · exact Finset.mem_singleton.1 (h.2 hx) ▸ mem_insert_self _ _
  case owned =>
    simp only [LineWork.countMessage, LineWork.addSharer, hst]
    intro x hx
    rcases Finset.mem_insert.1 hx with rfl | hx
    · exact mem_insert_of_mem (mem_insert_self _ _)
    · rcases Finset.mem_insert.1 (h hx) with rfl | hx
      · exact mem_insert_self _ _
      · exact mem_insert_of_mem (mem_insert_of_mem hx)

lemma acquireSharedLine_sharers {n : UInt32}
    (h : Bounded w.info holders) (hn : n ∈ (acquireSharedLine w head).info.sharers) :
    n = head ∨ n ∈ w.info.sharers := by
  unfold acquireSharedLine at hn
  cases hst : w.info.ownerState <;> rw [hst] at hn <;> dsimp only at hn
  case exclusive => simp [Bounded, hst] at h
  all_goals exact Finset.mem_insert.1 hn

/-- A read that completes adds the reader to the holders. -/
lemma readLine_inv (h : LineInv w.heads w.info holders) (hactive : (w.heads head).active = true) (ts : UInt64) :
    LineInv (readLine w head ts).heads (readLine w head ts).info (insert head holders) := by
  have hb : Bounded ((w.touch ts).countRead head).info holders := h.bounded
  have hkeep := readLine_active w head ts
  have hsharers : ∀ n ∈ (readLine w head ts).info.sharers, n = head ∨ n ∈ w.info.sharers := by
    unfold readLine
    dsimp only
    split_ifs
    · exact fun n hn => Or.inr hn
    · exact fun n hn => Or.inr hn
    · exact fun n hn => acquireSharedLine_sharers (w := (w.touch ts).countRead head) hb hn
  refine ⟨?_, fun n hn => ?_⟩
  · unfold readLine
    dsimp only
    split_ifs with hown hsh
    · -- a hit by the owner in M or O
      simp only [ownerHits, Bool.and_eq_true, decide_eq_true_eq, Bool.or_eq_true] at hown
      obtain ⟨hown, (hst | hst) | hst⟩ := hown
      · simp only [Bounded, hst] at hb
      · simp only [Bounded, hst] at hb ⊢
        exact ⟨hb.1, insert_subset (by simp [hown]) hb.2⟩
      · simp only [Bounded, hst] at hb ⊢
        exact insert_subset (by simp [hown]) hb
    · -- a hit by a sharer, in S or O
      cases hst : ((w.touch ts).countRead head).info.ownerState <;> simp only [Bounded, hst] at hb ⊢
      · simp [hb.1] at hsh
      · exact insert_subset hsh hb
      · simp [hb.1] at hsh
      · exact insert_subset (mem_insert_of_mem hsh) hb
    · exact acquireSharedLine_bounded hb
  · rw [hkeep n]
    rcases hsharers n hn with rfl | hn
    · exact hactive
    · exact h.connected n hn

/-! ## Writes -/

def bi (w : LineWork) (x : UInt32) : UInt64 := (w.heads x).backInvalidations

lemma ne_add_one (a : UInt64) : a + 1 ≠ a := by
  intro h
  have hn := congrArg UInt64.toNat h
  have h1 : (1 : UInt64).toNat = 1 := rfl
  rw [UInt64.toNat_add, h1] at hn
  have := a.toNat_lt
  omega

lemma ne_add_two (a : UInt64) : a + 1 + 1 ≠ a := by
  intro h
  have hn := congrArg UInt64.toNat h
  have h1 : (1 : UInt64).toNat = 1 := rfl
  rw [UInt64.toNat_add, UInt64.toNat_add, h1] at hn
  have := a.toNat_lt
  omega

lemma bi_enterWrite (w : LineWork) (head : UInt32) (ts : UInt64) (x : UInt32) :
    bi (enterWrite w head ts) x = bi w x := by
  unfold bi enterWrite LineWork.countWrite updateHead
  by_cases hx : x = head
  · subst hx
    simp only [update_self]
    rfl
  · simp only [update_of_ne hx]
    rfl

lemma bi_invalidateSharers (w : LineWork) (head x : UInt32) : bi (w.invalidateSharers head) x =
      if x ∈ w.info.sharers ∧ x ≠ head ∧ (w.heads x).active = true then bi w x + 1 else bi w x := by
  unfold bi LineWork.invalidateSharers
  dsimp only
  by_cases hx : x ∈ w.info.sharers ∧ x ≠ head ∧ (w.heads x).active = true
  · rw [if_pos hx, if_pos (Finset.mem_filter.2 hx)]
  · rw [if_neg hx, if_neg fun hmem => hx (Finset.mem_filter.1 hmem)]

lemma bi_snoopOwner_owner (h : w.info.ownerHead ≠ head) :
    bi (snoopOwner w head) w.info.ownerHead = bi w w.info.ownerHead + 1 := by
  unfold snoopOwner
  rw [if_pos h]
  dsimp only
  split_ifs <;>
    simp [bi, LineWork.countMessage, LineWork.countBackInvalidation, LineWork.countWriteback, updateHead]

variable {x : UInt32}

lemma bi_snoopOwner_other (h : x ≠ w.info.ownerHead) : bi (snoopOwner w head) x = bi w x :=
  congrArg MHSLDHeadState.backInvalidations (snoopOwner_heads w head fun _ => h)

lemma acquireExclusiveLine_bi (h : LineInv w.heads w.info holders) (hx : x ∈ holders) (hne : x ≠ head) :
    bi (acquireExclusiveLine w head) x ≠ bi w x := by
  have hb := h.bounded
  unfold Bounded at hb
  unfold acquireExclusiveLine
  cases hst : w.info.ownerState <;> rw [hst] at hb <;> dsimp only at hb ⊢
  case invalid => simp [hb.2] at hx
  case shared =>
    rw [bi_invalidateSharers, if_pos ⟨hb hx, hne, h.connected x (hb hx)⟩]
    exact ne_add_one _
  case modified =>
    have hown : x = w.info.ownerHead := Finset.mem_singleton.1 (hb.2 hx)
    rw [bi_invalidateSharers, snoopOwner_sharers, hb.1, if_neg fun hc => absurd hc.1 (notMem_empty x), hown,
      bi_snoopOwner_owner (hown ▸ hne)]
    exact ne_add_one _
  case owned =>
    rw [bi_invalidateSharers, snoopOwner_sharers, keepsActive_snoopOwner w head x]
    by_cases hown : x = w.info.ownerHead
    · rw [hown, bi_snoopOwner_owner (hown ▸ hne)]
      split_ifs
      · exact ne_add_two _
      · exact ne_add_one _
    · have hsh : x ∈ w.info.sharers := (Finset.mem_insert.1 (hb hx)).resolve_left hown
      rw [if_pos ⟨hsh, hne, h.connected x hsh⟩, bi_snoopOwner_other hown]
      exact ne_add_one _

/-- A write back-invalidates every other holder and leaves the writer as owner with no sharer. -/
lemma writeLine_spec (head : UInt32) (h : LineInv w.heads w.info holders) (ts : UInt64) :
    (∀ x ∈ holders, x ≠ head → bi (writeLine w head ts) x ≠ bi w x) ∧
      (writeLine w head ts).info.ownerState = .modified ∧ (writeLine w head ts).info.ownerHead = head ∧
      (writeLine w head ts).info.sharers = ∅ := by
  have henter : LineInv (enterWrite w head ts).heads (enterWrite w head ts).info holders :=
    ⟨h.bounded, fun n hn => (keepsActive_countWrite _ head n).trans (h.connected n hn)⟩
  have hb := h.bounded
  rw [writeLine_eq]
  split_ifs with hhit howned
  · -- the owner of a MODIFIED line: nobody else holds it
    obtain ⟨hown, hst⟩ := hhit
    rcases hst with hst | hst
    · simp only [Bounded, hst] at hb
    · simp only [Bounded, hst] at hb
      refine ⟨fun x hx hne => ?_, rfl, hown, hb.1⟩
      exact absurd ((Finset.mem_singleton.1 (hb.2 hx)).trans hown) hne
  · obtain ⟨hown, hst⟩ := howned
    simp only [Bounded, hst] at hb
    refine ⟨fun x hx hne => ?_, rfl, hown, rfl⟩
    have hsh : x ∈ w.info.sharers := (Finset.mem_insert.1 (hb hx)).resolve_left fun he => hne (he.trans hown)
    have hcount : bi ((enterWrite w head ts).invalidateSharers head) x = bi w x + 1 := by
      rw [bi_invalidateSharers, if_pos ⟨hsh, hne, henter.connected x hsh⟩, bi_enterWrite]
    exact hcount.symm ▸ ne_add_one (bi w x)
  · refine ⟨fun x hx hne => ?_, rfl, rfl, rfl⟩
    have hcount := acquireExclusiveLine_bi henter hx hne
    rw [bi_enterWrite] at hcount
    exact hcount

/-! ## Runs -/

def Inv (h : Held) : Prop :=
  ∀ line, (h.device.directory line = none → h.copies line = ∅) ∧
    ∀ info, h.device.directory line = some info → LineInv h.device.heads info (h.copies line)

lemma inv_start : Inv start := fun _ => ⟨fun _ => rfl, fun _ he => nomatch he⟩

variable (hi : Inv h)
include hi

lemma openLine_inv (addr : UInt64) :
    LineInv (openLine h.device addr).heads (openLine h.device addr).info (h.copies (lineOf addr)) := by
  unfold openLine
  cases hd : h.device.directory (lineOf addr) with
  | none => exact ⟨⟨rfl, (hi _).1 hd⟩, fun n hn => absurd hn (notMem_empty n)⟩
  | some info => exact (hi _).2 info hd

lemma inv_closeLine (addr : UInt64) (hkeep : KeepsActive (openLine h.device addr) w)
    (hw : LineInv w.heads w.info holders) :
    Inv ⟨closeLine h.device addr w, update h.copies (lineOf addr) holders, false⟩ := by
  intro line
  by_cases hl : line = lineOf addr
  · subst hl
    simp only [closeLine_self, update_self]
    exact ⟨fun he => absurd he (Option.some_ne_none _), fun info hinfo => Option.some.inj hinfo ▸ hw⟩
  · simp only [closeLine_other _ _ hl, update_of_ne hl]
    exact ⟨(hi line).1, fun info hinfo => ((hi line).2 info hinfo).congr_heads fun n hn => (hkeep n).trans hn⟩

lemma inv_map {copies' : UInt64 → Finset UInt32} (hline : ∀ line,
      (h.device.directory line = none → d'.directory line = none ∧ (h.copies line = ∅ → copies' line = ∅)) ∧
      ∀ info, h.device.directory line = some info → LineInv h.device.heads info (h.copies line) →
        ∃ info', d'.directory line = some info' ∧ LineInv d'.heads info' (copies' line)) :
    Inv ⟨d', copies', false⟩ := by
  intro line
  cases hd : h.device.directory line with
  | none =>
    obtain ⟨hnone, hempty⟩ := (hline line).1 hd
    refine ⟨fun _ => hempty ((hi line).1 hd), fun info hinfo => ?_⟩
    rw [hnone] at hinfo
    exact absurd hinfo.symm (Option.some_ne_none _)
  | some info =>
    obtain ⟨info', hinfo', hinv⟩ := (hline line).2 info hd ((hi line).2 info hd)
    refine ⟨fun hnone => ?_, fun i hsome => ?_⟩
    · rw [hinfo'] at hnone
      exact absurd hnone (Option.some_ne_none _)
    rw [hinfo'] at hsome
    exact Option.some.inj hsome ▸ hinv

lemma write_leaves_alone (addr ts : UInt64) (hs : serves h.device head = true) :
    holdersAfterWrite h.device (writeWithCoherency h.device head addr ts) (h.copies (lineOf addr)) head = {head} ∧
      Inv ⟨writeWithCoherency h.device head addr ts,
        update h.copies (lineOf addr) {head}, false⟩ := by
  obtain ⟨hcount, hst, hown, hsh⟩ := writeLine_spec head (openLine_inv hi addr) ts
  have hcall : writeWithCoherency h.device head addr ts =
      closeLine h.device addr (writeLine (openLine h.device addr) head ts) := by
    unfold writeWithCoherency
    rw [if_pos hs]
  rw [hcall]
  refine ⟨Finset.eq_singleton_iff_unique_mem.2 ⟨mem_insert_self _ _, fun x hx => ?_⟩,
    inv_closeLine hi addr (writeLine_active _ head ts) ⟨?_, ?_⟩⟩
  · rcases Finset.mem_insert.1 hx with rfl | hx
    · rfl
    · by_contra hne
      obtain ⟨hmem, hnot⟩ := Finset.mem_filter.1 hx
      exact hnot (hcount x hmem hne)
  · unfold Bounded
    rw [hst]
    exact ⟨hsh, (congrArg (fun x : UInt32 => ({x} : Finset UInt32)) hown.symm).subset⟩
  · rw [hsh]
    exact fun n hn => absurd hn (notMem_empty n)

lemma inv_deactivateHead (hlt : head < maxHeads)
    (hsole : ∀ line, ∀ info ∈ h.device.directory line, SoleOwner head info) :
    Inv ⟨deactivateHead h.device head, fun line => (h.copies line).erase head, false⟩ := by
  have hle : ¬ maxHeads ≤ head := UInt32.not_le.2 hlt
  unfold deactivateHead
  rw [if_neg hle]
  refine inv_map hi fun line =>
    ⟨fun hnone => ⟨?_, fun hempty => ?_⟩, fun info hinfo hinv => ⟨disconnectInfo head info, ?_, ?_⟩⟩
  · dsimp only
    rw [hnone]
    rfl
  · rw [hempty]
    rfl
  · dsimp only
    rw [hinfo]
    rfl
  · unfold disconnectInfo
    by_cases hown : info.ownerHead = head
    · rw [if_pos hown]
      exact hinv.leave_owner (hsole line info hinfo) hown rfl rfl
    · rw [if_neg hown]
      refine hinv.leave_other rfl rfl rfl fun n hn => ?_
      dsimp only
      rw [updateHead_of_ne _ _ hn]

omit hi

lemma updateHead_used_active (heads : UInt32 → MHSLDHeadState) (head : UInt32) (size : UInt64) (x : UInt32) :
    (updateHead heads head (fun st =>
      if size ≤ st.usedCapacity then { st with usedCapacity := st.usedCapacity - size } else st) x).active =
      (heads x).active :=
  updateHead_active
    (f := fun st => if size ≤ st.usedCapacity then { st with usedCapacity := st.usedCapacity - size } else st)
    (fun st => by split_ifs <;> rfl) head x

lemma releaseInfo_inv {covered : Prop} [Decidable covered] (h : LineInv heads info holders)
    (hactive : ∀ n, (heads' n).active = (heads n).active) (hsole : SoleOwner head info)
    (hcov : covered ∨ info.ownerHead ≠ head ∧ head ∉ info.sharers) :
    LineInv heads' (releaseInfo head info) (if covered then holders.erase head else holders) := by
  unfold releaseInfo
  by_cases hown : info.ownerHead = head
  · rw [if_pos hown, if_pos (hcov.resolve_right fun hc => hc.1 hown)]
    exact h.leave_owner hsole hown rfl rfl
  · rw [if_neg hown]
    split_ifs with hc
    · exact h.leave_other rfl rfl rfl fun n _ => hactive n
    · -- the head is not recorded here, so the entry stays as it is
      rw [erase_eq_of_notMem (hcov.resolve_left hc).2]
      exact h.congr_heads fun n hn => (hactive n).trans hn

variable {addr : UInt64}

include hi

lemma inv_releasePool {size : UInt64}
    (hs : serves h.device head = true) (hcall : releasePool h.device head addr size = some d')
    (hcond : ∀ lines ∈ releasedLines addr size, ∀ line ∈ lines, ∀ info ∈ h.device.directory line,
      MayDrop head addr size line info) :
    Inv ⟨d', fun line => if Within line addr size then (h.copies line).erase head else h.copies line, false⟩ := by
  obtain ⟨lines, hlines, -, rfl⟩ := releasePool_some hs hcall
  have hactive := updateHead_used_active h.device.heads head size
  refine inv_map hi fun line => ⟨fun hnone => ⟨?_, fun hempty => ?_⟩, fun info hinfo hinv => ?_⟩
  · dsimp only
    rw [hnone]
    split_ifs <;> rfl
  · rw [hempty]
    split_ifs <;> rfl
  · by_cases hl : line ∈ lines
    · obtain ⟨hsole, hcov⟩ := hcond lines hlines line hl info hinfo
      refine ⟨releaseInfo head info, ?_, releaseInfo_inv hinv hactive hsole hcov⟩
      dsimp only
      rw [if_pos hl, hinfo]
      rfl
    · -- the walk did not come here; a holder that leaves does no harm
      refine ⟨info, ?_, hinv.bounded.mono ?_, fun n hn => (hactive n).trans (hinv.connected n hn)⟩
      · dsimp only
        rw [if_neg hl, hinfo]
      · split_ifs
        · exact erase_subset _ _
        · exact Finset.Subset.refl _

lemma inv_writeback (hinfo : h.device.directory (lineOf addr) = some info) (hown : info.ownerHead = head)
    (hsole : SoleOwner head info) : Inv ⟨{ updateEntry h.device addr (writebackInfo head) with
        stats := { h.device.stats with totalWritebacks := h.device.stats.totalWritebacks + 1 } },
      update h.copies (lineOf addr) ((h.copies (lineOf addr)).erase head), false⟩ := by
  refine inv_map hi fun line => ?_
  by_cases hl : line = lineOf addr
  · subst hl
    refine ⟨fun hnone => by rw [hinfo] at hnone; exact absurd hnone (Option.some_ne_none _), fun i hi' hinv => ?_⟩
    obtain rfl := Option.some.inj (hinfo.symm.trans hi')
    refine ⟨writebackInfo head info, ?_, ?_⟩
    · simp only [updateEntry, update_self, hinfo]
      rfl
    · rw [update_self]
      exact hinv.leave_owner hsole hown rfl rfl
  · simp only [updateEntry, update_of_ne hl]
    exact ⟨fun hnone => ⟨hnone, id⟩, fun i hi' hinv => ⟨i, hi', hinv⟩⟩

/-! ## Every call -/

lemma inv_activateHead (head : UInt32) (cap : UInt64) : Inv ⟨(activateHead h.device head cap).1, h.copies, false⟩ := by
  unfold activateHead
  split_ifs with hle
  · exact hi
  · refine fun line => ⟨(hi line).1, fun info hinfo => ((hi line).2 info hinfo).congr_heads fun n hn => ?_⟩
    dsimp only [updateHead]
    by_cases hn' : n = head
    · rw [hn', update_self]
    · rwa [update_of_ne hn']

lemma write_inv (head : UInt32) (addr ts : UInt64) : Inv ⟨writeWithCoherency h.device head addr ts,
      if serves h.device head then
        update h.copies (lineOf addr)
          (holdersAfterWrite h.device (writeWithCoherency h.device head addr ts) (h.copies (lineOf addr)) head)
      else h.copies, false⟩ := by
  by_cases hs : serves h.device head = true
  · obtain ⟨hone, hinv⟩ := write_leaves_alone hi addr ts hs
    rw [if_pos hs, hone]
    exact hinv
  · unfold writeWithCoherency
    rw [if_neg hs, if_neg hs]
    exact hi

omit hi

variable {o : HeadOp}

include hi

lemma call_inv (ho : NoCopyForgotten h o)
    (hcall : headCall h.device o = some d') : Inv ⟨d', copiesAfter h.device d' h.copies o, false⟩ := by
  cases o with
  | activateHead head cap =>
    obtain rfl := Option.some.inj hcall
    exact inv_activateHead hi head cap
  | deactivateHead head =>
    obtain rfl := Option.some.inj hcall
    dsimp only [copiesAfter]
    by_cases hle : maxHeads ≤ head
    · rw [if_pos hle, deactivateHead, if_pos hle]
      exact hi
    · rw [if_neg hle]
      exact inv_deactivateHead hi (UInt32.not_le.1 hle) (ho (UInt32.not_le.1 hle))
  | releasePool head addr size =>
    dsimp only [copiesAfter]
    cases hs : serves h.device head with
    | false =>
      rw [headCall, releasePool_refused addr size hs] at hcall
      obtain rfl := Option.some.inj hcall
      exact hi
    | true => exact inv_releasePool hi hs hcall (ho hs)
  | read head addr ts =>
    obtain rfl := Option.some.inj hcall
    dsimp only [copiesAfter]
    unfold readWithCoherency
    split_ifs with hs
    · exact inv_closeLine hi addr (readLine_active _ head ts)
        (readLine_inv (openLine_inv hi addr) (serves_active hs) ts)
    · exact hi
  | write head addr ts | atomic head addr ts =>
    obtain rfl := Option.some.inj hcall
    exact write_inv hi head addr ts
  | writeback addr head =>
    obtain rfl := Option.some.inj hcall
    dsimp only [copiesAfter]
    unfold writeback
    cases hinfo : h.device.directory (lineOf addr) with
    | none => exact hi
    | some info =>
      dsimp only
      by_cases hown : info.ownerHead = head
      · rw [if_neg (not_not.2 hown), if_pos hown]
        exact inv_writeback hi hinfo hown (ho info hinfo)
      · rw [if_pos hown, if_neg hown]
        exact hi

lemma step_inv (o : HeadOp) (ho : NoCopyForgotten h o) : Inv (step h o) := by
  unfold step
  split_ifs with hstuck
  · exact hi
  · cases hcall : headCall h.device o with
    | none => exact hi
    | some d' => exact call_inv hi ho hcall

lemma leavesAlone {ts : UInt64}
    (ho : o = .write head addr ts ∨ o = .atomic head addr ts) : LeavesAlone h o head addr := by
  intro hstuck hs
  have hone := (write_leaves_alone hi addr ts hs).1
  unfold step
  rw [if_neg (by simp [hstuck])]
  rcases ho with rfl | rfl <;>
    simp only [headCall, copiesAfter, if_pos hs, atomicWithCoherency, update_self, hone]

omit hi

/-- No copy is missed. If no leaving head makes the directory forget a copy, a write or atomic leaves its head the
only holder. -/
theorem writes_leave_no_copy (ops : List HeadOp) (hops : AllSteps step NoCopyForgotten start ops) :
    AllSteps step LeavesNoOther start ops := by
  refine Core.allSteps_of_inv (P := Inv) (fun h o hi ho => step_inv hi o ho) (fun h o hi _ => ?_) inv_start hops
  cases o with
  | write head addr ts => exact leavesAlone hi (Or.inl rfl)
  | atomic head addr ts => exact leavesAlone hi (Or.inr rfl)
  | _ => trivial

theorem writes_leave_no_copy_mixed :
    let ops : List HeadOp := [.activateHead 1 0, .deactivateHead 1, .activateHead 1 128, .activateHead 2 0,
      .read 1 0 1, .read 2 0 1, .write 2 0 2, .writeback 0 2, .atomic 1 0 3, .releasePool 1 0 64, .write 2 0 4]
    AllSteps step NoCopyForgotten start ops ∧ AllSteps step LeavesNoOther start ops :=
  have h : AllSteps step NoCopyForgotten start [.activateHead 1 0, .deactivateHead 1, .activateHead 1 128,
      .activateHead 2 0, .read 1 0 1, .read 2 0 1, .write 2 0 2, .writeback 0 2, .atomic 1 0 3, .releasePool 1 0 64,
      .write 2 0 4] := by
    refine ⟨trivial, fun _ line info hinfo => ?_, trivial, trivial, trivial, trivial, trivial, ?_, trivial, ?_, trivial,
      trivial⟩
    · -- no line has an entry yet
      cases hinfo
    · exact @of_decide_eq_true _ (decidableWriteback _ 0 2) (by decide +kernel)
    · exact @of_decide_eq_true _ (decidableReleased _ 1 0 64) (by decide +kernel)
  ⟨h, writes_leave_no_copy _ h⟩

end CxlMemSim.Coherency.Heads
