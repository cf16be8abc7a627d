/-
Bandwidth shares of the heads of `CoherencyEngine`. A deactivation clears its own share and leaves the others too small
until the next activation (`stale_after_deactivation`).

Model: for each head whether it is active, and its share as a rational.
-/
import CxlMemSim.Core.Run

namespace CxlMemSim.Coherency.Shares

open List Function
open CxlMemSim.Core

/-! ## Model -/

structure Head where
  active : Bool
  bandwidthShare : ℚ
deriving DecidableEq

variable {n : ℕ}

def newHeads (n : ℕ) : Fin n → Head := fun _ => ⟨false, 0⟩

variable (hs : Fin n → Head)

def activeHeads : Finset (Fin n) := Finset.univ.filter fun i => (hs i).active

def rebalance : Fin n → Head := fun i =>
  if (hs i).active then { hs i with bandwidthShare := 1 / (activeHeads hs).card } else hs i

def activateHead (head : UInt32) : Fin n → Head :=
  if h : head.toNat < n then
    rebalance (update hs ⟨head.toNat, h⟩ { hs ⟨head.toNat, h⟩ with active := true })
  else hs

def deactivateHead (head : UInt32) : Fin n → Head :=
  if h : head.toNat < n then update hs ⟨head.toNat, h⟩ ⟨false, 0⟩ else hs

inductive Op where
  | activateHead (head : UInt32)
  | deactivateHead (head : UInt32)
deriving DecidableEq, Repr

def step : Op → Fin n → Head
  | .activateHead head => Shares.activateHead hs head
  | .deactivateHead head => Shares.deactivateHead hs head

def isActive (head : UInt32) : Prop := ∃ i ∈ activeHeads hs, i.val = head.toNat

/-- every active head has one over their number, every other head nothing -/
structure Fair (hs : Fin n → Head) : Prop where
  share : ∀ i, (hs i).bandwidthShare = if (hs i).active then 1 / ((activeHeads hs).card : ℚ) else 0
  total : (activeHeads hs).Nonempty → ∑ i, (hs i).bandwidthShare = 1

def Accepted (n : ℕ) : Op → Prop
  | .activateHead head => head.toNat < n
  | .deactivateHead _ => False

def Unsettled (n : ℕ) (ops : List Op) : Prop :=
  ∃ before head after, ops = before ++ .deactivateHead head :: after ∧ isActive (run step (newHeads n) before) head ∧
    ∀ o ∈ after, ¬ Accepted n o

/-- Stale shares. Of two active heads one is deactivated; the other keeps one half. -/
theorem stale_after_deactivation :
    let hs := run step (newHeads 4) [.activateHead 0, .activateHead 1, .deactivateHead 0]
    (activeHeads hs).card = 1 ∧ (hs ⟨1, by decide⟩).active = true ∧ (hs ⟨1, by decide⟩).bandwidthShare = 1 / 2 := by
  decide +kernel

/-! ## Counting active heads -/

variable {hs : Fin n → Head} {k : ℕ} {ops : List Op}

@[simp] lemma mem_activeHeads {i : Fin n} : i ∈ activeHeads hs ↔ (hs i).active = true := by simp [activeHeads]

lemma activeHeads_rebalance (hs : Fin n → Head) : activeHeads (rebalance hs) = activeHeads hs := by
  ext i
  simp only [mem_activeHeads, rebalance]
  split_ifs <;> rfl

lemma activeHeads_update_false (hs : Fin n → Head) (j : Fin n) :
    activeHeads (update hs j ⟨false, 0⟩) = (activeHeads hs).erase j := by
  ext i
  by_cases hi : i = j
  · simp [hi]
  · simp [hi]

lemma sum_shares {q : ℚ} (h : ∀ i, (hs i).bandwidthShare = if (hs i).active then q else 0) :
    ∑ i, (hs i).bandwidthShare = (activeHeads hs).card * q := by
  calc ∑ i, (hs i).bandwidthShare = ∑ i, if (hs i).active then q else 0 := Finset.sum_congr rfl fun i _ => h i
    _ = ∑ i ∈ activeHeads hs, q := (Finset.sum_filter _ _).symm
    _ = (activeHeads hs).card * q := by rw [Finset.sum_const, nsmul_eq_mul]

lemma fair_of_share
    (h : ∀ i, (hs i).bandwidthShare = if (hs i).active then 1 / ((activeHeads hs).card : ℚ) else 0) : Fair hs := by
  refine ⟨h, fun hne => ?_⟩
  have hcard : ((activeHeads hs).card : ℚ) ≠ 0 := Nat.cast_ne_zero.2 (Finset.card_pos.2 hne).ne'
  rw [sum_shares h]
  exact mul_one_div_cancel hcard

lemma Fair.eq_of_active {hs' : Fin n → Head} (h : Fair hs) (h' : Fair hs')
    (hact : activeHeads hs = activeHeads hs') (i : Fin n) : (hs i).bandwidthShare = (hs' i).bandwidthShare := by
  have hi : (hs i).active = (hs' i).active := by rw [Bool.eq_iff_iff, ← mem_activeHeads, ← mem_activeHeads, hact]
  rw [h.share, h'.share, hi, hact]

/-! ## What the shares remember -/

structure Inv (k : ℕ) (hs : Fin n → Head) : Prop where
  share : ∀ i, (hs i).bandwidthShare = if (hs i).active then 1 / (k : ℚ) else 0
  card_le : (activeHeads hs).card ≤ k

lemma Inv.all_shares_iff (h : Inv k hs) : Fair hs ↔ activeHeads hs = ∅ ∨ (activeHeads hs).card = k := by
  constructor
  · intro hf
    by_cases hne : activeHeads hs = ∅
    · exact Or.inl hne
    · right
      obtain ⟨i, hi⟩ := Finset.nonempty_iff_ne_empty.2 hne
      have heq := (hf.share i).symm.trans (h.share i)
      rw [if_pos (mem_activeHeads.1 hi), if_pos (mem_activeHeads.1 hi), one_div, one_div, inv_inj] at heq
      exact Nat.cast_injective heq
  · rintro (hempty | hcard)
    · refine fair_of_share fun i => ?_
      have hi : (hs i).active ≠ true := fun hc => by simpa [hempty] using mem_activeHeads.2 hc
      rw [h.share, if_neg hi, if_neg hi]
    · exact fair_of_share fun i => by rw [h.share, hcard]

lemma inv_activateHead (h : Inv k hs) {head : UInt32} (hlt : head.toNat < n) :
    Inv (activeHeads (activateHead hs head)).card (activateHead hs head) := by
  have hcard : activeHeads (activateHead hs head) =
      activeHeads (update hs ⟨head.toNat, hlt⟩ { hs ⟨head.toNat, hlt⟩ with active := true }) := by
    rw [activateHead, dif_pos hlt, activeHeads_rebalance]
  refine ⟨fun i => ?_, le_rfl⟩
  rw [hcard, activateHead, dif_pos hlt]
  unfold rebalance
  split_ifs with hact
  · rfl
  · -- an inactive head is untouched
    have hne : i ≠ ⟨head.toNat, hlt⟩ := fun hi => hact (by rw [hi, update_self])
    rw [update_of_ne hne] at hact ⊢
    rw [h.share, if_neg hact]

lemma inv_deactivateHead (h : Inv k hs) (head : UInt32) : Inv k (deactivateHead hs head) := by
  unfold deactivateHead
  split_ifs with hlt
  · refine ⟨fun i => ?_, ?_⟩
    · by_cases hi : i = ⟨head.toNat, hlt⟩
      · simp [hi]
      · simpa [hi] using h.share i
    · rw [activeHeads_update_false]
      exact (Finset.card_le_card (Finset.erase_subset _ _)).trans h.card_le
  · exact h

lemma card_deactivateHead (hs : Fin n → Head) (head : UInt32) :
    (isActive hs head → (activeHeads (deactivateHead hs head)).card + 1 = (activeHeads hs).card) ∧
      (¬ isActive hs head → activeHeads (deactivateHead hs head) = activeHeads hs) := by
  constructor
  · rintro ⟨i, hi, hval⟩
    have hlt : head.toNat < n := hval ▸ i.isLt
    have hj : (⟨head.toNat, hlt⟩ : Fin n) = i := Fin.ext hval.symm
    rw [deactivateHead, dif_pos hlt, activeHeads_update_false, hj]
    exact Finset.card_erase_add_one hi
  · intro hno
    unfold deactivateHead
    split_ifs with hlt
    · rw [activeHeads_update_false]
      exact Finset.erase_eq_of_notMem fun hmem => hno ⟨_, hmem, rfl⟩
    · rfl

lemma not_unsettled_nil : ¬ Unsettled n [] := by
  rintro ⟨before, head, after, heq, -⟩
  simp at heq

lemma not_unsettled_of_accepted {o : Op} (ho : Accepted n o) : ¬ Unsettled n (ops ++ [o]) := by
  rintro ⟨before, head, after, heq, -, hnone⟩
  rcases eq_nil_or_concat' after with rfl | ⟨after', o', rfl⟩
  · have hlast := (append_inj' heq rfl).2
    obtain rfl := List.singleton_inj.1 hlast
    exact ho
  · rw [← cons_append, ← append_assoc] at heq
    obtain rfl := List.singleton_inj.1 (append_inj' heq rfl).2
    exact hnone o (by simp) ho

lemma unsettled_snoc {o : Op} (ho : ¬ Accepted n o) : Unsettled n (ops ++ [o]) ↔
      Unsettled n ops ∨ ∃ head, o = .deactivateHead head ∧ isActive (run step (newHeads n) ops) head := by
  constructor
  · rintro ⟨before, head, after, heq, hact, hnone⟩
    rcases eq_nil_or_concat' after with rfl | ⟨after', o', rfl⟩
    · obtain ⟨rfl, hlast⟩ := append_inj' heq rfl
      exact Or.inr ⟨head, List.singleton_inj.1 hlast, hact⟩
    · rw [← cons_append, ← append_assoc] at heq
      obtain ⟨rfl, -⟩ := append_inj' heq rfl
      exact Or.inl ⟨before, head, after', rfl, hact, fun x hx => hnone x (mem_append_left _ hx)⟩
  · rintro (⟨before, head, after, rfl, hact, hnone⟩ | ⟨head, rfl, hact⟩)
    · refine ⟨before, head, after ++ [o], by simp, hact, fun x hx => ?_⟩
      rcases List.mem_append.1 hx with hx | hx
      · exact hnone x hx
      · exact List.mem_singleton.1 hx ▸ ho
    · exact ⟨ops, head, [], rfl, hact, fun _ hx => absurd hx not_mem_nil⟩

/-- The shares are those of the last activation, after which the active heads of an unsettled run have changed. -/
lemma run_inv (n : ℕ) (ops : List Op) : ∃ k, Inv k (run step (newHeads n) ops) ∧
      ((activeHeads (run step (newHeads n) ops)).card = k ↔ ¬ Unsettled n ops) := by
  induction ops using List.reverseRecOn with
  | nil =>
    refine ⟨0, ⟨fun i => rfl, ?_⟩, iff_of_true ?_ not_unsettled_nil⟩
    · simp [activeHeads, newHeads]
    · simp [activeHeads, newHeads]
  | append_singleton ops o ih =>
    obtain ⟨k, hinv, hk⟩ := ih
    have hle := hinv.card_le
    rw [run_snoc]
    cases o with
    | activateHead head =>
      by_cases hlt : head.toNat < n
      · exact ⟨_, inv_activateHead hinv hlt, iff_of_true rfl (not_unsettled_of_accepted hlt)⟩
      · -- refused
        have hsame : step (run step (newHeads n) ops) (.activateHead head) = run step (newHeads n) ops := dif_neg hlt
        have hno : ¬ Accepted n (.activateHead head) := hlt
        rw [hsame, unsettled_snoc hno]
        exact ⟨k, hinv, by simpa using hk⟩
    | deactivateHead head =>
      refine ⟨k, inv_deactivateHead hinv head, ?_⟩
      have hcard := card_deactivateHead (run step (newHeads n) ops) head
      have hno : ¬ Accepted n (.deactivateHead head) := fun h => h
      rw [unsettled_snoc hno]
      by_cases hact : isActive (run step (newHeads n) ops) head
      · have hless := hcard.1 hact
        refine iff_of_false (fun heq => ?_) (not_not.2 (Or.inr ⟨head, rfl, hact⟩))
        have heq' : (activeHeads (deactivateHead (run step (newHeads n) ops) head)).card = k := heq
        omega
      · have hsame : activeHeads (step (run step (newHeads n) ops) (.deactivateHead head)) =
            activeHeads (run step (newHeads n) ops) := hcard.2 hact
        have hnone : ¬ ∃ h, Op.deactivateHead head = .deactivateHead h ∧ isActive (run step (newHeads n) ops) h := by
          rintro ⟨h, heq, hh⟩
          cases heq
          exact hact hh
        rw [hsame, or_iff_left hnone]
        exact hk

/-- The shares are fair exactly when no head is active, or no deactivation came after the last activation. -/
theorem fair_iff (n : ℕ) (ops : List Op) : Fair (run step (newHeads n) ops) ↔
      activeHeads (run step (newHeads n) ops) = ∅ ∨ ¬ Unsettled n ops := by
  obtain ⟨k, hinv, hk⟩ := run_inv n ops
  rw [hinv.all_shares_iff, hk]

end CxlMemSim.Coherency.Shares
