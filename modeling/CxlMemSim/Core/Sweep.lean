/-
A sweep over a vector that removes what it charges: if a position is close to the next, the first of the two is
overwritten by the last element, which is popped. This brings the largest element of a sorted list to the front, so
close pairs are charged once each only if the elements removed are at the end.
-/
import Mathlib

namespace CxlMemSim.Core

open List

variable {α σ : Type*}

variable (close : α → α → Bool)

def closePairs (l : List α) : List (α × α) := (l.zip l.tail).filter fun p => close p.1 p.2

def sweepFuel (close : α → α → Bool) (charge : σ → α → α → σ) : ℕ → σ → List α → σ × List α
  | fuel + 1, st, x :: y :: rest =>
    if close x y then
      sweepFuel close charge fuel (charge st x y) ((y :: rest).getLast (cons_ne_nil y rest) :: (y :: rest).dropLast)
    else
      let r := sweepFuel close charge fuel st (y :: rest)
      (r.1, x :: r.2)
  | _, st, l => (st, l)

def sweepWith (charge : σ → α → α → σ) (st : σ) (l : List α) : σ × List α := sweepFuel close charge l.length st l

section Equations

variable {close : α → α → Bool} (charge : σ → α → α → σ)

lemma sweepWith_nil (st : σ) : sweepWith close charge st [] = (st, []) := rfl

lemma sweepWith_single (st : σ) (x : α) : sweepWith close charge st [x] = (st, [x]) := rfl

lemma sweepWith_far {x y : α} (h : close x y = false) (st : σ) (rest : List α) :
    sweepWith close charge st (x :: y :: rest) =
      ((sweepWith close charge st (y :: rest)).1, x :: (sweepWith close charge st (y :: rest)).2) := by
  simp [sweepWith, sweepFuel, h]

lemma sweepWith_close_nil {x y : α} (h : close x y = true) (st : σ) :
    sweepWith close charge st [x, y] = (charge st x y, [y]) := by
  simp [sweepWith, sweepFuel, h]

lemma sweepWith_close {x y : α} (h : close x y = true) (st : σ) (zs : List α) (z : α) :
    sweepWith close charge st (x :: y :: (zs ++ [z])) = sweepWith close charge (charge st x y) (z :: y :: zs) := by
  have hlast : (y :: (zs ++ [z])).getLast (cons_ne_nil _ _) = z := by simp
  have hdrop : (y :: (zs ++ [z])).dropLast = y :: zs := by rw [← cons_append, dropLast_concat]
  simp only [sweepWith, length_cons, length_append, length_nil]
  rw [sweepFuel, if_pos h, hlast, hdrop]

end Equations

lemma sweep_induction (close : α → α → Bool) {P : List α → Prop} (nil : P []) (single : ∀ x, P [x])
    (far : ∀ x y rest, close x y = false → P (y :: rest) → P (x :: y :: rest))
    (closeNil : ∀ x y, close x y = true → P [x, y])
    (closeConcat : ∀ x y zs z, close x y = true → P (z :: y :: zs) → P (y :: zs) → P (x :: y :: (zs ++ [z])))
    (l : List α) : P l := by
  induction hn : l.length using Nat.strong_induction_on generalizing l with
  | _ n ih =>
    match l, hn with
    | [], _ => exact nil
    | [x], _ => exact single x
    | x :: y :: rest, hn =>
      simp only [length_cons] at hn
      cases hclose : close x y with
      | false => exact far x y rest hclose (ih (rest.length + 1) (by omega) (y :: rest) rfl)
      | true =>
        rcases eq_nil_or_concat rest with rfl | ⟨zs, z, rfl⟩
        · exact closeNil x y hclose
        · rw [concat_eq_append] at hn ⊢
          simp only [length_append, length_cons, length_nil] at hn
          exact closeConcat x y zs z hclose (ih (zs.length + 2) (by omega) _ rfl)
            (ih (zs.length + 1) (by omega) _ rfl)

def collect (acc : List (α × α)) (x y : α) : List (α × α) := acc ++ [(x, y)]

def charged (l : List α) : List (α × α) := (sweepWith close collect [] l).1

def swept (l : List α) : List α := (sweepWith close collect [] l).2

section Charges

variable {close : α → α → Bool}

section

variable (charge : σ → α → α → σ) (st : σ)

lemma sweepWith_collect (acc : List (α × α)) (l : List α) :
    sweepWith close charge (acc.foldl (fun st p => charge st p.1 p.2) st) l =
      ((sweepWith close collect acc l).1.foldl (fun st p => charge st p.1 p.2) st, (sweepWith close collect acc l).2) := by
  induction l using sweep_induction close generalizing acc with
  | nil | single x => rfl
  | far x y rest h ih => rw [sweepWith_far _ h, sweepWith_far _ h, ih]
  | closeNil x y h =>
    rw [sweepWith_close_nil _ h, sweepWith_close_nil _ h]
    simp [collect]
  | closeConcat x y zs z h ih _ =>
    have hmore := ih (collect acc x y)
    rw [collect, foldl_append] at hmore
    rw [sweepWith_close _ h, sweepWith_close _ h]
    exact hmore

lemma sweepWith_snd (l : List α) : (sweepWith close charge st l).2 = swept close l :=
  congrArg Prod.snd (sweepWith_collect charge st [] l)

/-- The charged pairs say all that is counted. -/
lemma sweepWith_fst (l : List α) :
    (sweepWith close charge st l).1 = (charged close l).foldl (fun st p => charge st p.1 p.2) st :=
  congrArg Prod.fst (sweepWith_collect charge st [] l)

end

variable {x y : α} {l : List α} {p : α × α}

lemma charged_far (h : close x y = false) (rest : List α) :
    charged close (x :: y :: rest) = charged close (y :: rest) := by
  rw [charged, sweepWith_far _ h]
  rfl

lemma swept_far (h : close x y = false) (rest : List α) :
    swept close (x :: y :: rest) = x :: swept close (y :: rest) := by
  rw [swept, sweepWith_far _ h]
  rfl

section

variable (h : close x y = true)
include h

lemma charged_close_nil : charged close [x, y] = [(x, y)] := by
  rw [charged, sweepWith_close_nil _ h]
  rfl

lemma swept_close_nil : swept close [x, y] = [y] := by rw [swept, sweepWith_close_nil _ h]

lemma charged_close (zs : List α) (z : α) :
    charged close (x :: y :: (zs ++ [z])) = (x, y) :: charged close (z :: y :: zs) := by
  rw [charged, sweepWith_close _ h, sweepWith_fst]
  have hcollect : ∀ (l acc : List (α × α)), l.foldl (fun st p => collect st p.1 p.2) acc = acc ++ l := by
    intro l
    induction l with
    | nil => simp
    | cons p l ih =>
      intro acc
      rw [foldl_cons, ih, collect, append_assoc]
      rfl
  rw [hcollect]
  rfl

lemma swept_close (zs : List α) (z : α) : swept close (x :: y :: (zs ++ [z])) = swept close (z :: y :: zs) := by
  rw [swept, sweepWith_close _ h, sweepWith_snd]

end

/-- What is left was there. -/
lemma swept_subperm (l : List α) : (swept close l).Subperm l := by
  induction l using sweep_induction close with
  | nil => exact List.Subperm.refl []
  | single x => exact List.Subperm.refl [x]
  | far x y rest h ih =>
    rw [swept_far h]
    exact (subperm_cons x).mpr ih
  | closeNil x y h =>
    rw [swept_close_nil h]
    exact (sublist_cons_self x [y]).subperm
  | closeConcat x y zs z h ih _ =>
    rw [swept_close h]
    refine ih.trans ?_
    have hperm : (z :: y :: zs).Perm (y :: (zs ++ [z])) := (perm_append_singleton z (y :: zs)).symm
    exact hperm.subperm.trans (sublist_cons_self x _).subperm

lemma swept_ne_nil (close : α → α → Bool) (x : α) (l : List α) : swept close (x :: l) ≠ [] := by
  have hne : ∀ l : List α, l ≠ [] → swept close l ≠ [] := by
    intro l
    induction l using sweep_induction close with
    | nil => exact fun h => absurd rfl h
    | single x => exact fun _ => cons_ne_nil x []
    | far x y rest h ih => exact fun _ => by rw [swept_far h]; exact cons_ne_nil _ _
    | closeNil x y h => exact fun _ => by rw [swept_close_nil h]; exact cons_ne_nil _ _
    | closeConcat x y zs z h ih _ => exact fun _ => by rw [swept_close h]; exact ih (cons_ne_nil _ _)
  exact hne _ (cons_ne_nil x l)

/-! ## Close neighbours -/

lemma closePairs_cons (x y : α) (rest : List α) : closePairs close (x :: y :: rest) =
      (if close x y then [(x, y)] else []) ++ closePairs close (y :: rest) := by
  cases h : close x y <;> simp [closePairs, h]

lemma closePairs_concat (l : List α) (a b : α) :
    closePairs close (l ++ [a, b]) = closePairs close (l ++ [a]) ++ (if close a b then [(a, b)] else []) := by
  induction l with
  | nil => cases h : close a b <;> simp [closePairs, h]
  | cons x l ih =>
    cases l with
    | nil =>
      simp only [nil_append, cons_append] at ih ⊢
      rw [closePairs_cons, ih, closePairs_cons x a []]
      simp [closePairs]
    | cons y l =>
      simp only [cons_append] at ih ⊢
      rw [closePairs_cons, ih, closePairs_cons x y (l ++ [a]), append_assoc]

lemma closePairs_snoc {ws : List α} {a : α} (hl : l = ws ++ [a]) (b : α) :
    closePairs close (l ++ [b]) = closePairs close l ++ (if close a b then [(a, b)] else []) := by
  rw [hl, append_assoc]
  exact closePairs_concat ws a b

lemma mem_charged_of_close (h : close x y = true) (rest : List α) : (x, y) ∈ charged close (x :: y :: rest) := by
  rcases eq_nil_or_concat rest with rfl | ⟨zs, z, rfl⟩
  · rw [charged_close_nil h]
    exact mem_cons_self
  · rw [concat_eq_append, charged_close h]
    exact mem_cons_self

lemma le_of_mem_closePairs {le : α → α → Prop} (hl : l.Pairwise le) (hp : p ∈ closePairs close l) : le p.1 p.2 := by
  induction l with
  | nil => simp [closePairs] at hp
  | cons x l ih =>
    rw [pairwise_cons] at hl
    cases l with
    | nil => simp [closePairs] at hp
    | cons y rest =>
      rw [closePairs_cons, mem_append] at hp
      rcases hp with hp | hp
      · split_ifs at hp
        · rw [mem_singleton] at hp
          subst hp
          exact hl.1 y mem_cons_self
        · cases hp
      · exact ih hl.2 hp

lemma snd_mem_of_mem_closePairs (hp : p ∈ closePairs close (x :: l)) : p.2 ∈ l :=
  (of_mem_zip (List.mem_filter.mp hp).1).2

lemma charged_replicate (hrefl : ∀ a, close a a = true) (a : α) (k : ℕ) :
    charged close (List.replicate (k + 1) a) = List.replicate k (a, a) ∧
      swept close (List.replicate (k + 1) a) = [a] := by
  induction k with
  | zero => exact ⟨rfl, rfl⟩
  | succ k ih =>
    cases k with
    | zero => exact ⟨charged_close_nil (hrefl a), swept_close_nil (hrefl a)⟩
    | succ k =>
      have hlist : List.replicate (k + 3) a = a :: a :: (List.replicate k a ++ [a]) := by
        rw [replicate_succ, replicate_succ, replicate_succ']
      rw [hlist, charged_close (hrefl a), swept_close (hrefl a)]
      exact ⟨by rw [replicate_succ (n := k + 1)]; exact congrArg _ ih.1, ih.2⟩

lemma closePairs_replicate (hrefl : ∀ a, close a a = true) (a : α) (k : ℕ) :
    closePairs close (List.replicate (k + 1) a) = List.replicate k (a, a) := by
  induction k with
  | zero => rfl
  | succ k ih =>
    rw [replicate_succ, replicate_succ, closePairs_cons, if_pos (hrefl a), ← replicate_succ, ih]
    rfl

/-! ## Sorted lists -/

section Sorted

variable {le : α → α → Prop} {zs : List α}

lemma eq_replicate_of_sorted [Std.Antisymm le] (h : (y :: (zs ++ [y])).Pairwise le) :
    zs = List.replicate zs.length y := by
  refine List.eq_replicate_iff.mpr ⟨rfl, fun z hz => ?_⟩
  rw [pairwise_cons, pairwise_append] at h
  exact Std.Antisymm.antisymm z y (h.2.2.2 z hz y mem_cons_self) (h.1 z (mem_append_left _ hz))

lemma charged_close_const [Std.Antisymm le] (hrefl : ∀ a, close a a = true) (h : close x y = true)
    (hl : (y :: (zs ++ [y])).Pairwise le) :
    charged close (x :: y :: (zs ++ [y])) = closePairs close (x :: y :: (zs ++ [y])) ∧
      swept close (x :: y :: (zs ++ [y])) = [y] := by
  have hzs := eq_replicate_of_sorted hl
  have hmoved : y :: y :: zs = List.replicate (zs.length + 1 + 1) y := by rw [replicate_succ, replicate_succ, ← hzs]
  have htail : y :: (zs ++ [y]) = List.replicate (zs.length + 1 + 1) y := by rw [replicate_succ, replicate_succ', ← hzs]
  obtain ⟨hcharged, hswept⟩ := charged_replicate hrefl y (zs.length + 1)
  rw [charged_close h, swept_close h, closePairs_cons, if_pos h, hmoved, htail, hcharged, hswept,
    closePairs_replicate hrefl]
  exact ⟨rfl, rfl⟩

lemma length_charged_le [Std.Antisymm le] (hrefl : ∀ a, close a a = true) (hl : l.Pairwise le) :
    (∃ p ∈ charged close l, ¬ le p.1 p.2) ∨ (charged close l).length ≤ (closePairs close l).length := by
  induction l using sweep_induction close with
  | nil => exact .inr le_rfl
  | single x => exact .inr (Nat.zero_le _)
  | far x y rest h ih =>
    rw [charged_far h, closePairs_cons, h]
    exact ih (List.pairwise_cons.mp hl).2
  | closeNil x y h =>
    rw [charged_close_nil h, closePairs_cons, if_pos h]
    exact .inr (by simp)
  | closeConcat x y zs z h _ ih =>
    have hrest : (y :: (zs ++ [z])).Pairwise le := (List.pairwise_cons.mp hl).2
    by_cases hyz : y = z
    · -- all that follows is one value
      subst hyz
      exact .inr (congrArg List.length (charged_close_const hrefl h hrest).1).le
    · have hle : le y z := (List.pairwise_cons.mp hrest).1 z (mem_append_right _ mem_cons_self)
      rw [charged_close h, closePairs_cons, if_pos h]
      cases hback : close z y with
      | true =>
        -- the last element, brought in front of a smaller one, is charged with it
        refine .inl ⟨(z, y), mem_cons_of_mem _ (mem_charged_of_close hback zs), fun hge => ?_⟩
        exact hyz (Std.Antisymm.antisymm y z hle hge)
      | false =>
        rw [charged_far hback]
        obtain ⟨ws, a, hlast⟩ := eq_nil_or_concat (y :: zs) |>.resolve_left (cons_ne_nil y zs)
        rw [concat_eq_append] at hlast
        rw [← cons_append, closePairs_snoc hlast]
        rcases ih (hrest.sublist (List.cons_sublist_cons.mpr (sublist_append_left zs [z]))) with
          ⟨p, hp, hbad⟩ | hlen
        · exact .inl ⟨p, mem_cons_of_mem _ hp, hbad⟩
        · refine .inr ?_
          simp only [length_append, length_cons, length_nil]
          omega

def SweepExact (close : α → α → Bool) (le : α → α → Prop) (l : List α) : Prop :=
  (charged close l : Multiset (α × α)) = closePairs close l ∧ (swept close l).Pairwise le

lemma not_sweepExact [Std.Antisymm le] (hrefl : ∀ a, close a a = true) {z : α} (h : close x y = true)
    (hl : (x :: y :: (zs ++ [z])).Pairwise le) (hyz : y ≠ z) :
    ¬ SweepExact close le (x :: y :: (zs ++ [z])) := by
  rintro ⟨hpairs, hleft⟩
  have hrest : (y :: (zs ++ [z])).Pairwise le := (List.pairwise_cons.mp hl).2
  have hle : ∀ w ∈ y :: zs, le w z := fun w hw =>
    (List.pairwise_append.mp (cons_append ▸ hrest)).2.2 w hw z mem_cons_self
  -- a charged pair is one of the neighbours, hence in order
  have hordered : ∀ p ∈ charged close (x :: y :: (zs ++ [z])), le p.1 p.2 := fun p hp =>
    le_of_mem_closePairs hl (show p ∈ closePairs close (x :: y :: (zs ++ [z])) by
      rw [← Multiset.mem_coe, ← hpairs]
      exact hp)
  have hlength : (charged close (x :: y :: (zs ++ [z]))).length = (closePairs close (x :: y :: (zs ++ [z]))).length := by
    simpa using congrArg Multiset.card hpairs
  rw [charged_close h] at hordered hlength
  rw [swept_close h] at hleft
  have hback : close z y = false := by
    refine Bool.eq_false_iff.mpr fun hback => hyz ?_
    exact Std.Antisymm.antisymm y z (hle y mem_cons_self)
      (hordered (z, y) (mem_cons_of_mem _ (mem_charged_of_close hback zs)))
  rw [charged_far hback] at hordered hlength
  rw [swept_far hback] at hleft
  obtain ⟨ws, a, hlast⟩ := eq_nil_or_concat (y :: zs) |>.resolve_left (cons_ne_nil y zs)
  rw [concat_eq_append] at hlast
  have hsorted : (y :: zs).Pairwise le := hrest.sublist (List.cons_sublist_cons.mpr (sublist_append_left zs [z]))
  -- so the last pair is not close, and the elements after the last one are smaller
  have hfar : close a z = false := by
    refine Bool.eq_false_iff.mpr fun hclose => ?_
    rcases length_charged_le hrefl hsorted with ⟨p, hp, hbad⟩ | hcount
    · exact hbad (hordered p (mem_cons_of_mem _ hp))
    · rw [closePairs_cons, if_pos h, ← cons_append, closePairs_snoc hlast, if_pos hclose] at hlength
      simp only [length_append, length_cons, length_nil] at hlength
      omega
  have haz : a ≠ z := by
    rintro rfl
    rw [hrefl a] at hfar
    cases hfar
  have hmem : ∀ w ∈ y :: zs, w ≠ z := by
    rintro w hw rfl
    have ha : a ∈ y :: zs := by rw [hlast]; exact mem_append_right _ mem_cons_self
    rw [hlast] at hw hsorted
    rcases List.mem_append.mp hw with hw | hw
    · exact haz (Std.Antisymm.antisymm a w (hle a ha)
        ((List.pairwise_append.mp hsorted).2.2 w hw a mem_cons_self))
    · exact haz (List.mem_singleton.mp hw).symm
  obtain ⟨w, rest, hw⟩ := exists_cons_of_ne_nil (swept_ne_nil close y zs)
  have hwmem : w ∈ y :: zs := (swept_subperm (y :: zs)).subset (hw ▸ mem_cons_self)
  have hzw : le z w := (List.pairwise_cons.mp hleft).1 w (hw ▸ mem_cons_self)
  exact hmem w hwmem (Std.Antisymm.antisymm w z (hle w hwmem) hzw)

/-- The sweep is exact exactly if every close pair of neighbours ends with the last element. -/
lemma sweep_exact_iff [Std.Antisymm le] (hrefl : ∀ a, close a a = true) (hl : l.Pairwise le) :
    SweepExact close le l ↔ ∀ p ∈ closePairs close l, l.getLast? = some p.2 := by
  induction l using sweep_induction close with
  | nil => simp [SweepExact, closePairs, charged, swept, sweepWith_nil]
  | single x => simp [SweepExact, closePairs, charged, swept, sweepWith_single]
  | far x y rest h ih =>
    rw [pairwise_cons] at hl
    have hkept : (x :: swept close (y :: rest)).Pairwise le ↔ (swept close (y :: rest)).Pairwise le := by
      rw [pairwise_cons]
      exact and_iff_right fun w hw => hl.1 w ((swept_subperm (y :: rest)).subset hw)
    have hpairs : closePairs close (x :: y :: rest) = closePairs close (y :: rest) := by
      rw [closePairs_cons, h]
      rfl
    rw [SweepExact, charged_far h, swept_far h, hkept, hpairs, getLast?_cons_cons]
    exact ih hl.2
  | closeNil x y h =>
    rw [SweepExact, charged_close_nil h, swept_close_nil h, closePairs_cons, if_pos h]
    simp [closePairs]
  | closeConcat x y zs z h _ _ =>
    have hlast : (x :: y :: (zs ++ [z])).getLast? = some z := by rw [← cons_append, ← cons_append, getLast?_concat]
    by_cases hyz : y = z
    · -- all that follows is one value
      subst hyz
      have hrest := (List.pairwise_cons.mp hl).2
      obtain ⟨hcharged, hswept⟩ := charged_close_const hrefl h hrest
      refine iff_of_true ⟨congrArg _ hcharged, by rw [hswept]; exact pairwise_singleton le y⟩ fun p hp => ?_
      have hmem : p.2 ∈ y :: (zs ++ [y]) := snd_mem_of_mem_closePairs hp
      rw [eq_replicate_of_sorted hrest] at hmem
      rw [hlast]
      rcases List.mem_cons.mp hmem with heq | hmem
      · rw [heq]
      · rcases List.mem_append.mp hmem with hmem | hmem
        · rw [eq_of_mem_replicate hmem]
        · rw [List.mem_singleton.mp hmem]
    · refine iff_of_false (not_sweepExact hrefl h hl hyz) fun hall => hyz ?_
      have hpair : (x, y) ∈ closePairs close (x :: y :: (zs ++ [z])) := by
        rw [closePairs_cons, if_pos h]
        exact mem_append_left _ mem_cons_self
      have hend := hall (x, y) hpair
      rw [hlast] at hend
      exact (Option.some.inj hend).symm

end Sorted

end Charges

end CxlMemSim.Core
