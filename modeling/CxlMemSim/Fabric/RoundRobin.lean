/-
Interleaved allocation (`InterleavePolicy::compute_once`): local memory below its threshold, above it the expanders in
turn, each as often as its weight. The search jumps back with `goto` when the expander found is full: a round costs one
unit of fuel, and a run without fuel has not returned.
-/
import CxlMemSim.Fabric.Controller

namespace CxlMemSim.RoundRobin

open List
open Controller (PageType)

structure Memory where
  entries : ℕ
  capacity : UInt64
deriving DecidableEq, Repr

structure View where
  pageType : PageType
  entries : ℕ
  threshold : ℚ
  curExpanders : List Memory
  /-- the shares of the inverse write latencies, times 10, cut to integers -/
  weights : List ℕ
  weights_length : weights.length = curExpanders.length

def View.megabytes (v : View) (entries : ℕ) : UInt64 := UInt64.ofNat entries * v.pageType.perSize / 1024 / 1024

def View.Above (v : View) : Prop := ¬ ((v.megabytes v.entries).toNat : ℚ) < v.threshold

instance (v : View) : Decidable v.Above := inferInstanceAs (Decidable (¬ _))

def View.Free (v : View) (e : Memory) : Prop := v.megabytes e.entries < e.capacity

instance (v : View) (e : Memory) : Decidable (v.Free e) := inferInstanceAs (Decidable (_ < _))

structure InterleavePolicy where
  lastRemote : ℕ
  percentage : List ℕ

def InterleavePolicy.allSize (p : InterleavePolicy) : ℕ := p.percentage.sum

def InterleavePolicy.prepared (p : InterleavePolicy) (v : View) : InterleavePolicy :=
  if p.percentage.isEmpty then { p with percentage := v.weights } else p

def scan (last : ℕ) : List ℕ → ℕ → Option ℕ
  | [], _ => none
  | w :: ws, sum => if last < sum + w then some 0 else (scan last ws (sum + w)).map (· + 1)

def search (v : View) (p : InterleavePolicy) : ℕ → Option (InterleavePolicy × ℤ)
  | 0 => none
  | fuel + 1 =>
    if p.allSize = 0 then some (p, -1)
    else
      let p := { p with lastRemote := (p.lastRemote + 1) % p.allSize }
      match scan p.lastRemote p.percentage 0 with
      | none => none
      | some index =>
        match v.curExpanders[index]? with
        | none => none
        | some e => if v.Free e then some (p, index) else search v p fuel

def computeOnce (v : View) (p : InterleavePolicy) (fuel : ℕ) : Option (InterleavePolicy × ℤ) :=
  if v.Above then search v (p.prepared v) fuel else some (p, -1)

def Fits (v : View) (p : InterleavePolicy) : Prop := p.percentage.length ≤ v.curExpanders.length

lemma Fits.prepared {v : View} {p : InterleavePolicy} (h : Fits v p) : Fits v (p.prepared v) := by
  unfold InterleavePolicy.prepared
  split_ifs
  · exact v.weights_length.le
  · exact h

/-! ## The loop -/

variable {ws : List ℕ} {last : ℕ}

lemma scan_eq_some {sum i : ℕ} (hsum : sum ≤ last) : scan last ws sum = some i ↔
      i < ws.length ∧ sum + (ws.take i).sum ≤ last ∧ last < sum + (ws.take (i + 1)).sum := by
  induction ws generalizing sum i with
  | nil => simp [scan]
  | cons w ws ih =>
    unfold scan
    cases i with
    | zero =>
      split_ifs with h
      · simp [hsum, h]
      · simp [h]
    | succ i =>
      split_ifs with h
      · simp only [Option.some.injEq, reduceCtorEq, false_iff, take_succ_cons, sum_cons]
        omega
      · rw [Option.map_eq_some_iff]
        simp only [Nat.add_right_cancel_iff, exists_eq_right, ih (Nat.not_lt.mp h), length_cons,
          take_succ_cons, sum_cons, Nat.add_lt_add_iff_right, Nat.add_assoc]

lemma exists_scan {sum : ℕ} (hsum : sum ≤ last) (h : last < sum + ws.sum) : ∃ i, scan last ws sum = some i := by
  induction ws generalizing sum with
  | nil =>
    simp only [sum_nil] at h
    omega
  | cons w ws ih =>
    unfold scan
    split_ifs with hw
    · exact ⟨0, rfl⟩
    · obtain ⟨i, hi⟩ := ih (Nat.not_lt.mp hw) (by simpa [Nat.add_assoc] using h)
      exact ⟨i + 1, by rw [hi]; rfl⟩

lemma sum_take_succ {i w : ℕ} (h : ws[i]? = some w) : (ws.take (i + 1)).sum = (ws.take i).sum + w := by
  rw [take_add_one, h, sum_append]
  simp

section Search

variable {v : View} {p : InterleavePolicy}

lemma search_succ (hfits : Fits v p) (hsize : p.allSize ≠ 0) :
    ∃ i e w, scan ((p.lastRemote + 1) % p.allSize) p.percentage 0 = some i ∧ v.curExpanders[i]? = some e ∧
      p.percentage[i]? = some w ∧ 0 < w ∧ ∀ fuel, search v p (fuel + 1) =
        if v.Free e then some (⟨(p.lastRemote + 1) % p.allSize, p.percentage⟩, (i : ℤ))
        else search v ⟨(p.lastRemote + 1) % p.allSize, p.percentage⟩ fuel := by
  have hlt : (p.lastRemote + 1) % p.allSize < p.percentage.sum := Nat.mod_lt _ (Nat.pos_of_ne_zero hsize)
  obtain ⟨i, hi⟩ := exists_scan (Nat.zero_le _) (hlt.trans_eq (Nat.zero_add _).symm)
  obtain ⟨hlen, hlow, hhigh⟩ := (scan_eq_some (Nat.zero_le _)).mp hi
  obtain ⟨e, he⟩ : ∃ e, v.curExpanders[i]? = some e := ⟨_, getElem?_eq_getElem (hlen.trans_le hfits)⟩
  have hw := getElem?_eq_getElem hlen
  refine ⟨i, e, _, hi, he, hw, ?_, fun fuel => ?_⟩
  · rw [sum_take_succ hw] at hhigh
    omega
  · simp only [search, hsize, if_false, hi, he]

def HasRoom (v : View) (p : InterleavePolicy) : Prop :=
  ∃ (i : ℕ) (e : Memory) (w : ℕ), v.curExpanders[i]? = some e ∧ v.Free e ∧ p.percentage[i]? = some w ∧ 0 < w

lemma search_returns (hfits : Fits v p) (hsize : p.allSize ≠ 0) {r i : ℕ} {e : Memory}
    (hr : scan r p.percentage 0 = some i) (he : v.curExpanders[i]? = some e) (hfree : v.Free e) (m : ℕ)
    (hm : (p.lastRemote + 1 + m) % p.allSize = r) : ∃ res, search v p (m + 1) = some res := by
  induction m generalizing p with
  | zero =>
    obtain ⟨j, e', w, hj, he', -, -, hsearch⟩ := search_succ hfits hsize
    rw [Nat.add_zero] at hm
    obtain rfl : j = i := Option.some.inj (hj.symm.trans (hm ▸ hr))
    obtain rfl : e' = e := Option.some.inj (he'.symm.trans he)
    exact ⟨_, (hsearch 0).trans (if_pos hfree)⟩
  | succ m ih =>
    obtain ⟨j, e', w, -, -, -, -, hsearch⟩ := search_succ hfits hsize
    rw [hsearch]
    split_ifs with hfull
    · exact ⟨_, rfl⟩
    · refine ih (p := ⟨(p.lastRemote + 1) % p.allSize, p.percentage⟩) hfits hsize hr ?_
      change ((p.lastRemote + 1) % p.allSize + 1 + m) % p.allSize = r
      rw [Nat.add_assoc, Nat.mod_add_mod, ← hm]
      congr 1
      omega

lemma search_eq_none (hfits : Fits v p) (hsize : p.allSize ≠ 0) (hfull : ¬ HasRoom v p) (fuel : ℕ) :
    search v p fuel = none := by
  induction fuel generalizing p with
  | zero => rfl
  | succ fuel ih =>
    obtain ⟨i, e, w, -, he, hw, hpos, hsearch⟩ := search_succ hfits hsize
    rw [hsearch, if_neg fun hfree => hfull ⟨i, e, w, he, hfree, hw, hpos⟩]
    exact ih hfits hsize hfull

lemma search_result {fuel : ℕ} {p' : InterleavePolicy} {r : ℤ} (h : search v p fuel = some (p', r)) :
    r = -1 ∨ ∃ (i : ℕ) (e : Memory), r = i ∧ v.curExpanders[i]? = some e ∧ v.Free e := by
  induction fuel generalizing p with
  | zero => cases h
  | succ fuel ih =>
    unfold search at h
    split_ifs at h with hsize
    · exact .inl (Prod.mk.inj (Option.some.inj h)).2.symm
    · dsimp only at h
      split at h
      · cases h
      · rename_i i _
        split at h
        · cases h
        · rename_i e he
          split_ifs at h with hfree
          · exact .inr ⟨i, e, (Prod.mk.inj (Option.some.inj h)).2.symm, he, hfree⟩
          · exact ih h

end Search

/-- `compute_once` returns exactly if the local memory is below its threshold, all weights are zero, or an expander
with a weight is not full. -/
theorem returns_iff (v : View) (p : InterleavePolicy) (hfits : Fits v p) :
    ((∃ fuel res, computeOnce v p fuel = some res) ↔
      (v.Above → (p.prepared v).allSize = 0 ∨ HasRoom v (p.prepared v))) ∧
    ∀ fuel p' r, computeOnce v p fuel = some (p', r) →
      r = -1 ∨ ∃ (i : ℕ) (e : Memory), r = i ∧ v.curExpanders[i]? = some e ∧ v.Free e := by
  unfold computeOnce
  by_cases habove : v.Above
  · simp only [habove, if_true, true_implies]
    refine ⟨⟨fun ⟨fuel, res, h⟩ => ?_, fun h => ?_⟩, fun fuel p' r => search_result⟩
    · by_contra hno
      rw [not_or] at hno
      rw [search_eq_none hfits.prepared hno.1 hno.2] at h
      cases h
    · by_cases hsize : (p.prepared v).allSize = 0
      · exact ⟨1, (p.prepared v, -1), by simp [search, hsize]⟩
      · obtain ⟨i, e, w, he, hfree, hw, hpos⟩ := h.resolve_left hsize
        -- the first position of the expander, and the rounds until the search is there
        obtain ⟨r, hr, hlt⟩ : ∃ r, scan r (p.prepared v).percentage 0 = some i ∧ r < (p.prepared v).allSize := by
          have hlen := (List.getElem?_eq_some_iff.mp hw).1
          have hsum := sum_take_succ hw
          have hle : ((p.prepared v).percentage.take (i + 1)).sum ≤ (p.prepared v).allSize :=
            List.Sublist.sum_le_sum (take_sublist _ _) fun _ _ => Nat.zero_le _
          refine ⟨((p.prepared v).percentage.take i).sum, (scan_eq_some (Nat.zero_le _)).mpr ⟨hlen, ?_, ?_⟩, ?_⟩ <;>
            omega
        obtain ⟨res, hres⟩ := search_returns hfits.prepared hsize hr he hfree
          (r + (p.prepared v).allSize - ((p.prepared v).lastRemote + 1) % (p.prepared v).allSize) (by
            have hmod := Nat.mod_lt ((p.prepared v).lastRemote + 1) (Nat.pos_of_ne_zero hsize)
            rw [← Nat.mod_add_mod, ← Nat.add_sub_assoc (by omega), Nat.add_sub_cancel_left, Nat.add_mod_right,
              Nat.mod_eq_of_lt hlt])
        exact ⟨_, res, hres⟩
  · simp only [habove, if_false, false_implies, iff_true, Option.some.injEq]
    exact ⟨⟨0, _, rfl⟩, fun _ _ _ h => .inl (Prod.mk.inj h).2.symm⟩

def oneMegabyte (localEntries entries : ℕ) : View := ⟨.page, localEntries, 9 / 10, [⟨entries, 1⟩], [10], rfl⟩

theorem returns_with_room : ∃ fuel res, computeOnce (oneMegabyte 256 0) ⟨0, []⟩ fuel = some res :=
  (returns_iff (oneMegabyte 256 0) ⟨0, []⟩ (Nat.zero_le _)).1.mpr fun _ =>
    .inr ⟨0, ⟨0, 1⟩, 10, rfl, by decide, rfl, by decide⟩

/-- A full expander. Local memory and the expander are full: `compute_once` never returns. -/
theorem full_never_returns : ¬ ∃ fuel res, computeOnce (oneMegabyte 256 256) ⟨0, []⟩ fuel = some res := by
  rintro ⟨fuel, res, h⟩
  have habove : (oneMegabyte 256 256).Above := by decide +kernel
  have hfull : ¬ HasRoom (oneMegabyte 256 256) ⟨0, [10]⟩ := by
    rintro ⟨_ | i, e, w, he, hfree, -, -⟩
    · obtain rfl : ⟨256, 1⟩ = e := Option.some.inj he
      exact absurd hfree (by decide)
    · cases he
  have hnone := search_eq_none (v := oneMegabyte 256 256) (p := ⟨0, [10]⟩) le_rfl (by decide) hfull fuel
  rw [computeOnce, if_pos habove] at h
  exact Option.some_ne_none _ (h.symm.trans hnone)

/-! ## Weighted round robin -/

def calls : InterleavePolicy → List View → Option (List ℤ)
  | _, [] => some []
  | p, v :: vs =>
    match computeOnce v p 1 with
    | none => none
    | some (p', r) => (calls p' vs).map (r :: ·)

def View.Remote (v : View) : Prop := v.Above ∧ ∀ e ∈ v.curExpanders, v.Free e

lemma calls_eq (p : InterleavePolicy) (hsize : p.allSize ≠ 0) (vs : List View) (hvs : ∀ v ∈ vs, v.Remote ∧ Fits v p) :
    calls p vs = some ((List.range' (p.lastRemote + 1) vs.length).map fun x =>
      (((scan (x % p.allSize) p.percentage 0).getD 0 : ℕ) : ℤ)) := by
  induction vs generalizing p with
  | nil => rfl
  | cons v vs ih =>
    obtain ⟨⟨habove, hfree⟩, hfits⟩ := hvs v mem_cons_self
    have hne : p.percentage.isEmpty = false := by
      cases hw : p.percentage with
      | nil => exact absurd (by rw [InterleavePolicy.allSize, hw]; rfl) hsize
      | cons => rfl
    have hprepared : p.prepared v = p := by simp [InterleavePolicy.prepared, hne]
    obtain ⟨i, e, w, hi, he, -, -, hsearch⟩ := search_succ hfits hsize
    have hcall : computeOnce v p 1 = some (⟨(p.lastRemote + 1) % p.allSize, p.percentage⟩, (i : ℤ)) := by
      rw [computeOnce, if_pos habove, hprepared, hsearch, if_pos (hfree e (mem_of_getElem? he))]
    have hrest := ih ⟨(p.lastRemote + 1) % p.allSize, p.percentage⟩ hsize
      fun u hu => hvs u (mem_cons_of_mem v hu)
    rw [calls, hcall]
    dsimp only
    rw [hrest, Option.map_some, length_cons, range'_succ, map_cons, hi, Option.getD_some]
    -- the wheel may be turned back by whole rounds
    congr 2
    rw [range'_eq_map_range, range'_eq_map_range, map_map, map_map]
    refine map_congr_left fun j _ => ?_
    change (((scan (((p.lastRemote + 1) % p.allSize + 1 + j) % p.allSize) p.percentage 0).getD 0 : ℕ) : ℤ) = _
    rw [Nat.add_assoc, Nat.mod_add_mod, ← Nat.add_assoc]
    rfl

lemma count_scan (ws : List ℕ) {i w : ℕ} (hw : ws[i]? = some w) : ws.sum.count (fun r => scan r ws 0 = some i) = w := by
  have hsum := sum_take_succ hw
  have hle : (ws.take (i + 1)).sum ≤ ws.sum := List.Sublist.sum_le_sum (take_sublist _ _) fun _ _ => Nat.zero_le _
  have hset : (Finset.range ws.sum).filter (fun r => scan r ws 0 = some i) =
      Finset.Ico (ws.take i).sum (ws.take (i + 1)).sum := by
    ext r
    simp only [Finset.mem_filter, Finset.mem_range, Finset.mem_Ico, scan_eq_some (Nat.zero_le r), Nat.zero_add,
      (List.getElem?_eq_some_iff.mp hw).1, true_and]
    omega
  rw [Nat.count_eq_card_filter_range, hset, Nat.card_Ico]
  omega

lemma countP_window (q : ℕ → Prop) [DecidablePred q] (n size : ℕ) :
    (List.range' n size).countP (fun x => q (x % size)) = size.count q := by
  have hperiodic : Function.Periodic (fun x => q (x % size)) size := fun x => by simp
  have hcard := Nat.filter_Ico_card_eq_of_periodic n size (fun x => q (x % size)) hperiodic
  have hcongr : size.count (fun x => q (x % size)) = size.count q := by
    rw [Nat.count_eq_card_filter_range, Nat.count_eq_card_filter_range]
    refine congrArg Finset.card (Finset.filter_congr fun x hx => ?_)
    rw [Nat.mod_eq_of_lt (Finset.mem_range.mp hx)]
  rw [← hcongr, ← hcard, ← Multiset.coe_countP, Multiset.countP_eq_card_filter]
  change _ = (Multiset.filter _ ((List.range' n (n + size - n) : List ℕ) : Multiset ℕ)).card
  rw [Nat.add_sub_cancel_left]

/-- Weighted round robin. Over as many calls as the sum of the weights every expander is returned as often as its
weight. -/
theorem weighted_round_robin (p : InterleavePolicy) (hpos : 0 < p.allSize) (vs : List View)
    (hlength : vs.length = p.allSize) (hvs : ∀ v ∈ vs, v.Remote ∧ Fits v p) :
    ∃ rs, calls p vs = some rs ∧ (∀ (i w : ℕ), p.percentage[i]? = some w → rs.count (i : ℤ) = w) ∧
      ∀ r ∈ rs, ∃ i < p.percentage.length, r = (i : ℤ) := by
  have hfound : ∀ x, ∃ i < p.percentage.length, scan (x % p.allSize) p.percentage 0 = some i := by
    intro x
    obtain ⟨i, hi⟩ := exists_scan (Nat.zero_le _) ((Nat.mod_lt x hpos).trans_eq (Nat.zero_add _).symm)
    exact ⟨i, ((scan_eq_some (Nat.zero_le _)).mp hi).1, hi⟩
  refine ⟨_, calls_eq p hpos.ne' vs hvs, fun i w hw => ?_, fun r hr => ?_⟩
  · rw [count_eq_countP, countP_map, hlength, ← count_scan p.percentage hw]
    refine (countP_congr fun x _ => ?_).trans (countP_window (fun r => scan r p.percentage 0 = some i) _ _)
    obtain ⟨j, -, hj⟩ := hfound x
    simp [hj]
  · obtain ⟨x, -, rfl⟩ := List.mem_map.mp hr
    obtain ⟨i, hlt, hi⟩ := hfound x
    exact ⟨i, hlt, by rw [hi]; rfl⟩

def twoMegabytes : View := ⟨.page, 256, 9 / 10, [⟨0, 1⟩, ⟨0, 1⟩], [5, 5], rfl⟩

theorem weighted_round_robin_two : ∃ rs, calls ⟨2, [2, 1]⟩ (List.replicate 3 twoMegabytes) = some rs ∧
      (∀ (i w : ℕ), ([2, 1] : List ℕ)[i]? = some w → rs.count (i : ℤ) = w) ∧ ∀ r ∈ rs, ∃ i : ℕ, i < 2 ∧ r = i :=
  weighted_round_robin ⟨2, [2, 1]⟩ (by decide) (List.replicate 3 twoMegabytes) rfl fun v hv => by
    obtain rfl : v = twoMegabytes := eq_of_mem_replicate hv
    exact ⟨⟨by decide +kernel, by decide +kernel⟩, le_rfl⟩

end CxlMemSim.RoundRobin
