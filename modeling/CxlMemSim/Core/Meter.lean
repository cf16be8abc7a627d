/-
Measuring how long a signal was on, online, in ticks: [b, e) holds b, …, e-1.

- `covered l`: the ticks in the union of the intervals of `l`.
- `Metered`: an accumulator that adds a stretch when the signal goes off measures the ticks during which it was on.
-/
import Mathlib

namespace CxlMemSim.Core

/-! ## Ticks of a list of intervals -/

def covered (l : List (ℕ × ℕ)) : Finset ℕ := l.toFinset.biUnion fun r => Finset.Ico r.1 r.2

def lengths (l : List (ℕ × ℕ)) : ℕ := (l.map fun r => r.2 - r.1).sum

lemma mem_covered {l : List (ℕ × ℕ)} {t : ℕ} : t ∈ covered l ↔ ∃ r ∈ l, r.1 ≤ t ∧ t < r.2 := by simp [covered]

@[simp] lemma lengths_append (l m : List (ℕ × ℕ)) : lengths (l ++ m) = lengths l + lengths m := by simp [lengths]

@[simp] lemma lengths_cons (r : ℕ × ℕ) (l : List (ℕ × ℕ)) : lengths (r :: l) = r.2 - r.1 + lengths l := by
  simp [lengths]

@[simp] lemma lengths_nil : lengths [] = 0 := rfl

lemma covered_cons (r : ℕ × ℕ) (l : List (ℕ × ℕ)) : covered (r :: l) = Finset.Ico r.1 r.2 ∪ covered l := by
  ext t; simp [mem_covered]

lemma card_covered_le (l : List (ℕ × ℕ)) : (covered l).card ≤ lengths l := by
  induction l with
  | nil => simp [covered]
  | cons r l ih =>
    rw [covered_cons, lengths_cons]
    have hcard := Finset.card_union_le (Finset.Ico r.1 r.2) (covered l)
    rw [Nat.card_Ico] at hcard
    omega

lemma sum_map_update {ι : Type*} [DecidableEq ι] {L : List ι} (hL : L.Nodup) {x : ι} (hx : x ∈ L) (f : ι → ℕ) (v : ℕ) :
    (L.map (Function.update f x v)).sum + f x = (L.map f).sum + v := by
  induction L with
  | nil => simp at hx
  | cons y L ih =>
    obtain ⟨hy, hL⟩ := List.nodup_cons.1 hL
    rw [List.map_cons, List.map_cons, List.sum_cons, List.sum_cons]
    by_cases hxy : x = y
    · subst hxy
      have hrest : L.map (Function.update f x v) = L.map f :=
        List.map_congr_left fun z hz => Function.update_of_ne (by rintro rfl; exact hy hz) v f
      rw [hrest, Function.update_self]
      omega
    · have hsum := ih hL ((List.mem_cons.1 hx).resolve_left hxy)
      rw [Function.update_of_ne (Ne.symm hxy)]
      omega

/-! ## Signals and meters -/

def Advance (on : Prop) (now now' : ℕ) (ticks ticks' : Finset ℕ) : Prop :=
  ∀ t, t ∈ ticks' ↔ t ∈ ticks ∨ (on ∧ now ≤ t ∧ t < now')

structure Metered (sum start : ℕ) (on : Prop) (now : ℕ) (ticks : Finset ℕ) : Prop where
  below : ∀ t ∈ ticks, t < now
  off : ¬on → sum = ticks.card
  running : on → start ≤ now ∧ sum + (now - start) = ticks.card

variable {sum start now now' : ℕ} {on on' : Prop} {ticks ticks' other other' : Finset ℕ}

variable (h : Metered sum start on now ticks)
include h

lemma Metered.advance (hle : now ≤ now') (hadv : Advance on now now' ticks ticks') :
    Metered sum start on now' ticks' := by
  refine ⟨fun t ht => ?_, fun hoff => ?_, fun hon => ?_⟩
  · rcases (hadv t).1 ht with ht | ⟨-, -, ht⟩
    · exact lt_of_lt_of_le (h.below t ht) hle
    · exact ht
  · have hsame : ticks' = ticks := by ext t; simp [hadv t, hoff]
    rw [hsame]
    exact h.off hoff
  · obtain ⟨hstart, hsum⟩ := h.running hon
    have hgrow : ticks' = ticks ∪ Finset.Ico now now' := by ext t; simp [hadv t, hon]
    have hdis : Disjoint ticks (Finset.Ico now now') := by
      rw [Finset.disjoint_left]
      intro t ht ht'
      exact absurd (h.below t ht) (not_lt.2 (Finset.mem_Ico.1 ht').1)
    rw [hgrow, Finset.card_union_of_disjoint hdis, Nat.card_Ico]
    omega

lemma Metered.turnOn (hoff : ¬on) : Metered sum now True now ticks :=
  ⟨h.below, fun hn => absurd trivial hn, fun _ => ⟨le_rfl, by rw [h.off hoff]; omega⟩⟩

lemma Metered.turnOff (hon : on) (last : ℕ) : Metered (sum + (now - start)) last False now ticks :=
  ⟨h.below, fun _ => (h.running hon).2, fun hn => hn.elim⟩

lemma Metered.congr (hon : on ↔ on') (ht : ticks = ticks') : Metered sum start on' now ticks' := by
  subst ht
  exact ⟨h.below, fun hn => h.off (by rwa [hon]), fun hn => h.running (hon.2 hn)⟩

omit h

lemma advance_inter (ha : Advance on now now' ticks ticks') (hb : Advance on' now now' other other')
    (hta : ∀ t ∈ ticks, t < now) (htb : ∀ t ∈ other, t < now) :
    Advance (on ∧ on') now now' (ticks ∩ other) (ticks' ∩ other') := by
  intro t
  have h1 := hta t
  have h2 := htb t
  rw [Finset.mem_inter, Finset.mem_inter, ha t, hb t]
  constructor
  · rintro ⟨h | ⟨hon, hl, hr⟩, h' | ⟨hon', hl', hr'⟩⟩
    · exact .inl ⟨h, h'⟩
    · exact absurd (h1 h) (not_lt.2 hl')
    · exact absurd (h2 h') (not_lt.2 hl)
    · exact .inr ⟨⟨hon, hon'⟩, hl, hr⟩
  · rintro (⟨h, h'⟩ | ⟨⟨hon, hon'⟩, h⟩)
    · exact ⟨.inl h, .inl h'⟩
    · exact ⟨.inr ⟨hon, h⟩, .inr ⟨hon', h⟩⟩

lemma advance_compl {first : ℕ} (ha : Advance on now now' ticks ticks') (ht : ∀ t ∈ ticks, t < now)
    (hfirst : first ≤ now) (hle : now ≤ now') :
    Advance (¬on) now now' (Finset.Ico first now \ ticks) (Finset.Ico first now' \ ticks') := by
  intro t
  have h1 := ht t
  simp only [Finset.mem_sdiff, Finset.mem_Ico, ha t]
  by_cases hon : on
  · simp only [hon, true_and, not_true_eq_false, false_and, or_false]
    constructor
    · rintro ⟨⟨hl, hr⟩, hn⟩
      refine ⟨⟨hl, ?_⟩, fun h => hn (.inl h)⟩
      by_contra hge
      exact hn (.inr ⟨by omega, hr⟩)
    · rintro ⟨⟨hl, hr⟩, hn⟩
      refine ⟨⟨hl, by omega⟩, ?_⟩
      rintro (h | ⟨h, -⟩)
      · exact hn h
      · omega
  · simp only [hon, false_and, or_false, not_false_eq_true, true_and]
    constructor
    · rintro ⟨⟨hl, hr⟩, hn⟩
      by_cases hlt : t < now
      · exact .inl ⟨⟨hl, hlt⟩, hn⟩
      · exact .inr ⟨by omega, hr⟩
    · rintro (⟨⟨hl, hr⟩, hn⟩ | ⟨hl, hr⟩)
      · exact ⟨⟨hl, by omega⟩, hn⟩
      · exact ⟨⟨by omega, hr⟩, fun h => absurd (h1 h) (not_lt.2 hl)⟩

end CxlMemSim.Core
