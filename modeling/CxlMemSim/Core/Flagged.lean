/-
Computations that raise a sticky failure flag and go on: a `Flagged E α` notes its errors and returns a value all the
same; `Flags` is what a ledger keeps of them.
-/
import Mathlib

namespace CxlMemSim.Core

open List

structure Flagged (E α : Type) where
  value : α
  errors : List E
deriving DecidableEq, Repr

structure Flags (E : Type) where
  incomplete : Bool := false
  firstError : Option E := none
deriving DecidableEq, Repr

variable {E α β : Type}

instance : Monad (Flagged E) where
  pure a := ⟨a, []⟩
  bind m k := ⟨(k m.value).value, m.errors ++ (k m.value).errors⟩

def Flags.raise (f : Flags E) (es : List E) : Flags E := ⟨f.incomplete || !es.isEmpty, f.firstError.or es.head?⟩

@[simp] lemma Flags.raise_nil (f : Flags E) : f.raise [] = f := by simp [Flags.raise]

lemma Flags.raise_incomplete {f : Flags E} {es : List E} (h : (f.raise es).incomplete = false) :
    f.incomplete = false ∧ es = [] := by
  simpa [Flags.raise] using h

def failWith (e : E) : Flagged E Unit := ⟨(), [e]⟩

/-- 64-bit addition that raises `e` and keeps the old value when the sum does not fit -/
def addOr (e : E) (value increment : UInt64) : Flagged E (Bool × UInt64) :=
  if 18446744073709551615 - value < increment then ⟨(false, value), [e]⟩ else ⟨(true, value + increment), []⟩

def addTo (e : E) (value increment : UInt64) : Flagged E UInt64 := Prod.snd <$> addOr e value increment

def sumOr (e : E) (acc : UInt64) (ws : List UInt64) : Flagged E UInt64 := ws.foldlM (addTo e) acc

/-! ## Runs that raise nothing -/

def Quiet (m : Flagged E α) (Q : α → Prop) : Prop := m.errors = [] → Q m.value

variable {Q : α → Prop} {m : Flagged E α} {e : E} {P : List α → β → Prop} {f : β → α → Flagged E β} {b : β}
  {l : List α} {k : α → Flagged E β} {R : α → Prop} {c : Prop} {a : α}

lemma quiet_pure (h : Q a) : Quiet (pure a : Flagged E α) Q := fun _ => h

lemma quiet_bind {Q : β → Prop} (h : Quiet m fun a => Quiet (k a) Q) : Quiet (m >>= k) Q := by
  intro he
  obtain ⟨hm, hk⟩ := List.append_eq_nil_iff.1 he
  exact h hm hk

lemma quiet_fail {Q : Unit → Prop} : Quiet (failWith e) Q := fun h => absurd h (cons_ne_nil _ _)

lemma quiet_ite [Decidable c] {a b : Flagged E α} (ha : c → Quiet a Q)
    (hb : ¬c → Quiet b Q) : Quiet (if c then a else b) Q := by
  split_ifs with h
  · exact ha h
  · exact hb h

lemma Quiet.mono (h : Quiet m Q) (hqr : ∀ a, Q a → R a) : Quiet m R := fun he => hqr _ (h he)

section

variable (e : E) (v i : UInt64)

lemma addOr_cases :
    (v.toNat + i.toNat < 2 ^ 64 ∧ addOr e v i = ⟨(true, v + i), []⟩ ∧ (v + i).toNat = v.toNat + i.toNat) ∨
      (2 ^ 64 ≤ v.toNat + i.toNat ∧ addOr e v i = ⟨(false, v), [e]⟩) := by
  have hv := v.toNat_lt
  have hsub : (18446744073709551615 - v).toNat = 18446744073709551615 - v.toNat :=
    UInt64.toNat_sub_of_le _ _ (UInt64.le_iff_toNat_le.2 (by
      have : (18446744073709551615 : UInt64).toNat = 18446744073709551615 := rfl
      omega))
  unfold addOr
  split_ifs with h
  · rw [UInt64.lt_iff_toNat_lt, hsub] at h
    exact .inr ⟨by omega, rfl⟩
  · rw [UInt64.lt_iff_toNat_lt, hsub] at h
    refine .inl ⟨by omega, rfl, ?_⟩
    rw [UInt64.toNat_add, Nat.mod_eq_of_lt (by omega)]

lemma quiet_addOr : Quiet (addOr e v i) fun r => r.1 = true ∧ r.2.toNat = v.toNat + i.toNat := by
  rcases addOr_cases e v i with ⟨-, h, hsum⟩ | ⟨-, h⟩ <;> rw [h]
  · exact fun _ => ⟨rfl, hsum⟩
  · exact fun he => absurd he (cons_ne_nil _ _)

lemma quiet_addTo : Quiet (addTo e v i) fun r => r.toNat = v.toNat + i.toNat :=
  quiet_bind ((quiet_addOr e v i).mono fun _ h => quiet_pure h.2)

end

/-- Loop rule. For a judgement `W` that composes: what every turn keeps, holds of the loop's result. -/
lemma foldlM_rule {W : Flagged E β → (β → Prop) → Prop} (hpure : ∀ {Q b}, Q b → W (pure b) Q)
    (hbind : ∀ {m : Flagged E β} {k Q R}, W m Q → (∀ b, Q b → W (k b) R) → W (m >>= k) R) (hb : P [] b)
    (hf : ∀ done a b, done ++ [a] <+: l → P done b → W (f b a) (P (done ++ [a]))) : W (l.foldlM f b) (P l) := by
  suffices h : ∀ (todo done : List α) (b : β), done ++ todo = l → P done b → W (todo.foldlM f b) (P l) from
    h l [] b rfl hb
  intro todo
  induction todo with
  | nil =>
    intro done b hl hP
    rw [append_nil] at hl
    exact hpure (hl ▸ hP)
  | cons a todo ih =>
    intro done b hl hP
    rw [foldlM_cons]
    refine hbind (hf done a b ⟨todo, by simpa using hl⟩ hP) fun b' hP' => ?_
    exact ih (done ++ [a]) b' (by simpa using hl) hP'

lemma quiet_foldlM (hb : P [] b) (hf : ∀ done a b, done ++ [a] <+: l → P done b → Quiet (f b a) (P (done ++ [a]))) :
    Quiet (l.foldlM f b) (P l) :=
  foldlM_rule quiet_pure (fun h hk => quiet_bind (h.mono hk)) hb hf

/-! ## Runs that are shown to raise nothing -/

def Silent (m : Flagged E α) (Q : α → Prop) : Prop := m.errors = [] ∧ Q m.value

lemma Quiet.silent (h : Quiet m Q) (he : m.errors = []) : Silent m Q := ⟨he, h he⟩

lemma silent_pure (h : Q a) : Silent (pure a : Flagged E α) Q := ⟨rfl, h⟩

lemma silent_bind {Q : β → Prop} (h : Silent m fun a => Silent (k a) Q) : Silent (m >>= k) Q :=
  ⟨List.append_eq_nil_iff.2 ⟨h.1, h.2.1⟩, h.2.2⟩

lemma silent_ite [Decidable c] {a b : Flagged E α} (ha : c → Silent a Q)
    (hb : ¬c → Silent b Q) : Silent (if c then a else b) Q := by
  split_ifs with h
  · exact ha h
  · exact hb h

lemma Silent.mono (h : Silent m Q) (hqr : ∀ a, Q a → R a) : Silent m R := ⟨h.1, hqr _ h.2⟩

lemma silent_addOr {v i : UInt64} (h : v.toNat + i.toNat < 2 ^ 64) :
    Silent (addOr e v i) fun r => r.1 = true ∧ r.2.toNat = v.toNat + i.toNat := by
  rcases addOr_cases e v i with ⟨-, h', hsum⟩ | ⟨h', -⟩
  · rw [h']
    exact ⟨rfl, rfl, hsum⟩
  · omega

lemma silent_addTo {v i : UInt64} (h : v.toNat + i.toNat < 2 ^ 64) :
    Silent (addTo e v i) fun r => r.toNat = v.toNat + i.toNat :=
  silent_bind ((silent_addOr h).mono fun _ h => silent_pure h.2)

lemma silent_foldlM (hb : P [] b) (hf : ∀ done a b, done ++ [a] <+: l → P done b → Silent (f b a) (P (done ++ [a]))) :
    Silent (l.foldlM f b) (P l) :=
  foldlM_rule silent_pure (fun h hk => silent_bind (h.mono hk)) hb hf

lemma silent_sumOr {acc : UInt64} {ws : List UInt64} (h : acc.toNat + (ws.map UInt64.toNat).sum < 2 ^ 64) :
    Silent (sumOr e acc ws) fun r => r.toNat = acc.toNat + (ws.map UInt64.toNat).sum := by
  refine silent_foldlM (P := fun done (r : UInt64) => r.toNat = acc.toNat + (done.map UInt64.toNat).sum) (by simp) ?_
  rintro done a b ⟨rest, rfl⟩ hb
  simp only [map_append, map_cons, map_nil, sum_append, sum_cons, sum_nil] at h ⊢
  exact (silent_addTo (by omega)).mono fun r hr => by omega

end CxlMemSim.Core
