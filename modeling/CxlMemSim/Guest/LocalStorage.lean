/-
Context-local storage (`context_local_storage_put`, `_get`, `_delete`, `context_storage_clear_context` of `libcuda.c`): a
table with holes, against a map from (context, state manager) to (state, destructor). A destructor of 0 is none; clearing
the context 0 clears all.

Results: `spec_step` (one operation keeps the keys unique and does what `Spec` says of the map), `storage_is_map` (every
step of every run from the empty table).
-/
import CxlMemSim.Core.Run

namespace CxlMemSim.Guest.LocalStorage

open List Function
open CxlMemSim.Core

abbrev Key := UInt64 × UInt64

structure Value where
  ctxState : UInt64
  dtor : UInt64
deriving DecidableEq, Repr

/-- a slot that is in use -/
abbrev Entry := Key × Value

def maxEntries : ℕ := 128

/-- the first entry with the key gets the new value -/
def replace (key : Key) (value : Value) : List (Option Entry) → Option (List (Option Entry))
  | [] => none
  | some e :: rest =>
    if e.1 = key then some (some (key, value) :: rest) else (replace key value rest).map (some e :: ·)
  | none :: rest => (replace key value rest).map (none :: ·)

/-- the first hole is filled -/
def fill (e : Entry) : List (Option Entry) → Option (List (Option Entry))
  | [] => none
  | some e' :: rest => (fill e rest).map (some e' :: ·)
  | none :: rest => some (some e :: rest)

def put (slots : List (Option Entry)) (key : Key) (value : Value) : Option (List (Option Entry)) :=
  (replace key value slots).or (fill (key, value) slots)

def find (slots : List (Option Entry)) (key : Key) : Option Value :=
  slots.findSome? fun e => e.bind fun e => if e.1 = key then some e.2 else none

def delete (key : Key) : List (Option Entry) → List (Option Entry)
  | [] => []
  | some e :: rest => if e.1 = key then none :: rest else some e :: delete key rest
  | none :: rest => none :: delete key rest

def inContext (context : UInt64) (e : Entry) : Bool := context = 0 ∨ e.1.1 = context

/-- the table without the context's entries, and the entries whose destructors are called, in order -/
def clear (slots : List (Option Entry)) (context : UInt64) (callDtors : Bool) : List (Option Entry) × List Entry :=
  (slots.map fun e => e.filter fun e => ¬ inContext context e,
    (slots.reduceOption.filter fun e => inContext context e ∧ callDtors ∧ e.2.dtor ≠ 0))

/-- `get` that finds nothing fails with a code that depends on the current context -/
inductive Result where
  | success
  | outOfMemory
  | deinitialized
  | got (ctxState : Option UInt64)
  | called (entries : List Entry)

inductive Op where
  | put (key : Key) (value : Value)
  | get (key : Key)
  | delete (key : Key)
  | clear (context : UInt64) (callDtors : Bool)

def call (slots : List (Option Entry)) : Op → Result × List (Option Entry)
  | .put key value =>
    match put slots key value with
    | some slots' => (.success, slots')
    | none => (.outOfMemory, slots)
  | .get key => (.got ((find slots key).map Value.ctxState), slots)
  | .delete key => (.deinitialized, delete key slots)
  | .clear context callDtors => (.called (clear slots context callDtors).2, (clear slots context callDtors).1)

def step (slots : List (Option Entry)) (o : Op) : List (Option Entry) := (call slots o).2

def start : List (Option Entry) := replicate maxEntries none

/-! ## The map -/

/-- the bounded map: what an operation answers and leaves, of a map with `n` keys -/
def Spec (m m' : Key → Option Value) (n : ℕ) : Op → Result → Prop
  | .put key value, r =>
    if m key ≠ none ∨ n < maxEntries then r = .success ∧ m' = update m key (some value)
    else r = .outOfMemory ∧ m' = m
  | .get key, r => r = .got ((m key).map Value.ctxState) ∧ m' = m
  | .delete key, r => r = .deinitialized ∧ m' = update m key none
  | .clear context callDtors, r =>
    (∀ key, m' key = if context = 0 ∨ key.1 = context then none else m key) ∧ ∃ entries, r = .called entries ∧
      entries.Nodup ∧ ∀ e, e ∈ entries ↔
        inContext context e = true ∧ callDtors = true ∧ e.2.dtor ≠ 0 ∧ m e.1 = some e.2

/-- the keys in use -/
def keys (slots : List (Option Entry)) : List Key := slots.reduceOption.map Prod.fst

structure Ok (slots : List (Option Entry)) : Prop where
  unique : (keys slots).Nodup
  length : slots.length = maxEntries

section Table

variable {slots slots' : List (Option Entry)} {key : Key} {value : Value} {e : Entry}

@[simp] lemma keys_some : keys (some e :: slots) = e.1 :: keys slots := rfl

@[simp] lemma keys_none : keys (none :: slots) = keys slots := rfl

@[simp] lemma find_none : find (none :: slots) = find slots := rfl

@[simp] lemma find_some (k : Key) : find (some e :: slots) k = if e.1 = k then some e.2 else find slots k := by
  simp only [find, findSome?_cons, Option.bind_some]
  split_ifs <;> rfl

lemma find_eq_none_iff : find slots key = none ↔ key ∉ keys slots := by
  induction slots with
  | nil => simp [find, keys]
  | cons e slots ih =>
    cases e with
    | none => simpa using ih
    | some e =>
      by_cases h : e.1 = key
      · simp [h]
      · simp [h, ih, Ne.symm h]

lemma mem_iff_find (h : (keys slots).Nodup) : e ∈ slots.reduceOption ↔ find slots e.1 = some e.2 := by
  induction slots with
  | nil => simp [find]
  | cons x slots ih =>
    cases x with
    | none => simpa using ih h
    | some x =>
      obtain ⟨hnew, hrest⟩ := nodup_cons.mp h
      rw [reduceOption_cons_of_some, mem_cons, find_some, ih hrest]
      by_cases hx : x.1 = e.1
      · have hnone : find slots e.1 = none := find_eq_none_iff.mpr (hx ▸ hnew)
        simp [hx, hnone, Prod.ext_iff, eq_comm]
      · simp [hx, show e ≠ x from fun h => hx (h ▸ rfl)]

lemma replace_eq_none (h : find slots key = none) : replace key value slots = none := by
  induction slots with
  | nil => rfl
  | cons x slots ih =>
    cases x with
    | none => simp [replace, ih h]
    | some x =>
      have hx : x.1 ≠ key := fun hx => by simp [hx] at h
      rw [find_some, if_neg hx] at h
      simp [replace, hx, ih h]

lemma replace_eq_some (value : Value) (h : find slots key ≠ none) : ∃ slots', replace key value slots = some slots' ∧
    find slots' = update (find slots) key (some value) ∧ keys slots' = keys slots ∧ slots'.length = slots.length := by
  induction slots with
  | nil => exact absurd rfl h
  | cons x slots ih =>
    cases x with
    | none =>
      obtain ⟨slots', hr, hf, hk, hl⟩ := ih h
      exact ⟨none :: slots', by simp [replace, hr], by simpa using hf, by simpa using hk, by simp [hl]⟩
    | some x =>
      by_cases hx : x.1 = key
      · refine ⟨some (key, value) :: slots, by simp [replace, hx], funext fun k => ?_, by simp [hx], rfl⟩
        by_cases hk : k = key
        · simp [hk]
        · simp [hk, hx, Ne.symm hk]
      · rw [find_some, if_neg hx] at h
        obtain ⟨slots', hr, hf, hk, hl⟩ := ih h
        refine ⟨some x :: slots', by simp [replace, hx, hr], funext fun k => ?_, by simp [hk], by simp [hl]⟩
        rw [find_some, hf]
        by_cases hk : k = key
        · simp [hk, hx]
        · simp [hk]

lemma fill_eq_none (h : (keys slots).length = slots.length) : fill e slots = none := by
  induction slots with
  | nil => rfl
  | cons x slots ih =>
    cases x with
    | none =>
      have hle : (keys slots).length ≤ slots.length := by simpa [keys] using reduceOption_length_le slots
      rw [keys_none, length_cons] at h
      omega
    | some x => simp [fill, ih (by simpa using h)]

lemma fill_eq_some (h : (keys slots).length < slots.length) (hnew : find slots e.1 = none) :
    ∃ slots', fill e slots = some slots' ∧ find slots' = update (find slots) e.1 (some e.2) ∧
      keys slots' ~ e.1 :: keys slots ∧ slots'.length = slots.length := by
  induction slots with
  | nil => exact absurd h (Nat.lt_irrefl 0)
  | cons x slots ih =>
    cases x with
    | none =>
      refine ⟨some e :: slots, rfl, funext fun k => ?_, by simp, rfl⟩
      by_cases hk : k = e.1
      · simp [hk]
      · simp [hk, Ne.symm hk]
    | some x =>
      have hx : x.1 ≠ e.1 := fun hx => by simp [hx] at hnew
      rw [find_some, if_neg hx] at hnew
      obtain ⟨slots', hr, hf, hp, hl⟩ := ih (by simpa using h) hnew
      refine ⟨some x :: slots', by simp [fill, hr], funext fun k => ?_, (hp.cons x.1).trans (.swap ..), by simp [hl]⟩
      rw [find_some, hf]
      by_cases hk : k = e.1
      · simp [hk, hx]
      · simp [hk]

lemma find_delete (key : Key) (h : (keys slots).Nodup) : find (delete key slots) = update (find slots) key none ∧
    keys (delete key slots) <+ keys slots ∧ (delete key slots).length = slots.length := by
  induction slots with
  | nil => exact ⟨by funext k; simp [delete, find, update_apply], .refl _, rfl⟩
  | cons x slots ih =>
    cases x with
    | none =>
      obtain ⟨hf, hk, hl⟩ := ih h
      exact ⟨by simpa [delete] using hf, by simpa [delete] using hk, by simp [delete, hl]⟩
    | some x =>
      obtain ⟨hnew, hrest⟩ := nodup_cons.mp h
      by_cases hx : x.1 = key
      · refine ⟨funext fun k => ?_, by simp [delete, hx], by simp [delete, hx]⟩
        by_cases hk : k = key
        · simp [delete, hx, hk, find_eq_none_iff.mpr (hx ▸ hnew)]
        · simp [delete, hx, hk, Ne.symm hk]
      · obtain ⟨hf, hk, hl⟩ := ih hrest
        refine ⟨funext fun k => ?_, by simpa [delete, hx] using hk, by simp [delete, hx, hl]⟩
        by_cases hk : k = key
        · simp [delete, hx, hk, hf]
        · simp [delete, hx, hk, hf]

lemma find_clear (slots : List (Option Entry)) (context : UInt64) (callDtors : Bool) :
    (∀ k, find (clear slots context callDtors).1 k = if context = 0 ∨ k.1 = context then none else find slots k) ∧
      keys (clear slots context callDtors).1 <+ keys slots := by
  induction slots with
  | nil => exact ⟨fun k => by simp [clear, find], .refl _⟩
  | cons x slots ih =>
    obtain ⟨hf, hk⟩ := ih
    cases x with
    | none => exact ⟨by simpa [clear] using hf, by simpa [clear] using hk⟩
    | some x =>
      by_cases hx : inContext context x = true
      · have hclear : (clear (some x :: slots) context callDtors).1 = none :: (clear slots context callDtors).1 := by
          simp [clear, hx]
        rw [hclear]
        refine ⟨fun k => ?_, by simpa using hk.cons _⟩
        rw [find_none, hf k, find_some]
        grind [inContext]
      · have hclear : (clear (some x :: slots) context callDtors).1 = some x :: (clear slots context callDtors).1 := by
          simp [clear, hx]
        rw [hclear]
        refine ⟨fun k => ?_, by simpa using hk.cons_cons x.1⟩
        rw [find_some, hf k, find_some]
        grind [inContext]

end Table

lemma spec_step (slots : List (Option Entry)) (o : Op) (h : Ok slots) :
    Ok (step slots o) ∧ Spec (find slots) (find (step slots o)) (keys slots).length o (call slots o).1 := by
  obtain ⟨hu, hl⟩ := h
  cases o with
  | get key => exact ⟨⟨hu, hl⟩, rfl, rfl⟩
  | delete key =>
    obtain ⟨hf, hk, hl'⟩ := find_delete key hu
    exact ⟨⟨hu.sublist hk, hl'.trans hl⟩, rfl, hf⟩
  | clear context callDtors =>
    obtain ⟨hf, hk⟩ := find_clear slots context callDtors
    refine ⟨⟨hu.sublist hk, by simpa [step, call, clear] using hl⟩, hf, _, rfl, ?_, fun e => ?_⟩
    · exact (Nodup.of_map _ hu).filter _
    · simp only [clear, mem_filter, decide_eq_true_eq, mem_iff_find hu]
      tauto
  | put key value =>
    simp only [step, call, put, Spec]
    by_cases hold : find slots key = none
    · rw [replace_eq_none hold, Option.none_or]
      have hle : (keys slots).length ≤ slots.length := by simpa [keys] using reduceOption_length_le slots
      by_cases hroom : (keys slots).length < slots.length
      · obtain ⟨slots', hr, hf, hp, hl'⟩ := fill_eq_some (e := (key, value)) hroom hold
        rw [hr, if_pos (.inr (hl ▸ hroom))]
        have hnew := find_eq_none_iff.mp hold
        exact ⟨⟨hp.nodup_iff.mpr (nodup_cons.mpr ⟨hnew, hu⟩), hl'.trans hl⟩, rfl, hf⟩
      · rw [fill_eq_none (by omega), if_neg (not_or.mpr ⟨not_not.mpr hold, by omega⟩)]
        exact ⟨⟨hu, hl⟩, rfl, rfl⟩
    · obtain ⟨slots', hr, hf, hk, hl'⟩ := replace_eq_some value hold
      rw [hr, Option.some_or, if_pos (.inl hold)]
      exact ⟨⟨hk ▸ hu, hl'.trans hl⟩, rfl, hf⟩

/-- The storage is a bounded map with exact destructor calls; its keys are those listed, each once. -/
theorem storage_is_map (ops : List Op) :
    AllSteps step (fun slots o => (keys slots).Nodup ∧ (∀ key, key ∈ keys slots ↔ find slots key ≠ none) ∧
      (keys slots).length ≤ maxEntries ∧
      Spec (find slots) (find (step slots o)) (keys slots).length o (call slots o).1) start ops := by
  have hstart : Ok start := ⟨by simp [start, keys], by simp [start]⟩
  refine allSteps_of_inv (C := fun _ _ => True) (P := Ok) (fun s o h _ => (spec_step s o h).1) (fun s o h _ => ?_) hstart
    (allSteps_of_forall (fun _ _ => trivial) start ops)
  refine ⟨h.unique, fun key => ?_, ?_, (spec_step s o h).2⟩
  · rw [ne_eq, find_eq_none_iff, not_not]
  · rw [← h.length]
    simpa [keys] using reduceOption_length_le s

end CxlMemSim.Guest.LocalStorage
