/-
Byte buffers as functions of the offset.
-/
import Mathlib

namespace CxlMemSim.Core

open List Function

abbrev Buf := ℕ → UInt8

def memcpy (dst : Buf) (d : ℕ) (src : Buf) (s n : ℕ) : Buf :=
  fun i => if d ≤ i ∧ i < d + n then src (s + (i - d)) else dst i

lemma memcpy_of_mem {dst src : Buf} {d s n i : ℕ} (h : d ≤ i ∧ i < d + n) :
    memcpy dst d src s n i = src (s + (i - d)) := if_pos h

lemma memcpy_of_not_mem {dst src : Buf} {d s n i : ℕ} (h : ¬ (d ≤ i ∧ i < d + n)) :
    memcpy dst d src s n i = dst i := if_neg h

@[simp] lemma memcpy_zero (dst : Buf) (d : ℕ) (src : Buf) (s : ℕ) : memcpy dst d src s 0 = dst := by
  funext i; exact if_neg (by omega)

lemma memcpy_memcpy (dst : Buf) (d : ℕ) (src : Buf) (s m n : ℕ) :
    memcpy (memcpy dst d src s m) (d + m) src (s + m) n = memcpy dst d src s (m + n) := by
  funext i
  by_cases h2 : d + m ≤ i ∧ i < d + m + n
  · rw [memcpy_of_mem h2, memcpy_of_mem (by omega)]
    congr 1; omega
  · rw [memcpy_of_not_mem h2]
    by_cases h1 : d ≤ i ∧ i < d + m
    · rw [memcpy_of_mem h1, memcpy_of_mem (by omega)]
    · rw [memcpy_of_not_mem h1, memcpy_of_not_mem (by omega)]

/-! ## Lists of stores -/

def storeAll (mem : Buf) (stores : List (ℕ × UInt8)) : Buf := stores.foldl (fun m s => update m s.1 s.2) mem

@[simp] lemma storeAll_nil (mem : Buf) : storeAll mem [] = mem := rfl

lemma storeAll_cons (mem : Buf) (s : ℕ × UInt8) (stores : List (ℕ × UInt8)) :
    storeAll mem (s :: stores) = storeAll (update mem s.1 s.2) stores := rfl

variable {stores : List (ℕ × UInt8)} {mem : Buf}

lemma exists_store_of_ne {o : ℕ} (h : storeAll mem stores o ≠ mem o) : ∃ v, (o, v) ∈ stores := by
  induction stores generalizing mem with
  | nil => exact absurd rfl h
  | cons s stores ih =>
    rw [storeAll_cons] at h
    by_cases ho : o = s.1
    · exact ⟨s.2, by simp [ho]⟩
    · have hne : storeAll (update mem s.1 s.2) stores o ≠ update mem s.1 s.2 o := by
        rwa [update_of_ne ho]
      obtain ⟨v, hv⟩ := ih hne
      exact ⟨v, mem_cons_of_mem _ hv⟩

lemma storeAll_of_mem {o : ℕ} {v : UInt8} (hmem : (o, v) ∈ stores)
    (huniq : ∀ v', (o, v') ∈ stores → v' = v) : storeAll mem stores o = v := by
  induction stores generalizing mem with
  | nil => cases hmem
  | cons s stores ih =>
    rw [storeAll_cons]
    by_cases hlater : ∃ v', (o, v') ∈ stores
    · obtain ⟨v', hv'⟩ := hlater
      have heq := huniq v' (mem_cons_of_mem s hv')
      exact ih (heq ▸ hv') fun v'' hv'' => huniq v'' (mem_cons_of_mem s hv'')
    · have hhead : s = (o, v) := by
        rcases List.mem_cons.mp hmem with h | h
        · exact h.symm
        · exact absurd ⟨v, h⟩ hlater
      by_contra hne
      have hstored : storeAll (update mem s.1 s.2) stores o ≠ update mem s.1 s.2 o := by
        rw [hhead, update_self]
        rwa [hhead] at hne
      exact hlater (exists_store_of_ne hstored)

lemma storeAll_chunk (mem data : Buf) (o n : ℕ) {j : ℕ} (hj : j < n) :
    storeAll mem ((List.range n).map fun i => (o + i, data i)) (o + j) = data j := by
  induction n with
  | zero => omega
  | succ n ih =>
    rw [range_succ, map_append, storeAll, foldl_append]
    rcases Nat.lt_succ_iff_lt_or_eq.mp hj with hlt | rfl
    · have hne : o + j ≠ o + n := by omega
      simp only [map_cons, map_nil, foldl_cons, foldl_nil, update_of_ne hne]
      exact ih hlt
    · simp

/-! ## Little-endian numbers -/

def loadLE (b : Buf) (off : ℕ) : ℕ → ℕ
  | 0 => 0
  | n + 1 => (b off).toNat + 256 * loadLE b (off + 1) n

def byteLE (v : ℕ) : Buf := fun i => UInt8.ofNat (v / 256 ^ i)

lemma loadLE_congr {b b' : Buf} {off off' n : ℕ} (h : ∀ i < n, b (off + i) = b' (off' + i)) :
    loadLE b off n = loadLE b' off' n := by
  induction n generalizing off off' with
  | zero => rfl
  | succ n ih =>
    have h0 := h 0 (Nat.succ_pos n)
    have hrest : ∀ i < n, b (off + 1 + i) = b' (off' + 1 + i) := by
      intro i hi
      have := h (i + 1) (by omega)
      rwa [show off + (i + 1) = off + 1 + i by omega, show off' + (i + 1) = off' + 1 + i by omega] at this
    rw [loadLE, loadLE, ih hrest]
    simp only [Nat.add_zero] at h0
    rw [h0]

lemma byteLE_succ (v i : ℕ) : byteLE v (i + 1) = byteLE (v / 256) i := by
  rw [byteLE, byteLE, Nat.div_div_eq_div_mul, pow_succ']

/-- A number stored byte by byte is read back, up to the bytes there are. -/
lemma loadLE_of_byteLE {b : Buf} {off n : ℕ} {v : ℕ} (h : ∀ i < n, b (off + i) = byteLE v i) :
    loadLE b off n = v % 256 ^ n := by
  induction n generalizing off v with
  | zero => simp [loadLE, Nat.mod_one]
  | succ n ih =>
    have h0 : (b off).toNat = v % 256 := by
      have := h 0 (Nat.succ_pos n)
      rw [Nat.add_zero] at this
      rw [this, byteLE, pow_zero, Nat.div_one, UInt8.toNat_ofNat']
    have hrest : ∀ i < n, b (off + 1 + i) = byteLE (v / 256) i := by
      intro i hi
      have := h (i + 1) (by omega)
      rwa [show off + (i + 1) = off + 1 + i by omega, byteLE_succ] at this
    rw [loadLE, h0, ih hrest, pow_succ', Nat.mod_mul]

lemma loadLE_lt (b : Buf) (off n : ℕ) : loadLE b off n < 256 ^ n := by
  induction n generalizing off with
  | zero => simp [loadLE]
  | succ n ih =>
    have hbyte := (b off).toNat_lt
    have hrest := ih (off + 1)
    rw [loadLE, pow_succ']
    omega

lemma byteLE_loadLE (b : Buf) {off n i : ℕ} (hi : i < n) : byteLE (loadLE b off n) i = b (off + i) := by
  induction n generalizing off i with
  | zero => omega
  | succ n ih =>
    have hbyte := (b off).toNat_lt
    rw [loadLE]
    cases i with
    | zero =>
      change _ = b off
      rw [byteLE, pow_zero, Nat.div_one, ← UInt8.toNat_inj, UInt8.toNat_ofNat']
      omega
    | succ i =>
      have hdiv : ((b off).toNat + 256 * loadLE b (off + 1) n) / 256 = loadLE b (off + 1) n := by omega
      rw [byteLE_succ, hdiv, ih (by omega), show off + 1 + i = off + (i + 1) by omega]

end CxlMemSim.Core
