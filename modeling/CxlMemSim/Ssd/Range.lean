/-
Ranges outside the capacity of the SSD backend. `range_valid` compares the 64-bit sum of address and size with the
capacity; a sum that wraps is caught before, except 2^64, which wraps to 0.
-/
import CxlMemSim.Ssd.Backend

namespace CxlMemSim.Ssd

open CxlMemSim.Core

def Call.range : Call → Option (UInt64 × UInt64)
  | .read addr size => some (addr, size)
  | .write addr size _ => some (addr, size)
  | .flush => none
  | .prefetch addr size => some (addr, size)
  | .evictAfter addr size => some (addr, size)
  | .pin addr size => some (addr, size)
  | .unpin addr size => some (addr, size)
  | .setStreaming addr size => some (addr, size)

def Event.failed : Event → Bool
  | .read _ _ out => out.isNone
  | .write _ _ _ ok => !ok
  | .other ok => !ok

def Outside (cfg : SsdStreamingConfig) (addr size : UInt64) : Prop :=
  size ≠ 0 ∧ cfg.capacityBytes.toNat < addr.toNat + size.toNat

def alone {n : ℕ} (cfg : SsdStreamingConfig) (s : Sys n) (t : Fin n) (c : Call) (oks : List Bool) : Sys n :=
  run (step cfg) s ((t, .call c) :: oks.map fun ok => (t, .run ok))

/-- in every state the call returns, it returns false, and it changes no page, queue or block -/
def Refuses (cfg : SsdStreamingConfig) (c : Call) : Prop :=
  ∀ (n : ℕ) (s : Sys n) (t : Fin n), s.pc t = .idle →
    (∃ k, ∀ oks : List Bool, k ≤ oks.length → (alone cfg s t c oks).pc t = .idle) ∧
    ∀ oks, (alone cfg s t c oks).cache = s.cache ∧
      ((alone cfg s t c oks).pc t = .idle → ∃ e : Event, e.failed = true ∧ (alone cfg s t c oks).log = s.log ++ [e])

section Test

variable {cfg : SsdStreamingConfig} {addr size : UInt64}

lemma not_wraps_iff (hsize : size ≠ 0) :
    ¬ addr > 0xFFFFFFFFFFFFFFFF - (size - 1) ↔ addr.toNat + size.toNat ≤ 2 ^ 64 := by
  have hpos : 1 ≤ size.toNat := Nat.one_le_iff_ne_zero.mpr fun h => hsize (UInt64.toNat_inj.mp h)
  have hlt := size.toNat_lt
  have hone : (size - 1).toNat = size.toNat - 1 := UInt64.toNat_sub_of_le _ _ (UInt64.le_iff_toNat_le.mpr hpos)
  have hmax : (0xFFFFFFFFFFFFFFFF - (size - 1) : UInt64).toNat = 2 ^ 64 - 1 - (size.toNat - 1) := by
    rw [UInt64.toNat_sub_of_le _ _ (UInt64.le_iff_toNat_le.mpr (by rw [hone]; simp; omega)), hone]
    rfl
  rw [gt_iff_lt, UInt64.lt_iff_toNat_lt, hmax]
  omega

lemma rangeValid_outside (hout : Outside cfg addr size) :
    rangeValid cfg addr size = true ↔ addr.toNat + size.toNat = 2 ^ 64 := by
  obtain ⟨hsize, hbeyond⟩ := hout
  unfold rangeValid
  rw [if_neg hsize]
  by_cases hwraps : addr.toNat + size.toNat ≤ 2 ^ 64
  · rw [if_neg ((not_wraps_iff hsize).mpr hwraps), decide_eq_true_eq, UInt64.le_iff_toNat_le, UInt64.toNat_add]
    rcases hwraps.eq_or_lt with heq | hlt
    · simp [heq]
    · rw [Nat.mod_eq_of_lt hlt]
      omega
  · rw [if_pos (not_not.mp (mt (not_wraps_iff hsize).mp hwraps))]
    simp only [Bool.false_eq_true, false_iff]
    omega

lemma Call.refused_of_range (cfg : SsdStreamingConfig) {c : Call} (hrange : c.range = some (addr, size)) :
    if rangeValid cfg addr size then c.refused cfg = none else ∃ e, c.refused cfg = some e ∧ e.failed = true := by
  cases c <;> first
    | (obtain ⟨rfl, rfl⟩ := Prod.mk.inj (Option.some.inj hrange)
       split_ifs with h <;> simp [Call.refused, h, Event.failed])
    | cases hrange

end Test

section Alone

variable {n : ℕ} {cfg : SsdStreamingConfig} {s : Sys n} {t : Fin n}

lemma run_idle (hidle : s.pc t = .idle) (oks : List Bool) :
    run (step cfg) s (oks.map fun ok => (t, Choice.run ok)) = s := by
  induction oks with
  | nil => rfl
  | cons ok oks ih =>
    have hstep : step cfg s (t, .run ok) = s := by simp [step, hidle]
    rw [List.map_cons, Core.run_cons, hstep, ih]

lemma alone_refused (hidle : s.pc t = .idle) {c : Call} {e : Event} (h : c.refused cfg = some e) (oks : List Bool) :
    alone cfg s t c oks = { s with log := s.log ++ [e] } := by
  have hstep : step cfg s (t, .call c) = { s with log := s.log ++ [e] } := by simp [step, hidle, h]
  rw [alone, Core.run_cons, hstep]
  exact run_idle (s := { s with log := s.log ++ [e] }) hidle oks

lemma run_passes {f : ℕ → Pc} {last : ℕ} (hpass : ∀ s : Sys n, s.cache.pages = ∅ → ∀ p ≤ last, s.pc t = f p →
      step cfg s (t, .run true) = s.goto t (f (p + 1)))
    (k : ℕ) : ∀ (s : Sys n) (p : ℕ), s.cache.pages = ∅ → s.pc t = f p → p + k = last + 1 →
      run (step cfg) s ((List.replicate k true).map fun ok => (t, .run ok)) = s.goto t (f (last + 1)) := by
  induction k with
  | zero =>
    intro s p _ hpc hend
    obtain rfl : p = last + 1 := hend
    simp [Sys.goto, ← hpc]
  | succ k ih =>
    intro s p hempty hpc hend
    rw [List.replicate_succ, List.map_cons, Core.run_cons, hpass s hempty p (by omega) hpc,
      ih (s.goto t (f (p + 1))) (p + 1) hempty (by simp [Sys.goto]) (by omega)]
    simp [Sys.goto]

end Alone

lemma alone_passes {cfg : SsdStreamingConfig} {c : Call} {f : ℕ → Pc} {first last : ℕ} (content : ℕ → Buf)
    (hcall : c.refused cfg = none) (hle : first ≤ last)
    (henter : ∀ s : Sys 1, enter cfg s 0 c (.run true) = { s with lock := some 0 }.goto 0 (f first))
    (hpass : ∀ s : Sys 1, s.cache.pages = ∅ → ∀ p ≤ last, s.pc 0 = f p →
      step cfg s (0, .run true) = s.goto 0 (f (p + 1)))
    (hend : ∀ s : Sys 1, s.pc 0 = f (last + 1) → step cfg s (0, .run true) = s.finish 0 (.other true)) :
    ∃ oks, (alone cfg (start 1 content) 0 c oks).pc 0 = .idle ∧
      (alone cfg (start 1 content) 0 c oks).log = [.other true] := by
  have hstart : step cfg (step cfg (start 1 content) (0, .call c)) (0, .run true) =
      { start 1 content with lock := some 0 }.goto 0 (f first) := by
    simp [step, start, hcall, Sys.goto, henter]
  refine ⟨true :: (List.replicate (last + 1 - first) true ++ [true]), ?_⟩
  unfold alone
  rw [List.map_cons, Core.run_cons, Core.run_cons, hstart, List.map_append, Core.run_append,
    run_passes hpass (last + 1 - first) _ first rfl (by simp [Sys.goto]) (by omega)]
  rw [List.map_singleton, Core.run_cons, Core.run_nil, hend _ (by simp [Sys.goto])]
  simp [Sys.finish, Sys.release, Sys.goto, start]

/-- a range that passes the test is gone through: pages are made for it, or the call succeeds -/
lemma alone_accepted {cfg : SsdStreamingConfig} {c : Call} {addr size : UInt64} (content : ℕ → Buf)
    (hrange : c.range = some (addr, size)) (hsize : 0 < size.toNat) (hvalid : c.refused cfg = none) :
    ∃ oks, let s := alone cfg (start 1 content) 0 c oks
      s.cache.nextObj = 1 ∨ s.pc 0 = .idle ∧ s.log = [.other true] := by
  have hlast : firstPage cfg addr ≤ lastPage cfg addr size := Nat.div_le_div_right (by omega)
  have hroom := cfg.cache_pos
  cases c with
  | flush => cases hrange
  | evictAfter a m =>
    obtain ⟨rfl, rfl⟩ := Prod.mk.inj (Option.some.inj hrange)
    obtain ⟨oks, h⟩ := alone_passes (f := fun p => .evictLoop p (lastPage cfg a m) true) content hvalid hlast
      (fun s => rfl)
      (fun s hempty p hp hpc => by
        simp [step, hpc, Pc.wakes, stepOk, evictLoopStep, hp, evictPage, hempty, evictReturn])
      (fun s hpc => by simp [step, hpc, Pc.wakes, stepOk, evictLoopStep])
    exact ⟨oks, .inr h⟩
  | unpin a m =>
    obtain ⟨rfl, rfl⟩ := Prod.mk.inj (Option.some.inj hrange)
    obtain ⟨oks, h⟩ := alone_passes (f := fun p => .unpinLoop p (lastPage cfg a m)) content hvalid hlast
      (fun s => rfl)
      (fun s hempty p hp hpc => by simp [step, hpc, Pc.wakes, stepOk, unpinLoopStep, hp, hempty])
      (fun s hpc => by simp [step, hpc, Pc.wakes, stepOk, unpinLoopStep])
    exact ⟨oks, .inr h⟩
  | _ =>
    obtain ⟨rfl, rfl⟩ := Prod.mk.inj (Option.some.inj hrange)
    refine ⟨[true, true, true], .inl ?_⟩
    simp [alone, run, step, start, hvalid, Sys.goto, enter, Call.start, stepOk, Pc.wakes, loopStep, Job.more, hlast,
      hsize, ensure, roomStep, Cache.size, ensureGet, Cache.getOrCreate, Cache.create, Cache.busy, newPage,
      SsdPageState.busy, ensureChecked, Sys.withCache, streamLoopStep, streamGet, Sys.modify, Cache.modify]

/-- a range not inside the capacity is refused exactly when it does not end at 2^64 -/
theorem refuses_iff (cfg : SsdStreamingConfig) (c : Call) (addr size : UInt64) (hrange : c.range = some (addr, size))
    (hout : Outside cfg addr size) : Refuses cfg c ↔ addr.toNat + size.toNat ≠ 2 ^ 64 := by
  have hrefused := Call.refused_of_range cfg hrange
  constructor
  · -- the first page of the range is made, or the call returns true
    intro href hwrap
    rw [if_pos ((rangeValid_outside hout).mpr hwrap)] at hrefused
    have hsize : 0 < size.toNat := Nat.pos_of_ne_zero fun h => hout.1 (UInt64.toNat_inj.mp h)
    obtain ⟨oks, hmade | ⟨hidle, hlog⟩⟩ := alone_accepted (fun _ _ => 0) hrange hsize hrefused
    · rw [((href 1 _ 0 rfl).2 oks).1] at hmade
      cases hmade
    · obtain ⟨e, hfailed, he⟩ := ((href 1 _ 0 rfl).2 oks).2 hidle
      obtain rfl : Event.other true = e := List.singleton_inj.mp (hlog.symm.trans he)
      cases hfailed
  · intro hne n s t hidle
    rw [if_neg fun h => hne ((rangeValid_outside hout).mp h)] at hrefused
    obtain ⟨e, he, hfailed⟩ := hrefused
    have halone := alone_refused hidle he
    refine ⟨⟨0, fun oks _ => by rw [halone]; exact hidle⟩, fun oks => ?_⟩
    rw [halone]
    exact ⟨rfl, fun _ => ⟨e, hfailed, rfl⟩⟩

theorem refuses_past_end : Refuses tinyConfig (.pin 1024 512) :=
  (refuses_iff tinyConfig (.pin 1024 512) 1024 512 rfl ⟨by decide, by decide⟩).mpr (by decide)

/-- the last 512 bytes of the 64-bit space, over a store of 1024: `evict_after` and `set_streaming` return true -/
theorem top_page_accepted : Outside tinyConfig 0xFFFFFFFFFFFFFE00 512 ∧
    (alone tinyConfig (start 1 fun _ _ => 0) 0 (.evictAfter 0xFFFFFFFFFFFFFE00 512) [true, true, true]).log.map
      Event.failed = [false] ∧
    (alone tinyConfig (start 1 fun _ _ => 0) 0 (.setStreaming 0xFFFFFFFFFFFFFE00 512) [true, true, true, true]).log.map
      Event.failed = [false] ∧ (alone tinyConfig (start 1 fun _ _ => 0) 0 (.setStreaming 0xFFFFFFFFFFFFFE00 512)
      [true, true, true, true]).cache.clockQueue = [2 ^ 55 - 1] :=
  ⟨⟨by decide, by decide⟩, by decide +kernel, by decide +kernel, by decide +kernel⟩

end CxlMemSim.Ssd
