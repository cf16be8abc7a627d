/-
The page cache under any interleaving. `ensure_page_loaded_locked` and `evict_page_locked` go on with the same page
object after a wait. If another thread erased the page meanwhile, the first loads an object that is not in the map, and
`pages_.at` throws (`waiter_outlives_page`).
-/
import CxlMemSim.Ssd.Steps

namespace CxlMemSim.Ssd

open CxlMemSim.Core

variable {n : ℕ} {cfg : SsdStreamingConfig}

/-- where `ensure_page_loaded_locked` has returned true, the map holds the page with its current data; and nothing has
thrown -/
def EnsureSound (cfg : SsdStreamingConfig) (s : Sys n) : Prop :=
  (∀ t job, s.pc t = .loaded job → ∃ o, s.cache.pages.lookup (job.page cfg) = some o ∧
    ((s.cache.heap o).state = .residentClean ∨ (s.cache.heap o).state = .residentDirty ∨
      (job.readAhead = true ∧ (s.cache.heap o).state = .evicting)) ∧
    (s.cache.heap o).data = s.cache.mem (job.page cfg)) ∧ ∀ t, s.pc t ≠ .threw

/-- one thread evicts its page; during the write-back the other starts to read it, sleeps, and wakes when it is gone -/
def waiterRun : List (Fin 2 × Choice) :=
  [(0, .call (.write 0 1 fun _ => 7))] ++ List.replicate 8 (0, .run true) ++
  [(0, .call (.evictAfter 0 1)), (0, .run true), (0, .run true)] ++
  [(1, .call (.read 0 1)), (1, .run true), (1, .run true)] ++
  List.replicate 3 (0, .run true) ++ List.replicate 6 (1, .run true)

/-- A waiter outlives its page. The reader loads an object that is not in the map; `pages_.at` throws. -/
theorem waiter_outlives_page : ¬ EnsureSound tinyConfig (run (step tinyConfig) (start 2 fun _ _ => 0) waiterRun) :=
  fun h => h.2 1 rfl

lemma Inv.ensureSound {s : Sys n} (hi : Inv cfg s) : EnsureSound cfg s := by
  refine ⟨fun t job hpc => ?_, fun t hpc => ?_⟩
  · have hp := hi.pcs t
    rw [hpc] at hp
    obtain ⟨o, hl, hd, hev⟩ := hp
    refine ⟨o, hl, ?_, hi.cache.cached _ _ hl hd⟩
    cases hst : (s.cache.heap o).state with
    | residentClean => exact Or.inl rfl
    | residentDirty => exact Or.inr (Or.inl rfl)
    | evicting =>
      refine Or.inr (Or.inr ⟨?_, rfl⟩)
      by_contra hra
      exact hev (by simpa using hra) hst
    | nonResident | loading => rw [hst] at hd; cases hd
  · have hp := hi.pcs t
    rw [hpc] at hp
    exact hp

/-- Safe under good wake-ups. `ensure_page_loaded_locked` returns true only with the page in the map and current,
and `pages_.at` never throws. -/
theorem ensure_sound (n : ℕ) (cfg : SsdStreamingConfig) (content : ℕ → Buf) (ls : List (Fin n × Choice))
    (hgood : AllSteps (step cfg) (GoodWake cfg) (start n content) ls) :
    EnsureSound cfg (run (step cfg) (start n content) ls) :=
  (Core.run_inv (P := Inv cfg) (fun _ l hi hl => step_inv hi l hl) (inv_start n content) hgood).ensureSound

def goodRun : List (Fin 2 × Choice) :=
  [(0, .call (.write 0 1 fun _ => 7))] ++ List.replicate 5 (0, .run true) ++
  [(1, .call (.read 0 1)), (1, .run true), (1, .run true)] ++ List.replicate 3 (0, .run true) ++
  List.replicate 3 (1, .run true)

theorem ensure_sound_sleeper : AllSteps (step tinyConfig) (GoodWake tinyConfig) (start 2 fun _ _ => 0) goodRun ∧
      EnsureSound tinyConfig (run (step tinyConfig) (start 2 fun _ _ => 0) goodRun) :=
  have h : AllSteps (step tinyConfig) (GoodWake tinyConfig) (start 2 fun _ _ => 0) goodRun := by decide
  ⟨h, ensure_sound 2 tinyConfig (fun _ _ => 0) goodRun h⟩

end CxlMemSim.Ssd
