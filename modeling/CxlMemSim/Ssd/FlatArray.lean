/-
The page cache, used by one thread, is a flat array of bytes under any I/O failures. `Explains`: a read that returned
true read the array; a write that returned true stored all its bytes, one that returned false those of some of its first
pages.
-/
import CxlMemSim.Ssd.Steps

namespace CxlMemSim.Ssd

open Function
open CxlMemSim.Core

variable {n : ℕ} {cfg : SsdStreamingConfig} {s s' : Sys n} {t : Fin n}

def flat (cfg : SsdStreamingConfig) (m : ℕ → Buf) : Buf := fun a => m (a / cfg.ps) (a % cfg.ps)

/-- the bytes of a write that may have been stored: all, none, or up to the end of a page -/
def PagePrefix (cfg : SsdStreamingConfig) (addr size k : ℕ) : Prop :=
  k = size ∨ k = 0 ∨ (k < size ∧ (addr + k) % cfg.ps = 0)

def Explains (cfg : SsdStreamingConfig) (A : Buf) : List Event → Buf → Prop
  | [], A' => A = A'
  | .read addr size out :: es, A' => (∀ dst ∈ out, ∀ i < size, dst i = A (addr + i)) ∧ Explains cfg A es A'
  | .write addr size src ok :: es, A' =>
    ∃ k, PagePrefix cfg addr size k ∧ (ok = true → k = size) ∧ Explains cfg (memcpy A addr src 0 k) es A'
  | .other _ :: es, A' => Explains cfg A es A'

variable {A : Buf} {p : Pc} {c : Cache} {o : ObjId} {j : Option Job} {e : Event} {A₀ : Buf}

lemma explains_append {B C : Buf} {es es' : List Event} (h : Explains cfg A es B) (h' : Explains cfg B es' C) :
    Explains cfg A (es ++ es') C := by
  induction es generalizing A with
  | nil =>
    have : A = B := h
    rwa [this]
  | cons e es ih =>
    cases e with
    | read addr size out => exact ⟨h.1, ih h.2⟩
    | write addr size src ok =>
      obtain ⟨k, hk, hok, hrest⟩ := h
      exact ⟨k, hk, hok, ih hrest⟩
    | other ok => exact ih h

lemma flat_store (cfg : SsdStreamingConfig) (m : ℕ → Buf) (src : Buf) (pos from' len : ℕ)
    (hlen : pos % cfg.ps + len ≤ cfg.ps) :
    flat cfg (update m (pos / cfg.ps) (memcpy (m (pos / cfg.ps)) (pos % cfg.ps) src from' len)) =
      memcpy (flat cfg m) pos src from' len := by
  have hps := cfg.ps_pos
  funext a
  unfold flat
  have hpos := Nat.div_add_mod pos cfg.ps
  have ha := Nat.div_add_mod a cfg.ps
  have hamod := Nat.mod_lt a hps
  by_cases hin : pos ≤ a ∧ a < pos + len
  · -- the byte lies in the page of the chunk
    have hdiv : a / cfg.ps = pos / cfg.ps := by
      refine Nat.div_eq_of_lt_le ?_ ?_
      · rw [Nat.mul_comm]; omega
      · rw [Nat.succ_mul, Nat.mul_comm]; omega
    have hmod : a % cfg.ps = pos % cfg.ps + (a - pos) := by
      rw [hdiv] at ha
      omega
    rw [memcpy_of_mem hin, hdiv, update_self, hmod, memcpy_of_mem (by omega)]
    congr 1; omega
  · rw [memcpy_of_not_mem hin]
    by_cases hdiv : a / cfg.ps = pos / cfg.ps
    · rw [hdiv, update_self, memcpy_of_not_mem]
      rw [hdiv] at ha
      omega
    · rw [update_of_ne hdiv]

/-! ## The call a thread is in -/

def Room.job : Room → Option Job
  | .demand job => some job
  | .ahead job _ _ => some job
  | .streaming _ _ => none

def Trim.job : Trim → Option Job
  | .demand job _ => some job
  | .ahead job _ _ => some job

def OneRet.job : OneRet → Option Job
  | .room r => r.job
  | .trim r => r.job

def EvictRet.job : EvictRet → Option Job
  | .one ret => ret.job
  | .after _ _ _ => none

def FlushRet.job : FlushRet → Option Job
  | .evict _ ret => ret.job
  | .flush _ _ _ => none

def LoadRet.job : LoadRet → Option Job
  | .demand job => some job
  | .ahead job _ _ => some job

def Pc.job : Pc → Option Job
  | .loop job => some job
  | .room r => r.job
  | .evictOne _ ret => ret.job
  | .trim r => r.job
  | .ahead job _ _ => some job
  | .loaded job => some job
  | .loadRead _ ret => ret.job
  | .loadDone _ _ ret => ret.job
  | .flushWrite _ ret => ret.job
  | .flushDone _ _ ret => ret.job
  | .ensureWait job _ => some job
  | .evictWait _ _ ret => ret.job
  | .flushWait _ ret => ret.job
  | _ => none

def Pc.waits : Pc → Bool
  | .ensureWait _ _ => true
  | .evictWait _ _ _ => true
  | .flushWait _ _ => true
  | _ => false

def GivesUp : Option Job → Event → Prop
  | some job, e => e = job.event false
  | none, e => ∃ ok, e = .other ok

/-- between two chunks the contents stay, and the thread is in its call or it returned false -/
def Silent (s s' : Sys n) (t : Fin n) (j : Option Job) : Prop :=
  s'.cache.mem = s.cache.mem ∧
    ((s'.log = s.log ∧ (s'.pc t).job = j ∧ ((s'.pc t).waits = true → ∃ o, s'.cache.busy o = true)) ∨
      ∃ e, GivesUp j e ∧ s'.log = s.log ++ [e] ∧ s'.pc t = .idle)

section

variable (hmem : c.mem = s.cache.mem)
include hmem

lemma silent_goto (hw : p.waits = false) : Silent s ((s.withCache c).goto t p) t p.job :=
  ⟨hmem, Or.inl ⟨rfl, by rw [goto_pc_self], fun h => by rw [goto_pc_self, hw] at h; cases h⟩⟩

lemma silent_release (hw : p.waits = false) : Silent s ((s.withCache c).release t p) t p.job := by
  refine ⟨hmem, Or.inl ⟨rfl, ?_, fun h => ?_⟩⟩
  · simp [Sys.release]
  · simp only [Sys.release, withCache_pc, update_self] at h
    rw [hw] at h
    cases h

lemma silent_sleep (hb : c.busy o = true) : Silent s ((s.withCache c).release t p) t p.job :=
  ⟨hmem, Or.inl ⟨rfl, by simp [Sys.release], fun _ => ⟨o, hb⟩⟩⟩

lemma silent_finish (h : GivesUp j e) : Silent s ((s.withCache c).finish t e) t j :=
  ⟨hmem, Or.inr ⟨e, h, rfl, by simp [Sys.finish, Sys.release]⟩⟩

end

lemma Silent.of_cache (h : Silent (s.withCache c) s' t j) (hmem : c.mem = s.cache.mem) : Silent s s' t j :=
  ⟨h.1.trans hmem, h.2⟩

/-! ## The steps between two chunks are silent -/

lemma loadReturn_silent (o : ObjId) (ret : LoadRet) (ok : Bool) : Silent s (loadReturn s t o ret ok) t ret.job := by
  unfold loadReturn
  cases ret with
  | ahead job x i => exact silent_goto (c := s.cache) rfl rfl
  | demand job =>
    dsimp only
    split_ifs
    · exact silent_goto (p := .ahead job o 1) rfl rfl
    · exact silent_goto (p := .loaded job) (c := s.cache) rfl rfl
    · exact silent_finish (c := s.cache) rfl rfl

lemma loadPage_silent (o : ObjId) (ret : LoadRet) : Silent s (loadPage cfg s t o ret) t ret.job := by
  unfold loadPage
  split_ifs
  · exact loadReturn_silent o ret false
  · exact silent_release (p := .loadRead o ret) rfl rfl

lemma loadFinish_silent (o : ObjId) (ok : Bool) (ret : LoadRet) : Silent s (loadFinish s t o ok ret) t ret.job :=
  (loadReturn_silent (s := s.modify o _) o ret ok).of_cache rfl

lemma aheadStop_silent (job : Job) (x : ObjId) : Silent s (aheadStop s t job x) t (some job) :=
  silent_goto (p := .loaded job) rfl rfl

lemma oneReturn_silent (ret : OneRet) (ok : Bool) : Silent s (oneReturn cfg s t ret ok) t ret.job := by
  unfold oneReturn
  split
  · exact silent_goto (p := .room _) (c := s.cache) rfl rfl
  · exact silent_finish (c := s.cache) rfl rfl
  · exact aheadStop_silent _ _
  · exact silent_finish (c := s.cache) rfl ⟨false, rfl⟩
  · exact silent_goto (p := .trim _) (c := s.cache) rfl rfl
  · exact loadPage_silent _ (.demand _)
  · exact silent_goto (p := .ahead _ _ _) (c := s.cache) rfl rfl

lemma evictReturn_silent (ret : EvictRet) (ok : Bool) : Silent s (evictReturn cfg s t ret ok) t ret.job := by
  unfold evictReturn
  cases ret with
  | one ret => exact oneReturn_silent ret ok
  | after a last acc => exact silent_goto (p := .evictLoop _ _ _) (c := s.cache) rfl rfl

lemma flushReturn_silent (o : ObjId) (ret : FlushRet) (ok : Bool) :
    Silent s (flushReturn cfg s t o ret ok) t ret.job := by
  unfold flushReturn
  cases ret with
  | flush a b acc => exact silent_goto (p := .flushLoop _ _ _) (c := s.cache) rfl rfl
  | evict a ret =>
    dsimp only
    split_ifs
    · exact (evictReturn_silent (s := (s.modify o _).withCache _) ret true).of_cache rfl
    · exact evictReturn_silent ret false

lemma flushPage_silent (o : ObjId) (ret : FlushRet) : Silent s (flushPage cfg s t o ret) t ret.job := by
  unfold flushPage
  split_ifs with hb
  · exact silent_sleep (p := .flushWait o ret) (c := s.cache) rfl hb
  · exact flushReturn_silent o ret true
  · exact silent_release (p := .flushWrite o ret) rfl rfl

lemma flushFinish_silent (o : ObjId) (ok : Bool) (ret : FlushRet) : Silent s (flushFinish cfg s t o ok ret) t ret.job :=
  (flushReturn_silent (s := s.modify o _) o ret ok).of_cache rfl

lemma evictChecked_silent (a : ℕ) (o : ObjId) (ret : EvictRet) : Silent s (evictChecked cfg s t a o ret) t ret.job := by
  unfold evictChecked
  split_ifs
  · exact evictReturn_silent ret false
  · exact flushPage_silent o (.evict a ret)

lemma evictPage_silent (a : ℕ) (ret : EvictRet) : Silent s (evictPage cfg s t a ret) t ret.job := by
  unfold evictPage
  split
  · exact evictReturn_silent ret true
  · split_ifs with hb
    · exact silent_sleep (p := .evictWait a _ ret) (c := s.cache) rfl hb
    · exact evictChecked_silent a _ ret

lemma callEvictOne_silent (ret : OneRet) : Silent s (callEvictOne cfg s t ret) t ret.job := by
  unfold callEvictOne
  split_ifs
  · exact oneReturn_silent ret true
  · exact silent_goto (p := .evictOne _ ret) (c := s.cache) rfl rfl

lemma evictOne_silent (k : ℕ) (ret : OneRet) : Silent s (evictOne cfg s t k ret) t ret.job := by
  unfold evictOne
  split
  · exact oneReturn_silent ret false
  · exact oneReturn_silent ret false
  · dsimp only
    split
    · exact silent_goto (p := .evictOne _ ret) rfl rfl
    · split_ifs
      · exact silent_goto (p := .evictOne _ ret) rfl rfl
      · exact silent_goto (p := .evictOne _ ret) rfl rfl
      · exact (evictPage_silent (s := s.withCache _) _ (.one ret)).of_cache rfl

lemma getOrCreate_mem {c' : Cache} {a : ℕ} {alloc : Bool}
    (h : c.getOrCreate a alloc = some (c', o)) : c'.mem = c.mem := by
  unfold Cache.getOrCreate at h
  split at h
  · cases h; rfl
  · split_ifs at h
    cases h; rfl

lemma ensureChecked_silent (job : Job) (o : ObjId) : Silent s (ensureChecked s t job o) t (some job) := by
  unfold ensureChecked
  split_ifs
  · exact silent_goto (p := .loaded job) rfl rfl
  · exact silent_goto (p := .trim (.demand job o)) (c := s.cache) rfl rfl

lemma ensureGet_silent (job : Job) (alloc : Bool) : Silent s (ensureGet cfg s t job alloc) t (some job) := by
  unfold ensureGet
  split
  · exact silent_finish (c := s.cache) rfl rfl
  · rename_i c o hget
    have hmem := getOrCreate_mem hget
    split_ifs with hb
    · exact silent_sleep (p := .ensureWait job o) hmem hb
    · exact (ensureChecked_silent (s := s.withCache c) job o).of_cache hmem

lemma aheadGet_silent (job : Job) (x : ObjId) (i : UInt32) (alloc : Bool) :
    Silent s (aheadGet cfg s t job x i alloc) t (some job) := by
  unfold aheadGet
  split
  · exact aheadStop_silent job x
  · rename_i c o hget
    have hmem := getOrCreate_mem hget
    split_ifs
    · exact (loadPage_silent (s := s.withCache c) o (.ahead job x i)).of_cache hmem
    · exact silent_goto (p := .trim (.ahead job x i)) hmem rfl

lemma streamGet_silent (a last : ℕ) (alloc : Bool) : Silent s (streamGet s t a last alloc) t none := by
  unfold streamGet
  split
  · exact silent_finish (c := s.cache) rfl ⟨false, rfl⟩
  · rename_i c o hget
    have hmem : c.mem = s.cache.mem := getOrCreate_mem hget
    exact silent_goto (p := .streamLoop _ _) (c := c.modify o _) hmem rfl

lemma roomStep_silent (r : Room) (alloc : Bool) : Silent s (roomStep cfg s t r alloc) t r.job := by
  unfold roomStep
  split_ifs
  · exact callEvictOne_silent (.room r)
  · cases r with
    | demand job => exact ensureGet_silent job alloc
    | ahead job x i => exact aheadGet_silent job x i alloc
    | streaming a last => exact streamGet_silent a last alloc

lemma trimStep_silent (r : Trim) : Silent s (trimStep cfg s t r) t r.job := by
  unfold trimStep
  split_ifs
  · exact callEvictOne_silent (.trim r)
  · cases r with
    | demand job o => exact loadPage_silent o (.demand job)
    | ahead job x i => exact silent_goto (p := .ahead _ _ _) (c := s.cache) rfl rfl

lemma aheadStep_silent (job : Job) (x : ObjId) (i : UInt32) (alloc : Bool) :
    Silent s (aheadStep cfg s t job x i alloc) t (some job) := by
  unfold aheadStep
  split_ifs
  · exact aheadGet_silent job x i alloc
  · exact silent_goto (p := .room (.ahead job x i)) (c := s.cache) rfl rfl
  · exact aheadStop_silent job x

lemma readPage_silent (o : ObjId) (ret : LoadRet) (ok : Bool) : Silent s (readPage s t o ret ok) t ret.job := by
  unfold readPage
  split_ifs
  · exact silent_goto (p := .loadDone o true ret) rfl rfl
  · exact silent_goto (p := .loadDone o false ret) (c := s.cache) rfl rfl

lemma writePage_silent (o : ObjId) (ret : FlushRet) (ok : Bool) : Silent s (writePage s t o ret ok) t ret.job := by
  unfold writePage
  split_ifs
  · exact silent_goto (p := .flushDone o true ret) rfl rfl
  · exact silent_goto (p := .flushDone o false ret) (c := s.cache) rfl rfl

lemma evictLoopStep_silent (a last : ℕ) (acc : Bool) : Silent s (evictLoopStep cfg s t a last acc) t none := by
  unfold evictLoopStep
  split_ifs
  · exact evictPage_silent a (.after a last acc)
  · exact silent_finish (c := s.cache) rfl ⟨acc, rfl⟩

lemma streamLoopStep_silent (a last : ℕ) (alloc : Bool) : Silent s (streamLoopStep s t a last alloc) t none := by
  unfold streamLoopStep
  split_ifs
  · exact streamGet_silent a last alloc
  · exact silent_goto (p := .room (.streaming a last)) (c := s.cache) rfl rfl
  · exact silent_finish (c := s.cache) rfl ⟨true, rfl⟩

lemma unpinLoopStep_silent (a last : ℕ) : Silent s (unpinLoopStep s t a last) t none := by
  unfold unpinLoopStep
  split_ifs
  · split
    · exact silent_goto (p := .unpinLoop _ _) (c := s.cache) rfl rfl
    · exact silent_goto (p := .unpinLoop _ _) rfl rfl
  · exact silent_finish (c := s.cache) rfl ⟨true, rfl⟩

lemma flushLoopStep_silent (a b : List ObjId) (acc fsync : Bool) :
    Silent s (flushLoopStep cfg s t a b acc fsync) t none := by
  unfold flushLoopStep
  split
  · exact flushPage_silent _ (.flush a _ acc)
  · exact silent_finish rfl ⟨_, rfl⟩

/-! ## One thread and the array -/

def InCall (cfg : SsdStreamingConfig) (A M : Buf) : Option Job → Prop
  | some (.read addr size copied dst) => A = M ∧ copied ≤ size ∧ ∀ i < copied, dst i = A (addr + i)
  | some (.write addr size copied src) => M = memcpy A addr src 0 copied ∧ PagePrefix cfg addr size copied
  | _ => A = M

structure ArrayInv (cfg : SsdStreamingConfig) (A₀ : Buf) (s : Sys 1) : Prop where
  inv : Inv cfg s
  awake : (s.pc 0).waits = false
  calls : ∃ A, Explains cfg A₀ s.log A ∧ InCall cfg A (flat cfg s.cache.mem) (s.pc 0).job

lemma explains_givesUp {M : Buf} (h : InCall cfg A M j) (he : GivesUp j e) : Explains cfg A [e] M := by
  cases j with
  | none =>
    obtain ⟨ok, rfl⟩ := he
    exact h
  | some job =>
    have he' : e = job.event false := he
    subst he'
    cases job with
    | read addr size copied dst => exact ⟨by simp, h.1⟩
    | write addr size copied src => exact ⟨copied, h.2, fun hh => (by cases hh), h.1.symm⟩
    | prefetch a last | pin a last => exact h

variable {job : Job}

lemma explains_done {M : Buf} (h : InCall cfg A M (some job)) (hmore : job.more = false) :
    Explains cfg A [job.event true] M := by
  cases job with
  | read addr size copied dst =>
    obtain ⟨hA, hle, hdst⟩ := h
    have hsize : size ≤ copied := by simpa [Job.more] using hmore
    refine ⟨fun d hd i hi => ?_, hA⟩
    have : d = dst := by simpa [Job.event] using hd.symm
    rw [this]
    exact hdst i (by omega)
  | write addr size copied src =>
    obtain ⟨hM, hpre⟩ := h
    have hsize : size ≤ copied := by simpa [Job.more] using hmore
    have hk : copied = size := by rcases hpre with h | h | h <;> omega
    exact ⟨copied, Or.inl hk, fun _ => hk, hM.symm⟩
  | prefetch a last | pin a last => exact h

lemma Silent.calls {s s' : Sys 1} (h : Silent s s' 0 j)
    (hc : ∃ A, Explains cfg A₀ s.log A ∧ InCall cfg A (flat cfg s.cache.mem) j) :
    (∃ A, Explains cfg A₀ s'.log A ∧ InCall cfg A (flat cfg s'.cache.mem) (s'.pc 0).job) ∧
      ((s'.pc 0).waits = true → ∃ o, s'.cache.busy o = true) := by
  obtain ⟨A, hA, hin⟩ := hc
  obtain ⟨hmem, ⟨hlog, hjob, hw⟩ | ⟨e, he, hlog, hidle⟩⟩ := h
  · exact ⟨⟨A, by rw [hlog]; exact hA, by rw [hmem, hjob]; exact hin⟩, hw⟩
  · refine ⟨⟨flat cfg s.cache.mem, by rw [hlog]; exact explains_append hA (explains_givesUp hin he), ?_⟩, fun hh => ?_⟩
    · rw [hidle, hmem]
      rfl
    · rw [hidle] at hh
      cases hh

lemma chunk_le (cfg : SsdStreamingConfig) (pos left : ℕ) :
    chunk cfg pos left ≤ left ∧ pos % cfg.ps + chunk cfg pos left ≤ cfg.ps := by
  have := Nat.mod_lt pos cfg.ps_pos
  unfold chunk
  omega

lemma flat_chunk (m : ℕ → Buf) {pos d : ℕ} (hd : pos % cfg.ps + d < cfg.ps) :
    flat cfg m (pos + d) = m (pos / cfg.ps) (pos % cfg.ps + d) := by
  have hpos := Nat.div_add_mod pos cfg.ps
  have hdiv : (pos + d) / cfg.ps = pos / cfg.ps := by
    refine Nat.div_eq_of_lt_le ?_ ?_
    · rw [Nat.mul_comm]; omega
    · rw [Nat.succ_mul, Nat.mul_comm]; omega
  have hmod : (pos + d) % cfg.ps = pos % cfg.ps + d := by
    have := Nat.div_add_mod (pos + d) cfg.ps
    rw [hdiv] at this
    omega
  rw [flat, hdiv, hmod]

lemma pagePrefix_chunk {addr size copied : ℕ} (h : PagePrefix cfg addr size copied) :
    PagePrefix cfg addr size (copied + chunk cfg (addr + copied) (size - copied)) := by
  have hmod := Nat.mod_lt (addr + copied) cfg.ps_pos
  by_cases hlt : size ≤ copied
  · have hzero : chunk cfg (addr + copied) (size - copied) = 0 := by unfold chunk; omega
    rwa [hzero]
  by_cases hend : size - copied ≤ cfg.ps - (addr + copied) % cfg.ps
  · left
    unfold chunk
    omega
  · right; right
    have hlen : chunk cfg (addr + copied) (size - copied) = cfg.ps - (addr + copied) % cfg.ps := by unfold chunk; omega
    rw [hlen]
    refine ⟨by omega, ?_⟩
    have hsum : addr + (copied + (cfg.ps - (addr + copied) % cfg.ps)) = cfg.ps * ((addr + copied) / cfg.ps + 1) := by
      have := Nat.div_add_mod (addr + copied) cfg.ps
      rw [Nat.mul_add, Nat.mul_one]
      omega
    rw [hsum]
    exact Nat.mul_mod_right _ _

/-- A chunk. The body of a loop, with the page loaded, reads the array or stores in it. -/
lemma useLoaded_calls {s : Sys 1} (hi : Inv cfg s) (hpc : s.pc 0 = .loaded job)
    (hc : ∃ A, Explains cfg A₀ s.log A ∧ InCall cfg A (flat cfg s.cache.mem) (some job)) :
    (∃ A, Explains cfg A₀ (useLoaded cfg s 0 job).log A ∧
      InCall cfg A (flat cfg (useLoaded cfg s 0 job).cache.mem) ((useLoaded cfg s 0 job).pc 0).job) ∧
      ((useLoaded cfg s 0 job).pc 0).waits = false := by
  obtain ⟨A, hA, hin⟩ := hc
  have hp := hi.pcs 0
  rw [hpc] at hp
  obtain ⟨o, hl, hd, -⟩ := hp
  have hdata := hi.cache.cached _ _ hl hd
  unfold useLoaded
  cases job with
  | prefetch a last =>
    refine ⟨⟨A, hA, ?_⟩, by rw [goto_pc_self]; rfl⟩
    rw [goto_pc_self]
    exact hin
  | pin a last =>
    dsimp only [Job.page] at hl ⊢
    rw [hl]
    refine ⟨⟨A, hA, ?_⟩, by rw [goto_pc_self]; rfl⟩
    rw [goto_pc_self]
    exact hin
  | read addr size copied dst =>
    dsimp only [Job.page] at hl hdata ⊢
    rw [hl]
    obtain ⟨hAM, hle, hdst⟩ := hin
    have hchunk := chunk_le cfg (addr + copied) (size - copied)
    refine ⟨⟨A, hA, ?_⟩, by rw [goto_pc_self]; rfl⟩
    rw [goto_pc_self]
    refine ⟨hAM, by omega, fun i hi' => ?_⟩
    by_cases hold : i < copied
    · rw [memcpy_of_not_mem (by omega)]
      exact hdst i hold
    · rw [memcpy_of_mem (by omega), hdata, hAM]
      have hpos : addr + i = addr + copied + (i - copied) := by omega
      rw [hpos, flat_chunk _ (by omega)]
  | write addr size copied src =>
    dsimp only [Job.page] at hl ⊢
    rw [hl]
    obtain ⟨hM, hpre⟩ := hin
    have hchunk := chunk_le cfg (addr + copied) (size - copied)
    refine ⟨⟨A, hA, ?_⟩, by rw [goto_pc_self]; rfl⟩
    rw [goto_pc_self]
    refine ⟨?_, pagePrefix_chunk hpre⟩
    have hstore := flat_store cfg s.cache.mem src (addr + copied) copied
      (chunk cfg (addr + copied) (size - copied)) hchunk.2
    have hjoin := memcpy_memcpy A addr src 0 copied (chunk cfg (addr + copied) (size - copied))
    rw [Nat.zero_add] at hjoin
    exact hstore.trans (by rw [hM, hjoin])

/-! ## Runs of one thread -/

def Goes (cfg : SsdStreamingConfig) (A₀ : Buf) (s : Sys 1) : Prop :=
  (∃ A, Explains cfg A₀ s.log A ∧ InCall cfg A (flat cfg s.cache.mem) (s.pc 0).job) ∧
    ((s.pc 0).waits = true → ∃ o, s.cache.busy o = true)

lemma loopStep_goes {s : Sys 1} (alloc : Bool)
    (hc : ∃ A, Explains cfg A₀ s.log A ∧ InCall cfg A (flat cfg s.cache.mem) (some job)) :
    Goes cfg A₀ (loopStep cfg s 0 job alloc) := by
  unfold loopStep
  split_ifs with hmore
  · unfold ensure
    split_ifs
    · exact (ensureGet_silent job alloc).calls hc
    · exact (silent_goto (p := .room (.demand job)) (c := s.cache) rfl rfl).calls hc
  · obtain ⟨A, hA, hin⟩ := hc
    have hidle : ((s.finish 0 (job.event true)).pc 0) = .idle := by simp [Sys.finish, Sys.release]
    refine ⟨⟨flat cfg s.cache.mem, explains_append hA (explains_done hin (by simpa using hmore)), ?_⟩, fun hh => ?_⟩
    · rw [hidle]; rfl
    · rw [hidle] at hh; cases hh

lemma stepOk_goes {s : Sys 1} (h : ArrayInv cfg A₀ s) (ok : Bool) : Goes cfg A₀ (stepOk cfg s 0 ok) := by
  have hc := h.calls
  have hstay : Goes cfg A₀ s := ⟨hc, fun hh => by rw [h.awake] at hh; cases hh⟩
  unfold stepOk
  cases hpc : s.pc 0 <;> rw [hpc] at hc
  case loop job => exact loopStep_goes ok hc
  case room r => exact (roomStep_silent r ok).calls hc
  case evictOne k ret => exact (evictOne_silent k ret).calls hc
  case trim r => exact (trimStep_silent r).calls hc
  case ahead job x i => exact (aheadStep_silent job x i ok).calls hc
  case loaded job =>
    obtain ⟨h1, h2⟩ := useLoaded_calls h.inv hpc hc
    exact ⟨h1, fun hh => by rw [h2] at hh; cases hh⟩
  case loadRead o ret => exact (readPage_silent o ret ok).calls hc
  case flushWrite o ret => exact (writePage_silent o ret ok).calls hc
  case evictLoop a last acc => exact (evictLoopStep_silent a last acc).calls hc
  case streamLoop a last => exact (streamLoopStep_silent a last ok).calls hc
  case unpinLoop a last => exact (unpinLoopStep_silent a last).calls hc
  case flushLoop a b acc => exact (flushLoopStep_silent a b acc ok).calls hc
  all_goals exact hstay

lemma stepWake_goes {s : Sys 1} (h : ArrayInv cfg A₀ s) (hwakes : (s.pc 0).wakes = true) :
    Goes cfg A₀ (stepWake cfg { s with lock := some 0 } 0) := by
  have hc := h.calls
  have haw := h.awake
  unfold stepWake
  dsimp only
  cases hpc : s.pc 0 <;> rw [hpc] at hc haw hwakes
  case loadDone o ok ret => exact (loadFinish_silent (s := { s with lock := some 0 }) o ok ret).calls hc
  case flushDone o ok ret => exact (flushFinish_silent (s := { s with lock := some 0 }) o ok ret).calls hc
  case ensureWait job o | evictWait a o ret | flushWait o ret => cases haw
  all_goals cases hwakes

variable {call : Call}

lemma explains_refused (h : call.refused cfg = some e) : Explains cfg A [e] A := by
  have hother : ∀ {b : Bool}, (if b then none else some (Event.other false)) = some e → Explains cfg A [e] A :=
    fun {b} hb => by
      cases b <;> cases hb
      rfl
  cases call with
  | flush => cases h
  | read addr size =>
    simp only [Call.refused] at h
    split_ifs at h
    cases h
    exact ⟨by simp, rfl⟩
  | write addr size src =>
    simp only [Call.refused] at h
    split_ifs at h
    cases h
    exact ⟨0, Or.inr (Or.inl rfl), fun hh => (by cases hh), by simp [Explains]⟩
  | prefetch addr size | evictAfter addr size | pin addr size | unpin addr size | setStreaming addr size =>
    exact hother h

lemma enter_goes {s : Sys 1} (h : ArrayInv cfg A₀ s) (hpc : s.pc 0 = .entry call)
    (ch : Choice) : Goes cfg A₀ (enter cfg s 0 call ch) := by
  have hc := h.calls
  have hstay : Goes cfg A₀ s := ⟨hc, fun hh => by rw [h.awake] at hh; cases hh⟩
  rw [hpc] at hc
  obtain ⟨A, hA, hin⟩ := hc
  have hAM : A = flat cfg s.cache.mem := hin
  have hgo : ∀ q : Pc, q.waits = false → InCall cfg A A q.job →
      Goes cfg A₀ ({ s with lock := some 0 }.goto 0 q) := fun q hw hq => by
    refine ⟨⟨A, hA, ?_⟩, fun hh => by rw [goto_pc_self, hw] at hh; cases hh⟩
    rw [goto_pc_self]
    show InCall cfg A (flat cfg s.cache.mem) q.job
    rw [← hAM]
    exact hq
  unfold enter
  cases call with
  | flush =>
    cases ch with
    | snapshot order =>
      dsimp only
      split_ifs
      · exact (silent_goto (s := { s with lock := some 0 }) (p := .flushLoop _ _ true) (t := 0) rfl rfl).calls
          ⟨A, hA, hin⟩
      · exact hstay
    | call c | run ok => exact hstay
  | read addr size => exact hgo _ rfl ⟨rfl, Nat.zero_le _, fun i hi => absurd hi (Nat.not_lt_zero i)⟩
  | write addr size src => exact hgo _ rfl ⟨(memcpy_zero _ _ _ _).symm, Or.inr (Or.inl rfl)⟩
  | prefetch addr size | evictAfter addr size | pin addr size | unpin addr size | setStreaming addr size =>
    exact hgo _ rfl rfl

lemma step_goes {s : Sys 1} (h : ArrayInv cfg A₀ s) (l : Fin 1 × Choice) : Goes cfg A₀ (step cfg s l) := by
  obtain ⟨t, ch⟩ := l
  obtain rfl : t = 0 := Subsingleton.elim _ _
  have hstay : Goes cfg A₀ s := ⟨h.calls, fun hh => by rw [h.awake] at hh; cases hh⟩
  unfold step
  dsimp only
  split
  · rename_i hpc
    obtain ⟨A, hA, hin⟩ := h.calls
    rw [hpc] at hin
    split
    · rename_i e he
      refine ⟨⟨A, explains_append hA (explains_refused he), ?_⟩, fun hh => ?_⟩
      · show InCall cfg A (flat cfg s.cache.mem) (s.pc 0).job
        rw [hpc]
        exact hin
      · exact hstay.2 hh
    · exact (silent_goto (p := .entry _) (c := s.cache) rfl rfl).calls ⟨A, hA, hin⟩
  · exact hstay
  · rename_i hpc
    split_ifs
    · exact enter_goes h hpc _
    · exact hstay
  · split_ifs with hw hlock
    · exact stepWake_goes h hw
    · exact hstay
    · exact stepOk_goes h _
  · exact hstay

lemma owns_of_waits (h : p.waits = true) (o : ObjId) : p.owns o = 0 := by cases p <;> first | rfl | cases h

lemma goodWake_of_awake {l : Fin n × Choice} (h : (s.pc l.1).waits = false) : GoodWake cfg s l := by
  unfold GoodWake
  cases hpc : s.pc l.1 <;> first | trivial | (rw [hpc] at h; cases h)

/-- One thread alone: the invariant, awake, and every call explained. -/
lemma arrayInv_step {s : Sys 1} (h : ArrayInv cfg A₀ s) (l : Fin 1 × Choice) : ArrayInv cfg A₀ (step cfg s l) := by
  obtain ⟨t, ch⟩ := l
  obtain rfl : t = 0 := Subsingleton.elim _ _
  have hinv := step_inv h.inv (0, ch) (goodWake_of_awake h.awake)
  obtain ⟨hcalls, hwait⟩ := step_goes h (0, ch)
  refine ⟨hinv, ?_, hcalls⟩
  -- a page is busy only while the thread itself does its I/O
  by_contra hw
  rw [Bool.not_eq_false] at hw
  obtain ⟨o, hb⟩ := hwait hw
  obtain ⟨t', ho⟩ := hinv.owner_of_busy hb
  obtain rfl : t' = 0 := Subsingleton.elim _ _
  exact ho (owns_of_waits hw o)

lemma arrayInv_start (content : ℕ → Buf) : ArrayInv cfg (flat cfg content) (start 1 content) :=
  ⟨inv_start 1 content, rfl, flat cfg content, rfl, rfl⟩

/-! ## Failed write-backs -/

def NothingLost (s : Sys n) : Prop :=
  ∀ p, (∃ o, s.cache.pages.lookup p = some o ∧ (s.cache.heap o).dirty = true ∧ (s.cache.heap o).data = s.cache.mem p) ∨
    s.cache.backing p = s.cache.mem p

lemma Inv.nothingLost (hi : Inv cfg s) : NothingLost s := by
  intro p
  by_cases h : ∀ o, s.cache.pages.lookup p = some o → (s.cache.heap o).dirty = false
  · exact Or.inr (hi.cache.saved p h)
  · push Not at h
    obtain ⟨o, hl, hd⟩ := h
    rw [ne_eq, Bool.not_eq_false] at hd
    refine Or.inl ⟨o, hl, hd, hi.cache.cached p o hl ?_⟩
    rcases (hi.cache.dirty_iff o).1 hd with hs | hs <;> rw [hs] <;> rfl

def FailedKeeps (cfg : SsdStreamingConfig) (s : Sys n) : Prop :=
  ∀ t o ret, s.pc t = .flushDone o false ret → s.lock = none → let s' := step cfg s (t, .run true)
    s'.cache.pages.lookup (s.cache.heap o).vaPageNo = some o ∧ (s'.cache.heap o).dirty = true ∧
      (s'.cache.heap o).data = (s.cache.heap o).data

lemma flushReturn_false_same {ret : FlushRet} (h : FlushOk cfg c o ret) :
    Same s.cache (flushReturn cfg s t o ret false).cache := by
  have hrefl : Same s.cache s.cache := ⟨rfl, rfl, rfl, rfl, fun _ => rfl, fun _ => rfl, fun _ => rfl, fun _ => rfl⟩
  cases ret with
  | flush a b acc => exact hrefl
  | evict a ret =>
    cases ret with
    | after b last acc => exact hrefl
    | one ret =>
      cases ret with
      | trim r => exact absurd h.2 id
      | room r =>
        cases r with
        | demand job => exact hrefl
        | ahead job x i => exact Same.modify s.cache x (f := fun q => { q with refcnt := q.refcnt - 1 }) rfl rfl rfl rfl
        | streaming b last => exact hrefl

lemma Inv.failedKeeps (hi : Inv cfg s) : FailedKeeps cfg s := by
  intro t o ret hpc hlock
  have hp := hi.pcs t
  rw [hpc] at hp
  obtain ⟨hm, hst, hret, -⟩ := hp
  have hd : (s.cache.heap o).dirty = true := (hi.cache.dirty_iff o).2 (Or.inr hst)
  have hstep : step cfg s (t, .run true) = flushFinish cfg { s with lock := some t } t o false ret := by
    simp [step, hpc, Pc.wakes, hlock, sleeping, stepWake]
  have hsame := flushReturn_false_same (t := t)
    (s := Sys.modify { s with lock := some t } o fun p => if false = true then
      { p with dirty := false, state := .residentClean } else { p with state := .residentDirty }) hret
  dsimp only
  rw [hstep]
  refine ⟨?_, ?_, ?_⟩
  · rw [show (flushFinish cfg { s with lock := some t } t o false ret).cache.pages = s.cache.pages from hsame.pages]
    exact hm
  · refine (hsame.dirty o).trans ?_
    rw [modify_cache, modify_heap_self]
    exact hd
  · refine (hsame.data o).trans ?_
    rw [modify_cache, modify_heap_self]
    rfl

/-- A flat array of bytes. Whichever transfers fail, the returned calls are explained by one array, and no dirty
data are dropped. -/
theorem flat_array (cfg : SsdStreamingConfig) (content : ℕ → Buf) (ls : List (Fin 1 × Choice)) :
    (∃ A, Explains cfg (flat cfg content) (run (step cfg) (start 1 content) ls).log A) ∧
      NothingLost (run (step cfg) (start 1 content) ls) ∧ FailedKeeps cfg (run (step cfg) (start 1 content) ls) := by
  have h : ArrayInv cfg (flat cfg content) (run (step cfg) (start 1 content) ls) :=
    Core.run_inv_all (P := ArrayInv cfg (flat cfg content)) (fun s l hs => arrayInv_step hs l) ls
      (arrayInv_start content)
  obtain ⟨A, hA, -⟩ := h.calls
  exact ⟨⟨A, hA⟩, h.inv.nothingLost, h.inv.failedKeeps⟩

/-- a byte is written, its page evicted through a failed and a successful write-back, and the byte read again -/
example : ((run (step tinyConfig) (start 1 fun _ _ => 0)
    ((0, Choice.call (.write 3 1 fun _ => 7)) :: List.replicate 8 (0, Choice.run true) ++
      (0, Choice.call (.evictAfter 3 1)) :: [true, true, false, true, true].map (0, Choice.run ·) ++
      (0, Choice.call (.evictAfter 3 1)) :: List.replicate 5 (0, Choice.run true) ++
      (0, Choice.call (.read 3 1)) :: List.replicate 9 (0, Choice.run true))).log.map fun
        | .read _ _ (some b) => some (b 0)
        | .other ok => some (if ok then 1 else 0)
        | _ => none) = [none, some 0, some 1, some 7] := by decide

/-- Threads may share the cache. Under good wake-ups no data are lost, not even by failed write-backs, `refcnt` counts the
holds of all threads, and no two threads transfer one page at a time. -/
theorem threads_lose_nothing (n : ℕ) (cfg : SsdStreamingConfig) (content : ℕ → Buf) (ls : List (Fin n × Choice))
    (hgood : AllSteps (step cfg) (GoodWake cfg) (start n content) ls) :
    let s := run (step cfg) (start n content) ls
    NothingLost s ∧ FailedKeeps cfg s ∧ (∀ o, (s.cache.heap o).refcnt = ∑ t, (s.pc t).holds o) ∧
      ∀ o t t', (s.pc t).owns o ≠ 0 → (s.pc t').owns o ≠ 0 → t' = t := by
  intro s
  have hi : Inv cfg s := Core.run_inv (fun _ l hi hl => step_inv hi l hl) (inv_start n content) hgood
  refine ⟨hi.nothingLost, hi.failedKeeps, hi.refs, fun o t t' ht ht' => ?_⟩
  by_contra hne
  exact ht' (hi.owns_unique hne ht)

theorem threads_lose_nothing_shared :
    let s := run (step tinyConfig) (start 2 fun _ _ => 0)
      ((0, .call (.read 0 1)) :: List.replicate 4 (0, .run true) ++ [(1, .call (.read 0 1)), (1, .run true)])
    s.cache.busy 0 = true ∧ NothingLost s :=
  ⟨by decide, (threads_lose_nothing 2 tinyConfig _ _ (by decide)).1⟩

end CxlMemSim.Ssd
