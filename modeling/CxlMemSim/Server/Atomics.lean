/-
Atomics on memory backed by the SSD streaming backend, served by the PGAS workers and the distributed message workers:
both read the word with one call of the backend and write it with another, under no common lock. `Linearized`: answers
and memory are those of the answered requests in some order.
-/
import CxlMemSim.Core.Run
import CxlMemSim.Server.Storage

namespace CxlMemSim.Server.Atomics

open CxlMemSim.Core List Function

/-! ## Requests and workers -/

inductive AtomicOp where
  | faa (value : UInt64)
  | cas (expected desired : UInt64)
deriving DecidableEq, Repr

inductive Path where
  | pgas
  | dist
deriving DecidableEq, Repr

structure Request where
  path : Path
  addr : UInt64
  op : AtomicOp
deriving DecidableEq, Repr

inductive Worker where
  | pgas (i : Fin 4)
  | dist (i : Fin 2)
deriving DecidableEq, Repr, Fintype

def Worker.path : Worker → Path
  | .pgas _ => .pgas
  | .dist _ => .dist

structure Config where
  baseAddr : UInt64
  numCachelines : UInt64
  pgasLines : UInt64

def Config.header (cfg : Config) : Header := ⟨.ssdStream, cfg.baseAddr, cfg.numCachelines⟩

lemma Config.header_mode (cfg : Config) : cfg.header.backingMode = .ssdStream := rfl

def pgasRefused (cfg : Config) (addr : UInt64) (fabricOk : Bool) : Bool :=
  addr / 64 ≥ cfg.pgasLines || !fabricOk || !decide (addr + 8 ≤ cfg.pgasLines * 64)

def loadHalf (cfg : Config) (mem : Buf) (addr : UInt64) (ok : Bool) : Option UInt64 :=
  if lineOffset addr + 8 > 64 then none
  else
    let got := readCacheline cfg.header mem addr (fun _ => 0) 8 fun _ => ok
    if got.1 then some (UInt64.ofNat (loadLE got.2 0 8)) else none

def storeHalf (cfg : Config) (addr value : UInt64) (ok : Bool) : Bool × List (ℕ × UInt8) :=
  writeCacheline cfg.header addr (byteLE value.toNat) 8 fun _ => ok

/-! ## Interleavings -/

structure Pending (n : ℕ) where
  req : Fin n
  old : UInt64
deriving DecidableEq, Repr

structure Sys (n : ℕ) where
  mem : Buf
  pending : Worker → Option (Pending n)
  taken : Fin n → Bool
  answer : Fin n → Option (Option UInt64)

inductive Label (n : ℕ) where
  | read (w : Worker) (r : Fin n) (fabricOk ok : Bool)
  | write (w : Worker) (ok : Bool)
deriving DecidableEq, Repr

variable {n : ℕ}

def newValue (op : AtomicOp) (old : UInt64) : UInt64 :=
  match op with
  | .faa value => old + value
  | .cas _ desired => desired

def writes (op : AtomicOp) (old : UInt64) : Bool :=
  match op with
  | .faa _ => true
  | .cas expected _ => old = expected

def Sys.setAnswer (s : Sys n) (r : Fin n) (a : Option UInt64) : Sys n :=
  { s with answer := update s.answer r (some a) }

variable (cfg : Config) (reqs : Fin n → Request) (s : Sys n)

def readStep (w : Worker) (r : Fin n) (fabricOk ok : Bool) : Sys n :=
  let s := { s with taken := update s.taken r true }
  if (reqs r).path = .pgas ∧ pgasRefused cfg (reqs r).addr fabricOk then s.setAnswer r none
  else
    match loadHalf cfg s.mem (reqs r).addr ok with
    | none => s.setAnswer r none
    | some old =>
      if writes (reqs r).op old then { s with pending := update s.pending w (some ⟨r, old⟩) }
      else s.setAnswer r (some old)

def writeStep (w : Worker) (p : Pending n) (ok : Bool) : Sys n :=
  let put := storeHalf cfg (reqs p.req).addr (newValue (reqs p.req).op p.old) ok
  let s := { s with mem := storeAll s.mem put.2, pending := update s.pending w none }
  s.setAnswer p.req (if put.1 then some p.old else none)

def step : Label n → Sys n
  | .read w r fabricOk ok =>
    if (s.pending w).isSome ∨ s.taken r ∨ (reqs r).path ≠ w.path then s else readStep cfg reqs s w r fabricOk ok
  | .write w ok =>
    match s.pending w with
    | none => s
    | some p => writeStep cfg reqs s w p ok

def start (n : ℕ) (mem : Buf) : Sys n := ⟨mem, fun _ => none, fun _ => false, fun _ => none⟩

/-! ## Statement -/

def effect (mem : Buf) (r : Request) : UInt64 × Buf :=
  let old := loadWord cfg.header mem r.addr
  (old, if writes r.op old then storeAll mem (storeWord cfg.header r.addr (newValue r.op old)) else mem)

def Replays (cfg : Config) (reqs : Fin n → Request) (answer : Fin n → Option (Option UInt64)) :
    Buf → List (Fin n) → Buf → Prop
  | mem, [], mem' => mem' = mem
  | mem, r :: order, mem' =>
    match answer r with
    | none => False
    | some none => Replays cfg reqs answer mem order mem'
    | some (some old) => old = (effect cfg mem (reqs r)).1 ∧
      Replays cfg reqs answer (effect cfg mem (reqs r)).2 order mem'

def Linearized (mem : Buf) (s : Sys n) : Prop :=
  ∃ order : List (Fin n), order.Nodup ∧ (∀ r, r ∈ order ↔ (s.answer r).isSome = true) ∧
    Replays cfg reqs s.answer mem order s.mem

def added (answer : Fin n → Option (Option UInt64)) (r : Fin n) : ℕ :=
  match (reqs r).op, answer r with
  | .faa value, some (some _) => value.toNat
  | _, _ => 0

/-- if every request is a fetch-and-add to `addr`, the word is its first value plus what was added -/
def AddsUp (mem : Buf) (s : Sys n) : Prop :=
  ∀ addr, (∀ r, (reqs r).addr = addr ∧ ∃ value, (reqs r).op = .faa value) → (loadWord cfg.header s.mem addr).toNat =
      ((loadWord cfg.header mem addr).toNat + ∑ r, added reqs s.answer r) % 2 ^ 64

def WordsApart (a b : UInt64) : Prop := Apart (byteOf cfg.header a) 8 (byteOf cfg.header b) 8

instance (a b : UInt64) : Decidable (WordsApart cfg a b) := by unfold WordsApart; infer_instance

/-- when a word is written, no other worker is between its read and its write of a byte of it -/
def Exclusive : Label n → Prop
  | .read _ _ _ _ => True
  | .write w _ =>
    ∀ p ∈ s.pending w, ∀ w', w' ≠ w → ∀ p' ∈ s.pending w', WordsApart cfg (reqs p.req).addr (reqs p'.req).addr

instance (l : Label n) : Decidable (Exclusive cfg reqs s l) := by cases l <;> unfold Exclusive <;> infer_instance

lemma copyIn_word (hd : Header) (addr value : UInt64) :
    storeWord hd addr value = (List.range 8).map fun i => (byteOf hd addr + i, byteLE value.toNat i) := by
  simp [storeWord, copyIn]

lemma loadWord_storeWord (hd : Header) (mem : Buf) (addr value : UInt64) :
    loadWord hd (storeAll mem (storeWord hd addr value)) addr = value := by
  have hbytes : ∀ i < 8, storeAll mem (storeWord hd addr value) (byteOf hd addr + i) = byteLE value.toNat i := by
    intro i hi
    rw [copyIn_word]
    exact storeAll_chunk mem _ _ _ hi
  rw [loadWord, loadLE_of_byteLE hbytes, Nat.mod_eq_of_lt (show value.toNat < 256 ^ 8 from value.toNat_lt),
    UInt64.ofNat_toNat]

lemma loadWord_of_apart {cfg : Config} (mem : Buf) {a b : UInt64} (value : UInt64) (h : WordsApart cfg a b) :
    loadWord cfg.header (storeAll mem (storeWord cfg.header a value)) b = loadWord cfg.header mem b := by
  refine congrArg UInt64.ofNat (loadLE_congr fun i hi => ?_)
  by_contra hne
  obtain ⟨v, hv⟩ := exists_store_of_ne hne
  rw [copyIn_word] at hv
  obtain ⟨j, hj, heq⟩ := List.mem_map.mp hv
  rw [mem_range] at hj
  have hoff := congrArg Prod.fst heq
  dsimp only at hoff
  unfold WordsApart Apart at h
  omega

variable {addr : UInt64} {mem : Buf}

lemma loadHalf_eq {cfg : Config} {ok : Bool} {old : UInt64} (h : loadHalf cfg mem addr ok = some old) :
    old = loadWord cfg.header mem addr ∧ lineOffset addr + 8 ≤ 64 := by
  unfold loadHalf at h
  split_ifs at h with hline
  dsimp only at h
  split_ifs at h with hgot
  obtain rfl := Option.some.inj h
  refine ⟨congrArg UInt64.ofNat (loadLE_congr fun i hi => ?_), by omega⟩
  rw [Nat.zero_add, readCacheline_byte hgot hi, byteOf_add _ (by omega)]

lemma storeHalf_cases {cfg : Config} (hline : lineOffset addr + 8 ≤ 64) (value : UInt64) (ok : Bool) :
    storeHalf cfg addr value ok = (true, storeWord cfg.header addr value) ∨
      storeHalf cfg addr value ok = (false, []) := by
  unfold storeHalf writeCacheline
  rw [if_neg (by omega), if_pos cfg.header_mode, pieces_one_line (by norm_num) hline]
  simp only [writePieces]
  split_ifs
  · exact .inr rfl
  · exact .inr rfl
  · exact .inl (by simp [storeWord])

variable {answer : Fin n → Option (Option UInt64)} {mem' : Buf} {order : List (Fin n)}

lemma Replays.congr {cfg : Config} {reqs : Fin n → Request} {answer' : Fin n → Option (Option UInt64)}
    (h : Replays cfg reqs answer mem order mem')
    (heq : ∀ r ∈ order, answer' r = answer r) : Replays cfg reqs answer' mem order mem' := by
  induction order generalizing mem with
  | nil => exact h
  | cons r order ih =>
    have hrest := fun q hq => heq q (mem_cons_of_mem r hq)
    unfold Replays at h ⊢
    rw [heq r mem_cons_self]
    cases ha : answer r with
    | none => rw [ha] at h; exact h
    | some a =>
      rw [ha] at h
      cases a with
      | none => exact ih h hrest
      | some old => exact ⟨h.1, ih h.2 hrest⟩

lemma Replays.snoc {cfg : Config} {reqs : Fin n → Request}
    {mem'' : Buf} (h : Replays cfg reqs answer mem order mem') {r : Fin n}
    (hlast : Replays cfg reqs answer mem' [r] mem'') : Replays cfg reqs answer mem (order ++ [r]) mem'' := by
  induction order generalizing mem with
  | nil => rw [show mem' = mem from h] at hlast; exact hlast
  | cons q order ih =>
    unfold Replays at h
    rw [cons_append]
    unfold Replays
    cases ha : answer q with
    | none => rw [ha] at h; exact h
    | some a =>
      rw [ha] at h
      cases a with
      | none => exact ih h
      | some old => exact ⟨h.1, ih h.2⟩

lemma replays_adds {cfg : Config} {reqs : Fin n → Request}
    (hfaa : ∀ r, (reqs r).addr = addr ∧ ∃ value, (reqs r).op = .faa value)
    (h : Replays cfg reqs answer mem order mem') : (loadWord cfg.header mem' addr).toNat =
      ((loadWord cfg.header mem addr).toNat + (order.map (added reqs answer)).sum) % 2 ^ 64 := by
  induction order generalizing mem with
  | nil => rw [show mem' = mem from h, map_nil, sum_nil, Nat.add_zero, Nat.mod_eq_of_lt (UInt64.toNat_lt _)]
  | cons r order ih =>
    obtain ⟨hr, value, hop⟩ := hfaa r
    unfold Replays at h
    cases ha : answer r with
    | none => rw [ha] at h; exact h.elim
    | some a =>
      rw [ha] at h
      rw [map_cons, sum_cons]
      cases a with
      | none => rw [show added reqs answer r = 0 by simp [added, hop, ha], Nat.zero_add]; exact ih h
      | some old =>
        have hnext : (effect cfg mem (reqs r)).2 =
            storeAll mem (storeWord cfg.header addr (loadWord cfg.header mem addr + value)) := by
          simp [effect, writes, newValue, hop, hr]
        rw [ih h.2, hnext, loadWord_storeWord, UInt64.toNat_add, show added reqs answer r = value.toNat by
          simp [added, hop, ha], Nat.mod_add_mod, Nat.add_assoc]

lemma addsUp_of_linearized {cfg : Config} {reqs : Fin n → Request} {s : Sys n}
    (h : Linearized cfg reqs mem s) : AddsUp cfg reqs mem s := by
  obtain ⟨order, hnodup, hmem, hreplays⟩ := h
  intro addr hfaa
  -- a request that has no answer adds nothing
  have hsum : ∑ r, added reqs s.answer r = (order.map (added reqs s.answer)).sum := by
    rw [← sum_toFinset _ hnodup]
    symm
    apply Finset.sum_subset (Finset.subset_univ _)
    intro r _ hr
    have hnone : s.answer r = none := by
      by_contra hne
      exact hr (List.mem_toFinset.mpr ((hmem r).mpr (Option.isSome_iff_ne_none.mpr hne)))
    unfold added
    rw [hnone]
    cases (reqs r).op <;> rfl
  rw [hsum]
  exact replays_adds hfaa hreplays

def oneLine : Config := ⟨0, 1, 1⟩

def twoAdds : Fin 2 → Request := fun _ => ⟨.pgas, 0, .faa 1⟩

def bothRead : List (Label 2) :=
  [.read (.pgas 0) 0 true true, .read (.pgas 1) 1 true true, .write (.pgas 0) true, .write (.pgas 1) true]

/-- One of two increments is lost. Both requests are answered 0 and the word ends at 1. -/
theorem lost_update :
    ¬ Linearized oneLine twoAdds (fun _ => 0) (run (step oneLine twoAdds) (start 2 fun _ => 0) bothRead) := by
  intro h
  have hadds := addsUp_of_linearized h 0 fun _ => ⟨rfl, 1, rfl⟩
  exact absurd hadds (by decide)

/-! ## Runs in which writes are exclusive -/

section
variable {cfg : Config} {reqs : Fin n → Request} {mem : Buf}

structure Inv (cfg : Config) (reqs : Fin n → Request) (mem : Buf) (s : Sys n) : Prop where
  linearized : Linearized cfg reqs mem s
  current : ∀ w, ∀ p ∈ s.pending w, p.old = loadWord cfg.header s.mem (reqs p.req).addr ∧
    writes (reqs p.req).op p.old = true ∧ lineOffset (reqs p.req).addr + 8 ≤ 64
  unanswered : ∀ w, ∀ p ∈ s.pending w, s.taken p.req = true ∧ s.answer p.req = none
  distinct : ∀ w w', w ≠ w' → ∀ p ∈ s.pending w, ∀ p' ∈ s.pending w', p.req ≠ p'.req
  answered : ∀ r, (s.answer r).isSome = true → s.taken r = true

lemma inv_start (cfg : Config) (reqs : Fin n → Request) (mem : Buf) : Inv cfg reqs mem (start n mem) where
  linearized := ⟨[], nodup_nil, fun r => by simp [start], rfl⟩
  current := fun _ _ hp => by cases hp
  unanswered := fun _ _ hp => by cases hp
  distinct := fun _ _ _ _ hp => by cases hp
  answered := fun _ hr => by simp [start] at hr

variable {s : Sys n} {r : Fin n} {a : Option UInt64} {s' : Sys n}

lemma Linearized.answered (h : Linearized cfg reqs mem s)
    (hnone : s.answer r = none) (hans : s'.answer = update s.answer r (some a))
    (hlast : Replays cfg reqs s'.answer s.mem [r] s'.mem) : Linearized cfg reqs mem s' := by
  obtain ⟨order, hnodup, hmem, hreplays⟩ := h
  have hr : r ∉ order := by rw [hmem, hnone]; simp
  have hold : ∀ q ∈ order, s'.answer q = s.answer q := by
    intro q hq
    rw [hans, update_of_ne (by rintro rfl; exact hr hq)]
  refine ⟨order ++ [r], ?_, fun q => ?_, (hreplays.congr hold).snoc hlast⟩
  · rw [nodup_append]
    exact ⟨hnodup, nodup_singleton r, by rintro a ha b hb rfl; exact hr (List.mem_singleton.mp hb ▸ ha)⟩
  · by_cases hq : q = r
    · subst hq
      simp [hans]
    · rw [hans, update_of_ne hq, ← hmem q]
      simp [hq]

lemma setAnswer_of_ne {q : Fin n} (a : Option UInt64) (h : q ≠ r) :
    (s.setAnswer r a).answer q = s.answer q := update_of_ne h ..

variable (hi : Inv cfg reqs mem s) {w : Worker}
include hi

/-- request `r` is answered in `s'`, no worker holds it, and what the workers hold is still in memory -/
lemma Inv.setAnswer
    (hans : s'.answer = s.answer) (htk : s'.taken = s.taken) (ht : s.taken r = true) (hnone : s.answer r = none)
    (hsub : ∀ w, ∀ p ∈ s'.pending w, p ∈ s.pending w ∧ p.req ≠ r)
    (hcur : ∀ w, ∀ p ∈ s'.pending w, p.old = loadWord cfg.header s'.mem (reqs p.req).addr)
    (hlast : Replays cfg reqs (update s.answer r (some a)) s.mem [r] s'.mem) : Inv cfg reqs mem (s'.setAnswer r a) where
  linearized := by
    refine hi.linearized.answered hnone (a := a) (by rw [← hans]; rfl) ?_
    rw [← hans] at hlast
    exact hlast
  current := fun w p hp => ⟨hcur w p hp, (hi.current w p (hsub w p hp).1).2⟩
  unanswered := by
    intro w p hp
    obtain ⟨hp, hne⟩ := hsub w p hp
    obtain ⟨htp, hap⟩ := hi.unanswered w p hp
    exact ⟨(congrFun htk p.req).trans htp, (setAnswer_of_ne a hne).trans ((congrFun hans p.req).trans hap)⟩
  distinct := fun w w' hne p hp p' hp' => hi.distinct w w' hne p (hsub w p hp).1 p' (hsub w' p' hp').1
  answered := by
    intro q hq
    refine (congrFun htk q).trans ?_
    by_cases heq : q = r
    · exact heq ▸ ht
    · rw [setAnswer_of_ne a heq, hans] at hq
      exact hi.answered q hq

lemma Inv.take (ht : s.taken r = false) :
    Inv cfg reqs mem { s with taken := update s.taken r true } ∧ s.answer r = none ∧
      ∀ w, ∀ p ∈ s.pending w, p.req ≠ r := by
  have hkeep : ∀ q, s.taken q = true → update s.taken r true q = true := by
    intro q hq
    by_cases heq : q = r
    · subst heq; simp
    · rwa [update_of_ne heq]
  refine ⟨⟨hi.linearized, hi.current, fun w p hp => ?_, hi.distinct, fun q hq => hkeep q (hi.answered q hq)⟩, ?_, ?_⟩
  · obtain ⟨htp, hap⟩ := hi.unanswered w p hp
    exact ⟨hkeep p.req htp, hap⟩
  · by_contra hne
    have := hi.answered r (Option.isSome_iff_ne_none.mpr hne)
    rw [ht] at this
    cases this
  · rintro w p hp rfl
    have := (hi.unanswered w p hp).1
    rw [ht] at this
    cases this

lemma readStep_inv (ht : s.taken r = false)
    (fabricOk ok : Bool) : Inv cfg reqs mem (readStep cfg reqs s w r fabricOk ok) := by
  obtain ⟨htaken, hnone, hfree⟩ := hi.take ht
  have htr : update s.taken r true r = true := update_self ..
  have hfail : Inv cfg reqs mem (Sys.setAnswer { s with taken := update s.taken r true } r none) :=
    htaken.setAnswer rfl rfl htr hnone (fun w p hp => ⟨hp, hfree w p hp⟩) (fun w p hp => (htaken.current w p hp).1)
      (by simp [Replays])
  unfold readStep
  dsimp only
  split_ifs with hrefused
  · exact hfail
  · cases hload : loadHalf cfg s.mem (reqs r).addr ok with
    | none => exact hfail
    | some old =>
      obtain ⟨hold, hline⟩ := loadHalf_eq hload
      dsimp only
      split_ifs with hw
      · -- the request is now held by `w`, with the word as it is in memory
        refine ⟨htaken.linearized, fun w' p hp => ?_, fun w' p hp => ?_, fun w₁ w₂ hne p hp p' hp' => ?_,
          htaken.answered⟩
        · dsimp only at hp
          by_cases hw' : w' = w
          · subst hw'
            rw [update_self] at hp
            cases hp
            exact ⟨hold, hw, hline⟩
          · rw [update_of_ne hw'] at hp
            exact htaken.current w' p hp
        · dsimp only at hp
          by_cases hw' : w' = w
          · subst hw'
            rw [update_self] at hp
            cases hp
            exact ⟨htr, hnone⟩
          · rw [update_of_ne hw'] at hp
            exact htaken.unanswered w' p hp
        · dsimp only at hp hp'
          by_cases h₁ : w₁ = w
          · subst h₁
            rw [update_self] at hp
            rw [update_of_ne (Ne.symm hne)] at hp'
            cases hp
            exact (hfree w₂ p' hp').symm
          · rw [update_of_ne h₁] at hp
            by_cases h₂ : w₂ = w
            · subst h₂
              rw [update_self] at hp'
              cases hp'
              exact hfree w₁ p hp
            · rw [update_of_ne h₂] at hp'
              exact htaken.distinct w₁ w₂ hne p hp p' hp'
      · -- a compare that fails: the request takes effect at its read
        refine htaken.setAnswer rfl rfl htr hnone (fun w p hp => ⟨hp, hfree w p hp⟩)
          (fun w p hp => (htaken.current w p hp).1) ?_
        have heffect : effect cfg s.mem (reqs r) = (old, s.mem) := by
          rw [effect, ← hold]
          simp [hw]
        simp [Replays, heffect]

lemma writeStep_inv {p : Pending n} (hp : p ∈ s.pending w)
    (hex : ∀ w', w' ≠ w → ∀ p' ∈ s.pending w', WordsApart cfg (reqs p.req).addr (reqs p'.req).addr) (ok : Bool) :
    Inv cfg reqs mem (writeStep cfg reqs s w p ok) := by
  obtain ⟨hold, hwrites, hline⟩ := hi.current w p hp
  obtain ⟨htaken, hnone⟩ := hi.unanswered w p hp
  have hothers : ∀ w', ∀ p' ∈ update s.pending w none w', w' ≠ w ∧ p' ∈ s.pending w' := by
    intro w' p' hp'
    by_cases hw' : w' = w
    · subst hw'
      rw [update_self] at hp'
      cases hp'
    · rw [update_of_ne hw'] at hp'
      exact ⟨hw', hp'⟩
  have hsub : ∀ w', ∀ p' ∈ update s.pending w none w', p' ∈ s.pending w' ∧ p'.req ≠ p.req :=
    fun w' p' hp' => ⟨(hothers w' p' hp').2, hi.distinct w' w (hothers w' p' hp').1 p' (hothers w' p' hp').2 p hp⟩
  unfold writeStep
  rcases storeHalf_cases hline (newValue (reqs p.req).op p.old) ok with hput | hput
  · -- the request takes effect now: its old value is still the one in memory
    rw [hput]
    have heffect : effect cfg s.mem (reqs p.req) =
        (p.old, storeAll s.mem (storeWord cfg.header (reqs p.req).addr (newValue (reqs p.req).op p.old))) := by
      rw [effect, ← hold]
      simp [hwrites]
    refine hi.setAnswer rfl rfl htaken hnone hsub (fun w' p' hp' => ?_) (by simp [Replays, heffect])
    obtain ⟨hw', hp'⟩ := hothers w' p' hp'
    rw [(hi.current w' p' hp').1]
    exact (loadWord_of_apart s.mem _ (hex w' hw' p' hp')).symm
  · -- the write has failed: the request is answered with an error and memory is as it was
    rw [hput]
    exact hi.setAnswer rfl rfl htaken hnone hsub (fun w' p' hp' => (hi.current w' p' (hsub w' p' hp').1).1)
      (by simp [Replays])

lemma step_inv (l : Label n) (hex : Exclusive cfg reqs s l) : Inv cfg reqs mem (step cfg reqs s l) := by
  cases l with
  | read w r fabricOk ok =>
    simp only [step]
    split_ifs with hbusy
    · exact hi
    · push Not at hbusy
      exact readStep_inv hi (by simpa using hbusy.2.1) fabricOk ok
  | write w ok =>
    simp only [step]
    cases hp : s.pending w with
    | none => exact hi
    | some p => exact writeStep_inv hi hp (hex p hp) ok

omit hi

end

/-- If writes are exclusive, answers and memory are those of the answered requests in some order. -/
theorem atomics_linearized (cfg : Config) (reqs : Fin n → Request) (mem : Buf) (labels : List (Label n))
    (hex : AllSteps (step cfg reqs) (Exclusive cfg reqs) (start n mem) labels) :
    Linearized cfg reqs mem (run (step cfg reqs) (start n mem) labels) ∧
      AddsUp cfg reqs mem (run (step cfg reqs) (start n mem) labels) := by
  have hi : Inv cfg reqs mem (run (step cfg reqs) (start n mem) labels) :=
    Core.run_inv (P := Inv cfg reqs mem) (fun _ l hi hc => step_inv hi l hc) (inv_start cfg reqs mem) hex
  exact ⟨hi.linearized, addsUp_of_linearized hi.linearized⟩

def oneByOne : List (Label 2) :=
  [.read (.pgas 0) 0 true true, .write (.pgas 0) true, .read (.pgas 1) 1 true true, .write (.pgas 1) true]

theorem atomics_linearized_one_by_one :
    AllSteps (step oneLine twoAdds) (Exclusive oneLine twoAdds) (start 2 fun _ => 0) oneByOne ∧
      loadWord oneLine.header (run (step oneLine twoAdds) (start 2 fun _ => 0) oneByOne).mem 0 = 2 ∧
      Linearized oneLine twoAdds (fun _ => 0) (run (step oneLine twoAdds) (start 2 fun _ => 0) oneByOne) :=
  have hex : AllSteps (step oneLine twoAdds) (Exclusive oneLine twoAdds) (start 2 fun _ => 0) oneByOne := by decide
  ⟨hex, by decide, (atomics_linearized oneLine twoAdds (fun _ => 0) oneByOne hex).1⟩

end CxlMemSim.Server.Atomics
