/-
The asynchronous copy to the device (`cuMemcpyHtoDAsync_v2`): with a route, a first part goes through one staging range
in BAR4, in chunks of at most its size and out of a budget; the rest goes through the data window.

Model: the answers to commands are an oracle's. The log has every write of the staging, accepted data command and
synchronization.

Results
  - `copy_covers_range`: a call takes a prefix of its source to the device in order, all of it on success
  - `routed_bytes_delivered`: under `Apart`, a condition on the calls and the route alone, every device reads what was
    staged for the command (`second_chunk_overwrites`: not otherwise); premises met by `routed_bytes_delivered_three`
-/
import CxlMemSim.Guest.Api

namespace CxlMemSim.Htod

open CxlMemSim.Core CxlMemSim.Guest List

/-- what `htod_route_parse` accepts -/
structure Config where
  fullTransfer : Bool
  minimum : ℕ
  prefixBytes : ℕ
  total : ℕ
  positive : 0 < minimum ∧ 0 < prefixBytes ∧ 0 < total
  fits : prefixBytes ≤ bulkTransferSize
  bounded : fullTransfer = false → prefixBytes ≤ minimum

structure Device where
  answer : ℕ → UInt32
  offset : ℕ → ℕ
  bar4 : Option ℕ

inductive RangeKind where
  | ordinary
  | contained
  | straddling
deriving DecidableEq

structure Call where
  dst : UInt64
  src : Buf
  byteCount : ℕ
  stream : UInt64
  kind : RangeKind

inductive Act where
  | route (base : ℕ) (dst : UInt64) (bytes : List UInt8) (stream : UInt64) (accepted : Bool)
  | data (dst : UInt64) (bytes : List UInt8) (stream : UInt64)
  | sync (streams : UInt64 → Bool)

structure Lib where
  remaining : ℕ
  routed : ℕ
  staging : Option ℕ
  asked : ℕ
  log : List Act

def total (cfg : Option Config) : ℕ := cfg.elim 0 Config.total

def new (cfg : Option Config) : Lib := ⟨total cfg, 0, none, 0, []⟩

def errorNotInitialized : UInt32 := 3

variable (dev : Device)

def htodRouteAllocateLocked (c : Config) (s : Lib) : Except UInt32 ℕ × Lib :=
  match s.staging, dev.bar4 with
  | some base, _ => (.ok base, s)
  | none, none => (.error errorNotInitialized, s)
  | none, some size =>
    let result := dev.answer s.asked
    let offset := dev.offset s.asked
    let s := { s with asked := s.asked + 1 }
    if result ≠ success then (.error result, s)
    else if offset > size ∨ c.prefixBytes > size - offset then (.error errorInvalidValue, s)
    else (.ok offset, { s with staging := some offset })

def routeChunk (c : Config) (call : Call) (off chunk : ℕ) (s : Lib) : UInt32 × Lib :=
  match htodRouteAllocateLocked dev c s with
  | (.error result, s) => (result, s)
  | (.ok base, s) =>
    let result := dev.answer s.asked
    let act := .route base (call.dst + .ofNat off) (bytesAt call.src off chunk) call.stream (result = success)
    let s := { s with asked := s.asked + 1, log := s.log ++ [act] }
    if result ≠ success then (result, s)
    else (success, { s with remaining := s.remaining - chunk, routed := s.routed + chunk })

def dataChunk (call : Call) (off chunk : ℕ) (s : Lib) : UInt32 × Lib :=
  let result := dev.answer s.asked
  let act := .data (call.dst + .ofNat off) (bytesAt call.src off chunk) call.stream
  (result, { s with asked := s.asked + 1, log := if result = success then s.log ++ [act] else s.log })

/-- both loops: from `off` to `total` in chunks of at most `limit`, to the first failure -/
def chunkLoop (limit total : ℕ) (body : ℕ → ℕ → Lib → UInt32 × Lib) : ℕ → ℕ → Lib → UInt32 × ℕ × Lib
  | 0, off, s => (success, off, s)
  | fuel + 1, off, s =>
    if off < total then
      let chunk := min (total - off) limit
      let r := body off chunk s
      if r.1 ≠ success then (r.1, off, r.2) else chunkLoop limit total body fuel (off + chunk) r.2
    else (success, off, s)

def routePart (c : Config) (call : Call) (s : Lib) : UInt32 × ℕ × Lib :=
  let target := min (if c.fullTransfer then call.byteCount else c.prefixBytes) call.byteCount
  if target > s.remaining ∧ c.fullTransfer then (errorOutOfMemory, 0, s)
  else
    let target := min target s.remaining
    chunkLoop c.prefixBytes target (routeChunk dev c call) target 0 s

def firstPart (cfg : Option Config) (call : Call) (s : Lib) : UInt32 × ℕ × Lib :=
  match cfg with
  | some c => if call.kind = .ordinary ∧ call.byteCount ≥ c.minimum then routePart dev c call s else (success, 0, s)
  | none => (success, 0, s)

def cuMemcpyHtoDAsync_v2 (cfg : Option Config) (call : Call) (s : Lib) : UInt32 × Lib :=
  if call.byteCount = 0 ∨ call.kind = .straddling then (errorInvalidValue, s)
  else
    let r := firstPart dev cfg call s
    if r.1 ≠ success then (r.1, r.2.2)
    else
      let r := chunkLoop dataSize call.byteCount (dataChunk dev call) call.byteCount r.2.1 r.2.2
      (r.1, r.2.2)

/-! ## What a call writes -/

def written : Act → Option (UInt64 × List UInt8)
  | .route _ dst bytes _ true => some (dst, bytes)
  | .data dst bytes _ => some (dst, bytes)
  | _ => none

/-- the pieces take the source from one offset to the next, in order, none empty -/
def Covers (call : Call) : ℕ → List (UInt64 × List UInt8) → ℕ → Prop
  | off, [], upto => off = upto
  | off, (dst, bytes) :: rest, upto =>
    dst = call.dst + .ofNat off ∧ bytes ≠ [] ∧ bytes = bytesAt call.src off bytes.length ∧
      Covers call (off + bytes.length) rest upto

/-- a chunk fits its window, and the staging lies in BAR4 -/
def Fits (cfg : Option Config) : Act → Prop
  | .route base _ bytes _ _ =>
    ∃ c ∈ cfg, ∃ size ∈ dev.bar4, bytes.length ≤ c.prefixBytes ∧ c.prefixBytes ≤ bulkTransferSize ∧
      base + c.prefixBytes ≤ size
  | .data _ bytes _ => bytes.length ≤ dataSize
  | .sync _ => True

structure Inv (cfg : Option Config) (s : Lib) : Prop where
  budget : s.routed + s.remaining = total cfg
  staged : ∀ base ∈ s.staging, ∀ c ∈ cfg, ∃ size ∈ dev.bar4, base + c.prefixBytes ≤ size

/-- the state after the first `off` bytes of a call that began at `log` -/
structure Reached (cfg : Option Config) (call : Call) (log : List Act) (off : ℕ) (s : Lib) : Prop where
  inv : Inv dev cfg s
  acts : ∃ acts, s.log = log ++ acts ∧ Covers call 0 (acts.filterMap written) off ∧ ∀ act ∈ acts, Fits dev cfg act

variable {dev} {cfg : Option Config} {call : Call} {log : List Act} {off upto : ℕ} {s : Lib} {c : Config} {chunk : ℕ}

lemma Covers.snoc {pieces : List (UInt64 × List UInt8)} (h : Covers call off pieces upto) (hpos : 0 < chunk) :
    Covers call off (pieces ++ [(call.dst + .ofNat upto, bytesAt call.src upto chunk)]) (upto + chunk) := by
  induction pieces generalizing off with
  | nil =>
    obtain rfl : off = upto := h
    have hne : bytesAt call.src off chunk ≠ [] := fun h0 => by simpa [h0, hpos.ne] using length_bytesAt call.src off chunk
    simp [Covers, hne]
  | cons piece pieces ih =>
    obtain ⟨hdst, hne, hbytes, hrest⟩ := h
    exact ⟨hdst, hne, hbytes, ih hrest⟩

/-- one more command: accepted, it takes the call `n` bytes further -/
lemma Reached.push (h : Reached dev cfg call log off s) {s' : Lib} {act : Act} {n : ℕ} (hs : Inv dev cfg s')
    (hlog : s'.log = s.log ++ [act]) (hfits : Fits dev cfg act) (hact : written act = none ∧ n = 0 ∨
      0 < n ∧ written act = some (call.dst + .ofNat off, bytesAt call.src off n)) :
    Reached dev cfg call log (off + n) s' := by
  obtain ⟨acts, hacts, hcov, hall⟩ := h.acts
  refine ⟨hs, acts ++ [act], by rw [hlog, hacts, append_assoc], ?_, ?_⟩
  · rcases hact with ⟨hnone, rfl⟩ | ⟨hpos, hsome⟩
    · simpa [hnone] using hcov
    · simpa [hsome] using hcov.snoc hpos
  · simpa [or_imp, forall_and] using ⟨hall, hfits⟩

/-- What every chunk keeps, a loop keeps; it reaches `total` unless a chunk fails. -/
lemma chunkLoop_reaches {limit total : ℕ} {body : ℕ → ℕ → Lib → UInt32 × Lib} (P : ℕ → Lib → Prop) (hlimit : 0 < limit)
    (hbody : ∀ off s chunk, 0 < chunk → chunk ≤ limit → off + chunk ≤ total → (chunk < limit → off + chunk = total) →
      P off s → if (body off chunk s).1 = success then P (off + chunk) (body off chunk s).2 else P off (body off chunk s).2)
    (fuel : ℕ) (hle : off ≤ total) (hP : P off s) :
    let r := chunkLoop limit total body fuel off s
    P r.2.1 r.2.2 ∧ r.2.1 ≤ total ∧ (total ≤ off + fuel → r.1 = success → r.2.1 = total) := by
  induction fuel generalizing off s with
  | zero => exact ⟨hP, hle, fun htotal _ => le_antisymm hle htotal⟩
  | succ fuel ih =>
    unfold chunkLoop
    split_ifs with hlt
    · have hchunk : 0 < min (total - off) limit := lt_min (Nat.sub_pos_of_lt hlt) hlimit
      have hupto : off + min (total - off) limit ≤ total := by omega
      have hstep := hbody off s _ hchunk (min_le_right _ _) hupto (by omega) hP
      dsimp only
      by_cases hok : (body off (min (total - off) limit) s).1 = success
      · rw [if_pos hok] at hstep
        obtain ⟨hP', hle', hend⟩ := ih hupto hstep
        simp only [hok, ne_eq, not_true_eq_false, if_false]
        exact ⟨hP', hle', fun htotal => hend (by omega)⟩
      · rw [if_neg hok] at hstep
        rw [if_pos hok]
        exact ⟨hstep, hle, fun _ h => absurd h hok⟩
    · exact ⟨hP, hle, fun _ _ => le_antisymm hle (not_lt.mp hlt)⟩

lemma allocate_keeps (dev : Device) (c : Config) (s : Lib) :
    let r := htodRouteAllocateLocked dev c s
    r.2.log = s.log ∧ r.2.remaining = s.remaining ∧ r.1 ≠ .error success := by
  unfold htodRouteAllocateLocked
  split
  · exact ⟨rfl, rfl, nofun⟩
  · exact ⟨rfl, rfl, fun herr => absurd (Except.error.inj herr) (by decide)⟩
  · dsimp only
    split_ifs with hresult
    · exact ⟨rfl, rfl, fun herr => hresult (Except.error.inj herr)⟩
    · exact ⟨rfl, rfl, fun herr => absurd (Except.error.inj herr) (by decide)⟩
    · exact ⟨rfl, rfl, nofun⟩

lemma allocate_spec (h : Inv dev (some c) s) :
    let r := htodRouteAllocateLocked dev c s
    Inv dev (some c) r.2 ∧ ∀ base, r.1 = .ok base → ∃ size ∈ dev.bar4, base + c.prefixBytes ≤ size := by
  unfold htodRouteAllocateLocked
  split
  · rename_i base hbase
    refine ⟨h, fun base' hok => ?_⟩
    obtain rfl := Except.ok.inj hok
    exact h.staged base hbase c rfl
  · exact ⟨h, nofun⟩
  · rename_i size hstaging hbar4
    dsimp only
    split_ifs with hresult hrange
    · exact ⟨⟨h.budget, h.staged⟩, nofun⟩
    · exact ⟨⟨h.budget, h.staged⟩, nofun⟩
    · have hin : dev.offset s.asked + c.prefixBytes ≤ size := by omega
      refine ⟨⟨h.budget, ?_⟩, ?_⟩
      · rintro base hbase c' hc
        obtain rfl := Option.some.inj hbase
        obtain rfl := Option.some.inj hc
        exact ⟨size, hbar4, hin⟩
      · rintro base hok
        obtain rfl := Except.ok.inj hok
        exact ⟨size, hbar4, hin⟩

/-- A chunk through the staging, as long as the budget has it. -/
lemma routeChunk_reaches {start : ℕ} (h : Reached dev (some c) call log off s) (hleft : off + s.remaining = start)
    (hpos : 0 < chunk) (hchunk : chunk ≤ c.prefixBytes) (hbudget : off + chunk ≤ start) :
    let r := routeChunk dev c call off chunk s
    if r.1 = success then Reached dev (some c) call log (off + chunk) r.2 ∧ off + chunk + r.2.remaining = start
    else Reached dev (some c) call log off r.2 ∧ off + r.2.remaining = start := by
  obtain ⟨hlog, hremaining, herror⟩ := allocate_keeps dev c s
  obtain ⟨hinv, hbase⟩ := allocate_spec h.inv
  unfold routeChunk
  generalize htodRouteAllocateLocked dev c s = alloc at hinv hlog hremaining herror hbase ⊢
  obtain ⟨result | base, s'⟩ := alloc
  · have hfail : result ≠ success := fun h0 => herror (h0 ▸ rfl)
    simp only [hfail, if_false]
    exact ⟨⟨hinv, hlog ▸ h.acts⟩, hremaining.symm ▸ hleft⟩
  · obtain ⟨size, hsize, hin⟩ := hbase base rfl
    have hfits : ∀ ok, Fits dev (some c) (.route base (call.dst + .ofNat off) (bytesAt call.src off chunk) call.stream ok) :=
      fun _ => ⟨c, rfl, size, hsize, by simpa using hchunk, c.fits, hin⟩
    have h' : Reached dev (some c) call log off s' := ⟨hinv, hlog ▸ h.acts⟩
    dsimp only at hremaining ⊢
    by_cases hok : dev.answer s'.asked = success
    · simp only [hok, ne_eq, not_true_eq_false, if_false, if_true]
      have hbudget' : s'.routed + s'.remaining = total (some c) := hinv.budget
      refine ⟨h'.push ⟨?_, hinv.staged⟩ rfl (hfits _) (.inr ⟨hpos, by simp [written]⟩), by omega⟩
      dsimp only
      omega
    · simp only [hok, ne_eq, not_false_eq_true, if_true, if_false]
      exact ⟨h'.push (n := 0) ⟨hinv.budget, hinv.staged⟩ rfl (hfits _) (.inl ⟨by simp [written], rfl⟩), by omega⟩

lemma dataChunk_reaches (h : Reached dev cfg call log off s) (hpos : 0 < chunk) (hchunk : chunk ≤ dataSize) :
    let r := dataChunk dev call off chunk s
    if r.1 = success then Reached dev cfg call log (off + chunk) r.2 else Reached dev cfg call log off r.2 := by
  unfold dataChunk
  dsimp only
  split_ifs
  · exact h.push ⟨h.inv.budget, h.inv.staged⟩ rfl (by simpa [Fits] using hchunk) (.inr ⟨hpos, rfl⟩)
  · exact ⟨⟨h.inv.budget, h.inv.staged⟩, h.acts⟩

lemma routePart_reaches (h : Reached dev (some c) call log 0 s) :
    let r := routePart dev c call s
    Reached dev (some c) call log r.2.1 r.2.2 ∧ r.2.1 ≤ call.byteCount := by
  unfold routePart
  have hwanted := min_le_right (if c.fullTransfer then call.byteCount else c.prefixBytes) call.byteCount
  generalize min (if c.fullTransfer then call.byteCount else c.prefixBytes) call.byteCount = wanted at hwanted ⊢
  dsimp only
  split_ifs
  · exact ⟨h, Nat.zero_le _⟩
  · obtain ⟨⟨hreached, -⟩, hle, -⟩ := chunkLoop_reaches
      (fun off s' => Reached dev (some c) call log off s' ∧ off + s'.remaining = s.remaining) c.positive.2.1
      (fun off s' chunk hpos hchunk hupto _ hP => routeChunk_reaches hP.1 hP.2 hpos hchunk
        (hupto.trans (min_le_right wanted _))) _ (Nat.zero_le _) ⟨h, Nat.zero_add _⟩
    exact ⟨hreached, hle.trans ((min_le_left _ _).trans hwanted)⟩

lemma firstPart_reaches (h : Reached dev cfg call log 0 s) :
    let r := firstPart dev cfg call s
    Reached dev cfg call log r.2.1 r.2.2 ∧ r.2.1 ≤ call.byteCount := by
  unfold firstPart
  split
  · split_ifs
    · exact routePart_reaches h
    · exact ⟨h, Nat.zero_le _⟩
  · exact ⟨h, Nat.zero_le _⟩

lemma call_reaches (h : Inv dev cfg s) (call : Call) :
    let r := cuMemcpyHtoDAsync_v2 dev cfg call s
    ∃ n ≤ call.byteCount, Reached dev cfg call s.log n r.2 ∧ (r.1 = success → n = call.byteCount) := by
  have hstart : Reached dev cfg call s.log 0 s := ⟨h, [], by simp, rfl, by simp⟩
  unfold cuMemcpyHtoDAsync_v2
  split_ifs with hcheck
  · exact ⟨0, Nat.zero_le _, hstart, fun h0 => absurd h0 (by decide : errorInvalidValue ≠ success)⟩
  · obtain ⟨hfirst, hle⟩ := firstPart_reaches hstart
    dsimp only
    split_ifs with hfail
    · exact ⟨_, hle, hfirst, fun h0 => absurd h0 hfail⟩
    · obtain ⟨hreached, hle', hend⟩ := chunkLoop_reaches (Reached dev cfg call s.log) (by decide : 0 < dataSize)
        (fun off s' chunk hpos hchunk _ _ hP => dataChunk_reaches hP hpos hchunk) call.byteCount hle hfirst
      exact ⟨_, hle', hreached, hend (Nat.le_add_left _ _)⟩

inductive Op where
  | copy (call : Call)
  | synchronize (streams : UInt64 → Bool)

def step (dev : Device) (cfg : Option Config) (s : Lib) : Op → Lib
  | .copy call => (cuMemcpyHtoDAsync_v2 dev cfg call s).2
  | .synchronize streams => { s with log := s.log ++ [.sync streams] }

lemma inv_step (h : Inv dev cfg s) (op : Op) : Inv dev cfg (step dev cfg s op) := by
  cases op with
  | copy call =>
    obtain ⟨n, -, hreached, -⟩ := call_reaches h call
    exact hreached.inv
  | synchronize streams => exact ⟨h.budget, h.staged⟩

lemma inv_run (dev : Device) (cfg : Option Config) (ops : List Op) : Inv dev cfg (run (step dev cfg) (new cfg) ops) :=
  run_inv_all (P := Inv dev cfg) (fun _ op h => inv_step h op) ops ⟨Nat.zero_add _, fun _ hbase => nomatch hbase⟩

/-- The range is covered. After any calls, with any failures, the next call's commands take a prefix of its source
to the device in order, without gap or overlap, all of it on success. -/
theorem copy_covers_range (dev : Device) (cfg : Option Config) (ops : List Op) (call : Call) :
    let s := run (step dev cfg) (new cfg) ops
    let r := cuMemcpyHtoDAsync_v2 dev cfg call s
    s.routed + s.remaining = total cfg ∧ ∃ n ≤ call.byteCount, (r.1 = success → n = call.byteCount) ∧
      ∃ acts, r.2.log = s.log ++ acts ∧ Covers call 0 (acts.filterMap written) n ∧ ∀ act ∈ acts, Fits dev cfg act := by
  intro s r
  have hinv := inv_run dev cfg ops
  obtain ⟨n, hle, hreached, hend⟩ := call_reaches hinv call
  exact ⟨hinv.budget, n, hle, hend, hreached.acts⟩

/-! ## What the device reads -/

def contents (log : List Act) : List UInt8 :=
  log.foldl (fun staging act => match act with
    | .route _ _ bytes _ _ => bytes ++ staging.drop bytes.length
    | _ => staging) []

def Act.syncs (stream : UInt64) : Act → Bool
  | .sync streams => streams stream
  | _ => false

/-- whenever the device reads for an accepted command, up to its stream's next synchronization, it finds the bytes
staged for it -/
def Delivers (log : List Act) : Prop :=
  ∀ before after rest base dst bytes stream, log = before ++ .route base dst bytes stream true :: after ++ rest →
    (∀ act ∈ after, act.syncs stream = false) →
    (contents (before ++ .route base dst bytes stream true :: after)).take bytes.length = bytes

/-- how much of a call goes through the staging with `budget` left and every command accepted -/
def reach (c : Config) (budget : ℕ) (call : Call) : ℕ :=
  if call.kind = .ordinary ∧ c.minimum ≤ call.byteCount then
    if c.fullTransfer then if call.byteCount ≤ budget then call.byteCount else 0
    else min (min c.prefixBytes call.byteCount) budget
  else 0

def firstChunk (c : Config) (call : Call) : ℕ := min c.prefixBytes (reach c c.total call)

/-- the calls whose streams have not been synchronized since -/
def unsynchronized (ops : List Op) : List Call :=
  ops.foldl (fun calls op => match op with
    | .copy call => calls ++ [call]
    | .synchronize streams => calls.filter fun call => !streams call.stream) []

/-- A call takes one chunk, or its chunks repeat the first; and the stream of a call is synchronized before the next
one the budget still routes, or the two begin with the same bytes. -/
structure Apart (c : Config) (ops : List Op) : Prop where
  chunks : ∀ call, .copy call ∈ ops → ∀ i < reach c c.total call, call.src i = call.src (i % c.prefixBytes)
  calls : ∀ before call after, ops = before ++ .copy call :: after → ∀ earlier ∈ unsynchronized before,
    ∀ i < firstChunk c earlier, i < reach c (c.total - firstChunk c earlier) call → earlier.src i = call.src i

lemma unsynchronized_copy (ops : List Op) (call : Call) :
    unsynchronized (ops ++ [.copy call]) = unsynchronized ops ++ [call] := by
  simp [unsynchronized]

lemma unsynchronized_sync (ops : List Op) (streams : UInt64 → Bool) :
    unsynchronized (ops ++ [.synchronize streams]) = (unsynchronized ops).filter fun call => !streams call.stream := by
  simp [unsynchronized]

/-- an accepted command whose stream has not been synchronized since -/
def Pending (log : List Act) (stream : UInt64) (bytes : List UInt8) : Prop :=
  ∃ before base dst after, log = before ++ .route base dst bytes stream true :: after ∧
    ∀ act ∈ after, act.syncs stream = false

lemma pending_snoc {act : Act} {stream : UInt64} {bytes : List UInt8} (h : Pending (log ++ [act]) stream bytes) :
    (∃ base dst, act = .route base dst bytes stream true) ∨ act.syncs stream = false ∧ Pending log stream bytes := by
  obtain ⟨before, base, dst, after, hlog, hsync⟩ := h
  rcases after.eq_nil_or_concat' with rfl | ⟨after, last, rfl⟩
  · exact .inl ⟨base, dst, (by simpa using hlog : _ ∧ _).2⟩
  · rw [← cons_append, ← append_assoc] at hlog
    obtain ⟨rfl, hlast⟩ := append_inj' hlog rfl
    obtain rfl := singleton_inj.mp hlast
    simp only [mem_append, mem_singleton, or_imp, forall_and, forall_eq] at hsync
    exact .inr ⟨hsync.2, before, base, dst, after, rfl, hsync.1⟩

lemma delivers_snoc {act : Act} (h : Delivers log)
    (hact : ∀ stream bytes, Pending (log ++ [act]) stream bytes → (contents (log ++ [act])).take bytes.length = bytes) :
    Delivers (log ++ [act]) := by
  intro before after rest base dst bytes stream hlog hsync
  rcases rest.eq_nil_or_concat' with rfl | ⟨rest, last, rfl⟩
  · rw [append_nil] at hlog
    exact hlog ▸ hact stream bytes ⟨before, base, dst, after, hlog, hsync⟩
  · rw [← append_assoc] at hlog
    exact h before after rest base dst bytes stream (append_inj' hlog rfl).1 hsync

lemma Delivers.read (h : Delivers log) {stream : UInt64} {bytes : List UInt8} (hpending : Pending log stream bytes) :
    (contents log).take bytes.length = bytes := by
  obtain ⟨before, base, dst, after, rfl, hsync⟩ := hpending
  exact h before after [] base dst bytes stream (by simp) hsync

lemma contents_route (log : List Act) (base : ℕ) (dst : UInt64) (bytes : List UInt8) (stream : UInt64) (ok : Bool) :
    contents (log ++ [.route base dst bytes stream ok]) = bytes ++ (contents log).drop bytes.length := by
  simp [contents]

/-- Staging keeps what pending commands read, if it begins as they do. -/
lemma Delivers.route (h : Delivers log) (base : ℕ) (dst : UInt64) (bytes : List UInt8) (stream : UInt64) (ok : Bool)
    (hagree : ∀ stream' bytes', Pending log stream' bytes' → bytes'.take bytes.length = bytes.take bytes'.length) :
    Delivers (log ++ [.route base dst bytes stream ok]) := by
  refine delivers_snoc h fun stream' bytes' hpending => ?_
  rcases pending_snoc hpending with ⟨base', dst', heq⟩ | ⟨-, hpending⟩
  · cases heq
    simp [contents_route]
  · rw [contents_route, take_append, ← hagree stream' bytes' hpending, ← drop_take, h.read hpending, take_append_drop]

lemma Delivers.other (h : Delivers log) {act : Act}
    (hact : ∀ base dst bytes stream ok, act ≠ .route base dst bytes stream ok) :
    Delivers (log ++ [act]) := by
  refine delivers_snoc h fun stream bytes hpending => ?_
  rcases pending_snoc hpending with ⟨base, dst, heq⟩ | ⟨-, hpending⟩
  · exact absurd heq (hact _ _ _ _ _)
  · have hsame : contents (log ++ [act]) = contents log := by
      cases act with
      | route => exact absurd rfl (hact _ _ _ _ _)
      | data | sync => simp [contents]
    exact hsame ▸ h.read hpending

/-! ## What the loop stages -/

/-- a pending command has the first bytes of its call, and its first chunk is out of the budget -/
structure Trace (c : Config) (call : Call) (left : ℕ) (stream : UInt64) (bytes : List UInt8) : Prop where
  on : call.stream = stream
  begins : bytes = bytesAt call.src 0 bytes.length
  short : bytes.length ≤ firstChunk c call
  left : left ≤ c.total - firstChunk c call

lemma reach_mono (c : Config) (call : Call) {budget budget' : ℕ} (h : budget ≤ budget') :
    reach c budget call ≤ reach c budget' call := by
  unfold reach
  split_ifs <;> omega

lemma reach_le (c : Config) (budget : ℕ) (call : Call) : reach c budget call ≤ budget := by
  unfold reach
  split_ifs <;> omega

/-- what is left after the first chunk -/
lemma left_le (call : Call) {budget : ℕ} (h : budget ≤ c.total) (hpos : 0 < reach c budget call) :
    budget - min c.prefixBytes (reach c budget call) ≤ c.total - firstChunk c call := by
  unfold firstChunk
  unfold reach at hpos ⊢
  split_ifs at hpos ⊢ <;> omega

lemma take_bytesAt (src : Buf) (n m : ℕ) : (bytesAt src 0 n).take m = bytesAt src 0 (min m n) := by
  simp [bytesAt, ← map_take, take_range]

lemma bytesAt_congr {src src' : Buf} {off off' n : ℕ} (h : ∀ i < n, src (off + i) = src' (off' + i)) :
    bytesAt src off n = bytesAt src' off' n :=
  map_congr_left fun i hi => h i (mem_range.mp hi)

/-- Every chunk of a call is the beginning of its first. -/
lemma Apart.chunk_eq {ops : List Op} (h : Apart c ops) (hcall : .copy call ∈ ops) (hoff : c.prefixBytes ∣ off)
    (hchunk : chunk ≤ c.prefixBytes) (hupto : off + chunk ≤ reach c c.total call) :
    bytesAt call.src off chunk = bytesAt call.src 0 chunk := by
  refine bytesAt_congr fun i hi => ?_
  obtain ⟨k, rfl⟩ := hoff
  rw [h.chunks call hcall _ (by omega), Nat.mul_add_mod, Nat.mod_eq_of_lt (hi.trans_le hchunk), Nat.zero_add]

/-- what a call does not disturb while it stages: the device reads what was staged, and pending are earlier calls'
commands and its own -/
structure Staging (c : Config) (done : List Op) (call : Call) (budget off : ℕ) (s : Lib) : Prop where
  delivers : Delivers s.log
  left : s.remaining + off = budget
  aligned : off < reach c budget call → c.prefixBytes ∣ off
  pending : ∀ stream bytes, Pending s.log stream bytes →
    (∃ earlier ∈ unsynchronized done, Trace c earlier budget stream bytes) ∨ Trace c call s.remaining stream bytes

variable {done rest : List Op} {budget : ℕ}

/-- A chunk begins as every pending command does. -/
lemma Staging.agrees (h : Staging c done call budget off s) (hapart : Apart c (done ++ .copy call :: rest))
    (hbudget : budget ≤ c.total) (hchunk : chunk ≤ c.prefixBytes) (hupto : off + chunk ≤ reach c budget call)
    (hpos : 0 < chunk) {stream : UInt64} {bytes : List UInt8} (hpending : Pending s.log stream bytes) :
    bytes.take (bytesAt call.src off chunk).length = (bytesAt call.src off chunk).take bytes.length := by
  rw [hapart.chunk_eq (by simp) (h.aligned (by omega)) hchunk (hupto.trans (reach_mono c call hbudget)), length_bytesAt]
  obtain ⟨from_, hsrc, hbytes⟩ : ∃ src, (∀ i < min chunk bytes.length, src i = call.src i) ∧
      bytes = bytesAt src 0 bytes.length := by
    rcases h.pending stream bytes hpending with ⟨earlier, hdone, htrace⟩ | htrace
    · refine ⟨earlier.src, fun i hi => ?_, htrace.begins⟩
      have hreach := reach_mono c call htrace.left
      have hshort := htrace.short
      exact hapart.calls done call rest rfl earlier hdone i (by omega) (by omega)
    · exact ⟨call.src, fun _ _ => rfl, htrace.begins⟩
  rw [hbytes, length_bytesAt, take_bytesAt, take_bytesAt, min_comm bytes.length]
  exact bytesAt_congr fun i hi => by simpa using hsrc i hi

lemma Trace.mono {left left' : ℕ} {stream : UInt64} {bytes : List UInt8} (h : Trace c call left stream bytes)
    (hle : left' ≤ left) : Trace c call left' stream bytes :=
  ⟨h.on, h.begins, h.short, hle.trans h.left⟩

lemma Staging.of_eq {s' : Lib} (h : Staging c done call budget off s) (hlog : s'.log = s.log)
    (hremaining : s'.remaining = s.remaining) : Staging c done call budget off s' :=
  ⟨hlog ▸ h.delivers, hremaining ▸ h.left, h.aligned, hlog ▸ hremaining ▸ h.pending⟩

lemma routeChunk_stages (hapart : Apart c (done ++ .copy call :: rest)) (hbudget : budget ≤ c.total)
    (h : Staging c done call budget off s) (hpos : 0 < chunk) (hchunk : chunk ≤ c.prefixBytes)
    (hupto : off + chunk ≤ reach c budget call) (hlast : chunk < c.prefixBytes → off + chunk = reach c budget call) :
    let r := routeChunk dev c call off chunk s
    if r.1 = success then Staging c done call budget (off + chunk) r.2 else Staging c done call budget off r.2 := by
  obtain ⟨hlog, hremaining, herror⟩ := allocate_keeps dev c s
  unfold routeChunk
  generalize htodRouteAllocateLocked dev c s = alloc at hlog hremaining herror ⊢
  obtain ⟨result | base, s'⟩ := alloc
  · have hfail : result ≠ success := fun h0 => herror (h0 ▸ rfl)
    simpa only [hfail, if_false] using h.of_eq hlog hremaining
  have h' : Staging c done call budget off s' := h.of_eq hlog hremaining
  have hdelivers := fun ok => h'.delivers.route base (call.dst + .ofNat off) (bytesAt call.src off chunk) call.stream ok
    fun _ _ => h'.agrees hapart hbudget hchunk hupto hpos
  have hleft := h'.left
  have hreach := reach_mono c call hbudget
  have hdvd := h'.aligned (by omega)
  dsimp only
  by_cases hok : dev.answer s'.asked = success
  · simp only [hok, ne_eq, not_true_eq_false, if_false, if_true]
    have hfirst : min c.prefixBytes (reach c budget call) ≤ off + chunk := by
      rcases Nat.eq_zero_or_pos off with rfl | hoff
      · omega
      · exact (min_le_left _ _).trans ((Nat.le_of_dvd hoff hdvd).trans (Nat.le_add_right _ _))
    have hlater := left_le call hbudget (by omega)
    have hroom : reach c budget call ≤ budget := reach_le c budget call
    refine ⟨hdelivers _, by dsimp only; omega, fun hlt => hdvd.add (dvd_of_eq (by omega)), fun stream bytes hp => ?_⟩
    rcases pending_snoc hp with ⟨base', dst', heq⟩ | ⟨-, hp⟩
    · cases heq
      refine .inr ⟨rfl, ?_, ?_, by dsimp only; omega⟩
      · rw [length_bytesAt]
        exact hapart.chunk_eq (by simp) hdvd hchunk (hupto.trans hreach)
      · rw [length_bytesAt]
        exact le_min hchunk (by omega)
    · exact (h'.pending stream bytes hp).imp_right fun htrace => htrace.mono (Nat.sub_le _ _)
  · simp only [hok, ne_eq, not_false_eq_true, if_true, if_false]
    refine ⟨hdelivers _, hleft, h'.aligned, fun stream bytes hp => ?_⟩
    rcases pending_snoc hp with ⟨base', dst', heq⟩ | ⟨-, hp⟩
    · simp at heq
    · exact h'.pending stream bytes hp

/-- what a run has staged is delivered so far, and every pending command is of a call not synchronized since -/
structure Kept (c : Config) (done : List Op) (s : Lib) : Prop where
  delivers : Delivers s.log
  pending : ∀ stream bytes, Pending s.log stream bytes →
    ∃ call ∈ unsynchronized done, Trace c call s.remaining stream bytes

lemma Staging.kept (h : Staging c done call budget off s) : Kept c (done ++ [.copy call]) s := by
  refine ⟨h.delivers, fun stream bytes hpending => ?_⟩
  have hleft := h.left
  rcases h.pending stream bytes hpending with ⟨earlier, hdone, htrace⟩ | htrace
  · exact ⟨earlier, by simp [unsynchronized_copy, hdone], htrace.mono (by omega)⟩
  · exact ⟨call, by simp [unsynchronized_copy], htrace⟩

lemma target_eq (hroute : call.kind = .ordinary ∧ c.minimum ≤ call.byteCount)
    (hover : ¬ (min (if c.fullTransfer then call.byteCount else c.prefixBytes) call.byteCount > budget ∧ c.fullTransfer)) :
    min (min (if c.fullTransfer then call.byteCount else c.prefixBytes) call.byteCount) budget = reach c budget call := by
  rw [reach, if_pos hroute]
  cases hfull : c.fullTransfer with
  | false => simp
  | true =>
    have hle : call.byteCount ≤ budget := by simpa [hfull] using hover
    simp [hle]

lemma firstPart_stages (hapart : Apart c (done ++ .copy call :: rest)) (hbudget : s.remaining ≤ c.total)
    (h : Staging c done call s.remaining 0 s) : Kept c (done ++ [.copy call]) (firstPart dev (some c) call s).2.2 := by
  unfold firstPart
  dsimp only
  split_ifs with hroute
  · unfold routePart
    by_cases hover : min (if c.fullTransfer then call.byteCount else c.prefixBytes) call.byteCount > s.remaining ∧ c.fullTransfer
    · rw [if_pos hover]
      exact h.kept
    · rw [if_neg hover]
      dsimp only
      rw [target_eq hroute hover]
      exact (chunkLoop_reaches (Staging c done call s.remaining) c.positive.2.1
        (fun off s' chunk hpos hchunk hupto hlast hP => routeChunk_stages hapart hbudget hP hpos hchunk hupto hlast)
        _ (Nat.zero_le _) h).1.kept
  · exact h.kept

lemma dataChunk_keeps (dev : Device) (call : Call) (off chunk : ℕ) (h : Kept c done s) :
    Kept c done (dataChunk dev call off chunk s).2 := by
  unfold dataChunk
  dsimp only
  split_ifs
  · refine ⟨h.delivers.other nofun, fun stream bytes hpending => ?_⟩
    rcases pending_snoc hpending with ⟨_, _, heq⟩ | ⟨-, hpending⟩
    · cases heq
    · exact h.pending stream bytes hpending
  · exact ⟨h.delivers, h.pending⟩

lemma kept_step (h : Kept c done s) (hinv : Inv dev (some c) s) {op : Op} (hapart : Apart c (done ++ op :: rest)) :
    Kept c (done ++ [op]) (step dev (some c) s op) := by
  have hbudget : s.remaining ≤ c.total := by
    have := hinv.budget
    simp only [total, Option.elim] at this
    omega
  cases op with
  | copy call =>
    dsimp only [step]
    unfold cuMemcpyHtoDAsync_v2
    have hstart : Staging c done call s.remaining 0 s :=
      ⟨h.delivers, rfl, fun _ => dvd_zero _, fun stream bytes hpending => .inl (h.pending stream bytes hpending)⟩
    split_ifs with hcheck
    · exact hstart.kept
    · have hfirst : Kept c (done ++ [.copy call]) (firstPart dev (some c) call s).2.2 :=
        firstPart_stages hapart hbudget hstart
      have hreached : Reached dev (some c) call s.log 0 s := ⟨hinv, [], by simp, rfl, by simp⟩
      dsimp only
      split_ifs
      · exact hfirst
      · exact (chunkLoop_reaches (fun _ => Kept c (done ++ [.copy call])) (by decide : 0 < dataSize)
          (fun off s chunk _ _ _ _ hP => (ite_self _).mpr (dataChunk_keeps dev call off chunk hP)) _
          (firstPart_reaches hreached).2 hfirst).1
  | synchronize streams =>
    refine ⟨h.delivers.other nofun, fun stream bytes hpending => ?_⟩
    rcases pending_snoc hpending with ⟨_, _, heq⟩ | ⟨hsync, hpending⟩
    · cases heq
    · obtain ⟨call, hdone, htrace⟩ := h.pending stream bytes hpending
      exact ⟨call, by simpa [unsynchronized_sync, hdone, htrace.on, Act.syncs] using hsync, htrace⟩

lemma kept_run (h : Kept c done s) (hinv : Inv dev (some c) s) (hapart : Apart c (done ++ rest)) :
    Kept c (done ++ rest) (run (step dev (some c)) s rest) := by
  induction rest generalizing done s with
  | nil => simpa using h
  | cons op rest ih =>
    rw [append_cons] at hapart ⊢
    exact ih (kept_step h hinv (by simpa using hapart)) (inv_step hinv op) hapart

/-- Routed calls deliver their bytes on every device, if each takes one chunk (or repeats it) and is synchronized
before the next is staged (or both begin with the same bytes). -/
theorem routed_bytes_delivered (dev : Device) (c : Config) (ops : List Op) (h : Apart c ops) :
    Delivers (run (step dev (some c)) (new (some c)) ops).log := by
  have hempty : ∀ stream bytes, ¬ Pending (new (some c)).log stream bytes := by
    rintro stream bytes ⟨before, base, dst, after, hlog, -⟩
    simp [new] at hlog
  have hnew : Kept c [] (new (some c)) :=
    ⟨fun before after rest base dst bytes stream hlog => by simp [new] at hlog,
      fun stream bytes hpending => absurd hpending (hempty stream bytes)⟩
  exact (kept_run hnew (inv_run dev (some c) []) h).delivers

/-- two calls with a synchronization between them, the second in two equal chunks, and a third with the same bytes -/
theorem routed_bytes_delivered_three : Delivers (run (step ⟨fun _ => success, fun _ => 0, some 2⟩
    (some ⟨true, 1, 2, 8, by decide, by decide, by decide⟩)) (new (some ⟨true, 1, 2, 8, by decide, by decide, by decide⟩))
    [.copy ⟨0, fun _ => 7, 2, 0, .ordinary⟩, .synchronize fun _ => true, .copy ⟨64, fun i => .ofNat (i % 2), 4, 1, .ordinary⟩,
      .copy ⟨128, fun i => .ofNat i, 2, 2, .ordinary⟩]).log := by
  refine routed_bytes_delivered _ _ _ ⟨?_, ?_⟩
  · simp only [mem_cons, not_mem_nil, or_false, Op.copy.injEq, reduceCtorEq, false_or]
    rintro call (rfl | rfl | rfl) <;> decide
  · intro before call after h
    rcases before with _ | ⟨_, _ | ⟨_, _ | ⟨_, _ | ⟨_, _⟩⟩⟩⟩ <;>
      simp only [nil_append, cons_append, cons.injEq, Op.copy.injEq, reduceCtorEq, and_false, false_and] at h
    · obtain ⟨rfl, -⟩ := h
      decide
    · obtain ⟨rfl, rfl, rfl, -⟩ := h
      decide
    · obtain ⟨rfl, rfl, rfl, rfl, -⟩ := h
      decide
    · simp at h

theorem second_chunk_overwrites :
    ¬ Delivers (run (step ⟨fun _ => success, fun _ => 0, some 1⟩
      (some ⟨true, 1, 1, 2, by decide, by decide, by decide⟩)) (new (some ⟨true, 1, 1, 2, by decide, by decide, by decide⟩))
      [.copy ⟨0, fun i => .ofNat i, 2, 0, .ordinary⟩]).log := by
  intro h
  have hread := h [] [.route 0 1 [1] 0 true] [] 0 0 [0] 0 rfl (by simp [Act.syncs])
  revert hread
  decide

end CxlMemSim.Htod
