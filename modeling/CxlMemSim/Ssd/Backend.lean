/-
The SSD streaming backend (`SsdStreamingBackend`): a page cache over a backing store, shared by threads under one mutex
that is released around page I/O and while waiting on a page's condition variable.

Model: each thread is at a place of the source with its live locals; the holder of `lock` runs alone, except that page
I/O of others may complete. A sleeper may wake at any time. An erased page object lives on in `heap`. `mem` and `log`
are ghosts: what every page should hold, and the calls that have returned.
-/
import CxlMemSim.Core.Bytes
import CxlMemSim.Core.Run

namespace CxlMemSim.Ssd

open Function
open CxlMemSim.Core

/-! ## Configuration and pages -/

structure SsdStreamingConfig where
  capacityBytes : UInt64
  pageSize : UInt32
  cachePages : ℕ
  readAheadPages : UInt32
  page_pow_two : ∃ k, pageSize.toNat = 2 ^ k
  capacity_pos : 0 < capacityBytes.toNat
  cache_pos : 1 ≤ cachePages

def SsdStreamingConfig.ps (cfg : SsdStreamingConfig) : ℕ := cfg.pageSize.toNat

lemma SsdStreamingConfig.ps_pos (cfg : SsdStreamingConfig) : 0 < cfg.ps := by
  obtain ⟨k, hk⟩ := cfg.page_pow_two
  unfold SsdStreamingConfig.ps
  rw [hk]; exact Nat.two_pow_pos k

def rangeValid (cfg : SsdStreamingConfig) (addr size : UInt64) : Bool :=
  if size = 0 then false
  else if addr > 0xFFFFFFFFFFFFFFFF - (size - 1) then false
  else addr + size ≤ cfg.capacityBytes

inductive SsdPageState where
  | nonResident
  | loading
  | residentClean
  | residentDirty
  | evicting
deriving DecidableEq, Repr

def SsdPageState.busy : SsdPageState → Bool
  | .loading => true
  | .evicting => true
  | _ => false

structure PageMeta where
  vaPageNo : ℕ
  state : SsdPageState
  refcnt : ℕ
  dirty : Bool
  accessed : Bool
  pinned : Bool
  streaming : Bool
  data : Buf

def newPage (pageNo : ℕ) : PageMeta := ⟨pageNo, .nonResident, 0, false, false, false, false, fun _ => 0⟩

abbrev ObjId := ℕ

structure Cache where
  pages : Finmap (fun _ : ℕ => ObjId)
  heap : ObjId → PageMeta
  nextObj : ObjId
  clockQueue : List ℕ
  backing : ℕ → Buf
  mem : ℕ → Buf

namespace Cache

def size (c : Cache) : ℕ := c.pages.keys.card

def modify (c : Cache) (o : ObjId) (f : PageMeta → PageMeta) : Cache :=
  { c with heap := update c.heap o (f (c.heap o)) }

def busy (c : Cache) (o : ObjId) : Bool := (c.heap o).state.busy

def create (c : Cache) (pageNo : ℕ) : Cache :=
  { c with
    pages := c.pages.insert pageNo c.nextObj
    heap := update c.heap c.nextObj (newPage pageNo)
    nextObj := c.nextObj + 1
    clockQueue := c.clockQueue ++ [pageNo] }

def getOrCreate (c : Cache) (pageNo : ℕ) (alloc : Bool) : Option (Cache × ObjId) :=
  match c.pages.lookup pageNo with
  | some o => some (c, o)
  | none => if alloc then some (c.create pageNo, c.nextObj) else none

end Cache

/-! ## Calls, loops and return addresses -/

inductive Call where
  | read (addr size : UInt64)
  | write (addr size : UInt64) (src : Buf)
  | flush
  | prefetch (addr size : UInt64)
  | evictAfter (addr size : UInt64)
  | pin (addr size : UInt64)
  | unpin (addr size : UInt64)
  | setStreaming (addr size : UInt64)

inductive Job where
  | read (addr size copied : ℕ) (dst : Buf)
  | write (addr size copied : ℕ) (src : Buf)
  | prefetch (pageNo last : ℕ)
  | pin (pageNo last : ℕ)

def Job.page (cfg : SsdStreamingConfig) : Job → ℕ
  | .read addr _ copied _ => (addr + copied) / cfg.ps
  | .write addr _ copied _ => (addr + copied) / cfg.ps
  | .prefetch p _ => p
  | .pin p _ => p

def Job.readAhead : Job → Bool
  | .read _ _ copied _ => copied = 0
  | _ => false

/-- the loops that evict until there is room: in `ensure_page_loaded_locked`, in its read-ahead, in `set_streaming` -/
inductive Room where
  | demand (job : Job)
  | ahead (job : Job) (held : ObjId) (i : UInt32)
  | streaming (pageNo last : ℕ)

inductive Trim where
  | demand (job : Job) (o : ObjId)
  | ahead (job : Job) (held : ObjId) (i : UInt32)

inductive OneRet where
  | room (r : Room)
  | trim (r : Trim)

inductive EvictRet where
  | one (ret : OneRet)
  | after (pageNo last : ℕ) (ok : Bool)

inductive FlushRet where
  | evict (pageNo : ℕ) (ret : EvictRet)
  | flush (snapshot rest : List ObjId) (ok : Bool)

inductive LoadRet where
  | demand (job : Job)
  | ahead (job : Job) (held : ObjId) (i : UInt32)

inductive Pc where
  | idle
  | entry (call : Call)
  | loop (job : Job)
  | room (r : Room)
  | evictOne (attempts : ℕ) (ret : OneRet)
  | trim (r : Trim)
  | ahead (job : Job) (held : ObjId) (i : UInt32)
  | loaded (job : Job)
  | loadRead (o : ObjId) (ret : LoadRet)
  | loadDone (o : ObjId) (ok : Bool) (ret : LoadRet)
  | flushWrite (o : ObjId) (ret : FlushRet)
  | flushDone (o : ObjId) (ok : Bool) (ret : FlushRet)
  | ensureWait (job : Job) (o : ObjId)
  | evictWait (pageNo : ℕ) (o : ObjId) (ret : EvictRet)
  | flushWait (o : ObjId) (ret : FlushRet)
  | evictLoop (pageNo last : ℕ) (ok : Bool)
  | streamLoop (pageNo last : ℕ)
  | unpinLoop (pageNo last : ℕ)
  | flushLoop (snapshot rest : List ObjId) (ok : Bool)
  | threw

inductive Event where
  | read (addr size : ℕ) (out : Option Buf)
  | write (addr size : ℕ) (src : Buf) (ok : Bool)
  | other (ok : Bool)

/-! ## The machine -/

structure Sys (n : ℕ) where
  cache : Cache
  lock : Option (Fin n)
  pc : Fin n → Pc
  log : List Event

variable {n : ℕ}

namespace Sys

def goto (s : Sys n) (t : Fin n) (p : Pc) : Sys n := { s with pc := update s.pc t p }

def release (s : Sys n) (t : Fin n) (p : Pc) : Sys n := { s with lock := none, pc := update s.pc t p }

def withCache (s : Sys n) (c : Cache) : Sys n := { s with cache := c }

def modify (s : Sys n) (o : ObjId) (f : PageMeta → PageMeta) : Sys n := s.withCache (s.cache.modify o f)

def finish (s : Sys n) (t : Fin n) (e : Event) : Sys n := { s.release t .idle with log := s.log ++ [e] }

end Sys

def Job.event (ok : Bool) : Job → Event
  | .read addr size _ dst => .read addr size (if ok then some dst else none)
  | .write addr size _ src => .write addr size src ok
  | .prefetch _ _ => .other ok
  | .pin _ _ => .other ok

section Steps

variable (cfg : SsdStreamingConfig) (s : Sys n) (t : Fin n)

/-! ### load_page_locked -/

def loadReturn (o : ObjId) (ret : LoadRet) (ok : Bool) : Sys n :=
  match ret with
  | .demand job =>
    if ok then
      if job.readAhead then (s.modify o fun p => { p with refcnt := p.refcnt + 1 }).goto t (.ahead job o 1)
      else s.goto t (.loaded job)
    else s.finish t (job.event false)
  | .ahead job held i => s.goto t (.trim (.ahead job held i))

def loadPage (o : ObjId) (ret : LoadRet) : Sys n :=
  if (s.cache.heap o).vaPageNo * cfg.ps ≥ cfg.capacityBytes.toNat then loadReturn s t o ret false
  else
    (s.modify o fun p => { p with state := .loading, refcnt := p.refcnt + 1 }).release t (.loadRead o ret)

def readPage (o : ObjId) (ret : LoadRet) (ok : Bool) : Sys n :=
  if ok then
    (s.modify o fun p => { p with data := s.cache.backing p.vaPageNo }).goto t (.loadDone o true ret)
  else s.goto t (.loadDone o false ret)

def loadFinish (o : ObjId) (ok : Bool) (ret : LoadRet) : Sys n :=
  loadReturn
    (s.modify o fun p =>
      if ok then { p with refcnt := p.refcnt - 1, state := .residentClean, dirty := false, accessed := true }
      else { p with refcnt := p.refcnt - 1, state := .nonResident })
    t o ret ok

/-! ### Returns of evict_one_locked -/

def aheadStop (job : Job) (held : ObjId) : Sys n :=
  (s.modify held fun p => { p with refcnt := p.refcnt - 1 }).goto t (.loaded job)

def oneReturn (ret : OneRet) (ok : Bool) : Sys n :=
  match ret, ok with
  | .room r, true => s.goto t (.room r)
  | .room (.demand job), false => s.finish t (job.event false)
  | .room (.ahead job held _), false => aheadStop s t job held
  | .room (.streaming _ _), false => s.finish t (.other false)
  | .trim r, true => s.goto t (.trim r)
  | .trim (.demand job o), false => loadPage cfg s t o (.demand job)
  | .trim (.ahead job held i), false => s.goto t (.ahead job held (i + 1))

/-! ### flush_page_locked and evict_page_locked -/

def evictReturn (ret : EvictRet) (ok : Bool) : Sys n :=
  match ret with
  | .one ret => oneReturn cfg s t ret ok
  | .after p last acc => s.goto t (.evictLoop (p + 1) last (ok && acc))

def flushReturn (o : ObjId) (ret : FlushRet) (ok : Bool) : Sys n :=
  match ret with
  | .evict pageNo ret =>
    if ok then
      let s := s.modify o fun p => { p with state := .nonResident }
      evictReturn cfg (s.withCache { s.cache with pages := s.cache.pages.erase pageNo }) t ret true
    else evictReturn cfg s t ret false
  | .flush snapshot rest acc => s.goto t (.flushLoop snapshot rest (ok && acc))

def flushPage (o : ObjId) (ret : FlushRet) : Sys n :=
  if s.cache.busy o then s.release t (.flushWait o ret)
  else if !(s.cache.heap o).dirty then flushReturn cfg s t o ret true
  else (s.modify o fun p => { p with state := .evicting }).release t (.flushWrite o ret)

def writePage (o : ObjId) (ret : FlushRet) (ok : Bool) : Sys n :=
  if ok then
    (s.withCache { s.cache with
      backing := update s.cache.backing (s.cache.heap o).vaPageNo (s.cache.heap o).data }).goto t
      (.flushDone o true ret)
  else s.goto t (.flushDone o false ret)

def flushFinish (o : ObjId) (ok : Bool) (ret : FlushRet) : Sys n :=
  flushReturn cfg
    (s.modify o fun p =>
      if ok then { p with dirty := false, state := .residentClean } else { p with state := .residentDirty })
    t o ret ok

def evictChecked (pageNo : ℕ) (o : ObjId) (ret : EvictRet) : Sys n :=
  if (s.cache.heap o).pinned || (s.cache.heap o).refcnt ≠ 0 then evictReturn cfg s t ret false
  else flushPage cfg s t o (.evict pageNo ret)

def evictPage (pageNo : ℕ) (ret : EvictRet) : Sys n :=
  match s.cache.pages.lookup pageNo with
  | none => evictReturn cfg s t ret true
  | some o => if s.cache.busy o then s.release t (.evictWait pageNo o ret) else evictChecked cfg s t pageNo o ret

/-! ### evict_one_locked -/

def callEvictOne (ret : OneRet) : Sys n :=
  if s.cache.size = 0 then oneReturn cfg s t ret true
  else s.goto t (.evictOne (s.cache.clockQueue.length * 2 + 1) ret)

def evictOne (attempts : ℕ) (ret : OneRet) : Sys n :=
  match attempts, s.cache.clockQueue with
  | 0, _ => oneReturn cfg s t ret false
  | _, [] => oneReturn cfg s t ret false
  | k + 1, pageNo :: queue =>
    let again := s.withCache { s.cache with clockQueue := queue ++ [pageNo] }
    let popped := s.withCache { s.cache with clockQueue := queue }
    match s.cache.pages.lookup pageNo with
    | none => popped.goto t (.evictOne k ret)
    | some o =>
      if (s.cache.heap o).pinned || (s.cache.heap o).refcnt ≠ 0 || s.cache.busy o then again.goto t (.evictOne k ret)
      else if (s.cache.heap o).accessed then
        (again.modify o fun p => { p with accessed := false }).goto t (.evictOne k ret)
      else evictPage cfg popped t pageNo (.one ret)

/-! ### ensure_page_loaded_locked -/

def ensureChecked (job : Job) (o : ObjId) : Sys n :=
  if (s.cache.heap o).state = .residentClean ∨ (s.cache.heap o).state = .residentDirty then
    (s.modify o fun p => { p with accessed := true }).goto t (.loaded job)
  else s.goto t (.trim (.demand job o))

def ensureGet (job : Job) (alloc : Bool) : Sys n :=
  match s.cache.getOrCreate (job.page cfg) alloc with
  | none => s.finish t (job.event false)
  | some (c, o) =>
    if c.busy o then (s.withCache c).release t (.ensureWait job o) else ensureChecked (s.withCache c) t job o

def ensure (job : Job) (alloc : Bool) : Sys n :=
  if (s.cache.pages.lookup (job.page cfg)).isSome then ensureGet cfg s t job alloc
  else s.goto t (.room (.demand job))

/-! ### Read-ahead and set_streaming -/

def aheadGet (job : Job) (held : ObjId) (i : UInt32) (alloc : Bool) : Sys n :=
  match s.cache.getOrCreate (job.page cfg + i.toNat) alloc with
  | none => aheadStop s t job held
  | some (c, o) =>
    if (c.heap o).state = .nonResident then loadPage cfg (s.withCache c) t o (.ahead job held i)
    else (s.withCache c).goto t (.trim (.ahead job held i))

def aheadStep (job : Job) (held : ObjId) (i : UInt32) (alloc : Bool) : Sys n :=
  if i ≤ cfg.readAheadPages ∧ job.page cfg + i.toNat ≤ (cfg.capacityBytes.toNat - 1) / cfg.ps then
    if (s.cache.pages.lookup (job.page cfg + i.toNat)).isSome then aheadGet cfg s t job held i alloc
    else s.goto t (.room (.ahead job held i))
  else aheadStop s t job held

def streamGet (pageNo last : ℕ) (alloc : Bool) : Sys n :=
  match s.cache.getOrCreate pageNo alloc with
  | none => s.finish t (.other false)
  | some (c, o) =>
    ((s.withCache c).modify o fun p => { p with streaming := true, accessed := false }).goto t
      (.streamLoop (pageNo + 1) last)

def roomStep (r : Room) (alloc : Bool) : Sys n :=
  if s.cache.size ≥ cfg.cachePages ∧ s.cache.size ≠ 0 then callEvictOne cfg s t (.room r)
  else
    match r with
    | .demand job => ensureGet cfg s t job alloc
    | .ahead job held i => aheadGet cfg s t job held i alloc
    | .streaming p last => streamGet s t p last alloc

def trimStep (r : Trim) : Sys n :=
  if s.cache.size > cfg.cachePages then callEvictOne cfg s t (.trim r)
  else
    match r with
    | .demand job o => loadPage cfg s t o (.demand job)
    | .ahead job held i => s.goto t (.ahead job held (i + 1))

/-! ### The public calls -/

def chunk (pos left : ℕ) : ℕ := min left (cfg.ps - pos % cfg.ps)

def useLoaded (job : Job) : Sys n :=
  match job with
  | .prefetch p last => s.goto t (.loop (.prefetch (p + 1) last))
  | .pin p last =>
    match s.cache.pages.lookup p with
    | none => s.release t .threw
    | some o => (s.modify o fun q => { q with pinned := true }).goto t (.loop (.pin (p + 1) last))
  | .read addr size copied dst =>
    match s.cache.pages.lookup ((addr + copied) / cfg.ps) with
    | none => s.release t .threw
    | some o =>
      let len := chunk cfg (addr + copied) (size - copied)
      s.goto t (.loop (.read addr size (copied + len)
        (memcpy dst copied (s.cache.heap o).data ((addr + copied) % cfg.ps) len)))
  | .write addr size copied src =>
    match s.cache.pages.lookup ((addr + copied) / cfg.ps) with
    | none => s.release t .threw
    | some o =>
      let len := chunk cfg (addr + copied) (size - copied)
      let store (b : Buf) : Buf := memcpy b ((addr + copied) % cfg.ps) src copied len
      let s := s.modify o fun p =>
        { p with data := store p.data, dirty := true, state := .residentDirty, accessed := true }
      let page := (addr + copied) / cfg.ps
      (s.withCache { s.cache with mem := update s.cache.mem page (store (s.cache.mem page)) }).goto t
        (.loop (.write addr size (copied + len) src))

def Job.more : Job → Bool
  | .read _ size copied _ => copied < size
  | .write _ size copied _ => copied < size
  | .prefetch p last => p ≤ last
  | .pin p last => p ≤ last

def loopStep (job : Job) (alloc : Bool) : Sys n :=
  if job.more then ensure cfg s t job alloc else s.finish t (job.event true)

def evictLoopStep (pageNo last : ℕ) (ok : Bool) : Sys n :=
  if pageNo ≤ last then evictPage cfg s t pageNo (.after pageNo last ok) else s.finish t (.other ok)

def streamLoopStep (pageNo last : ℕ) (alloc : Bool) : Sys n :=
  if pageNo ≤ last then
    if (s.cache.pages.lookup pageNo).isSome then streamGet s t pageNo last alloc
    else s.goto t (.room (.streaming pageNo last))
  else s.finish t (.other true)

def unpinLoopStep (pageNo last : ℕ) : Sys n :=
  if pageNo ≤ last then
    match s.cache.pages.lookup pageNo with
    | none => s.goto t (.unpinLoop (pageNo + 1) last)
    | some o => (s.modify o fun p => { p with pinned := false }).goto t (.unpinLoop (pageNo + 1) last)
  else s.finish t (.other true)

def flushLoopStep (snapshot rest : List ObjId) (ok fsync : Bool) : Sys n :=
  match rest with
  | o :: rest => flushPage cfg s t o (.flush snapshot rest ok)
  | [] =>
    (s.withCache { s.cache with heap := fun o =>
      { s.cache.heap o with refcnt := (s.cache.heap o).refcnt - snapshot.count o } }).finish t (.other (ok && fsync))

def flushStart (order : List ℕ) : Sys n :=
  let snapshot := order.filterMap s.cache.pages.lookup
  (s.withCache { s.cache with heap := fun o =>
    { s.cache.heap o with refcnt := (s.cache.heap o).refcnt + snapshot.count o } }).goto t
    (.flushLoop snapshot snapshot true)

def firstPage (addr : UInt64) : ℕ := addr.toNat / cfg.ps
def lastPage (addr size : UInt64) : ℕ := (addr.toNat + size.toNat - 1) / cfg.ps

/-- a new call, the success of an I/O, allocation or fsync, or the order in which `flush` finds the pages -/
inductive Choice where
  | call (c : Call)
  | run (ok : Bool)
  | snapshot (order : List ℕ)

def Call.refused : Call → Option Event
  | .read addr size => if rangeValid cfg addr size then none else some (.read addr.toNat size.toNat none)
  | .write addr size src => if rangeValid cfg addr size then none else some (.write addr.toNat size.toNat src false)
  | .flush => none
  | .prefetch addr size => if rangeValid cfg addr size then none else some (.other false)
  | .evictAfter addr size => if rangeValid cfg addr size then none else some (.other false)
  | .pin addr size => if rangeValid cfg addr size then none else some (.other false)
  | .unpin addr size => if rangeValid cfg addr size then none else some (.other false)
  | .setStreaming addr size => if rangeValid cfg addr size then none else some (.other false)

def Call.start : Call → Pc
  | .read addr size => .loop (.read addr.toNat size.toNat 0 fun _ => 0)
  | .write addr size src => .loop (.write addr.toNat size.toNat 0 src)
  | .flush => .flushLoop [] [] true
  | .prefetch addr size => .loop (.prefetch (firstPage cfg addr) (lastPage cfg addr size))
  | .evictAfter addr size => .evictLoop (firstPage cfg addr) (lastPage cfg addr size) true
  | .pin addr size => .loop (.pin (firstPage cfg addr) (lastPage cfg addr size))
  | .unpin addr size => .unpinLoop (firstPage cfg addr) (lastPage cfg addr size)
  | .setStreaming addr size => .streamLoop (firstPage cfg addr) (lastPage cfg addr size)

def enter (call : Call) (ch : Choice) : Sys n :=
  match call, ch with
  | .flush, .snapshot order =>
    if order.Nodup ∧ order.toFinset = s.cache.pages.keys then flushStart { s with lock := some t } t order else s
  | .flush, _ => s
  | call, _ => { s with lock := some t }.goto t (call.start cfg)

def stepOk (ok : Bool) : Sys n :=
  match s.pc t with
  | .loop job => loopStep cfg s t job ok
  | .room r => roomStep cfg s t r ok
  | .evictOne k ret => evictOne cfg s t k ret
  | .trim r => trimStep cfg s t r
  | .ahead job held i => aheadStep cfg s t job held i ok
  | .loaded job => useLoaded cfg s t job
  | .loadRead o ret => readPage s t o ret ok
  | .flushWrite o ret => writePage s t o ret ok
  | .evictLoop p last acc => evictLoopStep cfg s t p last acc
  | .streamLoop p last => streamLoopStep s t p last ok
  | .unpinLoop p last => unpinLoopStep s t p last
  | .flushLoop snapshot rest acc => flushLoopStep cfg s t snapshot rest acc ok
  | _ => s

def stepWake : Sys n :=
  match s.pc t with
  | .loadDone o ok ret => loadFinish s t o ok ret
  | .flushDone o ok ret => flushFinish cfg s t o ok ret
  | .ensureWait job o => ensureChecked s t job o
  | .evictWait pageNo o ret => evictChecked cfg s t pageNo o ret
  | .flushWait o ret => flushPage cfg s t o ret
  | _ => s

def sleeping : Bool :=
  match s.pc t with
  | .ensureWait _ o => s.cache.busy o
  | .evictWait _ o _ => s.cache.busy o
  | .flushWait o _ => s.cache.busy o
  | _ => false

def Pc.wakes : Pc → Bool
  | .loadDone _ _ _ => true
  | .flushDone _ _ _ => true
  | .ensureWait _ _ => true
  | .evictWait _ _ _ => true
  | .flushWait _ _ => true
  | _ => false

def step (l : Fin n × Choice) : Sys n :=
  let t := l.1
  match s.pc t, l.2 with
  | .idle, .call c =>
    match c.refused cfg with
    | some e => { s with log := s.log ++ [e] }
    | none => s.goto t (.entry c)
  | .idle, _ => s
  | .entry c, ch => if s.lock = none then enter cfg s t c ch else s
  | p, .run ok =>
    if p.wakes then
      if s.lock = none ∧ ¬ sleeping s t then stepWake cfg { s with lock := some t } t else s
    else stepOk cfg s t ok
  | _, _ => s

end Steps

def start (n : ℕ) (content : ℕ → Buf) : Sys n :=
  ⟨⟨∅, fun _ => newPage 0, 0, [], content, content⟩, none, fun _ => .idle, []⟩

def tinyConfig : SsdStreamingConfig := ⟨1024, 512, 1, 0, ⟨9, rfl⟩, by decide, le_rfl⟩

end CxlMemSim.Ssd
