/-
The memory expander (`CXLMemExpander`), in two parts that never read each other:
- `Placement`: the entries, the set of addresses in which `insert` looks a repeat up, the merged ranges that
  `is_address_local` searches, and ONE flag, `cache_valid`, for both caches;
- `Pipeline`: the queue of requests, those in flight and the credits of each kind.

Times are naturals, doubles rationals; nothing is assumed about `Config.addTime`, the machine's sum of a time and a
latency.
-/
import CxlMemSim.Core.Run

namespace CxlMemSim.Expander

/-! ## Requests and the pipeline -/

def maxQueueSize : ℕ := 64
def flitSize : ℕ := 66
def dataFlit : ℕ := 65
def initialCredits : ℕ := 2

structure CXLRequest where
  timestamp : ℕ
  address : UInt64
  tid : UInt64
  isRead : Bool
  isWrite : Bool
  issueTime : ℕ
  completeTime : ℕ
deriving DecidableEq, Repr

structure Config where
  id : ℤ
  latencyRead : ℚ
  latencyWrite : ℚ
  frontendLatency : ℚ := 10
  forwardLatency : ℚ := 15
  responseLatency : ℚ := 20
  addTime : ℕ → ℚ → ℕ

def exactConfig : Config where
  id := 0
  latencyRead := 100
  latencyWrite := 150
  addTime now latency := now + latency.floor.toNat

structure Pipeline where
  requestQueue : List CXLRequest
  inFlightRequests : List (UInt64 × CXLRequest)
  readCredits : ℕ
  writeCredits : ℕ
deriving DecidableEq, Repr

namespace Pipeline

variable (p : Pipeline) (isRead : Bool)

def canAcceptRequest : Bool := p.requestQueue.length < maxQueueSize

def credits : ℕ := if isRead then p.readCredits else p.writeCredits

def setCredits (n : ℕ) : Pipeline := if isRead then { p with readCredits := n } else { p with writeCredits := n }

def hasCredits : Bool := 0 < p.credits isRead

def consumeCredit : Pipeline := p.setCredits isRead (p.credits isRead - 1)

def releaseCredit : Pipeline :=
  if p.credits isRead < initialCredits then p.setCredits isRead (p.credits isRead + 1) else p

def calculateCongestionDelay : ℚ :=
  let queueUtilization : ℚ := (p.requestQueue.length : ℚ) / maxQueueSize
  if queueUtilization < 1 / 2 then 0
  else if queueUtilization < 4 / 5 then (queueUtilization - 1 / 2) * 20
  else 6 + (queueUtilization - 4 / 5) * 100

def calculateProtocolOverhead (dataSize : ℕ) : ℚ := (((dataSize + flitSize - 1) / flitSize * dataFlit : ℕ) : ℚ) / 10

def calculatePipelineLatency (cfg : Config) (p : Pipeline) (req : CXLRequest) : ℚ :=
  cfg.frontendLatency + cfg.forwardLatency + (if req.isRead then cfg.latencyRead else cfg.latencyWrite)
    + cfg.responseLatency + calculateProtocolOverhead 64 + p.calculateCongestionDelay

def setInFlight (m : List (UInt64 × CXLRequest)) (address : UInt64) (req : CXLRequest) : List (UInt64 × CXLRequest) :=
  (address, req) :: m.filter fun e => e.1 ≠ address

/-- the first loop of `process_queued_requests`: requests past their completion give their credits back -/
def completeRequests (now : ℕ) (p : Pipeline) : Pipeline :=
  let done := p.inFlightRequests.filter fun e => e.2.completeTime ≤ now
  { done.foldl (fun q e => q.releaseCredit e.2.isRead) p with
    inFlightRequests := p.inFlightRequests.filter fun e => now < e.2.completeTime }

def issueFront (cfg : Config) (now : ℕ) (p : Pipeline) (req : CXLRequest) (rest : List CXLRequest) : Pipeline :=
  let q := p.consumeCredit req.isRead
  let issued := { req with issueTime := now, completeTime := cfg.addTime now (calculatePipelineLatency cfg q req) }
  { q with inFlightRequests := setInFlight q.inFlightRequests req.address issued, requestQueue := rest }

def issueRequests (cfg : Config) (now : ℕ) : List CXLRequest → Pipeline → Pipeline
  | [], p => p
  | req :: rest, p =>
    if p.inFlightRequests.length < maxQueueSize / 2 then
      -- without a credit the loop stops: the requests behind this one wait with it
      if p.hasCredits req.isRead then issueRequests cfg now rest (issueFront cfg now p req rest) else p
    else p

def processQueuedRequests (cfg : Config) (now : ℕ) (p : Pipeline) : Pipeline :=
  let q := p.completeRequests now
  issueRequests cfg now q.requestQueue q

def push (req : CXLRequest) : Pipeline := { p with requestQueue := p.requestQueue ++ [req] }

def start : Pipeline := ⟨[], [], initialCredits, initialCredits⟩

end Pipeline

/-! ## Placement -/

structure OccupationInfo where
  timestamp : ℕ
  address : UInt64
  accessCount : ℕ
deriving DecidableEq, Repr

structure AddressRange where
  start : UInt64
  stop : UInt64
deriving DecidableEq, Repr

structure Placement where
  occupation : List OccupationInfo
  addressCache : Finset UInt64
  cacheValid : Bool
  addressRanges : List AddressRange
deriving DecidableEq

namespace Placement

variable (p : Placement)

def Placed (addr : UInt64) : Prop := ∃ o ∈ p.occupation, o.address = addr

instance (addr : UInt64) : Decidable (p.Placed addr) :=
  inferInstanceAs (Decidable (∃ o ∈ p.occupation, o.address = addr))

def updateAddressCache : Placement :=
  if p.cacheValid then p
  else { p with addressCache := (p.occupation.map (·.address)).toFinset, cacheValid := true }

def invalidateCache : Placement := { p with cacheValid := false }

def mergeRanges (current : AddressRange) : List UInt64 → List AddressRange
  | [] => [current]
  | a :: rest =>
    if a = current.stop + 1 then mergeRanges { current with stop := a } rest
    else current :: mergeRanges ⟨a, a⟩ rest

def rangesOf : List UInt64 → List AddressRange
  | [] => []
  | a :: rest => mergeRanges ⟨a, a⟩ rest

def updateRangeCache : Placement :=
  if p.cacheValid then p
  else
    -- the sort is done in place: the entries stay in the order of their addresses
    let sorted := p.occupation.insertionSort fun a b => a.address ≤ b.address
    { p with occupation := sorted, addressRanges := rangesOf (sorted.map (·.address)), cacheValid := true }

def inRanges (ranges : List AddressRange) (addr : UInt64) : Bool :=
  match ranges.find? fun r => ¬ r.stop < addr with
  | some r => r.start ≤ addr ∧ addr ≤ r.stop
  | none => false

def isAddressLocal (addr : UInt64) : Placement × Bool :=
  (p.updateRangeCache, inRanges p.updateRangeCache.addressRanges addr)

def countLocal (p : Placement) : List (ℕ × UInt64) → Placement × ℕ
  | [] => (p, 0)
  | e :: elem =>
    let rest := countLocal (p.isAddressLocal e.2).1 elem
    (rest.1, if (p.isAddressLocal e.2).2 then rest.2 + 1 else rest.2)

def replaceEntry (info : OccupationInfo) : Placement :=
  { p with occupation := p.occupation.eraseP (·.address = info.address) ++ [info] }

def insertEntry (info : OccupationInfo) : Placement × Bool :=
  if info.address ∈ p.addressCache ∧ p.Placed info.address then (p.replaceEntry info, true)
  else ({ p with occupation := p.occupation ++ [info], addressCache := insert info.address p.addressCache }, false)

def recordEntry (info : OccupationInfo) : Placement :=
  invalidateCache { p.replaceEntry info with addressCache := insert info.address p.addressCache }

def invalidateInExpanders (addr : UInt64) : Placement :=
  { p with occupation := p.occupation.filter (·.address ≠ addr) }

def migrateIn (info : OccupationInfo) : Placement := { p with occupation := p.occupation ++ [info] }

def migrateOut (addr : UInt64) : Placement :=
  { p with occupation := p.occupation.eraseP (·.address = addr) }

/-- the entries left by `free_stats`; each entry's coin is random (`true`: erased) -/
def survivors : List Bool → List OccupationInfo → List OccupationInfo
  | true :: coins, _ :: occ => survivors coins occ
  | false :: coins, o :: occ => o :: survivors coins occ
  | _, occ => occ

def freeStats (coins : List Bool) : Placement :=
  let left := survivors coins p.occupation
  let q := { p with occupation := left }
  if left.length < p.occupation.length then q.invalidateCache else q

def touched (addr length : UInt64) (o : OccupationInfo) : Bool :=
  o.address = addr ∨ (addr ≤ o.address ∧ o.address ≤ addr + length)

def deleteEntry (lastTimestamp : ℕ) (addr length : UInt64) : Placement :=
  let mark (o : OccupationInfo) : OccupationInfo :=
    if touched addr length o then { o with accessCount := o.accessCount + 1, timestamp := lastTimestamp } else o
  let q := { p with occupation := p.occupation.map mark }
  if p.occupation.any (touched addr length) then q.invalidateCache else q

def start : Placement := ⟨[], ∅, false, []⟩

end Placement

/-! ## The expander -/

structure Counter where
  load : ℕ := 0
  store : ℕ := 0
  hitOld : ℕ := 0
  migrateIn : ℕ := 0
  migrateOut : ℕ := 0
deriving DecidableEq, Repr

structure CXLMemExpander where
  placement : Placement
  pipeline : Pipeline
  counter : Counter
  lastTimestamp : ℕ
deriving DecidableEq

def CXLMemExpander.start : CXLMemExpander := ⟨.start, .start, {}, 0⟩

def incLoad (c : Counter) : Counter := { c with load := c.load + 1 }
def incStore (c : Counter) : Counter := { c with store := c.store + 1 }
def incHitOld (c : Counter) : Counter := { c with hitOld := c.hitOld + 1 }

variable (cfg : Config) (s : CXLMemExpander)

def arrive (timestamp : ℕ) : CXLMemExpander :=
  { s with lastTimestamp := max s.lastTimestamp timestamp,
           pipeline := s.pipeline.processQueuedRequests cfg timestamp }

@[simp] lemma arrive_placement (timestamp : ℕ) : (arrive cfg s timestamp).placement = s.placement := rfl

@[simp] lemma arrive_counter (timestamp : ℕ) : (arrive cfg s timestamp).counter = s.counter := rfl

def insert (timestamp : ℕ) (tid physAddr : UInt64) (index : ℤ) : CXLMemExpander × ℕ :=
  if index = cfg.id then
    let s := arrive cfg s timestamp
    if physAddr ≠ 0 then
      if ¬ s.pipeline.canAcceptRequest then ({ s with counter := incHitOld s.counter }, 0)
      else
        let placed := s.placement.insertEntry ⟨timestamp, physAddr, 0⟩
        -- the request is queued as a write and turned into a read if the address is found;
        -- its issue and completion times are not set before it is issued
        let s := { s with placement := placed.1,
                          pipeline := s.pipeline.push ⟨timestamp, physAddr, tid, placed.2, !placed.2, 0, 0⟩ }
        if placed.2 then ({ s with counter := incLoad s.counter }, 2)
        else ({ s with counter := incStore s.counter }, 1)
    else ({ s with counter := incStore s.counter }, 1)
  else (s, 0)

def recordAccess (timestamp : ℕ) (tid physAddr : UInt64) (index : ℤ) (isWrite : Bool) : CXLMemExpander × ℕ :=
  if index ≠ cfg.id then (s, 0)
  else
    let s := arrive cfg s timestamp
    if ¬ s.pipeline.canAcceptRequest then ({ s with counter := incHitOld s.counter }, 0)
    else
      let s := { s with
        pipeline := s.pipeline.push ⟨timestamp, physAddr, tid, !isWrite, isWrite, timestamp, timestamp⟩,
        placement := s.placement.recordEntry ⟨timestamp, physAddr, if isWrite then 0 else 1⟩ }
      if isWrite then ({ s with counter := incStore s.counter }, 1)
      else ({ s with counter := incLoad s.counter }, 2)

def calculateLatency (elem : List (ℕ × UInt64)) : CXLMemExpander × ℕ :=
  match elem.getLast? with
  | none => (s, 0)
  | some e =>
    let counted := s.placement.updateAddressCache.countLocal elem
    ({ s with pipeline := s.pipeline.processQueuedRequests cfg e.1, placement := counted.1 }, counted.2)

def calculateBandwidth (elem : List (ℕ × UInt64)) : CXLMemExpander × ℕ :=
  let counted := s.placement.countLocal elem
  ({ s with placement := counted.1 }, counted.2)

def migrateIn (s : CXLMemExpander) (info : OccupationInfo) : CXLMemExpander :=
  { s with placement := s.placement.migrateIn info,
           counter := { s.counter with migrateIn := s.counter.migrateIn + 1 } }

def migrateOut (s : CXLMemExpander) (addr : UInt64) : CXLMemExpander :=
  if s.placement.Placed addr then
    { s with placement := s.placement.migrateOut addr,
             counter := { s.counter with migrateOut := s.counter.migrateOut + 1 } }
  else s

def deleteEntry (addr length : UInt64) : CXLMemExpander :=
  { s with placement := s.placement.deleteEntry s.lastTimestamp addr length, counter := incLoad s.counter }

inductive Op where
  | insert (timestamp : ℕ) (tid physAddr : UInt64) (index : ℤ)
  | recordAccess (timestamp : ℕ) (tid physAddr : UInt64) (index : ℤ) (isWrite : Bool)
  | processQueuedRequests (now : ℕ)
  | updateAddressCache
  | isAddressLocal (addr : UInt64)
  | calculateLatency (elem : List (ℕ × UInt64))
  | calculateBandwidth (elem : List (ℕ × UInt64))
  | invalidateInExpanders (addr : UInt64)
  | migrateIn (info : OccupationInfo)
  | migrateOut (addr : UInt64)
  | freeStats (coins : List Bool)
  | deleteEntry (addr length : UInt64)
deriving DecidableEq, Repr

def step : Op → CXLMemExpander
  | .insert timestamp tid physAddr index => (insert cfg s timestamp tid physAddr index).1
  | .recordAccess timestamp tid physAddr index isWrite => (recordAccess cfg s timestamp tid physAddr index isWrite).1
  | .processQueuedRequests now => { s with pipeline := s.pipeline.processQueuedRequests cfg now }
  | .updateAddressCache => { s with placement := s.placement.updateAddressCache }
  | .isAddressLocal addr => { s with placement := (s.placement.isAddressLocal addr).1 }
  | .calculateLatency elem => (calculateLatency cfg s elem).1
  | .calculateBandwidth elem => (calculateBandwidth s elem).1
  | .invalidateInExpanders addr => { s with placement := s.placement.invalidateInExpanders addr }
  | .migrateIn info => migrateIn s info
  | .migrateOut addr => migrateOut s addr
  | .freeStats coins => { s with placement := s.placement.freeStats coins }
  | .deleteEntry addr length => deleteEntry s addr length

/-! ## What a step can do to each part -/

namespace Placement

@[simp] lemma updateRangeCache_valid (p : Placement) : p.updateRangeCache.cacheValid = true := by
  unfold updateRangeCache
  split_ifs with h
  · exact h
  · rfl

lemma updateRangeCache_of_valid {p : Placement} (h : p.cacheValid = true) : p.updateRangeCache = p := by
  rw [updateRangeCache, if_pos h]

@[simp] lemma updateAddressCache_valid (p : Placement) : p.updateAddressCache.cacheValid = true := by
  unfold updateAddressCache
  split_ifs with h
  · exact h
  · rfl

lemma countLocal_fst (p : Placement) (elem : List (ℕ × UInt64)) :
    (p.countLocal elem).1 = if elem = [] then p else p.updateRangeCache := by
  induction elem generalizing p with
  | nil => rfl
  | cons e elem ih =>
    simp only [countLocal, isAddressLocal, ih, reduceCtorEq, if_false]
    split_ifs
    · rfl
    · exact updateRangeCache_of_valid (updateRangeCache_valid p)

inductive Change (cfg : Config) (p : Placement) : Op → Placement → Prop
  | same (o : Op) : Change cfg p o p
  | insert {timestamp : ℕ} {tid physAddr : UInt64} {index : ℤ} : index = cfg.id → physAddr ≠ 0 →
      Change cfg p (.insert timestamp tid physAddr index) (p.insertEntry ⟨timestamp, physAddr, 0⟩).1
  | record (o : Op) (info : OccupationInfo) : Change cfg p o (p.recordEntry info)
  | addressCache : Change cfg p .updateAddressCache p.updateAddressCache
  | latency {elem : List (ℕ × UInt64)} : elem ≠ [] → Change cfg p (.calculateLatency elem) p.updateAddressCache
  | rangeCache (o : Op) : Change cfg p o p.updateRangeCache
  | invalidate (addr : UInt64) : Change cfg p (.invalidateInExpanders addr) (p.invalidateInExpanders addr)
  | migrateIn (info : OccupationInfo) : Change cfg p (.migrateIn info) (p.migrateIn info)
  | migrateOut (addr : UInt64) : Change cfg p (.migrateOut addr) (p.migrateOut addr)
  | freeStats (o : Op) (coins : List Bool) : Change cfg p o (p.freeStats coins)
  | deleteEntry (o : Op) (time : ℕ) (addr length : UInt64) : Change cfg p o (p.deleteEntry time addr length)

end Placement

section

variable (timestamp : ℕ) (tid physAddr : UInt64) (index : ℤ)

/-- an `insert` for this expander processes the queue, and may place its entry and queue a request -/
lemma insert_cases (hid : index = cfg.id) : ∃ c : Counter,
      (insert cfg s timestamp tid physAddr index).1 = { arrive cfg s timestamp with counter := c } ∨
      physAddr ≠ 0 ∧ ∃ req, (insert cfg s timestamp tid physAddr index).1 = { arrive cfg s timestamp with
          placement := (s.placement.insertEntry ⟨timestamp, physAddr, 0⟩).1,
          pipeline := (arrive cfg s timestamp).pipeline.push req,
          counter := c } := by
  by_cases haddr : physAddr = 0
  · exact ⟨incStore s.counter, .inl (by simp [insert, hid, haddr])⟩
  cases hroom : (arrive cfg s timestamp).pipeline.canAcceptRequest with
  | false => exact ⟨incHitOld s.counter, .inl (by simp [insert, hid, haddr, hroom])⟩
  | true =>
    cases hfound : (s.placement.insertEntry ⟨timestamp, physAddr, 0⟩).2 with
    | false =>
      refine ⟨incStore s.counter, .inr ⟨haddr, ⟨timestamp, physAddr, tid, false, true, 0, 0⟩, ?_⟩⟩
      simp [insert, hid, haddr, hroom, hfound]
    | true =>
      refine ⟨incLoad s.counter, .inr ⟨haddr, ⟨timestamp, physAddr, tid, true, false, 0, 0⟩, ?_⟩⟩
      simp [insert, hid, haddr, hroom, hfound]

/-- a `record_access` for this expander processes the queue, and may place its entry and queue a request -/
lemma recordAccess_cases
    (isWrite : Bool) (hid : index = cfg.id) : ∃ c : Counter,
      (recordAccess cfg s timestamp tid physAddr index isWrite).1 = { arrive cfg s timestamp with counter := c } ∨
      ∃ info req, (recordAccess cfg s timestamp tid physAddr index isWrite).1 = { arrive cfg s timestamp with
          placement := s.placement.recordEntry info,
          pipeline := (arrive cfg s timestamp).pipeline.push req,
          counter := c } := by
  cases hroom : (arrive cfg s timestamp).pipeline.canAcceptRequest with
  | false => exact ⟨incHitOld s.counter, .inl (by simp [recordAccess, hid, hroom])⟩
  | true =>
    cases isWrite with
    | false =>
      refine ⟨incLoad s.counter, .inr ⟨⟨timestamp, physAddr, 1⟩,
        ⟨timestamp, physAddr, tid, true, false, timestamp, timestamp⟩, ?_⟩⟩
      simp [recordAccess, hid, hroom]
    | true =>
      refine ⟨incStore s.counter, .inr ⟨⟨timestamp, physAddr, 0⟩,
        ⟨timestamp, physAddr, tid, false, true, timestamp, timestamp⟩, ?_⟩⟩
      simp [recordAccess, hid, hroom]

end

lemma countLocal_change (p : Placement) (o : Op) (elem : List (ℕ × UInt64)) : p.Change cfg o (p.countLocal elem).1 := by
  rw [Placement.countLocal_fst]
  split_ifs
  · exact .same o
  · exact .rangeCache o

/-- What a step does to the placement. -/
lemma step_change (o : Op) : s.placement.Change cfg o (step cfg s o).placement := by
  cases o with
  | insert timestamp tid physAddr index =>
    by_cases hid : index = cfg.id
    · obtain ⟨c, h | ⟨haddr, req, h⟩⟩ := insert_cases cfg s timestamp tid physAddr index hid
      · simp only [step, h]
        exact .same _
      · simp only [step, h]
        exact .insert hid haddr
    · simp only [step, insert, if_neg hid]
      exact .same _
  | recordAccess timestamp tid physAddr index isWrite =>
    by_cases hid : index = cfg.id
    · obtain ⟨c, h | ⟨info, req, h⟩⟩ := recordAccess_cases cfg s timestamp tid physAddr index isWrite hid
      · simp only [step, h]
        exact .same _
      · simp only [step, h]
        exact .record _ info
    · simp only [step, recordAccess, ne_eq, hid, not_false_eq_true, if_true]
      exact .same _
  | processQueuedRequests now => exact .same _
  | updateAddressCache => exact .addressCache
  | isAddressLocal addr => exact .rangeCache _
  | calculateLatency elem =>
    simp only [step, calculateLatency]
    cases hlast : elem.getLast? with
    | none => exact .same _
    | some e =>
      have hne : elem ≠ [] := by rintro rfl; cases hlast
      -- `update_address_cache` has just set the flag, so the ranges are not built again
      have hkept := Placement.updateRangeCache_of_valid s.placement.updateAddressCache_valid
      simp only [Placement.countLocal_fst, if_neg hne, hkept]
      exact .latency hne
  | calculateBandwidth elem => exact countLocal_change cfg _ _ elem
  | invalidateInExpanders addr => exact .invalidate addr
  | migrateIn info => exact .migrateIn info
  | migrateOut addr =>
    simp only [step, migrateOut]
    split_ifs
    · exact .migrateOut addr
    · exact .same _
  | freeStats coins => exact .freeStats _ coins
  | deleteEntry addr length => exact .deleteEntry _ _ addr length

def Op.processesAt (cfg : Config) : Op → Option ℕ
  | .insert timestamp _ _ index => if index = cfg.id then some timestamp else none
  | .recordAccess timestamp _ _ index _ => if index = cfg.id then some timestamp else none
  | .processQueuedRequests now => some now
  | .calculateLatency elem => elem.getLast?.map Prod.fst
  | _ => none

/-- What a step does to the pipeline: it processes the queue or not, then queues at most one request. -/
lemma step_pipeline (o : Op) : (step cfg s o).pipeline = s.pipeline ∨
    ∃ now, o.processesAt cfg = some now ∧ ((step cfg s o).pipeline = s.pipeline.processQueuedRequests cfg now ∨
        ∃ req, (step cfg s o).pipeline = (s.pipeline.processQueuedRequests cfg now).push req) := by
  cases o with
  | insert timestamp tid physAddr index =>
    by_cases hid : index = cfg.id
    · refine .inr ⟨timestamp, by rw [Op.processesAt, if_pos hid], ?_⟩
      obtain ⟨c, h | ⟨haddr, req, h⟩⟩ := insert_cases cfg s timestamp tid physAddr index hid
      · exact .inl (by rw [step, h]; rfl)
      · exact .inr ⟨req, by rw [step, h]; rfl⟩
    · exact .inl (by simp only [step, insert, if_neg hid])
  | recordAccess timestamp tid physAddr index isWrite =>
    by_cases hid : index = cfg.id
    · refine .inr ⟨timestamp, by rw [Op.processesAt, if_pos hid], ?_⟩
      obtain ⟨c, h | ⟨info, req, h⟩⟩ := recordAccess_cases cfg s timestamp tid physAddr index isWrite hid
      · exact .inl (by rw [step, h]; rfl)
      · exact .inr ⟨req, by rw [step, h]; rfl⟩
    · exact .inl (by simp only [step, recordAccess, ne_eq, hid, not_false_eq_true, if_true])
  | processQueuedRequests now => exact .inr ⟨now, rfl, .inl rfl⟩
  | calculateLatency elem =>
    cases hlast : elem.getLast? with
    | none => exact .inl (by simp only [step, calculateLatency, hlast])
    | some e =>
      exact .inr ⟨e.1, by rw [Op.processesAt, hlast]; rfl, .inl (by simp only [step, calculateLatency, hlast])⟩
  | migrateOut addr =>
    simp only [step, migrateOut]
    split_ifs <;> exact .inl rfl
  | _ => exact .inl rfl

end CxlMemSim.Expander
