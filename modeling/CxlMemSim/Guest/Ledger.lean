/-
The observation ledger of the guest CUDA library: spans of nine categories inside a decode epoch, and the time accounts
kept from their begins and ends. The clock is read once per step (0 is a failed read). A failure raises the sticky flag
(`Core.Flagged`) and goes on.
-/
import CxlMemSim.Core.Flagged
import CxlMemSim.Core.Run

namespace CxlMemSim.Guest.Observation

open Function
open CxlMemSim.Core

/-! ## Constants -/

def categoryCount : UInt32 := 9

def publicCall : UInt32 := 0

def gapBoundary : UInt32 := 9

def openTokenCount : ℕ := 4096

def operationGapCapacity : ℕ := 1024

def categoryIntervalCapacity : ℕ := 131072

def categoryIndices : List UInt32 := [0, 1, 2, 3, 4, 5, 6, 7, 8]

def identityIndices : List UInt32 := [0, 1, 2, 3, 4, 5, 6, 7, 8, 9]

def commandIndices : List UInt32 := (List.range 256).map UInt32.ofNat

def uint64Max : UInt64 := 18446744073709551615

inductive LedgerError where
  | durationOverflow | pairClockReversal | gapCategoryOutOfRange | operationGapCountOverflow | operationGapCapacity
  | gapCountOverflow | gapBoundary | activeDepthOverflow | activeDepthUnderflow | intervalClockReversal
  | unionClockReversal | unknownCategory | clockRead | clockReversal | tokenOverflow | openTokenCapacity
  | sequenceOverflow | spanEndWithoutDecode | spanPairing | openSpanAtTerminal | terminalBoundary | unionOutsideSpan
  | overlapUnderflow | gapTotalMismatch | operationGapTotalMismatch | gapTerminalBoundary | commandTotalMismatch
  | pairActiveAtTerminal | pairUnionExceedsCategory | pairCountMismatch | categoryIntervalInvalid
  | categoryIntervalUnionMismatch | decodeBeginWhileActive | nullTokenOutput | decodeEpochMismatch
  | decodeTerminalMissing
deriving DecidableEq, Repr

abbrev Flagged := CxlMemSim.Core.Flagged LedgerError

def addLocked (value increment : UInt64) : Flagged (Bool × UInt64) := addOr .durationOverflow value increment

def add (value increment : UInt64) : Flagged UInt64 := addTo .durationOverflow value increment

def addAll (value : UInt64) (increments : List UInt64) : Flagged UInt64 := sumOr .durationOverflow value increments

/-! ## The ledger -/

structure Identity where
  valid : Bool := false
  sequence : UInt64 := 0
  owner : String := ""
  operation : List UInt8 := []
  categoryIndex : UInt32 := 0
  command : UInt32 := 0
deriving DecidableEq, Repr

structure GapAggregate where
  count : UInt64 := 0
  totalDuration : UInt64 := 0
  maxDuration : UInt64 := 0
deriving DecidableEq, Repr

structure OperationGapAggregate where
  occupied : Bool := false
  previous : Identity := {}
  next : Identity := {}
  gap : GapAggregate := {}
deriving DecidableEq, Repr

structure Aggregate where
  intervalCount : UInt64 := 0
  totalDuration : UInt64 := 0
  unionDuration : UInt64 := 0
  activeBegin : UInt64 := 0
  lastUnionEnd : UInt64 := 0
  activeDepth : UInt32 := 0
  haveLastUnionEnd : Bool := false
  largestGapBegin : UInt64 := 0
  largestGapEnd : UInt64 := 0
  haveLargestGap : Bool := false
  lastEnd : Identity := {}
  largestGapPrevious : Identity := {}
  largestGapNext : Identity := {}
deriving DecidableEq, Repr

structure PairAggregate where
  unionDuration : UInt64 := 0
  activeBegin : UInt64 := 0
  active : Bool := false
deriving DecidableEq, Repr

structure CategoryInterval where
  beginNs : UInt64
  endNs : UInt64
  category : UInt32
deriving DecidableEq, Repr

structure OpenToken where
  token : UInt64 := 0
  beginNs : UInt64 := 0
  graphOrdinal : UInt64 := 0
  operationSequence : UInt64 := 0
  category : UInt32 := 0
  command : UInt32 := 0
  identity : Identity := {}
deriving DecidableEq, Repr

inductive BurstBucket where
  | burst1 | burst2 | burst3To4 | burst5To8 | burst9To16 | burstOver16
deriving DecidableEq, Repr

inductive Barrier where
  | ctxSync | graphLaunch | kernelLaunch | streamSync
deriving DecidableEq, Repr

structure CommandBarrierBursts where
  currentFusedCalls : UInt64 := 0
  fusedCalls : UInt64 := 0
  terminatedBursts : UInt64 := 0
  terminatedFusedCalls : UInt64 := 0
  maxBurst : UInt64 := 0
  histogram : BurstBucket → UInt64 := fun _ => 0
  barriers : Barrier → UInt64 := fun _ => 0

structure Gaps where
  allKnown : UInt32 → UInt32 → GapAggregate := fun _ _ => {}
  operations : ℕ → OperationGapAggregate := fun _ => {}

structure Ledger where
  active : Bool := false
  flags : Flags LedgerError := {}
  caseEpoch : UInt64 := 0
  spanBegin : UInt64 := 0
  lastClock : UInt64 := 0
  nextToken : UInt64 := 0
  nextSequence : UInt64 := 0
  openCount : UInt32 := 0
  categories : UInt32 → Aggregate := fun _ => {}
  categoryPairs : UInt32 → UInt32 → PairAggregate := fun _ _ => {}
  allKnown : Aggregate := {}
  commandCalls : UInt32 → UInt64 := fun _ => 0
  commandTotalDuration : UInt32 → UInt64 := fun _ => 0
  commandStatusPollCount : UInt32 → UInt64 := fun _ => 0
  commandBarrierBursts : CommandBarrierBursts := {}
  gaps : Gaps := {}
  categoryIntervalCount : UInt64 := 0
  categoryIntervalsOverflow : Bool := false
  categoryIntervals : List CategoryInterval := []
  openTokens : ℕ → OpenToken := fun _ => {}

variable (l : Ledger)

def Ledger.fail (e : LedgerError) : Ledger := { l with flags := l.flags.raise [e] }

def barrierIndex (command : UInt32) : Option Barrier :=
  if command = 0x12 then some .ctxSync
  else if command = 0x3C then some .graphLaunch
  else if command = 0x40 then some .kernelLaunch
  else if command = 0x52 then some .streamSync
  else none

def burstBucket (calls : UInt64) : BurstBucket :=
  if calls = 1 then .burst1
  else if calls = 2 then .burst2
  else if calls ≤ 4 then .burst3To4
  else if calls ≤ 8 then .burst5To8
  else if calls ≤ 16 then .burst9To16
  else .burstOver16

def endBurst (bursts : CommandBarrierBursts) (barrier : Barrier) (calls : UInt64) : Flagged CommandBarrierBursts := do
  let terminatedBursts ← add bursts.terminatedBursts 1
  let terminatedFusedCalls ← add bursts.terminatedFusedCalls calls
  let inBucket ← add (bursts.histogram (burstBucket calls)) 1
  let atBarrier ← add (bursts.barriers barrier) 1
  return { bursts with
    terminatedBursts
    terminatedFusedCalls
    histogram := update bursts.histogram (burstBucket calls) inBucket
    barriers := update bursts.barriers barrier atBarrier
    maxBurst := if bursts.maxBurst < calls then calls else bursts.maxBurst
    currentFusedCalls := 0 }

def commandBarrierRecord (bursts : CommandBarrierBursts) (command : UInt32) : Flagged CommandBarrierBursts :=
  if command = 0x35 then do
    let currentFusedCalls ← add bursts.currentFusedCalls 1
    let fusedCalls ← add bursts.fusedCalls 1
    return { bursts with currentFusedCalls, fusedCalls }
  else
    match barrierIndex command with
    | none => return bursts
    | some barrier =>
      if bursts.currentFusedCalls = 0 then return bursts else endBurst bursts barrier bursts.currentFusedCalls

/-! ## Gaps -/

def gapIdentityIndex (identity : Identity) : Flagged UInt32 :=
  if identity.valid = false then return gapBoundary
  else if categoryCount ≤ identity.categoryIndex then do
    failWith .gapCategoryOutOfRange
    return gapBoundary
  else return identity.categoryIndex

def hashWord (hash word : UInt64) : UInt64 := (hash ^^^ word) * 1099511628211

def gapIdentityHash (identity : Identity) : UInt64 :=
  let hash := hashWord 1469598103934665603 (if identity.valid then 1 else 0)
  if identity.valid = false then hash
  else
    let hash := hashWord hash identity.categoryIndex.toUInt64
    let hash := hashWord hash identity.command.toUInt64
    identity.operation.foldl (fun hash byte => hashWord hash byte.toUInt64) hash

def gapIdentityEqual (left right : Identity) : Bool :=
  if left.valid != right.valid then false
  else if left.valid = false then true
  else left.categoryIndex = right.categoryIndex && left.command = right.command && left.operation = right.operation

def OperationGapAggregate.accepts (entry : OperationGapAggregate) (previous next : Identity) : Bool :=
  !entry.occupied || (gapIdentityEqual entry.previous previous && gapIdentityEqual entry.next next)

def probe (operations : ℕ → OperationGapAggregate) (hash : UInt64) (previous next : Identity) : ℕ → ℕ → Option ℕ
  | 0, _ => none
  | left + 1, n =>
    let index := ((hash + UInt64.ofNat n) &&& 1023).toNat
    if (operations index).accepts previous next then some index else probe operations hash previous next left (n + 1)

def gapPairHash (previous next : Identity) : UInt64 :=
  let hash := gapIdentityHash previous
  hash ^^^ (gapIdentityHash next + 0x9e3779b97f4a7c15 + (hash <<< (6 : UInt64)) + (hash >>> (2 : UInt64)))

def GapAggregate.record (gap : GapAggregate) (overflow : LedgerError) (duration : UInt64) :
    Flagged (Bool × GapAggregate) :=
  if gap.count = uint64Max then do
    failWith overflow
    return (false, gap)
  else do
    let (ok, totalDuration) ← addLocked gap.totalDuration duration
    return (ok, { count := gap.count + 1, totalDuration,
                  maxDuration := if ok && gap.maxDuration < duration then duration else gap.maxDuration })

def recordOperationGap (operations : ℕ → OperationGapAggregate) (duration : UInt64) (previous next : Identity) :
    Flagged (ℕ → OperationGapAggregate) :=
  match probe operations (gapPairHash previous next) previous next operationGapCapacity 0 with
  | none => do
    failWith .operationGapCapacity
    return operations
  | some index => do
    let entry := operations index
    let (_, gap) ← entry.gap.record .operationGapCountOverflow duration
    return update operations index
      (if entry.occupied then { entry with gap } else { occupied := true, previous, next, gap })

variable (isAllKnown : Bool) (spanBeginNs : UInt64) (gaps : Gaps) (aggregate : Aggregate)

def recordAllKnownGap (beginNs endNs : UInt64) (previous next : Identity) : Flagged Gaps :=
  if endNs ≤ beginNs then return gaps
  else do
    let previousIndex ← gapIdentityIndex previous
    let nextIndex ← gapIdentityIndex next
    let (ok, gap) ← (gaps.allKnown previousIndex nextIndex).record .gapCountOverflow (endNs - beginNs)
    let allKnown := update gaps.allKnown previousIndex (update (gaps.allKnown previousIndex) nextIndex gap)
    if ok then do
      let operations ← recordOperationGap gaps.operations (endNs - beginNs) previous next
      return { allKnown, operations }
    else return { gaps with allKnown }

def considerGap (beginNs endNs : UInt64) (previous next : Identity) : Flagged Aggregate :=
  if endNs < beginNs then do
    failWith .gapBoundary
    return aggregate
  else if aggregate.haveLargestGap = false ∨ aggregate.largestGapEnd - aggregate.largestGapBegin < endNs - beginNs then
    return { aggregate with
      haveLargestGap := true, largestGapBegin := beginNs, largestGapEnd := endNs, largestGapPrevious := previous,
      largestGapNext := next }
  else return aggregate

/-! ## Aggregates and pairs -/

def Aggregate.gapBegin (spanBeginNs : UInt64) : UInt64 :=
  if aggregate.haveLastUnionEnd then aggregate.lastUnionEnd else spanBeginNs

def closeGap (endNs : UInt64) (next : Identity) : Flagged (Aggregate × Gaps) := do
  let gapBegin := aggregate.gapBegin spanBeginNs
  let considered ← considerGap aggregate gapBegin endNs aggregate.lastEnd next
  let gaps ← if isAllKnown then recordAllKnownGap gaps gapBegin endNs aggregate.lastEnd next else pure gaps
  return (considered, gaps)

def Aggregate.enter : Flagged Aggregate :=
  if aggregate.activeDepth = 0xffffffff then do
    failWith .activeDepthOverflow
    return aggregate
  else do
    let intervalCount ← add aggregate.intervalCount 1
    return { aggregate with activeDepth := aggregate.activeDepth + 1, intervalCount }

def aggregateBegin (nowNs : UInt64) (identity : Identity) : Flagged (Aggregate × Gaps) :=
  if aggregate.activeDepth = 0 then do
    let (considered, gaps) ← closeGap isAllKnown spanBeginNs gaps aggregate nowNs identity
    let entered ← { considered with activeBegin := nowNs }.enter
    return (entered, gaps)
  else do
    let entered ← aggregate.enter
    return (entered, gaps)

def clampEnd (beginNs endNs : UInt64) : Flagged UInt64 :=
  if endNs < beginNs then do
    failWith .intervalClockReversal
    return beginNs
  else return endNs

def Aggregate.unionUntil (endNs : UInt64) : Flagged UInt64 :=
  if endNs < aggregate.activeBegin then do
    failWith .unionClockReversal
    return aggregate.unionDuration
  else add aggregate.unionDuration (endNs - aggregate.activeBegin)

def aggregateEnd (beginNs endNs : UInt64) (identity : Identity) : Flagged Aggregate :=
  if aggregate.activeDepth = 0 then do
    failWith .activeDepthUnderflow
    return aggregate
  else do
    let endNs ← clampEnd beginNs endNs
    let totalDuration ← add aggregate.totalDuration (endNs - beginNs)
    let left := { aggregate with totalDuration, activeDepth := aggregate.activeDepth - 1 }
    if left.activeDepth = 0 then do
      let unionDuration ← left.unionUntil endNs
      return { left with unionDuration, lastUnionEnd := endNs, haveLastUnionEnd := true, lastEnd := identity }
    else return left

def updatePair (pair : PairAggregate) (active : Bool) (nowNs : UInt64) : Flagged PairAggregate :=
  if active = pair.active then return pair
  else if active then return { pair with active := true, activeBegin := nowNs }
  else if nowNs < pair.activeBegin then do
    failWith .pairClockReversal
    return { pair with active := false }
  else do
    let unionDuration ← add pair.unionDuration (nowNs - pair.activeBegin)
    return { pair with unionDuration, active := false }

def updateOther (categories : UInt32 → Aggregate) (category : UInt32) (nowNs : UInt64)
    (pairs : UInt32 → UInt32 → PairAggregate) (other : UInt32) : Flagged (UInt32 → UInt32 → PairAggregate) :=
  if other = category then return pairs
  else do
    let a := if category < other then category else other
    let b := if category < other then other else category
    let active := (categories a).activeDepth != 0 && (categories b).activeDepth != 0
    let pair ← updatePair (pairs a b) active nowNs
    return update pairs a (update (pairs a) b pair)

def updateCategoryPairs (categories : UInt32 → Aggregate) (pairs : UInt32 → UInt32 → PairAggregate) (category : UInt32)
    (nowNs : UInt64) : Flagged (UInt32 → UInt32 → PairAggregate) :=
  categoryIndices.foldlM (updateOther categories category nowNs) pairs

def updatePairsIf (changed : Prop) [Decidable changed] (categories : UInt32 → Aggregate)
    (pairs : UInt32 → UInt32 → PairAggregate) (category : UInt32) (nowNs : UInt64) :
    Flagged (UInt32 → UInt32 → PairAggregate) :=
  if changed then updateCategoryPairs categories pairs category nowNs else return pairs

/-! ## Spans -/

def recordCategoryInterval (category : UInt32) (beginNs endNs : UInt64) : Ledger :=
  let l := { l with categoryIntervalCount := l.categoryIntervalCount + 1 }
  if l.categoryIntervalsOverflow then l
  else if categoryIntervalCapacity ≤ l.categoryIntervals.length then { l with categoryIntervalsOverflow := true }
  else { l with categoryIntervals := l.categoryIntervals ++ [⟨beginNs, endNs, category⟩] }

structure SpanRequest where
  category : UInt32
  graphOrdinal : UInt64
  operationSequence : UInt64
  command : UInt32
  owner : String
  operation : List UInt8
deriving DecidableEq, Repr

def slot (token : UInt64) : ℕ := token.toNat % openTokenCount

def beginAccounts (category : UInt32) (nowNs : UInt64) (identity : Identity) : Flagged Ledger := do
  let becameActive := (l.categories category).activeDepth = 0
  let (aggregate, _) ← aggregateBegin false l.spanBegin l.gaps (l.categories category) nowNs identity
  let categories := update l.categories category aggregate
  let pairs ← updatePairsIf (becameActive ∧ aggregate.activeDepth ≠ 0) categories l.categoryPairs category nowNs
  let (allKnown, gaps) ← aggregateBegin true l.spanBegin l.gaps l.allKnown nowNs identity
  return { l with categories, categoryPairs := pairs, allKnown, gaps }

def Ledger.commit (m : Flagged Ledger) : Ledger := { m.value with flags := m.value.flags.raise m.errors }

def openSpan (r : SpanRequest) (token nowNs : UInt64) : Ledger :=
  let identity : Identity :=
    { valid := true, sequence := l.nextSequence + 1, owner := r.owner, operation := r.operation,
      categoryIndex := r.category, command := r.command }
  let entry : OpenToken :=
    { token, beginNs := nowNs, graphOrdinal := r.graphOrdinal, operationSequence := r.operationSequence,
      category := r.category, command := r.command, identity }
  let entered := { l with
    nextSequence := l.nextSequence + 1
    openTokens := update l.openTokens (slot token) entry
    openCount := l.openCount + 1 }
  Ledger.commit (beginAccounts entered r.category nowNs identity)

def spanBeginLocked (r : SpanRequest) (clockNs : UInt64) : UInt64 × Ledger :=
  if l.active = false then (0, l)
  else if categoryCount ≤ r.category then (0, l.fail .unknownCategory)
  else if clockNs = 0 then (0, l.fail .clockRead)
  else if clockNs < l.spanBegin ∨ clockNs < l.lastClock then (0, l.fail .clockReversal)
  else
    let timed := { l with lastClock := clockNs }
    if l.nextToken = uint64Max then (0, timed.fail .tokenOverflow)
    else
      let counted := { timed with nextToken := l.nextToken + 1 }
      if (l.openTokens (slot (l.nextToken + 1))).token ≠ 0 then (0, counted.fail .openTokenCapacity)
      else if l.nextSequence = uint64Max then (0, counted.fail .sequenceOverflow)
      else (l.nextToken + 1, openSpan counted r (l.nextToken + 1) clockNs)

def storeStretchIf (ended : Prop) [Decidable ended] (l : Ledger) (category : UInt32) (beginNs endNs : UInt64) :
    Ledger :=
  if ended ∧ category ≠ publicCall then recordCategoryInterval l category beginNs endNs else l

def endAccounts (entry : OpenToken) (nowNs : UInt64) : Flagged Ledger := do
  let becomesInactive := (l.categories entry.category).activeDepth = 1
  let aggregate ← aggregateEnd (l.categories entry.category) entry.beginNs nowNs entry.identity
  let categories := update l.categories entry.category aggregate
  let idle := becomesInactive ∧ aggregate.activeDepth = 0
  let stored := storeStretchIf idle l entry.category aggregate.activeBegin nowNs
  let categoryPairs ← updatePairsIf idle categories l.categoryPairs entry.category nowNs
  let allKnown ← aggregateEnd l.allKnown entry.beginNs nowNs entry.identity
  return { stored with categories, categoryPairs, allKnown }

def endCommand (entry : OpenToken) (nowNs : UInt64) : Flagged Ledger :=
  if entry.category = publicCall ∧ entry.command < 256 then do
    let calls ← add (l.commandCalls entry.command) 1
    let total ← add (l.commandTotalDuration entry.command) (nowNs - entry.beginNs)
    return { l with
      commandCalls := update l.commandCalls entry.command calls
      commandTotalDuration := update l.commandTotalDuration entry.command total }
  else return l

inductive CUresult where
  | success | invalidValue | unknown
deriving DecidableEq, Repr

def closeSpan (token nowNs : UInt64) : Ledger :=
  let entry := l.openTokens (slot token)
  let closed := Ledger.commit do
    let l ← endAccounts l entry nowNs
    endCommand l entry nowNs
  { closed with
    openTokens := update closed.openTokens (slot token) {}
    openCount := closed.openCount - 1 }

def spanEndLocked (token clockNs : UInt64) : CUresult × Ledger :=
  if l.active = false ∨ token = 0 then (.invalidValue, l.fail .spanEndWithoutDecode)
  else if (l.openTokens (slot token)).token ≠ token then (.invalidValue, l.fail .spanPairing)
  else if clockNs = 0 then (.unknown, l.fail .clockRead)
  else
    let checked := if clockNs < l.lastClock then l.fail .clockReversal else l
    (.success, closeSpan { checked with lastClock := clockNs } token clockNs)

/-! ## The terminal validators -/

def matrixTotals : List UInt64 :=
  identityIndices.flatMap fun p => identityIndices.map fun n => (gaps.allKnown p n).totalDuration

def operationTotals : List UInt64 :=
  ((List.range operationGapCapacity).filter fun k => (gaps.operations k).occupied).map fun k =>
    (gaps.operations k).gap.totalDuration

def failIf (c : Prop) [Decidable c] (e : LedgerError) : Flagged Unit := if c then failWith e else return ()

def checkRecordedGaps (gap : UInt64) : Flagged Unit :=
  if isAllKnown = false then return () else do
  let recorded ← addAll 0 (matrixTotals gaps)
  failIf (recorded ≠ gap) .gapTotalMismatch
  let recordedOperations ← addAll 0 (operationTotals gaps)
  failIf (recordedOperations ≠ gap) .operationGapTotalMismatch

def closeFinalGap (spanEndNs : UInt64) : Flagged (Aggregate × Gaps) :=
  if aggregate.activeDepth = 0 then closeGap isAllKnown spanBeginNs gaps aggregate spanEndNs {}
  else return (aggregate, gaps)

def emitSummary (spanEndNs : UInt64) : Flagged (Aggregate × Gaps) := do
  failIf (aggregate.activeDepth ≠ 0) .openSpanAtTerminal
  let (aggregate, gaps) ← closeFinalGap isAllKnown spanBeginNs gaps aggregate spanEndNs
  let spanDuration := if spanBeginNs ≤ spanEndNs then spanEndNs - spanBeginNs else 0
  failIf (spanEndNs < spanBeginNs) .terminalBoundary
  failIf (spanDuration < aggregate.unionDuration) .unionOutsideSpan
  failIf (aggregate.totalDuration < aggregate.unionDuration) .overlapUnderflow
  let gap := if aggregate.unionDuration ≤ spanDuration then spanDuration - aggregate.unionDuration else 0
  checkRecordedGaps isAllKnown gaps gap
  return (aggregate, gaps)

def validateTerminalGaps (spanEndNs : UInt64) : Flagged Unit :=
  if spanEndNs < l.spanBegin ∨ spanEndNs - l.spanBegin < l.allKnown.unionDuration then
    failWith .gapTerminalBoundary
  else do
    let recorded ← addAll 0 (matrixTotals l.gaps)
    let finalGapBegin := l.allKnown.gapBegin l.spanBegin
    if spanEndNs < finalGapBegin then failWith .gapTerminalBoundary
    else do
      let (ok, recorded) ← addLocked recorded (spanEndNs - finalGapBegin)
      if ok then failIf (recorded ≠ spanEndNs - l.spanBegin - l.allKnown.unionDuration) .gapTotalMismatch
      else failWith .gapTerminalBoundary

def sumCommand (sums : Option (UInt64 × UInt64)) (command : UInt32) : Flagged (Option (UInt64 × UInt64)) :=
  match sums with
  | none => return none
  | some (calls, duration) => do
    let newCalls ← addLocked calls (l.commandCalls command)
    if newCalls.1 then do
      let newDuration ← addLocked duration (l.commandTotalDuration command)
      return if newDuration.1 then some (newCalls.2, newDuration.2) else none
    else return none

def validateCommandTotals : Flagged Unit := do
  match ← commandIndices.foldlM (sumCommand l) (some (0, 0)) with
  | none => return ()
  | some (calls, duration) =>
    failIf (calls ≠ (l.categories publicCall).intervalCount ∨ duration ≠ (l.categories publicCall).totalDuration)
      .commandTotalMismatch

def pairIndices : List (UInt32 × UInt32) :=
  categoryIndices.flatMap fun a => (categoryIndices.filter fun b => a < b).map fun b => (a, b)

def validatePair (p : UInt32 × UInt32) : Flagged Unit :=
  let pair := l.categoryPairs p.1 p.2
  if pair.active then failWith .pairActiveAtTerminal
  else failIf ((l.categories p.1).unionDuration < pair.unionDuration ∨
    (l.categories p.2).unionDuration < pair.unionDuration) .pairUnionExceedsCategory

def validateCategoryPairs : Flagged Unit := do
  pairIndices.foldlM (fun _ p => validatePair l p) ()
  failIf (pairIndices.length ≠ 36) .pairCountMismatch

def addInterval (spanEndNs : UInt64) (durations : UInt32 → UInt64) (interval : CategoryInterval) :
    Flagged (UInt32 → UInt64) :=
  if interval.category = publicCall ∨ categoryCount ≤ interval.category ∨ interval.beginNs < l.spanBegin ∨
      interval.endNs < interval.beginNs ∨ spanEndNs < interval.endNs then do
    failWith .categoryIntervalInvalid
    return durations
  else do
    let sum ← add (durations interval.category) (interval.endNs - interval.beginNs)
    return update durations interval.category sum

def emitCategoryIntervals (spanEndNs : UInt64) : Flagged Unit :=
  if l.categoryIntervalsOverflow then return ()
  else do
    let durations ← l.categoryIntervals.foldlM (addInterval l spanEndNs) fun _ => 0
    [1, 2, 3, 4, 5, 6, 7, 8].foldlM (fun _ category =>
      failIf (durations category ≠ (l.categories category).unionDuration) .categoryIntervalUnionMismatch) ()

def emitCategory (spanEndNs : UInt64) (categories : UInt32 → Aggregate) (category : UInt32) :
    Flagged (UInt32 → Aggregate) := do
  let (aggregate, _) ← emitSummary false l.spanBegin l.gaps (categories category) spanEndNs
  return update categories category aggregate

def emitTerminal (spanEndNs : UInt64) : Flagged Ledger := do
  validateTerminalGaps l spanEndNs
  validateCommandTotals l
  validateCategoryPairs l
  let categories ← categoryIndices.foldlM (emitCategory l spanEndNs) l.categories
  let (allKnown, gaps) ← emitSummary true l.spanBegin l.gaps l.allKnown spanEndNs
  let l := { l with categories, allKnown, gaps }
  emitCategoryIntervals l spanEndNs
  return l

/-! ## Entry points -/

def opened (caseEpoch clockNs : UInt64) : Ledger :=
  let l : Ledger := { active := true, caseEpoch, spanBegin := clockNs, lastClock := clockNs }
  if clockNs = 0 then l.fail .clockRead else l

def decodeBegin (caseEpoch clockNs : UInt64) : CUresult × Ledger :=
  if l.active then (.invalidValue, l.fail .decodeBeginWhileActive)
  else if caseEpoch = 0 then (.invalidValue, l)
  else (if clockNs = 0 then .unknown else .success, opened caseEpoch clockNs)

def decodeEnd (caseEpoch clockNs : UInt64) : CUresult × Ledger :=
  if l.active = false then (.invalidValue, l)
  else if caseEpoch ≠ l.caseEpoch then (.invalidValue, l.fail .decodeEpochMismatch)
  else
    let spanEndNs := if clockNs = 0 then l.lastClock else clockNs
    let read := if clockNs = 0 then l.fail .clockRead else l
    let counted := if read.openCount ≠ 0 then read.fail .openSpanAtTerminal else read
    (.success, { Ledger.commit (emitTerminal counted spanEndNs) with active := false })

inductive SpanEvent where
  | spanBegin (r : SpanRequest) (clockNs : UInt64)
  | callBegin (symbol : List UInt8) (command : UInt32) (callId clockNs : UInt64)
  | spanEnd (token clockNs : UInt64)
  | statusPolls (command pollCount : UInt32)
deriving DecidableEq, Repr

def callRequest (symbol : List UInt8) (command : UInt32) (callId : UInt64) : SpanRequest :=
  { category := publicCall, graphOrdinal := 0, operationSequence := callId, command, owner := "guest-shim",
    operation := symbol }

def cudaCallBegin (symbol : List UInt8) (command : UInt32) (callId clockNs : UInt64) : UInt64 × Ledger :=
  let (token, l) := spanBeginLocked l (callRequest symbol command callId) clockNs
  (token, Ledger.commit do
    let commandBarrierBursts ← commandBarrierRecord l.commandBarrierBursts command
    return { l with commandBarrierBursts })

def commandStatusPolls (command pollCount : UInt32) : Ledger :=
  if 256 ≤ command then l
  else if l.active = false then l
  else Ledger.commit do
    let polls ← add (l.commandStatusPollCount command) pollCount.toUInt64
    return { l with commandStatusPollCount := update l.commandStatusPollCount command polls }

def spanStep : SpanEvent → Ledger
  | .spanBegin r clockNs => (spanBeginLocked l r clockNs).2
  | .callBegin symbol command callId clockNs => (cudaCallBegin l symbol command callId clockNs).2
  | .spanEnd token clockNs => (spanEndLocked l token clockNs).2
  | .statusPolls command pollCount => commandStatusPolls l command pollCount

end CxlMemSim.Guest.Observation
