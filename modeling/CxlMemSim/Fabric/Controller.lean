/-
The controller at the root of the topology: `insert`, which spreads accesses over the cache, its own memory and the
devices, and `perform_migration`.

Model: devices are referred to by index. What the policies answer is an argument (`Decision`); a migration policy has a
state, its `compute_once` and its own class's list.
-/
import CxlMemSim.Dist.Decoder
import CxlMemSim.Fabric.Expander

namespace CxlMemSim.Controller

open CxlMemSim.Dist Expander

structure LRUCacheEntry where
  key : UInt64
  value : UInt64
  timestamp : UInt64
deriving DecidableEq, Repr

structure LRUCache where
  capacity : ℕ
  entries : List LRUCacheEntry
deriving DecidableEq, Repr

namespace LRUCache

def get (l : LRUCache) (key timestamp : UInt64) : LRUCache × Option UInt64 :=
  match l.entries.find? (·.key = key) with
  | none => (l, none)
  | some e => ({ l with entries := { e with timestamp := timestamp } :: l.entries.eraseP (·.key = key) }, some e.value)

def put (l : LRUCache) (key value timestamp : UInt64) : LRUCache :=
  let kept :=
    if l.entries.any (·.key = key) then l.entries.eraseP (·.key = key)
    else if l.entries.length ≥ l.capacity then l.entries.dropLast
    else l.entries
  { l with entries := ⟨key, value, timestamp⟩ :: kept }

def remove (l : LRUCache) (key : UInt64) : LRUCache := { l with entries := l.entries.eraseP (·.key = key) }

end LRUCache

/-! ## Devices and switches -/

inductive Device where
  | expander (cfg : Config) (s : CXLMemExpander)
  | remote (id : ℤ) (node : UInt32) (placement : Placement)

namespace Device

def id : Device → ℤ
  | .expander cfg _ => cfg.id
  | .remote id _ _ => id

def occupation : Device → List OccupationInfo
  | .expander _ s => s.placement.occupation
  | .remote _ _ p => p.occupation

def insert (timestamp tid physAddr : UInt64) (index : ℤ) : Device → Device × ℕ
  | .expander cfg s =>
    let r := Expander.insert cfg s timestamp.toNat tid physAddr index
    (.expander cfg r.1, r.2)
  | .remote id node p =>
    if index ≠ id then (.remote id node p, 0)
    else if physAddr = 0 then (.remote id node p, 1)
    else
      let placed := p.insertEntry ⟨timestamp.toNat, physAddr, 0⟩
      (.remote id node placed.1, if placed.2 then 2 else 1)

def mapPlacement (f : Placement → Placement) : Device → Device
  | .expander cfg s => .expander cfg { s with placement := f s.placement }
  | .remote id node p => .remote id node (f p)

end Device

abbrev Devices := List Device

inductive Switch where
  | node (expanders : List ℕ) (switches : List Switch)

def insertDevice (devs : Devices) (timestamp tid physAddr : UInt64) (index : ℤ) (i : ℕ) : Devices × ℕ :=
  match devs[i]? with
  | none => (devs, 0)
  | some d => (devs.set i (d.insert timestamp tid physAddr index).1, (d.insert timestamp tid physAddr index).2)

def insertExpanders (timestamp tid physAddr : UInt64) (index : ℤ) : Devices → List ℕ → Devices × ℕ
  | devs, [] => (devs, 0)
  | devs, i :: is =>
    let r := insertDevice devs timestamp tid physAddr index i
    if r.2 ≠ 0 then r else insertExpanders timestamp tid physAddr index r.1 is

mutual

def Switch.insert (timestamp tid physAddr : UInt64) (index : ℤ) (devs : Devices) : Switch → Devices × ℕ
  | .node expanders switches =>
    let r := insertExpanders timestamp tid physAddr index devs expanders
    if r.2 ≠ 0 then r else insertSwitches timestamp tid physAddr index r.1 switches

def insertSwitches (timestamp tid physAddr : UInt64) (index : ℤ) (devs : Devices) : List Switch → Devices × ℕ
  | [] => (devs, 0)
  | s :: rest =>
    let r := Switch.insert timestamp tid physAddr index devs s
    if r.2 ≠ 0 then r else insertSwitches timestamp tid physAddr index r.1 rest

end

mutual

def Switch.devices : Switch → List ℕ
  | .node expanders switches => expanders ++ devicesOf switches

def devicesOf : List Switch → List ℕ
  | [] => []
  | s :: rest => s.devices ++ devicesOf rest

end

/-! ## The controller -/

inductive PageType where
  | cacheline
  | page
  | hugepage2M
  | hugepage1G
deriving DecidableEq, Repr

def PageType.perSize : PageType → UInt64
  | .cacheline => 64
  | .page => 4096
  | .hugepage2M => 2 * 1024 * 1024
  | .hugepage1G => 1024 * 1024 * 1024

abbrev Occupation := List (UInt64 × OccupationInfo)

def emplace (occ : Occupation) (key : UInt64) (info : OccupationInfo) : Occupation :=
  if occ.any (·.1 = key) then occ
  else occ.takeWhile (·.1 < key) ++ (key, info) :: occ.dropWhile (·.1 < key)

structure CXLController where
  occupation : Occupation
  lruCache : LRUCache
  devices : Devices
  expanders : List ℕ
  switches : List Switch
  deviceMap : List (UInt32 × ℕ)
  remoteExpanders : List ℕ
  hdmDecoder : Option HDMDecoder
  pageType : PageType
  lastIndex : ℤ
  lastTimestamp : UInt64
  requestCounter : ℤ

namespace CXLController

/-- the allocation policy's result, the latency of a page table walk, and whether the access may be cached -/
structure Decision where
  numaPolicy : ℤ
  ptwLatency : UInt64
  shouldCache : Bool
deriving DecidableEq, Repr

structure Call where
  timestamp : UInt64
  tid : UInt64
  physAddr : UInt64
  index : ℤ
  decisions : ℕ → Decision
  invalidations : Option (List UInt64)

structure Access where
  time : UInt64
  tid : UInt64
  physAddr : UInt64
  decision : Decision
deriving DecidableEq, Repr

variable (c : CXLController)

def recordLocal (a : Access) : CXLController :=
  -- `occupation_info{phys_addr, 1, current_timestamp + ptw_latency}`; the fields of `occupation_info` are,
  -- in this order, the timestamp, the address and the access count
  let info : OccupationInfo := ⟨a.physAddr.toNat, 1, (a.time + a.decision.ptwLatency).toNat⟩
  { c with occupation := emplace c.occupation a.time info }

def updateCache (a : Access) : CXLController :=
  { c with lruCache := c.lruCache.put a.physAddr a.physAddr a.time }

def getRemoteExpander (node : UInt32) : Option ℕ :=
  c.remoteExpanders.find? fun i =>
    match c.devices[i]? with
    | some (.remote _ n _) => n = node
    | _ => false

def deviceId (i : ℕ) : ℤ := (c.devices[i]?.map Device.id).getD (-1)

def insertInto (a : Access) (i : ℕ) : CXLController :=
  { c with devices := (insertDevice c.devices (a.time + a.decision.ptwLatency) a.tid a.physAddr (c.deviceId i) i).1 }

def localDevice (target : UInt32) : Option ℕ := (c.deviceMap.find? (·.1 = target)).map Prod.snd

def accessDecoded (a : Access) (d : HDMDecoder) : CXLController :=
  let result := d.decode a.physAddr
  let c :=
    if result.isRemote then
      match c.getRemoteExpander result.targetId with
      | some i => c.insertInto a i
      | none => c
    else
      match c.localDevice result.targetId with
      | some i => c.insertInto a i
      | none => c.recordLocal a
  if a.decision.shouldCache then c.updateCache a else c

/-- the remote part of the path without a decoder; `res &= ret` keeps the last bit of the answer -/
def insertAll (a : Access) (res : Bool) : CXLController × Bool :=
  let ts := a.time + a.decision.ptwLatency
  let index := a.decision.numaPolicy
  let viaSwitches := c.switches.foldl (fun (s : Devices × Bool) sw =>
    let r := Switch.insert ts a.tid a.physAddr index s.1 sw
    (r.1, s.2 && r.2 % 2 = 1)) (c.devices, res)
  let viaExpanders := c.expanders.foldl (fun (s : Devices × Bool) i =>
    let r := insertDevice s.1 ts a.tid a.physAddr index i
    (r.1, s.2 && r.2 % 2 = 1)) viaSwitches
  ({ c with devices := viaExpanders.1 }, viaExpanders.2)

def accessAllocated (a : Access) (res : Bool) : CXLController × Bool :=
  if a.decision.numaPolicy = -1 then ((c.recordLocal a).updateCache a, res)
  else
    let r := c.insertAll a res
    (if a.decision.shouldCache then r.1.updateCache a else r.1, r.2)

def access (res : Bool) (a : Access) : CXLController × Bool :=
  let hit := c.lruCache.get a.physAddr a.time
  let c := { c with lruCache := hit.1 }
  match hit.2 with
  | some _ => (c, res)
  | none =>
    match c.hdmDecoder with
    | some d => (c.accessDecoded a d, res)
    | none => c.accessAllocated a res

def accesses (call : Call) : List Access :=
  let n := (call.index - c.lastIndex).toNat
  let timeStep := if call.index > c.lastIndex then (call.timestamp - c.lastTimestamp) / UInt64.ofNat n else 0
  (List.range n).map fun k =>
    ⟨c.lastTimestamp + UInt64.ofNat (k + 1) * timeStep, call.tid, call.physAddr, call.decisions k⟩

def runAccesses (as : List Access) : CXLController × Bool := as.foldl (fun s a => s.1.access s.2 a) (c, true)

/-! ## Migration -/

def InController (addr : UInt64) : Prop := ∃ e ∈ c.occupation, e.2.address = addr

instance (addr : UInt64) : Decidable (c.InController addr) :=
  inferInstanceAs (Decidable (∃ e ∈ c.occupation, e.2.address = addr))

def searchOrder : List ℕ := c.expanders ++ devicesOf c.switches

def holds (addr : UInt64) (i : ℕ) : Bool := (c.devices[i]?.map fun d => d.occupation.any (·.address = addr)).getD false

def sourceExpander (addr : UInt64) : Option ℕ := c.searchOrder.find? (c.holds addr)

def Present (addr : UInt64) : Prop := c.InController addr ∨ ∃ i ∈ c.searchOrder, c.holds addr i = true

instance (addr : UInt64) : Decidable (c.Present addr) := inferInstanceAs (Decidable (_ ∨ _))

def migrateDevice (i : ℕ) (f : Placement → Placement) : Devices := c.devices.modify i (Device.mapPlacement f)

def migrateOne (addr : UInt64) : CXLController × Bool :=
  match c.occupation.find? (·.2.address = addr) with
  | some e =>
    match c.expanders with
    | [] => (c, false)
    | dst :: _ =>
      ({ c with devices := c.migrateDevice dst (·.migrateIn e.2)
                occupation := c.occupation.eraseP (·.2.address = addr) }, true)
  | none =>
    match c.sourceExpander addr with
    | none => (c, false)
    | some i =>
      match (c.devices[i]?).bind fun d => d.occupation.find? (·.address = addr) with
      | none => (c, false)
      | some info =>
        ({ c with occupation := emplace c.occupation c.lastTimestamp info
                  devices := c.migrateDevice i (·.migrateOut addr) }, true)

def migrate (c : CXLController) : List (UInt64 × UInt64) → CXLController × List UInt64
  | [] => (c, [])
  | (addr, _) :: rest =>
    let one := c.migrateOne addr
    let more := one.1.migrate rest
    (more.1, if one.2 then addr :: more.2 else more.2)

end CXLController

/-- a class derived from `MigrationPolicy`: an object's state, its `compute_once` and its own list -/
structure MigrationPolicy (P : Type) where
  computeOnce : P → CXLController → P × ℤ
  getMigrationList : P → CXLController → List (UInt64 × UInt64)

def baseMigrationList (_c : CXLController) : List (UInt64 × UInt64) := []

namespace CXLController

/-- `get_migration_list` is not virtual, so the list is the base class's whatever the object is -/
def performMigration (c : CXLController) : CXLController × List UInt64 := c.migrate (baseMigrationList c)

def performBackInvalidation (c : CXLController) (list : List UInt64) : CXLController :=
  { c with lruCache := list.foldl LRUCache.remove c.lruCache
           devices := list.foldl (fun devs addr =>
             c.searchOrder.foldl (fun ds i => ds.modify i (Device.mapPlacement (·.invalidateInExpanders addr))) devs)
             c.devices }

def afterLoop {P : Type} (policy : Option (MigrationPolicy P)) (c : CXLController) (p : P) (call : Call) :
    CXLController × P :=
  let counter := c.requestCounter + (call.index - c.lastIndex)
  let c := { c with requestCounter := counter }
  let r : CXLController × P :=
    if counter ≥ 1000 then
      let migrated : CXLController × P :=
        match policy with
        | none => (c, p)
        | some policy =>
          let once := policy.computeOnce p c
          if once.2 > 0 then (c.performMigration.1, once.1) else (c, once.1)
      let invalidated :=
        match call.invalidations with
        | none => migrated.1
        | some list => migrated.1.performBackInvalidation list
      ({ invalidated with requestCounter := 0 }, migrated.2)
    else (c, p)
  ({ r.1 with lastIndex := if call.index > 0 then call.index else r.1.lastIndex
              lastTimestamp := call.timestamp }, r.2)

def insert {P : Type} (policy : Option (MigrationPolicy P)) (c : CXLController) (p : P) (call : Call) :
    (CXLController × P) × Bool :=
  let looped := c.runAccesses (c.accesses call)
  (afterLoop policy looped.1 p call, looped.2)

end CXLController

end CxlMemSim.Controller
