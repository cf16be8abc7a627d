/-
Global Fabric Attached Memory (`GFAMDevice`) over a Dynamic Capacity Device, and the controller operations that drive
the pair.

Model: a call runs under the mutex and is one step; the device, a pointer in the source, is an argument.
-/
import CxlMemSim.Fabric.Dcd

namespace CxlMemSim.Gfam

open CxlMemSim.Core
open Dcd

/-! ## Model -/

def permRead : UInt32 := 1
def permWrite : UInt32 := 2
def permAtomic : UInt32 := 4
def permShared : UInt32 := 8
def permAll : UInt32 := permRead ||| permWrite ||| permAtomic ||| permShared

structure GFAMHost where
  hostId : UInt32
  label : String
  active : Bool
  reads : UInt64
  writes : UInt64
  atomics : UInt64
deriving DecidableEq, Repr

structure GFAMMapping where
  hostId : UInt32
  base : UInt64
  size : UInt64
  permissions : UInt32
deriving DecidableEq, Repr

structure GFAMAccessResult where
  allowed : Bool
  status : DCDStatus
deriving DecidableEq, Repr

structure GFAMDevice where
  hosts : List GFAMHost
  mappings : List GFAMMapping
  deniedAccesses : UInt64
  totalAccesses : UInt64
deriving DecidableEq, Repr

def GFAMDevice.new : GFAMDevice := ⟨[], [], 0, 0⟩

variable (d : DynamicCapacityDevice) (g : GFAMDevice) (hostId : UInt32)

def findHost : Option GFAMHost := g.hosts.find? fun h => h.hostId = hostId

def hostActive : Bool := (findHost g hostId).any fun h => h.active

def registerHost (label : String) : GFAMDevice :=
  if (findHost g hostId).isSome then
    { g with hosts := g.hosts.map fun h => if h.hostId = hostId then { h with label, active := true } else h }
  else { g with hosts := g.hosts ++ [⟨hostId, label, true, 0, 0, 0⟩] }

def unregisterHost : GFAMDevice :=
  { g with
    hosts := g.hosts.map fun h => if h.hostId = hostId then { h with active := false } else h
    mappings := g.mappings.filter fun m => m.hostId ≠ hostId }

def sameRange (base size : UInt64) (m : GFAMMapping) : Bool := m.hostId = hostId && m.base = base && m.size = size

def setPermissions (hostId : UInt32) (base size : UInt64) (permissions : UInt32) : List GFAMMapping → List GFAMMapping
  | [] => [⟨hostId, base, size, permissions⟩]
  | m :: ms =>
    if sameRange hostId base size m then { m with permissions } :: ms
    else m :: setPermissions hostId base size permissions ms

def grantAccess (base size : UInt64) (permissions : UInt32) : DCDStatus × GFAMDevice :=
  if !isAllocated d base size || permissions = 0 then (.invalidRequest, g)
  else if !hostActive g hostId then (.accessDenied, g)
  else (.ok, { g with mappings := setPermissions hostId base size permissions g.mappings })

def revokeAccess (base size : UInt64) : DCDStatus × GFAMDevice :=
  let mappings := g.mappings.filter fun m => !sameRange hostId base size m
  (if mappings.length = g.mappings.length then .notFound else .ok, { g with mappings })

def revokeExtent (base size : UInt64) : GFAMDevice :=
  { g with mappings := g.mappings.filter fun m => !(m.base = base && m.size = size) }

def mappingCovers (m : GFAMMapping) (addr size : UInt64) : Bool := rangeContains m.base m.size addr size

def requiredPermissions (isWrite isAtomic : Bool) : UInt32 :=
  if isAtomic then permAtomic ||| permRead ||| permWrite
  else if isWrite then permWrite else permRead

def mappingAllows (addr size : UInt64) (required : UInt32) (m : GFAMMapping) : Bool :=
  m.hostId = hostId && mappingCovers m addr size && (m.permissions &&& required) = required

def checkAccess (addr size : UInt64) (isWrite isAtomic : Bool) : Bool :=
  if !isAllocated d addr size then false
  else if !hostActive g hostId then false
  else g.mappings.any (mappingAllows hostId addr size (requiredPermissions isWrite isAtomic))

def countAccess (isWrite isAtomic : Bool) (h : GFAMHost) : GFAMHost :=
  if isAtomic then { h with atomics := h.atomics + 1 }
  else if isWrite then { h with writes := h.writes + 1 }
  else { h with reads := h.reads + 1 }

def denied : GFAMAccessResult × GFAMDevice :=
  (⟨false, .accessDenied⟩, { g with deniedAccesses := g.deniedAccesses + 1 })

def recordAccess (addr size : UInt64) (isWrite isAtomic : Bool) : GFAMAccessResult × GFAMDevice :=
  if !isAllocated d addr size then denied g
  else if !hostActive g hostId then denied g
  else if !g.mappings.any (mappingAllows hostId addr size (requiredPermissions isWrite isAtomic)) then denied g
  else
    (⟨true, .ok⟩, { g with
        hosts := g.hosts.map fun h => if h.hostId = hostId then countAccess isWrite isAtomic h else h
        totalAccesses := g.totalAccesses + 1 })

structure GFAMStats where
  hosts : UInt64
  mappings : UInt64
  sharedMappings : UInt64
  readOps : UInt64
  writeOps : UInt64
  atomicOps : UInt64
  deniedAccesses : UInt64
deriving DecidableEq, Repr

def gfamStats : GFAMStats :=
  { hosts := g.hosts.foldl (fun acc h => if h.active then acc + 1 else acc) 0
    mappings := UInt64.ofNat g.mappings.length
    sharedMappings := g.mappings.foldl (fun acc m => if m.permissions &&& permShared ≠ 0 then acc + 1 else acc) 0
    readOps := g.hosts.foldl (fun acc h => acc + h.reads) 0
    writeOps := g.hosts.foldl (fun acc h => acc + h.writes) 0
    atomicOps := g.hosts.foldl (fun acc h => acc + h.atomics) 0
    deniedAccesses := g.deniedAccesses }

/-! ## The controller -/

structure Controller where
  dcdDevice : Option DynamicCapacityDevice
  gfamDevice : Option GFAMDevice
deriving DecidableEq, Repr

variable (c : Controller)

def enableDcd (total gran initialCapacity initialTag : UInt64) : Controller :=
  let d := DynamicCapacityDevice.new total gran
  if 0 < initialCapacity then
    { c with dcdDevice := some (addCapacity d 0 (min initialCapacity total) initialTag 0).2 }
  else { c with dcdDevice := some d }

def dcdAddCapacity (requestedBase size tag timestamp : UInt64) : DCDAllocationResult × Controller :=
  match c.dcdDevice with
  | none => (⟨.invalidRequest, 0, 0, tag⟩, c)
  | some d =>
    let (r, d') := addCapacity d requestedBase size tag timestamp
    (r, { c with dcdDevice := some d' })

def dcdReleaseCapacity (base size tag timestamp : UInt64) : DCDStatus × Controller :=
  match c.dcdDevice with
  | none => (.invalidRequest, c)
  | some d =>
    let (status, d') := releaseCapacity d base size tag timestamp
    let c' := { c with dcdDevice := some d' }
    if status = .ok then (status, { c' with gfamDevice := c'.gfamDevice.map fun g => revokeExtent g base size })
    else (status, c')

def dcdIsAllocated (addr size : UInt64) : Bool :=
  match c.dcdDevice with
  | none => true
  | some d => isAllocated d addr size

def gfamGrantAccess (hostId : UInt32) (base size : UInt64) (permissions : UInt32) : DCDStatus × Controller :=
  match c.dcdDevice, c.gfamDevice with
  | some d, some g =>
    let (status, g') := grantAccess d g hostId base size permissions
    (status, { c with gfamDevice := some g' })
  | _, _ => (.invalidRequest, c)

def gfamRevokeAccess (hostId : UInt32) (base size : UInt64) : DCDStatus × Controller :=
  match c.gfamDevice with
  | none => (.invalidRequest, c)
  | some g =>
    let (status, g') := revokeAccess g hostId base size
    (status, { c with gfamDevice := some g' })

def gfamRecordAccess (hostId : UInt32) (addr size : UInt64) (isWrite isAtomic : Bool) : GFAMAccessResult × Controller :=
  match c.gfamDevice with
  | none => (⟨true, .ok⟩, c)
  | some g =>
    match c.dcdDevice with
    | none =>
      let (r, g') := denied g
      (r, { c with gfamDevice := some g' })
    | some d =>
      let (r, g') := recordAccess d g hostId addr size isWrite isAtomic
      (r, { c with gfamDevice := some g' })

def getDcdStats : DCDStats :=
  match c.dcdDevice with
  | none => ⟨0, 0, 0, 0, 0, 0, 0⟩
  | some d => stats d

def getGfamStats : GFAMStats :=
  match c.gfamDevice with
  | none => ⟨0, 0, 0, 0, 0, 0, 0⟩
  | some g => gfamStats g

def fabricCapacity (expanderMb : List UInt64) (capacityMb : UInt64) : UInt64 :=
  let total := expanderMb.foldl (fun acc mb => acc + mb * 1024 * 1024) 0
  if total = 0 then capacityMb * 1024 * 1024 else total

/-- registers hosts 0 .. numHosts-1 and grants each every active extent; a missing DCD first gets everything -/
def enableGfam (expanderMb : List UInt64) (capacityMb : UInt64) (numHosts : ℕ) : Controller :=
  let total := fabricCapacity expanderMb capacityMb
  let c := if c.dcdDevice.isNone then enableDcd c total (1024 * 1024) total 1 else c
  match c.dcdDevice with
  | none => c
  | some d =>
    let hosts := (List.range numHosts).map UInt32.ofNat
    let g := hosts.foldl (fun g h => registerHost g h ("host" ++ toString h)) GFAMDevice.new
    let g := (activeExtents d).foldl
      (fun g e => hosts.foldl (fun g h => (grantAccess d g h e.base e.size permAll).2) g) g
    { c with gfamDevice := some g }

/-! ## Access decisions -/

def Grants (m : GFAMMapping) (hostId : UInt32) (addr size : UInt64) (required : UInt32) : Prop :=
  m.hostId = hostId ∧ Covers m.base.toNat m.size.toNat addr.toNat size.toNat ∧ (m.permissions &&& required) = required

variable {h : UInt32} {w a : Bool}

lemma mappingAllows_iff {addr size : UInt64} {required : UInt32} {m : GFAMMapping} :
    mappingAllows h addr size required m = true ↔ Grants m h addr size required := by
  simp [mappingAllows, mappingCovers, Grants, rangeContains_iff, and_assoc]

lemma isAllocated_iff {d : DynamicCapacityDevice} {addr size : UInt64} : isAllocated d addr size = true ↔
    ¬ (size = 0 ∨ addr ≥ d.totalCapacityBytes ∨ size > d.totalCapacityBytes - addr) ∧
      ∃ e ∈ d.extents, e.active = true ∧ Covers e.base.toNat e.size.toNat addr.toNat size.toNat := by
  unfold isAllocated findExtent
  split_ifs with h
  · simp [h]
  · simp only [h, not_false_eq_true, true_and, List.find?_isSome, Bool.and_eq_true, rangeContains_iff]

lemma checkAccess_iff {d : DynamicCapacityDevice} {g : GFAMDevice} {addr size : UInt64} :
    checkAccess d g h addr size w a = true ↔ isAllocated d addr size = true ∧ hostActive g h = true ∧
        ∃ m ∈ g.mappings, Grants m h addr size (requiredPermissions w a) := by
  unfold checkAccess
  split_ifs with h1 h2
  · simp_all
  · simp_all
  · simp only [Bool.not_eq_true', Bool.not_eq_false] at h1 h2
    simp [h1, h2, mappingAllows_iff]

lemma recordAccess_allowed (h : UInt32) (addr size : UInt64)
    (w a : Bool) : (recordAccess d g h addr size w a).1.allowed = checkAccess d g h addr size w a := by
  unfold recordAccess checkAccess
  split_ifs with h1 h2 h3
  · rfl
  · rfl
  · simpa [denied] using h3
  · simpa using h3

lemma recordAccess_denied {d : DynamicCapacityDevice} {g : GFAMDevice} {addr size : UInt64}
    (hd : (recordAccess d g h addr size w a).1.allowed = false) :
    (recordAccess d g h addr size w a).1.status = .accessDenied := by
  unfold recordAccess at hd ⊢
  split_ifs at hd ⊢ <;> rfl

lemma gfamRecordAccess_denied {c : Controller} {addr size : UInt64}
    (hd : (gfamRecordAccess c h addr size w a).1.allowed = false) :
    (gfamRecordAccess c h addr size w a).1.status = .accessDenied := by
  unfold gfamRecordAccess at hd ⊢
  cases hg : c.gfamDevice with
  | none => simp [hg] at hd
  | some g =>
    cases hdcd : c.dcdDevice with
    | none => rfl
    | some d =>
      simp only [hg, hdcd] at hd ⊢
      exact recordAccess_denied hd

lemma recordAccess_mappings (h : UInt32) (addr size : UInt64)
    (w a : Bool) : (recordAccess d g h addr size w a).2.mappings = g.mappings := by
  unfold recordAccess
  split_ifs <;> rfl

lemma dcdAddCapacity_gfam (b n tag ts : UInt64) : (dcdAddCapacity c b n tag ts).2.gfamDevice = c.gfamDevice := by
  unfold dcdAddCapacity; split <;> rfl

lemma grantAccess_cases (host : UInt32) (b n : UInt64) (p : UInt32) : ((grantAccess d g host b n p).1 = .ok ∧
      (grantAccess d g host b n p).2 = { g with mappings := setPermissions host b n p g.mappings }) ∨
    ((grantAccess d g host b n p).1 ≠ .ok ∧ (grantAccess d g host b n p).2 = g) := by
  unfold grantAccess
  split_ifs
  · exact Or.inr ⟨by simp, rfl⟩
  · exact Or.inr ⟨by simp, rfl⟩
  · exact Or.inl ⟨rfl, rfl⟩

lemma required_usable {p : UInt32} (h : p &&& requiredPermissions w a = requiredPermissions w a) :
    p &&& (permRead ||| permWrite) ≠ 0 := by
  intro h0
  have hzero : requiredPermissions w a &&& (permRead ||| permWrite) = 0 := by
    rw [← h, UInt32.and_assoc, UInt32.and_comm (requiredPermissions w a), ← UInt32.and_assoc, h0, UInt32.zero_and]
  revert hzero
  cases w <;> cases a <;> decide

end CxlMemSim.Gfam
