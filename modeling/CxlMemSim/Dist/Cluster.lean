/-
The memory operations of a cluster of nodes: `read`, `write`, `atomic_faa` and `atomic_cas` of
`DistributedMemoryServer`.

Model: an operation is carried out in the memory of some node, or nowhere: the TCP and RDMA servers have no message
handler, so a peer answers with status 0 and stores nothing. `Env` is what storage and connections answer.
-/
import CxlMemSim.Dist.Decoder
import CxlMemSim.Dist.Region
import CxlMemSim.Server.Storage

namespace CxlMemSim.Dist

open CxlMemSim.Core CxlMemSim.Server

/-! ## Nodes and routes -/

inductive DistTransportMode where
  | shm
  | tcp
  | rdma
  | hybrid
deriving DecidableEq, Repr

structure Node where
  hdmDecoder : Option HDMDecoder
  header : Header
  shmSize : UInt64
  transportMode : DistTransportMode
  tcpConnected : UInt32 → Bool
  rdmaConnected : UInt32 → Bool

structure Cluster where
  node : UInt32 → Node

variable (c : Cluster) (n : UInt32)

def Cluster.getNodeForAddress (addr : UInt64) : UInt32 :=
  match (c.node n).hdmDecoder with
  | some d => d.getHomeNode addr
  | none => n

def Cluster.isLocalAddress (addr : UInt64) : Bool :=
  addr ≥ (c.node n).header.baseAddr && addr < (c.node n).header.baseAddr + (c.node n).shmSize

inductive Route where
  | localMemory
  | message (target : UInt32)
  | tcp (target : UInt32)
  | rdma (target : UInt32)
deriving DecidableEq, Repr

def Cluster.forward (target : UInt32) : Route :=
  let self := c.node n
  if self.transportMode = .rdma ∧ self.rdmaConnected target then .rdma target
  else if (self.transportMode = .tcp ∨ self.transportMode = .hybrid) ∧ self.tcpConnected target then .tcp target
  else .message target

def Cluster.servesLocally (addr : UInt64) : Bool :=
  c.getNodeForAddress n addr = n || c.isLocalAddress n addr || c.getNodeForAddress n addr = noTarget

def Cluster.readRoute (addr : UInt64) : Route :=
  if c.servesLocally n addr then .localMemory else c.forward n (c.getNodeForAddress n addr)

def Cluster.writeRoute (addr : UInt64) : Route :=
  if c.servesLocally n addr then .localMemory else c.forward n (c.getNodeForAddress n addr)

/-- both atomics: no other test for local memory, and always the shared-memory queues -/
def Cluster.atomicRoute (addr : UInt64) : Route :=
  if c.getNodeForAddress n addr = n then .localMemory else .message (c.getNodeForAddress n addr)

def Route.memoryOf (n : UInt32) : Route → Option UInt32
  | .localMemory => some n
  | .message t => if t < maxNodes then some t else none
  | .tcp _ => none
  | .rdma _ => none

def Route.overSocket : Route → Bool
  | .localMemory => false
  | .message _ => false
  | .tcp _ => true
  | .rdma _ => true

structure Location where
  node : UInt32
  offset : ℕ
deriving DecidableEq, Repr

def Cluster.locationOf (m : UInt32) (addr : UInt64) : Location := ⟨m, byteOf (c.node m).header addr⟩

def Cluster.location (r : Route) (addr : UInt64) : Option Location := (r.memoryOf n).map fun m => c.locationOf m addr

/-! ## Operations -/

abbrev Memories := UInt32 → Buf

variable (mems : Memories)

structure Env where
  delivered : Bool
  exchanged : Bool
  stale : Buf
  readIo : Io
  writeIo : Io

def Cluster.read (addr : UInt64) (data : Buf) (size : ℕ) (e : Env) :
    Bool × Buf :=
  match c.readRoute n addr with
  | .localMemory => readCacheline (c.node n).header (mems n) addr data size e.readIo
  | .message t =>
    if t < maxNodes ∧ e.delivered then
      -- `handle_read_request` at the target fills the zeroed response
      let got := readCacheline (c.node t).header (mems t) addr (fun _ => 0) size e.readIo
      if got.1 then (true, memcpy data 0 got.2 0 size) else (false, data)
    else (false, data)
  | .tcp _ => if e.exchanged then (true, memcpy data 0 e.stale 0 size) else (false, data)
  | .rdma _ => if e.exchanged then (true, memcpy data 0 e.stale 0 size) else (false, data)

def setMemory (mems : Memories) (m : UInt32) (stores : List (ℕ × UInt8)) : Memories :=
  Function.update mems m (storeAll (mems m) stores)

def Cluster.write (addr : UInt64) (data : Buf) (size : ℕ) (e : Env) :
    Bool × Memories :=
  match c.writeRoute n addr with
  | .localMemory =>
    let put := writeCacheline (c.node n).header addr data size e.writeIo
    (put.1, setMemory mems n put.2)
  | .message t =>
    if t < maxNodes ∧ e.delivered then
      let put := writeCacheline (c.node t).header addr data size e.writeIo
      (put.1, setMemory mems t put.2)
    else (false, mems)
  | .tcp _ => (e.exchanged, mems)
  | .rdma _ => (e.exchanged, mems)

def AtomicResult.answer (r : AtomicResult) (mems : Memories) (m : UInt32) : Option UInt64 × Memories :=
  (if r.ok then some r.oldValue else none, setMemory mems m r.stores)

def Cluster.atomic (addr : UInt64) (e : Env)
    (act : Header → Buf → AtomicResult) : Option UInt64 × Memories :=
  match c.atomicRoute n addr with
  | .localMemory => AtomicResult.answer (act (c.node n).header (mems n)) mems n
  | .message t =>
    if t < maxNodes ∧ e.delivered then AtomicResult.answer (act (c.node t).header (mems t)) mems t
    else (none, mems)
  | .tcp _ => (none, mems)
  | .rdma _ => (none, mems)

def Cluster.atomicFaa (addr value : UInt64) (e : Env) :
    Option UInt64 × Memories :=
  c.atomic n mems addr e fun hd mem => atomicFetchAddUint64 hd mem addr value e.readIo e.writeIo

def Cluster.atomicCas (addr expected desired : UInt64) (e : Env) :
    Option UInt64 × Memories :=
  c.atomic n mems addr e fun hd mem => atomicCompareExchangeUint64 hd mem addr expected desired e.readIo e.writeIo

/-! ## What a successful operation works on -/

variable {c : Cluster} {n : UInt32} {mems : Memories} {addr : UInt64} {e : Env}

variable {m : UInt32} {old : UInt64}

lemma Cluster.read_bytes {data : Buf} {size : ℕ} (hok : (c.read n mems addr data size e).1 = true)
    (hm : (c.readRoute n addr).memoryOf n = some m) {i : ℕ} (hi : i < size) :
    (c.read n mems addr data size e).2 i = mems m (byteOf (c.node m).header (addr + UInt64.ofNat i)) := by
  unfold Cluster.read at hok ⊢
  cases hr : c.readRoute n addr with
  | localMemory =>
    simp only [hr] at hok hm ⊢
    obtain rfl : n = m := by simpa [Route.memoryOf] using hm
    exact readCacheline_byte hok hi
  | message t =>
    simp only [hr] at hok hm ⊢
    have htm : t = m := by
      simp only [Route.memoryOf] at hm
      split_ifs at hm
      exact Option.some.inj hm
    subst htm
    split_ifs at hok ⊢ with h1 h2
    have hin : 0 ≤ i ∧ i < 0 + size := by omega
    change memcpy data 0 _ 0 size i = _
    rw [memcpy_of_mem hin, readCacheline_byte h2 (by omega), Nat.zero_add, Nat.sub_zero]
  | tcp t | rdma t => simp [hr, Route.memoryOf] at hm

@[simp] lemma setMemory_nil (m : UInt32) : setMemory mems m [] = mems := Function.update_eq_self m mems

/-- a write routed to node `m` stores bytes of its own addresses there, all of them if it returns 0 -/
lemma Cluster.write_stores (mems : Memories) (e : Env) (data : Buf) (size : ℕ)
    (hm : (c.writeRoute n addr).memoryOf n = some m) :
    ∃ stores, (c.write n mems addr data size e).2 = setMemory mems m stores ∧
      (∀ o v, (o, v) ∈ stores → ∃ i < size, o = byteOf (c.node m).header (addr + UInt64.ofNat i)) ∧
      ((c.write n mems addr data size e).1 = true →
        size ≤ 64 ∧ StoresBytes (c.node m).header addr data size stores) := by
  have own : ∀ hd o v, (o, v) ∈ (writeCacheline hd addr data size e.writeIo).2 →
      ∃ i < size, o = byteOf hd (addr + UInt64.ofNat i) := by
    intro hd o v h
    obtain ⟨i, hi, ho, -⟩ := writeCacheline_mem h
    exact ⟨i, hi, ho⟩
  unfold Cluster.write
  cases hr : c.writeRoute n addr with
  | localMemory =>
    obtain rfl : n = m := by simpa [hr, Route.memoryOf] using hm
    exact ⟨_, rfl, own _, fun hok => ⟨writeCacheline_size hok, storesBytes_writeCacheline hok⟩⟩
  | message t =>
    rw [hr, Route.memoryOf] at hm
    split_ifs at hm with hlt
    obtain rfl := Option.some.inj hm
    dsimp only
    split_ifs with hsent
    · exact ⟨_, rfl, own _, fun hok => ⟨writeCacheline_size hok, storesBytes_writeCacheline hok⟩⟩
    · exact ⟨[], (setMemory_nil t).symm, fun _ _ h => absurd h List.not_mem_nil, fun hok => absurd hok (by simp)⟩
  | tcp t | rdma t => simp [hr, Route.memoryOf] at hm

lemma AtomicResult.answer_some {r : AtomicResult} (h : (AtomicResult.answer r mems m).1 = some old) :
    r.ok = true ∧ r.oldValue = old := by
  simp only [AtomicResult.answer] at h
  split_ifs at h with hok
  exact ⟨hok, Option.some.inj h⟩

/-- an atomic routed to node `m` stores bytes of its own address there, those of the node's answer if it returns 0 -/
lemma Cluster.atomic_stores (mems : Memories) (e : Env) (act : Header → Buf → AtomicResult)
    (hact : ∀ hd mem o v, (o, v) ∈ (act hd mem).stores → ∃ i < 8, o = byteOf hd (addr + UInt64.ofNat i))
    (hm : (c.atomicRoute n addr).memoryOf n = some m) :
    ∃ stores, (c.atomic n mems addr e act).2 = setMemory mems m stores ∧
      (∀ o v, (o, v) ∈ stores → ∃ i < 8, o = byteOf (c.node m).header (addr + UInt64.ofNat i)) ∧
      ∀ old, (c.atomic n mems addr e act).1 = some old → stores = (act (c.node m).header (mems m)).stores ∧
        (act (c.node m).header (mems m)).ok = true ∧ (act (c.node m).header (mems m)).oldValue = old := by
  unfold Cluster.atomic
  cases hr : c.atomicRoute n addr with
  | localMemory =>
    obtain rfl : n = m := by simpa [hr, Route.memoryOf] using hm
    exact ⟨_, rfl, hact _ _, fun old h => ⟨rfl, AtomicResult.answer_some h⟩⟩
  | message t =>
    rw [hr, Route.memoryOf] at hm
    split_ifs at hm with hlt
    obtain rfl := Option.some.inj hm
    dsimp only
    split_ifs with hsent
    · exact ⟨_, rfl, hact _ _, fun old h => ⟨rfl, AtomicResult.answer_some h⟩⟩
    · exact ⟨[], (setMemory_nil t).symm, fun _ _ h => absurd h List.not_mem_nil, fun _ h => nomatch h⟩
  | tcp t | rdma t => simp [hr, Route.memoryOf] at hm

lemma Cluster.atomic_some {act : Header → Buf → AtomicResult} (hok : (c.atomic n mems addr e act).1 = some old) :
    ∃ m, (c.atomicRoute n addr).memoryOf n = some m ∧ (act (c.node m).header (mems m)).ok = true ∧
      (act (c.node m).header (mems m)).oldValue = old := by
  unfold Cluster.atomic at hok
  cases hr : c.atomicRoute n addr with
  | localMemory =>
    simp only [hr] at hok
    exact ⟨n, rfl, AtomicResult.answer_some hok⟩
  | message t =>
    simp only [hr] at hok
    split_ifs at hok with h
    exact ⟨t, by simp [Route.memoryOf, h.1], AtomicResult.answer_some hok⟩
  | tcp t | rdma t => simp [hr] at hok

lemma Cluster.faa_word {value : UInt64} (hok : (c.atomicFaa n mems addr value e).1 = some old) :
    ∃ m, (c.atomicRoute n addr).memoryOf n = some m ∧ lineOffset addr + 8 ≤ 64 ∧
      old = loadWord (c.node m).header (mems m) addr := by
  obtain ⟨m, hm, h1, rfl⟩ := Cluster.atomic_some hok
  exact ⟨m, hm, atomicFetchAddUint64_line h1, atomicFetchAddUint64_old h1⟩

lemma Cluster.cas_word {expected desired : UInt64} (hok : (c.atomicCas n mems addr expected desired e).1 = some old) :
    ∃ m, (c.atomicRoute n addr).memoryOf n = some m ∧ lineOffset addr + 8 ≤ 64 ∧
      old = loadWord (c.node m).header (mems m) addr := by
  obtain ⟨m, hm, h1, rfl⟩ := Cluster.atomic_some hok
  exact ⟨m, hm, atomicCompareExchangeUint64_line h1, atomicCompareExchangeUint64_old h1⟩

lemma Cluster.faa_stores (mems : Memories) (e : Env) (value : UInt64)
    (hm : (c.atomicRoute n addr).memoryOf n = some m) :
    ∃ stores, (c.atomicFaa n mems addr value e).2 = setMemory mems m stores ∧
      (∀ o v, (o, v) ∈ stores → ∃ i < 8, o = byteOf (c.node m).header (addr + UInt64.ofNat i)) ∧
      ∀ old, (c.atomicFaa n mems addr value e).1 = some old →
        StoresWord (c.node m).header addr (old + value) stores := by
  obtain ⟨stores, hmems, hown, hsome⟩ := Cluster.atomic_stores mems e
    (fun hd mem => atomicFetchAddUint64 hd mem addr value e.readIo e.writeIo)
    (fun _ _ _ _ => atomicFetchAddUint64_mem) hm
  refine ⟨stores, hmems, hown, fun old h => ?_⟩
  obtain ⟨rfl, hok, rfl⟩ := hsome old h
  rw [atomicFetchAddUint64_old hok]
  exact atomicFetchAddUint64_stores hok

/-- a compare-and-exchange stores bytes of its own address; if it returns 0, the desired word in place of the expected
one -/
lemma Cluster.cas_stores (mems : Memories) (e : Env) (expected desired : UInt64)
    (hm : (c.atomicRoute n addr).memoryOf n = some m) :
    ∃ stores, (c.atomicCas n mems addr expected desired e).2 = setMemory mems m stores ∧
      (∀ o v, (o, v) ∈ stores → ∃ i < 8, o = byteOf (c.node m).header (addr + UInt64.ofNat i)) ∧
      ∀ old, (c.atomicCas n mems addr expected desired e).1 = some old →
        (old = expected → StoresWord (c.node m).header addr desired stores) ∧ (old ≠ expected → stores = []) := by
  obtain ⟨stores, hmems, hown, hsome⟩ := Cluster.atomic_stores mems e
    (fun hd mem => atomicCompareExchangeUint64 hd mem addr expected desired e.readIo e.writeIo)
    (fun _ _ _ _ => atomicCompareExchangeUint64_mem) hm
  refine ⟨stores, hmems, hown, fun old h => ?_⟩
  obtain ⟨rfl, hok, rfl⟩ := hsome old h
  rw [atomicCompareExchangeUint64_old hok]
  exact ⟨atomicCompareExchangeUint64_stores hok, atomicCompareExchangeUint64_none hok⟩

end CxlMemSim.Dist
