/-
Do the four operations of a node route an address to the same memory? `read` and `write` serve it locally if it decodes
to the node, lies in the local range, or has no target; the atomics only in the first case, and otherwise send to the
decoded target, `UINT32_MAX` included. Only reads and writes use TCP or RDMA.

Results: `same_memory_iff` (every cluster, node and address), `unresolved_atomic_refused` (an address without a target).
-/
import CxlMemSim.Dist.Cluster

namespace CxlMemSim.Dist

open CxlMemSim.Core CxlMemSim.Server

/-- a connection answers a read without any node's memory -/
structure SameMemory (c : Cluster) (n : UInt32) (addr : UInt64) : Prop where
  memory : (c.readRoute n addr).overSocket = false
  write : c.location n (c.writeRoute n addr) addr = c.location n (c.readRoute n addr) addr
  atomic : c.location n (c.atomicRoute n addr) addr = c.location n (c.readRoute n addr) addr
  faa_acts : ∀ (mems : Memories) (data : Buf) (e e' : Env) (value old : UInt64),
    (c.read n mems addr data 8 e).1 = true → (c.atomicFaa n mems addr value e').1 = some old →
      old = UInt64.ofNat (loadLE (c.read n mems addr data 8 e).2 0 8)
  cas_acts : ∀ (mems : Memories) (data : Buf) (e e' : Env) (expected desired old : UInt64),
    (c.read n mems addr data 8 e).1 = true → (c.atomicCas n mems addr expected desired e').1 = some old →
      old = UInt64.ofNat (loadLE (c.read n mems addr data 8 e).2 0 8)

/-- the decoded target is the node itself, or another one, outside the local range, to which reads go over the queues -/
def Cluster.OneRoute (c : Cluster) (n : UInt32) (addr : UInt64) : Prop :=
  let target := c.getNodeForAddress n addr
  target = n ∨
    (target ≠ noTarget ∧ c.isLocalAddress n addr = false ∧ c.forward n target = .message target)

/-! ## Locations -/

variable {c : Cluster} {n : UInt32} {addr : UInt64}

lemma location_inj {r r' : Route} (h : c.location n r addr = c.location n r' addr) : r.memoryOf n = r'.memoryOf n := by
  unfold Cluster.location at h
  cases hr : r.memoryOf n with
  | none =>
    rw [hr] at h
    exact (Option.map_eq_none_iff.mp h.symm).symm
  | some m =>
    rw [hr] at h
    obtain ⟨m', hm', heq⟩ := Option.map_eq_some_iff.mp h.symm
    rw [hm']
    exact congrArg (fun l => some l.node) heq.symm

lemma overSocket_forward (target : UInt32) :
    (c.forward n target).overSocket = false ↔ c.forward n target = .message target := by
  unfold Cluster.forward
  dsimp only
  split_ifs <;> simp [Route.overSocket]

lemma memoryOf_message (target : UInt32) :
    (Route.message target).memoryOf n = if target < maxNodes then some target else none := rfl

lemma readRoute_local (h : c.servesLocally n addr = true) : c.readRoute n addr = .localMemory := if_pos h

lemma readRoute_forward (h : c.servesLocally n addr = false) :
    c.readRoute n addr = c.forward n (c.getNodeForAddress n addr) := if_neg (by simp [h])

lemma atomicRoute_self (h : c.getNodeForAddress n addr = n) : c.atomicRoute n addr = .localMemory := if_pos h

lemma atomicRoute_other (h : c.getNodeForAddress n addr ≠ n) :
    c.atomicRoute n addr = .message (c.getNodeForAddress n addr) := if_neg h

/-- The routes lead to one memory, and none over a connection, exactly under `OneRoute`. -/
lemma memoryOf_eq_iff : (c.readRoute n addr).overSocket = false ∧
    (c.atomicRoute n addr).memoryOf n = (c.readRoute n addr).memoryOf n ↔ c.OneRoute n addr := by
  by_cases hself : c.getNodeForAddress n addr = n
  · have hserved : c.servesLocally n addr = true := by simp [Cluster.servesLocally, hself]
    rw [atomicRoute_self hself, readRoute_local hserved]
    exact iff_of_true ⟨rfl, rfl⟩ (.inl hself)
  · rw [atomicRoute_other hself, memoryOf_message]
    cases hserved : c.servesLocally n addr with
    | true =>
      -- a read is served here, an atomic goes to another node or is refused
      rw [readRoute_local hserved]
      refine iff_of_false ?_ ?_
      · rintro ⟨-, h⟩
        split_ifs at h with hlt
        · exact hself (Option.some.inj h)
        · cases h
      · rintro (h | ⟨htarget, hlocal, -⟩)
        · exact hself h
        · simp [Cluster.servesLocally, hself, htarget, hlocal] at hserved
    | false =>
      have hnot : c.getNodeForAddress n addr ≠ noTarget ∧ c.isLocalAddress n addr = false := by
        simpa [Cluster.servesLocally, hself, and_comm] using hserved
      rw [readRoute_forward hserved, overSocket_forward]
      constructor
      · rintro ⟨hmessage, -⟩
        exact .inr ⟨hnot.1, hnot.2, hmessage⟩
      · rintro (h | ⟨-, -, hmessage⟩)
        · exact absurd h hself
        · rw [hmessage]
          exact ⟨rfl, rfl⟩

lemma location_of_memoryOf {r r' : Route} (h : r.memoryOf n = r'.memoryOf n) :
    c.location n r addr = c.location n r' addr := by
  rw [Cluster.location, Cluster.location, h]

lemma read_word {mems : Memories} {data : Buf} {e : Env} (hok : (c.read n mems addr data 8 e).1 = true) {m : UInt32}
    (hm : (c.readRoute n addr).memoryOf n = some m) (hline : lineOffset addr + 8 ≤ 64) :
    UInt64.ofNat (loadLE (c.read n mems addr data 8 e).2 0 8) = loadWord (c.node m).header (mems m) addr := by
  have hbytes : ∀ i < 8, (c.read n mems addr data 8 e).2 (0 + i) = mems m (byteOf (c.node m).header addr + i) := by
    intro i hi
    rw [Nat.zero_add, Cluster.read_bytes hok hm hi, byteOf_add _ (by omega)]
  rw [loadWord, loadLE_congr hbytes]

/-- The four operations work on the same memory exactly at such addresses. -/
theorem same_memory_iff (c : Cluster) (n : UInt32) (addr : UInt64) : SameMemory c n addr ↔ c.OneRoute n addr := by
  constructor
  · intro h
    exact memoryOf_eq_iff.mp ⟨h.memory, location_inj h.atomic⟩
  · intro h
    obtain ⟨hmemory, hroute⟩ := memoryOf_eq_iff.mpr h
    refine ⟨hmemory, rfl, location_of_memoryOf hroute, ?_, ?_⟩
    · intro mems data e e' value old hread hfaa
      obtain ⟨m, hm, hline, hword⟩ := Cluster.faa_word hfaa
      rw [read_word hread (hroute ▸ hm) hline, hword]
    · intro mems data e e' expected desired old hread hcas
      obtain ⟨m, hm, hline, hword⟩ := Cluster.cas_word hcas
      rw [read_word hread (hroute ▸ hm) hline, hword]

def oneNode : Cluster where
  node := fun _ =>
    { hdmDecoder := some ⟨.rangeBased, [⟨0, 0x1000, 1, false⟩], .unset, false⟩
      header := ⟨.mapped, 0, 4⟩
      shmSize := 0x1000
      transportMode := .shm
      tcpConnected := fun _ => false
      rdmaConnected := fun _ => false }

/-- 0x4000 is not in the range of node 1: reads and writes work on its byte 0, an atomic asks node `UINT32_MAX` -/
theorem unresolved_atomic_refused : oneNode.location 1 (oneNode.readRoute 1 0x4000) 0x4000 = some ⟨1, 0⟩ ∧
    oneNode.location 1 (oneNode.writeRoute 1 0x4000) 0x4000 = some ⟨1, 0⟩ ∧
    oneNode.atomicRoute 1 0x4000 = .message noTarget ∧
    (∀ mems value e, (oneNode.atomicFaa 1 mems 0x4000 value e).1 = none) ∧
    (∀ mems expected desired e, (oneNode.atomicCas 1 mems 0x4000 expected desired e).1 = none) ∧
    ¬ SameMemory oneNode 1 0x4000 := by
  have hroute : oneNode.atomicRoute 1 0x4000 = .message noTarget := by decide
  have hnone : ∀ mems e act, (oneNode.atomic 1 mems 0x4000 e act).1 = none := by
    intro mems e act
    have hbound : ¬ (noTarget < maxNodes) := by decide
    simp [Cluster.atomic, hroute, hbound]
  refine ⟨by decide, by decide, hroute, fun _ _ _ => hnone _ _ _, fun _ _ _ _ => hnone _ _ _, ?_⟩
  intro h
  exact absurd h.atomic (by decide)

end CxlMemSim.Dist
