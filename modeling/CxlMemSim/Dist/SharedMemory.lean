/-
Is the memory of a cluster one shared memory? A write or atomic that returns 0 promises its bytes; one that fails
promises nothing about bytes it may have stored, and neither does a queued request handled after its caller gave up. A
write over TCP is answered 0 by a server without a handler, and stored nowhere.
-/
import CxlMemSim.Dist.Cluster

namespace CxlMemSim.Dist.SharedMemory

open CxlMemSim.Core CxlMemSim.Server

/-! ## Requests and answers -/

inductive Request where
  | read (addr : UInt64) (data : Buf) (size : ℕ)
  | write (addr : UInt64) (data : Buf) (size : ℕ)
  | faa (addr value : UInt64)
  | cas (addr expected desired : UInt64)

inductive Answer where
  | failed
  | read (data : Buf)
  | written
  | old (value : UInt64)

namespace Request

def addr : Request → UInt64
  | read addr _ _ => addr
  | write addr _ _ => addr
  | faa addr _ => addr
  | cas addr _ _ => addr

def size : Request → ℕ
  | read _ _ size => size
  | write _ _ size => size
  | faa _ _ => 8
  | cas _ _ _ => 8

def bytes (r : Request) : List UInt64 := (List.range r.size).map fun i => r.addr + UInt64.ofNat i

def route (c : Cluster) (n : UInt32) : Request → Route
  | read addr _ _ => c.readRoute n addr
  | write addr _ _ => c.writeRoute n addr
  | faa addr _ => c.atomicRoute n addr
  | cas addr _ _ => c.atomicRoute n addr

def perform (c : Cluster) (n : UInt32) (mems : Memories) (e : Env) : Request → Answer × Memories
  | read addr data size =>
    let got := c.read n mems addr data size e
    (if got.1 then .read got.2 else .failed, mems)
  | write addr data size =>
    let put := c.write n mems addr data size e
    (if put.1 then .written else .failed, put.2)
  | faa addr value =>
    let got := c.atomicFaa n mems addr value e
    (got.1.elim .failed .old, got.2)
  | cas addr expected desired =>
    let got := c.atomicCas n mems addr expected desired e
    (got.1.elim .failed .old, got.2)

end Request

abbrev Promised := UInt64 → Option UInt8

def setBytes (val : Promised) (addr : UInt64) (size : ℕ) (f : ℕ → Option UInt8) : Promised :=
  fun a => if (a - addr).toNat < size then f (a - addr).toNat else val a

def forget (val : Promised) : Request → Promised
  | .read _ _ _ => val
  | .write addr _ size => setBytes val addr size fun _ => none
  | .faa addr _ => setBytes val addr 8 fun _ => none
  | .cas addr _ _ => setBytes val addr 8 fun _ => none

def promise (val : Promised) : Request → Answer → Promised
  | .write addr data size, .written => setBytes val addr size fun i => some (data i)
  | .faa addr value, .old o => setBytes val addr 8 fun i => some (byteLE (o + value).toNat i)
  | .cas addr expected desired, .old o =>
    if o = expected then setBytes val addr 8 fun i => some (byteLE desired.toNat i) else val
  | r, _ => forget val r

def Agrees (val : Promised) : Request → Answer → Prop
  | .read addr _ size, .read data => ∀ i < size, ∀ v, val (addr + UInt64.ofNat i) = some v → data i = v
  | .faa addr _, .old o => ∀ i < 8, ∀ v, val (addr + UInt64.ofNat i) = some v → byteLE o.toNat i = v
  | .cas addr _ _, .old o => ∀ i < 8, ∀ v, val (addr + UInt64.ofNat i) = some v → byteLE o.toNat i = v
  | _, _ => True

/-! ## Runs -/

structure Op where
  node : UInt32
  request : Request
  env : Env
  late : Bool

structure Sys where
  mems : Memories
  val : Promised

def Op.route (c : Cluster) (op : Op) : Route := op.request.route c op.node

def Op.memory (c : Cluster) (op : Op) : Option UInt32 := (op.route c).memoryOf op.node

def Op.perform (c : Cluster) (op : Op) (s : Sys) : Answer × Memories := op.request.perform c op.node s.mems op.env

def step (c : Cluster) (s : Sys) (op : Op) : Sys :=
  { mems := (op.perform c s).2
    val := if op.late then forget s.val op.request else promise s.val op.request (op.perform c s).1 }

def start (mems : Memories) : Sys := ⟨mems, fun _ => none⟩

def Op.Sound (c : Cluster) (s : Sys) (op : Op) : Prop := op.late = false → Agrees s.val op.request (op.perform c s).1

/-- no operation takes a TCP or RDMA connection, and bytes are at one place exactly if they have one address -/
structure OnePlace (c : Cluster) (ops : List Op) : Prop where
  queues : ∀ op ∈ ops, (op.route c).overSocket = false
  places : ∀ op ∈ ops, ∀ op' ∈ ops, ∀ m ∈ op.memory c, ∀ m' ∈ op'.memory c, ∀ a ∈ op.request.bytes,
    ∀ a' ∈ op'.request.bytes, (a = a' ↔ c.locationOf m a = c.locationOf m' a')

/-! ## Bytes -/

variable {r : Request} {a : UInt64} {v : UInt8} {addr : UInt64} {val : Promised}

lemma mem_bytes {i : ℕ} (hi : i < r.size) : r.addr + UInt64.ofNat i ∈ r.bytes :=
  List.mem_map.mpr ⟨i, List.mem_range.mpr hi, rfl⟩

lemma add_sub_ofNat (a addr : UInt64) : addr + UInt64.ofNat (a - addr).toNat = a := by
  rw [UInt64.ofNat_toNat, UInt64.add_comm, UInt64.sub_add_cancel]

lemma sub_toNat {j : ℕ} (hj : j < 64) (h : addr + UInt64.ofNat j = a) : (a - addr).toNat = j := by
  rw [← h, UInt64.add_comm, UInt64.add_sub_cancel, UInt64.toNat_ofNat']
  omega

lemma sub_toNat_lt (h : a ∈ r.bytes) : (a - r.addr).toNat < r.size := by
  obtain ⟨j, hj, rfl⟩ := List.mem_map.mp h
  rw [UInt64.add_comm, UInt64.add_sub_cancel, UInt64.toNat_ofNat']
  exact (Nat.mod_le _ _).trans_lt (List.mem_range.mp hj)

lemma setBytes_some {size : ℕ}
    (h : setBytes val addr size (fun _ => none) a = some v) : ¬ (a - addr).toNat < size ∧ val a = some v := by
  unfold setBytes at h
  split_ifs at h with hlt
  exact ⟨hlt, h⟩

lemma forget_some (h : forget val r a = some v) : val a = some v := by
  cases r with
  | read addr data size => exact h
  | write addr data size | faa addr value | cas addr expected desired => exact (setBytes_some h).2

lemma promise_failed (val : Promised) (r : Request) : promise val r .failed = forget val r := by cases r <;> rfl

/-! ## Steps -/

variable {c : Cluster} {all : List Op} {s : Sys} {op : Op} {m : UInt32} {stores : List (ℕ × UInt8)}

/-- the memories hold what is promised about every byte that an operation of the run reaches -/
def Kept (c : Cluster) (all : List Op) (s : Sys) : Prop :=
  ∀ op ∈ all, ∀ a ∈ op.request.bytes, ∀ m ∈ op.memory c, ∀ v, s.val a = some v →
    s.mems m (byteOf (c.node m).header a) = v

section

variable (h : Kept c all s) (hplace : OnePlace c all) (hop : op ∈ all) (hm : m ∈ op.memory c)
include h hplace hop hm

lemma Kept.frame
    (hown : ∀ o v, (o, v) ∈ stores → ∃ i < op.request.size,
      o = byteOf (c.node m).header (op.request.addr + UInt64.ofNat i))
    {op' : Op} (hop' : op' ∈ all) (ha : a ∈ op'.request.bytes) {m' : UInt32} (hm' : m' ∈ op'.memory c)
    (hother : ¬ (a - op.request.addr).toNat < op.request.size) (hv : s.val a = some v) :
    setMemory s.mems m stores m' (byteOf (c.node m').header a) = v := by
  have hold := h op' hop' a ha m' hm' v hv
  by_cases hmm : m' = m
  · subst hmm
    rw [setMemory, Function.update_self]
    by_contra hne
    -- the byte was stored, so it is one of the operation's bytes, and so is the address
    obtain ⟨w, hw⟩ := exists_store_of_ne (fun heq => hne (heq.trans hold))
    obtain ⟨i, hi, ho⟩ := hown _ w hw
    have heq : a = op.request.addr + UInt64.ofNat i :=
      (hplace.places op' hop' op hop m' hm' m' hm a ha _ (mem_bytes hi)).mpr (congrArg (Location.mk m') ho)
    exact hother (sub_toNat_lt (heq ▸ mem_bytes hi))
  · rw [setMemory, Function.update_of_ne hmm]
    exact hold

lemma Kept.unknown
    (stores : List (ℕ × UInt8)) (hown : ∀ o v, (o, v) ∈ stores → ∃ i < op.request.size,
      o = byteOf (c.node m).header (op.request.addr + UInt64.ofNat i)) :
    Kept c all ⟨setMemory s.mems m stores, setBytes s.val op.request.addr op.request.size fun _ => none⟩ := by
  intro op' hop' a ha m' hm' v hv
  obtain ⟨hother, hval⟩ := setBytes_some hv
  exact h.frame hplace hop hm hown hop' ha hm' hother hval

lemma Kept.stored {data : Buf} (hsize : op.request.size ≤ 64)
    (hstores : StoresBytes (c.node m).header op.request.addr data op.request.size stores) :
    Kept c all ⟨setMemory s.mems m stores,
      setBytes s.val op.request.addr op.request.size fun i => some (data i)⟩ := by
  have hown : ∀ o v, (o, v) ∈ stores → ∃ i < op.request.size,
      o = byteOf (c.node m).header (op.request.addr + UInt64.ofNat i) := by
    intro o v hov
    obtain ⟨i, hi, ho, -⟩ := hstores.only o v hov
    exact ⟨i, hi, ho⟩
  intro op' hop' a ha m' hm' v hv
  dsimp only at hv ⊢
  unfold setBytes at hv
  split_ifs at hv with hin
  · have hadd := add_sub_ofNat a op.request.addr
    have hbyte := mem_bytes hin
    rw [hadd] at hbyte
    -- one address is at one place
    have hplaceEq := (hplace.places op' hop' op hop m' hm' m hm a ha a hbyte).mp rfl
    obtain rfl : m' = m := congrArg Location.node hplaceEq
    rw [setMemory, Function.update_self]
    have hmem := hstores.all _ hin
    rw [hadd] at hmem
    refine (storeAll_of_mem hmem ?_).trans (Option.some.inj hv)
    intro w hw
    obtain ⟨j, hj, ho, rfl⟩ := hstores.only _ w hw
    have heq : a = op.request.addr + UInt64.ofNat j :=
      (hplace.places op' hop' op hop m' hm' m' hm a ha _ (mem_bytes hj)).mpr (congrArg (Location.mk m') ho)
    rw [sub_toNat (by omega) heq.symm]
  · exact h.frame hplace hop hm hown hop' ha hm' hin hv

end

lemma unreached_message {n : UInt32} {r : Route} (hroute : r.overSocket = false) (hm : r.memoryOf n = none) :
    ∃ t, r = .message t ∧ ¬ t < maxNodes := by
  cases r with
  | localMemory => cases hm
  | message t =>
    refine ⟨t, rfl, fun hlt => ?_⟩
    rw [Route.memoryOf, if_pos hlt] at hm
    cases hm
  | tcp t | rdma t => cases hroute

lemma perform_unreached (hroute : (op.route c).overSocket = false) (hm : op.memory c = none) :
    op.perform c s = (.failed, s.mems) := by
  obtain ⟨n, r, e, late⟩ := op
  obtain ⟨t, hr, hlt⟩ := unreached_message hroute hm
  cases r with
  | read addr data size =>
    have hroute : c.readRoute n addr = .message t := hr
    simp [Op.perform, Request.perform, Cluster.read, hroute, hlt]
  | write addr data size =>
    have hroute : c.writeRoute n addr = .message t := hr
    simp [Op.perform, Request.perform, Cluster.write, hroute, hlt]
  | faa addr value =>
    have hroute : c.atomicRoute n addr = .message t := hr
    simp [Op.perform, Request.perform, Cluster.atomicFaa, Cluster.atomic, hroute, hlt]
  | cas addr expected desired =>
    have hroute : c.atomicRoute n addr = .message t := hr
    simp [Op.perform, Request.perform, Cluster.atomicCas, Cluster.atomic, hroute, hlt]

lemma kept_step (h : Kept c all s) (hplace : OnePlace c all) (hop : op ∈ all) : Kept c all (step c s op) := by
  cases hm : op.memory c with
  | none =>
    have hfail := perform_unreached (s := s) (hplace.queues op hop) hm
    intro op' hop' a ha m' hm' v hv
    simp only [step, hfail, promise_failed, ite_self] at hv ⊢
    exact h op' hop' a ha m' hm' v (forget_some hv)
  | some m =>
    obtain ⟨n, r, e, late⟩ := op
    cases r with
    | read addr data size =>
      have hval : (step c s ⟨n, .read addr data size, e, late⟩) = s := by
        simp only [step, Op.perform, Request.perform, forget]
        split_ifs <;> rfl
      rw [hval]
      exact h
    | write addr data size =>
      obtain ⟨stores, hmems, hown, hall⟩ := Cluster.write_stores s.mems e data size hm
      have hunknown := h.unknown hplace hop hm stores hown
      simp only [step, Op.perform, Request.perform, hmems]
      cases late with
      | true => exact hunknown
      | false =>
        by_cases hok : (c.write n s.mems addr data size e).1 = true
        · rw [if_pos hok]
          exact h.stored hplace hop hm (hall hok).1 (hall hok).2
        · rw [if_neg hok]
          exact hunknown
    | faa addr value =>
      obtain ⟨stores, hmems, hown, hall⟩ := Cluster.faa_stores s.mems e value hm
      have hunknown := h.unknown hplace hop hm stores hown
      simp only [step, Op.perform, Request.perform, hmems]
      cases late with
      | true => exact hunknown
      | false =>
        cases hans : (c.atomicFaa n s.mems addr value e).1 with
        | none => exact hunknown
        | some old => exact h.stored hplace hop hm (show 8 ≤ 64 by decide) (hall old hans)
    | cas addr expected desired =>
      obtain ⟨stores, hmems, hown, hall⟩ := Cluster.cas_stores s.mems e expected desired hm
      have hunknown := h.unknown hplace hop hm stores hown
      simp only [step, Op.perform, Request.perform, hmems]
      cases late with
      | true => exact hunknown
      | false =>
        cases hans : (c.atomicCas n s.mems addr expected desired e).1 with
        | none => exact hunknown
        | some old =>
          simp only [Option.elim_some, promise, Bool.false_eq_true, if_false]
          by_cases hfound : old = expected
          · rw [if_pos hfound]
            exact h.stored hplace hop hm (show 8 ≤ 64 by decide) ((hall old hans).1 hfound)
          · rw [if_neg hfound, (hall old hans).2 hfound, setMemory_nil]
            exact h

lemma byteLE_loadWord {hd : Header} {mem : Buf} (hline : lineOffset addr + 8 ≤ 64) {i : ℕ} (hi : i < 8) :
    byteLE (loadWord hd mem addr).toNat i = mem (byteOf hd (addr + UInt64.ofNat i)) := by
  have hlt := loadLE_lt mem (byteOf hd addr) 8
  have hword : (loadWord hd mem addr).toNat = loadLE mem (byteOf hd addr) 8 := by
    rw [loadWord, UInt64.toNat_ofNat']
    omega
  rw [hword, byteLE_loadLE mem hi, byteOf_add hd (by omega)]

/-- Answer. While every promise is kept, an operation that returns 0 returns what is promised. -/
lemma sound_of_kept (h : Kept c all s) (hplace : OnePlace c all) (hop : op ∈ all) : op.Sound c s := by
  intro hlate
  cases hm : op.memory c with
  | none =>
    rw [perform_unreached (hplace.queues op hop) hm]
    unfold Agrees
    split <;> trivial
  | some m =>
    obtain ⟨n, r, e, late⟩ := op
    have hbyte : ∀ i < r.size, ∀ v, s.val (r.addr + UInt64.ofNat i) = some v →
        s.mems m (byteOf (c.node m).header (r.addr + UInt64.ofNat i)) = v :=
      fun i hi v => h _ hop _ (mem_bytes hi) m hm v
    have hword : ∀ {old}, (∃ m', Op.memory c ⟨n, r, e, late⟩ = some m' ∧ lineOffset r.addr + 8 ≤ 64 ∧
        old = loadWord (c.node m').header (s.mems m') r.addr) → ∀ i < 8, i < r.size → ∀ v,
        s.val (r.addr + UInt64.ofNat i) = some v → byteLE old.toNat i = v := by
      rintro _ ⟨m', hm', hline, rfl⟩ i hi hsize v hv
      obtain rfl : m' = m := Option.some.inj (hm'.symm.trans hm)
      rw [byteLE_loadWord hline hi]
      exact hbyte i hsize v hv
    cases r with
    | read addr data size =>
      simp only [Op.perform, Request.perform]
      split_ifs with hok
      · intro i hi v hv
        exact (Cluster.read_bytes hok hm hi).trans (hbyte i hi v hv)
      · trivial
    | write addr data size =>
      simp only [Op.perform, Request.perform]
      split_ifs <;> trivial
    | faa addr value =>
      simp only [Op.perform, Request.perform]
      cases hans : (c.atomicFaa n s.mems addr value e).1 with
      | none => trivial
      | some old => exact fun i hi => hword (Cluster.faa_word hans) i hi hi
    | cas addr expected desired =>
      simp only [Op.perform, Request.perform]
      cases hans : (c.atomicCas n s.mems addr expected desired e).1 with
      | none => trivial
      | some old => exact fun i hi => hword (Cluster.cas_word hans) i hi hi

/-- In such runs every operation that returns 0 returns what was promised. -/
theorem shared_memory (c : Cluster) (mems : Memories) (ops : List Op) (hplace : OnePlace c ops) :
    AllSteps (step c) (fun s op => op.Sound c s) (start mems) ops := by
  have hstart : Kept c ops (start mems) := fun _ _ _ _ _ _ v hv => absurd hv.symm (Option.some_ne_none v)
  have hmem : ∀ (s : Sys) (rest : List Op), (∀ op ∈ rest, op ∈ ops) →
      AllSteps (step c) (fun _ op => op ∈ ops) s rest := by
    intro s rest
    induction rest generalizing s with
    | nil => intro _; trivial
    | cons op rest ih =>
      intro h
      exact ⟨h op List.mem_cons_self, ih _ fun op' hop' => h op' (List.mem_cons_of_mem op hop')⟩
  exact allSteps_of_inv (P := Kept c ops) (fun s op h hop => kept_step h hplace hop)
    (fun s op h hop => sound_of_kept h hplace hop) hstart (hmem _ ops fun _ h => h)

/-! ## Two nodes -/

/-- node 1 holds four lines from 0x1000 on, every other node four from 0x2000 on -/
def twoNodes (connected : Bool) : Cluster where
  node := fun n =>
    { hdmDecoder := some ⟨.rangeBased, [⟨0x1000, 0x100, 1, false⟩], .unset, false⟩
      header := ⟨.mapped, if n = 1 then 0x1000 else 0x2000, 4⟩
      shmSize := 0x100
      transportMode := .tcp
      tcpConnected := fun t => connected && t = 1
      rdmaConnected := fun _ => false }

def allWell : Env := ⟨true, true, fun _ => 0, fun _ => true, fun _ => true⟩

def writeAddRead : List Op :=
  [⟨0, .write 0x1000 (fun _ => 7) 8, allWell, false⟩, ⟨1, .faa 0x1000 5, allWell, false⟩,
    ⟨0, .read 0x1000 (fun _ => 0) 8, allWell, false⟩]

lemma onePlace_writeAddRead : OnePlace (twoNodes false) writeAddRead := by
  have hmemory : ∀ op ∈ writeAddRead, op.memory (twoNodes false) = some 1 := by
    simp only [writeAddRead, List.forall_mem_cons]
    exact ⟨by decide, by decide, by decide, by simp⟩
  have hrange : ∀ op ∈ writeAddRead, op.request.addr = 0x1000 ∧ op.request.size = 8 := by
    simp only [writeAddRead, List.forall_mem_cons]
    exact ⟨⟨rfl, rfl⟩, ⟨rfl, rfl⟩, ⟨rfl, rfl⟩, by simp⟩
  have hbytes : ∀ op ∈ writeAddRead, ∀ a ∈ op.request.bytes, ∃ i < 8, (0x1000 : UInt64) + UInt64.ofNat i = a := by
    intro op hop a ha
    obtain ⟨i, hi, rfl⟩ := List.mem_map.mp ha
    obtain ⟨haddr, hsize⟩ := hrange op hop
    exact ⟨i, hsize ▸ List.mem_range.mp hi, by rw [haddr]⟩
  refine ⟨?_, ?_⟩
  · simp only [writeAddRead, List.forall_mem_cons]
    exact ⟨by decide, by decide, by decide, by simp⟩
  · intro op hop op' hop' m hm m' hm' a ha a' ha'
    obtain rfl := Option.some.inj ((hmemory op hop).symm.trans hm)
    obtain rfl := Option.some.inj ((hmemory op' hop').symm.trans hm')
    obtain ⟨i, hi, rfl⟩ := hbytes op hop a ha
    obtain ⟨j, hj, rfl⟩ := hbytes op' hop' a' ha'
    -- the bytes of one line lie next to each other
    have hline : lineOffset 0x1000 = 0 := by decide
    refine ⟨fun h => congrArg _ h, fun h => ?_⟩
    have hoffset := congrArg Location.offset h
    simp only [Cluster.locationOf] at hoffset
    rw [byteOf_add _ (by omega), byteOf_add _ (by omega)] at hoffset
    rw [Nat.add_left_cancel hoffset]

theorem shared_memory_queues :
    AllSteps (step (twoNodes false)) (fun s op => op.Sound (twoNodes false) s) (start fun _ _ => 0) writeAddRead :=
  shared_memory _ _ _ onePlace_writeAddRead

def writeRead : List Op :=
  [⟨0, .write 0x1000 (fun _ => 7) 1, allWell, false⟩, ⟨1, .read 0x1000 (fun _ => 0) 1, allWell, false⟩]

/-- the write of 7 over TCP returns 0 and stores nothing; the read at its home returns the old byte -/
theorem tcp_write_lost : (twoNodes true).write 0 (fun _ _ => 0) 0x1000 (fun _ => 7) 1 allWell = (true, fun _ _ => 0) ∧
    ((twoNodes true).read 1 (fun _ _ => 0) 0x1000 (fun _ => 0) 1 allWell).1 = true ∧
    ((twoNodes true).read 1 (fun _ _ => 0) 0x1000 (fun _ => 0) 1 allWell).2 0 = 0 ∧
    ¬ AllSteps (step (twoNodes true)) (fun s op => op.Sound (twoNodes true) s) (start fun _ _ => 0) writeRead := by
  have hroute : (twoNodes true).writeRoute 0 0x1000 = .tcp 1 := by decide
  have hlocal : (twoNodes true).readRoute 1 0x1000 = .localMemory := by decide
  have hwrite : (twoNodes true).write 0 (fun _ _ => 0) 0x1000 (fun _ => 7) 1 allWell = (true, fun _ _ => 0) := by
    simp [Cluster.write, hroute, allWell]
  have hread : ((twoNodes true).read 1 (fun _ _ => 0) 0x1000 (fun _ => 0) 1 allWell).1 = true := by
    rw [Cluster.read, hlocal]
    decide
  have hbyte : ((twoNodes true).read 1 (fun _ _ => 0) 0x1000 (fun _ => 0) 1 allWell).2 0 = 0 :=
    Cluster.read_bytes hread (m := 1) (by rw [hlocal]; rfl) (by decide)
  refine ⟨hwrite, hread, hbyte, ?_⟩
  rintro ⟨-, hsound, -⟩
  have hagree := hsound rfl
  have hpromised : (step (twoNodes true) (start fun _ _ => 0) ⟨0, .write 0x1000 (fun _ => 7) 1, allWell, false⟩).val
      0x1000 = some 7 := by
    simp [step, Op.perform, Request.perform, start, hwrite, promise, setBytes]
  simp only [Op.perform, Request.perform, step, start, hwrite, hread, if_true] at hagree hpromised
  have hseven := hagree 0 (by decide) 7 hpromised
  rw [hbyte] at hseven
  exact absurd hseven (by decide)

end CxlMemSim.Dist.SharedMemory
