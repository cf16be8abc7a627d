/-
Does a GPU command execute on exactly what its own API call wrote?

Model: every step on BAR2 is one step of a `Core.System`. The lock is `flock` on the process's one open file
description: it excludes other processes, not threads of the same one.
-/
import CxlMemSim.Guest.Contained

namespace CxlMemSim.Guest

open CxlMemSim.Core

section System

variable {T P : Type}

def guest (proc : T → P) (dev : Gpu) : Setup T P ApiCall Cell UInt64 Command Completion Process UInt32 :=
  ⟨proc, dev, ApiCall.script⟩

def opened (pid : P → UInt32) (p : P) : Process := ⟨pid p, 0, false⟩

end System

/-! ## A device -/

def zeroDevice : Gpu where
  consumes := Input
  exec := fun cmd _ content =>
    (.done false success, [(.result 0, 0), (.result 1, 0), (.result 2, 0), (.result 3, 0)] ++
      windowCells .data 0 (List.replicate (replyLength cmd success content fun _ => 0) 0))

lemma mem_zeroDevice_exec {cmd : Command} {n : ℕ} {content : Cell → UInt64} {w : Cell × UInt64}
    (h : w ∈ (zeroDevice.exec cmd n content).2) : w.2 = 0 := by
  simp only [zeroDevice, List.mem_append, windowCells, List.mem_mapIdx, List.getElem_replicate] at h
  rcases h with h | ⟨i, _, rfl⟩
  · fin_cases h <;> rfl
  · rfl

section

variable (cmd : Command) (n : ℕ) (content : Cell → UInt64)

lemma data_mem_zeroDevice_exec (off : ℕ) :
    .data off ∈ (zeroDevice.exec cmd n content).2.map Prod.fst ↔ off < replyLength cmd success content fun _ => 0 := by
  simp [zeroDevice, mem_windowCells]

lemma result_mem_zeroDevice_exec (i : Fin 4) : .result i ∈ (zeroDevice.exec cmd n content).2.map Prod.fst := by
  simp only [zeroDevice, List.map_append, List.mem_append]
  left
  fin_cases i <;> simp

end

lemma zeroDevice_content (r : Region Cell UInt64) (cmd : Command) {c : Cell}
    (h : c ∈ (zeroDevice.exec cmd r.submissions r.content).2.map Prod.fst) : (r.submit zeroDevice cmd).content c = 0 :=
  Region.store_content_const _ _ (fun _ hw => mem_zeroDevice_exec hw) h

lemma zeroDevice_replyLength (r : Region Cell UInt64) (cmd : Command) :
    replyLength cmd success r.content (r.submit zeroDevice cmd).content =
      replyLength cmd success r.content fun _ => 0 := by
  have hresult : ∀ i, (r.submit zeroDevice cmd).content (.result i) = 0 := fun i =>
    zeroDevice_content r cmd (result_mem_zeroDevice_exec cmd _ _ i)
  by_cases hcmd : cmd = .graphKernelNodeGetParams
  · subst hcmd
    have hzero : ∀ off < 48, window (r.submit zeroDevice .graphKernelNodeGetParams).content off = 0 := by
      intro off hoff
      rw [window, zeroDevice_content r _ ((data_mem_zeroDevice_exec _ _ _ off).mpr ?_)]
      · rfl
      · rw [replyLength, if_pos rfl, graphKernelNodeParamsSize]; omega
    have hargs : loadLE (window (r.submit zeroDevice .graphKernelNodeGetParams).content) 32 4 =
        loadLE (window fun _ => 0) 32 4 := loadLE_congr fun i hi => hzero _ (by omega)
    have hextent : loadLE (window (r.submit zeroDevice .graphKernelNodeGetParams).content) 40 8 =
        loadLE (window fun _ => 0) 40 8 := loadLE_congr fun i hi => hzero _ (by omega)
    simp only [replyLength, hargs, hextent]
  · unfold replyLength
    split <;> simp_all

lemma zeroDevice_protocol : Protocol zeroDevice where
  inputs _ _ _ h := h
  reply r cmd result off hdone h := by
    obtain rfl : success = result := (Completion.done.inj hdone).2
    exact (data_mem_zeroDevice_exec _ _ _ _).mpr (lt_of_lt_of_eq h (zeroDevice_replyLength r cmd))

lemma zeroDevice_relied (r : Region Cell UInt64) (cmd : Command) : r.relied zeroDevice cmd :=
  ⟨success, rfl, fun i _ => result_mem_zeroDevice_exec cmd _ _ i⟩

/-! ## Runs in which inputs mix -/

def copyCall : ApiCall :=
  @ApiCall.run true (cuMemcpyHtoD_v2 0x1000 (fun _ => 1) 1 none) .cuMemcpyHtoD fun reply => .ret reply.result

def memsetCall : ApiCall := @ApiCall.run false (cuMemsetD8_v2 0x2000 0 1) .cuMemsetD8 fun reply => .ret reply.result

/-- process 0 has put its byte into the window under the lock, the unlocked call of process 1 puts its own there -/
def memsetRun : List (Event (Fin 2) ApiCall) :=
  [.call 0 copyCall, .call 1 memsetCall, .next 0, .next 0, .next 1] ++ List.replicate 8 (.next 0)

/-- two threads of one process are inside the lock; the second writes over the first's parameters -/
def sharedRun : List (Event (Fin 2) ApiCall) :=
  [.call 0 copyCall, .call 1 copyCall, .next 0, .next 1, .next 0, .next 1] ++ List.replicate 8 (.next 0) ++
    [.next 1, .next 1]

def peerCall : ApiCall := @ApiCall.run false (cxlP2pGetPeerInfo 7) .cxlP2pGetPeerInfo fun reply => .ret reply.result

def allocCall : ApiCall := @ApiCall.run true (cuMemAlloc_v2 64) .cuMemAlloc fun reply => .ret reply.result

/-- the unlocked call of process 1 has submitted, process 0 executes a command, process 1 reads its results -/
def peerRun : List (Event (Fin 2) ApiCall) :=
  [.call 0 allocCall, .call 1 peerCall] ++ List.replicate 9 (.next 1) ++ List.replicate 8 (.next 0)

def twoProcesses : Setup (Fin 2) (Fin 2) ApiCall Cell UInt64 Command Completion Process UInt32 := guest id zeroDevice

def oneProcess : Setup (Fin 2) Unit ApiCall Cell UInt64 Command Completion Process UInt32 :=
  guest (fun _ => ()) zeroDevice

/-- the device conforms, and still a command consumes a byte or register of another call, or a call reads another's
results -/
theorem inputs_mixed : Protocol zeroDevice ∧ ¬ AllSteps twoProcesses.step twoProcesses.Own
      (twoProcesses.start (fun _ => 0) (opened fun p => .ofNat p.val)) (memsetRun ++ [.next 0]) ∧
    ¬ AllSteps twoProcesses.step twoProcesses.Own
      (twoProcesses.start (fun _ => 0) (opened fun p => .ofNat p.val)) (peerRun ++ [.next 1]) ∧
    ¬ AllSteps oneProcess.step oneProcess.Own
      (oneProcess.start (fun _ => 0) (opened fun _ => 0)) (sharedRun ++ [.next 0]) := by
  refine ⟨zeroDevice_protocol, fun h => ?_, fun h => ?_, fun h => ?_⟩
  · -- the copy consumes the byte of the memset
    have hlast := ((allSteps_append _ _ _ memsetRun [.next 0]).mp h).2.1
    exact absurd (hlast _ rfl (.data 0) (show 0 < UInt64.toNat _ by decide)) (by decide)
  · -- the peer query reads the result of the allocation
    have hlast := ((allSteps_append _ _ _ peerRun [.next 1]).mp h).2.1
    obtain ⟨n, hn, ho⟩ := hlast _ rfl (.result 0) List.mem_cons_self
    obtain rfl : 0 = n := Option.some.inj hn
    exact absurd ho (by decide)
  · -- the copy of one thread runs with the destination of the other
    have hlast := ((allSteps_append _ _ _ sharedRun [.next 0]).mp h).2.1
    exact absurd (hlast _ rfl (.param 0) (show 0 < 2 by decide)) (by decide)

section Orderly

variable {T P : Type} [DecidableEq T] [DecidableEq P]

/-- no other thread of the process is inside a call, a call to a function without the lock has none beside it, and every
command is completed without error and with the results its call reads -/
abbrev OrderlyCalls (proc : T → P) (dev : Gpu) : (guest proc dev).Sys → Event T ApiCall → Prop :=
  (guest proc dev).Orderly fun c => ¬ c.Locked

/-- With a conforming device, in every orderly run commands consume only what their own call wrote, and calls read back
only their own results. -/
theorem commands_isolated (proc : T → P) (dev : Gpu) (hdev : Protocol dev) (content : Cell → UInt64) (pid : P → UInt32)
    (es : List (Event T ApiCall))
    (h : AllSteps (guest proc dev).step (OrderlyCalls proc dev) ((guest proc dev).start content (opened pid)) es) :
    AllSteps (guest proc dev).step (guest proc dev).Own ((guest proc dev).start content (opened pid)) es := by
  have hsafe : ∀ c, (guest proc dev).Safe (fun c => ¬ c.Locked) Usable c := by
    intro c id v hheld halone husable
    refine Script.ok_mono (fun _ w hw => ?_) (c.contained hdev id v.alone v halone ⟨hheld, rfl, husable⟩)
    exact ⟨hw.held, hw.usable⟩
  have hopened : ∀ p, Usable (opened pid p) := fun _ => rfl
  exact Setup.own_of_orderly hsafe content hopened h

end Orderly

lemma copyCall_locked : copyCall.Locked := ⟨rfl, fun _ => trivial⟩

theorem commands_isolated_two_copies :
    AllSteps twoProcesses.step twoProcesses.Own (twoProcesses.start (fun _ => 0) (opened fun p => .ofNat p.val))
      (.call 0 copyCall :: .call 1 copyCall :: (List.replicate 16 [.next 0, .next 1]).flatten) := by
  refine commands_isolated id zeroDevice zeroDevice_protocol _ _ _ ⟨?_, ?_, ?_⟩
  · intro t r _ hr
    cases hr
  · intro t r hne hr
    obtain rfl : t = 0 := by omega
    obtain rfl : _ = r := Option.some.inj hr
    exact ⟨by decide, not_not.mpr copyCall_locked, not_not.mpr copyCall_locked⟩
  · simp [List.replicate, AllSteps, Setup.Orderly, OrderlyCalls, guest, zeroDevice_relied]

end CxlMemSim.Guest
