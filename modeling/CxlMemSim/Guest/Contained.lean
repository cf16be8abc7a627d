/-
Every function of the guest CUDA library that takes the lock is safe on BAR2 wherever it begins, every other while no
other call is in progress.
-/
import CxlMemSim.Guest.Api

namespace CxlMemSim.Guest

open CxlMemSim.Core List

/-! ## Phases of a call -/

structure Phase (held : Bool) (alone : Prop) (w : Sight) : Prop where
  held : w.held = held
  alone : w.alone = alone
  usable : Usable w.own

/-- the script begins and ends outside the lock, and is safe if alone whenever it `needs` to be -/
def Contained {α : Type} (dev : Gpu) (needs : Prop) (s : Bar2 α) : Prop :=
  ∀ id alone w, (needs → alone) → Phase false alone w → s.Ok dev id (fun _ w => Phase false alone w) w

section Phases

variable {dev : Gpu} {id : ℕ} {held : Bool} {alone : Prop} {w : Sight} {α : Type}

lemma Phase.exclusive (h : Phase true alone w) : w.exclusive := .inl h.held

lemma Phase.lock {Q : Unit → Sight → Prop} (h : Phase false alone w) (hQ : ∀ w', Phase true alone w' → Q () w') :
    cmdLock.Ok dev id Q w := cmdLock_ok h.held fun _ => hQ _ ⟨rfl, h.alone, h.usable⟩

lemma Phase.unlock {Q : Unit → Sight → Prop} (h : Phase true alone w) (hQ : ∀ w', Phase false alone w' → Q () w') :
    cmdUnlock.Ok dev id Q w := cmdUnlock_ok h.held (hQ _ ⟨rfl, h.alone, h.usable⟩)

lemma Phase.store {cells : List (Cell × UInt64)} (h : Phase held alone w) : Phase held alone (w.store id cells) :=
  ⟨h.held, h.alone, h.usable⟩

lemma Phase.wrote {u : Sight} (h : Phase held alone w) (hw : Wrote id w u) : Phase held alone u :=
  ⟨hw.held.trans h.held, hw.alone.trans h.alone, hw.own ▸ h.usable⟩

lemma Phase.leave {a : α} (h : Phase true alone w) :
    (do cmdUnlock; pure a : Bar2 α).Ok dev id (fun _ w => Phase false alone w) w := by
  rw [Script.ok_bind]
  exact h.unlock fun _ h => h

variable {cmd : Command} {ps : List UInt64} {result : UInt32}

lemma Phase.answered {w' : Sight} (h : Phase held alone w) (ha : Answered cmd ps w result w') : Phase held alone w' :=
  ⟨ha.held.trans h.held, ha.alone.trans h.alone, ha.usable⟩

lemma Phase.command (hp : Protocol dev) {data : List (ℕ × List UInt8)} {Q : UInt32 → Sight → Prop}
    (h : Phase held alone w) (hx : w.exclusive) (hcov : Covers data ps cmd)
    (hQ : ∀ result w', Phase held alone w' → w'.exclusive → Answered cmd ps w result w' → Q result w') :
    (command data ps cmd).Ok dev id Q w :=
  command_ok hp h.usable hx hcov fun result w' ha => hQ result w' (h.answered ha) (ha.exclusive hx) ha

variable {Q : List UInt64 → Sight → Prop} {is : List (Fin 4)}

lemma readResults_ok (hx : w.exclusive)
    (hres : ∀ i ∈ is, w.Produced (.result i)) (hQ : ∀ xs, Q xs w) : (readResults is).Ok dev id Q w := by
  induction is generalizing Q with
  | nil => exact hQ []
  | cons i is ih =>
    simp only [readResults, Script.ok_bind, Script.ok_pure]
    exact regRead64_ok hx (hres i mem_cons_self) (ih (fun j hj => hres j (mem_cons_of_mem _ hj)) fun xs => hQ _)

lemma ok_ite {c : Prop} [Decidable c] {a b : Bar2 α} {Q : α → Sight → Prop}
    (ha : c → a.Ok dev id Q w) (hb : ¬ c → b.Ok dev id Q w) : (if c then a else b).Ok dev id Q w := by
  split_ifs with h
  · exact ha h
  · exact hb h

lemma readOnSuccess_ok (hx : w.exclusive) (hres : result = success → ∀ i ∈ is, w.Produced (.result i))
    (hQ : ∀ xs, Q xs w) : (readOnSuccess result is).Ok dev id Q w :=
  ok_ite (fun hok => readResults_ok hx (hres hok) hQ) (fun _ => hQ [])

variable {v : Sight}

lemma readable_onSuccess (hres : ∀ i ∈ resultsRead cmd (result = success), w.Produced (.result i))
    (hreads : is ⊆ resultsRead cmd true) : result = success → ∀ i ∈ is, w.Produced (.result i) :=
  fun hok i hi => hres i (by simpa [hok] using hreads hi)

lemma Answered.always (ha : Answered cmd ps v result w) (i : Fin 4) (hreads : ∀ ok, i ∈ resultsRead cmd ok) :
    w.Produced (.result i) := ha.results i (hreads _)

lemma Answered.success (ha : Answered cmd ps v success w) (i : Fin 4) (hreads : i ∈ resultsRead cmd true) :
    w.Produced (.result i) := ha.results i (by simpa using hreads)

end Phases

/-! ## The common shapes are safe -/

section Shapes

variable {dev : Gpu} {needs : Prop} {α β : Type}

lemma contained_pure (a : α) : Contained dev needs (pure a : Bar2 α) := fun _ _ _ _ h => h

lemma Contained.bind {s : Bar2 α} {f : α → Bar2 β} (hs : Contained dev needs s)
    (hf : ∀ a, Contained dev needs (f a)) : Contained dev needs (s >>= f) := by
  intro id alone w hn h
  rw [Script.ok_bind]
  exact Script.ok_mono (fun a w' h' => hf a id alone w' hn h') (hs id alone w hn h)

lemma contained_ite {c : Prop} [Decidable c] {a b : Bar2 α} (ha : c → Contained dev needs a)
    (hb : ¬ c → Contained dev needs b) : Contained dev needs (if c then a else b) := fun id alone w hn h =>
  ok_ite (fun hc => ha hc id alone w hn h) (fun hc => hb hc id alone w hn h)

def plain : Command → Bool
  | .memCopyHtod | .memCopyHtodAsync | .moduleLoadCubin | .launchKernel | .graphExecKernelNodeSetParams | .linkAddData
  | .streamBatchMemOp | .moduleLoadPtx | .funcGet | .moduleGetGlobal | .batchHtodAsync
  | .sourceRegisterBatchHtodDirectAsync => false
  | _ => true

variable {cmd : Command}

lemma not_payload_of_plain (h : plain cmd = true) (content : Cell → UInt64) (off : ℕ) :
    ¬ Payload cmd content off ∧ ¬ BatchPayload cmd content off := by
  cases cmd <;> first | exact ⟨fun h => h, fun h => h⟩ | cases h

variable {ps : List UInt64}

lemma covers_plain (h : (plain cmd && (arity cmd).ble ps.length && ps.length.ble 8) = true) : Covers [] ps cmd := by
  simp only [Bool.and_eq_true, Nat.ble_eq] at h
  have hno := not_payload_of_plain h.1.1
  exact ⟨h.1.2, h.2, by simp, fun _ _ off hoff => absurd hoff (hno _ off).1, fun _ off => (hno _ off).2⟩

variable {data : List (ℕ × List UInt8)}

lemma lockedCommand_contained (hp : Protocol dev) {always onSuccess : List (Fin 4)}
    (hreads : (∀ ok, always ⊆ resultsRead cmd ok) ∧ onSuccess ⊆ resultsRead cmd true) (hcov : Covers data ps cmd) :
    Contained dev needs (lockedCommand data ps cmd always onSuccess) := by
  intro id alone w _ h
  simp only [lockedCommand, Script.ok_bind, Script.ok_pure]
  refine h.lock fun w h => h.command hp h.exclusive hcov fun result w h hx ha => ?_
  refine readResults_ok hx (fun i hi => ha.always i fun ok => hreads.1 ok hi) fun _ =>
    readOnSuccess_ok hx (readable_onSuccess ha.results hreads.2) fun _ => ?_
  exact h.unlock fun w h => h

lemma unlockedCommand_contained (hp : Protocol dev) {onSuccess : List (Fin 4)} (hreads : onSuccess ⊆ resultsRead cmd true)
    (hcov : Covers data ps cmd) (hn : needs) : Contained dev needs (unlockedCommand data ps cmd onSuccess) := by
  intro id alone w hal h
  have hx : w.exclusive := .inr (h.alone ▸ hal hn)
  simp only [unlockedCommand, Script.ok_bind, Script.ok_pure]
  refine h.command hp hx hcov fun result w h hx ha => ?_
  exact readOnSuccess_ok hx (readable_onSuccess ha.results hreads) fun _ => h

lemma createCommand_contained (hp : Protocol dev) (hreads : ∀ ok, 0 ∈ resultsRead cmd ok) (hcov : Covers [] ps cmd) :
    Contained dev needs (createCommand ps cmd) := by
  intro id alone w _ h
  simp only [createCommand, Script.ok_bind, Script.ok_pure]
  refine h.lock fun w h => h.command hp h.exclusive hcov fun result w h hx ha => ?_
  exact regRead64_ok hx (ha.always 0 hreads) (h.unlock fun w h => h)

lemma copyLoop_contained {limit total : ℕ} {body : ℕ → ℕ → Bar2 Reply}
    (hbody : ∀ offset chunk, chunk ≤ limit → Contained dev needs (body offset chunk)) (fuel offset : ℕ) :
    Contained dev needs (copyLoop limit total body fuel offset) := by
  induction fuel generalizing offset with
  | zero => exact contained_pure _
  | succ fuel ih =>
    refine contained_ite (fun _ => ?_) fun _ => contained_pure _
    refine (hbody _ _ (min_le_right _ _)).bind fun reply => ?_
    refine contained_ite (fun _ => contained_pure _) fun _ => ?_
    exact (ih _).bind fun rest => contained_pure _

variable {alone : Prop} {id : ℕ} {pending : List UInt64} {w : Sight}

lemma directSourcesCompleteLocked_ok (hp : Protocol dev) {Q : UInt32 → Sight → Prop} (h : Phase true alone w)
    (hQ : ∀ result w', Phase true alone w' → Q result w') :
    (directSourcesCompleteLocked pending).Ok dev id Q w := by
  induction pending generalizing w with
  | nil => exact hQ _ w h
  | cons source rest ih =>
    refine ok_ite (fun _ => ih h) fun _ => ?_
    rw [Script.ok_bind]
    refine h.command hp h.exclusive (covers_plain rfl) fun result w h _ _ => ?_
    exact ok_ite (fun _ => hQ _ w h) fun _ => ih h

lemma drainCommand_contained (hp : Protocol dev)
    (hcov : Covers [] ps cmd) : Contained dev needs (drainCommand ps cmd pending) := by
  intro id alone w _ h
  simp only [drainCommand, Script.ok_bind]
  refine h.lock fun w h => h.command hp h.exclusive hcov fun result w h _ _ => ?_
  refine ok_ite (fun _ => ?_) (fun _ => ?_) <;> simp only [Script.ok_bind, Script.ok_pure]
  · exact directSourcesCompleteLocked_ok hp h fun result w h => h.unlock fun w h => h
  · exact h.unlock fun w h => h

lemma Phase.onSuccess (hp : Protocol dev) {k : UInt32 → Bar2 α} {a : UInt32 → α} (h : Phase false alone w)
    (hcov : Covers data ps cmd) (hk : ∀ v w', Phase true alone w' → w'.exclusive → Answered cmd ps v success w' →
      (k success).Ok dev id (fun _ w => Phase false alone w) w') :
    cmdLock.Ok dev id (fun _ w => (Guest.command data ps cmd).Ok dev id (fun result w =>
      (if result ≠ success then (do cmdUnlock; pure (a result)) else k result).Ok dev id
        (fun _ w => Phase false alone w) w) w) w := by
  refine h.lock fun w h => h.command hp h.exclusive hcov fun result w h hx ha => ?_
  refine ok_ite (fun _ => h.leave) fun hok => ?_
  obtain rfl : result = success := not_not.mp hok
  exact hk _ w h hx ha

lemma contextCreate_contained (hp : Protocol dev) (commit : UInt64 → UInt32) :
    Contained dev needs (contextCreate commit) := by
  intro id alone w _ h
  simp only [contextCreate, Script.ok_bind]
  refine h.lock fun w h => h.command hp h.exclusive (covers_plain rfl) fun result w h hx ha => ?_
  refine ok_ite (fun hok => ?_) (fun _ => ?_) <;> simp only [Script.ok_bind, Script.ok_pure]
  · obtain rfl := hok
    exact regRead64_ok hx (ha.success 0 (by decide)) (h.unlock fun w h => h)
  · exact h.unlock fun w h => h

end Shapes

/-! ## Functions with data -/

section Data

variable {dev : Gpu} {needs : Prop}

lemma toNat_ofNat_le (n : ℕ) : (UInt64.ofNat n).toNat ≤ n := by rw [UInt64.toNat_ofNat']; exact Nat.mod_le _ _

variable {cmd : Command} {off len : ℕ} {oom : Bool} {dst byteCount stream : UInt64}

variable {bytes : List UInt8} {ps : List UInt64}

section

variable (k : Fin 8) (hk : k.val < ps.length) (hlen : ((arity cmd).ble ps.length && ps.length.ble 8) = true)
  (hval : ps[k.val].toNat ≤ bytes.length)
include hk hlen hval

lemma covers_window (hfit : bytes.length ≤ dataSize)
    (hdata : ∀ content off, Payload cmd content off → off < (content (.param k)).toNat)
    (hbatch : ∀ content off, ¬ BatchPayload cmd content off) : Covers [(0, bytes)] ps cmd := by
  rw [Bool.and_eq_true, Nat.ble_eq, Nat.ble_eq] at hlen
  refine ⟨hlen.1, hlen.2, by simpa using hfit, fun content hps off hoff => ?_, hbatch⟩
  have hlt := hdata content off hoff
  rw [hps k hk] at hlt
  exact ⟨(0, bytes), by simp, Nat.zero_le _, by dsimp only; omega⟩

lemma covers_window_or_nothing {c : Prop} [Decidable c] (hnone : c → bytes.length = 0) (hfit : bytes.length ≤ dataSize)
    (hdata : ∀ content off, Payload cmd content off → off < (content (.param k)).toNat)
    (hbatch : ∀ content off, ¬ BatchPayload cmd content off) : Covers (if c then [] else [(0, bytes)]) ps cmd := by
  have hcov := covers_window k hk hlen hval hfit hdata hbatch
  split_ifs with h
  · refine ⟨hcov.arity, hcov.short, by simp, fun content hps off hoff => ?_, hbatch⟩
    obtain ⟨d, hd, hlo, hhi⟩ := hcov.payload content hps off hoff
    obtain rfl : d = (0, bytes) := by simpa using hd
    have := hnone h
    dsimp only at hlo hhi
    omega
  · exact hcov

end

lemma covers_memCopyHtod (bytes : List UInt8) (dst : UInt64) (hfit : bytes.length ≤ dataSize) :
    Covers [(0, bytes)] [dst, .ofNat bytes.length] .memCopyHtod :=
  covers_window 1 (by simp) rfl (toNat_ofNat_le _) hfit (fun _ _ h => h) (fun _ _ h => h)

variable {id : ℕ} {w : Sight}

lemma dataReadSome_ok {Q : List UInt8 → Sight → Prop} (hx : w.exclusive)
    (hc : ∀ i < len, w.Produced (.data (off + i))) (hfit : len ≠ 0 → off + len ≤ dataSize) (hQ : ∀ bytes, Q bytes w) :
    (dataReadSome off len).Ok dev id Q w :=
  ok_ite (fun _ => hQ []) fun h => dataRead_ok hx hc (hfit h) (hQ _)

variable {result : UInt32}

lemma Answered.readable {v : Sight} (ha : Answered cmd ps v result w)
    (hlen : ∀ before : Cell → UInt64, (∀ (i : Fin 8) (h : i.val < ps.length), before (.param i) = ps[i.val]) →
      off + len ≤ replyLength cmd result before w.region.content) : ∀ i < len, w.Produced (.data (off + i)) := by
  obtain ⟨before, hps, hreply⟩ := ha.reply
  intro i hi
  have := hlen before hps
  exact hreply _ (by omega)

variable (hp : Protocol dev)
include hp

lemma errorText_contained {error : UInt64} (hreads : ∀ ok, 0 ∈ resultsRead cmd ok) (hcov : Covers [] [error] cmd)
    (hreply : ∀ before after, replyLength cmd success before after = (after (.result 0)).toNat + 1) :
    Contained dev needs (errorText cmd error oom) := by
  intro id alone w _ h
  simp only [errorText, Script.ok_bind]
  refine h.lock fun w h => h.command hp h.exclusive hcov fun result w h hx ha => ?_
  refine regRead64_ok hx (ha.always 0 hreads) ?_
  refine ok_ite (fun _ => h.leave) fun hok => ?_
  refine ok_ite (fun _ => h.leave) fun hlen => ?_
  refine ok_ite (fun _ => h.leave) fun _ => ?_
  obtain rfl : result = success := not_not.mp hok
  simp only [Script.ok_bind]
  refine dataRead_ok hx (ha.readable fun before _ => by rw [hreply, Nat.zero_add]) (by omega) ?_
  exact h.unlock fun w h => ok_ite (fun _ => h) fun _ => h

variable {bar4 : Option UInt64} {src : Buf}

lemma cuMemcpyHtoD_contained : Contained dev needs (cuMemcpyHtoD_v2 dst src byteCount bar4) := by
  cases bar4 with
  | some base =>
    refine copyLoop_contained (fun _ _ _ => ?_) _ _
    exact lockedCommand_contained hp (by decide) (covers_plain rfl)
  | none =>
    refine copyLoop_contained (fun offset chunk hchunk => lockedCommand_contained hp (by decide) ?_) _ _
    simpa using covers_memCopyHtod (bytesAt src offset chunk) (dst + .ofNat offset) (by simpa using hchunk)

lemma cuMemcpyDtoH_contained {src : UInt64} : Contained dev needs (cuMemcpyDtoH_v2 src byteCount bar4) := by
  cases bar4 with
  | some base =>
    refine copyLoop_contained (fun _ _ _ => ?_) _ _
    exact lockedCommand_contained hp (by decide) (covers_plain rfl)
  | none =>
    refine copyLoop_contained (fun offset chunk hchunk => ?_) _ _
    intro id alone w _ h
    simp only [Script.ok_bind]
    refine h.onSuccess hp (covers_plain rfl) fun v w h hx ha => ?_
    simp only [Script.ok_bind]
    refine dataRead_ok hx (ha.readable fun before hps => ?_) (by omega) (h.unlock fun w h => h)
    have hlt : chunk < 2 ^ 64 := lt_of_le_of_lt hchunk (by decide)
    rw [replyLength, if_pos rfl, hps 1 (by simp)]
    exact (Nat.zero_add _).trans_le (Nat.mod_eq_of_lt hlt).ge

variable {alone : Prop} {route : HtodRoute}

lemma htodRouteAllocateLocked_ok {Q : Except UInt32 UInt64 → Sight → Prop} (h : Phase true alone w)
    (hQ : ∀ staged w', Phase true alone w' → Q staged w') : (htodRouteAllocateLocked route).Ok dev id Q w := by
  unfold htodRouteAllocateLocked
  cases route.staging with
  | some offset => exact hQ _ w h
  | none =>
    simp only [Script.ok_bind]
    refine h.command hp h.exclusive (covers_plain rfl) fun result w h hx ha => ?_
    refine ok_ite (fun _ => hQ _ w h) fun hok => ?_
    obtain rfl : result = success := not_not.mp hok
    simp only [Script.ok_bind]
    exact regRead64_ok hx (ha.success 0 (by decide)) (ok_ite (fun _ => hQ _ w h) fun _ => hQ _ w h)

lemma routeLoop_ok {target : ℕ} {staging : Option UInt64} {fuel offset : ℕ} {Q : UInt32 → Sight → Prop}
    (h : Phase true alone w) (hQ : ∀ result w', Phase true alone w' → Q result w') :
    (routeLoop route dst stream target staging fuel offset).Ok dev id Q w := by
  induction fuel generalizing staging offset w with
  | zero => exact hQ _ w h
  | succ fuel ih =>
    refine ok_ite (fun _ => ?_) fun _ => hQ _ w h
    simp only [Script.ok_bind]
    refine htodRouteAllocateLocked_ok hp h fun staged w h => ?_
    cases staged with
    | error result => exact hQ _ w h
    | ok base =>
      simp only [Script.ok_bind]
      refine h.command hp h.exclusive (covers_plain rfl) fun result w h _ _ => ?_
      exact ok_ite (fun _ => hQ _ w h) fun _ => ih h

lemma routePart_contained : Contained dev needs (routePart route dst stream byteCount) := by
  intro id alone w _ h
  simp only [routePart, Script.ok_bind]
  refine h.lock fun w h => ok_ite (fun _ => h.leave) fun _ => ?_
  rw [Script.ok_bind]
  exact routeLoop_ok hp h fun _ _ h => h.leave

lemma cuMemcpyHtoDAsync_contained {route : Option HtodRoute} :
    Contained dev needs (cuMemcpyHtoDAsync_v2 dst src byteCount stream route) := by
  have hrest : ∀ routed : UInt32 × ℕ, Contained dev needs (if routed.1 ≠ success then pure (Reply.code routed.1)
      else copyLoop dataSize byteCount.toNat (fun offset chunk => lockedCommand [(0, bytesAt src offset chunk)]
        [dst + .ofNat offset, .ofNat chunk, stream] .memCopyHtodAsync [] []) byteCount.toNat routed.2) := by
    intro routed
    refine contained_ite (fun _ => contained_pure _) fun _ => copyLoop_contained (fun offset chunk hchunk => ?_) _ _
    refine lockedCommand_contained hp (by decide) (covers_window 1 (by simp) rfl ?_ (by simpa using hchunk) (fun _ _ h => h)
      (fun _ _ h => h))
    simpa using toNat_ofNat_le chunk
  cases route with
  | none => exact (contained_pure _).bind hrest
  | some route => exact (routePart_contained hp).bind hrest

omit hp

variable {content : Cell → UInt64} {name : List UInt8}

lemma off_lt_cString (hdata : ∀ i (h : i < (cString name).length), content (.data i) = ((cString name)[i]).toUInt64)
    (hoff : ∀ j < off, content (.data j) ≠ 0) : off < (cString name).length := by
  by_contra hge
  have hlen : (cString name).length = (name.takeWhile (· ≠ 0)).length + 1 := by simp [cString]
  have hlast := hdata (name.takeWhile (· ≠ 0)).length (by omega)
  refine hoff (name.takeWhile (· ≠ 0)).length (by omega) (hlast.trans ?_)
  simp [cString]

lemma windowCells_fst (win : ℕ → Cell) (off : ℕ) (bytes : List UInt8) :
    (windowCells win off bytes).map Prod.fst = (List.range bytes.length).map fun i => win (off + i) :=
  ext_getElem (by simp [windowCells]) (by simp [windowCells])

lemma windowCells_content (r : Region Cell UInt64) (who : Origin) (win : ℕ → Cell) (hwin : Function.Injective win)
    (off : ℕ) {i : ℕ} (hi : i < bytes.length) :
    (r.store who (windowCells win off bytes)).content (win (off + i)) = (bytes[i]).toUInt64 := by
  refine r.store_content_of_mem who (List.mem_mapIdx.mpr ⟨i, hi, rfl⟩) ?_
  rw [windowCells_fst]
  exact List.nodup_range.map fun a b hab => Nat.add_left_cancel (hwin hab)

lemma input_string {origin : Cell → Origin} (name : List UInt8)
    (hcmd : cmd = .moduleLoadPtx ∨ cmd = .funcGet ∨ cmd = .moduleGetGlobal)
    (hparam : ∀ i : Fin 8, i.val < arity cmd → origin (.param i) = .call id)
    (hdata : ∀ i (h : i < (cString name).length),
      content (.data i) = ((cString name)[i]).toUInt64 ∧ origin (.data i) = .call id) :
    ∀ c, c ≠ .callId → Input cmd content c → origin c = .call id := by
  intro c hc hin
  cases c with
  | param i => exact hparam i hin
  | result i => exact hin.elim
  | callId => exact absurd rfl hc
  | data off =>
    have hoff : ∀ j < off, content (.data j) ≠ 0 := by rcases hcmd with rfl | rfl | rfl <;> exact hin
    exact (hdata off (off_lt_cString (fun i h => (hdata i h).1) hoff)).2
  | batch off => rcases hcmd with rfl | rfl | rfl <;> exact hin.elim

lemma Phase.completed {held : Bool} {w' : Sight}
    (h : Phase held alone w) (hc : Completed cmd w result w') : Phase held alone w' :=
  ⟨hc.held.trans h.held, hc.alone.trans h.alone, hc.usable⟩

include hp

lemma nameCommand_contained {module : UInt64}
    {onSuccess : List (Fin 4)} (hreads : onSuccess ⊆ resultsRead cmd true)
    (hcmd : cmd = .funcGet ∨ cmd = .moduleGetGlobal) : Contained dev needs (nameCommand module name cmd onSuccess) := by
  intro id alone w _ h
  simp only [nameCommand]
  refine ok_ite (fun _ => h) fun hfit => ?_
  simp only [Script.ok_bind]
  refine h.lock fun w h => regWrite64_ok h.usable h.exclusive ?_
  refine dataWrite_ok h.exclusive (by omega) (executeCmd_ok hp h.usable h.exclusive ?_ fun result w' hc => ?_)
  · refine input_string name (.inr hcmd) (fun i hi => ?_) fun i hi => ?_
    · obtain rfl : i = 0 := Fin.ext (by rcases hcmd with rfl | rfl <;> exact Nat.lt_one_iff.mp hi)
      exact (Wrote.store _ _).keeps _ (Region.store_origin_of_mem _ _ (by simp))
    · refine ⟨?_, Region.store_origin_of_mem _ _ (mem_windowCells.mpr ⟨i, hi, by rw [Nat.zero_add]⟩)⟩
      have := windowCells_content (w.store id [(.param 0, module)]).region (.call id) .data
        (fun a b hab => by simpa using hab) 0 hi
      rwa [Nat.zero_add] at this
  · have h' : Phase true alone w' := (h.store.store).completed hc
    exact readOnSuccess_ok h'.exclusive (readable_onSuccess hc.results hreads) fun _ => h'.leave

lemma cxlModuleLoadPtx_contained {image : List UInt8} (hn : needs) : Contained dev needs (cxlModuleLoadPtx image) := by
  intro id alone w hal h
  have hx : w.exclusive := .inr (h.alone ▸ hal hn)
  simp only [cxlModuleLoadPtx]
  refine ok_ite (fun _ => h) fun hfit => ?_
  simp only [Script.ok_bind]
  refine dataWrite_ok hx (by omega) (executeCmd_ok hp h.usable hx ?_ fun result w' hc => ?_)
  · refine input_string image (.inl rfl) (fun i hi => absurd hi (Nat.not_lt_zero _)) fun i hi => ?_
    refine ⟨?_, Region.store_origin_of_mem _ _ (mem_windowCells.mpr ⟨i, hi, by rw [Nat.zero_add]⟩)⟩
    have := windowCells_content w.region (.call id) .data (fun a b hab => by simpa using hab) 0 hi
    rwa [Nat.zero_add] at this
  · have h' : Phase false alone w' := h.store.completed hc
    exact readOnSuccess_ok (hc.exclusive hx) (readable_onSuccess hc.results (by decide)) fun _ => h'

lemma cxlModuleLoadCubin_contained {image : Buf} {imageSize encoding uncompressedSize : UInt64}
    (hn : needs) : Contained dev needs (cxlModuleLoadCubin image imageSize encoding uncompressedSize) := by
  refine contained_ite (fun _ => contained_pure _) fun hfit => unlockedCommand_contained hp (by decide) ?_ hn
  exact covers_window 0 (by simp) rfl (by simp) (by rw [length_bytesAt]; omega) (fun _ _ h => h) (fun _ _ h => h)

variable {n : UInt64}

lemma cuMemsetD8_contained {uc : UInt8} (hn : needs) : Contained dev needs (cuMemsetD8_v2 dst uc n) := by
  refine copyLoop_contained (fun offset chunk hchunk => unlockedCommand_contained hp (by decide) ?_ hn) _ _
  simpa using covers_memCopyHtod (bytesAt (fun _ => uc) offset chunk) (dst + .ofNat offset) (by simpa using hchunk)

lemma cuMemsetD32_contained {ui : UInt32} (hn : needs) : Contained dev needs (cuMemsetD32_v2 dst ui n) := by
  refine copyLoop_contained (fun done chunk hchunk => unlockedCommand_contained hp (by decide) ?_ hn) _ _
  have hfit : chunk * 4 ≤ dataSize := by omega
  simpa using covers_memCopyHtod (bytesAt (fun i => byteLE ui.toNat (i % 4)) 0 (chunk * 4)) (dst + .ofNat done * 4)
    (by simpa using hfit)

variable {cached : Option ParamLayout} {function : UInt64} {graph : UInt64} {state : UInt64}

lemma functionParamLayoutCopy_contained : Contained dev needs (functionParamLayoutCopy function cached oom) := by
  cases cached with
  | some layout => exact contained_pure _
  | none =>
    intro id alone w _ h
    simp only [functionParamLayoutCopy, Script.ok_bind]
    refine h.onSuccess hp (covers_plain rfl) fun v w h hx ha => ?_
    simp only [Script.ok_bind]
    refine dataRead_ok hx (ha.readable fun _ _ => le_of_eq (Nat.zero_add _)) (by decide) ?_
    refine regRead64_ok hx (ha.success 0 (by decide)) (h.unlock fun w h => ?_)
    split
    · exact h
    · exact h

lemma paramCommand_contained {args : ℕ → Option Buf} {ps : ParamLayout → List UInt64} (k : Fin 8)
    (hk : ∀ layout, ∃ h : k.val < (ps layout).length, (ps layout)[k.val] = .ofNat layout.extent)
    (hlen : ∀ layout, ((arity cmd).ble (ps layout).length && (ps layout).length.ble 8) = true)
    (hdata : ∀ content off, Payload cmd content off → off < (content (.param k)).toNat)
    (hbatch : ∀ content off, ¬ BatchPayload cmd content off) :
    Contained dev needs (paramCommand function cached oom args ps cmd) := by
  refine (functionParamLayoutCopy_contained hp).bind fun layout => ?_
  cases layout with
  | error result => exact contained_pure _
  | ok layout =>
    refine contained_ite (fun _ => contained_pure _) fun _ =>
      lockedCommand_contained hp ⟨fun _ => nil_subset _, nil_subset _⟩ ?_
    obtain ⟨hlt, hval⟩ := hk layout
    have hsize : ∀ args, (paramBuffer layout args).length = layout.extent := fun _ => length_bytesAt _ _ _
    refine covers_window_or_nothing k hlt (hlen layout) ?_ (fun h => (hsize _).trans h) ?_ hdata hbatch
    · rw [hval, hsize]; exact toNat_ofNat_le _
    · rw [hsize]; exact layout.fits

omit hp

lemma number_window (content : Cell → UInt64) {n : ℕ} (h : off + n ≤ len) :
    number ((List.range len).map fun i => window content (0 + i)) off n = loadLE (window content) off n := by
  refine loadLE_congr fun i hi => ?_
  have hlt : off + i < len := by omega
  simp [List.getD, hlt]

include hp

lemma cuGraphKernelNodeGetParams_contained {node : UInt64} {snapshot oomSnapshot : Bool} :
    Contained dev needs (cuGraphKernelNodeGetParams node snapshot oom oomSnapshot) := by
  intro id alone w _ h
  simp only [cuGraphKernelNodeGetParams, Script.ok_bind]
  refine h.lock fun w h => ok_ite (fun _ => h.leave) fun _ => ?_
  rw [Script.ok_bind]
  refine h.command hp h.exclusive (covers_plain rfl) fun result w h hx ha => ?_
  refine ok_ite (fun _ => h.leave) fun hok => ?_
  obtain rfl : result = success := not_not.mp hok
  rw [Script.ok_bind]
  have hreply : ∀ before, replyLength .graphKernelNodeGetParams success before w.region.content =
      graphKernelNodeParamsSize + loadLE (window w.region.content) 32 4 * kernelNodeParamSize +
        loadLE (window w.region.content) 40 8 := fun _ => by rw [replyLength, if_pos rfl]
  refine dataRead_ok hx (ha.readable fun _ _ => by rw [hreply]; omega) (by decide) ?_
  rw [number_window _ (by decide), number_window _ (by decide),
    number_window _ (by decide), number_window _ (by decide)]
  generalize loadLE (window w.region.content) 32 4 = numArgs at hreply ⊢
  generalize loadLE (window w.region.content) 40 8 = extent at hreply ⊢
  refine ok_ite (fun _ => h.leave) fun hshape => ok_ite (fun _ => h.leave) fun _ => ?_
  have hsizes : numArgs ≤ 64 ∧ graphKernelNodeParamsSize + numArgs * kernelNodeParamSize + extent ≤ dataSize := by
    simp only [not_or, maxKernelArgs, graphKernelNodeParamsSize, kernelNodeParamSize, dataSize] at hshape ⊢
    omega
  simp only [Script.ok_bind]
  refine dataReadSome_ok hx (ha.readable fun _ _ => by rw [hreply]) (fun _ => hsizes.2) fun _ => ?_
  refine dataReadSome_ok hx (ha.readable fun _ _ => by rw [hreply]; omega) (fun _ => by omega) fun _ => ?_
  exact h.unlock fun w h => h

lemma cuGraphInstantiate_contained {bufferSize : UInt64} {errorNode logBuffer : Bool} :
    Contained dev needs (cuGraphInstantiate graph bufferSize errorNode logBuffer) := by
  refine contained_ite (fun _ => contained_pure _) fun hsize => ?_
  intro id alone w _ h
  simp only [Script.ok_bind]
  refine h.lock fun w h => h.command hp h.exclusive (covers_plain rfl) fun result w h hx ha => ?_
  refine regRead64_ok hx (ha.always 0 (by decide)) (regRead64_ok hx (ha.always 1 (by decide)) ?_)
  refine dataReadSome_ok hx (ha.readable fun before hps => ?_) (fun _ => ?_) fun _ => h.unlock fun w h => h
  · have hflag : before (.param 3) = if logBuffer then 1 else 0 := hps 3 (by simp)
    have hlen : before (.param 1) = bufferSize := hps 1 (by simp)
    rw [replyLength, hflag, hlen]
    cases logBuffer <;> simp
  · split_ifs <;> omega

lemma cuGraphGetNodes_contained {capacity : Option UInt64} :
    Contained dev needs (cuGraphGetNodes graph capacity oom) := by
  refine contained_ite (fun _ => contained_pure _) fun hroom => ?_
  intro id alone w _ h
  simp only [Script.ok_bind]
  refine h.onSuccess hp (covers_plain rfl) fun v w h hx ha => ?_
  simp only [Script.ok_bind]
  refine regRead64_ok hx (ha.success 0 (by decide)) (ok_ite (fun _ => h.leave) fun hcount => ?_)
  refine ok_ite (fun _ => h.leave) fun _ => ?_
  simp only [Script.ok_bind]
  refine dataReadSome_ok hx (ha.readable fun before hps => ?_) (fun _ => ?_) fun _ => h.unlock fun w h => h
  · have hflag : before (.param 2) = if capacity.isSome then 1 else 0 := hps 2 (by simp)
    rw [replyLength, hflag]
    cases capacity <;> simp
  · split_ifs with hsome
    · have hle : (w.region.content (.result 0)).toNat ≤ (capacity.getD 0).toNat := by
        have := not_and.mp hcount hsome
        exact UInt64.le_iff_toNat_le.mp (UInt64.not_lt.mp this)
      omega
    · omega

lemma cuLinkComplete_contained : Contained dev needs (cuLinkComplete state oom) := by
  intro id alone w _ h
  simp only [cuLinkComplete, Script.ok_bind]
  refine h.lock fun w h => h.command hp h.exclusive (covers_plain rfl) fun result w h hx ha => ?_
  refine regRead64_ok hx (ha.always 0 (by decide)) (ok_ite (fun _ => h.leave) fun hok => ?_)
  obtain rfl : result = success := not_not.mp hok
  refine ok_ite (fun _ => h.leave) fun hsize => ok_ite (fun _ => h.leave) fun _ => ?_
  simp only [Script.ok_bind]
  refine dataReadSome_ok hx (ha.readable fun _ _ => ?_) (fun _ => by omega) fun _ => h.unlock fun w h => h
  rw [replyLength, if_pos rfl, Nat.zero_add]

lemma cuStreamGetCaptureInfo_contained {wantId : Bool} :
    Contained dev needs (cuStreamGetCaptureInfo_v2 stream wantId oom) := by
  intro id alone w _ h
  simp only [cuStreamGetCaptureInfo_v2, Script.ok_bind]
  refine h.onSuccess hp (covers_plain rfl) fun v w h hx ha => ?_
  simp only [Script.ok_bind]
  refine regRead64_ok hx (ha.success 2 (by decide)) (regRead64_ok hx (ha.success 3 (by decide)) ?_)
  refine ok_ite (fun _ => h.leave) fun hcount => ok_ite (fun _ => h.leave) fun _ => ?_
  simp only [Script.ok_bind]
  refine dataReadSome_ok hx (ha.readable fun _ _ => ?_) (fun _ => by omega) fun _ => ?_
  · rw [replyLength, if_pos rfl, Nat.zero_add]
  · refine regRead64_ok hx (ha.success 0 (by decide)) (readResults_ok hx (fun i _ => ?_) fun _ => h.unlock fun w h => h)
    fin_cases i <;> exact ha.success _ (by decide)

lemma cxlGetCoherencyStats_contained : Contained dev needs cxlGetCoherencyStats := by
  intro id alone w _ h
  simp only [cxlGetCoherencyStats, Script.ok_bind]
  refine h.onSuccess hp (covers_plain rfl) fun v w h hx ha => ?_
  simp only [Script.ok_bind]
  refine readResults_ok hx (fun i _ => by fin_cases i <;> exact ha.success _ (by decide)) fun _ => ?_
  exact dataRead_ok hx (ha.readable fun _ _ => le_of_eq (Nat.zero_add _)) (by decide) (h.unlock fun w h => h)

lemma observationCaptureClockAnchor_contained {phase caseEpoch : UInt64} :
    Contained dev needs (observationCaptureClockAnchor phase caseEpoch) := by
  intro id alone w _ h
  simp only [observationCaptureClockAnchor, Script.ok_bind]
  refine h.lock fun w h => writeParams_ok h.usable h.exclusive (by simp) fun u hw _ hparam => ?_
  have hu := h.wrote hw
  refine transportExecute_ok hp hu.usable hu.exclusive (fun c hc => ?_) fun result _ hresults => ?_
  · cases c with
    | param i => exact (hparam i ⟨Nat.zero_le _, by simpa [Input, arity] using hc⟩).1
    | result i => exact hc.elim
    | callId => exact absurd rfl hc
    | data off | batch off => exact hc.elim
  · have hz : Phase true alone (u.submit dev .observationAnchor) := ⟨hu.held, hu.alone, hu.usable⟩
    exact readOnSuccess_ok hz.exclusive (readable_onSuccess hresults (by decide)) fun _ => hz.leave

lemma cuLinkAddData_contained {type : UInt64} {data : List UInt8}
    {name : Option (List UInt8)} : Contained dev needs (cuLinkAddData_v2 state type data name) := by
  refine contained_ite (fun _ => contained_pure _) fun hsize => lockedCommand_contained hp (by decide) ?_
  generalize (name.map cString).getD [] = text at hsize ⊢
  have hmem : ∀ d ∈ ((0, data) :: if text.length = 0 then [] else [(data.length, text)] : List (ℕ × List UInt8)),
      d = (0, data) ∨ d = (data.length, text) := by
    intro d hd
    split_ifs at hd <;> simp at hd <;> tauto
  refine ⟨le_refl 4, by simp, fun d hd => ?_, fun content hps off hoff => ?_, fun _ _ h => h⟩
  · rcases hmem d hd with rfl | rfl <;> dsimp only <;> omega
  · have h2 : content (.param 2) = .ofNat data.length := hps 2 (by simp)
    have h3 : content (.param 3) = .ofNat text.length := hps 3 (by simp)
    have hlt : off < (content (.param 2)).toNat + (content (.param 3)).toNat := hoff
    rw [h2, h3] at hlt
    have hle2 := toNat_ofNat_le data.length
    have hle3 := toNat_ofNat_le text.length
    by_cases hin : off < data.length
    · exact ⟨(0, data), by simp, Nat.zero_le _, by simpa using hin⟩
    · have htext : ¬ text.length = 0 := by omega
      exact ⟨(data.length, text), by simp [htext], by simpa using hin, by dsimp only; omega⟩

lemma cuStreamBatchMemOp_contained {flags : UInt64} {count : UInt32} {paramArray : Buf} :
    Contained dev needs (cuStreamBatchMemOp stream count paramArray flags) := by
  refine contained_ite (fun _ => contained_pure _) fun hcount => lockedCommand_contained hp (by decide) ?_
  have hlt : count.toNat < 256 := by simpa [UInt32.le_iff_toNat_le] using hcount
  have hsize : count.toNat * batchMemOpSize ≤ dataSize := by unfold batchMemOpSize dataSize; omega
  refine ⟨le_refl 3, by simp, fun d hd => ?_, fun content hps off hoff => ?_, fun _ _ h => h⟩
  · split_ifs at hd
    · cases hd
    · obtain rfl := List.mem_singleton.mp hd
      simpa using hsize
  · have h1 : content (.param 1) = count.toUInt64 := hps 1 (by simp)
    have hlt : off < (content (.param 1)).toNat * batchMemOpSize := hoff
    rw [h1, UInt32.toNat_toUInt64] at hlt
    have hne : ¬ count = 0 := by rintro rfl; simp at hlt
    exact ⟨_, by rw [if_neg hne]; exact mem_singleton_self _, Nat.zero_le _, by simpa using hlt⟩

lemma cuCtxDestroy_contained {commit : UInt32} : Contained dev needs (cuCtxDestroy_v2 commit) := by
  intro id alone w _ h
  simp only [cuCtxDestroy_v2, Script.ok_bind]
  exact h.lock fun w h => h.command hp h.exclusive (covers_plain rfl) fun _ w h _ _ => h.leave

end Data

/-! ## The batch window -/

section Batch

variable {dev : Gpu} {needs : Prop} {id : ℕ} {v : Sight}

variable {ws : List (ℕ × List UInt8)}

lemma batchWrites_ok {Q : Bool → Sight → Prop} (hx : v.exclusive) (hfits : ∀ d ∈ ws, d.1 + d.2.length ≤ batchDataSize)
    (hQ : ∀ w, Wrote id v w → (∀ d ∈ ws, ∀ off, d.1 ≤ off → off < d.1 + d.2.length →
      w.region.origin (.batch off) = .call id) → Q true w) : (batchWrites ws).Ok dev id Q v := by
  induction ws generalizing v with
  | nil => exact hQ v (Wrote.refl v) (by simp)
  | cons d ws ih =>
    obtain ⟨off, bytes⟩ := d
    rw [forall_mem_cons] at hfits
    simp only [batchWrites, Script.ok_bind]
    refine batchDataWrite_ok hx hfits.1 ?_
    refine ok_ite (fun _ => ih hx hfits.2 fun w hw hown => ?_) fun h => absurd rfl h
    refine hQ w ((Wrote.store v _).trans hw) (List.forall_mem_cons.mpr ⟨fun o hlo hhi => ?_, hown⟩)
    refine hw.keeps _ (Region.store_origin_of_mem _ _ (mem_windowCells.mpr ⟨o - off, ?_, ?_⟩))
    · dsimp only at hlo hhi; omega
    · dsimp only at hlo; rw [Nat.add_sub_cancel' hlo]

lemma batchCommand_ok (hp : Protocol dev) {ps : List UInt64} {cmd : Command}
    {alone : Prop} {Q : UInt32 → Sight → Prop} (h : Phase true alone v)
    (hown : ∀ d ∈ ws, ∀ off, d.1 ≤ off → off < d.1 + d.2.length → v.region.origin (.batch off) = .call id)
    (hlen : ((arity cmd).ble ps.length && ps.length.ble 8) = true) (hdata : ∀ content off, ¬ Payload cmd content off)
    (hbatch : ∀ content : Cell → UInt64, (∀ (i : Fin 8) (h : i.val < ps.length), content (.param i) = ps[i.val]) →
      ∀ off, BatchPayload cmd content off → ∃ d ∈ ws, d.1 ≤ off ∧ off < d.1 + d.2.length)
    (hQ : ∀ result w, Phase true alone w → (∀ i ∈ resultsRead cmd (result = success), w.Produced (.result i)) →
      Q result w) :
    (writeParams 0 ps).Ok dev id (fun _ v => (executeCmd cmd).Ok dev id Q v) v := by
  rw [Bool.and_eq_true, Nat.ble_eq, Nat.ble_eq] at hlen
  refine writeParams_ok h.usable h.exclusive (by simpa using hlen.2) fun u hw _ hparam => ?_
  have hu := h.wrote hw
  refine executeCmd_ok hp hu.usable hu.exclusive ?_ fun result w hc => hQ result w (hu.completed hc) hc.results
  intro c hc hin
  cases c with
  | param i => exact (hparam i ⟨Nat.zero_le _, by have : i.val < arity cmd := hin; omega⟩).1
  | result i => exact hin.elim
  | callId => exact absurd rfl hc
  | data off => exact absurd hin (hdata _ off)
  | batch off =>
    obtain ⟨d, hd, hlo, hhi⟩ := hbatch u.region.content
      (fun i hi => by simpa using (hparam i ⟨Nat.zero_le _, by simpa using hi⟩).2) off hin
    exact hw.keeps _ (hown d hd off hlo hhi)

@[simp] lemma length_littleEndian (n v : ℕ) : (littleEndian n v).length = n := by simp [littleEndian]

lemma length_flatten_of_forall {α : Type} {n : ℕ} {ls : List (List α)} (h : ∀ l ∈ ls, l.length = n) :
    ls.flatten.length = ls.length * n := by
  rw [length_flatten, eq_replicate_of_mem (a := n) (l := ls.map List.length), sum_replicate]
  · simp
  · simpa using h

@[simp] lemma length_sourceRanges (ranges : List BatchRange) :
    (sourceRanges ranges).length = ranges.length * virtualRangeSize := by
  rw [sourceRanges, List.flatMap, length_flatten_of_forall (n := virtualRangeSize)]
  · simp
  · simp [virtualRangeSize]

@[simp] lemma length_directRanges (ranges : List BatchRange) :
    (directRanges ranges).length = ranges.length * directRangeSize := by
  rw [directRanges, length_flatten_of_forall (n := directRangeSize)]
  · simp
  · simp only [mem_mapIdx]
    rintro _ ⟨i, hi, rfl⟩
    simp [directRangeSize]

variable {ranges : List BatchRange} {stream : UInt64}

lemma cuMemcpyBatchDirectAsync_contained (hp : Protocol dev) :
    Contained dev needs (cuMemcpyBatchDirectAsync ranges stream) := by
  refine contained_ite (fun _ => contained_pure _) fun _ => contained_ite (fun _ => contained_pure _) fun hreg => ?_
  intro id alone w _ h
  simp only [Script.ok_bind]
  refine h.lock fun w h => ok_ite (fun _ => h.leave) fun hroom => ?_
  have hheader : (sourceRegisterHeader ranges).length = sourceRegisterSize := by simp [sourceRegisterHeader,
    sourceRegisterSize]
  rw [Script.ok_bind]
  refine batchWrites_ok h.exclusive ?_ fun u hw hown => ?_
  · simp only [forall_mem_cons, hheader, length_sourceRanges, length_directRanges]
    refine ⟨by omega, by omega, by omega, by simp⟩
  have hu := h.wrote hw
  refine ok_ite (fun hno => absurd hno (by simp)) fun _ => ?_
  simp only [Script.ok_bind]
  refine batchCommand_ok hp hu hown rfl (fun _ _ h => h) ?_ fun result w h hres => ?_
  · intro content hps off hoff
    have h0 : content (.param 0) = .ofNat (sourceRegisterSize + ranges.length * virtualRangeSize) := hps 0 (by simp)
    have h1 : content (.param 1) = .ofNat ranges.length := hps 1 (by simp)
    have hlt : off < (content (.param 0)).toNat + (content (.param 1)).toNat * directRangeSize := hoff
    rw [h0, h1] at hlt
    have hle0 := toNat_ofNat_le (sourceRegisterSize + ranges.length * virtualRangeSize)
    have hle1 := Nat.mul_le_mul_right directRangeSize (toNat_ofNat_le ranges.length)
    simp only [mem_cons, not_mem_nil, or_false, exists_eq_or_imp, exists_eq_left, hheader,
      length_sourceRanges, length_directRanges]
    omega
  · refine ok_ite (fun hfail => ?_) (fun _ => ?_) <;> simp only [Script.ok_bind]
    · exact readResults_ok h.exclusive (fun i hi => hres i (by rw [decide_eq_false hfail]; exact hi)) fun _ =>
        h.leave
    · exact h.leave

lemma batchPlan_covers {off : ℕ} {offsets : List ℕ} {stop : ℕ}
    (hplan : batchPlan off ranges = .ok (offsets, stop)) (hoff : off ≤ batchDataSize) :
    offsets.length = ranges.length ∧ off ≤ stop ∧ stop ≤ batchDataSize ∧
      (∀ p ∈ offsets.zip ranges, p.1 + p.2.size.toNat ≤ stop) ∧
      ∀ o, off ≤ o → o < stop → ∃ p ∈ offsets.zip ranges, p.1 ≤ o ∧ o < p.1 + p.2.size.toNat := by
  induction ranges generalizing off offsets with
  | nil =>
    obtain ⟨rfl, rfl⟩ : [] = offsets ∧ off = stop := by simpa [batchPlan] using hplan
    exact ⟨rfl, le_rfl, hoff, by simp, fun o hlo hhi => absurd hlo (by omega)⟩
  | cons r rs ih =>
    simp only [batchPlan] at hplan
    split_ifs at hplan with hbad hroom
    cases hrest : batchPlan (off + r.size.toNat) rs with
    | error e => simp [hrest, Except.map] at hplan
    | ok plan =>
      obtain ⟨rfl, rfl⟩ : off :: plan.1 = offsets ∧ plan.2 = stop := by simpa [hrest, Except.map] using hplan
      obtain ⟨hlen, hle, hstop, hin, hcov⟩ := ih hrest (by omega)
      refine ⟨by simp [hlen], by omega, hstop, ?_, fun o hlo hhi => ?_⟩
      · simp only [zip_cons_cons, forall_mem_cons]
        exact ⟨hle, hin⟩
      · by_cases hfirst : o < off + r.size.toNat
        · exact ⟨(off, r), by simp, hlo, hfirst⟩
        · obtain ⟨p, hp, hplo, hphi⟩ := hcov o (by omega) hhi
          exact ⟨p, by simp [hp], hplo, hphi⟩

lemma mem_flatten_mapIdx {α β : Type} {f : ℕ → α → List β} {l : List α} {d : β} :
    d ∈ (l.mapIdx f).flatten ↔ ∃ i, ∃ h : i < l.length, d ∈ f i l[i] := by
  simp only [mem_flatten, mem_mapIdx]
  constructor
  · rintro ⟨_, ⟨i, hi, rfl⟩, hd⟩
    exact ⟨i, hi, hd⟩
  · rintro ⟨i, hi, hd⟩
    exact ⟨_, ⟨i, hi, rfl⟩, hd⟩

lemma length_batchHeader (count stop : ℕ) : (batchHeader count stop).length = batchHeaderSize := by
  simp [batchHeader, batchHeaderSize]

lemma mem_batchRangeWrites {i off : ℕ} {r : BatchRange} {d : ℕ × List UInt8} (h : d ∈ batchRangeWrites i off r) :
    (d.1 = batchHeaderSize + i * batchRangeSize ∧ d.2.length = batchRangeSize) ∨
      (d.1 = off ∧ d.2.length = r.size.toNat) := by
  simp only [batchRangeWrites, mem_cons, not_mem_nil, or_false] at h
  rcases h with rfl | rfl
  · exact .inl ⟨rfl, by simp [batchRangeSize]⟩
  · exact .inr ⟨rfl, by simp⟩

section Plan

variable {ranges : List BatchRange} {offsets : List ℕ} {stop : ℕ}

variable (hplan : batchPlan (batchPayloadStart ranges.length) ranges = .ok (offsets, stop))
include hplan

lemma batchImage_fits (htable : batchHeaderSize + ranges.length * batchRangeSize ≤ batchDataSize)
    (hstart : batchPayloadStart ranges.length ≤ batchDataSize) :
    ∀ d ∈ batchImage ranges offsets stop, d.1 + d.2.length ≤ batchDataSize := by
  obtain ⟨hlen, hle, hstop, hin, -⟩ := batchPlan_covers hplan hstart
  refine List.forall_mem_cons.mpr ⟨?_, fun d hd => ?_⟩
  · dsimp only; rw [length_batchHeader]; omega
  · obtain ⟨i, hi, hd⟩ := mem_flatten_mapIdx.mp hd
    have hi' : i + 1 ≤ ranges.length := by simpa [hlen] using hi
    rcases mem_batchRangeWrites hd with ⟨h1, h2⟩ | ⟨h1, h2⟩
    · have := Nat.mul_le_mul_right batchRangeSize hi'
      rw [h1, h2]; rw [Nat.succ_mul] at this; omega
    · have := hin _ (getElem_mem hi)
      rw [h1, h2]; omega

lemma batchImage_covers (hstart : batchPayloadStart ranges.length ≤ batchDataSize) {off : ℕ}
    (hoff : off < batchHeaderSize + ranges.length * batchRangeSize ∨
      (batchPayloadStart ranges.length ≤ off ∧ off < stop)) :
    ∃ d ∈ batchImage ranges offsets stop, d.1 ≤ off ∧ off < d.1 + d.2.length := by
  obtain ⟨hlen, hle, hstop, hin, hcov⟩ := batchPlan_covers hplan hstart
  have hzip : (offsets.zip ranges).length = ranges.length := by simp [hlen]
  rcases hoff with htable | ⟨hlo, hhi⟩
  · by_cases hhead : off < batchHeaderSize
    · exact ⟨_, mem_cons_self, Nat.zero_le _, by simpa [length_batchHeader] using hhead⟩
    · -- the entry of the table that holds the byte
      have hpos : 0 < batchRangeSize := by decide
      have hi : (off - batchHeaderSize) / batchRangeSize < (offsets.zip ranges).length := by
        rw [hzip, Nat.div_lt_iff_lt_mul hpos]; omega
      have hdiv := Nat.div_add_mod (off - batchHeaderSize) batchRangeSize
      have hmod := Nat.mod_lt (off - batchHeaderSize) hpos
      refine ⟨_, mem_cons_of_mem _ (mem_flatten_mapIdx.mpr ⟨_, hi, mem_cons_self⟩), ?_, ?_⟩
      · dsimp only; rw [Nat.mul_comm]; omega
      · simp only [length_append, length_littleEndian]
        rw [Nat.mul_comm]
        unfold batchRangeSize at hdiv hmod ⊢
        omega
  · obtain ⟨p, hp, hplo, hphi⟩ := hcov off hlo hhi
    obtain ⟨i, hi, hpi⟩ := getElem_of_mem hp
    refine ⟨(p.1, bytesAt p.2.memory 0 p.2.size.toNat), ?_, hplo, by simpa using hphi⟩
    exact mem_cons_of_mem _ (mem_flatten_mapIdx.mpr ⟨i, hi, by rw [hpi]; simp [batchRangeWrites]⟩)

end Plan

lemma batchPath_contained (hp : Protocol dev) : Contained dev needs (batchPath ranges stream) := by
  refine contained_ite (fun _ => contained_pure _) fun hfit => ?_
  cases hplan : batchPlan (batchPayloadStart ranges.length) ranges with
  | error e => exact contained_pure _
  | ok plan =>
    obtain ⟨offsets, stop⟩ := plan
    have htable : batchHeaderSize + ranges.length * batchRangeSize ≤ batchDataSize := by omega
    have hstart : batchPayloadStart ranges.length ≤ batchDataSize := by omega
    intro id alone w _ h
    simp only [Script.ok_bind]
    refine h.lock fun w h => batchWrites_ok h.exclusive (batchImage_fits hplan htable hstart) fun u hw hown => ?_
    have hu := h.wrote hw
    refine ok_ite (fun hno => absurd hno (by simp)) fun _ => ?_
    simp only [Script.ok_bind]
    refine batchCommand_ok hp hu hown rfl (fun _ _ h => h) (fun content hps off hoff => ?_) fun result w h hres => ?_
    · have h0 : (content (.param 0)).toNat = ranges.length := by
        rw [hps 0 (by simp)]
        refine Nat.mod_eq_of_lt (lt_of_le_of_lt ?_ (show batchDataSize < 2 ^ 64 by decide))
        exact le_trans (Nat.le_mul_of_pos_right _ (by decide)) ((Nat.le_add_left _ _).trans htable)
      have h1 : (content (.param 1)).toNat ≤ stop := by rw [hps 1 (by simp)]; exact toNat_ofNat_le stop
      refine batchImage_covers hplan hstart ?_
      simp only [BatchPayload, h0] at hoff
      omega
    · have hreads : ∀ ok, 0 ∈ resultsRead .batchHtodAsync ok ∧ 1 ∈ resultsRead .batchHtodAsync ok := by decide
      exact regRead64_ok h.exclusive (hres 0 (hreads _).1) (regRead64_ok h.exclusive (hres 1 (hreads _).2) h.leave)

lemma cuMemcpyBatchAsync_contained (hp : Protocol dev) {direct : Bool} :
    Contained dev needs (cuMemcpyBatchAsync ranges stream direct) := by
  refine contained_ite (fun _ => ?_) fun _ => batchPath_contained hp
  refine contained_ite (fun _ => contained_pure _) fun _ => ?_
  refine (cuMemcpyBatchDirectAsync_contained hp).bind fun reply => ?_
  exact contained_ite (fun _ => contained_pure _) fun _ => batchPath_contained hp

end Batch

section All

variable {dev : Gpu}

/-- Every function is safe, those without the lock while no other call is in progress. -/
lemma CommandFn.contained (hp : Protocol dev) {takesLock : Bool} {script : Bar2 Reply} (f : CommandFn takesLock script) :
    Contained dev (takesLock = false) script := by
  cases f
  case cuGetErrorName | cuGetErrorString => exact errorText_contained hp (by decide) (covers_plain rfl) fun _ _ => rfl
  case cuCtxCreate commit => exact contextCreate_contained hp commit
  case cuDevicePrimaryCtxRetain known commit =>
    cases known with
    | some token => exact contained_pure _
    | none => exact contextCreate_contained hp commit
  case cuCtxDestroy => exact cuCtxDestroy_contained hp
  case cuCtxSynchronize | cuStreamDestroy | cxlStreamSynchronize => exact drainCommand_contained hp (covers_plain rfl)
  case cuMemcpyHtoD => exact cuMemcpyHtoD_contained hp
  case cuMemcpyHtoDAsync => exact cuMemcpyHtoDAsync_contained hp
  case cuMemcpyBatchAsync => exact cuMemcpyBatchAsync_contained hp
  case cuMemcpyDtoH => exact cuMemcpyDtoH_contained hp
  case cxlCudaPointerIsDevice | cuStreamGetCtx =>
    exact (lockedCommand_contained hp (by decide) (covers_plain rfl)).bind fun _ => contained_pure _
  case cuMemsetD8 => exact cuMemsetD8_contained hp rfl
  case cuMemsetD32 => exact cuMemsetD32_contained hp rfl
  case cuModuleGetFunction => exact nameCommand_contained hp (by decide) (.inl rfl)
  case cuModuleGetGlobal => exact nameCommand_contained hp (by decide) (.inr rfl)
  case cxlModuleLoadCubin => exact cxlModuleLoadCubin_contained hp rfl
  case cxlModuleLoadPtx => exact cxlModuleLoadPtx_contained hp rfl
  case cuFuncGetParamInfo =>
    refine (functionParamLayoutCopy_contained hp).bind fun layout => ?_
    cases layout <;> exact contained_pure _
  case cuLaunchKernel =>
    exact paramCommand_contained hp 5 (fun _ => ⟨by simp, rfl⟩) (fun _ => rfl) (fun _ _ h => h) (fun _ _ h => h)
  case cuGraphExecKernelNodeSetParams =>
    exact paramCommand_contained hp 7 (fun _ => ⟨by simp, rfl⟩) (fun _ => rfl) (fun _ _ h => h) (fun _ _ h => h)
  case cuGraphKernelNodeGetParams => exact cuGraphKernelNodeGetParams_contained hp
  case cuGraphInstantiate => exact cuGraphInstantiate_contained hp
  case cuGraphGetNodes => exact cuGraphGetNodes_contained hp
  case cuLinkCreate | cuStreamCreate | cuEventCreate => exact createCommand_contained hp (by decide) (covers_plain rfl)
  case cuLinkAddData => exact cuLinkAddData_contained hp
  case cuLinkComplete => exact cuLinkComplete_contained hp
  case cuStreamBatchMemOp => exact cuStreamBatchMemOp_contained hp
  case cuStreamGetCaptureInfo => exact cuStreamGetCaptureInfo_contained hp
  case cxlGetCoherencyStats => exact cxlGetCoherencyStats_contained hp
  case observationCaptureClockAnchor => exact observationCaptureClockAnchor_contained hp
  case cxlP2pDiscoverPeers | cxlP2pGetPeerInfo | cxlP2pSync | cxlP2pGetStatus =>
    exact unlockedCommand_contained hp (by decide +revert) (covers_plain rfl) rfl
  case cxlP2pGpuToMem | cxlP2pMemToGpu | cxlP2pMemToMem =>
    exact contained_ite (fun _ => contained_pure _) fun _ => unlockedCommand_contained hp (by decide) (covers_plain rfl) rfl
  -- the rest send parameters only, under the lock
  all_goals exact lockedCommand_contained hp (by decide +revert) (covers_plain rfl)

lemma Contained.mono {α : Type} {a b : Prop} {s : Bar2 α} (h : Contained dev a s) (hab : a → b) :
    Contained dev b s := fun id alone w hn hw => h id alone w (fun ha => hn (hab ha)) hw

/-- Every API call is safe, if it is alone unless all its functions take the lock. -/
lemma ApiCall.contained (hp : Protocol dev) (c : ApiCall) : Contained dev (¬ c.Locked) c.script := by
  induction c with
  | ret result => exact contained_pure _
  | run f next ih =>
    refine ((f.contained hp).mono fun hf hl => ?_).bind fun reply => (ih reply).mono fun hr hl => hr (hl.2 reply)
    rw [hl.1] at hf
    cases hf

end All

end CxlMemSim.Guest
