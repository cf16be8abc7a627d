/-
The accounting of a remote access (`record_cxl_access`): it is offered to the expanders below the controller, and if
none answers with a count, to the first registered expander with the same id. An index outside the list of expanders is
a null pointer.
-/
import CxlMemSim.Fabric.Controller
import CxlMemSim.Fabric.Counting

namespace CxlMemSim.Retry

open CxlMemSim.Core Expander Controller Counting List

structure Access where
  timestamp : ℕ
  tid : UInt64
  addr : UInt64
  isWrite : Bool

structure Outcome where
  endpoints : List Endpoint
  answer : ℕ
  enqueued : List ℕ

def Enqueues (a : Access) (index : ℤ) (e : Endpoint) : Prop :=
  index = e.1.id ∧ (arrive e.1 e.2 a.timestamp).pipeline.canAcceptRequest

instance (a : Access) (index : ℤ) (e : Endpoint) : Decidable (Enqueues a index e) := inferInstanceAs (Decidable (_ ∧ _))

def recordOne (a : Access) (index : ℤ) (e : Endpoint) : Endpoint × ℕ :=
  serve (.recordAccess a.timestamp a.tid a.addr index a.isWrite) e

def recordDevice (a : Access) (index : ℤ) (es : List Endpoint) (i : ℕ) : Outcome :=
  match es[i]? with
  | none => ⟨es, 0, []⟩
  | some e => ⟨es.set i (recordOne a index e).1, (recordOne a index e).2, if Enqueues a index e then [i] else []⟩

def recordExpanders (a : Access) (index : ℤ) (es : List Endpoint) : List ℕ → Outcome
  | [] => ⟨es, 0, []⟩
  | i :: is =>
    let r := recordDevice a index es i
    if r.answer ≠ 0 then r else recordExpanders a index r.endpoints is

mutual

def recordSwitch (a : Access) (index : ℤ) (es : List Endpoint) : Switch → Outcome
  | .node expanders switches =>
    let r := recordExpanders a index es expanders
    if r.answer ≠ 0 then r else recordSwitches a index r.endpoints switches

def recordSwitches (a : Access) (index : ℤ) (es : List Endpoint) : List Switch → Outcome
  | [] => ⟨es, 0, []⟩
  | s :: rest =>
    let r := recordSwitch a index es s
    if r.answer ≠ 0 then r else recordSwitches a index r.endpoints rest

end

structure State where
  endpoints : List Endpoint
  top : Switch
  curExpanders : List ℕ

def Meant (es : List Endpoint) (index : ℤ) (i : ℕ) : Prop := (es.map (·.1))[i]?.map (·.id) = some index

instance (es : List Endpoint) (index : ℤ) (i : ℕ) : Decidable (Meant es index i) := inferInstanceAs (Decidable (_ = _))

def endpointId (s : State) : ℤ :=
  match s.curExpanders.head?.bind (s.endpoints[·]?) with
  | some e => e.1.id
  | none => 0

def registered (s : State) : Option ℕ := s.curExpanders.find? fun i => Meant s.endpoints (endpointId s) i

def recordCxlAccess (s : State) (a : Access) : Outcome :=
  let r := recordSwitch a (endpointId s) s.endpoints s.top
  if r.answer = 0 then
    match s.curExpanders.find? fun i => Meant r.endpoints (endpointId s) i with
    | some i =>
      let q := recordDevice a (endpointId s) r.endpoints i
      { q with enqueued := r.enqueued ++ q.enqueued }
    | none => r
  else r

def step (s : State) (a : Access) : State := { s with endpoints := (recordCxlAccess s a).endpoints }

/-! ## One expander -/

variable {a : Access} {index : ℤ} {e : Endpoint} {es : List Endpoint} {i : ℕ} {is : List ℕ} {rest : List ℕ}

def accounts (e : Endpoint) : ℕ := e.2.counter.load + e.2.counter.store + e.2.counter.hitOld

def total (es : List Endpoint) : ℕ := (es.map accounts).sum

lemma recordOne_accounts (a : Access) (h : e.1.id = index) : accounts (recordOne a index e).1 = accounts e + 1 := by
  simp only [recordOne, serve, Expander.recordAccess, h, accounts]
  split_ifs <;> simp [incHitOld, incLoad, incStore] <;> omega

lemma recordOne_answer : (recordOne a index e).2 ≠ 0 ↔ Enqueues a index e := by
  simp only [recordOne, serve, Expander.recordAccess, Enqueues]
  split_ifs <;> simp_all

lemma recordDevice_answer : (recordDevice a index es i).answer ≠ 0 ↔ ∃ e ∈ es[i]?, Enqueues a index e := by
  unfold recordDevice
  cases es[i]? with
  | none => simp
  | some e => simpa using recordOne_answer

lemma set_self {α : Type} {l : List α} {x : α} (h : l[i]? = some x) : l.set i x = l := by
  obtain ⟨hi, rfl⟩ := List.getElem?_eq_some_iff.mp h
  exact set_getElem_self hi

lemma not_meant (h : ¬ Meant es index i) : recordDevice a index es i = ⟨es, 0, []⟩ := by
  unfold recordDevice
  split
  · rfl
  · rename_i e he
    have hid : e.1.id ≠ index := by simpa [Meant, he] using h
    have hq : ¬ Enqueues a index e := fun henq => hid henq.1.symm
    rw [recordOne, serve_other hid, if_neg hq]
    rw [set_self he]

lemma total_set {e' : Endpoint} (he : es[i]? = some e) (h : accounts e' = accounts e + 1) :
    total (es.set i e') = total es + 1 := by
  obtain ⟨hi, rfl⟩ := List.getElem?_eq_some_iff.mp he
  have hsplit := congrArg total (take_append_drop i es)
  rw [drop_eq_getElem_cons hi] at hsplit
  rw [set_eq_take_append_cons_drop, if_pos hi]
  simp only [total, map_append, map_cons, sum_append, sum_cons] at hsplit ⊢
  omega

/-- an expander that is meant is counted once, and the request is queued exactly if the answer is not 0 -/
lemma meant (h : Meant es index i) : total (recordDevice a index es i).endpoints = total es + 1 ∧
      (recordDevice a index es i).enqueued = if (recordDevice a index es i).answer ≠ 0 then [i] else [] := by
  obtain ⟨e, he, hid⟩ : ∃ e, es[i]? = some e ∧ e.1.id = index := by simpa [Meant] using h
  simp only [recordDevice, he]
  refine ⟨total_set he (recordOne_accounts a hid), ?_⟩
  by_cases hq : Enqueues a index e
  · rw [if_pos hq, if_pos (recordOne_answer.mpr hq)]
  · rw [if_neg hq, if_neg (fun hne => hq (recordOne_answer.mp hne))]

lemma recordDevice_configs (a : Access) (index : ℤ) (es : List Endpoint) (i : ℕ) :
    (recordDevice a index es i).endpoints.map (·.1) = es.map (·.1) := by
  unfold recordDevice
  split
  · rfl
  · rename_i e he
    rw [map_set]
    have hcfg : (recordOne a index e).1.1 = e.1 := rfl
    exact set_self (by simp [hcfg, he])

/-! ## The search -/

lemma recordExpanders_append (a : Access) (index : ℤ) (es : List Endpoint) (is js : List ℕ) :
    recordExpanders a index es (is ++ js) =
      if (recordExpanders a index es is).answer ≠ 0 then recordExpanders a index es is
      else recordExpanders a index (recordExpanders a index es is).endpoints js := by
  induction is generalizing es with
  | nil => simp [recordExpanders]
  | cons i is ih =>
    simp only [cons_append, recordExpanders]
    by_cases h : (recordDevice a index es i).answer = 0 <;> simp [h, ih]

mutual

lemma recordSwitch_eq (a : Access) (index : ℤ) : ∀ (es : List Endpoint) (t : Switch),
    recordSwitch a index es t = recordExpanders a index es t.devices
  | es, .node expanders switches => by
    simp only [recordSwitch, Switch.devices, recordExpanders_append, recordSwitches_eq]

lemma recordSwitches_eq (a : Access) (index : ℤ) : ∀ (es : List Endpoint) (ts : List Switch),
    recordSwitches a index es ts = recordExpanders a index es (devicesOf ts)
  | _, [] => rfl
  | es, t :: ts => by
    simp only [recordSwitches, devicesOf, recordExpanders_append, recordSwitch_eq a index es t,
      recordSwitches_eq a index _ ts]

end

lemma recordExpanders_other (h : ∀ i ∈ is, ¬ Meant es index i) : recordExpanders a index es is = ⟨es, 0, []⟩ := by
  induction is with
  | nil => rfl
  | cons i is ih =>
    rw [recordExpanders, not_meant (h i mem_cons_self)]
    exact ih fun j hj => h j (mem_cons_of_mem i hj)

lemma recordExpanders_configs (a : Access) (index : ℤ) (es : List Endpoint) (is : List ℕ) :
    (recordExpanders a index es is).endpoints.map (·.1) = es.map (·.1) := by
  induction is generalizing es with
  | nil => rfl
  | cons i is ih =>
    simp only [recordExpanders]
    split_ifs
    · exact recordDevice_configs a index es i
    · rw [ih, recordDevice_configs]

lemma meant_congr {es' : List Endpoint} (h : es'.map (·.1) = es.map (·.1)) : Meant es' index = Meant es index := by
  funext i
  rw [Meant, Meant, h]

def candidates (index : ℤ) (es : List Endpoint) (is : List ℕ) : List ℕ := is.filter fun i => Meant es index i

lemma recordExpanders_first (h : candidates index es is = i :: rest) :
    ∃ post, candidates index es post = rest ∧ Meant es index i ∧ recordExpanders a index es is =
      if (recordDevice a index es i).answer ≠ 0 then recordDevice a index es i
      else recordExpanders a index (recordDevice a index es i).endpoints post := by
  obtain ⟨pre, post, rfl, hpre, hi, hpost⟩ := List.filter_eq_cons_iff.mp h
  refine ⟨post, hpost, by simpa using hi, ?_⟩
  rw [recordExpanders_append, recordExpanders_other fun j hj => by simpa using hpre j hj]
  rfl

section

variable (a : Access) (index : ℤ) (es : List Endpoint) (is : List ℕ)

lemma recordExpanders_enqueued :
    (recordExpanders a index es is).enqueued.length ≤ 1 ∧
      (∀ i ∈ (recordExpanders a index es is).enqueued, Meant es index i) ∧
      ((recordExpanders a index es is).answer = 0 → (recordExpanders a index es is).enqueued = []) := by
  induction is generalizing es with
  | nil => simp [recordExpanders]
  | cons i is ih =>
    by_cases hi : Meant es index i
    · have henq := (meant (a := a) hi).2
      simp only [recordExpanders]
      split_ifs with hans
      · rw [if_pos hans] at henq
        simp [henq, hi, hans]
      · have hih := ih (recordDevice a index es i).endpoints
        rwa [meant_congr (recordDevice_configs a index es i)] at hih
    · rw [recordExpanders, not_meant hi]
      exact ih es

lemma total_mono : total es ≤ total (recordExpanders a index es is).endpoints := by
  induction is generalizing es with
  | nil => exact le_rfl
  | cons i is ih =>
    by_cases hi : Meant es index i
    · have hone := (meant (a := a) hi).1
      simp only [recordExpanders]
      split_ifs
      · omega
      · exact (by omega : total es ≤ _).trans (ih _)
    · rw [recordExpanders, not_meant hi]
      exact ih es

end

lemma total_lt (a : Access) (h : candidates index es is = i :: rest) :
    total es + 1 ≤ total (recordExpanders a index es is).endpoints := by
  obtain ⟨post, -, hi, heq⟩ := recordExpanders_first (a := a) h
  have hone := (meant (a := a) hi).1
  rw [heq]
  split_ifs
  · exact hone.ge
  · exact hone.ge.trans (total_mono a index _ post)

/-! ## The controller -/

def Accounted (s : State) (a : Access) : Prop :=
  let r := recordCxlAccess s a
  total r.endpoints = total s.endpoints + 1 ∧
    r.enqueued.length ≤ 1 ∧ ∀ i ∈ r.enqueued, Meant s.endpoints (endpointId s) i

/-- the first candidate of the tree has room, or is the only one and none is registered, or the tree has none and one is
registered -/
def OneAttempt (s : State) (a : Access) : Prop :=
  match candidates (endpointId s) s.endpoints s.top.devices with
  | [] => (registered s).isSome
  | i :: rest => (∃ e ∈ s.endpoints[i]?, Enqueues a (endpointId s) e) ∨ (rest = [] ∧ registered s = none)

lemma recordCxlAccess_spec (s : State) (a : Access) :
    let r := recordExpanders a (endpointId s) s.endpoints s.top.devices
    let c := recordCxlAccess s a
    total c.endpoints = total r.endpoints + (if r.answer = 0 ∧ (registered s).isSome then 1 else 0) ∧
      c.enqueued.length ≤ 1 ∧ ∀ i ∈ c.enqueued, Meant s.endpoints (endpointId s) i := by
  obtain ⟨hlen, hmem, hnone⟩ := recordExpanders_enqueued a (endpointId s) s.endpoints s.top.devices
  have hcfg := recordExpanders_configs a (endpointId s) s.endpoints s.top.devices
  have hfind : (s.curExpanders.find? fun i =>
      Meant (recordExpanders a (endpointId s) s.endpoints s.top.devices).endpoints (endpointId s) i) = registered s := by
    simp only [registered, meant_congr hcfg]
  simp only [recordCxlAccess, recordSwitch_eq, hfind]
  split_ifs with hans hboth hboth
  · obtain ⟨i, hi⟩ := Option.isSome_iff_exists.mp hboth.2
    have hmeant : Meant s.endpoints (endpointId s) i := by simpa using find?_some hi
    obtain ⟨hone, henq⟩ := meant (a := a) (meant_congr hcfg ▸ hmeant)
    rw [hi]
    simp only [hnone hans, nil_append, henq]
    refine ⟨hone, ?_, ?_⟩ <;> split_ifs <;> simp [hmeant]
  · have hreg : registered s = none := by simpa [hans] using hboth
    rw [hreg]
    exact ⟨rfl, hlen, hmem⟩
  · exact absurd hboth.1 hans
  · exact ⟨rfl, hlen, hmem⟩

lemma accounted_iff_oneAttempt (s : State) (a : Access) : Accounted s a ↔ OneAttempt s a := by
  obtain ⟨htotal, hlen, hmem⟩ := recordCxlAccess_spec s a
  have hacc : Accounted s a ↔ total (recordCxlAccess s a).endpoints = total s.endpoints + 1 :=
    ⟨And.left, fun h => ⟨h, hlen, hmem⟩⟩
  rw [hacc, htotal, OneAttempt]
  rcases hc : candidates (endpointId s) s.endpoints s.top.devices with - | ⟨i, rest⟩
  · rw [recordExpanders_other fun i hi => by simpa using List.filter_eq_nil_iff.mp hc i hi]
    by_cases hreg : (registered s).isSome <;> simp [hreg]
  · obtain ⟨post, rfl, hi, heq⟩ := recordExpanders_first (a := a) hc
    have hone := (meant (a := a) hi).1
    simp only [heq, ← recordDevice_answer]
    by_cases hans : (recordDevice a (endpointId s) s.endpoints i).answer = 0
    · -- the first candidate has rejected the request: every further attempt counts it again
      have hcfg := recordDevice_configs a (endpointId s) s.endpoints i
      simp only [hans, ne_eq, not_true_eq_false, if_false, false_or]
      rcases hrest : candidates (endpointId s) s.endpoints post with - | ⟨j, rest⟩
      · rw [recordExpanders_other fun j hj => by simpa [meant_congr hcfg] using List.filter_eq_nil_iff.mp hrest j hj]
        cases hreg : registered s <;> simp [hone]
      · have hmore : candidates (endpointId s) (recordDevice a (endpointId s) s.endpoints i).endpoints post = j :: rest := by
          simp only [candidates, meant_congr hcfg]
          exact hrest
        have hlt := total_lt a hmore
        simp only [reduceCtorEq, false_and, iff_false]
        omega
    · simp [hans, hone]

/-- The accounting, exactly: each access is counted once and enters at most one queue, if and only if each makes one
attempt. -/
theorem access_counted_once_iff (s : State) (accesses : List Access) :
    AllSteps step Accounted s accesses ↔ AllSteps step OneAttempt s accesses :=
  allSteps_iff_of_inv (P := fun _ => True) (fun _ _ _ _ => trivial) (fun s a _ => accounted_iff_oneAttempt s a) trivial

def fresh : State := ⟨[(exactConfig, .start)], .node [0] [], [0]⟩

def burst (n : ℕ) : List Access := (List.range n).map fun k => ⟨0, 1, UInt64.ofNat (64 * k), true⟩

theorem rejected_counted_twice :
    total (run step fresh (burst 66)).endpoints = 66 ∧ total (run step fresh (burst 67)).endpoints = 68 := by
  decide +kernel

end CxlMemSim.Retry
