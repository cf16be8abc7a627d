/-
The counters of the switches: a request goes to the expanders and then to the switches below until one takes it; on the
way back every switch counts.
-/
import CxlMemSim.Fabric.Expander

namespace CxlMemSim.Counting

open CxlMemSim.Core Expander List

abbrev Endpoint := Config × CXLMemExpander

inductive Request where
  | insert (timestamp : ℕ) (tid physAddr : UInt64) (index : ℤ)
  | recordAccess (timestamp : ℕ) (tid physAddr : UInt64) (index : ℤ) (isWrite : Bool)

def Request.index : Request → ℤ
  | .insert _ _ _ index => index
  | .recordAccess _ _ _ index _ => index

def serve (o : Request) (e : Endpoint) : Endpoint × ℕ :=
  let r := match o with
    | .insert timestamp tid physAddr index => Expander.insert e.1 e.2 timestamp tid physAddr index
    | .recordAccess timestamp tid physAddr index isWrite =>
      Expander.recordAccess e.1 e.2 timestamp tid physAddr index isWrite
  ((e.1, r.1), r.2)

inductive Tree where
  | node (store load : ℕ) (expanders : List Endpoint) (switches : List Tree)

def tick (kind answer : ℕ) : ℕ := if answer = kind then 1 else 0

def callExpanders (o : Request) : List Endpoint → List Endpoint × ℕ
  | [] => ([], 0)
  | e :: es =>
    let r := serve o e
    if r.2 ≠ 0 then (r.1 :: es, r.2)
    else
      let rest := callExpanders o es
      (r.1 :: rest.1, rest.2)

mutual

def Tree.call (o : Request) : Tree → Tree × ℕ
  | .node store load expanders switches =>
    let r := callExpanders o expanders
    if r.2 ≠ 0 then (.node (store + tick 1 r.2) (load + tick 2 r.2) r.1 switches, r.2)
    else
      let q := callSwitches o switches
      (.node (store + tick 1 q.2) (load + tick 2 q.2) r.1 q.1, q.2)

def callSwitches (o : Request) : List Tree → List Tree × ℕ
  | [] => ([], 0)
  | t :: ts =>
    let r := t.call o
    if r.2 ≠ 0 then (r.1 :: ts, r.2)
    else
      let rest := callSwitches o ts
      (r.1 :: rest.1, rest.2)

end

mutual

def Tree.endpoints : Tree → List Endpoint
  | .node _ _ expanders switches => expanders ++ endpointsOf switches

def endpointsOf : List Tree → List Endpoint
  | [] => []
  | t :: ts => t.endpoints ++ endpointsOf ts

end

def stores (es : List Endpoint) : ℕ := (es.map (·.2.counter.store)).sum
def loads (es : List Endpoint) : ℕ := (es.map (·.2.counter.load)).sum
def ids (es : List Endpoint) : List ℤ := es.map (·.1.id)

mutual

def Tree.Balanced : Tree → Prop
  | .node store load expanders switches =>
    store = stores (expanders ++ endpointsOf switches) ∧ load = loads (expanders ++ endpointsOf switches) ∧
      BalancedAll switches

def BalancedAll : List Tree → Prop
  | [] => True
  | t :: ts => t.Balanced ∧ BalancedAll ts

end

/-! ## One call -/

variable {o : Request} {e : Endpoint} {es es' a a' b b' : List Endpoint} {n m : ℕ}

lemma serve_other (h : e.1.id ≠ o.index) : serve o e = (e, 0) := by
  cases o with
  | insert timestamp tid physAddr index => simp [serve, Expander.insert, show index ≠ e.1.id from Ne.symm h]
  | recordAccess timestamp tid physAddr index isWrite =>
    simp [serve, Expander.recordAccess, show index ≠ e.1.id from Ne.symm h]

lemma serve_counter (o : Request) (e : Endpoint) :
    (serve o e).1.2.counter.store = e.2.counter.store + tick 1 (serve o e).2 ∧
      (serve o e).1.2.counter.load = e.2.counter.load + tick 2 (serve o e).2 := by
  cases o with
  | insert timestamp tid physAddr index =>
    simp only [serve, Expander.insert]
    split_ifs <;> simp [tick, incHitOld, incLoad, incStore]
  | recordAccess timestamp tid physAddr index isWrite =>
    simp only [serve, Expander.recordAccess]
    split_ifs <;> simp [tick, incHitOld, incLoad, incStore]

/-- each expander was served or is not meant, and the answer is counted once -/
structure Served (o : Request) (es es' : List Endpoint) (n : ℕ) : Prop where
  served : es' = es.map fun e => (serve o e).1
  stores : stores es' = stores es + tick 1 n
  loads : loads es' = loads es + tick 2 n
  found : n ≠ 0 → o.index ∈ ids es

lemma served_one (o : Request) (e : Endpoint) : Served o [e] [(serve o e).1] (serve o e).2 where
  served := rfl
  stores := by simpa [Counting.stores] using (serve_counter o e).1
  loads := by simpa [Counting.loads] using (serve_counter o e).2
  found h := by
    by_contra hid
    exact h (by rw [serve_other (by simpa [ids, eq_comm] using hid)])

lemma served_other (h : o.index ∉ ids es) : Served o es es 0 where
  served := by
    refine ((map_congr_left fun e he => ?_).trans (map_id es)).symm
    have hid : e.1.id ≠ o.index := fun heq => h (heq ▸ mem_map_of_mem he)
    rw [serve_other hid]
    rfl
  stores := rfl
  loads := rfl
  found h := absurd rfl h

lemma Served.append (ha : Served o a a' n) (hb : Served o b b' m) (h : n = 0 ∨ m = 0) :
    Served o (a ++ b) (a' ++ b') (n + m) where
  served := by rw [ha.served, hb.served, map_append]
  stores := by
    have h1 := ha.stores
    have h2 := hb.stores
    simp only [Counting.stores, map_append, sum_append] at h1 h2 ⊢
    rcases h with rfl | rfl <;> simp_all [tick] <;> omega
  loads := by
    have h1 := ha.loads
    have h2 := hb.loads
    simp only [Counting.loads, map_append, sum_append] at h1 h2 ⊢
    rcases h with rfl | rfl <;> simp_all [tick] <;> omega
  found hne := by
    rw [ids, map_append, mem_append]
    rcases h with rfl | rfl
    · exact .inr (hb.found (by simpa using hne))
    · exact .inl (ha.found (by simpa using hne))

lemma Served.search (hids : (ids (a ++ b)).Nodup) (ha : Served o a a' n) (hb : Served o b b' m) :
    Served o (a ++ b) (a' ++ if n ≠ 0 then b else b') (if n ≠ 0 then n else m) := by
  by_cases hn : n = 0
  · subst hn
    simpa using ha.append hb (.inl rfl)
  · have hdisj := (List.nodup_append.mp (by simpa [ids] using hids)).2.2
    have hother : o.index ∉ ids b := fun hmem => hdisj _ (ha.found hn) _ hmem rfl
    simpa [hn] using ha.append (served_other hother) (.inr rfl)

lemma callExpanders_served (o : Request) :
    ∀ es : List Endpoint, (ids es).Nodup → Served o es (callExpanders o es).1 (callExpanders o es).2
  | [], _ => served_other (by simp [ids])
  | e :: es, hids => by
    have hrest := callExpanders_served o es (List.nodup_cons.mp hids).2
    have := (served_one o e).search hids hrest
    simp only [callExpanders]
    split_ifs at this ⊢ <;> simpa using this

mutual

lemma call_served (o : Request) : ∀ t : Tree, (ids t.endpoints).Nodup → t.Balanced →
    Served o t.endpoints (t.call o).1.endpoints (t.call o).2 ∧ (t.call o).1.Balanced
  | .node store load expanders switches, hids, hbal => by
    have hparts := List.nodup_append.mp (by simpa [ids, Tree.endpoints] using hids)
    have hown := callExpanders_served o expanders hparts.1
    obtain ⟨hbelow, hball⟩ := callSwitches_served o switches hparts.2.1 hbal.2.2
    have hall := hown.search hids hbelow
    simp only [Tree.call]
    -- the counter moves by what the answer says, and so does the sum below it
    split_ifs at hall ⊢ with hn
    · exact ⟨hall, by rw [hbal.1, ← hall.stores], by rw [hbal.2.1, ← hall.loads], hbal.2.2⟩
    · exact ⟨hall, by rw [hbal.1, ← hall.stores], by rw [hbal.2.1, ← hall.loads], hball⟩

lemma callSwitches_served (o : Request) : ∀ ts : List Tree, (ids (endpointsOf ts)).Nodup → BalancedAll ts →
    Served o (endpointsOf ts) (endpointsOf (callSwitches o ts).1) (callSwitches o ts).2 ∧
      BalancedAll (callSwitches o ts).1
  | [], _, _ => ⟨served_other (by simp [ids, endpointsOf]), trivial⟩
  | t :: ts, hids, hbal => by
    have hparts := List.nodup_append.mp (by simpa [ids, endpointsOf] using hids)
    obtain ⟨hfirst, hb⟩ := call_served o t hparts.1 hbal.1
    obtain ⟨hrest, hbs⟩ := callSwitches_served o ts hparts.2.1 hbal.2
    have hall := hfirst.search hids hrest
    simp only [callSwitches]
    split_ifs at hall ⊢ with hn
    · exact ⟨hall, hb, hbal.2⟩
    · exact ⟨hall, hb, hbs⟩

end

/-! ## Runs -/

def step (t : Tree) (o : Request) : Tree := (t.call o).1

structure Inv (t : Tree) : Prop where
  distinct : (ids t.endpoints).Nodup
  balanced : t.Balanced

def Local (t : Tree) (o : Request) : Prop :=
  List.Forall₂ (fun e e' => e'.1 = e.1 ∧ (e.1.id ≠ o.index → e' = e)) t.endpoints (step t o).endpoints

lemma step_local {t : Tree} (h : Inv t) (o : Request) : Local t o := by
  rw [Local, step, (call_served o t h.distinct h.balanced).1.served, forall₂_map_right_iff]
  exact List.forall₂_same.mpr fun e _ => ⟨rfl, fun hid => by rw [serve_other hid]⟩

lemma step_inv {t : Tree} (h : Inv t) (o : Request) : Inv (step t o) := by
  obtain ⟨hserved, hbal⟩ := call_served o t h.distinct h.balanced
  refine ⟨?_, hbal⟩
  rw [step, hserved.served, ids, map_map]
  exact h.distinct

mutual

def Tree.Zero : Tree → Prop
  | .node store load expanders switches =>
    store = 0 ∧ load = 0 ∧ (∀ e ∈ expanders, e.2.counter.store = 0 ∧ e.2.counter.load = 0) ∧ ZeroAll switches

def ZeroAll : List Tree → Prop
  | [] => True
  | t :: ts => t.Zero ∧ ZeroAll ts

end

def Silent (es : List Endpoint) : Prop := stores es = 0 ∧ loads es = 0

lemma Silent.append (ha : Silent a) (hb : Silent b) : Silent (a ++ b) := by
  simp only [Silent, stores, loads, map_append, sum_append] at *
  omega

mutual

lemma zero_balanced : ∀ t : Tree, t.Zero → t.Balanced ∧ Silent t.endpoints
  | .node store load expanders switches, ⟨hstore, hload, hes, hts⟩ => by
    obtain ⟨hbal, hbelow⟩ := zeroAll_balanced switches hts
    have hown : Silent expanders :=
      ⟨sum_eq_zero (List.forall_mem_map.mpr fun e he => (hes e he).1),
        sum_eq_zero (List.forall_mem_map.mpr fun e he => (hes e he).2)⟩
    have hall := hown.append hbelow
    exact ⟨⟨hstore.trans hall.1.symm, hload.trans hall.2.symm, hbal⟩, hall⟩

lemma zeroAll_balanced : ∀ ts : List Tree, ZeroAll ts → BalancedAll ts ∧ Silent (endpointsOf ts)
  | [], _ => ⟨trivial, rfl, rfl⟩
  | t :: ts, ⟨ht, hts⟩ => by
    obtain ⟨hb, hs⟩ := zero_balanced t ht
    obtain ⟨hbs, hss⟩ := zeroAll_balanced ts hts
    exact ⟨⟨hb, hbs⟩, hs.append hss⟩

end

/-- Hierarchical access counts add up: a call changes only the expander with its id, and every switch's counters are
sums over its subtree. -/
theorem access_counts_add_up (t : Tree) (hzero : t.Zero) (hids : (ids t.endpoints).Nodup) (calls : List Request) :
    AllSteps step Local t calls ∧ (run step t calls).Balanced := by
  have hstart : Inv t := ⟨hids, (zero_balanced t hzero).1⟩
  have hall : AllSteps step (fun _ _ => True) t calls := allSteps_of_forall (fun _ _ => trivial) t calls
  have hstep : ∀ t o, Inv t → True → Inv (step t o) := fun t o h _ => step_inv h o
  exact ⟨allSteps_of_inv hstep (fun t o h _ => step_local h o) hstart hall, (run_inv hstep hstart hall).balanced⟩

def twoLevels : Tree :=
  .node 0 0 [({ exactConfig with id := 1 }, .start)] [.node 0 0 [({ exactConfig with id := 2 }, .start)] []]

theorem access_counts_add_up_two : (run step twoLevels [.insert 5 1 64 2, .recordAccess 6 1 64 1 true]).Balanced :=
  (access_counts_add_up twoLevels (by simp [twoLevels, Tree.Zero, ZeroAll, CXLMemExpander.start])
    (by simp [twoLevels, ids, Tree.endpoints, endpointsOf]) _).2

end CxlMemSim.Counting
