/-
The containers of the cache (`LRUCache` of `include/cxlcontroller.h`): a map of the entries, a linked list of the keys
and a map from each key to its place in the list. `Controller.LRUCache` is the abstract cache, one list of entries with
the most recently used first.

Model: a place of the list is the identity of its node, so an iterator is a number. Erasing through an iterator that the
map does not have, and `back` of an empty list, are undefined: no result.

Results: `Describes.step` (one operation), `run_describes` (every sequence), `run_ordered` (the list is in the order of
the last get or put), `lru_refines` (all together, with the entry a put into a full cache evicts). Premise: a capacity of
at least 1; `lru_refines_evicts` is a run with an eviction.
-/
import CxlMemSim.Fabric.Controller

namespace CxlMemSim.Controller

open List

/-! ## The containers -/

structure LRUContainers where
  capacity : ℕ
  cache : Finmap fun _ : UInt64 => LRUCacheEntry
  lruList : List (ℕ × UInt64)
  lruMap : Finmap fun _ : UInt64 => ℕ
  nextNode : ℕ

namespace LRUContainers

/-- `lru_list.erase(lru_map[key])` -/
def unlink (s : LRUContainers) (key : UInt64) : Option LRUContainers :=
  (s.lruMap.lookup key).map fun node => { s with lruList := s.lruList.eraseP (·.1 = node) }

/-- `lru_list.push_front(key); lru_map[key] = lru_list.begin()`, and the entry under the key -/
def pushFront (s : LRUContainers) (e : LRUCacheEntry) : LRUContainers :=
  { s with lruList := (s.nextNode, e.key) :: s.lruList
           lruMap := s.lruMap.insert e.key s.nextNode
           nextNode := s.nextNode + 1
           cache := s.cache.insert e.key e }

/-- the key leaves the two maps -/
def forget (s : LRUContainers) (key : UInt64) : LRUContainers :=
  { s with lruMap := s.lruMap.erase key, cache := s.cache.erase key }

def get (s : LRUContainers) (key timestamp : UInt64) : Option (LRUContainers × Option UInt64) :=
  match s.cache.lookup key with
  | none => some (s, none)
  | some e => (s.unlink key).map fun s => (s.pushFront { e with timestamp := timestamp }, some e.value)

def evict (s : LRUContainers) : Option LRUContainers :=
  s.lruList.getLast?.map fun node => { s with lruList := s.lruList.dropLast }.forget node.2

def put (s : LRUContainers) (key value timestamp : UInt64) : Option LRUContainers :=
  let kept :=
    if (s.cache.lookup key).isSome then s.unlink key
    else if s.capacity ≤ s.cache.keys.card then s.evict
    else some s
  kept.map (·.pushFront ⟨key, value, timestamp⟩)

def remove (s : LRUContainers) (key : UInt64) : Option (LRUContainers × Bool) :=
  match s.cache.lookup key with
  | none => some (s, false)
  | some _ => (s.unlink key).map fun s => (s.forget key, true)

def clear (s : LRUContainers) : LRUContainers := { s with cache := ∅, lruList := [], lruMap := ∅ }

def contains (s : LRUContainers) (key : UInt64) : Bool := (s.cache.lookup key).isSome

def peek (s : LRUContainers) (key : UInt64) : Option UInt64 := (s.cache.lookup key).map (·.value)

end LRUContainers

inductive LRUOp where
  | get (key timestamp : UInt64)
  | put (key value timestamp : UInt64)
  | remove (key : UInt64)
  | clear
  | contains (key : UInt64)
  | peek (key : UInt64)

inductive LRUAnswer where
  | value (v : Option UInt64)
  | flag (b : Bool)
  | done
deriving DecidableEq

def LRUContainers.step (s : LRUContainers) : LRUOp → Option (LRUContainers × LRUAnswer)
  | .get key timestamp => (s.get key timestamp).map fun r => (r.1, .value r.2)
  | .put key value timestamp => (s.put key value timestamp).map fun s => (s, .done)
  | .remove key => (s.remove key).map fun r => (r.1, .flag r.2)
  | .clear => some (s.clear, .done)
  | .contains key => some (s, .flag (s.contains key))
  | .peek key => some (s, .value (s.peek key))

/-- the abstract cache -/
def LRUCache.step (l : LRUCache) : LRUOp → LRUCache × LRUAnswer
  | .get key timestamp => ((l.get key timestamp).1, .value (l.get key timestamp).2)
  | .put key value timestamp => (l.put key value timestamp, .done)
  | .remove key => (l.remove key, .flag (l.entries.any (·.key = key)))
  | .clear => ({ l with entries := [] }, .done)
  | .contains key => (l, .flag (l.entries.any (·.key = key)))
  | .peek key => (l, .value ((l.entries.find? (·.key = key)).map (·.value)))

/-! ## Lists without a repeated key -/

section Keys

variable {α : Type} {f : α → UInt64} {l : List α} {a : α}

lemma eraseP_eq_filter {β : Type} [DecidableEq β] {f : α → β} (k : β) (h : (l.map f).Nodup) :
    l.eraseP (f · = k) = l.filter (f · ≠ k) := by
  induction l with
  | nil => rfl
  | cons x l ih =>
    obtain ⟨hx, hl⟩ := List.nodup_cons.mp h
    by_cases hk : f x = k
    · subst hk
      have hall : l.filter (f · ≠ f x) = l :=
        List.filter_eq_self.mpr fun y hy => decide_eq_true fun heq => hx (List.mem_map.mpr ⟨y, hy, heq⟩)
      rw [eraseP_cons_of_pos (by simp), filter_cons_of_neg (by simp), hall]
    · simp [hk, ih hl]

lemma dropLast_eq_filter (h : (l.map f).Nodup) (ha : l.getLast? = some a) :
    l.dropLast = l.filter (f · ≠ f a) := by
  obtain ⟨init, rfl⟩ := List.getLast?_eq_some_iff.mp ha
  have hall : init.filter (f · ≠ f a) = init := by
    refine List.filter_eq_self.mpr fun y hy => decide_eq_true ?_
    rw [map_append, nodup_append] at h
    exact h.2.2 _ (mem_map_of_mem hy) _ (mem_singleton_self _)
  rw [dropLast_concat, filter_append, hall, filter_cons_of_neg (by simp), filter_nil,
    append_nil]

lemma find?_filter_ne (k x : UInt64) :
    (l.filter (f · ≠ k)).find? (f · = x) = if x = k then none else l.find? (f · = x) := by
  rw [find?_filter]
  split_ifs with h
  · refine List.find?_eq_none.mpr fun y _ => ?_
    simp +contextual [h]
  · congr 1
    funext y
    by_cases hy : f y = x
    · simp [hy, h]
    · simp [hy]

end Keys

/-! ## Refinement -/

/-- the containers describe the list: the same keys in the linked list, the same entries in the map, and an iterator to
its own node for each key -/
structure Describes (s : LRUContainers) (l : LRUCache) : Prop where
  capacity : s.capacity = l.capacity
  keys : s.lruList.map (·.2) = l.entries.map (·.key)
  distinct : (l.entries.map (·.key)).Nodup
  nodes : (s.lruList.map (·.1)).Nodup
  fresh : ∀ node ∈ s.lruList, node.1 < s.nextNode
  cache : ∀ k, s.cache.lookup k = l.entries.find? (·.key = k)
  iterators : ∀ k node, s.lruMap.lookup k = some node ↔ (node, k) ∈ s.lruList
  room : l.entries.length ≤ l.capacity

section Refinement

variable {s : LRUContainers} {l : LRUCache}

/-- the state without one key -/
def LRUContainers.without (s : LRUContainers) (key : UInt64) : LRUContainers :=
  { s with lruList := s.lruList.filter (·.2 ≠ key) }.forget key

lemma Describes.without (h : Describes s l) (key : UInt64) :
    Describes (s.without key) { l with entries := l.entries.filter (·.key ≠ key) } where
  capacity := h.capacity
  keys := by
    have hfilter := congrArg (List.filter (· ≠ key)) h.keys
    rwa [filter_map, filter_map] at hfilter
  distinct := h.distinct.sublist (List.filter_sublist.map _)
  nodes := h.nodes.sublist (List.filter_sublist.map _)
  fresh := fun node hnode => h.fresh node (mem_of_mem_filter hnode)
  cache := fun k => by
    rw [find?_filter_ne, ← h.cache]
    change (s.cache.erase key).lookup k = _
    split_ifs with hk
    · rw [hk, Finmap.lookup_erase]
    · exact Finmap.lookup_erase_ne hk
  iterators := fun k node => by
    change (s.lruMap.erase key).lookup k = _ ↔ (node, k) ∈ s.lruList.filter (·.2 ≠ key)
    by_cases hk : k = key
    · subst hk
      simp
    · rw [Finmap.lookup_erase_ne hk, h.iterators]
      simp [hk]
  room := (length_filter_le _ _).trans h.room

lemma Describes.push (h : Describes s l) (e : LRUCacheEntry) (hnew : e.key ∉ l.entries.map (·.key))
    (hroom : l.entries.length < l.capacity) : Describes (s.pushFront e) { l with entries := e :: l.entries } where
  capacity := h.capacity
  keys := congrArg (e.key :: ·) h.keys
  distinct := List.nodup_cons.mpr ⟨hnew, h.distinct⟩
  nodes := List.nodup_cons.mpr ⟨fun hmem => by
    obtain ⟨node, hnode, heq⟩ := List.mem_map.mp hmem
    exact (h.fresh node hnode).ne heq, h.nodes⟩
  fresh := fun node hnode => by
    rcases List.mem_cons.mp hnode with rfl | hold
    · exact Nat.lt_succ_self _
    · exact (h.fresh node hold).trans (Nat.lt_succ_self _)
  cache := fun k => by
    change (s.cache.insert e.key e).lookup k = _
    by_cases hk : k = e.key
    · subst hk
      simp
    · rw [Finmap.lookup_insert_of_ne _ hk, h.cache, find?_cons_of_neg (by simpa using Ne.symm hk)]
  iterators := fun k node => by
    change (s.lruMap.insert e.key s.nextNode).lookup k = _ ↔ (node, k) ∈ (s.nextNode, e.key) :: s.lruList
    by_cases hk : k = e.key
    · subst hk
      have hold : (node, e.key) ∉ s.lruList := fun hmem => hnew (h.keys ▸ List.mem_map.mpr ⟨_, hmem, rfl⟩)
      simp [hold, eq_comm]
    · rw [Finmap.lookup_insert_of_ne _ hk, h.iterators]
      simp [hk]
  room := hroom

lemma insert_erase_self {β : UInt64 → Type} (m : Finmap β) (k : UInt64) (v : β k) :
    (m.erase k).insert k v = m.insert k v := by
  refine Finmap.ext_lookup fun x => ?_
  by_cases hx : x = k
  · subst hx
    simp
  · rw [Finmap.lookup_insert_of_ne _ hx, Finmap.lookup_insert_of_ne _ hx, Finmap.lookup_erase_ne hx]

/-- taking the node of a key out of the linked list leaves the other keys -/
lemma Describes.unlink (h : Describes s l) {key : UInt64} (hkey : key ∈ l.entries.map (·.key)) :
    ∃ s', s.unlink key = some s' ∧ s'.forget key = s.without key ∧
      ∀ e : LRUCacheEntry, e.key = key → s'.pushFront e = (s.without key).pushFront e := by
  obtain ⟨⟨node, k⟩, hnode, rfl⟩ := List.mem_map.mp (h.keys ▸ hkey)
  have hlist : s.lruList.eraseP (·.1 = node) = s.lruList.filter (·.2 ≠ k) := by
    rw [eraseP_eq_filter node h.nodes]
    refine filter_congr fun x hx => decide_eq_decide.mpr (not_congr ⟨fun heq => ?_, fun heq => ?_⟩)
    · exact congrArg Prod.snd (inj_on_of_nodup_map h.nodes hx hnode heq)
    · exact congrArg Prod.fst (inj_on_of_nodup_map (h.keys ▸ h.distinct) hx hnode heq)
  refine ⟨{ s with lruList := s.lruList.filter (·.2 ≠ k) }, ?_, rfl, fun e he => ?_⟩
  · rw [LRUContainers.unlink, (h.iterators k node).mpr hnode, Option.map_some, hlist]
  · subst he
    simp only [LRUContainers.pushFront, LRUContainers.without, LRUContainers.forget, insert_erase_self]

lemma Describes.mem_keys (h : Describes s l) (key : UInt64) :
    (s.cache.lookup key).isSome = true ↔ key ∈ l.entries.map (·.key) := by
  rw [h.cache, find?_isSome, mem_map]
  simp only [decide_eq_true_eq]

lemma Describes.card_keys (h : Describes s l) : s.cache.keys.card = l.entries.length := by
  have hkeys : s.cache.keys = (l.entries.map (·.key)).toFinset := by
    ext key
    rw [Finmap.mem_keys, mem_toFinset, ← h.mem_keys, Finmap.lookup_isSome]
  rw [hkeys, toFinset_card_of_nodup h.distinct, length_map]

/-- the list with one key taken out and put in front -/
lemma Describes.renew (h : Describes s l) {e : LRUCacheEntry} (hkey : e.key ∈ l.entries.map (·.key)) :
    ∃ s', s.unlink e.key = some s' ∧
      Describes (s'.pushFront e) { l with entries := e :: l.entries.eraseP (·.key = e.key) } := by
  obtain ⟨s', hunlink, -, hpush⟩ := h.unlink hkey
  refine ⟨s', hunlink, ?_⟩
  rw [hpush e rfl, eraseP_eq_filter e.key h.distinct]
  obtain ⟨x, hx, hxe⟩ := List.mem_map.mp hkey
  refine (h.without e.key).push e (by simp) (lt_of_lt_of_le ?_ h.room)
  exact List.length_filter_lt_length_iff_exists.mpr ⟨x, hx, by simp [hxe]⟩

lemma Describes.evict (h : Describes s l) (hfull : l.capacity ≤ l.entries.length) (hpos : 0 < l.capacity) :
    ∃ s', s.evict = some s' ∧ Describes s' { l with entries := l.entries.dropLast } := by
  obtain ⟨e, he⟩ : ∃ e, l.entries.getLast? = some e :=
    ⟨_, getLast?_eq_some_getLast (ne_nil_of_length_pos (hpos.trans_le hfull))⟩
  obtain ⟨node, hnode⟩ : ∃ node, s.lruList.getLast? = some node := by
    have hlast := congrArg List.getLast? h.keys
    rw [getLast?_map, getLast?_map, he] at hlast
    exact (Option.map_eq_some_iff.mp hlast).imp fun _ h => h.1
  have hkey : node.2 = e.key := by
    have hlast := congrArg List.getLast? h.keys
    rw [getLast?_map, getLast?_map, he, hnode] at hlast
    exact Option.some.inj hlast
  refine ⟨s.without node.2, ?_, ?_⟩
  · rw [LRUContainers.evict, hnode, Option.map_some, dropLast_eq_filter (h.keys ▸ h.distinct) hnode]
    rfl
  · rw [dropLast_eq_filter h.distinct he, ← hkey]
    exact h.without node.2

/-- Refinement. Every operation of the containers has a result, its answer is that of the abstract cache, and the
containers still describe the list. -/
lemma Describes.step (h : Describes s l) (hpos : 0 < l.capacity) (o : LRUOp) :
    ∃ s', s.step o = some (s', (l.step o).2) ∧ Describes s' (l.step o).1 := by
  have hany : ∀ key, l.entries.any (·.key = key) = (s.cache.lookup key).isSome := by
    intro key
    rw [h.cache, Bool.eq_iff_iff, any_eq_true, find?_isSome]
  cases o with
  | get key timestamp =>
    simp only [LRUContainers.step, LRUContainers.get, LRUCache.step, LRUCache.get, h.cache]
    cases hfind : l.entries.find? (·.key = key) with
    | none => exact ⟨s, rfl, h⟩
    | some e =>
      obtain rfl : e.key = key := by simpa using find?_some hfind
      obtain ⟨s', hunlink, hs'⟩ := h.renew (e := { e with timestamp := timestamp })
        (List.mem_map.mpr ⟨e, mem_of_find?_eq_some hfind, rfl⟩)
      exact ⟨_, by rw [hunlink]; rfl, hs'⟩
  | put key value timestamp =>
    simp only [LRUContainers.step, LRUContainers.put, LRUCache.step, LRUCache.put, hany, h.card_keys, h.capacity, ge_iff_le]
    split_ifs with hin hfull
    · obtain ⟨s', hunlink, hs'⟩ := h.renew (e := ⟨key, value, timestamp⟩) ((h.mem_keys key).mp hin)
      exact ⟨_, by rw [hunlink]; rfl, hs'⟩
    · obtain ⟨s', hevict, hs'⟩ := h.evict hfull hpos
      refine ⟨_, by rw [hevict]; rfl, hs'.push ⟨key, value, timestamp⟩ (fun hmem => ?_) ?_⟩
      · exact hin ((h.mem_keys key).mpr (map_subset _ (dropLast_subset _) hmem))
      · have hroom := h.room
        simp only [length_dropLast]
        omega
    · exact ⟨_, rfl, h.push ⟨key, value, timestamp⟩ (fun hmem => hin ((h.mem_keys key).mpr hmem)) (Nat.not_le.mp hfull)⟩
  | remove key =>
    simp only [LRUContainers.step, LRUContainers.remove, LRUCache.step, LRUCache.remove, hany]
    cases hfind : s.cache.lookup key with
    | none =>
      have hout : l.entries.eraseP (·.key = key) = l.entries :=
        eraseP_of_forall_not fun e he => List.find?_eq_none.mp ((h.cache key).symm.trans hfind) e he
      exact ⟨s, rfl, by rw [hout]; exact h⟩
    | some e =>
      obtain ⟨s', hunlink, hforget, -⟩ := h.unlink ((h.mem_keys key).mp (by rw [hfind]; rfl))
      refine ⟨s'.forget key, by rw [hunlink]; rfl, ?_⟩
      rw [hforget, eraseP_eq_filter key h.distinct]
      exact h.without key
  | clear =>
    exact ⟨s.clear, rfl, h.capacity, rfl, nodup_nil, nodup_nil, by simp [LRUContainers.clear],
      fun _ => rfl, by simp [LRUContainers.clear], Nat.zero_le _⟩
  | contains key => exact ⟨s, by simp [LRUContainers.step, LRUContainers.contains, LRUCache.step, hany], h⟩
  | peek key => exact ⟨s, by simp [LRUContainers.step, LRUContainers.peek, LRUCache.step, h.cache], h⟩

end Refinement

/-! ## Runs -/

def LRUContainers.run : LRUContainers → List LRUOp → Option (LRUContainers × List LRUAnswer)
  | s, [] => some (s, [])
  | s, o :: ops =>
    match s.step o with
    | none => none
    | some (s', answer) => (s'.run ops).map fun r => (r.1, answer :: r.2)

def LRUCache.run : LRUCache → List LRUOp → LRUCache × List LRUAnswer
  | l, [] => (l, [])
  | l, o :: ops => (((l.step o).1.run ops).1, (l.step o).2 :: ((l.step o).1.run ops).2)

def LRUContainers.start (capacity : ℕ) : LRUContainers := ⟨capacity, ∅, [], ∅, 0⟩

/-- the operation is a get or put of the key -/
def LRUOp.uses (key : UInt64) : LRUOp → Bool
  | .get k _ => k = key
  | .put k _ _ => k = key
  | _ => false

/-- the position of the last get or put of a key, 0 if there is none -/
def lastUse (ops : List LRUOp) (key : UInt64) : ℕ := ops.length - ops.reverse.findIdx (·.uses key)

lemma lastUse_concat (ops : List LRUOp) (o : LRUOp) (key : UInt64) :
    lastUse (ops ++ [o]) key = if o.uses key then ops.length + 1 else lastUse ops key := by
  unfold lastUse
  rw [reverse_concat, findIdx_cons, length_append]
  cases o.uses key <;> simp

lemma step_capacity (l : LRUCache) (o : LRUOp) : (l.step o).1.capacity = l.capacity := by
  cases o with
  | get key timestamp =>
    simp only [LRUCache.step, LRUCache.get]
    split <;> rfl
  | _ => rfl

lemma run_capacity (l : LRUCache) (ops : List LRUOp) : (l.run ops).1.capacity = l.capacity := by
  induction ops generalizing l with
  | nil => rfl
  | cons o ops ih => exact (ih _).trans (step_capacity l o)

lemma describes_start (capacity : ℕ) : Describes (.start capacity) ⟨capacity, []⟩ :=
  ⟨rfl, rfl, nodup_nil, nodup_nil, by simp [LRUContainers.start], fun _ => rfl,
    by simp [LRUContainers.start], Nat.zero_le _⟩

lemma run_describes {s : LRUContainers} {l : LRUCache} (h : Describes s l) (hpos : 0 < l.capacity)
    (ops : List LRUOp) : ∃ s', s.run ops = some (s', (l.run ops).2) ∧ Describes s' (l.run ops).1 := by
  induction ops generalizing s l with
  | nil => exact ⟨s, rfl, h⟩
  | cons o ops ih =>
    obtain ⟨s₁, hstep, h₁⟩ := h.step hpos o
    obtain ⟨s₂, hrun, h₂⟩ := ih h₁ (step_capacity l o ▸ hpos)
    exact ⟨s₂, by simp [LRUContainers.run, hstep, hrun, LRUCache.run], h₂⟩

/-- an operation drops some keys that it does not use, and puts the key it uses in front -/
lemma step_keys {l : LRUCache} (hdistinct : (l.entries.map (·.key)).Nodup) (o : LRUOp) :
    ∃ kept : List UInt64, kept.Sublist (l.entries.map (·.key)) ∧ (∀ k ∈ kept, o.uses k = false) ∧
      ((l.step o).1.entries.map (·.key) = kept ∨
        ∃ k, o.uses k = true ∧ (l.step o).1.entries.map (·.key) = k :: kept) := by
  have hsub : ∀ kept : List LRUCacheEntry, kept.Sublist l.entries →
      (kept.map (·.key)).Sublist (l.entries.map (·.key)) := fun _ h => h.map _
  have herased : ∀ key, ∀ k ∈ (l.entries.eraseP (·.key = key)).map (·.key), decide (key = k) = false := by
    intro key k hk
    rw [eraseP_eq_filter key hdistinct] at hk
    obtain ⟨e, he, rfl⟩ := List.mem_map.mp hk
    exact decide_eq_false (Ne.symm (by simpa using (List.mem_filter.mp he).2))
  have hother : ∀ key, (∀ e ∈ l.entries, e.key ≠ key) → ∀ k ∈ l.entries.map (·.key), decide (key = k) = false := by
    intro key hno k hk
    obtain ⟨e, he, rfl⟩ := List.mem_map.mp hk
    exact decide_eq_false (hno e he).symm
  cases o with
  | get key timestamp =>
    simp only [LRUCache.step, LRUCache.get]
    cases hfind : l.entries.find? (·.key = key) with
    | none =>
      have hno : ∀ e ∈ l.entries, e.key ≠ key := fun e he => by simpa using List.find?_eq_none.mp hfind e he
      exact ⟨_, List.Sublist.refl _, hother key hno, .inl rfl⟩
    | some e =>
      obtain rfl : e.key = key := by simpa using find?_some hfind
      exact ⟨_, hsub _ eraseP_sublist, herased e.key, .inr ⟨e.key, decide_eq_true rfl, rfl⟩⟩
  | put key value timestamp =>
    simp only [LRUCache.step, LRUCache.put]
    split_ifs with hin
    · exact ⟨_, hsub _ eraseP_sublist, herased key, .inr ⟨key, decide_eq_true rfl, rfl⟩⟩
    all_goals
      have hno : ∀ e ∈ l.entries, e.key ≠ key := fun e he heq =>
        hin (List.any_eq_true.mpr ⟨e, he, decide_eq_true heq⟩)
    · exact ⟨_, hsub _ (dropLast_sublist _), fun k hk => hother key hno k
        (map_subset _ (dropLast_subset _) hk), .inr ⟨key, decide_eq_true rfl, rfl⟩⟩
    · exact ⟨_, List.Sublist.refl _, hother key hno, .inr ⟨key, decide_eq_true rfl, rfl⟩⟩
  | remove key => exact ⟨_, hsub _ eraseP_sublist, fun _ _ => rfl, .inl rfl⟩
  | clear => exact ⟨[], nil_sublist _, fun _ _ => rfl, .inl rfl⟩
  | contains key => exact ⟨_, List.Sublist.refl _, fun _ _ => rfl, .inl rfl⟩
  | peek key => exact ⟨_, List.Sublist.refl _, fun _ _ => rfl, .inl rfl⟩

/-- `a` was used after `b` -/
def UsedAfter (ops : List LRUOp) (a b : UInt64) : Prop := lastUse ops b < lastUse ops a

lemma run_concat (l : LRUCache) (ops : List LRUOp) (o : LRUOp) :
    (l.run (ops ++ [o])).1 = ((l.run ops).1.step o).1 := by
  induction ops generalizing l with
  | nil => rfl
  | cons o' ops ih => exact ih _

lemma run_ordered (capacity : ℕ) (hcap : 1 ≤ capacity) (ops : List LRUOp) :
    (((LRUCache.mk capacity []).run ops).1.entries.map (·.key)).Pairwise (UsedAfter ops) := by
  induction ops using List.reverseRecOn with
  | nil => exact List.Pairwise.nil
  | append_singleton ops o ih =>
    obtain ⟨s, -, hs⟩ := run_describes (describes_start capacity) hcap ops
    obtain ⟨kept, hsub, hunused, hkeys⟩ := step_keys hs.distinct o
    have hkept : kept.Pairwise (UsedAfter (ops ++ [o])) := by
      refine (ih.sublist hsub).imp_of_mem fun {a b} ha hb h => ?_
      simpa [UsedAfter, lastUse_concat, hunused a ha, hunused b hb] using h
    rw [run_concat]
    rcases hkeys with heq | ⟨k, hk, heq⟩
    · rwa [heq]
    · rw [heq]
      refine List.pairwise_cons.mpr ⟨fun b hb => ?_, hkept⟩
      rw [UsedAfter, lastUse_concat, lastUse_concat, hk, hunused b hb]
      exact Nat.lt_succ_of_le (Nat.sub_le _ _)

/-- The cache is a least-recently-used map. The containers answer every sequence of operations as the list does and
describe it at the end; the list is in the order of the last get or put; and a new key in a full cache takes the place
of the one whose last use is oldest. -/
theorem lru_refines (capacity : ℕ) (hcap : 1 ≤ capacity) (ops : List LRUOp) :
    ∃ (s : LRUContainers) (l : LRUCache) (answers : List LRUAnswer),
      (LRUContainers.start capacity).run ops = some (s, answers) ∧ (LRUCache.mk capacity []).run ops = (l, answers) ∧
      Describes s l ∧ (l.entries.map (·.key)).Pairwise (UsedAfter ops) ∧
      ∀ key value timestamp, key ∉ l.entries.map (·.key) → l.entries.length = capacity →
        ∃ kept old, l.entries.map (·.key) = kept ++ [old] ∧ (∀ k ∈ kept, UsedAfter ops k old) ∧
          (l.put key value timestamp).entries.map (·.key) = key :: kept := by
  obtain ⟨s, hrun, hs⟩ := run_describes (describes_start capacity) hcap ops
  have hordered := run_ordered capacity hcap ops
  have hcapacity := run_capacity ⟨capacity, []⟩ ops
  generalize (LRUCache.mk capacity []).run ops = r at hrun hs hordered hcapacity
  refine ⟨s, r.1, r.2, hrun, rfl, hs, hordered, fun key value timestamp hnew hfull => ?_⟩
  obtain ⟨kept, old, heq⟩ : ∃ kept old, r.1.entries = kept ++ [old] :=
    ⟨_, _, (dropLast_append_getLast (ne_nil_of_length_pos (hfull.symm ▸ hcap))).symm⟩
  have hput : r.1.put key value timestamp = { r.1 with entries := ⟨key, value, timestamp⟩ :: kept } := by
    have hany : ¬ r.1.entries.any (·.key = key) := by
      simpa [any_eq_true, mem_map] using hnew
    rw [LRUCache.put, if_neg hany, if_pos (by rw [hfull, hcapacity])]
    simp [heq]
  rw [heq, map_append] at hordered
  refine ⟨kept.map (·.key), old.key, by rw [heq]; simp, fun k hk => ?_, by rw [hput]; rfl⟩
  exact (List.pairwise_append.mp hordered).2.2 k hk old.key (by simp)

theorem lru_refines_evicts :
    ∃ (s : LRUContainers) (l : LRUCache) (answers : List LRUAnswer),
      (LRUContainers.start 2).run [.put 1 10 0, .put 2 20 1, .get 1 2, .put 3 30 3, .get 2 4] = some (s, answers) ∧
      (LRUCache.mk 2 []).run [.put 1 10 0, .put 2 20 1, .get 1 2, .put 3 30 3, .get 2 4] = (l, answers) ∧
      Describes s l := by
  obtain ⟨s, l, answers, hs, hl, h, -⟩ := lru_refines 2 (by decide) [.put 1 10 0, .put 2 20 1, .get 1 2, .put 3 30 3,
    .get 2 4]
  exact ⟨s, l, answers, hs, hl, h⟩

end CxlMemSim.Controller
