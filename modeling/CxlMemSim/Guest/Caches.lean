/-
Two caches of the guest CUDA library, by ids that the device may give anew: the parameters of graph kernel nodes
(`cuGraphKernelNodeGetParams`) and the parameter layouts of functions (`function_param_layout_copy`).

- `Nodes`: one process. Snapshots are cleared only at its exit.
- `Layouts`: any threads. A device command and an access under `g_function_param_layouts_lock` are one step each; a
  look-up keeps the lock to its insertion. A context destruction is an `unload` of every function. `seen` is a ghost:
  what the device held for the function since the call began.
-/
import CxlMemSim.Core.Run

namespace CxlMemSim.Guest

open CxlMemSim.Core Function

variable {P : Type}

/-! ## Snapshots of kernel nodes -/

namespace Nodes

structure State (P : Type) where
  nodes : ℕ → Option P := fun _ => none
  snapshots : List (ℕ × P) := []

/-- `create` is any graph operation by which the device comes to hold a node; `ok` says that a command succeeds, its reply
is well formed and memory suffices -/
inductive Op (P : Type) where
  | create (node : ℕ) (params : P)
  | graphDestroy (nodes : List ℕ)
  | getParams (node : ℕ) (ok : Bool)

variable (s : State P)

def snapshotFind (node : ℕ) : Option P := (s.snapshots.find? fun e => e.1 = node).map Prod.snd

def getParams (node : ℕ) (ok : Bool) : Option P × State P :=
  match snapshotFind s node with
  | some params => (some params, s)
  | none =>
    match s.nodes node, ok with
    | some params, true => (some params, { s with snapshots := (node, params) :: s.snapshots })
    | _, _ => (none, s)

def step : Op P → State P
  | .create node params => if s.nodes node = none then { s with nodes := update s.nodes node (some params) } else s
  | .graphDestroy dead => { s with nodes := fun node => if node ∈ dead then none else s.nodes node }
  | .getParams node ok => (getParams s node ok).2

/-- a call that succeeds returns what the device holds for the node -/
def Current (o : Op P) : Prop :=
  ∀ node ok params, o = .getParams node ok → (getParams s node ok).1 = some params → s.nodes node = some params

/-- no id is given anew once its parameters have been read, and no id of a destroyed node is asked for -/
def Lasting : Op P → Prop
  | .create node _ => snapshotFind s node = none
  | .graphDestroy _ => True
  | .getParams node _ => s.nodes node ≠ none

/-- a snapshot is of a node the device still holds, or of one that is gone -/
def Kept : Prop := ∀ node params, snapshotFind s node = some params → s.nodes node = none ∨ s.nodes node = some params

variable {s}

lemma kept_step (o : Op P) (h : Kept s) (ho : Lasting s o) : Kept (step s o) := by
  intro node params hfind
  cases o with
  | create new p =>
    simp only [step] at hfind ⊢
    split_ifs at hfind ⊢ with hfree
    · have hne : node ≠ new := by
        rintro rfl
        exact absurd (ho.symm.trans hfind) (by simp)
      simpa only [update_of_ne hne] using h node params hfind
    · exact h node params hfind
  | graphDestroy dead =>
    simp only [step]
    split_ifs
    · exact .inl rfl
    · exact h node params hfind
  | getParams asked ok =>
    simp only [step, getParams] at hfind ⊢
    split at hfind
    · exact h node params hfind
    · split at hfind
      · rename_i p hnode
        by_cases heq : asked = node
        · subst heq
          obtain rfl : p = params := by simpa [snapshotFind] using hfind
          exact .inr hnode
        · exact h node params (by simpa [snapshotFind, heq] using hfind)
      · exact h node params hfind

lemma current_of_kept (o : Op P) (h : Kept s) (ho : Lasting s o) : Current s o := by
  rintro node ok params rfl hreturn
  unfold getParams at hreturn
  split at hreturn
  · rename_i p hfound
    exact (h node params (hfound.trans hreturn)).resolve_left ho
  · split at hreturn
    · rename_i hnode
      exact hnode.trans hreturn
    · cases hreturn

/-- Kernel node parameters are current in every run that gives no id anew and asks for no destroyed node. -/
theorem node_params_current (ops : List (Op P)) (h : AllSteps step Lasting {} ops) : AllSteps step Current {} ops :=
  allSteps_of_inv (fun _ o => kept_step o) (fun _ o => current_of_kept o) (by simp [Kept, snapshotFind]) h

theorem node_params_current_once :
    (getParams (run step {} [.create 5 true]) 5 true).1 = some true ∧
      AllSteps step Current {} [.create 5 true, .getParams 5 true, .getParams 5 true] :=
  ⟨rfl, node_params_current _ (by simp [AllSteps, Lasting, step, getParams, snapshotFind])⟩

/-- `cuGraphDestroy` leaves the snapshots: a node of a later graph with the same id is answered with the old one's
parameters. -/
theorem snapshot_outlives_graph : ¬ ∀ ops : List (Op Bool), AllSteps step Current {} ops := by
  intro h
  have hstale := (h [.create 5 true, .getParams 5 true, .graphDestroy [5], .create 5 false, .getParams 5 true]).2.2.2.2.1
  exact absurd (hstale 5 true true rfl rfl) (by decide)

end Nodes

/-! ## Parameter layouts of functions -/

namespace Layouts

variable {T L : Type}

/-- where a thread is: in no call, waiting for the lock, with the lock before its query or its insertion, or past an
`unload` whose clearing is still to come -/
inductive Pc (L : Type) where
  | idle
  | calling (f : ℕ)
  | querying (f : ℕ)
  | inserting (f : ℕ) (layout : L)
  | clearing

structure State (T L : Type) where
  layouts : ℕ → Option L := fun _ => none
  cache : ℕ → Option L := fun _ => none
  lock : Option T := none
  pc : T → Pc L := fun _ => .idle
  seen : T → List (ℕ → Option L) := fun _ => [fun _ => none]

inductive Event (L : Type) where
  | load (f : ℕ) (layout : L)
  | unload (dead : ℕ → Bool)
  | call (f : ℕ)
  | next (ok : Bool)

variable [DecidableEq T]

/-- the move of a thread, and the function and layout that its call returns by it -/
def move (s : State T L) (t : T) : Event L → State T L × Option (ℕ × L)
  | .load f layout =>
    match s.pc t, s.layouts f with
    | .idle, none => ({ s with layouts := update s.layouts f (some layout) }, none)
    | _, _ => (s, none)
  | .unload dead =>
    match s.pc t with
    | .idle => ({ s with
        layouts := fun f => if dead f then none else s.layouts f, pc := update s.pc t .clearing }, none)
    | _ => (s, none)
  | .call f =>
    match s.pc t with
    | .idle => ({ s with pc := update s.pc t (.calling f), seen := update s.seen t [] }, none)
    | _ => (s, none)
  | .next ok =>
    match s.pc t, s.lock with
    | .calling f, none =>
      match s.cache f with
      | some layout => ({ s with pc := update s.pc t .idle }, some (f, layout))
      | none => ({ s with lock := some t, pc := update s.pc t (.querying f) }, none)
    | .querying f, _ =>
      match s.layouts f, ok with
      | some layout, true => ({ s with pc := update s.pc t (.inserting f layout) }, none)
      | _, _ => ({ s with lock := none, pc := update s.pc t .idle }, none)
    | .inserting f layout, _ =>
      if ok then ({ s with
        cache := update s.cache f (some layout), lock := none, pc := update s.pc t .idle }, some (f, layout))
      else ({ s with lock := none, pc := update s.pc t .idle }, none)
    | .clearing, none => ({ s with cache := fun _ => none, pc := update s.pc t .idle }, none)
    | _, _ => (s, none)

def step (s : State T L) (o : T × Event L) : State T L :=
  let s' := (move s o.1 o.2).1
  { s' with seen := fun t => s'.layouts :: s'.seen t }

/-- a layout that is returned is one the device held for the function since the call began -/
def Fresh (s : State T L) (o : T × Event L) : Prop :=
  ∀ f layout, (move s o.1 o.2).2 = some (f, layout) → ∃ table ∈ s.seen o.1, table f = some layout

/-- no search of the cache falls between the command of an `unload` and its clearing -/
def Settled (s : State T L) (o : T × Event L) : Prop :=
  ∀ f ok, o.2 = .next ok → s.pc o.1 = .calling f → s.lock = none → ∀ t, s.pc t ≠ .clearing

structure Kept (s : State T L) : Prop where
  now : ∀ t, s.layouts ∈ s.seen t
  cached : (∀ t, s.pc t ≠ .clearing) → ∀ f layout, s.cache f = some layout → s.layouts f = some layout
  asking : ∀ t f, s.pc t = .querying f → s.lock = some t
  holding : ∀ t f layout, s.pc t = .inserting f layout → s.lock = some t ∧
    (∃ table ∈ s.seen t, table f = some layout) ∧ ((∀ u, s.pc u ≠ .clearing) → s.layouts f = some layout)

lemma kept_step (s : State T L) (o : T × Event L) (h : Kept s) : Kept (step s o) := by
  obtain ⟨t, ev⟩ := o
  obtain ⟨hnow, hc, ha, hh⟩ := h
  have hquiet (p : Pc L) (hq : ∀ u, update s.pc t p u ≠ .clearing) (ht : s.pc t ≠ .clearing) :
      ∀ u, s.pc u ≠ .clearing := by
    intro u
    by_cases hu : u = t
    · rwa [hu]
    · simpa only [update_of_ne hu] using hq u
  have hmem (u : T) : s.layouts ∈ s.layouts :: s.seen u := List.mem_cons_self
  have hsame : Kept { s with seen := fun t => s.layouts :: s.seen t } := ⟨hmem, hc, ha, by grind⟩
  unfold step move
  cases ev with
  | load f layout =>
    dsimp only
    split
    · exact ⟨fun u => List.mem_cons_self, by grind, ha, by grind⟩
    · exact hsame
  | unload dead =>
    dsimp only
    split
    · have hsome : ∃ u, update s.pc t Pc.clearing u = .clearing := ⟨t, update_self ..⟩
      exact ⟨fun u => List.mem_cons_self, by grind, by grind, by grind⟩
    · exact hsame
  | call f =>
    dsimp only
    split
    · refine ⟨fun u => List.mem_cons_self, fun hq => hc (hquiet _ hq (by grind)), by grind, fun u f' layout hu => ?_⟩
      obtain ⟨hlock, hmem, hheld⟩ := hh u f' layout (by grind)
      exact ⟨hlock, by grind, fun hq => hheld (hquiet _ hq (by grind))⟩
    · exact hsame
  | next ok =>
    dsimp only
    split
    · split
      · exact ⟨hmem, fun hq => hc (hquiet _ hq (by grind)), by grind, by grind⟩
      · exact ⟨hmem, fun hq => hc (hquiet _ hq (by grind)), by grind, by grind⟩
    · split
      · exact ⟨hmem, fun hq => hc (hquiet _ hq (by grind)), by grind, by grind⟩
      · exact ⟨hmem, fun hq => hc (hquiet _ hq (by grind)), by grind, by grind⟩
    · split_ifs
      · exact ⟨hmem, fun hq => by have := hquiet _ hq (by grind); grind, by grind, by grind⟩
      · exact ⟨hmem, fun hq => hc (hquiet _ hq (by grind)), by grind, by grind⟩
    · exact ⟨hmem, by grind, by grind, by grind⟩
    · exact hsame

lemma fresh_of_kept (s : State T L) (o : T × Event L) (h : Kept s) (hs : Settled s o) : Fresh s o := by
  obtain ⟨t, ev⟩ := o
  intro f layout hreturn
  unfold move at hreturn
  cases ev with
  | load g found | unload dead | call g =>
    dsimp only at hreturn
    split at hreturn <;> simp at hreturn
  | next ok =>
    dsimp only at hreturn
    split at hreturn
    · rename_i g hp hl
      split at hreturn
      · rename_i found hfound
        obtain ⟨rfl, rfl⟩ : g = f ∧ found = layout := by simpa using hreturn
        exact ⟨s.layouts, h.now t, h.cached (hs g ok rfl hp hl) g found hfound⟩
      · simp at hreturn
    · split at hreturn <;> simp at hreturn
    · rename_i g found hp
      split_ifs at hreturn
      obtain ⟨rfl, rfl⟩ : g = f ∧ found = layout := by simpa using hreturn
      exact (h.holding t g found hp).2.1
    · simp at hreturn
    · simp at hreturn

/-- Cached layouts are fresh in every interleaving in which no search falls between an unload and its clearing. -/
theorem layouts_fresh (ops : List (T × Event L)) (h : AllSteps step Settled ({} : State T L) ops) :
    AllSteps step Fresh ({} : State T L) ops :=
  allSteps_of_inv (fun s o hk _ => kept_step s o hk) fresh_of_kept ⟨by simp, by simp, by simp, by simp⟩ h

theorem layouts_fresh_reloaded : AllSteps step Fresh ({} : State (Fin 2) Bool)
    [(0, .load 7 true), (0, .call 7), (0, .next true), (0, .next true), (0, .next true), (1, .unload fun _ => true),
      (0, .call 7), (1, .next true), (1, .load 7 false), (0, .next true), (0, .next true), (0, .next true)] :=
  layouts_fresh _ (by simp [AllSteps, Settled, step, move])

/-- One thread reads a layout and another unloads its module; before the cache is cleared a module is loaded whose
function gets the same id, and a call is given the old layout. -/
theorem stale_before_clear : ¬ ∀ ops : List (Fin 2 × Event Bool), AllSteps step Fresh {} ops := by
  intro h
  have hstale := (h [(0, .load 7 true), (0, .call 7), (0, .next true), (0, .next true), (0, .next true),
    (1, .unload fun _ => true), (0, .load 7 false), (0, .call 7), (0, .next true)]).2.2.2.2.2.2.2.2.1
  exact absurd (hstale 7 true rfl) (by decide)

end Layouts

end CxlMemSim.Guest
