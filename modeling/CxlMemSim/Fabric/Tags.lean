/-
Extent tags: a caller of `add_capacity` gives a tag, or 0 for the next number of the device's counter. Nothing keeps the
two kinds apart.
-/
import CxlMemSim.Fabric.Gfam

namespace CxlMemSim.Dcd

open List

/-! ## The runs of a controller's device -/

def startOps (total initialCapacity initialTag : UInt64) : List Op :=
  if 0 < initialCapacity then [.add 0 (min initialCapacity total) initialTag 0] else []

lemma enableDcd_device (c : Gfam.Controller) (total gran initialCapacity initialTag : UInt64) :
    (Gfam.enableDcd c total gran initialCapacity initialTag).dcdDevice =
      some (Core.run step (DynamicCapacityDevice.new total gran) (startOps total initialCapacity initialTag)) := by
  unfold Gfam.enableDcd startOps
  split_ifs <;> rfl

def Op.automatic : Op → Bool
  | .add _ _ tag _ => tag = 0
  | .release _ _ _ _ => false

def autoRequests (ops : List Op) : ℕ := ops.countP Op.automatic

def TagAbove (n : ℕ) : Op → Prop
  | .add _ _ tag _ => tag = 0 ∨ n < tag.toNat
  | .release _ _ _ _ => True

instance (n : ℕ) : DecidablePred (TagAbove n) := fun o => by cases o <;> unfold TagAbove <;> infer_instance

/-- the tag of an extent added with tag 0 is not 0, was no active extent's, and names no extent but the new one -/
def TagDistinct (d : DynamicCapacityDevice) (o : Op) : Prop :=
  ∀ b n ts, o = .add b n 0 ts → (addCapacity d b n 0 ts).1.status = .ok →
    (addCapacity d b n 0 ts).1.tag ≠ 0 ∧ (∀ e ∈ live d, e.tag ≠ (addCapacity d b n 0 ts).1.tag) ∧
    ∀ b' n', ∀ e ∈ (step d o).extents, releaseMatches b' n' (addCapacity d b n 0 ts).1.tag e = true →
      e = ⟨(addCapacity d b n 0 ts).1.base, (addCapacity d b n 0 ts).1.size, (addCapacity d b n 0 ts).1.tag, ts, 0,
        true⟩

/-! ## The tags of a run -/

lemma addCapacity_cases (d : DynamicCapacityDevice) (b n tag ts : UInt64) :
    ((addCapacity d b n tag ts).1.status ≠ .ok ∧ (addCapacity d b n tag ts).2.nextTag = d.nextTag ∧
      (addCapacity d b n tag ts).2.extents = d.extents) ∨ ((addCapacity d b n tag ts).1.status = .ok ∧
      (addCapacity d b n tag ts).1.tag = (if tag = 0 then d.nextTag else tag) ∧
      (addCapacity d b n tag ts).2.nextTag = (if tag = 0 then d.nextTag + 1 else d.nextTag) ∧
      (addCapacity d b n tag ts).2.extents = d.extents ++
        [⟨(addCapacity d b n tag ts).1.base, (addCapacity d b n tag ts).1.size, (addCapacity d b n tag ts).1.tag,
          ts, 0, true⟩]) := by
  by_cases hok : (addCapacity d b n tag ts).1.status = .ok
  · refine Or.inr ⟨hok, ?_⟩
    unfold addCapacity at hok ⊢
    dsimp only at hok ⊢
    split at hok
    · rename_i r hr
      exact absurd hok (placeCapacity_error hr)
    · exact ⟨rfl, rfl, rfl⟩
  · have hsame := failed_unchanged d (.add b n tag ts) hok
    exact Or.inl ⟨hok, hsame.2, hsame.1⟩

lemma releaseCapacity_tags (d : DynamicCapacityDevice) (b n tag ts : UInt64) :
    (releaseCapacity d b n tag ts).2.nextTag = d.nextTag ∧
      ∀ e ∈ (releaseCapacity d b n tag ts).2.extents, ∃ f ∈ d.extents, f.tag = e.tag := by
  unfold releaseCapacity
  dsimp only
  split_ifs
  · exact ⟨rfl, fun e he => ⟨e, he, rfl⟩⟩
  · split
    · rename_i l hl
      refine ⟨rfl, fun e he => ?_⟩
      obtain ⟨pre, x, post, hsplit, -, rfl⟩ := releaseFirst_some hl
      rw [hsplit]
      simp only [mem_append, mem_cons] at he
      rcases he with he | rfl | he
      · exact ⟨e, by simp [he], rfl⟩
      · exact ⟨x, by simp, rfl⟩
      · exact ⟨e, by simp [he], rfl⟩
    · exact ⟨rfl, fun e he => ⟨e, he, rfl⟩⟩

/-- the counter is positive and stays within `n`; the tags in use are behind it or above `n` -/
structure TagInv (n : ℕ) (d : DynamicCapacityDevice) (ops : List Op) : Prop where
  pos : 0 < d.nextTag.toNat
  budget : d.nextTag.toNat + autoRequests ops ≤ n + 1
  tags : ∀ e ∈ d.extents, e.tag.toNat < d.nextTag.toNat ∨ n < e.tag.toNat

variable {n : ℕ} {d : DynamicCapacityDevice} {ops : List Op}

lemma TagInv.step (hn : n + 1 < 2 ^ 64) {o : Op}
    (h : TagInv n d (o :: ops)) (ho : TagAbove n o) : TagInv n (step d o) ops := by
  obtain ⟨hpos, hbudget, htags⟩ := h
  cases o with
  | release b m tag ts =>
    obtain ⟨hnext, hext⟩ := releaseCapacity_tags d b m tag ts
    have hcount : autoRequests (.release b m tag ts :: ops) = autoRequests ops := by simp [autoRequests, Op.automatic]
    refine ⟨by rw [Dcd.step, hnext]; exact hpos, by rw [Dcd.step, hnext]; omega, fun e he => ?_⟩
    obtain ⟨f, hf, heq⟩ := hext e he
    rw [Dcd.step, hnext, ← heq]
    exact htags f hf
  | add b m tag ts =>
    have hcount : autoRequests (.add b m tag ts :: ops) = autoRequests ops + if tag = 0 then 1 else 0 := by
      simp [autoRequests, Op.automatic, countP_cons]
    rcases addCapacity_cases d b m tag ts with ⟨-, hnext, hext⟩ | ⟨-, htag, hnext, hext⟩
    · refine ⟨by rw [Dcd.step, hnext]; exact hpos, by rw [Dcd.step, hnext]; omega, ?_⟩
      rw [Dcd.step, hnext, hext]
      exact htags
    · by_cases hauto : tag = 0
      · rw [if_pos hauto] at hcount htag hnext
        have hsucc : (d.nextTag + 1).toNat = d.nextTag.toNat + 1 := by
          rw [UInt64.toNat_add, UInt64.toNat_one]
          exact Nat.mod_eq_of_lt (by omega)
        refine ⟨by rw [Dcd.step, hnext, hsucc]; omega, by rw [Dcd.step, hnext, hsucc]; omega, fun e he => ?_⟩
        rw [Dcd.step, hext, mem_append, mem_singleton] at he
        rw [Dcd.step, hnext, hsucc]
        rcases he with he | rfl
        · have := htags e he
          omega
        · rw [htag]
          exact Or.inl (Nat.lt_succ_self _)
      · rw [if_neg hauto] at hcount htag hnext
        refine ⟨by rw [Dcd.step, hnext]; exact hpos, by rw [Dcd.step, hnext]; omega, fun e he => ?_⟩
        rw [Dcd.step, hext, mem_append, mem_singleton] at he
        rw [Dcd.step, hnext]
        rcases he with he | rfl
        · exact htags e he
        · rw [htag]
          exact Or.inr (ho.resolve_left hauto)

/-- an automatic tag within the budget is new -/
lemma TagInv.distinct {o : Op} (h : TagInv n d (o :: ops)) : TagDistinct d o := by
  rintro b m ts rfl hok
  obtain ⟨hpos, hbudget, htags⟩ := h
  have hcount : autoRequests (.add b m 0 ts :: ops) = autoRequests ops + 1 := by simp [autoRequests, Op.automatic]
  rcases addCapacity_cases d b m 0 ts with ⟨hfail, -, -⟩ | ⟨-, htag, -, hext⟩
  · exact absurd hok hfail
  · rw [if_pos rfl] at htag
    have hnew : ∀ e ∈ d.extents, e.tag ≠ d.nextTag := by
      intro e he heq
      have := htags e he
      rw [heq] at this
      omega
    refine ⟨?_, fun e he => ?_, fun b' n' e he hmatch => ?_⟩
    · rw [htag, ne_eq, eq_zero_iff_toNat]
      omega
    · rw [htag]
      exact hnew e (List.mem_filter.1 he).1
    · rw [Dcd.step, hext, mem_append, mem_singleton] at he
      rcases he with he | he
      · -- a match needs the tag, which no older extent has; the request's tag is not the wildcard 0
        have htag0 : ¬ d.nextTag = 0 := by rw [eq_zero_iff_toNat]; omega
        simp only [releaseMatches, htag, htag0, decide_false, Bool.false_or, Bool.and_eq_true, decide_eq_true_eq]
          at hmatch
        exact absurd hmatch.1.1.2 (hnew e he)
      · exact he

/-- along a run within the budget every automatic tag is new -/
lemma allSteps_tagDistinct (hn : n + 1 < 2 ^ 64) (h : TagInv n d ops)
    (hops : ∀ o ∈ ops, TagAbove n o) : Core.AllSteps step TagDistinct d ops := by
  induction ops generalizing d with
  | nil => exact trivial
  | cons o ops ih =>
    refine ⟨h.distinct, ih (h.step hn (hops o mem_cons_self)) fun p hp => hops p (mem_cons_of_mem o hp)⟩

/-- Automatic tags identify extents if every tag a caller passes is 0 or above the number of automatic tags asked
for. -/
theorem automatic_tags_distinct (c : Gfam.Controller) (total gran initialCapacity initialTag : UInt64) (ops : List Op)
    (hcount : autoRequests (startOps total initialCapacity initialTag ++ ops) + 1 < 2 ^ 64)
    (htags : ∀ o ∈ startOps total initialCapacity initialTag ++ ops,
      TagAbove (autoRequests (startOps total initialCapacity initialTag ++ ops)) o) :
    (∃ d, (Gfam.enableDcd c total gran initialCapacity initialTag).dcdDevice = some d ∧
      d = Core.run step (DynamicCapacityDevice.new total gran) (startOps total initialCapacity initialTag)) ∧
    Core.AllSteps step TagDistinct (DynamicCapacityDevice.new total gran)
      (startOps total initialCapacity initialTag ++ ops) := by
  refine ⟨⟨_, enableDcd_device c total gran initialCapacity initialTag, rfl⟩, ?_⟩
  refine allSteps_tagDistinct hcount ⟨?_, ?_, ?_⟩ htags
  · simp [DynamicCapacityDevice.new]
  · simp only [DynamicCapacityDevice.new, UInt64.toNat_one]
    omega
  · simp [DynamicCapacityDevice.new]

theorem automatic_tags_distinct_above :
    let d := Core.run step (DynamicCapacityDevice.new 1024 64) (startOps 1024 128 42)
    (addCapacity d u64Max 64 0 1).1 = ⟨.ok, 128, 64, 1⟩ ∧
    Core.AllSteps step TagDistinct (DynamicCapacityDevice.new 1024 64)
      (startOps 1024 128 42 ++ [.add u64Max 64 0 1, .release 128 64 1 2]) :=
  ⟨by decide, (automatic_tags_distinct ⟨none, none⟩ 1024 64 128 42 [.add u64Max 64 0 1, .release 128 64 1 2]
    (by decide) (by decide)).2⟩

theorem automatic_tag_collides :
    let d := Core.run step (DynamicCapacityDevice.new 1024 64) (startOps 1024 128 1)
    (addCapacity d u64Max 64 0 1).1 = ⟨.ok, 128, 64, 1⟩ ∧ (live d).map (·.tag) = [1] ∧
    ¬ TagDistinct d (.add u64Max 64 0 1) := by
  refine ⟨by decide, by decide, fun h => ?_⟩
  have hnew := (h u64Max 64 1 rfl (by decide)).2.1
  revert hnew
  decide

end CxlMemSim.Dcd
