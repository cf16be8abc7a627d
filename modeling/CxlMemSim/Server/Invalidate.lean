/-
Does a back-invalidation request (`OP_BI_INVALIDATE`) come to its end? For a range that ends in the last line of the
address space the line counter wraps first: the worker never answers, and every turn appends to a queue.
-/
import CxlMemSim.Server.Requests

namespace CxlMemSim.Server

open CxlMemSim.Core

/-! ## The loop -/

lemma addrToCacheline_mod (addr : UInt64) : (addrToCacheline addr).toNat % 64 = 0 := by
  rw [addrToCacheline_toNat]
  exact Nat.mul_mod_left _ _

def invalidateSize (req : ServerRequest) : UInt64 := if req.size = 0 then 64 else req.size

lemma invalidateEnd_toNat (req : ServerRequest) :
    (invalidateEnd req).toNat = (req.addr.toNat + (invalidateSize req).toNat) % 2 ^ 64 := UInt64.toNat_add _ _

lemma invalidateEnd_lt_iff (req : ServerRequest) :
    invalidateEnd req < req.addr ↔ 2 ^ 64 ≤ req.addr.toNat + (invalidateSize req).toNat := by
  have hend := invalidateEnd_toNat req
  have ha := req.addr.toNat_lt
  have hn := (invalidateSize req).toNat_lt
  rw [UInt64.lt_iff_toNat_lt, hend]
  omega

/-! ## What a request visits -/

def visited (fuel : ℕ) (req : ServerRequest) : Option (List UInt64) :=
  if invalidateEnd req < req.addr then some []
  else linesBelow (invalidateEnd req) fuel (addrToCacheline req.addr)

def Overlaps (line : UInt64) (req : ServerRequest) : Prop :=
  line.toNat < req.addr.toNat + (invalidateSize req).toNat ∧ req.addr.toNat < line.toNat + 64

/-- the request ends, visiting no line twice and only lines that it overlaps -/
def Finishes (req : ServerRequest) : Prop :=
  ∃ fuel lines, visited fuel req = some lines ∧ lines.Nodup ∧ ∀ line ∈ lines, Overlaps line req

def EndsInLastLine (req : ServerRequest) : Prop :=
  2 ^ 64 - 64 < req.addr.toNat + (invalidateSize req).toNat ∧ req.addr.toNat + (invalidateSize req).toNat < 2 ^ 64

instance (req : ServerRequest) : Decidable (EndsInLastLine req) := inferInstanceAs (Decidable (_ ∧ _))

variable {req : ServerRequest}

lemma visited_none (h : EndsInLastLine req) (fuel : ℕ) : visited fuel req = none := by
  obtain ⟨hlow, hhigh⟩ := h
  have hend := invalidateEnd_toNat req
  unfold visited
  rw [if_neg (by rw [invalidateEnd_lt_iff]; omega)]
  exact linesBelow_none (addrToCacheline_mod req.addr) (by omega) fuel

lemma visited_some (h : ¬ EndsInLastLine req) :
    ∃ lines, visited lineTurns req = some lines ∧ lines.Nodup ∧ ∀ line ∈ lines, Overlaps line req := by
  unfold visited
  by_cases hwrap : invalidateEnd req < req.addr
  · exact ⟨[], if_pos hwrap, List.nodup_nil, fun _ hl => absurd hl List.not_mem_nil⟩
  · rw [if_neg hwrap]
    rw [invalidateEnd_lt_iff] at hwrap
    have hend := invalidateEnd_toNat req
    have hlow : ¬ 2 ^ 64 - 64 < req.addr.toNat + (invalidateSize req).toNat := fun hlt => h ⟨hlt, by omega⟩
    obtain ⟨lines, hrun, hnodup, hmem⟩ :=
      @linesBelow_lineTurns _ (invalidateEnd req) (addrToCacheline_mod req.addr) (by omega)
    refine ⟨lines, hrun, hnodup, fun line hl => ?_⟩
    obtain ⟨-, hfrom, hto⟩ := (hmem line).1 hl
    rw [addrToCacheline_toNat] at hfrom
    exact ⟨by omega, by omega⟩

lemma finishes_iff (req : ServerRequest) : Finishes req ↔ ¬ EndsInLastLine req := by
  constructor
  · rintro ⟨fuel, lines, hrun, -⟩ hlast
    rw [visited_none hlast] at hrun
    cases hrun
  · intro h
    obtain ⟨lines, hlines⟩ := visited_some h
    exact ⟨lineTurns, lines, hlines⟩

/-! ## The request -/

lemma registerBackInvalidation_foldl_halted (s : ServerState) (lines : List UInt64) (ts : UInt64) :
    (lines.foldl (fun s line => registerBackInvalidation s line [] ts) s).halted = s.halted := by
  induction lines generalizing s with
  | nil => rfl
  | cons line lines ih => exact ih _

lemma handleBiInvalidate_halted {s : ServerState} (hs : s.halted = false) (req : ServerRequest) :
    (handleBiInvalidate s req).2.halted = false ↔ ∃ lines, visited lineTurns req = some lines := by
  unfold handleBiInvalidate visited
  by_cases hwrap : invalidateEnd req < req.addr
  · simp [hwrap, hs]
  · rw [if_neg hwrap, if_neg hwrap]
    cases linesBelow (invalidateEnd req) lineTurns (addrToCacheline req.addr) with
    | none => simp
    | some lines => simp [registerBackInvalidation_foldl_halted, hs]

lemma handleBiRequest_invalidate (s : ServerState) (t : Int32)
    (hop : OpType.ofCode req.opType = .biInvalidate) : handleBiRequest s t req = handleBiInvalidate s req := by
  unfold handleBiRequest
  rw [hop]

def lastLineRequest : ServerRequest := ⟨16, 0xFFFFFFFFFFFFFFC0, 63, 0, 0, 0, fun _ => 0⟩

/-- A request that never ends. 63 bytes at the last line. -/
theorem endless_invalidation : ¬ Finishes lastLineRequest ∧
    ∀ (s : ServerState) (t : Int32), (handleBiRequest s t lastLineRequest).2.halted = true := by
  have hlast : EndsInLastLine lastLineRequest := by decide
  refine ⟨fun h => (finishes_iff _).1 h hlast, fun s t => ?_⟩
  have hvisited := visited_none hlast lineTurns
  have hwrap : ¬ invalidateEnd lastLineRequest < lastLineRequest.addr := by decide
  unfold visited at hvisited
  rw [if_neg hwrap] at hvisited
  rw [handleBiRequest_invalidate s t rfl]
  unfold handleBiInvalidate
  rw [if_neg hwrap, hvisited]

/-- A back-invalidation is answered exactly when it does not end in the last line of the address space. -/
theorem biInvalidate_iff (s : ServerState) (hs : s.halted = false) (t : Int32) (req : ServerRequest)
    (hop : OpType.ofCode req.opType = .biInvalidate) :
    ((handleBiRequest s t req).2.halted = false ∧ Finishes req) ↔ ¬ EndsInLastLine req := by
  rw [handleBiRequest_invalidate s t hop, handleBiInvalidate_halted hs, finishes_iff]
  constructor
  · exact fun h => h.2
  · intro h
    obtain ⟨lines, hrun, -⟩ := visited_some h
    exact ⟨⟨lines, hrun⟩, h⟩

theorem biInvalidate_two_lines : (((handleBiRequest (ServerState.new ⟨.mapped, 0, 4⟩ (fun _ => 0) ⟨none, none⟩) 0
        ⟨16, 60, 8, 0, 0, 0, fun _ => 0⟩).2.halted = false ∧ Finishes ⟨16, 60, 8, 0, 0, 0, fun _ => 0⟩) ↔
      ¬ EndsInLastLine ⟨16, 60, 8, 0, 0, 0, fun _ => 0⟩) ∧ ¬ EndsInLastLine ⟨16, 60, 8, 0, 0, 0, fun _ => 0⟩ :=
  ⟨biInvalidate_iff _ rfl 0 _ rfl, by decide⟩

end CxlMemSim.Server
