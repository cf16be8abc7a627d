/-
Interleaved decoding (`decode_interleaved`). In a region whose end does not wrap, target and offset are those of
`Core.Stripe`, and with distinct targets the decoding is a bijection onto places on the targets.
-/
import CxlMemSim.Core.Stripe
import CxlMemSim.Dist.Decoder

namespace CxlMemSim.Dist

open CxlMemSim.Core

lemma InterleaveGranularity.bytes_pos (g : InterleaveGranularity) : 0 < g.bytes.toNat := by cases g <;> decide

def HDMInterleaveConfig.covers (cfg : HDMInterleaveConfig) (addr : UInt64) : Prop :=
  cfg.baseAddr.toNat ≤ addr.toNat ∧ addr.toNat < cfg.baseAddr.toNat + cfg.totalSize.toNat

instance (cfg : HDMInterleaveConfig) (addr : UInt64) : Decidable (cfg.covers addr) :=
  inferInstanceAs (Decidable (_ ∧ _))

lemma targets_length_lt {l : List UInt32} (h : l.Nodup) : l.length < 2 ^ 64 := by
  have hmaps : Set.MapsTo UInt32.toNat (l.toFinset : Set UInt32) (Finset.range (2 ^ 32) : Set ℕ) :=
    fun x _ => Finset.mem_coe.mpr (Finset.mem_range.mpr x.toNat_lt)
  have hle := Finset.card_le_card_of_injOn _ hmaps fun x _ y _ h => UInt32.toNat_inj.mp h
  rw [List.toFinset_card_of_nodup h, Finset.card_range] at hle
  omega

section Region

variable {d : HDMDecoder} {addr : UInt64} {cfg : HDMInterleaveConfig}

lemma toNat_relative (h : cfg.covers addr) : (addr - cfg.baseAddr).toNat = addr.toNat - cfg.baseAddr.toNat :=
  UInt64.toNat_sub_of_le _ _ (UInt64.le_iff_toNat_le.mpr h.1)

lemma covers_iff (hend : cfg.baseAddr.toNat + cfg.totalSize.toNat < 2 ^ 64) :
    ¬ (addr < cfg.baseAddr ∨ addr ≥ cfg.baseAddr + cfg.totalSize) ↔ cfg.covers addr := by
  have hsum : (cfg.baseAddr + cfg.totalSize).toNat = cfg.baseAddr.toNat + cfg.totalSize.toNat := by
    rw [UInt64.toNat_add, Nat.mod_eq_of_lt hend]
  simp only [HDMInterleaveConfig.covers, ge_iff_le, UInt64.lt_iff_toNat_lt, UInt64.le_iff_toNat_le, hsum]
  omega

/-- Decoding is striping. -/
lemma decodeInterleaved_eq (hlength : d.interleaveConfig.targetIds.length < 2 ^ 64)
    (hne : d.interleaveConfig.targetIds ≠ [])
    (hend : d.interleaveConfig.baseAddr.toNat + d.interleaveConfig.totalSize.toNat < 2 ^ 64)
    (h : d.interleaveConfig.covers addr) :
    let s := stripe d.interleaveConfig.granularity.bytes.toNat d.interleaveConfig.targetIds.length
      (addr.toNat - d.interleaveConfig.baseAddr.toNat)
    d.interleaveConfig.targetIds[s.1]? = some (d.decodeInterleaved addr).targetId ∧
      (d.decodeInterleaved addr).localOffset.toNat = s.2 := by
  intro s
  set cfg := d.interleaveConfig with hcfg
  have hn : (UInt64.ofNat cfg.targetIds.length).toNat = cfg.targetIds.length := by
    rw [UInt64.toNat_ofNat', Nat.mod_eq_of_lt hlength]
  have hindex : ((addr - cfg.baseAddr) / cfg.granularity.bytes % UInt64.ofNat cfg.targetIds.length).toNat = s.1 := by
    rw [UInt64.toNat_mod, UInt64.toNat_div, hn, toNat_relative h]
    rfl
  have hlt : s.1 < cfg.targetIds.length := Nat.mod_lt _ (List.length_pos_of_ne_nil hne)
  have hfits : s.2 < 2 ^ 64 := by
    have hle : s.2 ≤ addr.toNat - cfg.baseAddr.toNat := stripe_le _ _ _
    have := addr.toNat_lt
    omega
  have hoffset : ((addr - cfg.baseAddr) / cfg.granularity.bytes / UInt64.ofNat cfg.targetIds.length *
      cfg.granularity.bytes + (addr - cfg.baseAddr) % cfg.granularity.bytes).toNat = s.2 := by
    rw [UInt64.toNat_add, UInt64.toNat_mul, UInt64.toNat_mod, UInt64.toNat_div, UInt64.toNat_div, hn,
      toNat_relative h, Nat.mod_add_mod]
    exact Nat.mod_eq_of_lt hfits
  have hget : cfg.targetIds[s.1]? = some cfg.targetIds[s.1] := List.getElem?_eq_getElem hlt
  unfold HDMDecoder.decodeInterleaved
  rw [← hcfg, if_neg hne, if_neg ((covers_iff hend).mpr h)]
  dsimp only
  rw [hindex, hget]
  exact ⟨rfl, hoffset⟩

lemma relative_eq (hdistinct : d.interleaveConfig.targetIds.Nodup) (hne : d.interleaveConfig.targetIds ≠ [])
    (hend : d.interleaveConfig.baseAddr.toNat + d.interleaveConfig.totalSize.toNat < 2 ^ 64)
    (h : d.interleaveConfig.covers addr) : addr.toNat - d.interleaveConfig.baseAddr.toNat =
      unstripe d.interleaveConfig.granularity.bytes.toNat d.interleaveConfig.targetIds.length
        (d.interleaveConfig.targetIds.idxOf (d.decodeInterleaved addr).targetId,
          (d.decodeInterleaved addr).localOffset.toNat) := by
  obtain ⟨hget, hoffset⟩ := decodeInterleaved_eq (targets_length_lt hdistinct) hne hend h
  obtain ⟨hlt, htarget⟩ := List.getElem?_eq_some_iff.mp hget
  rw [← htarget, hdistinct.idxOf_getElem, hoffset]
  exact (unstripe_stripe d.interleaveConfig.granularity.bytes_pos _).symm

lemma decodeInterleaved_unstripe (hdistinct : d.interleaveConfig.targetIds.Nodup)
    (hend : d.interleaveConfig.baseAddr.toNat + d.interleaveConfig.totalSize.toNat < 2 ^ 64) {target : UInt32}
    (htarget : target ∈ d.interleaveConfig.targetIds) {offset : UInt64}
    (hx : unstripe d.interleaveConfig.granularity.bytes.toNat d.interleaveConfig.targetIds.length
      (d.interleaveConfig.targetIds.idxOf target, offset.toNat) < d.interleaveConfig.totalSize.toNat) :
    ∃ addr, d.interleaveConfig.covers addr ∧ (d.decodeInterleaved addr).targetId = target ∧
      (d.decodeInterleaved addr).localOffset = offset := by
  set cfg := d.interleaveConfig with hcfg
  set x := unstripe cfg.granularity.bytes.toNat cfg.targetIds.length (cfg.targetIds.idxOf target, offset.toNat)
  have hlt : cfg.targetIds.idxOf target < cfg.targetIds.length := List.idxOf_lt_length_of_mem htarget
  have haddr : (UInt64.ofNat (cfg.baseAddr.toNat + x)).toNat = cfg.baseAddr.toNat + x := by
    rw [UInt64.toNat_ofNat', Nat.mod_eq_of_lt (by omega)]
  have hcovers : cfg.covers (UInt64.ofNat (cfg.baseAddr.toNat + x)) := by
    rw [HDMInterleaveConfig.covers, haddr]
    omega
  obtain ⟨hget, hoffset⟩ := decodeInterleaved_eq (targets_length_lt hdistinct) (List.ne_nil_of_mem htarget) hend hcovers
  rw [haddr, ← hcfg, Nat.add_sub_cancel_left, stripe_unstripe cfg.granularity.bytes_pos hlt] at hget hoffset
  refine ⟨_, hcovers, Option.some.inj (hget.symm.trans ?_), UInt64.toNat_inj.mp hoffset⟩
  rw [List.getElem?_eq_getElem hlt, List.getElem_idxOf]

end Region

/-- Interleaved decoding is a bijection for distinct targets; a region of full rounds uses on each exactly the
offsets below `size / n`. -/
theorem interleave_bijective (d : HDMDecoder) (hdistinct : d.interleaveConfig.targetIds.Nodup)
    (hend : d.interleaveConfig.baseAddr.toNat + d.interleaveConfig.totalSize.toNat < 2 ^ 64) :
    let cfg := d.interleaveConfig
    let g := cfg.granularity.bytes.toNat
    let n := cfg.targetIds.length
    (∀ addr, cfg.covers addr → n ≠ 0 → (d.decodeInterleaved addr).targetId ∈ cfg.targetIds) ∧
    (∀ a b, cfg.covers a → cfg.covers b → (d.decodeInterleaved a).targetId ∈ cfg.targetIds →
      (d.decodeInterleaved a).targetId = (d.decodeInterleaved b).targetId →
      (d.decodeInterleaved a).localOffset = (d.decodeInterleaved b).localOffset → a = b) ∧
    (∀ addr, cfg.covers addr → (d.decodeInterleaved addr).targetId ∈ cfg.targetIds →
      let r := d.decodeInterleaved addr
      addr.toNat = cfg.baseAddr.toNat +
        (r.localOffset.toNat / g * n + cfg.targetIds.idxOf r.targetId) * g + r.localOffset.toNat % g) ∧
    (cfg.totalSize.toNat % (n * g) = 0 → ∀ target ∈ cfg.targetIds, ∀ offset : UInt64,
      (∃ addr, cfg.covers addr ∧ (d.decodeInterleaved addr).targetId = target ∧
        (d.decodeInterleaved addr).localOffset = offset) ↔ offset.toNat < cfg.totalSize.toNat / n) := by
  intro cfg g n
  refine ⟨fun addr h hn => ?_, fun a b ha hb hmem htarget hoffset => ?_, fun addr h hmem => ?_,
    fun hrounds target htarget offset => ?_⟩
  · have hne : cfg.targetIds ≠ [] := fun h => hn (by simp [n, h])
    obtain ⟨hget, -⟩ := decodeInterleaved_eq (targets_length_lt hdistinct) hne hend h
    exact List.mem_of_getElem? hget
  · have hne := List.ne_nil_of_mem hmem
    have heq : a.toNat - cfg.baseAddr.toNat = b.toNat - cfg.baseAddr.toNat := by
      rw [relative_eq hdistinct hne hend ha, relative_eq hdistinct hne hend hb, htarget, hoffset]
    have hbase : cfg.baseAddr.toNat ≤ a.toNat := ha.1
    have hbase' : cfg.baseAddr.toNat ≤ b.toNat := hb.1
    exact UInt64.toNat_inj.mp (by omega)
  · intro r
    have heq : addr.toNat - cfg.baseAddr.toNat =
        (r.localOffset.toNat / g * n + cfg.targetIds.idxOf r.targetId) * g + r.localOffset.toNat % g :=
      relative_eq hdistinct (List.ne_nil_of_mem hmem) hend h
    have hbase : cfg.baseAddr.toNat ≤ addr.toNat := h.1
    rw [Nat.add_assoc, ← heq]
    omega
  · have hlt : cfg.targetIds.idxOf target < n := List.idxOf_lt_length_of_mem htarget
    obtain ⟨m, hm⟩ := Nat.dvd_of_mod_eq_zero hrounds
    have hsize : cfg.totalSize.toNat = m * (n * g) := by rw [hm, Nat.mul_comm]
    have hshare : cfg.totalSize.toNat / n = m * g := by
      rw [hsize, Nat.mul_left_comm, Nat.mul_div_cancel_left _ (by omega)]
    have hdense := unstripe_lt cfg.granularity.bytes_pos (p := (cfg.targetIds.idxOf target, offset.toNat)) hlt m
    rw [hshare, ← hdense, ← hsize]
    constructor
    · rintro ⟨addr, h, rfl, rfl⟩
      have hbase : cfg.baseAddr.toNat ≤ addr.toNat := h.1
      have hbound : addr.toNat < cfg.baseAddr.toNat + cfg.totalSize.toNat := h.2
      calc unstripe g n _ = addr.toNat - cfg.baseAddr.toNat :=
            (relative_eq hdistinct (List.ne_nil_of_mem htarget) hend h).symm
        _ < cfg.totalSize.toNat := by omega
    · exact decodeInterleaved_unstripe hdistinct hend htarget

def threeWay : HDMDecoder := ⟨.interleaved, [], ⟨.cacheline64B, [7, 3, 5], 4096, 384⟩, false⟩

theorem interleave_bijective_threeWay :
    threeWay.interleaveConfig.targetIds.Nodup ∧ (threeWay.decodeInterleaved 4300).localOffset = 76 ∧
      (4300 : UInt64).toNat = 4096 + (76 / 64 * 3 + 0) * 64 + 76 % 64 ∧
      ∃ addr, threeWay.interleaveConfig.covers addr ∧ (threeWay.decodeInterleaved addr).targetId = 5 ∧
        (threeWay.decodeInterleaved addr).localOffset = 127 := by
  obtain ⟨-, -, hrecovered, hdense⟩ := interleave_bijective threeWay (by decide) (by decide)
  exact ⟨by decide, rfl, hrecovered 4300 (by decide) (by decide),
    (hdense (by decide) 5 (by decide) 127).mpr (by decide)⟩

end CxlMemSim.Dist
