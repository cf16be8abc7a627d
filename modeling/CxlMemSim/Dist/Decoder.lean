/-
The address decoder (`src/hdm_decoder.cpp`): the target of an address, by ranges, by an interleave set, or by both in
turn. Sums wrap in 64 bits.
-/
import Mathlib

namespace CxlMemSim.Dist

inductive HDMDecoderMode where
  | interleaved
  | rangeBased
  | hybrid
deriving DecidableEq, Repr

inductive InterleaveGranularity where
  | cacheline64B
  | cacheline256B
  | page4K
  | page2M
  | page1G
deriving DecidableEq, Repr

def InterleaveGranularity.bytes : InterleaveGranularity → UInt64
  | .cacheline64B => 64
  | .cacheline256B => 256
  | .page4K => 4096
  | .page2M => 2097152
  | .page1G => 1073741824

structure HDMRange where
  baseAddr : UInt64
  size : UInt64
  targetId : UInt32
  isRemote : Bool
deriving DecidableEq, Repr

structure HDMInterleaveConfig where
  granularity : InterleaveGranularity
  targetIds : List UInt32
  baseAddr : UInt64
  totalSize : UInt64
deriving DecidableEq, Repr

structure HDMDecoder where
  mode : HDMDecoderMode
  ranges : List HDMRange
  interleaveConfig : HDMInterleaveConfig
  rangesSorted : Bool
deriving DecidableEq, Repr

structure DecodeResult where
  targetId : UInt32
  localOffset : UInt64
  isRemote : Bool
  hopCount : UInt32
deriving DecidableEq, Repr

def noTarget : UInt32 := 0xFFFFFFFF

def unresolved : DecodeResult := ⟨noTarget, 0, false, 0⟩

def HDMInterleaveConfig.unset : HDMInterleaveConfig := ⟨.cacheline256B, [], 0, 0⟩

def HDMRange.contains (r : HDMRange) (addr : UInt64) : Bool := addr ≥ r.baseAddr && addr < r.baseAddr + r.size

def HDMRange.result (r : HDMRange) (addr : UInt64) : DecodeResult :=
  ⟨r.targetId, addr - r.baseAddr, r.isRemote, if r.isRemote then 1 else 0⟩

def searchRanges (ranges : List HDMRange) (addr : UInt64) (lo hi : ℤ) : DecodeResult :=
  if _h : lo ≤ hi then
    let mid := lo + (hi - lo) / 2
    match ranges[mid.toNat]? with
    | none => unresolved
    | some r =>
      if addr < r.baseAddr then searchRanges ranges addr lo (mid - 1)
      else if addr ≥ r.baseAddr + r.size then searchRanges ranges addr (mid + 1) hi
      else r.result addr
  else unresolved
termination_by (hi + 1 - lo).toNat
decreasing_by all_goals omega

def HDMDecoder.decodeRange (d : HDMDecoder) (addr : UInt64) : DecodeResult :=
  if d.ranges = [] then unresolved
  else if !d.rangesSorted then
    match d.ranges.find? (·.contains addr) with
    | some r => r.result addr
    | none => unresolved
  else
    -- the length is cast to a 32-bit `int`
    searchRanges d.ranges addr 0 (Int.bmod d.ranges.length (2 ^ 32) - 1)

def HDMDecoder.decodeInterleaved (d : HDMDecoder) (addr : UInt64) : DecodeResult :=
  let cfg := d.interleaveConfig
  if cfg.targetIds = [] then unresolved
  else if addr < cfg.baseAddr ∨ addr ≥ cfg.baseAddr + cfg.totalSize then unresolved
  else
    let granularity := cfg.granularity.bytes
    let relativeAddr := addr - cfg.baseAddr
    let blockIndex := relativeAddr / granularity
    let numTargets := UInt64.ofNat cfg.targetIds.length
    match cfg.targetIds[(blockIndex % numTargets).toNat]? with
    | none => unresolved
    | some targetId =>
      let targetBlock := blockIndex / numTargets
      -- remote when the first range of the target says so
      let isRemote := ((d.ranges.find? (·.targetId = targetId)).map HDMRange.isRemote).getD false
      ⟨targetId, targetBlock * granularity + relativeAddr % granularity, isRemote, if isRemote then 1 else 0⟩

def HDMDecoder.decode (d : HDMDecoder) (addr : UInt64) : DecodeResult :=
  match d.mode with
  | .rangeBased => d.decodeRange addr
  | .interleaved => d.decodeInterleaved addr
  | .hybrid =>
    let result := d.decodeRange addr
    if result.targetId ≠ noTarget then result else d.decodeInterleaved addr

def HDMDecoder.getHomeNode (d : HDMDecoder) (addr : UInt64) : UInt32 := (d.decode addr).targetId

end CxlMemSim.Dist
