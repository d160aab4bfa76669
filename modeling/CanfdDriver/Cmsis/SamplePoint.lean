import CanfdDriver.Cmsis.Phases
import CanfdDriver.Hal.TimingWords

namespace CanfdDriver

open Lib NoraCanfd Cmsis

namespace Cmsis

def propSeg (bitSegments : BitVec 32) : Nat := ((bitSegments >>> bitPropSegPos) &&& 0xFF).toNat

def phaseSeg1 (bitSegments : BitVec 32) : Nat := ((bitSegments >>> bitPhaseSeg1Pos) &&& 0xFF).toNat

def phaseSeg2 (bitSegments : BitVec 32) : Nat := ((bitSegments >>> bitPhaseSeg2Pos) &&& 0xFF).toNat

/-- The sample point that the segments describe, in the unit of a whole bit. -/
def requestedPoint (bitSegments : BitVec 32) : ℚ :=
  (1 + propSeg bitSegments + phaseSeg1 bitSegments) /
    (1 + propSeg bitSegments + phaseSeg1 bitSegments + phaseSeg2 bitSegments)

variable {bitSegments : BitVec 32}

def segmentPct (bitSegments : BitVec 32) : Nat :=
  (1 + propSeg bitSegments + phaseSeg1 bitSegments) * 100 /
    (1 + propSeg bitSegments + phaseSeg1 bitSegments + phaseSeg2 bitSegments)

theorem segmentSamplePct_eq (h : phaseSeg2 bitSegments ≠ 0) :
    ∃ pct, segmentSamplePct bitSegments = some pct ∧ pct.toNat = segmentPct bitSegments := by
  have hbyte (x : BitVec 32) : (x &&& 0xFF).toNat ≤ 255 := by
    rw [BitVec.toNat_and]
    exact Nat.and_le_right
  have hne : bitSegments ≠ 0 := by
    rintro rfl
    exact h rfl
  rw [segmentSamplePct, if_neg hne, segmentPct]
  simp only [propSeg, phaseSeg1, phaseSeg2] at h ⊢
  generalize hx : (bitSegments >>> bitPropSegPos) &&& 0xFF = x
  generalize hy : (bitSegments >>> bitPhaseSeg1Pos) &&& 0xFF = y
  generalize hz : (bitSegments >>> bitPhaseSeg2Pos) &&& 0xFF = z at h
  have hx := hx ▸ hbyte (bitSegments >>> bitPropSegPos)
  have hy := hy ▸ hbyte (bitSegments >>> bitPhaseSeg1Pos)
  have hz := hz ▸ hbyte (bitSegments >>> bitPhaseSeg2Pos)
  have hasked : z ≠ 0 ∧ 1 + x + y + z > 1 := by
    constructor <;> bv_omega
  have hnum : ((1 + x + y) * 100).toNat = (1 + x.toNat + y.toNat) * 100 := by bv_omega
  have hden : (1 + x + y + z).toNat = 1 + x.toNat + y.toNat + z.toNat := by bv_omega
  have hle : (1 + x.toNat + y.toNat) * 100 / (1 + x.toNat + y.toNat + z.toNat) < 2 ^ 8 := by
    rw [Nat.div_lt_iff_lt_mul (by omega)]
    omega
  refine ⟨_, if_pos hasked, ?_⟩
  rw [BitVec.toNat_setWidth, BitVec.toNat_udiv, hnum, hden, Nat.mod_eq_of_lt hle]

theorem segmentPct_eq_zero : segmentPct bitSegments = 0 ↔
    99 * (1 + propSeg bitSegments + phaseSeg1 bitSegments) < phaseSeg2 bitSegments := by
  rw [segmentPct, Nat.div_eq_zero_iff]
  omega

theorem requestedPoint_floor : (segmentPct bitSegments / 100 : ℚ) ≤ requestedPoint bitSegments ∧
    requestedPoint bitSegments < segmentPct bitSegments / 100 + 1 / 100 := by
  have hpos : (0 : ℚ) < 1 + propSeg bitSegments + phaseSeg1 bitSegments + phaseSeg2 bitSegments := by
    positivity
  have hfloor := Nat.div_add_mod ((1 + propSeg bitSegments + phaseSeg1 bitSegments) * 100)
    (1 + propSeg bitSegments + phaseSeg1 bitSegments + phaseSeg2 bitSegments)
  have hrest := Nat.mod_lt ((1 + propSeg bitSegments + phaseSeg1 bitSegments) * 100)
    (show 1 + propSeg bitSegments + phaseSeg1 bitSegments + phaseSeg2 bitSegments > 0 by omega)
  rw [← segmentPct] at hfloor
  generalize (1 + propSeg bitSegments + phaseSeg1 bitSegments) * 100 %
    (1 + propSeg bitSegments + phaseSeg1 bitSegments + phaseSeg2 bitSegments) = rest at hfloor hrest
  have hfloor : ((1 + propSeg bitSegments + phaseSeg1 bitSegments + phaseSeg2 bitSegments) *
      segmentPct bitSegments + rest : ℚ) =
      (1 + propSeg bitSegments + phaseSeg1 bitSegments) * 100 := by exact_mod_cast hfloor
  have hrest : (rest : ℚ) <
      1 + propSeg bitSegments + phaseSeg1 bitSegments + phaseSeg2 bitSegments := by
    exact_mod_cast hrest
  have hzero : (0 : ℚ) ≤ rest := Nat.cast_nonneg rest
  constructor
  · rw [requestedPoint, le_div_iff₀ hpos]
    linarith
  · rw [requestedPoint, div_lt_iff₀ hpos]
    linarith

end Cmsis

def segmentsOf (select : BitrateSelect) (c : Chan) : Segments :=
  match select with
  | .nominal => decodeNbtcfg (c.regs .nbtcfg)
  | .fdData | .other => decodeDbtcfg (c.regs .dbtcfg)

/-- The programmed sample point is less than one percentage point and half a quantum off the
requested one. -/
def PointHonoured (s : Segments) (bitSegments : BitVec 32) : Prop :=
  |s.samplePoint - requestedPoint bitSegments| < 1 / 100 + s.quantum / 2

variable {c d : Chan} {env : Env} {select : BitrateSelect} {bitrate bitSegments : BitVec 32}

theorem pointHonoured_iff {s : Segments} {pct : Nat} (h1 : 1 ≤ s.tseg1) (h2 : 1 ≤ s.tseg2)
    (hsplit : |s.samplePoint - pct / 100| ≤ s.quantum / 2)
    (hpct : pct = segmentPct bitSegments ∨ segmentPct bitSegments = 0 ∧ pct = 80) :
    PointHonoured s bitSegments ↔ pct = segmentPct bitSegments := by
  obtain ⟨hlow, hhigh⟩ := @requestedPoint_floor bitSegments
  obtain ⟨hleft, hright⟩ := abs_le.mp hsplit
  rw [PointHonoured, abs_lt]
  rcases hpct with rfl | ⟨hzero, rfl⟩
  · refine iff_of_true ⟨?_, ?_⟩ rfl <;> linarith
  · rw [hzero] at hlow hhigh ⊢
    have hquantum : s.quantum ≤ 1 / 3 := by
      have h1 : (1 : ℚ) ≤ s.tseg1 := by exact_mod_cast h1
      have h2 : (1 : ℚ) ≤ s.tseg2 := by exact_mod_cast h2
      rw [Segments.quantum]
      exact one_div_le_one_div_of_le (by norm_num) (by linarith)
    refine iff_of_false (fun h => ?_) (by decide)
    have hnear := h.2
    push_cast at hleft hhigh
    linarith

theorem samplePoint_of_ok (hpow : c.ctx.powered = true) (hseg : phaseSeg2 bitSegments ≠ 0)
    (h : (canSetBitrate select bitrate bitSegments env).exec c = .ok (armDriverOk, d)) :
    ∃ pct, pct ≠ 0 ∧ (pct = segmentPct bitSegments ∨ segmentPct bitSegments = 0 ∧ pct = 80) ∧
      1 ≤ (segmentsOf select d).tseg1 ∧ 1 ≤ (segmentsOf select d).tseg2 ∧
      |(segmentsOf select d).samplePoint - pct / 100| ≤ (segmentsOf select d).quantum / 2 := by
  obtain ⟨t, ht, rfl⟩ := canSetBitrate_ok hpow h
  obtain ⟨pct, hpct, hnat⟩ := segmentSamplePct_eq hseg
  have hcached : (cacheRate c.ctx select bitrate bitSegments).samplePct = pct := by
    cases select <;> simp only [cacheRate, hpct]
  rw [ctxTiming, hcached] at ht
  obtain ⟨hn, hd⟩ := calcBitTiming_split ht
  obtain ⟨wn, wd, -⟩ := calcBitTiming_wellFormed ht
  refine ⟨(effectiveSamplePct pct).toNat, ?_, ?_, ?_⟩
  · rw [effectiveSamplePct]
    split
    next hne => exact fun h0 => hne (BitVec.eq_of_toNat_eq h0)
    next => decide
  · rw [← hnat, effectiveSamplePct]
    split
    next => exact .inl rfl
    next hz => exact .inr ⟨congrArg BitVec.toNat (not_not.mp hz), rfl⟩
  · cases select with
    | nominal => exact ⟨Nat.le_of_succ_le wn.tseg1.1, wn.tseg2.1, hn⟩
    | fdData | other => exact ⟨wd.tseg1.1, wd.tseg2.1, hd⟩

/-- A `SetBitrate` that succeeds honours the sample point of its segments exactly when this is at
least one percent: a smaller one is floored to zero, which the HAL takes for its default. -/
theorem setBitrate_honours_point_iff (hpow : c.ctx.powered = true)
    (hseg : phaseSeg2 bitSegments ≠ 0)
    (h : (canSetBitrate select bitrate bitSegments env).exec c = .ok (armDriverOk, d)) :
    PointHonoured (segmentsOf select d) bitSegments ↔
      phaseSeg2 bitSegments ≤ 99 * (1 + propSeg bitSegments + phaseSeg1 bitSegments) := by
  obtain ⟨pct, hne, hpct, h1, h2, hsplit⟩ := samplePoint_of_ok hpow hseg h
  rw [pointHonoured_iff h1 h2 hsplit hpct, ← not_lt, ← segmentPct_eq_zero]
  rcases hpct with rfl | ⟨hzero, rfl⟩
  · exact iff_of_true rfl hne
  · exact iff_of_false (hzero ▸ hne) (not_not.mpr hzero)

theorem setBitrate_honours_point_iff_example :
    ∃ c d, c.ctx.powered = true ∧ phaseSeg2 0x8100F ≠ 0 ∧
      (canSetBitrate .nominal 500000 0x8100F (granting .normalFd)).exec c = .ok (armDriverOk, d) ∧
      PointHonoured (segmentsOf .nominal d) 0x8100F := by
  obtain ⟨c, d, -, hpow, -, hexec, -⟩ := works_example .nominal 500000 0x8100F (fun _ _ => true)
    (by decide +kernel)
  have hseg : phaseSeg2 0x8100F ≠ 0 := by decide
  exact ⟨c, d, hpow, hseg, hexec, (setBitrate_honours_point_iff hpow hseg hexec).mpr (by decide)⟩

/-- Segments of 1 and 100 quanta ask for less than 1 %, and the bit is sampled at 80 %. -/
theorem setBitrate_misses_point :
    ∃ c d, Reach Step (fun _ _ => True) exampleDevice.boot c ∧ c.ctx.powered = true ∧
      phaseSeg2 0x640000 ≠ 0 ∧
      (canSetBitrate .nominal 500000 0x640000 (granting .normalFd)).exec c = .ok (armDriverOk, d) ∧
      ¬PointHonoured (segmentsOf .nominal d) 0x640000 := by
  obtain ⟨c, d, hc, hpow, -, hexec, hp⟩ := works_example .nominal 500000 0x640000
    (fun _ d => decide (segmentsOf .nominal d = ⟨1, 31, 8⟩)) (by decide +kernel)
  have hparts : propSeg 0x640000 = 0 ∧ phaseSeg1 0x640000 = 0 ∧ phaseSeg2 0x640000 = 100 := by decide
  refine ⟨c, d, hc, hpow, by decide, hexec, fun h => ?_⟩
  rw [of_decide_eq_true hp, PointHonoured, Segments.samplePoint, Segments.quantum, requestedPoint,
    hparts.1, hparts.2.1, hparts.2.2] at h
  norm_num [abs_lt] at h

end CanfdDriver
