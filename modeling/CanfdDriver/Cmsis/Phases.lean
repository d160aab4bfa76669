import CanfdDriver.Cmsis.Failure
import CanfdDriver.Hal.BitTiming

namespace CanfdDriver

open Lib NoraCanfd Cmsis

variable {c d : Chan} {env : Env} {select : BitrateSelect} {bitrate bitSegments : BitVec 32}

def TimingMatches (c : Chan) : Prop := ∃ t, ctxTiming c.ctx = .ok (some t) ∧ Holds c t

/-- The sample point of both phases before and after a `SetBitrate`. -/
def samplePctOf (x : Context) : Nat := (effectiveSamplePct x.samplePct).toNat

def nextSamplePct (x : Context) (bitSegments : BitVec 32) : Nat :=
  samplePctOf { x with samplePct := (segmentSamplePct bitSegments).getD x.samplePct }

theorem cacheRate_next (x : Context) (select : BitrateSelect) (bitrate bitSegments : BitVec 32) :
    samplePctOf (cacheRate x select bitrate bitSegments) = nextSamplePct x bitSegments := by
  cases hs : segmentSamplePct bitSegments <;> cases select <;>
    simp only [cacheRate, hs, nextSamplePct, samplePctOf, Option.getD]

theorem cacheRate_clock (x : Context) (select : BitrateSelect) (bitrate bitSegments : BitVec 32) :
    (cacheRate x select bitrate bitSegments).canClkHz = x.canClkHz := by
  obtain ⟨_, _, _, h⟩ := cacheRate_eq x select bitrate bitSegments
  rw [h]

theorem cacheRate_nominalBps (x : Context) (bitrate bitSegments : BitVec 32) :
    (cacheRate x .fdData bitrate bitSegments).nominalBps = x.nominalBps := by
  cases hs : segmentSamplePct bitSegments <;> simp only [cacheRate, hs]

theorem cacheRate_dataBps (x : Context) (bitrate bitSegments : BitVec 32) :
    (cacheRate x .nominal bitrate bitSegments).dataBps = x.dataBps := by
  cases hs : segmentSamplePct bitSegments <;> simp only [cacheRate, hs]

theorem canSetBitrate_ok (hpow : c.ctx.powered = true)
    (h : (canSetBitrate select bitrate bitSegments env).exec c = .ok (armDriverOk, d)) :
    ∃ t, ctxTiming (cacheRate c.ctx select bitrate bitSegments) = .ok (some t) ∧
      d = (c.setCtx (cacheRate c.ctx select bitrate bitSegments)).retimed t := by
  by_cases hb : bitrate = 0
  · simp only [canSetBitrate, if_pos hb, Prog.exec_pure] at h
    cases h
  rw [exec_canSetBitrate hb] at h
  split at h
  next => cases h
  next =>
    obtain ⟨st, hst, hrate⟩ := applyBitrate_outcome ((cacheRate_powered ..).trans hpow) h
    obtain rfl : st = .ok := canHalToArm_nonneg (hst ▸ Int.le_refl 0)
    cases hrate with
    | retime _ ht hr =>
      cases hr with
      | retimed => exact ⟨_, ht, rfl⟩

theorem setBitrate_nominal (hpow : c.ctx.powered = true) (hm : TimingMatches c)
    (hsame : (cacheRate c.ctx select bitrate bitSegments).nominalBps = c.ctx.nominalBps)
    (h : (canSetBitrate select bitrate bitSegments env).exec c = .ok (armDriverOk, d)) :
    d.regs .nbtcfg = c.regs .nbtcfg ↔ SameSplit nominalLimits c.ctx.canClkHz.toNat
      c.ctx.nominalBps.toNat (samplePctOf c.ctx) (nextSamplePct c.ctx bitSegments) := by
  obtain ⟨t, ht, hn, -, -⟩ := hm
  obtain ⟨t', ht', rfl⟩ := canSetBitrate_ok hpow h
  obtain ⟨n, p, hsn, -, rfl⟩ := calcBitTiming_found ht
  obtain ⟨n', p', hsn', -, rfl⟩ := calcBitTiming_found ht'
  rw [cacheRate_clock, hsame] at hsn'
  rw [hn, ← cacheRate_next c.ctx select bitrate bitSegments]
  exact (sameSplit_iff nominalLimits_sound decodeNbtcfg_phaseOf hsn hsn').1

theorem setBitrate_data (hpow : c.ctx.powered = true) (hm : TimingMatches c)
    (hsame : (cacheRate c.ctx select bitrate bitSegments).dataBps = c.ctx.dataBps)
    (h : (canSetBitrate select bitrate bitSegments env).exec c = .ok (armDriverOk, d)) :
    (d.regs .dbtcfg = c.regs .dbtcfg ∧ d.regs .tdc = c.regs .tdc) ↔ SameSplit dataLimits
      c.ctx.canClkHz.toNat c.ctx.dataBps.toNat (samplePctOf c.ctx) (nextSamplePct c.ctx bitSegments) := by
  obtain ⟨t, ht, -, hd, htdc⟩ := hm
  obtain ⟨t', ht', rfl⟩ := canSetBitrate_ok hpow h
  obtain ⟨n, p, -, hsp, rfl⟩ := calcBitTiming_found ht
  obtain ⟨n', p', -, hsp', rfl⟩ := calcBitTiming_found ht'
  rw [cacheRate_clock, hsame] at hsp'
  rw [hd, htdc, ← cacheRate_next c.ctx select bitrate bitSegments]
  obtain ⟨hword, heq⟩ := sameSplit_iff dataLimits_sound decodeDbtcfg_phaseOf hsp hsp'
  constructor
  · exact fun hkeep => hword.mp hkeep.1
  · intro hs
    obtain rfl := heq hs
    exact ⟨rfl, rfl⟩

theorem TimingMatches.same_splits (hm : TimingMatches c) :
    SameSplit nominalLimits c.ctx.canClkHz.toNat c.ctx.nominalBps.toNat (samplePctOf c.ctx)
        (samplePctOf c.ctx) ∧
      SameSplit dataLimits c.ctx.canClkHz.toNat c.ctx.dataBps.toNat (samplePctOf c.ctx)
        (samplePctOf c.ctx) := by
  obtain ⟨t, ht, -⟩ := hm
  obtain ⟨n, p, hn, hp, -⟩ := calcBitTiming_found ht
  exact ⟨sameSplit_refl nominalLimits_sound hn, sameSplit_refl dataLimits_sound hp⟩

theorem nextSamplePct_kept {x : Context}
    (h : ∀ pct, segmentSamplePct bitSegments = some pct → pct = x.samplePct) :
    nextSamplePct x bitSegments = samplePctOf x := by
  cases hs : segmentSamplePct bitSegments with
  | none => simp only [nextSamplePct, samplePctOf, hs, Option.getD]
  | some pct => simp only [nextSamplePct, samplePctOf, hs, Option.getD, h pct hs]

/-- A `SetBitrate` that succeeds leaves the other phase as it was exactly when that phase splits
its bits alike at the sample point in force afterwards, and always when the call keeps the sample
point. -/
theorem setBitrate_keeps_other_phase (hpow : c.ctx.powered = true) (hm : TimingMatches c)
    (h : (canSetBitrate select bitrate bitSegments env).exec c = .ok (armDriverOk, d)) :
    (select = .fdData → (d.regs .nbtcfg = c.regs .nbtcfg ↔ SameSplit nominalLimits
      c.ctx.canClkHz.toNat c.ctx.nominalBps.toNat (samplePctOf c.ctx)
      (nextSamplePct c.ctx bitSegments))) ∧
    (select = .nominal → (d.regs .dbtcfg = c.regs .dbtcfg ∧ d.regs .tdc = c.regs .tdc ↔
      SameSplit dataLimits c.ctx.canClkHz.toNat c.ctx.dataBps.toNat (samplePctOf c.ctx)
        (nextSamplePct c.ctx bitSegments))) ∧
    ((∀ pct, segmentSamplePct bitSegments = some pct → pct = c.ctx.samplePct) →
      (select = .fdData → d.regs .nbtcfg = c.regs .nbtcfg) ∧
      (select = .nominal → d.regs .dbtcfg = c.regs .dbtcfg ∧ d.regs .tdc = c.regs .tdc)) := by
  have hnominal (hs : select = .fdData) :=
    setBitrate_nominal hpow hm (hs ▸ cacheRate_nominalBps c.ctx bitrate bitSegments) h
  have hdata (hs : select = .nominal) :=
    setBitrate_data hpow hm (hs ▸ cacheRate_dataBps c.ctx bitrate bitSegments) h
  refine ⟨hnominal, hdata, fun hkeep => ?_⟩
  obtain ⟨hsn, hsd⟩ := hm.same_splits
  rw [nextSamplePct_kept hkeep] at hnominal hdata
  exact ⟨fun hs => (hnominal hs).mpr hsn, fun hs => (hdata hs).mpr hsd⟩

def setBitrateWorks (select : BitrateSelect) (bitrate bitSegments : BitVec 32)
    (p : Chan → Chan → Bool) (c : Chan) : Bool :=
  match ctxTiming c.ctx, (canSetBitrate select bitrate bitSegments (granting .normalFd)).exec c with
  | .ok (some t), .ok (r, d) => c.ctx.powered && decide (r = armDriverOk ∧ Holds c t) && p c d
  | _, _ => false

theorem works_example (select : BitrateSelect) (bitrate bitSegments : BitVec 32)
    (p : Chan → Chan → Bool)
    (h : (replay (fun _ _ _ _ => true) powerUp exampleDevice.boot).map
      (setBitrateWorks select bitrate bitSegments p) = some true) :
    ∃ c d, Reach Step (fun _ _ => True) exampleDevice.boot c ∧ c.ctx.powered = true ∧
      TimingMatches c ∧
      (canSetBitrate select bitrate bitSegments (granting .normalFd)).exec c = .ok (armDriverOk, d) ∧
      p c d = true := by
  have hrun : ∃ c, Reach Step (fun _ _ => True) exampleDevice.boot c ∧
      setBitrateWorks select bitrate bitSegments p c = true :=
    reach_of_replay _ powerUp _ (fun _ _ _ _ _ => trivial) h
  obtain ⟨c, hc, hp⟩ := hrun
  rw [setBitrateWorks] at hp
  split at hp
  next t r d ht hexec =>
    simp only [Bool.and_eq_true, decide_eq_true_eq] at hp
    obtain ⟨⟨hpow, rfl, hholds⟩, hpd⟩ := hp
    exact ⟨c, d, hc, hpow, ⟨t, ht, hholds⟩, hexec, hpd⟩
  next => cases hp

theorem setBitrate_keeps_other_phase_example :
    ∃ c d, c.ctx.powered = true ∧ TimingMatches c ∧
      (canSetBitrate .fdData 1000000 0 (granting .normalFd)).exec c = .ok (armDriverOk, d) ∧
      d.regs .dbtcfg ≠ c.regs .dbtcfg ∧ d.regs .nbtcfg = c.regs .nbtcfg := by
  obtain ⟨c, d, -, hpow, hm, hexec, hp⟩ := works_example .fdData 1000000 0
    (fun c d => decide (d.regs .dbtcfg ≠ c.regs .dbtcfg)) (by decide +kernel)
  have hkeep := (setBitrate_keeps_other_phase hpow hm hexec).2.2 (fun _ hs => by cases hs)
  exact ⟨c, d, hpow, hm, hexec, of_decide_eq_true hp, hkeep.1 rfl⟩

/-- The data rate comes with a sample point of 50 %, and the nominal phase moves with it. -/
theorem setBitrate_moves_other_phase :
    ∃ c d, Reach Step (fun _ _ => True) exampleDevice.boot c ∧ c.ctx.powered = true ∧
      TimingMatches c ∧
      (canSetBitrate .fdData 2000000 0x10000 (granting .normalFd)).exec c = .ok (armDriverOk, d) ∧
      d.regs .nbtcfg ≠ c.regs .nbtcfg := by
  obtain ⟨c, d, hc, hpow, hm, hexec, hp⟩ := works_example .fdData 2000000 0x10000
    (fun c d => decide (d.regs .nbtcfg ≠ c.regs .nbtcfg)) (by decide +kernel)
  exact ⟨c, d, hc, hpow, hm, hexec, of_decide_eq_true hp⟩

end CanfdDriver
