import CanfdDriver.Hal.BitTiming
import CanfdDriver.Lib.MaskedWrite

namespace CanfdDriver.NoraCanfd

open Lib

def nbtcfgFields : BitVec 32 :=
  (0x7F#32 <<< nbtcfgSjwPos) ||| (0x7F#32 <<< nbtcfgTseg2Pos) ||| (0xFF#32 <<< nbtcfgTseg1Pos)
    ||| (0xFF#32 <<< nbtcfgBrpPos)

def dbtcfgFields : BitVec 32 :=
  (0xF#32 <<< dbtcfgSjwPos) ||| (0xF#32 <<< dbtcfgTseg2Pos) ||| (0x1F#32 <<< dbtcfgTseg1Pos)
    ||| (0xFF#32 <<< dbtcfgBrpPos)

def tdcFields : BitVec 32 := (0x7F#32 <<< tdcTdcoPos) ||| (0x3#32 <<< tdcTdcmodPos)

def nbtcfgSjw (w : BitVec 32) : Nat := field w nbtcfgSjwPos 7 + 1

def dbtcfgSjw (w : BitVec 32) : Nat := field w dbtcfgSjwPos 4 + 1

/-- The values of a phase lie in their ranges, the jump width is the second segment, and the
word has no bit outside its fields. -/
structure PhaseWord (w fields : BitVec 32) (s : Segments) (sjw tseg1Min tseg1Max tseg2Max : Nat) :
    Prop where
  brp : 1 ≤ s.brp ∧ s.brp ≤ 256
  tseg1 : tseg1Min ≤ s.tseg1 ∧ s.tseg1 ≤ tseg1Max
  tseg2 : 1 ≤ s.tseg2 ∧ s.tseg2 ≤ tseg2Max
  sjw : sjw = s.tseg2
  inside : w &&& ~~~fields = 0

/-- Delay compensation is automatic, with the offset `tdco`. -/
structure TdcWord (w : BitVec 32) (tdco : Nat) : Prop where
  mode : field w tdcTdcmodPos 2 = tdcTdcmodAuto.toNat
  offset : field w tdcTdcoPos 7 = tdco
  inside : w &&& ~~~tdcFields = 0

theorem sjwOf_eq {lim : BtLimits} {tseg2 : BitVec 16} (h : tseg2.toNat ≤ lim.sjwMax.toNat) :
    sjwOf lim tseg2 = tseg2 := by
  rw [sjwOf]
  split
  next => rfl
  next hlt => exact BitVec.eq_of_toNat_eq (Nat.le_antisymm (Nat.le_of_not_lt hlt) h)

section

variable {fcan bps pct brp total : Nat} {tseg1 tseg2 : BitVec 16}

theorem assembleBtcfg_inside {fields : BitVec 32} {pos : BtPositions} {sjw : BitVec 16}
    (w1 w2 ws : Nat) (hone : 1 ≤ brp) (hle : brp ≤ 256) (h1 : 1 ≤ tseg1.toNat)
    (h1' : tseg1.toNat ≤ 2 ^ w1) (h2 : 1 ≤ tseg2.toNat) (h2' : tseg2.toNat ≤ 2 ^ w2)
    (hs : 1 ≤ sjw.toNat) (hs' : sjw.toNat ≤ 2 ^ ws)
    (fbrp : ∀ i, i < 8 → fields.getLsbD (pos.brp + i) = true)
    (f1 : ∀ i, i < w1 → fields.getLsbD (pos.tseg1 + i) = true)
    (f2 : ∀ i, i < w2 → fields.getLsbD (pos.tseg2 + i) = true)
    (fs : ∀ i, i < ws → fields.getLsbD (pos.sjw + i) = true) :
    assembleBtcfg pos (BitVec.ofNat 32 brp) tseg1 tseg2 sjw &&& ~~~fields = 0 := by
  have hbrp : (BitVec.ofNat 32 brp - 1).toNat = brp - 1 := by bv_omega
  have hminus (x : BitVec 16) (hx : 1 ≤ x.toNat) : (x.setWidth 32 - 1).toNat = x.toNat - 1 := by
    bv_omega
  refine MaskedWrite.or_and_not_eq_zero (MaskedWrite.or_and_not_eq_zero
    (MaskedWrite.or_and_not_eq_zero ?_ ?_) ?_) ?_
  · exact MaskedWrite.shiftLeft_and_not_eq_zero (by omega) fbrp
  · exact MaskedWrite.shiftLeft_and_not_eq_zero (by rw [hminus _ h1]; omega) f1
  · exact MaskedWrite.shiftLeft_and_not_eq_zero (by rw [hminus _ h2]; omega) f2
  · exact MaskedWrite.shiftLeft_and_not_eq_zero (by rw [hminus _ hs]; omega) fs

theorem nbtcfg_word (hone : 1 ≤ brp) (hle : brp ≤ 256)
    (h : Accepts nominalLimits fcan bps pct brp total tseg1.toNat tseg2.toNat) :
    let w := (phaseOf nominalLimits nbtcfgPositions brp tseg1 tseg2).btcfg
    PhaseWord w nbtcfgFields (decodeNbtcfg w) (nbtcfgSjw w) 2 256 128 := by
  have h1 : 2 ≤ tseg1.toNat := h.tseg1Min
  have h1' : tseg1.toNat ≤ 256 := h.tseg1Max
  have h2 : 1 ≤ tseg2.toNat := h.tseg2Min
  have h2' : tseg2.toNat ≤ 128 := h.tseg2Max
  have hsjw : sjwOf nominalLimits tseg2 = tseg2 := sjwOf_eq h2'
  have hw := toNat_assembleBtcfg hone hle (by omega) h1' h2 (by omega) h2 (by omega)
  intro w
  have hdecode : decodeNbtcfg w = ⟨brp, tseg1.toNat, tseg2.toNat⟩ :=
    decodeNbtcfg_phaseOf hone hle h
  rw [hdecode]
  refine ⟨⟨hone, hle⟩, ⟨h1, h1'⟩, ⟨h2, h2'⟩, ?_, ?_⟩
  · simp only [w, nbtcfgSjw, phaseOf, hsjw, field_eq, hw, nbtcfgSjwPos]
    omega
  · simp only [w, phaseOf, hsjw]
    exact assembleBtcfg_inside 8 7 7 hone hle (by omega) h1' h2 h2' h2 h2' (by decide)
      (by decide) (by decide) (by decide)

theorem dbtcfg_word (hone : 1 ≤ brp) (hle : brp ≤ 256)
    (h : Accepts dataLimits fcan bps pct brp total tseg1.toNat tseg2.toNat) :
    let w := (phaseOf dataLimits dbtcfgPositions brp tseg1 tseg2).btcfg
    PhaseWord w dbtcfgFields (decodeDbtcfg w) (dbtcfgSjw w) 1 32 16 := by
  have h1 : 1 ≤ tseg1.toNat := h.tseg1Min
  have h1' : tseg1.toNat ≤ 32 := h.tseg1Max
  have h2 : 1 ≤ tseg2.toNat := h.tseg2Min
  have h2' : tseg2.toNat ≤ 16 := h.tseg2Max
  have hsjw : sjwOf dataLimits tseg2 = tseg2 := sjwOf_eq h2'
  have hpos : dbtcfgPositions = nbtcfgPositions := rfl
  have hw := toNat_assembleBtcfg hone hle h1 (by omega) h2 (by omega) h2 (by omega)
  intro w
  have hdecode : decodeDbtcfg w = ⟨brp, tseg1.toNat, tseg2.toNat⟩ :=
    decodeDbtcfg_phaseOf hone hle h
  rw [hdecode]
  refine ⟨⟨hone, hle⟩, ⟨h1, h1'⟩, ⟨h2, h2'⟩, ?_, ?_⟩
  · simp only [w, dbtcfgSjw, phaseOf, hsjw, hpos, field_eq, hw, dbtcfgSjwPos]
    omega
  · simp only [w, phaseOf, hsjw]
    exact assembleBtcfg_inside 5 4 4 hone hle h1 h1' h2 h2' h2 h2' (by decide) (by decide)
      (by decide) (by decide)

theorem tdcWord_fields {brpActual : BitVec 16} (hbrp : brpActual.toNat ≤ 256)
    (h1 : tseg1.toNat ≤ 256) :
    TdcWord (tdcWord brpActual tseg1) (min 127 (brpActual.toNat * tseg1.toNat)) := by
  have hmul : brpActual.toNat * tseg1.toNat ≤ 256 * 256 := Nat.mul_le_mul hbrp h1
  have hprod : (brpActual.setWidth 32 * tseg1.setWidth 32).toNat =
      brpActual.toNat * tseg1.toNat := by
    rw [BitVec.toNat_mul, BitVec.toNat_setWidth, BitVec.toNat_setWidth,
      Nat.mod_eq_of_lt (a := brpActual.toNat) (by omega),
      Nat.mod_eq_of_lt (a := tseg1.toNat) (by omega), Nat.mod_eq_of_lt (by omega)]
  have hword : ∃ x : BitVec 32, x.toNat = min 127 (brpActual.toNat * tseg1.toNat) ∧
      tdcWord brpActual tseg1 = (tdcTdcmodAuto <<< tdcTdcmodPos) ||| (x <<< tdcTdcoPos) := by
    refine ⟨_, ?_, rfl⟩
    split
    next h => bv_omega
    next h => bv_omega
  obtain ⟨x, hx, hw⟩ := hword
  have hlt : x.toNat < 2 ^ 7 := by omega
  have hnat : (tdcWord brpActual tseg1).toNat = 2 * 2 ^ 16 + x.toNat * 2 ^ 8 := by
    rw [hw, BitVec.toNat_or, BitVec.toNat_shiftLeft, BitVec.toNat_shiftLeft]
    simp only [tdcTdcmodAuto, tdcTdcmodPos, tdcTdcoPos]
    rw [Nat.mod_eq_of_lt (b := 2 ^ 32) (by decide), Nat.shiftLeft_eq x.toNat,
      Nat.mod_eq_of_lt (by omega)]
    exact (Nat.shiftLeft_add_eq_or_of_lt (b := x.toNat * 2 ^ 8) (i := 16) (by omega) 2).symm
  refine ⟨?_, ?_, ?_⟩
  · rw [field_eq, hnat, tdcTdcmodPos]
    change _ = 2
    omega
  · rw [field_eq, hnat, tdcTdcoPos, ← hx]
    omega
  · rw [hw]
    exact MaskedWrite.or_and_not_eq_zero (by decide)
      (MaskedWrite.shiftLeft_and_not_eq_zero hlt (by decide))

end

/-- Whatever wrapped on the way, the words that the solver hands out are well-formed: both phases
inside their limits and their fields, and the compensation offset that of the data phase. -/
theorem calcBitTiming_wellFormed {canClkHz nominalBps dataBps : BitVec 32} {samplePct : BitVec 8}
    {t : BitTiming} (h : calcBitTiming canClkHz nominalBps dataBps samplePct = .ok (some t)) :
    PhaseWord t.nbtcfg nbtcfgFields (decodeNbtcfg t.nbtcfg) (nbtcfgSjw t.nbtcfg) 2 256 128 ∧
      PhaseWord t.dbtcfg dbtcfgFields (decodeDbtcfg t.dbtcfg) (dbtcfgSjw t.dbtcfg) 1 32 16 ∧
      TdcWord t.tdc (min 127 ((decodeDbtcfg t.dbtcfg).brp * (decodeDbtcfg t.dbtcfg).tseg1)) := by
  obtain ⟨n, d, hn, hd, rfl⟩ := calcBitTiming_found h
  obtain ⟨nbrp, ntotal, n1, n2, hnone, hnle, -, hnacc, rfl⟩ := solvePhase_found nominalLimits_sound hn
  obtain ⟨brp, total, d1, d2, hone, hle, -, hacc, rfl⟩ := solvePhase_found dataLimits_sound hd
  refine ⟨nbtcfg_word hnone hnle hnacc, dbtcfg_word hone hle hacc, ?_⟩
  have hbrp : ((BitVec.ofNat 32 brp).setWidth 16).toNat = brp := by bv_omega
  have h1 : d1.toNat ≤ 32 := hacc.tseg1Max
  have htdc := @tdcWord_fields d1 ((BitVec.ofNat 32 brp).setWidth 16) (hbrp.trans_le hle) (by omega)
  rw [decodeDbtcfg_phaseOf hone hle hacc]
  rw [hbrp] at htdc
  exact htdc

theorem calcBitTiming_wellFormed_example :
    calcBitTiming 20000000 500000 2000000 80 = .ok (some ⟨0x001E0707, 0x00060101, 0x20700⟩) ∧
      PhaseWord 0x001E0707 nbtcfgFields ⟨1, 31, 8⟩ 8 2 256 128 ∧
      PhaseWord 0x00060101 dbtcfgFields ⟨1, 7, 2⟩ 2 1 32 16 ∧ TdcWord 0x20700 7 := by
  have hcalc : calcBitTiming 20000000 500000 2000000 80 =
      .ok (some ⟨0x001E0707, 0x00060101, 0x20700⟩) := by decide +kernel
  exact ⟨hcalc, calcBitTiming_wellFormed hcalc⟩

def Segments.samplePoint (s : Segments) : ℚ := (1 + s.tseg1) / (1 + s.tseg1 + s.tseg2)

def Segments.quantum (s : Segments) : ℚ := 1 / (1 + s.tseg1 + s.tseg2)

section

variable {lim : BtLimits} {fcan bps pct brp total t1 t2 : Nat}

/-- An accepted candidate splits its bit at the sample point, also one that wrapped: modulo 2^16
the wraps cancel, and both sides of the rounding are below 2^16. -/
theorem Accepts.sample_split (h : Accepts lim fcan bps pct brp total t1 t2) (hlim : lim.Sound)
    (hpct : pct < 100) : ((1 + t1 + t2) * pct + 50) / 100 = 1 + t1 := by
  have hle := hlim.quanta_le h.tseg1Max h.tseg2Max
  have hroom := h.room
  have hsplit := h.split
  have hsample := h.sample
  have hquanta : total % 2 ^ 16 = 1 + t1 + t2 := by omega
  have hscaled : (total * pct + 50) % 2 ^ 32 % 2 ^ 16 = (1 + t1 + t2) * pct + 50 := by
    have hlt : (1 + t1 + t2) * pct ≤ 385 * 100 := Nat.mul_le_mul hle (Nat.le_of_lt hpct)
    rw [Nat.mod_mod_of_dvd _ (by decide), Nat.add_mod, Nat.mul_mod, hquanta]
    rw [Nat.mod_eq_of_lt (a := pct) (by omega), Nat.mod_eq_of_lt (a := (1 + t1 + t2) * pct) (by omega)]
    exact Nat.mod_eq_of_lt (by omega)
  have hmax := hlim.tseg1Max
  have := h.tseg1Max
  generalize (total * pct + 50) % 2 ^ 32 = scaled at hsample hscaled
  have hparts : scaled = 2 ^ 16 * (100 * (scaled / 100 / 2 ^ 16)) + (100 * (1 + t1) + scaled % 100) := by
    omega
  have hrest : scaled % 2 ^ 16 = 100 * (1 + t1) + scaled % 100 := by
    rw [hparts, Nat.mul_add_mod, Nat.mod_eq_of_lt (by omega)]
    omega
  omega

end

theorem samplePoint_near {s : Segments} {pct : Nat}
    (h : ((1 + s.tseg1 + s.tseg2) * pct + 50) / 100 = 1 + s.tseg1) :
    |s.samplePoint - pct / 100| ≤ s.quantum / 2 := by
  have herr : |(100 * (1 + s.tseg1) : ℚ) - pct * (1 + s.tseg1 + s.tseg2)| ≤ 50 := by
    exact_mod_cast sample_error h
  have hpos : (0 : ℚ) < 1 + s.tseg1 + s.tseg2 := by positivity
  have hscale : s.samplePoint - pct / 100 =
      (100 * (1 + s.tseg1) - pct * (1 + s.tseg1 + s.tseg2)) / (100 * (1 + s.tseg1 + s.tseg2)) := by
    rw [Segments.samplePoint]
    field_simp
  rw [hscale, abs_div, abs_of_pos (by positivity : (0 : ℚ) < 100 * (1 + s.tseg1 + s.tseg2)),
    Segments.quantum, div_le_iff₀ (by positivity)]
  calc
    |(100 * (1 + s.tseg1) : ℚ) - pct * (1 + s.tseg1 + s.tseg2)| ≤ 50 := herr
    _ = 1 / (1 + s.tseg1 + s.tseg2) / 2 * (100 * (1 + s.tseg1 + s.tseg2)) := by
      field_simp
      norm_num

theorem calcBitTiming_split {canClkHz nominalBps dataBps : BitVec 32} {samplePct : BitVec 8}
    {t : BitTiming} (h : calcBitTiming canClkHz nominalBps dataBps samplePct = .ok (some t)) :
    |(decodeNbtcfg t.nbtcfg).samplePoint - samplePct.toNat / 100| ≤
        (decodeNbtcfg t.nbtcfg).quantum / 2 ∧
      |(decodeDbtcfg t.dbtcfg).samplePoint - samplePct.toNat / 100| ≤
        (decodeDbtcfg t.dbtcfg).quantum / 2 := by
  have hpct : samplePct.toNat < 100 := by
    by_contra hge
    rw [calcBitTiming, if_pos (.inr (by bv_omega))] at h
    cases h
  obtain ⟨n, d, hn, hd, rfl⟩ := calcBitTiming_found h
  obtain ⟨nbrp, ntotal, n1, n2, hnone, hnle, -, hnacc, rfl⟩ := solvePhase_found nominalLimits_sound hn
  obtain ⟨brp, total, d1, d2, hone, hle, -, hacc, rfl⟩ := solvePhase_found dataLimits_sound hd
  rw [decodeNbtcfg_phaseOf hnone hnle hnacc, decodeDbtcfg_phaseOf hone hle hacc]
  exact ⟨samplePoint_near (hnacc.sample_split nominalLimits_sound hpct),
    samplePoint_near (hacc.sample_split dataLimits_sound hpct)⟩

end CanfdDriver.NoraCanfd
