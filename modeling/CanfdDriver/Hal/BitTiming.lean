import CanfdDriver.Hal.Common

namespace CanfdDriver.NoraCanfd

open Lib

/-! ### Exact timings -/

/-- `brp` divides the clock into bits of `1 + t1 + t2` time quanta, split at the
sample point, with both segments inside their limits. -/
structure Fits (lim : BtLimits) (fcan bps pct brp t1 t2 : Nat) : Prop where
  division : bps * brp * (1 + t1 + t2) = fcan
  sample : ((1 + t1 + t2) * pct + 50) / 100 = 1 + t1
  tseg1Min : lim.tseg1Min.toNat ≤ t1
  tseg1Max : t1 ≤ lim.tseg1Max.toNat
  tseg2Min : lim.tseg2Min.toNat ≤ t2
  tseg2Max : t2 ≤ lim.tseg2Max.toNat

structure Segments : Type where
  brp : Nat
  tseg1 : Nat
  tseg2 : Nat
  deriving DecidableEq

def field (w : BitVec 32) (pos width : Nat) : Nat := (w.extractLsb' pos width).toNat

def decodeNbtcfg (w : BitVec 32) : Segments where
  brp := field w nbtcfgBrpPos 8 + 1
  tseg1 := field w nbtcfgTseg1Pos 8 + 1
  tseg2 := field w nbtcfgTseg2Pos 7 + 1

def decodeDbtcfg (w : BitVec 32) : Segments where
  brp := field w dbtcfgBrpPos 8 + 1
  tseg1 := field w dbtcfgTseg1Pos 5 + 1
  tseg2 := field w dbtcfgTseg2Pos 4 + 1

/-- A phase runs at its rate, samples within half a quantum of the sample
point, and has the smallest prescaler that fits. -/
structure PhaseExact (lim : BtLimits) (fcan bps pct : Nat) (s : Segments) : Prop where
  rate : bps * s.brp * (1 + s.tseg1 + s.tseg2) = fcan
  sample : |(100 * (1 + s.tseg1) : ℤ) - pct * (1 + s.tseg1 + s.tseg2)| ≤ 50
  least : IsLeast {b | 1 ≤ b ∧ b ≤ 256 ∧ ∃ t1 t2, Fits lim fcan bps pct b t1 t2} s.brp

def product (bps brp : Nat) : Nat := bps * brp % 2 ^ 32

/-- The tests of the prescaler loop: the product is reduced modulo `2 ^ 32`, the
segments modulo `2 ^ 16`, and `total` need not be `1 + t1 + t2`. -/
structure Accepts (lim : BtLimits) (fcan bps pct brp total t1 t2 : Nat) : Prop where
  divisor : product bps brp ≠ 0
  division : product bps brp * total = fcan
  quanta : 4 ≤ total
  sample : (total * pct + 50) % 2 ^ 32 / 100 % 2 ^ 16 = 1 + t1
  room : 1 + t1 + lim.tseg2Min.toNat ≤ total
  split : (total - 1 - t1) % 2 ^ 16 = t2
  tseg1Min : lim.tseg1Min.toNat ≤ t1
  tseg1Max : t1 ≤ lim.tseg1Max.toNat
  tseg2Min : lim.tseg2Min.toNat ≤ t2
  tseg2Max : t2 ≤ lim.tseg2Max.toNat

def Ends (lim : BtLimits) (fcan bps pct brp : Nat) : Prop :=
  ∃ total, product bps brp ≠ 0 ∧ product bps brp * total = fcan ∧
    (total < 4 ∨ ∃ t1 t2, Accepts lim fcan bps pct brp total t1 t2)

structure BtLimits.Sound (lim : BtLimits) : Prop where
  tseg1Pos : 0 < lim.tseg1Min.toNat
  tseg2Pos : 0 < lim.tseg2Min.toNat
  tseg1Max : lim.tseg1Max.toNat ≤ 256
  tseg2Max : lim.tseg2Max.toNat ≤ 128

theorem nominalLimits_sound : nominalLimits.Sound := ⟨by decide, by decide, by decide, by decide⟩

theorem dataLimits_sound : dataLimits.Sound := ⟨by decide, by decide, by decide, by decide⟩

theorem BtLimits.Sound.quanta_le {lim : BtLimits} {t1 t2 : Nat} (h : lim.Sound)
    (h1 : t1 ≤ lim.tseg1Max.toNat) (h2 : t2 ≤ lim.tseg2Max.toNat) : 1 + t1 + t2 ≤ 385 := by
  have := h.tseg1Max
  have := h.tseg2Max
  omega

variable {fcanHz bps : BitVec 32} {samplePct : BitVec 8} {lim : BtLimits} {pos : BtPositions}
  {i : Nat} {p : Phase}

theorem toNat_product (bps : BitVec 32) (i : Nat) :
    (bps * BitVec.ofNat 32 i).toNat = product bps.toNat i := by
  rw [BitVec.toNat_mul, BitVec.toNat_ofNat, Nat.mul_mod_mod, product]

theorem product_eq_zero (bps : BitVec 32) (i : Nat) :
    bps * BitVec.ofNat 32 i = 0 ↔ product bps.toNat i = 0 := by
  rw [← BitVec.toNat_inj, toNat_product]
  rfl

theorem toNat_tseg1Of (total : BitVec 32) (samplePct : BitVec 8) :
    (tseg1Of total samplePct).toNat =
      ((total.toNat * samplePct.toNat + 50) % 2 ^ 32 / 100 % 2 ^ 16 + (2 ^ 16 - 1)) % 2 ^ 16 := by
  have hpct : samplePct.toNat % 2 ^ 32 = samplePct.toNat := Nat.mod_eq_of_lt (by omega)
  have hscaled : (total * samplePct.setWidth 32 + 50).toNat =
      (total.toNat * samplePct.toNat + 50) % 2 ^ 32 := by
    rw [BitVec.toNat_add, BitVec.toNat_mul, BitVec.toNat_setWidth, hpct, Nat.mod_add_mod]
    rfl
  rw [tseg1Of, BitVec.toNat_sub, BitVec.toNat_setWidth, BitVec.toNat_udiv, hscaled, Nat.add_comm]
  rfl

theorem toNat_tseg2Of (total : BitVec 32) (tseg1 : BitVec 16)
    (h : 1 + tseg1.toNat ≤ total.toNat) :
    (tseg2Of total tseg1).toNat = (total.toNat - 1 - tseg1.toNat) % 2 ^ 16 := by
  simp only [tseg2Of, BitVec.ofNat_eq_ofNat, BitVec.toNat_sub, BitVec.toNat_setWidth,
    BitVec.toNat_ofNat]
  omega

theorem Accepts.tseg1 {total : BitVec 32} {t1 t2 : Nat} (hlim : lim.Sound) {fcan bps : Nat}
    (h : Accepts lim fcan bps samplePct.toNat i total.toNat t1 t2) :
    (tseg1Of total samplePct).toNat = t1 := by
  have := hlim.tseg1Max
  have := h.tseg1Max
  rw [toNat_tseg1Of, h.sample]
  omega

theorem Accepts.tseg2 {total : BitVec 32} {t1 t2 : Nat} (hlim : lim.Sound) {fcan bps : Nat}
    (h : Accepts lim fcan bps samplePct.toNat i total.toNat t1 t2) :
    (tseg2Of total (tseg1Of total samplePct)).toNat = t2 := by
  have htseg1 := h.tseg1 hlim
  have := h.room
  rw [toNat_tseg2Of _ _ (by omega), htseg1, h.split]

theorem accepts_of_tests {total : BitVec 32} (hlim : lim.Sound)
    (hne : product bps.toNat i ≠ 0) (hdiv : product bps.toNat i * total.toNat = fcanHz.toNat)
    (hquanta : 4 ≤ total.toNat)
    (hlimits1 : ¬(tseg1Of total samplePct < lim.tseg1Min ∨ tseg1Of total samplePct > lim.tseg1Max))
    (hroom : 1 + (tseg1Of total samplePct).toNat + lim.tseg2Min.toNat ≤ total.toNat)
    (hlimits2 : ¬(tseg2Of total (tseg1Of total samplePct) < lim.tseg2Min ∨
      tseg2Of total (tseg1Of total samplePct) > lim.tseg2Max)) :
    Accepts lim fcanHz.toNat bps.toNat samplePct.toNat i total.toNat
      (tseg1Of total samplePct).toNat (tseg2Of total (tseg1Of total samplePct)).toNat := by
  have hmax := hlim.tseg1Max
  have htseg1 := toNat_tseg1Of total samplePct
  have htseg2 := toNat_tseg2Of total (tseg1Of total samplePct) (by omega)
  simp only [not_or, gt_iff_lt, BitVec.lt_def, not_lt] at hlimits1 hlimits2
  exact ⟨hne, hdiv, hquanta, by omega, hroom, htseg2.symm, hlimits1.1, hlimits1.2, hlimits2.1,
    hlimits2.2⟩

def sjwOf (lim : BtLimits) (tseg2 : BitVec 16) : BitVec 16 :=
  if tseg2 < lim.sjwMax then tseg2 else lim.sjwMax

def phaseOf (lim : BtLimits) (pos : BtPositions) (i : Nat) (tseg1 tseg2 : BitVec 16) : Phase :=
  ⟨assembleBtcfg pos (BitVec.ofNat 32 i) tseg1 tseg2 (sjwOf lim tseg2), tseg1,
    (BitVec.ofNat 32 i).setWidth 16⟩

inductive TryBrp (fcan bps pct : Nat) (lim : BtLimits) (pos : BtPositions) (i : Nat) :
    Verdict Stop Phase → Prop
  | fault : product bps i = 0 → TryBrp fcan bps pct lim pos i (.fault .divByZero)
  | next : product bps i ≠ 0 → ¬Ends lim fcan bps pct i → TryBrp fcan bps pct lim pos i .next
  | quit {total : Nat} : product bps i ≠ 0 → product bps i * total = fcan → total < 4 →
      TryBrp fcan bps pct lim pos i .quit
  | found {total : Nat} {tseg1 tseg2 : BitVec 16} :
      Accepts lim fcan bps pct i total tseg1.toNat tseg2.toNat →
      TryBrp fcan bps pct lim pos i (.found (phaseOf lim pos i tseg1 tseg2))

theorem tryBrp_cases (hlim : lim.Sound) (i : Nat) : TryBrp fcanHz.toNat bps.toNat samplePct.toNat lim pos i
    (tryBrp fcanHz bps samplePct lim pos i) := by
  have hzero := product_eq_zero bps i
  have hprod := toNat_product bps i
  rw [tryBrp]
  generalize bps * BitVec.ofNat 32 i = prod at hzero hprod
  split
  next h => exact .fault (hzero.mp h)
  next h =>
    have hne := mt hzero.mpr h
    rw [← hprod] at hne
    have hunique (total : Nat) (ht : prod.toNat * total = fcanHz.toNat) :
        (fcanHz / prod).toNat = total := by
      rw [BitVec.toNat_udiv, ← ht, Nat.mul_div_cancel_left _ (Nat.pos_of_ne_zero hne)]
    have hrem : fcanHz % prod = 0 ↔ prod.toNat * (fcanHz / prod).toNat = fcanHz.toNat := by
      rw [← BitVec.toNat_inj, BitVec.toNat_umod, BitVec.toNat_udiv]
      have := Nat.div_add_mod fcanHz.toNat prod.toNat
      constructor
      · intro h0
        rw [h0] at this
        exact this
      · intro h0
        rw [h0] at this
        exact Nat.add_eq_left.mp this
    have hskip (hno : prod.toNat * (fcanHz / prod).toNat = fcanHz.toNat →
        4 ≤ (fcanHz / prod).toNat ∧ ∀ t1 t2, ¬Accepts lim fcanHz.toNat bps.toNat
          samplePct.toNat i (fcanHz / prod).toNat t1 t2) :
        TryBrp fcanHz.toNat bps.toNat samplePct.toNat lim pos i .next := by
      refine .next (hprod ▸ hne) ?_
      rintro ⟨total, -, hdiv, hend⟩
      rw [← hprod] at hdiv
      obtain rfl := hunique total hdiv
      obtain ⟨hq, hno⟩ := hno hdiv
      rcases hend with hlt | ⟨t1, t2, hacc⟩
      · omega
      · exact hno t1 t2 hacc
    generalize hT : fcanHz / prod = total at hunique hrem hskip
    simp only [ne_eq, hrem]
    split
    next hdiv => exact hskip fun h => absurd h hdiv
    next hdiv =>
      rw [not_not] at hdiv
      split
      next hq => exact .quit (hprod ▸ hne) (hprod ▸ hdiv) hq
      next hq =>
        have hquanta : 4 ≤ total.toNat := Nat.le_of_not_lt hq
        -- Three 16-bit values cannot wrap the 32-bit sum of the test.
        have hroom : (1 + (tseg1Of total samplePct).setWidth 32 + lim.tseg2Min.setWidth 32).toNat =
            1 + (tseg1Of total samplePct).toNat + lim.tseg2Min.toNat := by bv_omega
        split
        next hlimits =>
          refine hskip fun _ => ⟨hquanta, fun t1 t2 h => ?_⟩
          have htseg1 := h.tseg1 hlim
          have := h.tseg1Min
          have := h.tseg1Max
          bv_omega
        next hlimits1 =>
          split
          next hr =>
            refine hskip fun _ => ⟨hquanta, fun t1 t2 h => ?_⟩
            have htseg1 := h.tseg1 hlim
            have := h.room
            rw [BitVec.lt_def, hroom] at hr
            omega
          next hr =>
            rw [BitVec.lt_def, hroom, not_lt] at hr
            split
            next hlimits =>
              refine hskip fun _ => ⟨hquanta, fun t1 t2 h => ?_⟩
              have htseg2 := h.tseg2 hlim
              have := h.tseg2Min
              have := h.tseg2Max
              bv_omega
            next hlimits2 =>
              exact .found (accepts_of_tests hlim (hprod ▸ hne) (hprod ▸ hdiv) hquanta hlimits1 hr
                hlimits2)

section

variable {fcan pct : Nat} {v : Verdict Stop Phase}

theorem Accepts.ends {fcan bps pct brp total t1 t2 : Nat}
    (h : Accepts lim fcan bps pct brp total t1 t2) : Ends lim fcan bps pct brp :=
  ⟨total, h.divisor, h.division, .inr ⟨t1, t2, h⟩⟩

theorem TryBrp.eq_fault {bps : Nat} {e : Stop} (h : TryBrp fcan bps pct lim pos i v) :
    v = .fault e ↔ e = .divByZero ∧ product bps i = 0 := by
  cases h with
  | fault h => simp [h, eq_comm]
  | next h => simp [h]
  | quit h => simp [h]
  | found h => simp [h.divisor]

theorem TryBrp.eq_next {bps : Nat} (h : TryBrp fcan bps pct lim pos i v) :
    v = .next ↔ product bps i ≠ 0 ∧ ¬Ends lim fcan bps pct i := by
  cases h with
  | fault h => simp [h]
  | next h hno => simp [h, hno]
  | quit h hdiv hlt => simp [show Ends lim fcan bps pct i from ⟨_, h, hdiv, .inl hlt⟩]
  | found h => simp [h.ends]

theorem TryBrp.eq_found {bps : Nat} (h : TryBrp fcan bps pct lim pos i (.found p)) :
    ∃ total tseg1 tseg2, Accepts lim fcan bps pct i total tseg1.toNat tseg2.toNat ∧
      p = phaseOf lim pos i tseg1 tseg2 := by
  cases h with
  | found h => exact ⟨_, _, _, h, rfl⟩

end

/-! ### The search -/

def Reaches (lim : BtLimits) (fcan bps pct brp : Nat) : Prop :=
  ∀ b, 1 ≤ b → b < brp → product bps b ≠ 0 ∧ ¬Ends lim fcan bps pct b

theorem skips_iff (hlim : lim.Sound) {brp : Nat} :
    (∀ b, 1 ≤ b → b < brp → tryBrp fcanHz bps samplePct lim pos b = .next) ↔
      Reaches lim fcanHz.toNat bps.toNat samplePct.toNat brp :=
  forall_congr' fun b => forall_congr' fun _ => forall_congr' fun _ =>
    (tryBrp_cases hlim b).eq_next

theorem solvePhase_found (hlim : lim.Sound)
    (h : solvePhase fcanHz bps samplePct lim pos = .ok (some p)) :
    ∃ brp total tseg1 tseg2, 1 ≤ brp ∧ brp ≤ 256 ∧
      Reaches lim fcanHz.toNat bps.toNat samplePct.toNat brp ∧
      Accepts lim fcanHz.toNat bps.toNat samplePct.toNat brp total tseg1.toNat tseg2.toNat ∧
      p = phaseOf lim pos brp tseg1 tseg2 := by
  rw [solvePhase] at h
  split at h
  next => cases h
  next =>
    obtain ⟨brp, hstop, hfound⟩ := scan_eq_found.mp h
    have hcases : TryBrp _ _ _ lim pos brp (tryBrp fcanHz bps samplePct lim pos brp) :=
      tryBrp_cases hlim brp
    rw [hfound] at hcases
    obtain ⟨total, tseg1, tseg2, hacc, hp⟩ := hcases.eq_found
    have hlt := hstop.lt
    exact ⟨brp, total, tseg1, tseg2, hstop.le, by omega, (skips_iff hlim).mp hstop.skip, hacc, hp⟩

/-! ### Exactness -/

/-- No candidate that fits only after its product or its quanta wrapped comes
before every candidate that fits. -/
def WrapFree (lim : BtLimits) (fcan bps pct : Nat) : Prop :=
  ∀ brp total t1 t2, 1 ≤ brp → brp ≤ 256 → Accepts lim fcan bps pct brp total t1 t2 →
    2 ^ 32 ≤ bps * brp ∨ 2 ^ 16 ≤ total →
    ∃ b u1 u2, 1 ≤ b ∧ b < brp ∧ Fits lim fcan bps pct b u1 u2

section

variable {fcan bps pct brp total t1 t2 : Nat}

theorem Accepts.fits (h : Accepts lim fcan bps pct brp total t1 t2) (hlim : lim.Sound)
    (hpct : pct < 2 ^ 8) (hproduct : bps * brp < 2 ^ 32) (htotal : total < 2 ^ 16) :
    Fits lim fcan bps pct brp t1 t2 := by
  have hsplit := h.split
  have hroom := h.room
  have hsum : 1 + t1 + t2 = total := by omega
  have hle : total ≤ 385 := hsum ▸ hlim.quanta_le h.tseg1Max h.tseg2Max
  have hscaled : total * pct ≤ 385 * 255 := Nat.mul_le_mul hle (Nat.le_of_lt_succ hpct)
  have hdiv := h.division
  have hsample := h.sample
  rw [product, Nat.mod_eq_of_lt hproduct] at hdiv
  rw [Nat.mod_eq_of_lt (by omega), Nat.mod_eq_of_lt (by omega)] at hsample
  exact ⟨by rw [hsum, hdiv], by rw [hsum, hsample], h.tseg1Min, h.tseg1Max, h.tseg2Min,
    h.tseg2Max⟩

theorem Fits.product_eq (h : Fits lim fcan bps pct brp t1 t2) (hlt : fcan < 2 ^ 32) :
    product bps brp = bps * brp := by
  refine Nat.mod_eq_of_lt (Nat.lt_of_le_of_lt ?_ hlt)
  rw [← h.division]
  exact Nat.le_mul_of_pos_right _ (by omega)

theorem Fits.ends (h : Fits lim fcan bps pct brp t1 t2) (hlim : lim.Sound) (hpct : pct < 2 ^ 8)
    (hpos : 0 < fcan) (hlt : fcan < 2 ^ 32) : Ends lim fcan bps pct brp := by
  have hproduct := h.product_eq hlt
  have hne : product bps brp ≠ 0 := by
    intro h0
    have hdiv := h.division
    rw [← hproduct, h0, Nat.zero_mul] at hdiv
    omega
  have hdiv : product bps brp * (1 + t1 + t2) = fcan := by rw [hproduct, h.division]
  refine ⟨1 + t1 + t2, hne, hdiv, ?_⟩
  by_cases hquanta : 1 + t1 + t2 < 4
  · exact .inl hquanta
  · have hle := hlim.quanta_le h.tseg1Max h.tseg2Max
    have hscaled : (1 + t1 + t2) * pct ≤ 385 * 255 :=
      Nat.mul_le_mul hle (Nat.le_of_lt_succ hpct)
    have hsample := h.sample
    have hmin := h.tseg2Min
    exact .inr ⟨t1, t2, hne, hdiv, by omega, by omega, by omega, by omega, h.tseg1Min, h.tseg1Max,
      hmin, h.tseg2Max⟩

theorem Accepts.not_wrapped (h : Accepts lim fcan bps pct brp total t1 t2) (hlim : lim.Sound)
    (hlt : fcan < 2 ^ 32) (hrate : bps * brp * (1 + t1 + t2) = fcan) :
    bps * brp < 2 ^ 32 ∧ total < 2 ^ 16 := by
  have hproduct : bps * brp < 2 ^ 32 := by
    refine Nat.lt_of_le_of_lt ?_ hlt
    rw [← hrate]
    exact Nat.le_mul_of_pos_right _ (by omega)
  have hdiv := h.division
  have hne := h.divisor
  rw [product, Nat.mod_eq_of_lt hproduct] at hdiv hne
  have hsum : total = 1 + t1 + t2 :=
    Nat.eq_of_mul_eq_mul_left (Nat.pos_of_ne_zero hne) (hdiv.trans hrate.symm)
  have := hlim.quanta_le h.tseg1Max h.tseg2Max
  exact ⟨hproduct, by omega⟩

theorem Accepts.clock_pos (h : Accepts lim fcan bps pct brp total t1 t2) : 0 < fcan := by
  rw [← h.division]
  exact Nat.mul_pos (Nat.pos_of_ne_zero h.divisor) (by have := h.quanta; omega)

theorem sample_error (h : ((1 + t1 + t2) * pct + 50) / 100 = 1 + t1) :
    |(100 * (1 + t1) : ℤ) - pct * (1 + t1 + t2)| ≤ 50 := by
  have hcomm : (pct * (1 + t1 + t2) : ℤ) = ((1 + t1 + t2) * pct : ℕ) := by
    push_cast
    ring
  rw [hcomm, abs_le]
  omega

theorem exact_iff_wrapFree (hlim : lim.Sound) (hpct : pct < 2 ^ 8) (hlt : fcan < 2 ^ 32)
    (hone : 1 ≤ brp) (hle : brp ≤ 256) (hreach : Reaches lim fcan bps pct brp)
    (h : Accepts lim fcan bps pct brp total t1 t2) :
    PhaseExact lim fcan bps pct ⟨brp, t1, t2⟩ ↔ WrapFree lim fcan bps pct := by
  constructor
  · intro hexact b total' u1 u2 hb hb256 hacc hwrap
    have hbrp := h.not_wrapped hlim hlt hexact.rate
    rcases lt_trichotomy b brp with hlt' | rfl | hgt
    · exact absurd hacc.ends (hreach b hb hlt').2
    · have htotal : total' = total :=
        Nat.eq_of_mul_eq_mul_left (Nat.pos_of_ne_zero h.divisor)
          (hacc.division.trans h.division.symm)
      omega
    · exact ⟨brp, t1, t2, hone, hgt, h.fits hlim hpct hbrp.1 hbrp.2⟩
  · intro hfree
    have hbrp : bps * brp < 2 ^ 32 ∧ total < 2 ^ 16 := by
      by_contra hwrap
      obtain ⟨b, u1, u2, hb, hbb, hfits⟩ := hfree brp total t1 t2 hone hle h (by omega)
      exact (hreach b hb hbb).2 (hfits.ends hlim hpct h.clock_pos hlt)
    have hfits := h.fits hlim hpct hbrp.1 hbrp.2
    refine ⟨hfits.division, sample_error hfits.sample, ⟨hone, hle, t1, t2, hfits⟩, ?_⟩
    rintro b ⟨hb, -, u1, u2, hbfits⟩
    by_contra hbb
    exact (hreach b hb (Nat.lt_of_not_le hbb)).2 (hbfits.ends hlim hpct h.clock_pos hlt)

end

theorem or_fields {a b c s : Nat} (hb : b < 2 ^ 8) (hc : c < 2 ^ 8) (hs : s < 2 ^ 8) :
    a <<< 24 ||| b <<< 16 ||| c <<< 8 ||| s = a * 2 ^ 24 + b * 2 ^ 16 + c * 2 ^ 8 + s := by
  have hlow : c <<< 8 ||| s = c * 2 ^ 8 + s := by
    rw [← Nat.shiftLeft_add_eq_or_of_lt hs, Nat.shiftLeft_eq]
  have hmid : b <<< 16 ||| (c * 2 ^ 8 + s) = b * 2 ^ 16 + (c * 2 ^ 8 + s) := by
    rw [← Nat.shiftLeft_add_eq_or_of_lt (by omega), Nat.shiftLeft_eq]
  have hhigh : a <<< 24 ||| (b * 2 ^ 16 + (c * 2 ^ 8 + s)) =
      a * 2 ^ 24 + (b * 2 ^ 16 + (c * 2 ^ 8 + s)) := by
    rw [← Nat.shiftLeft_add_eq_or_of_lt (by omega), Nat.shiftLeft_eq]
  rw [Nat.or_assoc, Nat.or_assoc, hlow, hmid, hhigh]
  omega

theorem toNat_assembleBtcfg {brp : Nat} {tseg1 tseg2 sjw : BitVec 16} (hone : 1 ≤ brp)
    (hle : brp ≤ 256) (h1 : 1 ≤ tseg1.toNat) (h1' : tseg1.toNat ≤ 256) (h2 : 1 ≤ tseg2.toNat)
    (h2' : tseg2.toNat ≤ 256) (hs : 1 ≤ sjw.toNat) (hs' : sjw.toNat ≤ 256) :
    (assembleBtcfg nbtcfgPositions (BitVec.ofNat 32 brp) tseg1 tseg2 sjw).toNat =
      (brp - 1) * 2 ^ 24 + (tseg1.toNat - 1) * 2 ^ 16 + (tseg2.toNat - 1) * 2 ^ 8 +
        (sjw.toNat - 1) := by
  have hbrp : (BitVec.ofNat 32 brp - 1).toNat = brp - 1 := by bv_omega
  have hminus (x : BitVec 16) (hx : 1 ≤ x.toNat) : (x.setWidth 32 - 1).toNat = x.toNat - 1 := by
    bv_omega
  rw [← or_fields (by omega) (by omega) (by omega)]
  simp only [assembleBtcfg, nbtcfgPositions, nbtcfgSjwPos, nbtcfgTseg2Pos, nbtcfgTseg1Pos,
    nbtcfgBrpPos, BitVec.toNat_or, BitVec.toNat_shiftLeft, hbrp, hminus _ h1, hminus _ h2,
    hminus _ hs, Nat.shiftLeft_eq, Nat.pow_zero, Nat.mul_one]
  rw [Nat.mod_eq_of_lt (by omega), Nat.mod_eq_of_lt (by omega), Nat.mod_eq_of_lt (by omega),
    Nat.mod_eq_of_lt (by omega)]

theorem toNat_sjwOf (lim : BtLimits) {tseg2 : BitVec 16} (h2 : 1 ≤ tseg2.toNat)
    (hs : 1 ≤ lim.sjwMax.toNat) (hs' : lim.sjwMax.toNat ≤ 256) :
    1 ≤ (sjwOf lim tseg2).toNat ∧ (sjwOf lim tseg2).toNat ≤ 256 := by
  rw [sjwOf]
  split
  next h => bv_omega
  next h => exact ⟨hs, hs'⟩

theorem field_eq (w : BitVec 32) (pos width : Nat) :
    field w pos width = w.toNat / 2 ^ pos % 2 ^ width := by
  rw [field, BitVec.extractLsb'_toNat, Nat.shiftRight_eq_div_pow]

section

variable {fcan bps pct brp total : Nat} {tseg1 tseg2 : BitVec 16}

theorem decodeNbtcfg_phaseOf (hone : 1 ≤ brp) (hle : brp ≤ 256)
    (h : Accepts nominalLimits fcan bps pct brp total tseg1.toNat tseg2.toNat) :
    decodeNbtcfg (phaseOf nominalLimits nbtcfgPositions brp tseg1 tseg2).btcfg =
      ⟨brp, tseg1.toNat, tseg2.toNat⟩ := by
  have h1 : 2 ≤ tseg1.toNat := h.tseg1Min
  have h1' : tseg1.toNat ≤ 256 := h.tseg1Max
  have h2 : 1 ≤ tseg2.toNat := h.tseg2Min
  have h2' : tseg2.toNat ≤ 128 := h.tseg2Max
  have hs := toNat_sjwOf nominalLimits h2 (by decide) (by decide)
  have hw := toNat_assembleBtcfg hone hle (by omega) h1' h2 (by omega) hs.1 hs.2
  simp only [decodeNbtcfg, phaseOf, field_eq, hw, nbtcfgTseg2Pos, nbtcfgTseg1Pos, nbtcfgBrpPos,
    Segments.mk.injEq]
  omega

theorem decodeDbtcfg_phaseOf (hone : 1 ≤ brp) (hle : brp ≤ 256)
    (h : Accepts dataLimits fcan bps pct brp total tseg1.toNat tseg2.toNat) :
    decodeDbtcfg (phaseOf dataLimits dbtcfgPositions brp tseg1 tseg2).btcfg =
      ⟨brp, tseg1.toNat, tseg2.toNat⟩ := by
  have h1 : 1 ≤ tseg1.toNat := h.tseg1Min
  have h1' : tseg1.toNat ≤ 32 := h.tseg1Max
  have h2 : 1 ≤ tseg2.toNat := h.tseg2Min
  have h2' : tseg2.toNat ≤ 16 := h.tseg2Max
  have hs := toNat_sjwOf dataLimits h2 (by decide) (by decide)
  have hw := toNat_assembleBtcfg hone hle h1 (by omega) h2 (by omega) hs.1 hs.2
  have hpos : dbtcfgPositions = nbtcfgPositions := rfl
  simp only [decodeDbtcfg, phaseOf, hpos, field_eq, hw, dbtcfgTseg2Pos, dbtcfgTseg1Pos,
    dbtcfgBrpPos, Segments.mk.injEq]
  omega

end

theorem nominal_exact_iff
    (h : solvePhase fcanHz bps samplePct nominalLimits nbtcfgPositions = .ok (some p)) :
    PhaseExact nominalLimits fcanHz.toNat bps.toNat samplePct.toNat (decodeNbtcfg p.btcfg) ↔
      WrapFree nominalLimits fcanHz.toNat bps.toNat samplePct.toNat := by
  obtain ⟨brp, total, tseg1, tseg2, hone, hle, hreach, hacc, rfl⟩ :=
    solvePhase_found nominalLimits_sound h
  rw [decodeNbtcfg_phaseOf hone hle hacc]
  exact exact_iff_wrapFree nominalLimits_sound samplePct.isLt fcanHz.isLt hone hle hreach hacc

theorem data_exact_iff
    (h : solvePhase fcanHz bps samplePct dataLimits dbtcfgPositions = .ok (some p)) :
    PhaseExact dataLimits fcanHz.toNat bps.toNat samplePct.toNat (decodeDbtcfg p.btcfg) ↔
      WrapFree dataLimits fcanHz.toNat bps.toNat samplePct.toNat := by
  obtain ⟨brp, total, tseg1, tseg2, hone, hle, hreach, hacc, rfl⟩ :=
    solvePhase_found dataLimits_sound h
  rw [decodeDbtcfg_phaseOf hone hle hacc]
  exact exact_iff_wrapFree dataLimits_sound samplePct.isLt fcanHz.isLt hone hle hreach hacc

theorem calcBitTiming_found {canClkHz nominalBps dataBps : BitVec 32} {t : BitTiming}
    (h : calcBitTiming canClkHz nominalBps dataBps samplePct = .ok (some t)) :
    ∃ n d, solvePhase canClkHz nominalBps samplePct nominalLimits nbtcfgPositions = .ok (some n) ∧
      solvePhase canClkHz dataBps samplePct dataLimits dbtcfgPositions = .ok (some d) ∧
      t = ⟨n.btcfg, d.btcfg, tdcWord d.brpActual d.tseg1Actual⟩ := by
  rw [calcBitTiming] at h
  split at h
  next => cases h
  next =>
    split at h
    next => cases h
    next => cases h
    next n hn =>
      split at h
      next => cases h
      next => cases h
      next d hd =>
        cases h
        exact ⟨n, d, hn, hd, rfl⟩

/-- An accepted bit timing is exact in both phases unless a candidate that wrapped misleads
the search of one of them. -/
theorem bit_timing_exact_iff {canClkHz nominalBps dataBps : BitVec 32} {t : BitTiming}
    (h : calcBitTiming canClkHz nominalBps dataBps samplePct = .ok (some t)) :
    (PhaseExact nominalLimits canClkHz.toNat nominalBps.toNat samplePct.toNat
        (decodeNbtcfg t.nbtcfg) ∧
      PhaseExact dataLimits canClkHz.toNat dataBps.toNat samplePct.toNat
        (decodeDbtcfg t.dbtcfg)) ↔
      WrapFree nominalLimits canClkHz.toNat nominalBps.toNat samplePct.toNat ∧
        WrapFree dataLimits canClkHz.toNat dataBps.toNat samplePct.toNat := by
  obtain ⟨n, d, hn, hd, rfl⟩ := calcBitTiming_found h
  exact and_congr (nominal_exact_iff hn) (data_exact_iff hd)

theorem wrapFree_of_lt {fcan bps pct : Nat} (hbps : bps < 2 ^ 24) (hfcan : fcan < bps * 2 ^ 16) :
    WrapFree lim fcan bps pct := by
  intro brp total t1 t2 hone hle h hwrap
  have hproduct : bps * brp < 2 ^ 32 := by
    calc
      bps * brp ≤ bps * 256 := Nat.mul_le_mul_left bps hle
      _ < 2 ^ 32 := by omega
  have hdiv := h.division
  rw [product, Nat.mod_eq_of_lt hproduct] at hdiv
  have hmul : bps * 2 ^ 16 ≤ bps * brp * total :=
    Nat.mul_le_mul (Nat.le_mul_of_pos_right _ hone) (by omega)
  omega

theorem bit_timing_exact_example :
    PhaseExact nominalLimits 20000000 500000 80 ⟨1, 31, 8⟩ ∧
      PhaseExact dataLimits 20000000 2000000 80 ⟨1, 7, 2⟩ := by
  have hcalc : calcBitTiming 20000000 500000 2000000 80 =
      .ok (some ⟨0x001E0707, 0x00060101, 0x20700⟩) := by decide +kernel
  exact (bit_timing_exact_iff hcalc).mpr
    ⟨wrapFree_of_lt (by decide) (by decide), wrapFree_of_lt (by decide) (by decide)⟩

/-- At 2147983648 bit/s the product wraps to 1 MHz at the prescaler 2. -/
theorem bit_timing_wrapped :
    calcBitTiming 20000000 2147983648 2000000 80 = .ok (some ⟨0x010E0303, 0x00060101, 0x20700⟩) ∧
      ¬PhaseExact nominalLimits 20000000 2147983648 80 (decodeNbtcfg 0x010E0303) :=
  ⟨by decide +kernel, fun h => absurd h.rate (by decide)⟩

/-! ### Division by zero -/

def Traps (lim : BtLimits) (fcan bps pct : Nat) : Prop :=
  bps ≠ 0 ∧ ∃ brp, 1 ≤ brp ∧ brp ≤ 256 ∧ product bps brp = 0 ∧ Reaches lim fcan bps pct brp

def Finds (lim : BtLimits) (fcan bps pct : Nat) : Prop :=
  bps ≠ 0 ∧ ∃ brp total t1 t2, 1 ≤ brp ∧ brp ≤ 256 ∧ Accepts lim fcan bps pct brp total t1 t2 ∧
    Reaches lim fcan bps pct brp

theorem toNat_ne_zero {bps : BitVec 32} : bps.toNat ≠ 0 ↔ bps ≠ 0 := by
  rw [ne_eq, ne_eq, ← BitVec.toNat_inj]
  rfl

theorem reaches_stopsAt (hlim : lim.Sound) {brp : Nat} (hone : 1 ≤ brp) (hle : brp ≤ 256)
    (hreach : Reaches lim fcanHz.toNat bps.toNat samplePct.toNat brp)
    (hstop : tryBrp fcanHz bps samplePct lim pos brp ≠ .next) :
    StopsAt (tryBrp fcanHz bps samplePct lim pos) 1 256 brp :=
  ⟨hone, by omega, (skips_iff hlim).mpr hreach, hstop⟩

theorem solvePhase_traps (hlim : lim.Sound) {e : Stop} :
    solvePhase fcanHz bps samplePct lim pos = .error e ↔
      e = .divByZero ∧ Traps lim fcanHz.toNat bps.toNat samplePct.toNat := by
  rw [solvePhase, Traps, toNat_ne_zero]
  split
  next h => simp [h]
  next h =>
    rw [scan_eq_fault]
    simp only [ne_eq, h, not_false_eq_true, true_and]
    constructor
    · rintro ⟨brp, hstop, hfault⟩
      have hlt := hstop.lt
      obtain ⟨he, hzero⟩ := (tryBrp_cases hlim brp).eq_fault.mp hfault
      exact ⟨he, brp, hstop.le, by omega, hzero, (skips_iff hlim).mp hstop.skip⟩
    · rintro ⟨rfl, brp, hone, hle, hzero, hreach⟩
      have hfault : tryBrp fcanHz bps samplePct lim pos brp = .fault .divByZero :=
        (tryBrp_cases hlim brp).eq_fault.mpr ⟨rfl, hzero⟩
      exact ⟨brp, reaches_stopsAt hlim hone hle hreach (by simp [hfault]), hfault⟩

theorem TryBrp.of_accepts {fcan bps pct total t1 t2 : Nat} {v : Verdict Stop Phase}
    (h : TryBrp fcan bps pct lim pos i v) (hacc : Accepts lim fcan bps pct i total t1 t2) :
    ∃ p, v = .found p := by
  cases h with
  | fault h => exact absurd h hacc.divisor
  | next _ hno => exact absurd hacc.ends hno
  | quit h hdiv hlt =>
    have htotal := Nat.eq_of_mul_eq_mul_left (Nat.pos_of_ne_zero h)
      (hdiv.trans hacc.division.symm)
    have := hacc.quanta
    omega
  | found => exact ⟨_, rfl⟩

theorem solvePhase_finds (hlim : lim.Sound) :
    (∃ p, solvePhase fcanHz bps samplePct lim pos = .ok (some p)) ↔
      Finds lim fcanHz.toNat bps.toNat samplePct.toNat := by
  constructor
  · rintro ⟨p, h⟩
    have hne : bps ≠ 0 := by
      rintro rfl
      simp [solvePhase] at h
    obtain ⟨brp, total, tseg1, tseg2, hone, hle, hreach, hacc, -⟩ := solvePhase_found hlim h
    exact ⟨toNat_ne_zero.mpr hne, brp, total, _, _, hone, hle, hacc, hreach⟩
  · rintro ⟨hne, brp, total, t1, t2, hone, hle, hacc, hreach⟩
    have hcases : TryBrp _ _ _ lim pos brp (tryBrp fcanHz bps samplePct lim pos brp) :=
      tryBrp_cases hlim brp
    obtain ⟨p, hp⟩ := hcases.of_accepts hacc
    refine ⟨p, ?_⟩
    rw [solvePhase, if_neg (toNat_ne_zero.mp hne)]
    exact scan_eq_found.mpr ⟨brp, reaches_stopsAt hlim hone hle hreach (by simp [hp]), hp⟩

section

variable {fcan bps pct g n m : Nat}

theorem product_factor (hg : g * n = 2 ^ 32) (hbps : bps = g * m) (b : Nat) :
    product bps b = g * (m * b % n) := by
  rw [product, ← hg, hbps, Nat.mul_assoc, Nat.mul_mod_mul_left]

theorem product_factor_eq_zero (hg : g * n = 2 ^ 32) (hbps : bps = g * m) (hm : Nat.Coprime n m)
    (b : Nat) : product bps b = 0 ↔ n ∣ b := by
  have hg0 : g ≠ 0 := by
    rintro rfl
    simp at hg
  rw [product_factor hg hbps, Nat.mul_eq_zero, or_iff_right hg0, ← Nat.dvd_iff_mod_eq_zero]
  exact hm.dvd_mul_left

theorem exists_ends_of_dvd (hg : g * n = 2 ^ 32) (hbps : bps = g * m) (hm : Nat.Coprime m n)
    (hn : 1 < n) (hlt : bps < 2 ^ 32) (hne : bps ≠ 0) (hfcan : fcan < 2 ^ 32) (hdvd : g ∣ fcan) :
    ∃ b, 1 ≤ b ∧ b < n ∧ Ends lim fcan bps pct b := by
  obtain ⟨q, rfl⟩ := hdvd
  by_cases hq : q = 0
  · refine ⟨1, le_rfl, hn, 0, ?_, ?_, .inl (by decide)⟩
    · rw [product, Nat.mul_one, Nat.mod_eq_of_lt hlt]
      exact hne
    · rw [hq, Nat.mul_zero, Nat.mul_zero]
  · have hqn : q < n := by
      rw [← hg] at hfcan
      exact Nat.lt_of_mul_lt_mul_left hfcan
    -- `r * q % n` is the divider whose wrapped product is the clock itself: one quantum, too few.
    obtain ⟨r, hr, hinv⟩ := Nat.exists_mul_mod_eq_one_of_coprime hm hn
    have hmod : m * (r * q % n) % n = q := by
      calc
        m * (r * q % n) % n = m * r % n * q % n := by
          rw [Nat.mul_mod_mod, Nat.mod_mul_mod, Nat.mul_assoc]
        _ = q := by rw [hinv, Nat.one_mul, Nat.mod_eq_of_lt hqn]
    have hproduct : product bps (r * q % n) = g * q := by rw [product_factor hg hbps, hmod]
    have hpos : 0 < r * q % n := by
      refine Nat.pos_of_ne_zero fun h0 => hq ?_
      rw [← hmod, h0, Nat.mul_zero, Nat.zero_mod]
    have hg0 : g ≠ 0 := by
      rintro rfl
      simp at hg
    refine ⟨r * q % n, hpos, Nat.mod_lt _ (by omega), 1, ?_, ?_, .inl (by decide)⟩
    · rw [hproduct]
      exact Nat.mul_ne_zero hg0 hq
    · rw [hproduct, Nat.mul_one]

end

/-- The rate is a multiple of 2^24, and the clock is no multiple of the power of two in it. -/
def DividesByZero (fcan bps : Nat) : Prop :=
  bps ≠ 0 ∧ 2 ^ 24 ∣ bps ∧ ¬bps.gcd (2 ^ 32) ∣ fcan

theorem traps_iff {fcan bps pct : Nat} (hbps : bps < 2 ^ 32) (hfcan : fcan < 2 ^ 32) :
    Traps lim fcan bps pct ↔ DividesByZero fcan bps := by
  rw [Traps, DividesByZero]
  refine and_congr_right fun hne => ?_
  have hg0 : 0 < bps.gcd (2 ^ 32) := Nat.gcd_pos_of_pos_right _ (by decide)
  have hg : bps.gcd (2 ^ 32) * (2 ^ 32 / bps.gcd (2 ^ 32)) = 2 ^ 32 :=
    Nat.mul_div_cancel' (Nat.gcd_dvd_right _ _)
  have hm : bps = bps.gcd (2 ^ 32) * (bps / bps.gcd (2 ^ 32)) :=
    (Nat.mul_div_cancel' (Nat.gcd_dvd_left _ _)).symm
  have hcop := Nat.coprime_div_gcd_div_gcd hg0
  obtain ⟨v, hv, hpow⟩ := (Nat.dvd_prime_pow Nat.prime_two).mp (Nat.gcd_dvd_right bps (2 ^ 32))
  have hdvd24 : 2 ^ 24 ∣ bps ↔ 24 ≤ v := by
    rw [← Nat.pow_dvd_pow_iff_le_right (x := 2) (by decide), ← hpow, Nat.dvd_gcd_iff,
      and_iff_left (by decide)]
  generalize bps.gcd (2 ^ 32) = g at *
  generalize 2 ^ 32 / g = n at *
  generalize bps / g = m at *
  have hgbps : g < 2 ^ 32 := by
    refine Nat.lt_of_le_of_lt (Nat.le_of_dvd (Nat.pos_of_ne_zero hne) ?_) hbps
    exact ⟨m, hm⟩
  have hn : 1 < n := by
    by_contra h
    have : g * n ≤ g * 1 := Nat.mul_le_mul_left g (by omega)
    omega
  have hn256 : n ≤ 256 ↔ 24 ≤ v := by
    rw [← Nat.mul_le_mul_left_iff hg0, hg, hpow, show 256 = 2 ^ 8 from rfl, ← Nat.pow_add,
      Nat.pow_le_pow_iff_right (by decide)]
    omega
  have hzero := product_factor_eq_zero hg hm hcop.symm
  rw [hdvd24, ← hn256]
  constructor
  · rintro ⟨brp, hone, hle, hp, hreach⟩
    -- The product is zero first at `n`; if `g` divides the clock, the search has ended by then.
    have hnb : n ≤ brp := Nat.le_of_dvd hone ((hzero brp).mp hp)
    refine ⟨hnb.trans hle, fun hdvd => ?_⟩
    obtain ⟨b, hb, hbn, hends⟩ := @exists_ends_of_dvd lim fcan bps pct g n m hg hm hcop hn hbps
      hne hfcan hdvd
    exact (hreach b hb (by omega)).2 hends
  · rintro ⟨hle, hdvd⟩
    refine ⟨n, by omega, hle, (hzero n).mpr (dvd_refl n), fun b hb hbn => ⟨?_, ?_⟩⟩
    · exact fun h => absurd (Nat.le_of_dvd hb ((hzero b).mp h)) (by omega)
    · rintro ⟨total, -, hdiv, -⟩
      rw [product_factor hg hm, Nat.mul_assoc] at hdiv
      exact hdvd ⟨_, hdiv.symm⟩

def TimingTraps (fcan nominal data pct : Nat) : Prop :=
  0 < pct ∧ pct < 100 ∧ (DividesByZero fcan nominal ∨
    Finds nominalLimits fcan nominal pct ∧ DividesByZero fcan data)

theorem calcBitTiming_traps {canClkHz nominalBps dataBps : BitVec 32} {e : Stop} :
    calcBitTiming canClkHz nominalBps dataBps samplePct = .error e ↔ e = .divByZero ∧
      TimingTraps canClkHz.toNat nominalBps.toNat dataBps.toNat samplePct.toNat := by
  have hn := @solvePhase_traps canClkHz nominalBps samplePct _ nbtcfgPositions nominalLimits_sound
  have hf := @solvePhase_finds canClkHz nominalBps samplePct _ nbtcfgPositions nominalLimits_sound
  have hd := @solvePhase_traps canClkHz dataBps samplePct _ dbtcfgPositions dataLimits_sound
  rw [traps_iff (BitVec.isLt _) (BitVec.isLt _)] at hn hd
  rw [TimingTraps, ← hf, calcBitTiming]
  split
  next h =>
    have hpct : ¬(0 < samplePct.toNat ∧ samplePct.toNat < 100) := by bv_omega
    simp only [reduceCtorEq, false_iff]
    exact fun hall => hpct ⟨hall.2.1, hall.2.2.1⟩
  next h =>
    have hpct : 0 < samplePct.toNat ∧ samplePct.toNat < 100 := by bv_omega
    simp only [hpct, true_and]
    cases hphase : solvePhase canClkHz nominalBps samplePct nominalLimits nbtcfgPositions with
    | error e' =>
      obtain ⟨rfl, htraps⟩ := hn.mp hphase
      simp [htraps, eq_comm]
    | ok n =>
      have hno : ¬DividesByZero canClkHz.toNat nominalBps.toNat := by
        intro htraps
        rw [hn.mpr ⟨rfl, htraps⟩] at hphase
        cases hphase
      cases n with
      | none => simp [hno]
      | some n =>
        simp only [Except.ok.injEq, Option.some.injEq, exists_eq', true_and, hno, false_or, ← hd]
        cases solvePhase canClkHz dataBps samplePct dataLimits dbtcfgPositions with
        | error e => simp
        | ok d => cases d <;> simp

theorem calcBitTiming_returns {canClkHz nominalBps dataBps : BitVec 32} :
    (∃ t, calcBitTiming canClkHz nominalBps dataBps samplePct = .ok t) ↔
      ¬TimingTraps canClkHz.toNat nominalBps.toNat dataBps.toNat samplePct.toNat := by
  have htraps := @calcBitTiming_traps samplePct canClkHz nominalBps dataBps
  cases hcalc : calcBitTiming canClkHz nominalBps dataBps samplePct with
  | error e => simp [(htraps.mp hcalc).2]
  | ok t =>
    simp only [Except.ok.injEq, exists_eq', true_iff]
    intro h
    rw [htraps.mpr ⟨rfl, h⟩] at hcalc
    cases hcalc

/-! ### Completeness -/

def tseg1At (total pct : Nat) : ℤ := ((total * pct + 50) / 100 : ℕ) - 1

/-- `brp` divides the clock into `total` quanta, and the split at the sample point is legal. -/
structure LegalAt (lim : BtLimits) (fcan bps pct brp total : Nat) : Prop where
  divisor : 0 < bps * brp
  division : bps * brp * total = fcan
  quanta : 4 ≤ total
  tseg1Min : lim.tseg1Min.toNat ≤ tseg1At total pct
  tseg1Max : tseg1At total pct ≤ lim.tseg1Max.toNat
  tseg2Min : lim.tseg2Min.toNat ≤ total - 1 - tseg1At total pct
  tseg2Max : total - 1 - tseg1At total pct ≤ lim.tseg2Max.toNat

def Legal (lim : BtLimits) (fcan bps pct : Nat) : Prop :=
  ∃ brp total, 1 ≤ brp ∧ brp ≤ 256 ∧ LegalAt lim fcan bps pct brp total

section

variable {fcan bps pct brp total : Nat}

theorem LegalAt.fits (h : LegalAt lim fcan bps pct brp total) :
    ∃ t1 t2, Fits lim fcan bps pct brp t1 t2 := by
  have h1 := h.tseg1Min
  have h1' := h.tseg1Max
  have h2 := h.tseg2Min
  have h2' := h.tseg2Max
  have hdiv := h.division
  rw [tseg1At] at h1 h1' h2 h2'
  generalize hsample : (total * pct + 50) / 100 = s at h1 h1' h2 h2'
  have hsum : 1 + (s - 1) + (total - s) = total := by omega
  exact ⟨s - 1, total - s,
    { division := by rw [hsum, hdiv]
      sample := by
        rw [hsum, hsample]
        omega
      tseg1Min := by omega
      tseg1Max := by omega
      tseg2Min := by omega
      tseg2Max := by omega }⟩

theorem LegalAt.product_eq (h : LegalAt lim fcan bps pct brp total) (hlt : fcan < 2 ^ 32) {b : Nat}
    (hb : b ≤ brp) : product bps b = bps * b := by
  have hdiv := h.division
  have hquanta := h.quanta
  refine Nat.mod_eq_of_lt ?_
  calc
    bps * b ≤ bps * brp := Nat.mul_le_mul_left bps hb
    _ ≤ bps * brp * total := Nat.le_mul_of_pos_right _ (by omega)
    _ < 2 ^ 32 := by omega

theorem LegalAt.quanta_of_le (h : LegalAt lim fcan bps pct brp total) (hlt : fcan < 2 ^ 32)
    {b q : Nat} (hb : b ≤ brp) (hq : product bps b * q = fcan) : 4 ≤ q := by
  by_contra hfew
  have hless : bps * brp * q < bps * brp * total :=
    Nat.mul_lt_mul_of_pos_left (by have := h.quanta; omega) h.divisor
  have hle : bps * b * q ≤ bps * brp * q :=
    Nat.mul_le_mul_right q (Nat.mul_le_mul_left bps hb)
  have hdiv := h.division
  rw [h.product_eq hlt hb] at hq
  omega

theorem Legal.finds (h : Legal lim fcan bps pct) (hlim : lim.Sound) (hpct : pct < 2 ^ 8)
    (hlt : fcan < 2 ^ 32) : Finds lim fcan bps pct := by
  obtain ⟨brp, total, hone, hle, hlegal⟩ := h
  have hpos := hlegal.divisor
  have hfcan : 0 < fcan := by
    rw [← hlegal.division]
    exact Nat.mul_pos hpos (by have := hlegal.quanta; omega)
  obtain ⟨t1, t2, hfits⟩ := hlegal.fits
  have hends : ∃ b, 1 ≤ b ∧ Ends lim fcan bps pct b :=
    ⟨brp, hone, hfits.ends hlim hpct hfcan hlt⟩
  classical
  have hfirst := Nat.find_spec hends
  have hmin : ∀ b, 1 ≤ b → b < Nat.find hends → ¬Ends lim fcan bps pct b :=
    fun b hb hbf he => Nat.find_min hends hbf ⟨hb, he⟩
  have hfind : Nat.find hends ≤ brp := Nat.find_min' hends ⟨hone, hfits.ends hlim hpct hfcan hlt⟩
  generalize Nat.find hends = first at hfirst hmin hfind
  have hbps : bps ≠ 0 := by
    rintro rfl
    simp at hpos
  have hreach : Reaches lim fcan bps pct first := by
    refine fun b hb hbf => ⟨?_, hmin b hb hbf⟩
    rw [hlegal.product_eq hlt (by omega)]
    exact Nat.mul_ne_zero hbps (by omega)
  obtain ⟨hfirst, q, -, hq, hfew | ⟨u1, u2, hacc⟩⟩ := hfirst
  · have := hlegal.quanta_of_le hlt hfind hq
    omega
  · exact ⟨hbps, first, q, u1, u2, hfirst, hfind.trans hle, hacc, hreach⟩

end

theorem Legal.solvePhase (h : Legal lim fcanHz.toNat bps.toNat samplePct.toNat)
    (pos : BtPositions) (hlim : lim.Sound) :
    ∃ p, solvePhase fcanHz bps samplePct lim pos = .ok (some p) :=
  (solvePhase_finds hlim).mpr (h.finds hlim samplePct.isLt fcanHz.isLt)

/-- Settings whose phases both have a legal configuration are solved, and the solver refuses
settings only when one of the phases has none. -/
theorem calcBitTiming_complete {canClkHz nominalBps dataBps : BitVec 32}
    (hpos : 1 ≤ samplePct.toNat) (hlt : samplePct.toNat ≤ 99) :
    (Legal nominalLimits canClkHz.toNat nominalBps.toNat samplePct.toNat →
        Legal dataLimits canClkHz.toNat dataBps.toNat samplePct.toNat →
        ∃ t, calcBitTiming canClkHz nominalBps dataBps samplePct = .ok (some t)) ∧
      (calcBitTiming canClkHz nominalBps dataBps samplePct = .ok none →
        ¬Legal nominalLimits canClkHz.toNat nominalBps.toNat samplePct.toNat ∨
          ¬Legal dataLimits canClkHz.toNat dataBps.toNat samplePct.toNat) := by
  have hsolved (hn : Legal nominalLimits canClkHz.toNat nominalBps.toNat samplePct.toNat)
      (hd : Legal dataLimits canClkHz.toNat dataBps.toNat samplePct.toNat) :
      ∃ t, calcBitTiming canClkHz nominalBps dataBps samplePct = .ok (some t) := by
    have hpct : ¬(samplePct = 0 ∨ samplePct ≥ 100) := by bv_omega
    obtain ⟨n, hn⟩ := hn.solvePhase nbtcfgPositions nominalLimits_sound
    obtain ⟨d, hd⟩ := hd.solvePhase dbtcfgPositions dataLimits_sound
    rw [calcBitTiming, if_neg hpct, hn, hd]
    exact ⟨_, rfl⟩
  refine ⟨hsolved, fun hnone => ?_⟩
  by_contra hboth
  rw [not_or, not_not, not_not] at hboth
  obtain ⟨t, ht⟩ := hsolved hboth.1 hboth.2
  rw [hnone] at ht
  cases ht

theorem calcBitTiming_complete_example :
    Legal nominalLimits 20000000 500000 80 ∧ Legal dataLimits 20000000 2000000 80 ∧
      ∃ t, calcBitTiming 20000000 500000 2000000 80 = .ok (some t) := by
  have hn : Legal nominalLimits 20000000 500000 80 :=
    ⟨1, 40, by decide, by decide, by decide, by decide, by decide, by decide, by decide, by decide,
      by decide⟩
  have hd : Legal dataLimits 20000000 2000000 80 :=
    ⟨1, 10, by decide, by decide, by decide, by decide, by decide, by decide, by decide, by decide,
      by decide⟩
  have hsolved := @calcBitTiming_complete 80 20000000 500000 2000000 (by decide) (by decide)
  exact ⟨hn, hd, hsolved.1 hn hd⟩

def SplitsInto (lim : BtLimits) (fcan bps pct brp t1 t2 : Nat) : Prop :=
  1 ≤ brp ∧ brp ≤ 256 ∧ Reaches lim fcan bps pct brp ∧
    ∃ total, Accepts lim fcan bps pct brp total t1 t2

def SameSplit (lim : BtLimits) (fcan bps pct pct' : Nat) : Prop :=
  ∃ brp t1 t2, SplitsInto lim fcan bps pct brp t1 t2 ∧ SplitsInto lim fcan bps pct' brp t1 t2

section

variable {fcan bps pct brp brp' t1 t1' t2 t2' : Nat}

theorem SplitsInto.brp_le (h : SplitsInto lim fcan bps pct brp t1 t2)
    (h' : SplitsInto lim fcan bps pct brp' t1' t2') : brp' ≤ brp := by
  obtain ⟨hone, -, -, total, hacc⟩ := h
  obtain ⟨-, -, hreach, -⟩ := h'
  by_contra hlt
  exact (hreach brp hone (Nat.not_le.mp hlt)).2 hacc.ends

theorem SplitsInto.unique (h : SplitsInto lim fcan bps pct brp t1 t2)
    (h' : SplitsInto lim fcan bps pct brp' t1' t2') : brp' = brp ∧ t1' = t1 ∧ t2' = t2 := by
  obtain rfl := Nat.le_antisymm (h.brp_le h') (h'.brp_le h)
  obtain ⟨-, -, -, total, hacc⟩ := h
  obtain ⟨-, -, -, total', hacc'⟩ := h'
  obtain rfl := Nat.eq_of_mul_eq_mul_left (Nat.pos_of_ne_zero hacc.divisor)
    (hacc'.division.trans hacc.division.symm)
  have h1 : t1' = t1 := by
    have := hacc.sample
    have := hacc'.sample
    omega
  have h2 : t2' = t2 := by
    rw [← hacc.split, ← hacc'.split, h1]
  exact ⟨rfl, h1, h2⟩

end

section

variable {p p' : Phase} {pct pct' : BitVec 8}

theorem solvePhase_splits (hlim : lim.Sound) (h : solvePhase fcanHz bps pct lim pos = .ok (some p)) :
    ∃ brp tseg1 tseg2, SplitsInto lim fcanHz.toNat bps.toNat pct.toNat brp (BitVec.toNat tseg1)
      (BitVec.toNat tseg2) ∧ p = phaseOf lim pos brp tseg1 tseg2 := by
  obtain ⟨brp, total, tseg1, tseg2, hone, hle, hreach, hacc, hp⟩ := solvePhase_found hlim h
  exact ⟨brp, tseg1, tseg2, ⟨hone, hle, hreach, total, hacc⟩, hp⟩

theorem sameSplit_iff (hlim : lim.Sound) {decode : BitVec 32 → Segments}
    (hdecode : ∀ {fcan bps pct brp total : Nat} {tseg1 tseg2 : BitVec 16}, 1 ≤ brp → brp ≤ 256 →
      Accepts lim fcan bps pct brp total tseg1.toNat tseg2.toNat →
      decode (phaseOf lim pos brp tseg1 tseg2).btcfg = ⟨brp, tseg1.toNat, tseg2.toNat⟩)
    (h : solvePhase fcanHz bps pct lim pos = .ok (some p))
    (h' : solvePhase fcanHz bps pct' lim pos = .ok (some p')) :
    (p'.btcfg = p.btcfg ↔ SameSplit lim fcanHz.toNat bps.toNat pct.toNat pct'.toNat) ∧
      (SameSplit lim fcanHz.toNat bps.toNat pct.toNat pct'.toNat → p' = p) := by
  obtain ⟨brp, tseg1, tseg2, hsplit, hp⟩ := solvePhase_splits hlim h
  obtain ⟨brp', tseg1', tseg2', hsplit', hp'⟩ := solvePhase_splits hlim h'
  have hword {pct : BitVec 8} {brp : Nat} {tseg1 tseg2 : BitVec 16}
      (h : SplitsInto lim fcanHz.toNat bps.toNat pct.toNat brp tseg1.toNat tseg2.toNat) :
      decode (phaseOf lim pos brp tseg1 tseg2).btcfg = ⟨brp, tseg1.toNat, tseg2.toNat⟩ := by
    obtain ⟨hone, hle, -, total, hacc⟩ := h
    exact hdecode hone hle hacc
  have hsame : SameSplit lim fcanHz.toNat bps.toNat pct.toNat pct'.toNat → p' = p := by
    rintro ⟨b, u1, u2, hb, hb'⟩
    obtain ⟨rfl, rfl, rfl⟩ := hsplit.unique hb
    obtain ⟨rfl, h1, h2⟩ := hsplit'.unique hb'
    rw [hp, hp', BitVec.eq_of_toNat_eq h1, BitVec.eq_of_toNat_eq h2]
  refine ⟨⟨fun hw => ?_, fun hs => congrArg Phase.btcfg (hsame hs)⟩, hsame⟩
  have hsegments := congrArg decode hw
  rw [hp, hp', hword hsplit, hword hsplit'] at hsegments
  obtain ⟨hbrp, h1, h2⟩ := Segments.mk.inj hsegments
  rw [hbrp, h1, h2] at hsplit'
  exact ⟨brp, _, _, hsplit, hsplit'⟩

theorem sameSplit_refl (hlim : lim.Sound) (h : solvePhase fcanHz bps pct lim pos = .ok (some p)) :
    SameSplit lim fcanHz.toNat bps.toNat pct.toNat pct.toNat := by
  obtain ⟨brp, tseg1, tseg2, hsplit, -⟩ := solvePhase_splits hlim h
  exact ⟨brp, _, _, hsplit, hsplit⟩

end

end CanfdDriver.NoraCanfd
