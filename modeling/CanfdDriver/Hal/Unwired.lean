import CanfdDriver.Hal.Switches

namespace CanfdDriver

open Lib NoraCanfd

namespace NoraCanfd

variable {c d : Chan}

/-- The enables of the sources that are delivered on vectors of their own, which need not be wired:
those of the transmit side, and those of bus errors and invalid messages. -/
def unwiredBits : Reg → BitVec 32
  | .int => intTxie ||| intCerrie ||| intIvmie
  | .txqcon => txqconTxqeie
  | _ => 0

structure Unwired (c : Chan) : Prop where
  line : c.irq.tx.enable = false
  regs : ∀ r, c.regs r &&& unwiredBits r = 0

/-- None of these comes up. -/
structure NoArm (c d : Chan) : Prop where
  line : c.irq.tx.enable = false → d.irq.tx.enable = false
  regs : ∀ r, c.regs r &&& unwiredBits r = 0 → d.regs r &&& unwiredBits r = 0

theorem NoArm.of_eq (hline : d.irq.tx = c.irq.tx) (hregs : d.regs = c.regs) : NoArm c d :=
  ⟨fun h => hline ▸ h, fun _ h => hregs ▸ h⟩

instance : Std.Refl NoArm := ⟨fun _ => .of_eq rfl rfl⟩

theorem NoArm.unwired (h : NoArm c d) (hc : Unwired c) : Unwired d :=
  ⟨h.line hc.line, fun r => h.regs r (hc.regs r)⟩

theorem SameSwitches.noArm (h : SameSwitches c d) : NoArm c d where
  line hc := (congrArg Switches.txLine h).trans hc
  regs r hc := by
    have hint : d.regs .int &&& intOthers = c.regs .int &&& intOthers := congrArg Switches.int h
    have htxie : d.regs .int &&& intTxie ≠ 0 ↔ c.regs .int &&& intTxie ≠ 0 :=
      decide_eq_decide.mp (congrArg Switches.txie h)
    have hsub {v m b : BitVec 32} (hb : m &&& b = b) (hv : v &&& m = 0) : v &&& b = 0 := by
      rw [← hb, ← BitVec.and_assoc, hv, BitVec.ofNat_eq_ofNat, BitVec.zero_and]
    have htxqeie : d.regs .txqcon &&& txqconTxqeie ≠ 0 ↔ c.regs .txqcon &&& txqconTxqeie ≠ 0 :=
      decide_eq_decide.mp (congrArg Switches.txqeie h)
    cases r with
    | int =>
      have htx : d.regs .int &&& intTxie = 0 :=
        not_not.mp fun hd => htxie.mp hd (hsub (by decide) hc)
      have hothers : d.regs .int &&& (intCerrie ||| intIvmie) = 0 := by
        have hother : intOthers &&& (intCerrie ||| intIvmie) = intCerrie ||| intIvmie := by decide
        rw [← hother, ← BitVec.and_assoc, hint, BitVec.and_assoc, hother]
        exact hsub (by decide) hc
      rw [unwiredBits, BitVec.or_assoc, BitVec.and_or_distrib_left, htx, hothers]
      rfl
    | txqcon => exact not_not.mp fun hd => htxqeie.mp hd hc
    | _ => exact BitVec.and_zero

theorem setReg_noArm {r : Reg} {v : BitVec 32}
    (h : c.regs r &&& unwiredBits r = 0 → v &&& unwiredBits r = 0) : NoArm c (c.setReg r v) where
  line := id
  regs r' hc := by
    obtain rfl | hne := eq_or_ne r' r
    · rw [Chan.setReg_regs, Function.update_self]
      exact h hc
    · rw [Chan.setReg_regs, Function.update_of_ne hne]
      exact hc

theorem regSet_noArm {r : Reg} {m : BitVec 32} (hm : m &&& unwiredBits r = 0) :
    (regSet r m).Moves NoArm :=
  .modify fun _ => setReg_noArm fun hc => by
    rw [MaskedWrite.or_eq_apply]
    exact MaskedWrite.apply_and_eq_zero hm hc

theorem regClear_noArm (r : Reg) (m : BitVec 32) : (regClear r m).Moves NoArm :=
  .modify fun _ => setReg_noArm fun hc => by
    rw [MaskedWrite.and_not_eq_apply]
    exact MaskedWrite.apply_and_eq_zero BitVec.zero_and hc

theorem regWrite_noArm {r : Reg} {v : BitVec 32} (hv : v &&& unwiredBits r = 0) :
    (regWrite r v).Moves NoArm :=
  .modify fun _ => setReg_noArm fun _ => hv

theorem requestMode_noArm (reqop : BitVec 8) (p : Poll) : (requestMode reqop p).Moves NoArm :=
  .bind (.bind .get fun _ => .pure _) fun _ =>
  .bind (.modify fun _ => setReg_noArm fun _ => BitVec.and_zero) fun _ => pollUntil_reads _ _ _

theorem solved_noArm (x : Except Stop (Option BitTiming)) : (solved x).Moves NoArm := by
  cases x with
  | error e => exact .fail e
  | ok t => exact .pure t

theorem writeBitTiming_noArm (t : BitTiming) : (writeBitTiming t).Moves NoArm :=
  .bind (regWrite_noArm BitVec.and_zero) fun _ =>
  .bind (regWrite_noArm BitVec.and_zero) fun _ => regWrite_noArm BitVec.and_zero

theorem configure_noArm (cfg : Config) (t : BitTiming) : (configure cfg t).Moves NoArm := by
  refine .bind (regClear_noArm _ _) fun _ => .bind (regSet_noArm (by decide)) fun _ => ?_
  refine .bind (.ite (regClear_noArm _ _) (regSet_noArm (by decide))) fun _ => ?_
  refine .bind (regClear_noArm _ _) fun _ => .bind (regSet_noArm (by decide)) fun _ => ?_
  refine .bind (writeBitTiming_noArm t) fun _ => .bind (regWrite_noArm BitVec.and_zero) fun _ => ?_
  refine .bind (regWrite_noArm (by decide)) fun _ => ?_
  refine .bind (regWrite_noArm BitVec.and_zero) fun _ => ?_
  refine .bind (regWrite_noArm BitVec.and_zero) fun _ => ?_
  exact .bind (regWrite_noArm BitVec.and_zero) fun _ => regWrite_noArm BitVec.and_zero

theorem init_noArm (config : Option Config) (toConfig toMode : Poll) :
    (init config toConfig toMode).Moves NoArm := by
  have hup (cfg : Config) (t : BitTiming) : (bringUp cfg t toConfig toMode).Moves NoArm := by
    have hoff (st : Status) : (do regClear .con conOn; return st : M Status).Moves NoArm :=
      .bind (regClear_noArm _ _) fun _ => .pure _
    refine .bind (.modify fun _ => .of_eq rfl rfl) fun _ => ?_
    refine .bind (.modify fun _ => .of_eq rfl rfl) fun _ => ?_
    refine .bind (.modify fun _ => .of_eq rfl rfl) fun _ => ?_
    refine .bind (.modify fun _ => .of_eq rfl rfl) fun _ => ?_
    refine .bind (regSet_noArm (by decide)) fun _ => .bind (requestMode_noArm _ _) fun _ => ?_
    refine .ite (hoff _) (.bind (configure_noArm cfg t) fun _ => ?_)
    refine .bind (requestMode_noArm _ _) fun _ => ?_
    refine .ite (hoff _) (.bind (.modify fun _ => .of_eq rfl rfl) fun _ => ?_)
    exact .bind (.modify fun _ => .of_eq rfl rfl) fun _ => .pure _
  cases config with
  | none => exact .pure _
  | some cfg =>
    refine .ite (.pure _) (.ite (.pure _) (.ite (.pure _) (.ite (.pure _) ?_)))
    refine .bind getRegs_reads fun _ => .ite (.pure _) (.bind (solved_noArm _) fun t => ?_)
    cases t with
    | none => exact .pure _
    | some t => exact hup cfg t

theorem deinit_noArm (toOff : Poll) : (deinit toOff).Moves NoArm := by
  refine .bind getRegs_reads fun _ => .ite (.pure _) (.bind .get fun _ => .ite ?_ ?_)
  · exact .bind (.modify fun _ => .of_eq rfl rfl) fun _ => .pure _
  · refine .bind (requestMode_noArm _ _) fun _ => .bind (regClear_noArm _ _) fun _ => ?_
    refine .bind (.modify fun _ => .of_eq rfl rfl) fun _ => ?_
    exact .bind (.modify fun _ => .of_eq rfl rfl) fun _ => .pure _

theorem setBitrate_noArm (canClkHz nominalBps dataBps : BitVec 32) (samplePct : BitVec 8)
    (toConfig toMode : Poll) :
    (setBitrate canClkHz nominalBps dataBps samplePct toConfig toMode).Moves NoArm := by
  refine .ite (.pure _) (.bind getRegs_reads fun _ => .ite (.pure _) (.bind .get fun _ => ?_))
  refine .ite (.pure _) (.bind (solved_noArm _) fun t => ?_)
  cases t with
  | none => exact .pure _
  | some t =>
    refine .bind .get fun _ => .bind (requestMode_noArm _ _) fun _ => .ite (.pure _) ?_
    exact .bind (writeBitTiming_noArm t) fun _ => requestMode_noArm _ _

theorem onRx_noArm (f : Line → Line) : (onRx f).Moves NoArm := .modify fun _ => .of_eq rfl rfl

theorem onGen_noArm (f : Line → Line) : (onGen f).Moves NoArm := .modify fun _ => .of_eq rfl rfl

theorem txOff_noArm : (onTx (setLineEnable · false)).Moves NoArm :=
  .modify fun _ => ⟨fun _ => rfl, fun _ => id⟩

theorem txFlag_noArm : (onTx clearLineFlag).Moves NoArm := .modify fun _ => ⟨id, fun _ => id⟩

theorem irqLineEnable_noArm (priority : BitVec 8) : (irqLineEnable priority).Moves NoArm :=
  .bind (.modify fun _ => .of_eq rfl rfl) fun _ =>
  .bind (onRx_noArm _) fun _ => .bind (onRx_noArm _) fun _ => .bind (onRx_noArm _) fun _ =>
  .bind (onGen_noArm _) fun _ => .bind (onGen_noArm _) fun _ => onGen_noArm _

theorem irqLineDisable_noArm : irqLineDisable.Moves NoArm :=
  .bind (onRx_noArm _) fun _ => .bind (onRx_noArm _) fun _ => .bind txOff_noArm fun _ =>
  .bind txFlag_noArm fun _ => .bind (onGen_noArm _) fun _ => onGen_noArm _

theorem isrEnable_noArm (priority : BitVec 8) : (isrEnable priority).Moves NoArm := by
  refine .ite (.pure _) (.bind getRegs_reads fun _ => .ite (.pure _) (.bind .get fun _ => ?_))
  refine .ite (.pure _) (.bind (regSet_noArm (by decide)) fun _ => ?_)
  refine .bind (regSet_noArm (by decide)) fun _ => .bind (.modify fun _ => .of_eq rfl rfl) fun _ => ?_
  exact .bind (irqLineEnable_noArm _) fun _ =>
    .bind (.modify fun _ => .of_eq rfl rfl) fun _ => .pure _

theorem isrDisable_noArm : isrDisable.Moves NoArm := by
  refine .bind getRegs_reads fun _ => .ite (.pure _) ?_
  refine .bind (.modify fun _ => .of_eq rfl rfl) fun _ => .bind irqLineDisable_noArm fun _ => ?_
  refine .bind (regClear_noArm _ _) fun _ => ?_
  refine .bind (regClear_noArm _ _) fun _ => .bind (regClear_noArm _ _) fun _ => ?_
  exact .bind (.modify fun _ => .of_eq rfl rfl) fun _ => .pure _

theorem txAbort_noArm : txAbort.Moves NoArm := by
  refine .bind getRegs_reads fun _ => .ite (.pure _) (.bind ?_ fun _ => .pure _)
  refine .bind (regClear_noArm _ _) fun _ => .bind (regClear_noArm _ _) fun _ => ?_
  exact .bind (.bind txOff_noArm fun _ => txFlag_noArm) fun _ => .modify fun _ => .of_eq rfl rfl

end NoraCanfd

end CanfdDriver
