import CanfdDriver.Cmsis.Run

namespace CanfdDriver

open Lib NoraCanfd Cmsis

/-- The driver state and the registers, without the bits that the hardware owns. -/
structure ColdView : Type where
  powered : Bool
  ctxMode : Mode
  head : Fin 8
  tail : Fin 8
  node : NodeState
  mode : Mode
  isr : IsrState
  irq : CpuIrq
  regs : Reg → BitVec 32

def Chan.coldView (c : Chan) : ColdView where
  powered := c.ctx.powered
  ctxMode := c.ctx.mode
  head := c.ctx.rx.head
  tail := c.ctx.rx.tail
  node := c.node
  mode := c.mode
  isr := c.isr
  irq := c.irq
  regs := fun r => c.regs r &&& ~~~hwBits r

def startCtx (dev : Device) (nominalBps dataBps : BitVec 32) (samplePct fdMode : BitVec 8) :
    Context :=
  { dev.boot.ctx with
    nominalBps := nominalBps, dataBps := dataBps, samplePct := samplePct, fdMode := fdMode,
    powered := true }

/-- Power-up of the reset state with the given settings. -/
def coldStart (dev : Device) (nominalBps dataBps : BitVec 32) (samplePct fdMode : BitVec 8) :
    ColdView :=
  let x := startCtx dev nominalBps dataBps samplePct fdMode
  let t := match ctxTiming x with
    | .ok (some t) => t
    | _ => ⟨0, 0, 0⟩
  ((dev.boot.setCtx x).applied (canNormalModeForCtx x) t).coldView

theorem coldStart_eq {dev : Device} {nominalBps dataBps : BitVec 32} {samplePct fdMode : BitVec 8}
    {t : BitTiming}
    (ht : ctxTiming (startCtx dev nominalBps dataBps samplePct fdMode) = .ok (some t)) :
    coldStart dev nominalBps dataBps samplePct fdMode =
      ((dev.boot.setCtx (startCtx dev nominalBps dataBps samplePct fdMode)).applied
        (canNormalModeForCtx (startCtx dev nominalBps dataBps samplePct fdMode)) t).coldView := by
  simp only [coldStart, ht]

namespace Chan

variable {c d : Chan}

def writtenCon (brs : Bool) (mode : Mode) : MaskedWrite 32 :=
  ((MaskedWrite.set conOn).andThen (reqopWrite opmodeConfig)).andThen
    ((configureCon brs).andThen (reqopWrite (modeToReqop mode)))

def writtenInt : MaskedWrite 32 :=
  (MaskedWrite.clear intEnables).andThen (.set (intRxie ||| intRxovie))

theorem applied_con_view (mode : Mode) (t : BitTiming) :
    (c.applied mode t).regs .con &&& ~~~hwBits .con =
      c.fixed.con ||| ((writtenCon (c.ctx.fdMode ≠ 0) mode).value &&& ~~~hwBits .con) := by
  have hmask : ∀ brs, ~~~(hwBits .con ||| (writtenCon brs mode).mask) = conReserved := by
    intro brs
    change ~~~(hwBits .con ||| ((conOn ||| conReqopMask) ||| ((configureCon brs).mask
      ||| conReqopMask))) = conReserved
    cases brs <;> decide
  rw [applied_con, MaskedWrite.apply_apply]
  change (writtenCon (c.ctx.fdMode ≠ 0) mode).apply (c.regs .con) &&& ~~~hwBits .con = _
  rw [MaskedWrite.apply_and_not, hmask]
  rfl

theorem applied_int_view (mode : Mode) (t : BitTiming) :
    (c.applied mode t).regs .int &&& ~~~hwBits .int =
      c.fixed.int ||| (writtenInt.value &&& ~~~hwBits .int) := by
  have hmask : ~~~(hwBits .int ||| writtenInt.mask) = intReserved := by decide
  have hint : (c.applied mode t).regs .int =
    (c.regs .int &&& ~~~intEnables) ||| (intRxie ||| intRxovie) := rfl
  rw [hint, MaskedWrite.and_not_eq_apply (c.regs .int), MaskedWrite.or_eq_apply,
    MaskedWrite.apply_apply]
  change writtenInt.apply (c.regs .int) &&& ~~~hwBits .int = _
  rw [MaskedWrite.apply_and_not, hmask]
  rfl

theorem applied_regs_view {mode : Mode} {t : BitTiming} (hfix : c.fixed = d.fixed)
    (hfd : c.ctx.fdMode = d.ctx.fdMode) (r : Reg) :
    (c.applied mode t).regs r &&& ~~~hwBits r = (d.applied mode t).regs r &&& ~~~hwBits r := by
  have hmsg := congrArg Fixed.msgRam hfix
  cases r with
  | con => rw [applied_con_view, applied_con_view, hfix, hfd]
  | int => rw [applied_int_view, applied_int_view, hfix]
  | fifoba =>
    change c.fixed.msgRam.addr &&& ~~~hwBits .fifoba = d.fixed.msgRam.addr &&& ~~~hwBits .fifoba
    rw [hmsg]
  | txqsta | txqua | fifosta1 | fifoua1 | trec => simp [hwBits]
  | _ => rfl

theorem applied_coldView {mode : Mode} {t : BitTiming} (hfix : c.fixed = d.fixed)
    (hfd : c.ctx.fdMode = d.ctx.fdMode) (hpow : c.ctx.powered = d.ctx.powered)
    (hhead : c.ctx.rx.head = d.ctx.rx.head) (htail : c.ctx.rx.tail = d.ctx.rx.tail) :
    (c.applied mode t).coldView = (d.applied mode t).coldView := by
  have hregs : (c.applied mode t).coldView.regs = (d.applied mode t).coldView.regs :=
    funext (applied_regs_view hfix hfd)
  have hnode : ∀ e : Chan, (e.applied mode t).node = ⟨true, true, e.fixed.timeoutMs⟩ :=
    fun _ => rfl
  have hisr : ∀ e : Chan, (e.applied mode t).isr =
      ⟨some .canHalEvent, some .ctx, false, effectivePriority e.fixed.irqPriority, true⟩ :=
    fun _ => rfl
  have hirq : ∀ e : Chan, (e.applied mode t).irq =
      ⟨⟨false, true, (effectivePriority e.fixed.irqPriority).setWidth 3⟩,
        ⟨false, false, e.fixed.txPriority⟩,
        ⟨false, true, (effectivePriority e.fixed.irqPriority).setWidth 3⟩⟩ := fun _ => rfl
  simp only [coldView] at hregs
  simp only [coldView, hregs, hnode, hisr, hirq, hfix, applied_ctx, hpow, hhead, htail]
  rfl

theorem applied_setPowered (mode : Mode) (t : BitTiming) (powered : Bool) :
    (c.applied mode t).setCtx { c.ctx with mode := mode, powered := powered } =
      (c.setCtx { c.ctx with powered := powered }).applied mode t := rfl

end Chan

namespace Cmsis

variable {c : Chan} {env : Env}

theorem exec_powerOff_ok (hp : c.present = true) (hg : Granted c.node opmodeConfig env.toOff) :
    ∃ d, (powerOff env).exec c = .ok (armDriverOk, d) := by
  cases hpow : c.ctx.powered with
  | false =>
    have hn : ¬c.ctx.powered = true := by simp [hpow]
    simp only [powerOff, Prog.exec_bind, Prog.exec_get, if_neg hn, Prog.exec_pure, exec_onCtx]
    exact ⟨_, rfl⟩
  | true =>
    have hde : (deinit env.toOff).exec (c.isrOff.setCallback none none) = _ := exec_deinit _ hp
    by_cases hm : (c.isrOff.setCallback none none).mode = .none
    · rw [if_pos hm] at hde
      simp only [powerOff, Prog.exec_bind, Prog.exec_get, if_pos hpow, exec_isrDisable hp,
        exec_isrSetCallback, hde, Prog.exec_pure, exec_onCtx]
      exact ⟨_, rfl⟩
    · have hg' : requestOutcome (c.isrOff.setCallback none none).node opmodeConfig env.toOff =
        .ok .ok := hg
      rw [if_neg hm, hg'] at hde
      simp only [powerOff, Prog.exec_bind, Prog.exec_get, if_pos hpow, exec_isrDisable hp,
        exec_isrSetCallback, hde, Prog.exec_pure, exec_onCtx]
      exact ⟨_, rfl⟩

theorem exec_powerFull_ok {t : BitTiming} (hpow : c.ctx.powered = false) (hp : c.present = true)
    (ht : ctxTiming c.ctx = .ok (some t)) (hprio : ¬effectivePriority c.ctx.irqPriority > 7)
    (hconfig : Granted (ctxNode c.ctx) opmodeConfig env.toConfig)
    (hmode : Granted (ctxNode c.ctx) (modeToReqop (canNormalModeForCtx c.ctx)) env.toMode) :
    (powerFull env).exec c = .ok (armDriverOk,
      ((emptied c).applied (canNormalModeForCtx c.ctx) t).setCtx { (emptied c).ctx with
        mode := canNormalModeForCtx c.ctx, powered := true }) := by
  have happ : (canApplyInit (canNormalModeForCtx c.ctx) env).exec (emptied c) = _ :=
    exec_canApplyInit_applied (c := emptied c) (t := t) hp ht hprio
      (canNormalModeForCtx_ne_none c.ctx) hconfig hmode
  rw [exec_powerFull hpow, happ]
  rfl

end Cmsis

theorem effectivePriority_le {priority : BitVec 8} (h : priority ≤ 7) :
    ¬effectivePriority priority > 7 := by
  rw [effectivePriority]
  split
  next => decide
  next => exact BitVec.not_lt.mpr h

theorem powerFull_coldStart {dev : Device} {c : Chan} {env : Env}
    (hfix : c.fixed = dev.boot.fixed) (hpow : c.ctx.powered = false) (hp : dev.present = true)
    (hprio : dev.irqPriority ≤ 7) (htime : ∃ t, ctxTiming c.ctx = .ok (some t))
    (hconfig : Granted (ctxNode c.ctx) opmodeConfig env.toConfig)
    (hmode : Granted (ctxNode c.ctx) (modeToReqop (canNormalModeForCtx c.ctx)) env.toMode) :
    ∃ d, (powerFull env).exec c = .ok (armDriverOk, d) ∧
      d.coldView = coldStart dev c.ctx.nominalBps c.ctx.dataBps c.ctx.samplePct c.ctx.fdMode := by
  obtain ⟨t, ht⟩ := htime
  have hpres : c.present = true := (congrArg Fixed.present hfix).trans hp
  have hlow : ¬effectivePriority c.ctx.irqPriority > 7 := by
    have hdev : c.ctx.irqPriority = dev.irqPriority := congrArg Fixed.irqPriority hfix
    rw [hdev]
    exact effectivePriority_le hprio
  have hstart : ctxTiming (startCtx dev c.ctx.nominalBps c.ctx.dataBps c.ctx.samplePct
      c.ctx.fdMode) = .ok (some t) := by
    have hclk : dev.canClkHz = c.ctx.canClkHz := congrArg Fixed.canClkHz hfix.symm
    rw [← ht]
    exact ctxTiming_congr hclk rfl rfl rfl
  refine ⟨_, exec_powerFull_ok hpow hpres ht hlow hconfig hmode, ?_⟩
  rw [Chan.applied_setPowered, coldStart_eq hstart]
  refine Chan.applied_coldView ?_ rfl rfl rfl rfl
  calc
    ((emptied c).setCtx { (emptied c).ctx with powered := true }).fixed
    _ = (emptied c).fixed := Chan.fixed_setCtx rfl rfl rfl rfl rfl
    _ = c.fixed := Chan.fixed_setCtx rfl rfl rfl rfl rfl
    _ = dev.boot.fixed := hfix
    _ = _ := (Chan.fixed_setCtx rfl rfl rfl rfl rfl).symm

theorem exec_powerControl {c : Chan} {env : Env} (hi : c.ctx.initialized = true) :
    (Call.run env (.canPowerControl .off)).exec c = (powerOff env).exec c ∧
      (Call.run env (.canPowerControl .full)).exec c = (powerFull env).exec c := by
  have hn : ¬(!c.ctx.initialized) = true := by simp [hi]
  constructor <;> simp only [Call.run, canPowerControl, Prog.exec_bind, Prog.exec_get, if_neg hn]

/-- `PowerControl(OFF)` and `PowerControl(FULL)` recover from every reachable state, and
what they leave is the cold start of the cached settings. -/
theorem power_cycle_recovers (dev : Device) (c : Chan)
    (hc : Reach Step (fun _ _ => True) dev.boot c) (hi : c.ctx.initialized = true)
    (hp : dev.present = true) (hprio : dev.irqPriority ≤ 7)
    (htime : ∃ t, ctxTiming c.ctx = .ok (some t)) (envOff envFull : Env)
    (hoff : Granted c.node opmodeConfig envOff.toOff)
    (hconfig : Granted (ctxNode c.ctx) opmodeConfig envFull.toConfig)
    (hmode : Granted (ctxNode c.ctx) (modeToReqop (canNormalModeForCtx c.ctx)) envFull.toMode) :
    ∃ d e, (Call.run envOff (.canPowerControl .off)).exec c = .ok (armDriverOk, d) ∧
      (Call.run envFull (.canPowerControl .full)).exec d = .ok (armDriverOk, e) ∧
      e.coldView = coldStart dev c.ctx.nominalBps c.ctx.dataBps c.ctx.samplePct c.ctx.fdMode := by
  have hfix := run_fixed hc
  obtain ⟨d, hd⟩ := exec_powerOff_ok ((congrArg Fixed.present hfix).trans hp) hoff
  obtain ⟨e, he, -, hde⟩ := powerOff_outcome hd
  have hctx : d.ctx = { c.ctx with powered := false } := by
    rw [hde]
    rfl
  have hdfix : d.fixed = dev.boot.fixed := by
    rw [hde, ← hfix, ← he.fixed, Chan.fixed_setCtx] <;> rw [he.ctx]
  have hdi : d.ctx.initialized = true := by
    rw [hctx]
    exact hi
  have htimed : ctxTiming d.ctx = ctxTiming c.ctx := by
    rw [hctx]
    exact ctxTiming_congr rfl rfl rfl rfl
  have hnode : ctxNode d.ctx = ctxNode c.ctx := by
    rw [hctx]
    rfl
  have hnormal : canNormalModeForCtx d.ctx = canNormalModeForCtx c.ctx := by
    rw [hctx]
    rfl
  obtain ⟨f, hf, hview⟩ := powerFull_coldStart hdfix (by rw [hctx]) hp hprio (htimed ▸ htime)
    (hnode ▸ hconfig) (hnode ▸ hnormal ▸ hmode)
  refine ⟨d, f, (exec_powerControl hi).1.trans hd, (exec_powerControl hdi).2.trans hf, ?_⟩
  rw [hview, hctx]

theorem power_cycle_recovers_example :
    ∃ c d e, c.ctx.powered = true ∧ c.isr.isrEnabled = false ∧
      (Call.run (granting .normalFd) (.canPowerControl .off)).exec c = .ok (armDriverOk, d) ∧
      (Call.run (granting .normalFd) (.canPowerControl .full)).exec d = .ok (armDriverOk, e) ∧
      e.coldView = coldStart exampleDevice c.ctx.nominalBps c.ctx.dataBps c.ctx.samplePct
        c.ctx.fdMode := by
  have hrun : ∃ c, Reach Step (fun _ _ => True) exampleDevice.boot c ∧
      (c.ctx.powered && !c.isr.isrEnabled && decide (c.ctx.initialized = true ∧
        (∃ t, ctxTiming c.ctx = .ok (some t)) ∧
        Granted c.node opmodeConfig (granting .normalFd).toOff ∧
        Granted (ctxNode c.ctx) opmodeConfig (granting .normalFd).toConfig ∧
        Granted (ctxNode c.ctx) (modeToReqop (canNormalModeForCtx c.ctx))
          (granting .normalFd).toMode)) = true :=
    reach_of_replay (fun _ _ _ _ => true)
      (powerUp ++ [(granting .normalFd, .canSetBitrate .nominal 7 0),
        (granting .listenOnly, .canSetMode .monitor),
        (granting .normalFd, .canSetBitrate .nominal 250000 0)]) _
      (fun _ _ _ _ _ => trivial) (by decide +kernel)
  obtain ⟨c, hc, hp⟩ := hrun
  simp only [Bool.and_eq_true, Bool.not_eq_true', decide_eq_true_eq] at hp
  obtain ⟨⟨hpow, hoff⟩, hi, htime, hto, hconfig, hmode⟩ := hp
  obtain ⟨d, e, h⟩ := power_cycle_recovers exampleDevice c hc hi rfl (by decide) htime
    (granting .normalFd) (granting .normalFd) hto hconfig hmode
  exact ⟨c, d, e, hpow, hoff, h⟩

end CanfdDriver
