import CanfdDriver.Hal.Isr

namespace CanfdDriver

namespace NoraCanfd

open Lib

variable {c : Chan}

@[simp] theorem exec_regSet (r : Reg) (m : BitVec 32) :
    (regSet r m).exec c = .ok ((), c.setReg r (c.regs r ||| m)) := rfl

@[simp] theorem exec_regClear (r : Reg) (m : BitVec 32) :
    (regClear r m).exec c = .ok ((), c.setReg r (c.regs r &&& ~~~m)) := rfl

@[simp] theorem exec_regWrite (r : Reg) (v : BitVec 32) :
    (regWrite r v).exec c = .ok ((), c.setReg r v) := rfl

@[simp] theorem exec_getRegs :
    getRegs.exec c = .ok (if c.present then .ok else .notPresent, c) := rfl

@[simp] theorem exec_setMode (m : Mode) : (setMode m).exec c = .ok ((), c.setMode m) := rfl

/-! ### Polling -/

def pollResult (n : NodeState) (done : BitVec 32 → Bool) (start : BitVec 32) :
    List Sample → Except Stop Status
  | [] => .error .polling
  | x :: xs =>
    if done x.value then .ok .ok
    else if n.expired start x.tick then .ok .timeout
    else pollResult n done start xs

theorem exec_pollUntil (done : BitVec 32 → Bool) (start : BitVec 32) (xs : List Sample) :
    (pollUntil done start xs).exec c = (pollResult c.node done start xs).map (·, c) := by
  induction xs with
  | nil => rfl
  | cons x xs ih =>
    simp only [pollUntil, pollResult]
    split
    next => rfl
    next =>
      simp only [Prog.exec_bind, Prog.exec_get, Prog.exec_ite, ih]
      split <;> rfl

theorem pollResult_eq_ok {n : NodeState} {done : BitVec 32 → Bool} {start : BitVec 32}
    {xs : List Sample} {st : Status} (h : pollResult n done start xs = .ok st) :
    st = .ok ∨ st = .timeout := by
  induction xs with
  | nil => cases h
  | cons x xs ih =>
    simp only [pollResult] at h
    split at h
    next => exact .inl (Except.ok.inj h).symm
    next =>
      split at h
      next => exact .inr (Except.ok.inj h).symm
      next => exact ih h

theorem pollResult_eq_error {n : NodeState} {done : BitVec 32 → Bool} {start : BitVec 32}
    {xs : List Sample} {e : Stop} (h : pollResult n done start xs = .error e) :
    e = .polling := by
  induction xs with
  | nil => exact (Except.error.inj h).symm
  | cons x xs ih =>
    simp only [pollResult] at h
    split at h
    next => cases h
    next =>
      split at h
      next => cases h
      next => exact ih h

def requestOutcome (n : NodeState) (reqop : BitVec 8) (p : Poll) : Except Stop Status :=
  pollResult n (fun con => opmodGet con = reqop) (if n.getMs then p.start else 0) p.samples

/-- The controller shows the requested mode before the deadline. -/
def Granted (n : NodeState) (reqop : BitVec 8) (p : Poll) : Prop :=
  requestOutcome n reqop p = .ok .ok

instance (n : NodeState) (reqop : BitVec 8) (p : Poll) : Decidable (Granted n reqop p) :=
  inferInstanceAs (Decidable (_ = _))

def reqopWrite (reqop : BitVec 8) : MaskedWrite 32 :=
  .field conReqopMask (reqop.setWidth 32 <<< conReqopPos)

theorem reqopWrite_and (reqop : BitVec 8) (v : BitVec 32) :
    (reqopWrite reqop).apply v &&& conReqopMask =
      (reqop.setWidth 32 <<< conReqopPos) &&& conReqopMask := by
  have hsub : conReqopMask &&& (reqopWrite reqop).mask = conReqopMask := by
    change conReqopMask &&& conReqopMask = conReqopMask
    exact BitVec.and_self
  rw [MaskedWrite.apply_and_of_sub hsub]
  exact (reqopWrite reqop).value_and_mask

theorem modeToReqop_field (mode : Mode) :
    ((modeToReqop mode).setWidth 32 <<< conReqopPos) &&& conReqopMask =
      (modeToReqop mode).setWidth 32 <<< conReqopPos := by
  cases mode <;> decide

theorem reqopWrite_and_of_disjoint {b : BitVec 32} (h : b &&& conReqopMask = 0) (reqop : BitVec 8)
    (v : BitVec 32) : (reqopWrite reqop).apply v &&& b = v &&& b :=
  MaskedWrite.apply_and_of_disjoint h v

def configureCon (brs : Bool) : MaskedWrite 32 :=
  ((((MaskedWrite.clear conClksel).andThen (.set conIsocrcen)).andThen
    (if brs then .clear conBrsdis else .set conBrsdis)).andThen (.clear conStef)).andThen
    (.set conTxqen)

end NoraCanfd

namespace Chan

open Lib NoraCanfd

@[simps! present ctx node mode isr irq ram rxFifo trace]
def writeCon (c : Chan) (m : MaskedWrite 32) : Chan := c.setReg .con (m.apply (c.regs .con))

theorem writeCon_writeCon (c : Chan) (m n : MaskedWrite 32) :
    (c.writeCon m).writeCon n = c.writeCon (m.andThen n) := by
  simp only [writeCon, setReg, Function.update_self, Function.update_idem,
    MaskedWrite.apply_apply]

theorem setNode_setNode (c : Chan) (a b : NodeState) :
    (c.setNode a).setNode b = c.setNode b := rfl

@[simps present ctx node mode isr irq ram rxFifo trace]
def programmed (c : Chan) (cfg : Config) (t : BitTiming) : Chan :=
  { c with regs := fun
      | .nbtcfg => t.nbtcfg
      | .dbtcfg => t.dbtcfg
      | .tdc => t.tdc
      | .fifoba => cfg.msgRam
      | .txqcon => txqconWord
      | .fifocon1 => fifocon1Word
      | .fltobj0 => 0
      | .mask0 => 0
      | .fltcon0 => fltcon0Word
      | r => c.regs r }

@[simps present ctx node mode irq regs ram rxFifo trace]
def setCallback (c : Chan) (cb : Option EventCallback) (ud : Option UserData) : Chan :=
  { c with isr := { c.isr with cb := cb, ud := ud } }

@[simps present ctx node mode ram rxFifo trace]
def isrOff (c : Chan) : Chan :=
  { c with
    isr := { c.isr with isrEnabled := false, txBusy := false }
    irq :=
      { rx := { c.irq.rx with enable := false, flag := false }
        tx := { c.irq.tx with enable := false, flag := false }
        gen := { c.irq.gen with enable := false, flag := false } }
    regs := fun
      | .int => c.regs .int &&& ~~~intEnables
      | .fifocon1 => c.regs .fifocon1 &&& ~~~(fifoconTfnrfnie ||| fifoconRxovie)
      | .txqcon => c.regs .txqcon &&& ~~~txqconTxqeie
      | r => c.regs r }

@[simps present ctx node mode ram rxFifo trace]
def isrOn (c : Chan) (priority : BitVec 8) : Chan :=
  { c with
    isr := { c.isr with isrEnabled := true, txBusy := false, irqPriority := priority }
    irq :=
      { rx := ⟨false, true, priority.setWidth 3⟩
        tx := c.irq.tx
        gen := ⟨false, true, priority.setWidth 3⟩ }
    regs := fun
      | .fifocon1 => c.regs .fifocon1 ||| (fifoconTfnrfnie ||| fifoconRxovie)
      | .int => c.regs .int ||| (intRxie ||| intRxovie)
      | r => c.regs r }

end Chan

namespace NoraCanfd

open Lib

variable {c : Chan}

theorem exec_requestMode (reqop : BitVec 8) (p : Poll) :
    (requestMode reqop p).exec c =
      (requestOutcome c.node reqop p).map (·, c.writeCon (reqopWrite reqop)) := by
  simp only [requestMode, startTick, regWriteField, Prog.exec_bind, Prog.exec_get,
    Prog.exec_pure, Prog.exec_modify, exec_pollUntil, Chan.setReg_node]
  rfl

theorem exec_configure (cfg : Config) (t : BitTiming) :
    (configure cfg t).exec c =
      .ok ((), (c.programmed cfg t).writeCon (configureCon cfg.brs)) := by
  have hexec : (configure cfg t).exec c = .ok ((),
      ((((((((((c.writeCon (configureCon cfg.brs)).setReg .nbtcfg t.nbtcfg).setReg .dbtcfg
        t.dbtcfg).setReg .tdc t.tdc).setReg .fifoba cfg.msgRam).setReg .txqcon txqconWord).setReg
        .fifocon1 fifocon1Word).setReg .fltobj0 0).setReg .mask0 0).setReg .fltcon0
        fltcon0Word)) := by
    simp only [configureCon, ← Chan.writeCon_writeCon]
    cases hb : cfg.brs <;>
      simp [configure, writeBitTiming, Prog.exec_bind, hb, Chan.writeCon,
        MaskedWrite.or_eq_apply, MaskedWrite.and_not_eq_apply]
  rw [hexec]
  refine congrArg (fun d => Except.ok ((), d)) ?_
  apply Chan.ext
  case regs =>
    funext r
    cases r <;> simp [Chan.programmed, Chan.writeCon]
  all_goals simp only [Chan.setReg, Chan.writeCon, Chan.programmed]

@[simp] theorem exec_onRx (f : Line → Line) :
    (onRx f).exec c = .ok ((), c.setIrq { c.irq with rx := f c.irq.rx }) := rfl

@[simp] theorem exec_onTx (f : Line → Line) :
    (onTx f).exec c = .ok ((), c.setIrq { c.irq with tx := f c.irq.tx }) := rfl

@[simp] theorem exec_onGen (f : Line → Line) :
    (onGen f).exec c = .ok ((), c.setIrq { c.irq with gen := f c.irq.gen }) := rfl

@[simp] theorem exec_setTxBusy (b : Bool) :
    (setTxBusy b).exec c = .ok ((), c.setIsr { c.isr with txBusy := b }) := rfl

@[simp] theorem exec_setIsrEnabled (b : Bool) :
    (setIsrEnabled b).exec c = .ok ((), c.setIsr { c.isr with isrEnabled := b }) := rfl

@[simp] theorem exec_isrSetCallback (cb : Option EventCallback) (ud : Option UserData) :
    (isrSetCallback cb ud).exec c = .ok (.ok, c.setCallback cb ud) := rfl

theorem exec_isrDisable (hp : c.present = true) : isrDisable.exec c = .ok (.ok, c.isrOff) := by
  simp only [isrDisable, irqLineDisable, Prog.exec_bind, exec_getRegs, hp, exec_regClear,
    exec_onRx, exec_onTx, exec_onGen, exec_setTxBusy, exec_setIsrEnabled, Prog.exec_pure,
    if_true, ne_eq, not_true_eq_false, if_false]
  refine congrArg (fun d => Except.ok (Status.ok, d)) ?_
  apply Chan.ext
  case regs =>
    funext r
    cases r <;> simp [Chan.isrOff]
  all_goals simp only [Chan.isrOff, Chan.setReg, Chan.setIsr, Chan.setIrq, clearLineFlag,
    setLineEnable]

theorem exec_isrEnable (priority : BitVec 8) (hp : c.present = true) :
    (isrEnable priority).exec c =
      if effectivePriority priority > 7 then .ok (.invalidArg, c)
      else if c.mode = .none then .ok (.notInitialized, c)
      else .ok (.ok, c.isrOn (effectivePriority priority)) := by
  simp only [isrEnable]
  split
  next => rfl
  next =>
    simp only [Prog.exec_bind, exec_getRegs, hp, if_true, ne_eq, not_true_eq_false, if_false,
      Prog.exec_get, Prog.exec_ite, isInitialized, decide_not, Bool.not_not, decide_eq_true_eq]
    split
    next => rfl
    next =>
      simp only [irqLineEnable, Prog.exec_bind, exec_regSet, exec_onRx, exec_onGen,
        exec_setTxBusy, exec_setIsrEnabled, Prog.exec_modify, Prog.exec_pure]
      refine congrArg (fun d => Except.ok (Status.ok, d)) ?_
      apply Chan.ext
      case regs =>
        funext r
        cases r <;> simp [Chan.isrOn]
      all_goals simp only [Chan.isrOn, Chan.setReg, Chan.setIsr, Chan.setIrq, clearLineFlag,
        setLineEnable, setLinePriority]

end NoraCanfd

/-! ### Bring-up -/

namespace NoraCanfd

def Config.node (cfg : Config) : NodeState := ⟨false, cfg.getMs, cfg.timeoutMs⟩

end NoraCanfd

namespace Chan

open Lib NoraCanfd

def entered (c : Chan) (cfg : Config) : Chan :=
  ((c.setNode cfg.node).setMode .none).writeCon
    ((MaskedWrite.set conOn).andThen (reqopWrite opmodeConfig))

def configured (c : Chan) (cfg : Config) (t : BitTiming) : Chan :=
  ((c.entered cfg).programmed cfg t).writeCon
    ((configureCon cfg.brs).andThen (reqopWrite (modeToReqop cfg.mode)))

def live (c : Chan) (cfg : Config) (t : BitTiming) : Chan :=
  ((c.configured cfg t).setMode cfg.mode).setNode { cfg.node with initialized := true }

theorem live_present (c : Chan) (cfg : Config) (t : BitTiming) :
    (c.live cfg t).present = c.present := by
  simp only [live, configured, entered, setNode_present, setMode_present, writeCon_present,
    programmed_present]

def powerDown (c : Chan) : Chan := c.writeCon (.clear conOn)

end Chan

namespace NoraCanfd

open Lib

variable {c d : Chan} {st : Status}

/-- How a bring-up can end. -/
inductive BringUp (c : Chan) (cfg : Config) (t : BitTiming) (toConfig toMode : Poll) :
    Status → Chan → Prop
  | configTimeout : requestOutcome cfg.node opmodeConfig toConfig = .ok .timeout →
      BringUp c cfg t toConfig toMode .timeout (c.entered cfg).powerDown
  | modeTimeout : Granted cfg.node opmodeConfig toConfig →
      requestOutcome cfg.node (modeToReqop cfg.mode) toMode = .ok .timeout →
      BringUp c cfg t toConfig toMode .timeout (c.configured cfg t).powerDown
  | live : Granted cfg.node opmodeConfig toConfig →
      Granted cfg.node (modeToReqop cfg.mode) toMode →
      BringUp c cfg t toConfig toMode .ok (c.live cfg t)

theorem requestOutcome_cases (n : NodeState) (reqop : BitVec 8) (p : Poll) :
    Granted n reqop p ∨ requestOutcome n reqop p = .ok .timeout ∨
      requestOutcome n reqop p = .error .polling := by
  rw [Granted]
  cases h : requestOutcome n reqop p with
  | ok st =>
    obtain rfl | rfl := pollResult_eq_ok h
    · exact .inl rfl
    · exact .inr (.inl rfl)
  | error e =>
    obtain rfl := pollResult_eq_error h
    exact .inr (.inr rfl)

theorem exec_bringUp (cfg : Config) (t : BitTiming) (toConfig toMode : Poll) :
    (bringUp cfg t toConfig toMode).exec c =
      match requestOutcome cfg.node opmodeConfig toConfig with
      | .error e => .error e
      | .ok st =>
        if st ≠ .ok then .ok (st, (c.entered cfg).powerDown)
        else match requestOutcome cfg.node (modeToReqop cfg.mode) toMode with
          | .error e => .error e
          | .ok st =>
            if st ≠ .ok then .ok (st, (c.configured cfg t).powerDown)
            else .ok (.ok, c.live cfg t) := by
  have henter : (((c.setNode cfg.node).setMode .none).writeCon (.set conOn)).writeCon
      (reqopWrite opmodeConfig) = c.entered cfg := Chan.writeCon_writeCon ..
  have hconf : (((c.entered cfg).programmed cfg t).writeCon (configureCon cfg.brs)).writeCon
      (reqopWrite (modeToReqop cfg.mode)) = c.configured cfg t := Chan.writeCon_writeCon ..
  have hnode : (c.entered cfg).node = cfg.node := rfl
  have hnode' : (((c.entered cfg).programmed cfg t).writeCon (configureCon cfg.brs)).node =
    cfg.node := rfl
  have hon : ∀ e : Chan, e.setReg .con (e.regs .con ||| conOn) = e.writeCon (.set conOn) :=
    fun e => by rw [Chan.writeCon, MaskedWrite.or_eq_apply]
  have hoff : ∀ e : Chan, e.setReg .con (e.regs .con &&& ~~~conOn) = e.powerDown :=
    fun e => by rw [Chan.powerDown, Chan.writeCon, MaskedWrite.and_not_eq_apply]
  simp only [bringUp, Prog.exec_bind, Prog.exec_modify, Chan.setNode_node, exec_setMode,
    exec_regSet, exec_requestMode, hon, Chan.setNode_setNode, Chan.writeCon_node,
    Chan.setMode_node, ← Config.node.eq_1, henter]
  cases requestOutcome cfg.node opmodeConfig toConfig with
  | error e => rfl
  | ok st =>
    simp only [Except.map]
    split
    next => simp only [Prog.exec_bind, exec_regClear, Prog.exec_pure, hoff]
    next =>
      simp only [Prog.exec_bind, exec_configure, exec_requestMode, hconf, hnode']
      cases requestOutcome cfg.node (modeToReqop cfg.mode) toMode with
      | error e => rfl
      | ok st =>
        simp only [Except.map]
        split
        next => simp only [Prog.exec_bind, exec_regClear, Prog.exec_pure, hoff]
        next =>
          simp only [Prog.exec_bind, exec_setMode, Prog.exec_modify, Prog.exec_pure]
          rfl

theorem bringUp_iff {cfg : Config} {t : BitTiming} {toConfig toMode : Poll} :
    (bringUp cfg t toConfig toMode).exec c = .ok (st, d) ↔
      BringUp c cfg t toConfig toMode st d := by
  rw [exec_bringUp]
  constructor
  · intro h
    rcases requestOutcome_cases cfg.node opmodeConfig toConfig with
      h1 | h1 | h1
    · rcases requestOutcome_cases cfg.node (modeToReqop cfg.mode) toMode with h2 | h2 | h2
      · simp only [show requestOutcome _ _ _ = _ from h1, show requestOutcome _ _ _ = _ from h2,
          ne_eq, not_true_eq_false, if_false, Except.ok.injEq, Prod.mk.injEq] at h
        obtain ⟨rfl, rfl⟩ := h
        exact .live h1 h2
      · simp [show requestOutcome _ _ _ = _ from h1, h2] at h
        obtain ⟨rfl, rfl⟩ := h
        exact .modeTimeout h1 h2
      · simp [show requestOutcome _ _ _ = _ from h1, h2] at h
    · simp [h1] at h
      obtain ⟨rfl, rfl⟩ := h
      exact .configTimeout h1
    · simp [h1] at h
  · rintro (h1 | ⟨h1, h2⟩ | ⟨h1, h2⟩)
    · simp [h1]
    · simp [show requestOutcome _ _ _ = _ from h1, h2]
    · simp [show requestOutcome _ _ _ = _ from h1, show requestOutcome _ _ _ = _ from h2]

structure Config.Accepted (cfg : Config) : Prop where
  msgRam : cfg.msgRam ≠ 0
  aligned : cfg.msgRam &&& 3 = 0
  size : msgRamBytes ≤ cfg.msgRamSize.toNat
  mode : cfg.mode ≠ .none

def Config.timing (cfg : Config) : Except Stop (Option BitTiming) :=
  calcBitTiming cfg.canClkHz cfg.nominalBps cfg.dataBps (effectiveSamplePct cfg.samplePct)

theorem exec_init {cfg : Config} (hcfg : cfg.Accepted) (hp : c.present = true)
    (toConfig toMode : Poll) :
    (init (some cfg) toConfig toMode).exec c =
      match cfg.timing with
      | .error e => .error e
      | .ok none => .ok (.invalidArg, c)
      | .ok (some t) => (bringUp cfg t toConfig toMode).exec c := by
  simp only [init, hcfg.msgRam, hcfg.aligned, Nat.not_lt.mpr hcfg.size, hcfg.mode, if_false,
    Prog.exec_bind, exec_getRegs, hp, if_true, ne_eq, not_true_eq_false, ← Config.timing.eq_1]
  cases cfg.timing with
  | error e => rfl
  | ok t => cases t <;> rfl

theorem exec_init_absent {cfg : Config} (hcfg : cfg.Accepted) (hp : c.present = false)
    (toConfig toMode : Poll) :
    (init (some cfg) toConfig toMode).exec c = .ok (.notPresent, c) := by
  simp only [init, hcfg.msgRam, hcfg.aligned, Nat.not_lt.mpr hcfg.size, hcfg.mode, if_false,
    Prog.exec_bind, exec_getRegs, hp, Bool.false_eq_true, ne_eq, reduceCtorEq,
    not_true_eq_false, not_false_eq_true, if_true, Prog.exec_pure]

end NoraCanfd

namespace Chan

open Lib NoraCanfd

def retimed (c : Chan) (t : BitTiming) : Chan :=
  ((((c.writeCon (reqopWrite opmodeConfig)).setReg .nbtcfg t.nbtcfg).setReg .dbtcfg
    t.dbtcfg).setReg .tdc t.tdc).writeCon (reqopWrite (modeToReqop c.mode))

@[simp] theorem retimed_ctx (c : Chan) (t : BitTiming) : (c.retimed t).ctx = c.ctx := by
  rw [retimed, writeCon_ctx, setReg_ctx, setReg_ctx, setReg_ctx, writeCon_ctx]

@[simp] theorem retimed_node (c : Chan) (t : BitTiming) : (c.retimed t).node = c.node := by
  rw [retimed, writeCon_node, setReg_node, setReg_node, setReg_node, writeCon_node]

@[simp] theorem retimed_mode (c : Chan) (t : BitTiming) : (c.retimed t).mode = c.mode := by
  rw [retimed, writeCon_mode, setReg_mode, setReg_mode, setReg_mode, writeCon_mode]

def off (c : Chan) : Chan :=
  ((c.writeCon (reqopWrite opmodeConfig)).powerDown.setNode
    { c.node with initialized := false }).setMode .none

end Chan

namespace NoraCanfd

open Lib

variable {c d : Chan} {st : Status}

inductive Retime (c : Chan) (t : BitTiming) (toConfig toMode : Poll) : Status → Chan → Prop
  | configTimeout : requestOutcome c.node opmodeConfig toConfig = .ok .timeout →
      Retime c t toConfig toMode .timeout (c.writeCon (reqopWrite opmodeConfig))
  | modeTimeout : Granted c.node opmodeConfig toConfig →
      requestOutcome c.node (modeToReqop c.mode) toMode = .ok .timeout →
      Retime c t toConfig toMode .timeout (c.retimed t)
  | retimed : Granted c.node opmodeConfig toConfig →
      Granted c.node (modeToReqop c.mode) toMode →
      Retime c t toConfig toMode .ok (c.retimed t)

/-- How `nora_canfd_set_bitrate` can end. -/
inductive SetBitrate (c : Chan) (canClkHz nominalBps dataBps : BitVec 32)
    (samplePct : BitVec 8) (toConfig toMode : Poll) : Status → Chan → Prop
  | zero : canClkHz = 0 ∨ nominalBps = 0 ∨ dataBps = 0 →
      SetBitrate c canClkHz nominalBps dataBps samplePct toConfig toMode .invalidArg c
  | absent : c.present = false →
      SetBitrate c canClkHz nominalBps dataBps samplePct toConfig toMode .notPresent c
  | notInitialized : c.node.initialized = false →
      SetBitrate c canClkHz nominalBps dataBps samplePct toConfig toMode .notInitialized c
  | noTiming :
      calcBitTiming canClkHz nominalBps dataBps (effectiveSamplePct samplePct) = .ok none →
      SetBitrate c canClkHz nominalBps dataBps samplePct toConfig toMode .invalidArg c
  | retime {t : BitTiming} {st : Status} {d : Chan} : c.node.initialized = true →
      calcBitTiming canClkHz nominalBps dataBps (effectiveSamplePct samplePct) = .ok (some t) →
      Retime c t toConfig toMode st d →
      SetBitrate c canClkHz nominalBps dataBps samplePct toConfig toMode st d

@[simp] theorem exec_writeBitTiming (t : BitTiming) :
    (writeBitTiming t).exec c =
      .ok ((), ((c.setReg .nbtcfg t.nbtcfg).setReg .dbtcfg t.dbtcfg).setReg .tdc t.tdc) := rfl

theorem exec_retime (t : BitTiming) (toConfig toMode : Poll) :
    (retime t toConfig toMode).exec c =
      match requestOutcome c.node opmodeConfig toConfig with
      | .error e => .error e
      | .ok st =>
        if st ≠ .ok then .ok (st, c.writeCon (reqopWrite opmodeConfig))
        else (requestOutcome c.node (modeToReqop c.mode) toMode).map (·, c.retimed t) := by
  simp only [retime, Prog.exec_bind, Prog.exec_get, exec_requestMode]
  cases requestOutcome c.node opmodeConfig toConfig with
  | error e => rfl
  | ok st =>
    simp only [Except.map]
    split
    next => rfl
    next =>
      simp only [Prog.exec_bind, exec_writeBitTiming, exec_requestMode]
      rfl

theorem exec_setBitrate {canClkHz nominalBps dataBps : BitVec 32} {samplePct : BitVec 8}
    {toConfig toMode : Poll} (hz : ¬(canClkHz = 0 ∨ nominalBps = 0 ∨ dataBps = 0))
    (hp : c.present = true) (hi : c.node.initialized = true) :
    (setBitrate canClkHz nominalBps dataBps samplePct toConfig toMode).exec c =
      match calcBitTiming canClkHz nominalBps dataBps (effectiveSamplePct samplePct) with
      | .error e => .error e
      | .ok none => .ok (.invalidArg, c)
      | .ok (some t) => (retime t toConfig toMode).exec c := by
  simp only [setBitrate, hz, if_false, Prog.exec_bind, exec_getRegs, hp, if_true, ne_eq,
    not_true_eq_false, Prog.exec_get, hi, Bool.not_true, Bool.false_eq_true]
  cases calcBitTiming canClkHz nominalBps dataBps (effectiveSamplePct samplePct) with
  | error e => rfl
  | ok t => cases t <;> rfl

theorem retime_outcome {t : BitTiming} {toConfig toMode : Poll}
    (h : (retime t toConfig toMode).exec c = .ok (st, d)) :
    Retime c t toConfig toMode st d := by
  rw [exec_retime] at h
  rcases requestOutcome_cases c.node opmodeConfig toConfig with
    h1 | h1 | h1
  · rcases requestOutcome_cases c.node (modeToReqop c.mode) toMode with
      h2 | h2 | h2
    all_goals simp only [show requestOutcome _ _ _ = _ from h1,
      show requestOutcome _ _ _ = _ from h2, ne_eq, not_true_eq_false, if_false, Except.map] at h
    · cases h
      exact .retimed h1 h2
    · cases h
      exact .modeTimeout h1 h2
    · cases h
  · simp only [h1, ne_eq, reduceCtorEq, not_false_eq_true, if_true] at h
    cases h
    exact .configTimeout h1
  · simp only [h1] at h
    cases h

theorem setBitrate_outcome {canClkHz nominalBps dataBps : BitVec 32} {samplePct : BitVec 8}
    {toConfig toMode : Poll}
    (h : (setBitrate canClkHz nominalBps dataBps samplePct toConfig toMode).exec c =
      .ok (st, d)) :
    SetBitrate c canClkHz nominalBps dataBps samplePct toConfig toMode st d := by
  by_cases hz : canClkHz = 0 ∨ nominalBps = 0 ∨ dataBps = 0
  · simp only [setBitrate, hz, if_true, Prog.exec_pure] at h
    cases h
    exact .zero hz
  cases hp : c.present with
  | false =>
    simp only [setBitrate, hz, if_false, Prog.exec_bind, exec_getRegs, hp, Bool.false_eq_true,
      ne_eq, reduceCtorEq, not_false_eq_true, if_true, Prog.exec_pure] at h
    cases h
    exact .absent hp
  | true =>
    cases hi : c.node.initialized with
    | false =>
      simp only [setBitrate, hz, if_false, Prog.exec_bind, exec_getRegs, hp, if_true, ne_eq,
        not_true_eq_false, Prog.exec_get, hi, Bool.not_false, Prog.exec_pure] at h
      cases h
      exact .notInitialized hi
    | true =>
      rw [exec_setBitrate hz hp hi] at h
      split at h
      next => cases h
      next ht =>
        cases h
        exact .noTiming ht
      next ht => exact .retime hi ht (retime_outcome h)

theorem BringUp.ctx {cfg : Config} {t : BitTiming} {toConfig toMode : Poll}
    (h : BringUp c cfg t toConfig toMode st d) : d.ctx = c.ctx := by
  cases h <;> rfl

theorem Retime.ctx {t : BitTiming} {toConfig toMode : Poll}
    (h : Retime c t toConfig toMode st d) : d.ctx = c.ctx := by
  cases h with
  | configTimeout => rfl
  | modeTimeout | retimed => exact Chan.retimed_ctx c t

theorem SetBitrate.ctx {canClkHz nominalBps dataBps : BitVec 32} {samplePct : BitVec 8}
    {toConfig toMode : Poll}
    (h : SetBitrate c canClkHz nominalBps dataBps samplePct toConfig toMode st d) :
    d.ctx = c.ctx := by
  cases h with
  | retime _ _ h => exact h.ctx
  | _ => rfl

theorem exec_deinit (toOff : Poll) (hp : c.present = true) :
    (deinit toOff).exec c =
      if c.mode = .none then .ok (.ok, c.setNode { c.node with initialized := false })
      else match requestOutcome c.node opmodeConfig toOff with
        | .error e => .error e
        | .ok _ => .ok (.ok, c.off) := by
  have hoff : ∀ e : Chan, e.setReg .con (e.regs .con &&& ~~~conOn) = e.powerDown :=
    fun e => by rw [Chan.powerDown, Chan.writeCon, MaskedWrite.and_not_eq_apply]
  simp only [deinit, Prog.exec_bind, exec_getRegs, hp, if_true, ne_eq, not_true_eq_false,
    if_false, Prog.exec_get, Prog.exec_ite, isInitialized, decide_not, Bool.not_not,
    decide_eq_true_eq, exec_requestMode]
  split
  next => rfl
  next =>
    cases requestOutcome c.node opmodeConfig toOff with
    | error e => rfl
    | ok st =>
      simp only [Except.map, exec_regClear, Prog.exec_modify, exec_setMode, Prog.exec_pure, hoff]
      rfl

theorem isrDisable_absent (hp : c.present = false) : isrDisable.exec c = .ok (.notPresent, c) := by
  simp only [isrDisable, Prog.exec_bind, exec_getRegs, hp, Bool.false_eq_true, if_false,
    ne_eq, reduceCtorEq, not_false_eq_true, if_true, Prog.exec_pure]

theorem exec_deinit_absent (toOff : Poll) (hp : c.present = false) :
    (deinit toOff).exec c = .ok (.notPresent, c) := by
  simp only [deinit, Prog.exec_bind, exec_getRegs, hp, Bool.false_eq_true, if_false,
    ne_eq, reduceCtorEq, not_false_eq_true, if_true, Prog.exec_pure]

end NoraCanfd

end CanfdDriver
