import CanfdDriver.Hal.Events

/-! What an instance has switched on: the records of its life cycle and the
enables of its event layer, and what each step of the HAL does to them. -/

namespace CanfdDriver

open Lib NoraCanfd

namespace NoraCanfd

def intOthers : BitVec 32 := intRxie ||| intRxovie ||| intCerrie ||| intIvmie

def rxFifoEnables : BitVec 32 := fifoconTfnrfnie ||| fifoconRxovie

@[ext] structure Switches : Type where
  present : Bool
  initialized : Bool
  mode : Mode
  on : Bool
  isrEnabled : Bool
  txBusy : Bool
  rxLine : Bool
  txLine : Bool
  genLine : Bool
  txie : Bool
  int : BitVec 32
  fifocon1 : BitVec 32
  txqeie : Bool

/-- What a step can do to the switches. -/
inductive Action : Type
  | stay
  | unset
  | down
  | strip
  | up (mode : Mode)
  | enable
  | disable
  | arm
  | disarm

def Switches.act (v : Switches) : Action → Switches
  | .stay => v
  | .unset => { v with initialized := false }
  | .down => { v with initialized := false, mode := .none, on := false }
  | .strip =>
    { v with initialized := false, mode := .none, on := false, fifocon1 := 0, txqeie := false }
  | .up mode =>
    { v with initialized := true, mode := mode, on := true, fifocon1 := 0, txqeie := false }
  | .enable =>
    { v with
      isrEnabled := true, txBusy := false, rxLine := true, genLine := true
      int := v.int ||| (intRxie ||| intRxovie), fifocon1 := rxFifoEnables }
  | .disable =>
    { v with
      isrEnabled := false, txBusy := false, rxLine := false, txLine := false, genLine := false
      txie := false, int := 0, fifocon1 := 0, txqeie := false }
  | .arm => { v with txBusy := true, txLine := true, txie := true, txqeie := true }
  | .disarm => { v with txBusy := false, txLine := false, txie := false, txqeie := false }

end NoraCanfd

namespace Chan

def switches (c : Chan) : Switches where
  present := c.present
  initialized := c.node.initialized
  mode := c.mode
  on := c.regs .con &&& conOn ≠ 0
  isrEnabled := c.isr.isrEnabled
  txBusy := c.isr.txBusy
  rxLine := c.irq.rx.enable
  txLine := c.irq.tx.enable
  genLine := c.irq.gen.enable
  txie := c.regs .int &&& intTxie ≠ 0
  int := c.regs .int &&& intOthers
  fifocon1 := c.regs .fifocon1 &&& rxFifoEnables
  txqeie := c.regs .txqcon &&& txqconTxqeie ≠ 0

variable {c d : Chan}

theorem switches_congr (hp : d.present = c.present) (hn : d.node.initialized = c.node.initialized)
    (hm : d.mode = c.mode) (hisr : d.isr.isrEnabled = c.isr.isrEnabled)
    (hbusy : d.isr.txBusy = c.isr.txBusy) (hrx : d.irq.rx.enable = c.irq.rx.enable)
    (htx : d.irq.tx.enable = c.irq.tx.enable) (hgen : d.irq.gen.enable = c.irq.gen.enable)
    (hcon : d.regs .con &&& conOn = c.regs .con &&& conOn)
    (hint : d.regs .int &&& intEnables = c.regs .int &&& intEnables)
    (hf : d.regs .fifocon1 &&& rxFifoEnables = c.regs .fifocon1 &&& rxFifoEnables)
    (ht : d.regs .txqcon &&& txqconTxqeie = c.regs .txqcon &&& txqconTxqeie) :
    d.switches = c.switches := by
  have hsub {b : BitVec 32} (hb : intEnables &&& b = b) : d.regs .int &&& b = c.regs .int &&& b := by
    rw [← hb, ← BitVec.and_assoc, hint, BitVec.and_assoc]
  simp only [switches, hp, hn, hm, hisr, hbusy, hrx, htx, hgen, hcon, hf, ht,
    hsub (b := intTxie) (by decide), hsub (b := intOthers) (by decide)]

theorem switches_setReg {r : Reg} {v : BitVec 32} (hc : Reg.con ≠ r) (hi : Reg.int ≠ r)
    (hf : Reg.fifocon1 ≠ r) (ht : Reg.txqcon ≠ r) : (c.setReg r v).switches = c.switches := by
  simp only [switches, setReg, Function.update_of_ne hc, Function.update_of_ne hi,
    Function.update_of_ne hf, Function.update_of_ne ht]

theorem switches_writeCon {m : MaskedWrite 32} (hm : conOn &&& m.mask = 0) :
    (c.writeCon m).switches = c.switches := by
  have hon : (c.writeCon m).regs .con &&& conOn = c.regs .con &&& conOn := by
    simp only [writeCon, setReg, Function.update_self]
    exact MaskedWrite.apply_and_of_disjoint hm _
  exact switches_congr rfl rfl rfl rfl rfl rfl rfl rfl hon rfl rfl rfl

theorem switches_request (reqop : BitVec 8) :
    (c.writeCon (reqopWrite reqop)).switches = c.switches :=
  switches_writeCon (by
    change conOn &&& conReqopMask = 0
    decide)

theorem switches_isrOff : c.isrOff.switches = c.switches.act .disable := by
  apply Switches.ext
  case txie => exact decide_eq_false (not_not.mpr (MaskedWrite.and_not_and_of_sub (by decide) _))
  case int => exact MaskedWrite.and_not_and_of_sub (by decide) _
  case fifocon1 => exact MaskedWrite.and_not_and_of_sub (by decide) _
  case txqeie => exact decide_eq_false (not_not.mpr (MaskedWrite.and_not_and_of_sub (by decide) _))
  all_goals rfl

theorem switches_isrOn (priority : BitVec 8) :
    (c.isrOn priority).switches = c.switches.act .enable := by
  have hint (b : BitVec 32) : (c.isrOn priority).regs .int &&& b =
      (c.regs .int ||| (intRxie ||| intRxovie)) &&& b := rfl
  have hor (v a b : BitVec 32) (h : a &&& b = a) : (v ||| a) &&& b = v &&& b ||| a := by
    ext i hi
    have hi := congrArg (·[i]) h
    simp only [BitVec.getElem_and] at hi
    simp only [BitVec.getElem_and, BitVec.getElem_or]
    grind
  apply Switches.ext
  case txie =>
    have htx : (c.regs .int ||| (intRxie ||| intRxovie)) &&& intTxie = c.regs .int &&& intTxie :=
      MaskedWrite.or_and_of_disjoint (by decide) _
    simp only [Chan.switches, hint, htx, Switches.act]
  case int =>
    simp only [Chan.switches, hint, Switches.act]
    exact hor _ _ _ (by decide)
  case fifocon1 => exact MaskedWrite.or_and_of_sub (by decide) _
  all_goals rfl

theorem switches_txOff : c.txOff.switches = c.switches.act .disarm := by
  apply Switches.ext
  case txie => exact decide_eq_false (not_not.mpr (MaskedWrite.and_not_and_of_sub (by decide) _))
  case int => exact MaskedWrite.and_not_and_of_disjoint (by decide) _
  case txqeie => exact decide_eq_false (not_not.mpr (MaskedWrite.and_not_and_of_sub (by decide) _))
  all_goals rfl

theorem switches_txOn : c.txOn.switches = c.switches.act .arm := by
  have hbit (v m : BitVec 32) (hm : m ≠ 0) : (v ||| m) &&& m ≠ 0 := by
    rwa [MaskedWrite.or_and_of_sub BitVec.and_self]
  apply Switches.ext
  case txie => exact decide_eq_true (hbit _ _ (by decide))
  case int => exact MaskedWrite.or_and_of_disjoint (by decide) _
  case txqeie => exact decide_eq_true (hbit _ _ (by decide))
  all_goals rfl

theorem switches_powerDown : c.powerDown.switches = { c.switches with on := false } := by
  apply Switches.ext
  case on =>
    have hoff : c.powerDown.regs .con &&& conOn = 0 := by
      change (MaskedWrite.clear conOn).apply (c.regs .con) &&& conOn = 0
      rw [MaskedWrite.apply_and_of_sub (by decide)]
      rfl
    exact decide_eq_false (not_not.mpr hoff)
  all_goals rfl

theorem switches_down (cfg : Config) : (c.entered cfg).powerDown.switches = c.switches.act .down := by
  rw [switches_powerDown]
  rfl

theorem switches_off : c.off.switches = c.switches.act .down := by
  have hdown : (c.writeCon (reqopWrite opmodeConfig)).powerDown.switches =
      { c.switches with on := false } := by
    rw [switches_powerDown, switches_request]
  apply Switches.ext
  case on =>
    have hon := congrArg Switches.on hdown
    exact hon
  all_goals rfl

theorem switches_configured (cfg : Config) (t : BitTiming) :
    (c.configured cfg t).switches =
      { c.switches with initialized := false, mode := .none, on := true, fifocon1 := 0, txqeie := false } := by
  apply Switches.ext
  case on =>
    have hmask : conOn &&& ((configureCon cfg.brs).andThen (reqopWrite (modeToReqop cfg.mode))).mask = 0 := by
      change conOn &&& ((configureCon cfg.brs).mask ||| conReqopMask) = 0
      cases cfg.brs <;> decide
    have hon : (c.configured cfg t).regs .con &&& conOn = conOn := by
      change ((configureCon cfg.brs).andThen (reqopWrite (modeToReqop cfg.mode))).apply
        (((MaskedWrite.set conOn).andThen (reqopWrite opmodeConfig)).apply (c.regs .con)) &&& conOn = _
      rw [MaskedWrite.apply_and_of_disjoint hmask, MaskedWrite.apply_and_of_sub (by decide)]
      decide
    exact decide_eq_true (by
      rw [hon]
      decide)
  case fifocon1 =>
    change fifocon1Word &&& rxFifoEnables = 0
    decide
  case txqeie =>
    have hoff : txqconWord &&& txqconTxqeie = 0 := by decide
    exact decide_eq_false (not_not.mpr hoff)
  all_goals rfl

theorem switches_strip (cfg : Config) (t : BitTiming) :
    (c.configured cfg t).powerDown.switches = c.switches.act .strip := by
  rw [switches_powerDown, switches_configured]
  rfl

theorem switches_live (cfg : Config) (t : BitTiming) :
    (c.live cfg t).switches = c.switches.act (.up cfg.mode) := by
  have hconf := switches_configured (c := c) cfg t
  apply Switches.ext
  case on => exact (congrArg Switches.on hconf :)
  case fifocon1 => exact (congrArg Switches.fifocon1 hconf :)
  case txqeie => exact (congrArg Switches.txqeie hconf :)
  all_goals rfl

theorem switches_retimed (t : BitTiming) : (c.retimed t).switches = c.switches := by
  rw [retimed, switches_request, switches_setReg, switches_setReg, switches_setReg,
    switches_request] <;> decide

theorem switches_sense (hw : Hw) : (c.sense hw).switches = c.switches := by
  have hkeep {r : Reg} {b : BitVec 32} (hb : b &&& hwBits r = 0) :
      (c.sense hw).regs r &&& b = c.regs r &&& b :=
    MaskedWrite.apply_and_of_disjoint hb _
  exact switches_congr rfl rfl rfl rfl rfl rfl rfl rfl (hkeep (by decide)) (hkeep (by decide))
    (hkeep (by decide)) (hkeep (by decide))

theorem switches_acked :
    c.acked.switches = c.switches.act (if TxDone c then .disarm else .stay) := by
  have hflags (e : Chan) : (e.setReg .int (e.regs .int &&& ~~~intClrMask)).switches = e.switches := by
    refine switches_congr rfl rfl rfl rfl rfl rfl rfl rfl rfl ?_ rfl rfl
    exact MaskedWrite.and_not_and_of_disjoint (by decide) _
  have hnoted : c.noted.switches = c.switches := by
    rw [noted]
    split
    · exact switches_setReg (by decide) (by decide) (by decide) (by decide)
    · rfl
  rw [acked, hflags]
  split
  · rw [switches_txOff, hnoted]
  · exact hnoted

end Chan

namespace NoraCanfd

variable {c d : Chan} {l : HalLabel} {st : Status}

def SameSwitches (c d : Chan) : Prop := d.switches = c.switches

instance : Std.Refl SameSwitches := ⟨fun _ => rfl⟩

instance : IsTrans Chan SameSwitches := ⟨fun _ _ _ h h' => Eq.trans h' h⟩

theorem regClear_switches {r : Reg} (m : BitVec 32) (hc : Reg.con ≠ r) (hi : Reg.int ≠ r)
    (hf : Reg.fifocon1 ≠ r) (ht : Reg.txqcon ≠ r) : (regClear r m).Moves SameSwitches :=
  .modify fun _ => Chan.switches_setReg hc hi hf ht

theorem writePayload_switches (obj : BitVec 32) (f : Frame) (n : Nat) :
    (writePayload obj f n).Moves SameSwitches := by
  induction n with
  | zero => exact .pure _
  | succ n ih => exact .bind ih fun _ => .modify fun _ => rfl

theorem transmit_switches (frame : Option Frame) (room : Poll) :
    (transmit frame room).Moves SameSwitches := by
  cases frame with
  | none => exact .pure _
  | some f =>
    refine .ite (.pure _) (.ite (.pure _) (.bind .get fun _ => .ite (.pure _) ?_))
    refine .bind (waitFlag_reads _ _) fun _ => .ite (.pure _) (.bind .get fun c => ?_)
    refine .bind (.modify fun _ => rfl) fun _ => .bind (.modify fun _ => rfl) fun _ => ?_
    refine .bind (writePayload_switches _ _ _) fun _ => .bind (.modify fun _ => rfl) fun _ => ?_
    refine .bind (.modify fun c => ?_) fun _ => .pure _
    refine Chan.switches_congr rfl rfl rfl rfl rfl rfl rfl rfl rfl rfl rfl ?_
    change (c.regs .txqcon ||| fifoconTxreq) &&& txqconTxqeie = _
    exact MaskedWrite.or_and_of_disjoint (by decide) _

theorem receive_switches (frame : Option Frame) (p : Poll) (arriving : Obj) :
    (receive frame p arriving).Moves SameSwitches := by
  refine receiveFrom_moves (R := SameSwitches) ?_ ?_ frame p arriving
  · exact fun _ _ => rfl
  · exact fun _ => rfl

theorem irqLineClear_switches : irqLineClear.Moves SameSwitches :=
  .bind (.modify fun _ => rfl) fun _ => .bind (.modify fun _ => rfl) fun _ => .modify fun _ => rfl

theorem getStatus_switches : getStatus.Moves SameSwitches :=
  .bind getRegs_reads fun _ => .ite (.pure _) (.bind .get fun _ => .bind .get fun _ => .pure _)

theorem clearRxOverflow_switches : clearRxOverflow.Moves SameSwitches :=
  .bind getRegs_reads fun _ => .ite (.pure _) <|
    .bind (regClear_switches _ (by decide) (by decide) (by decide) (by decide)) fun _ => .pure _

structure Serves (c : Chan) (r : Option Report) (d : Chan) : Prop where
  switches : d.switches = c.switches.act (if TxDone c then .disarm else .stay)
  reports : TxDone c → ∀ f, c.isr.cb = some f →
    ∃ rep, r = some rep ∧ rep.callback = f ∧ rep.events &&& eventTxComplete ≠ 0

theorem evt_or_ne_zero {p : Prop} [Decidable p] (hp : p) (x y z w v : BitVec 32) :
    (x ||| y ||| evt p eventTxComplete ||| z ||| w ||| v) &&& eventTxComplete ≠ 0 := by
  intro h
  have hbit := congrArg (·.getLsbD 0) h
  have hone : eventTxComplete[0] = true := by decide
  simp [evt, hp, hone] at hbit

theorem irqEvents_serves (hp : c.present = true) {r : Option Report}
    (h : irqEvents.exec c = .ok (r, d)) : Serves c r d := by
  rw [exec_irqEvents hp] at h
  cases h
  refine ⟨Chan.switches_acked, fun hdone f hf => ?_⟩
  have hbit : c.events &&& eventTxComplete ≠ 0 := evt_or_ne_zero hdone _ _ _ _ _
  have hev : c.events ≠ 0 := fun h => hbit (by rw [h]; exact BitVec.zero_and)
  refine ⟨⟨f, c.events, c.isr.ud⟩, ?_, rfl, hbit⟩
  rw [Chan.report, hf]
  exact if_pos hev

structure Configures (c : Chan) (cfg : Config) (toConfig : Poll) : Prop where
  present : c.present = true
  accepted : cfg.Accepted
  timing : ∃ t, cfg.timing = .ok (some t)
  granted : Granted cfg.node opmodeConfig toConfig

structure CanEnable (c : Chan) (priority : BitVec 8) : Prop where
  present : c.present = true
  priority : ¬effectivePriority priority > 7
  mode : c.mode ≠ .none

/-- What a step amounts to. -/
inductive Acts (c : Chan) : HalLabel → Action → Prop
  | stay {l : HalLabel} : Acts c l .stay
  | unset {toOff : Poll} : c.mode = .none → Acts c (.call (.deinit toOff) .ok) .unset
  | off {toOff : Poll} : Acts c (.call (.deinit toOff) .ok) .down
  | down {cfg : Config} {toConfig toMode : Poll} :
      Acts c (.call (.init (some cfg) toConfig toMode) .timeout) .down
  | strip {cfg : Config} {toConfig toMode : Poll} : Configures c cfg toConfig →
      Acts c (.call (.init (some cfg) toConfig toMode) .timeout) .strip
  | up {cfg : Config} {toConfig toMode : Poll} : Configures c cfg toConfig →
      Acts c (.call (.init (some cfg) toConfig toMode) .ok) (.up cfg.mode)
  | enable {priority : BitVec 8} : CanEnable c priority →
      Acts c (.call (.isrEnable priority) .ok) .enable
  | disable : Acts c (.call .isrDisable .ok) .disable
  | arm {frame : Option Frame} {room : Poll} : c.isr.isrEnabled = true →
      Acts c (.call (.txStart frame room) .ok) .arm
  | abort : Acts c (.call .txAbort .ok) .disarm
  | done {r : Option Report} : TxDone c → Acts c (.events r) .disarm

theorem acts_stay (h : SameSwitches c d) : ∃ a, Acts c l a ∧ d.switches = c.switches.act a :=
  ⟨.stay, .stay, h⟩

theorem init_acts {config : Option Config} {toConfig toMode : Poll}
    (h : (init config toConfig toMode).exec c = .ok (st, d)) :
    ∃ a, Acts c (.call (.init config toConfig toMode) st) a ∧ d.switches = c.switches.act a := by
  rcases init_cases h with ⟨-, rfl⟩ | ⟨cfg, t, rfl, hcfg, hp, ht, hup⟩
  · exact acts_stay rfl
  · cases hup with
    | configTimeout => exact ⟨_, .down, Chan.switches_down cfg⟩
    | modeTimeout hg => exact ⟨_, .strip ⟨hp, hcfg, ⟨t, ht⟩, hg⟩, Chan.switches_strip cfg t⟩
    | live hg => exact ⟨_, .up ⟨hp, hcfg, ⟨t, ht⟩, hg⟩, Chan.switches_live cfg t⟩

theorem deinit_acts {toOff : Poll} (h : (deinit toOff).exec c = .ok (st, d)) :
    ∃ a, Acts c (.call (.deinit toOff) st) a ∧ d.switches = c.switches.act a := by
  cases hp : c.present with
  | false =>
    rw [exec_deinit_absent toOff hp] at h
    cases h
    exact acts_stay rfl
  | true =>
    rw [exec_deinit toOff hp] at h
    split at h
    next hm =>
      cases h
      exact ⟨_, .unset hm, rfl⟩
    next =>
      split at h
      next => cases h
      next =>
        cases h
        exact ⟨_, .off, Chan.switches_off⟩

theorem setBitrate_switches {canClkHz nominalBps dataBps : BitVec 32} {samplePct : BitVec 8}
    {toConfig toMode : Poll}
    (h : (setBitrate canClkHz nominalBps dataBps samplePct toConfig toMode).exec c = .ok (st, d)) :
    SameSwitches c d := by
  cases setBitrate_outcome h with
  | retime _ _ h =>
    cases h with
    | configTimeout => exact Chan.switches_request _
    | modeTimeout | retimed => exact Chan.switches_retimed _
  | _ => rfl

theorem isrEnable_acts {priority : BitVec 8} (h : (isrEnable priority).exec c = .ok (st, d)) :
    ∃ a, Acts c (.call (.isrEnable priority) st) a ∧ d.switches = c.switches.act a := by
  cases hp : c.present with
  | false =>
    obtain ⟨-, rfl⟩ := isrEnable_absent hp h
    exact acts_stay rfl
  | true =>
    rw [exec_isrEnable priority hp] at h
    split at h
    next =>
      cases h
      exact acts_stay rfl
    next hprio =>
      split at h
      next =>
        cases h
        exact acts_stay rfl
      next hm =>
        cases h
        exact ⟨_, .enable ⟨hp, hprio, hm⟩, Chan.switches_isrOn _⟩

theorem isrDisable_acts (h : isrDisable.exec c = .ok (st, d)) :
    ∃ a, Acts c (.call .isrDisable st) a ∧ d.switches = c.switches.act a := by
  cases hp : c.present with
  | false =>
    rw [isrDisable_absent hp] at h
    cases h
    exact acts_stay rfl
  | true =>
    rw [exec_isrDisable hp] at h
    cases h
    exact ⟨_, .disable, Chan.switches_isrOff⟩

theorem txStart_acts {frame : Option Frame} {room : Poll}
    (h : (txStart frame room).exec c = .ok (st, d)) :
    ∃ a, Acts c (.call (.txStart frame room) st) a ∧ d.switches = c.switches.act a := by
  cases hp : c.present with
  | false =>
    rw [exec_txStart_absent hp] at h
    cases h
    exact acts_stay rfl
  | true =>
    cases he : c.isr.isrEnabled with
    | false =>
      rw [exec_txStart_disabled hp he] at h
      cases h
      exact acts_stay rfl
    | true =>
      rw [exec_txStart hp he] at h
      split at h
      next => cases h
      next st' e ht =>
        have hsame : SameSwitches c e := (transmit_switches frame room).exec ht
        split at h
        next =>
          cases h
          exact acts_stay hsame
        next =>
          cases h
          exact ⟨_, .arm he, by rw [Chan.switches_txOn, hsame]⟩

theorem txAbort_acts (h : txAbort.exec c = .ok (st, d)) :
    ∃ a, Acts c (.call .txAbort st) a ∧ d.switches = c.switches.act a := by
  cases hp : c.present with
  | false =>
    simp only [txAbort, Prog.exec_bind, exec_getRegs, hp, Bool.false_eq_true, if_false, ne_eq,
      reduceCtorEq, not_false_eq_true, if_true, Prog.exec_pure] at h
    cases h
    exact acts_stay rfl
  | true =>
    rw [exec_txAbort hp] at h
    cases h
    exact ⟨_, .abort, Chan.switches_txOff⟩

theorem call_acts {call : HalCall} (h : call.run.exec c = .ok (st, d)) :
    ∃ a, Acts c (.call call st) a ∧ d.switches = c.switches.act a := by
  cases call with
  | init config toConfig toMode => exact init_acts h
  | deinit toOff => exact deinit_acts h
  | setBitrate => exact acts_stay (setBitrate_switches h)
  | transmit frame room => exact acts_stay ((transmit_switches frame room).exec h)
  | rxAvailable =>
    exact acts_stay ((Prog.Moves.bind (R := SameSwitches) rxAvailable_reads fun _ => .pure _).exec h)
  | receive frame p arriving =>
    exact acts_stay ((Prog.Moves.bind (receive_switches frame p arriving) fun _ => .pure _).exec h)
  | isrSetCallback callback userData =>
    rw [HalCall.run, exec_isrSetCallback] at h
    cases h
    exact acts_stay rfl
  | isrEnable priority => exact isrEnable_acts h
  | isrDisable => exact isrDisable_acts h
  | txStart frame room => exact txStart_acts h
  | txAbort => exact txAbort_acts h
  | getStatus => exact acts_stay ((Prog.Moves.bind getStatus_switches fun _ => .pure _).exec h)
  | clearRxOverflow => exact acts_stay (clearRxOverflow_switches.exec h)

/-- Every step of the HAL acts on the switches. -/
theorem HalStep.acts (h : HalStep c l d) : ∃ a, Acts c l a ∧ d.switches = c.switches.act a := by
  cases h with
  | call h => exact call_acts h
  | @events r _ h =>
    cases hp : c.present with
    | false =>
      rw [exec_irqEvents_absent hp] at h
      cases h
      exact acts_stay rfl
    | true =>
      have hserves := irqEvents_serves hp h
      by_cases hdone : TxDone c
      · exact ⟨_, .done hdone, by rw [hserves.switches, if_pos hdone]⟩
      · exact ⟨_, .stay, by rw [hserves.switches, if_neg hdone]⟩
  | leave h => exact acts_stay (irqLineClear_switches.exec h)
  | hardware => exact acts_stay (Chan.switches_sense _)

end NoraCanfd

end CanfdDriver
