import CanfdDriver.Hal.Effects
import CanfdDriver.Lib.Reach

/-! Runs of the HAL: its calls with any arguments and runs of the handler, from
reset and without the wrapper. -/

namespace CanfdDriver.NoraCanfd

open Lib

structure Report : Type where
  callback : EventCallback
  events : BitVec 32
  userData : Option UserData

/-- `nora_canfd_irq_handler` up to its decision whether the transmit queue ran empty; it hands
over `INT` as it was read. -/
def irqDecide : M (Option (BitVec 32 × Bool)) := do
  let st ← getRegs
  if st ≠ .ok then return none
  else
    let c ← .get
    let intf := c.regs .int
    (if intf &&& intRxovif ≠ 0 then regClear .fifosta1 fifostaRxovif else pure ())
    let c ← .get
    return some (intf, intf &&& intTxif ≠ 0 ∧ c.regs .txqsta &&& txqstaTxqeif ≠ 0)

/-- From there up to its callback. -/
def irqReport : Option (BitVec 32 × Bool) → M (Option Report)
  | none => return none
  | some (intf, txDone) => do
    (if txDone then txDisarm else pure ())
    regClear .int intClrMask
    let c ← .get
    let events :=
      evt (intf &&& intRxif ≠ 0) eventRxAvailable
        ||| evt (intf &&& intRxovif ≠ 0) eventRxOverflow
        ||| evt txDone eventTxComplete
        ||| evt (intf &&& intCerrif ≠ 0) eventBusError
        ||| evt (intf &&& intIvmif ≠ 0) eventInvalidMsg
        ||| evt (c.regs .trec &&& trecTxbo ≠ 0) eventBusOff
    let c ← .get
    match c.isr.cb with
    | some f => if events ≠ 0 then return some ⟨f, events, c.isr.ud⟩ else return none
    | none => return none

def irqEvents : M (Option Report) := irqDecide >>= irqReport

theorem irqHandler_eq (callback : EventCallback → BitVec 32 → Option UserData → M Unit) :
    irqHandler callback = irqEvents >>= fun r =>
      (match r with
        | some r => callback r.callback r.events r.userData
        | none => pure ()) >>= fun _ => irqLineClear := by
  rw [irqHandler, irqEvents, irqDecide, Prog.bind_assoc, Prog.bind_assoc]
  refine congrArg (getRegs >>= ·) (funext fun st => ?_)
  rw [Prog.ite_bind]
  congr 1
  simp only [Prog.bind_assoc]
  refine congrArg (Prog.get >>= ·) (funext fun c => ?_)
  refine congrArg (_ >>= ·) (funext fun _ => ?_)
  refine congrArg (Prog.get >>= ·) (funext fun d => ?_)
  change _ = irqReport (some _) >>= _
  simp only [irqReport, Prog.bind_assoc]
  refine congrArg (_ >>= ·) (funext fun _ => ?_)
  refine congrArg (_ >>= ·) (funext fun _ => ?_)
  refine congrArg (Prog.get >>= ·) (funext fun e => ?_)
  refine congrArg (Prog.get >>= ·) (funext fun g => ?_)
  cases g.isr.cb with
  | none => rfl
  | some f =>
    rw [Prog.ite_bind, Prog.ite_bind]
    rfl

inductive HalCall : Type
  | init (config : Option Config) (toConfig toMode : Poll)
  | deinit (toOff : Poll)
  | setBitrate (canClkHz nominalBps dataBps : BitVec 32) (samplePct : BitVec 8)
      (toConfig toMode : Poll)
  | transmit (frame : Option Frame) (room : Poll)
  | rxAvailable
  | receive (frame : Option Frame) (p : Poll) (arriving : Obj)
  | isrSetCallback (callback : Option EventCallback) (userData : Option UserData)
  | isrEnable (priority : BitVec 8)
  | isrDisable
  | txStart (frame : Option Frame) (room : Poll)
  | txAbort
  | getStatus
  | clearRxOverflow

def HalCall.run : HalCall → M Status
  | .init config toConfig toMode => NoraCanfd.init config toConfig toMode
  | .deinit toOff => NoraCanfd.deinit toOff
  | .setBitrate canClkHz nominalBps dataBps samplePct toConfig toMode =>
    NoraCanfd.setBitrate canClkHz nominalBps dataBps samplePct toConfig toMode
  | .transmit frame room => NoraCanfd.transmit frame room
  | .rxAvailable => do
    let _ ← NoraCanfd.rxAvailable
    return .ok
  | .receive frame p arriving => do
    let r ← NoraCanfd.receive frame p arriving
    return r.1
  | .isrSetCallback callback userData => NoraCanfd.isrSetCallback callback userData
  | .isrEnable priority => NoraCanfd.isrEnable priority
  | .isrDisable => NoraCanfd.isrDisable
  | .txStart frame room => NoraCanfd.txStart frame room
  | .txAbort => NoraCanfd.txAbort
  | .getStatus => do
    let r ← NoraCanfd.getStatus
    return r.1
  | .clearRxOverflow => NoraCanfd.clearRxOverflow

inductive HalLabel : Type
  /-- A completed call and the status it returns, also one made by the callback. -/
  | call (call : HalCall) (status : Status)
  /-- The handler runs up to its callback. -/
  | events (report : Option Report)
  | leave
  | hardware (hw : Hw)

inductive HalStep (c : Chan) : HalLabel → Chan → Prop
  | call {call : HalCall} {st : Status} {d : Chan} :
      call.run.exec c = .ok (st, d) → HalStep c (.call call st) d
  | events {r : Option Report} {d : Chan} :
      irqEvents.exec c = .ok (r, d) → HalStep c (.events r) d
  | leave {d : Chan} : irqLineClear.exec c = .ok ((), d) → HalStep c .leave d
  | hardware {hw : Hw} : HalStep c (.hardware hw) (c.sense hw)

abbrev HalReach (allowed : Chan → HalLabel → Prop) : Chan → Chan → Prop := Reach HalStep allowed

theorem irqHandler_reach {callback : EventCallback → BitVec 32 → Option UserData → M Unit}
    {c d : Chan} (hcb : ∀ f events ud s t, (callback f events ud).exec s = .ok ((), t) →
      HalReach (fun _ _ => True) s t)
    (h : (irqHandler callback).exec c = .ok ((), d)) : HalReach (fun _ _ => True) c d := by
  rw [irqHandler_eq] at h
  obtain ⟨r, s, hs, hrest⟩ := Prog.exec_bind_eq_ok.mp h
  obtain ⟨_, t, ht, hleave⟩ := Prog.exec_bind_eq_ok.mp hrest
  have hcalls : HalReach (fun _ _ => True) s t := by
    cases r with
    | none =>
      cases ht
      exact .refl
    | some r => exact hcb _ _ _ _ _ ht
  refine Reach.tail (.trans ?_ hcalls) trivial (.leave hleave)
  exact .tail .refl ⟨_, trivial, .events hs⟩

/-- An instance as the reset of the device leaves it. -/
structure Reset (c : Chan) : Prop where
  initialized : c.node.initialized = false
  mode : c.mode = .none
  on : c.regs .con &&& conOn = 0
  isrEnabled : c.isr.isrEnabled = false
  txBusy : c.isr.txBusy = false
  rxLine : c.irq.rx.enable = false
  txLine : c.irq.tx.enable = false
  genLine : c.irq.gen.enable = false
  int : c.regs .int &&& intEnables = 0
  fifocon1 : c.regs .fifocon1 &&& (fifoconTfnrfnie ||| fifoconRxovie) = 0
  txqcon : c.regs .txqcon &&& txqconTxqeie = 0

def resetChan : Chan where
  present := true
  ctx :=
    { msgRam := Cmsis.exampleRam
      cbUnit := none, cbObject := none
      canClkHz := 0, nominalBps := 0, dataBps := 0, samplePct := 0, fdMode := 0
      irqPriority := 0, timeoutMs := 0
      enabled := false, initialized := false, powered := false
      mode := .none
      rx := .empty ⟨0, false, false, false, 0, fun _ => 0⟩ }
  node := ⟨false, false, 0⟩
  mode := .none
  isr := ⟨none, none, false, 0, false⟩
  irq := ⟨⟨false, false, 4⟩, ⟨false, false, 4⟩, ⟨false, false, 4⟩⟩
  regs := fun _ => 0
  ram := fun _ => 0
  rxFifo := []
  trace := []

theorem resetChan_reset : Reset resetChan :=
  ⟨rfl, rfl, rfl, rfl, rfl, rfl, rfl, rfl, rfl, rfl, rfl⟩

def exampleConfig : Config where
  canClkHz := 20000000
  nominalBps := 500000
  dataBps := 2000000
  samplePct := 80
  brs := true
  mode := .normalFd
  timeoutMs := 10
  getMs := true
  msgRam := Cmsis.exampleRam.addr
  msgRamSize := Cmsis.exampleRam.size

def readsOnce (value : BitVec 32) : Poll := ⟨0, [⟨value, 0⟩]⟩

def shows (reqop : BitVec 8) : Poll := readsOnce (reqop.setWidth 32 <<< conOpmodPos)

def sendAsync : List HalCall :=
  [.init (some exampleConfig) (shows opmodeConfig) (shows opmodeNormalFd), .isrEnable 4,
    .txStart (some ⟨1, false, false, false, 0, fun _ => 0⟩) (readsOnce fifostaTfnrfnif)]

def fireCall (ok : Chan → HalCall → Bool) (c : Chan) (call : HalCall) : Option Chan :=
  if ok c call then
    match call.run.exec c with
    | .ok (_, d) => some d
    | .error _ => none
  else none

theorem fireCall_step (ok : Chan → HalCall → Bool) {allowed : Chan → HalLabel → Prop}
    (hok : ∀ c call st, ok c call = true → allowed c (.call call st)) (c : Chan) (call : HalCall)
    (d : Chan) (h : fireCall ok c call = some d) : ∃ l, allowed c l ∧ HalStep c l d := by
  rw [fireCall] at h
  split at h
  next ho =>
    split at h
    next st e he =>
      cases h
      exact ⟨.call call st, hok c call st ho, .call he⟩
    next => cases h
  next => cases h

variable {c d : Chan} {st : Status}

inductive InitRefused (c : Chan) : Option Config → Status → Prop
  | null : InitRefused c none .invalidArg
  | argument {cfg : Config} : ¬cfg.Accepted → InitRefused c (some cfg) .invalidArg
  | absent {cfg : Config} : cfg.Accepted → c.present = false → InitRefused c (some cfg) .notPresent
  | timing {cfg : Config} : cfg.Accepted → c.present = true → cfg.timing = .ok none →
      InitRefused c (some cfg) .invalidArg

theorem exec_init_argument {cfg : Config} (h : ¬cfg.Accepted) (toConfig toMode : Poll) :
    (init (some cfg) toConfig toMode).exec c = .ok (.invalidArg, c) := by
  simp only [init]
  split
  next => rfl
  next hram =>
    split
    next => rfl
    next haligned =>
      split
      next => rfl
      next hsize =>
        split
        next => rfl
        next hmode =>
          exact absurd ⟨hram, not_not.mp haligned, Nat.not_lt.mp hsize, hmode⟩ h

theorem exec_init_refused {config : Option Config} (h : InitRefused c config st)
    (toConfig toMode : Poll) : (init config toConfig toMode).exec c = .ok (st, c) := by
  cases h with
  | null => rfl
  | argument h => exact exec_init_argument h _ _
  | absent h hp => exact exec_init_absent h hp _ _
  | timing h hp ht => rw [exec_init h hp, ht]

theorem init_cases {config : Option Config} {toConfig toMode : Poll}
    (h : (init config toConfig toMode).exec c = .ok (st, d)) :
    (InitRefused c config st ∧ d = c) ∨ ∃ cfg t, config = some cfg ∧ cfg.Accepted ∧
      c.present = true ∧ cfg.timing = .ok (some t) ∧ BringUp c cfg t toConfig toMode st d := by
  have hrefused {st' : Status} (hr : InitRefused c config st') : InitRefused c config st ∧ d = c := by
    rw [exec_init_refused hr] at h
    cases h
    exact ⟨hr, rfl⟩
  cases config with
  | none => exact .inl (hrefused .null)
  | some cfg =>
    by_cases hcfg : cfg.Accepted
    · cases hp : c.present with
      | false => exact .inl (hrefused (.absent hcfg hp))
      | true =>
        rw [exec_init hcfg hp] at h
        split at h
        next => cases h
        next ht =>
          cases h
          exact .inl ⟨.timing hcfg hp ht, rfl⟩
        next t ht => exact .inr ⟨cfg, t, rfl, hcfg, rfl, ht, bringUp_iff.mp h⟩
    · exact .inl (hrefused (.argument hcfg))

end CanfdDriver.NoraCanfd

namespace CanfdDriver.Chan

open NoraCanfd

def txOff (c : Chan) : Chan :=
  { c with
    isr := { c.isr with txBusy := false }
    irq := { c.irq with tx := { c.irq.tx with enable := false, flag := false } }
    regs := fun
      | .int => c.regs .int &&& ~~~intTxie
      | .txqcon => c.regs .txqcon &&& ~~~txqconTxqeie
      | r => c.regs r }

def txOn (c : Chan) : Chan :=
  { c with
    isr := { c.isr with txBusy := true }
    irq := { c.irq with tx := ⟨false, true, c.isr.irqPriority.setWidth 3⟩ }
    regs := fun
      | .int => c.regs .int ||| intTxie
      | .txqcon => c.regs .txqcon ||| txqconTxqeie
      | r => c.regs r }

end CanfdDriver.Chan

namespace CanfdDriver.NoraCanfd

open Lib

variable {c d : Chan} {st : Status}

theorem exec_txDisarm : txDisarm.exec c = .ok ((), c.txOff) := by
  simp only [txDisarm, irqTxLineDisable, Prog.exec_bind, exec_regClear, exec_onTx, exec_setTxBusy]
  refine congrArg (fun d => Except.ok ((), d)) ?_
  apply Chan.ext
  case regs =>
    funext r
    cases r <;> simp [Chan.txOff]
  all_goals simp only [Chan.txOff, Chan.setReg, Chan.setIsr, Chan.setIrq, clearLineFlag, setLineEnable]

theorem exec_txAbort (hp : c.present = true) : txAbort.exec c = .ok (.ok, c.txOff) := by
  simp only [txAbort, Prog.exec_bind, exec_getRegs, hp, if_true, ne_eq, not_true_eq_false, if_false,
    exec_txDisarm, Prog.exec_pure]

theorem isrEnable_absent {priority : BitVec 8} (hp : c.present = false)
    (h : (isrEnable priority).exec c = .ok (st, d)) : st ≠ .ok ∧ d = c := by
  simp only [isrEnable] at h
  split at h
  next =>
    cases h
    exact ⟨by decide, rfl⟩
  next =>
    simp only [Prog.exec_bind, exec_getRegs, hp, Bool.false_eq_true, if_false, ne_eq,
      reduceCtorEq, not_false_eq_true, if_true, Prog.exec_pure] at h
    cases h
    exact ⟨by decide, rfl⟩

theorem exec_txStart_absent (hp : c.present = false) (frame : Option Frame) (room : Poll) :
    (txStart frame room).exec c = .ok (.notPresent, c) := by
  simp only [txStart, Prog.exec_bind, exec_getRegs, hp, Bool.false_eq_true, if_false, ne_eq,
    reduceCtorEq, not_false_eq_true, if_true, Prog.exec_pure]

theorem exec_txStart_disabled (hp : c.present = true) (he : c.isr.isrEnabled = false)
    (frame : Option Frame) (room : Poll) : (txStart frame room).exec c = .ok (.sequence, c) := by
  simp only [txStart, Prog.exec_bind, exec_getRegs, hp, if_true, ne_eq, not_true_eq_false, if_false,
    Prog.exec_get, he, Bool.not_false, Prog.exec_pure]

theorem exec_txStart (hp : c.present = true) (he : c.isr.isrEnabled = true) (frame : Option Frame)
    (room : Poll) :
    (txStart frame room).exec c = match (transmit frame room).exec c with
      | .error e => .error e
      | .ok (st, d) => if st ≠ .ok then .ok (st, d) else .ok (.ok, d.txOn) := by
  simp only [txStart, Prog.exec_bind, exec_getRegs, hp, if_true, ne_eq, not_true_eq_false, if_false,
    Prog.exec_get, he, Bool.not_true, Bool.false_eq_true]
  cases (transmit frame room).exec c with
  | error e => rfl
  | ok q =>
    obtain ⟨st, d⟩ := q
    simp only [Prog.exec_ite]
    split
    next => rfl
    next =>
      simp only [irqTxLineEnable, Prog.exec_bind, exec_setTxBusy, exec_regSet, exec_onTx,
        Prog.exec_get, Prog.exec_pure]
      refine congrArg (fun d => Except.ok (Status.ok, d)) ?_
      apply Chan.ext
      case regs =>
        funext r
        cases r <;> simp [Chan.txOn]
      all_goals simp only [Chan.txOn, Chan.setReg, Chan.setIsr, Chan.setIrq, clearLineFlag,
        setLineEnable, setLinePriority]

end CanfdDriver.NoraCanfd
