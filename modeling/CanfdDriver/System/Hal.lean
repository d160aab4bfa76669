import CanfdDriver.System.State

/-! The HAL over both instances.  Wherever the source names a register, a bit or
a table entry of an instance, so does the definition; what only goes through the
register pointers and the tables of its instance is carried out on its channel. -/

namespace CanfdDriver.System

open Lib NoraCanfd Cmsis

/-! ### The device map -/

def getDevice (inst : Inst) : S (Option (Reg → Sfr)) := do
  let m ← .get
  return if m.present inst then some (canfdDevices inst) else none

def isPresent (inst : Inst) : S Bool := do
  let dev ← getDevice inst
  return dev.isSome

def getRegs (inst : Inst) : S (Status × (Reg → Sfr)) := do
  let dev ← getDevice inst
  match dev with
  | none => return (.notPresent, canfdDevices inst)
  | some regs => return (.ok, regs)

def setMd (x : Pmd) (b : Bool) : S Unit := .modify fun m => { m with md := Function.update m.md x b }

def moduleEnable (inst : Inst) (enable : Bool) : S Status := do
  let dev ← getDevice inst
  if dev.isNone then return .notPresent
  else
    let m ← .get
    match inst with
    | .inst1 =>
      if m.mdDefined .inst1 then do
        setMd .c1md (!enable)
        return .ok
      else return .unsupported
    | .inst2 =>
      if m.mdDefined .inst2 then do
        setMd .c2md (!enable)
        return .ok
      else return .unsupported

def regSet (x : Sfr) (mask : BitVec 32) : S Unit :=
  .modify fun m => { m with sfr := Function.update m.sfr x (m.sfr x ||| mask) }

def regClear (x : Sfr) (mask : BitVec 32) : S Unit :=
  .modify fun m => { m with sfr := Function.update m.sfr x (m.sfr x &&& ~~~mask) }

def onInst (inst : Inst) {α : Type} (p : M α) : S α := (channel inst.index inst).lift p

def setMode (inst : Inst) (mode : Mode) : S Unit :=
  .modify fun m => { m with mode := Function.update m.mode inst mode }

def getMode (inst : Inst) : S Mode := do
  let m ← .get
  return m.mode inst

def isInitialized (inst : Inst) : S Bool := do
  let mode ← getMode inst
  return mode ≠ .none

def init (inst : Inst) (config : Option Config) (toConfig toMode : Poll) : S Status :=
  onInst inst (NoraCanfd.init config toConfig toMode)

def setBitrate (inst : Inst) (canClkHz nominalBps dataBps : BitVec 32) (samplePct : BitVec 8)
    (toConfig toMode : Poll) : S Status :=
  onInst inst (NoraCanfd.setBitrate canClkHz nominalBps dataBps samplePct toConfig toMode)

def deinit (inst : Inst) (toOff : Poll) : S Status := onInst inst (NoraCanfd.deinit toOff)

def transmit (inst : Inst) (frame : Option Frame) (room : Poll) : S Status :=
  onInst inst (NoraCanfd.transmit frame room)

def rxAvailable (inst : Inst) : S Bool := onInst inst NoraCanfd.rxAvailable

def receive (inst : Inst) (frame : Option Frame) (p : Poll) (arriving : Obj) :
    S (Status × Option Frame) := onInst inst (receiveFrom ramPort frame p arriving)

def getStatus (inst : Inst) : S (Status × Option BusStatus) := onInst inst NoraCanfd.getStatus

/-! ### CPU interrupt lines -/

def onLine (x : CpuLine) (f : Line → Line) : S Unit :=
  .modify fun m => { m with line := Function.update m.line x (f (m.line x)) }

def setIrqPriority (inst : Inst) (priority : BitVec 8) : S Unit :=
  .modify fun m => { m with irqPriority := Function.update m.irqPriority inst priority }

def irqLineEnable (inst : Inst) (priority : BitVec 8) : S Unit := do
  setIrqPriority inst priority
  match inst with
  | .inst1 =>
    onLine .c1rx clearLineFlag
    onLine .c1rx (setLinePriority · priority)
    onLine .c1rx (setLineEnable · true)
    onLine .c1 clearLineFlag
    onLine .c1 (setLinePriority · priority)
    onLine .c1 (setLineEnable · true)
  | .inst2 =>
    onLine .c2rx clearLineFlag
    onLine .c2rx (setLinePriority · priority)
    onLine .c2rx (setLineEnable · true)
    onLine .c2 clearLineFlag
    onLine .c2 (setLinePriority · priority)
    onLine .c2 (setLineEnable · true)

def irqLineDisable : Inst → S Unit
  | .inst1 => do
    onLine .c1rx (setLineEnable · false)
    onLine .c1rx clearLineFlag
    onLine .c1tx (setLineEnable · false)
    onLine .c1tx clearLineFlag
    onLine .c1 (setLineEnable · false)
    onLine .c1 clearLineFlag
  | .inst2 => do
    onLine .c2rx (setLineEnable · false)
    onLine .c2rx clearLineFlag
    onLine .c2tx (setLineEnable · false)
    onLine .c2tx clearLineFlag
    onLine .c2 (setLineEnable · false)
    onLine .c2 clearLineFlag

def irqLineClear : Inst → S Unit
  | .inst1 => do
    onLine .c1rx clearLineFlag
    onLine .c1tx clearLineFlag
    onLine .c1 clearLineFlag
  | .inst2 => do
    onLine .c2rx clearLineFlag
    onLine .c2tx clearLineFlag
    onLine .c2 clearLineFlag

def irqTxLineEnable (inst : Inst) : S Unit :=
  match inst with
  | .inst1 => do
    onLine .c1tx clearLineFlag
    let m ← .get
    onLine .c1tx (setLinePriority · (m.irqPriority inst))
    onLine .c1tx (setLineEnable · true)
  | .inst2 => do
    onLine .c2tx clearLineFlag
    let m ← .get
    onLine .c2tx (setLinePriority · (m.irqPriority inst))
    onLine .c2tx (setLineEnable · true)

def irqTxLineDisable : Inst → S Unit
  | .inst1 => do
    onLine .c1tx (setLineEnable · false)
    onLine .c1tx clearLineFlag
  | .inst2 => do
    onLine .c2tx (setLineEnable · false)
    onLine .c2tx clearLineFlag

def setTxBusy (inst : Inst) (b : Bool) : S Unit :=
  .modify fun m => { m with txBusy := Function.update m.txBusy inst b }

def setIsrEnabled (inst : Inst) (b : Bool) : S Unit :=
  .modify fun m => { m with isrEnabled := Function.update m.isrEnabled inst b }

def isrSetCallback (inst : Inst) (callback : Option EventCallback) (userData : Option (Fin 2)) :
    S Status := do
  .modify fun m => { m with cb := Function.update m.cb inst callback }
  .modify fun m => { m with ud := Function.update m.ud inst userData }
  return .ok

def isrEnable (inst : Inst) (priority : BitVec 8) : S Status :=
  let priority := effectivePriority priority
  if priority > 7 then return .invalidArg
  else do
    let (st, regs) ← getRegs inst
    if st ≠ .ok then return st
    else
      let up ← isInitialized inst
      if !up then return .notInitialized
      else
        regSet (regs .fifocon1) (fifoconTfnrfnie ||| fifoconRxovie)
        regSet (regs .int) (intRxie ||| intRxovie)
        setTxBusy inst false
        irqLineEnable inst priority
        setIsrEnabled inst true
        return .ok

def isrDisable (inst : Inst) : S Status := do
  let (st, regs) ← getRegs inst
  if st ≠ .ok then return st
  else
    setIsrEnabled inst false
    irqLineDisable inst
    regClear (regs .int) intEnables
    regClear (regs .fifocon1) (fifoconTfnrfnie ||| fifoconRxovie)
    regClear (regs .txqcon) txqconTxqeie
    setTxBusy inst false
    return .ok

def txStart (inst : Inst) (frame : Option Frame) (room : Poll) : S Status := do
  let (st, regs) ← getRegs inst
  if st ≠ .ok then return st
  else
    let m ← .get
    if !m.isrEnabled inst then return .sequence
    else
      let st ← transmit inst frame room
      if st ≠ .ok then return st
      else
        setTxBusy inst true
        regSet (regs .txqcon) txqconTxqeie
        regSet (regs .int) intTxie
        irqTxLineEnable inst
        return .ok

def txIsBusy (inst : Inst) : S Bool := do
  let m ← .get
  return m.txBusy inst

def txDisarm (inst : Inst) (regs : Reg → Sfr) : S Unit := do
  regClear (regs .txqcon) txqconTxqeie
  regClear (regs .int) intTxie
  irqTxLineDisable inst
  setTxBusy inst false

def txAbort (inst : Inst) : S Status := do
  let (st, regs) ← getRegs inst
  if st ≠ .ok then return st
  else
    txDisarm inst regs
    return .ok

/-- `callback` runs what a registered function pointer stands for. -/
def irqHandler (callback : EventCallback → Inst → BitVec 32 → Option (Fin 2) → S Unit) (inst : Inst) :
    S Unit := do
  let (st, regs) ← getRegs inst
  if st ≠ .ok then irqLineClear inst
  else
    let m ← .get
    let intf := m.sfr (regs .int)
    (if intf &&& intRxovif ≠ 0 then regClear (regs .fifosta1) fifostaRxovif else pure ())
    let m ← .get
    let txDone : Bool := intf &&& intTxif ≠ 0 ∧ m.sfr (regs .txqsta) &&& txqstaTxqeif ≠ 0
    (if txDone then txDisarm inst regs else pure ())
    regClear (regs .int) intClrMask
    let m ← .get
    let events :=
      evt (intf &&& intRxif ≠ 0) eventRxAvailable
        ||| evt (intf &&& intRxovif ≠ 0) eventRxOverflow
        ||| evt txDone eventTxComplete
        ||| evt (intf &&& intCerrif ≠ 0) eventBusError
        ||| evt (intf &&& intIvmif ≠ 0) eventInvalidMsg
        ||| evt (m.sfr (regs .trec) &&& trecTxbo ≠ 0) eventBusOff
    let m ← .get
    (match m.cb inst with
      | some f => if events ≠ 0 then callback f inst events (m.ud inst) else pure ()
      | none => pure ())
    irqLineClear inst

def clearRxOverflow (inst : Inst) : S Status := do
  let (st, regs) ← getRegs inst
  if st ≠ .ok then return st
  else
    regClear (regs .fifosta1) fifostaRxovif
    return .ok

end CanfdDriver.System
