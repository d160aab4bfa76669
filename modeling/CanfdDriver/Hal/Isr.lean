import CanfdDriver.Hal.Node

/-! The interrupt and event layer.  Every store to a bit or a variable is one
atomic action. -/

namespace CanfdDriver.NoraCanfd

open Lib

def isrDefaultPriority : BitVec 8 := 4

def eventTxComplete : BitVec 32 := 1#32 <<< 0
def eventRxAvailable : BitVec 32 := 1#32 <<< 1
def eventBusError : BitVec 32 := 1#32 <<< 2
def eventBusOff : BitVec 32 := 1#32 <<< 3
def eventRxOverflow : BitVec 32 := 1#32 <<< 4
def eventInvalidMsg : BitVec 32 := 1#32 <<< 5

/-! ### CPU interrupt lines -/

def clearLineFlag (l : Line) : Line := { l with flag := false }
def setLinePriority (l : Line) (priority : BitVec 8) : Line :=
  { l with priority := priority.setWidth 3 }
def setLineEnable (l : Line) (enable : Bool) : Line := { l with enable := enable }

def onRx (f : Line → Line) : M Unit := .modify fun c => c.setIrq { c.irq with rx := f c.irq.rx }
def onTx (f : Line → Line) : M Unit := .modify fun c => c.setIrq { c.irq with tx := f c.irq.tx }
def onGen (f : Line → Line) : M Unit := .modify fun c => c.setIrq { c.irq with gen := f c.irq.gen }

def irqLineEnable (priority : BitVec 8) : M Unit := do
  .modify fun c => c.setIsr { c.isr with irqPriority := priority }
  onRx clearLineFlag
  onRx (setLinePriority · priority)
  onRx (setLineEnable · true)
  onGen clearLineFlag
  onGen (setLinePriority · priority)
  onGen (setLineEnable · true)

def irqLineDisable : M Unit := do
  onRx (setLineEnable · false)
  onRx clearLineFlag
  onTx (setLineEnable · false)
  onTx clearLineFlag
  onGen (setLineEnable · false)
  onGen clearLineFlag

def irqLineClear : M Unit := do
  onRx clearLineFlag
  onTx clearLineFlag
  onGen clearLineFlag

def irqTxLineEnable : M Unit := do
  onTx clearLineFlag
  let c ← .get
  onTx (setLinePriority · c.isr.irqPriority)
  onTx (setLineEnable · true)

def irqTxLineDisable : M Unit := do
  onTx (setLineEnable · false)
  onTx clearLineFlag

/-! ### Setup -/

def setTxBusy (b : Bool) : M Unit := .modify fun c => c.setIsr { c.isr with txBusy := b }

def setIsrEnabled (b : Bool) : M Unit := .modify fun c => c.setIsr { c.isr with isrEnabled := b }

def isrSetCallback (callback : Option EventCallback) (userData : Option UserData) :
    M Status := do
  .modify fun c => c.setIsr { c.isr with cb := callback }
  .modify fun c => c.setIsr { c.isr with ud := userData }
  return .ok

def effectivePriority (priority : BitVec 8) : BitVec 8 :=
  if priority = 0 then isrDefaultPriority else priority

def isrEnable (priority : BitVec 8) : M Status :=
  let priority := effectivePriority priority
  if priority > 7 then return .invalidArg
  else do
    let st ← getRegs
    if st ≠ .ok then return st
    else
      let c ← .get
      if !isInitialized c then return .notInitialized
      else
        regSet .fifocon1 (fifoconTfnrfnie ||| fifoconRxovie)
        regSet .int (intRxie ||| intRxovie)
        -- Only the flag: TXQEIE, TXIE and the transmit line stay as they are.
        setTxBusy false
        irqLineEnable priority
        setIsrEnabled true
        return .ok

def intEnables : BitVec 32 := intTxie ||| intRxie ||| intRxovie ||| intCerrie ||| intIvmie

def isrDisable : M Status := do
  let st ← getRegs
  if st ≠ .ok then return st
  else
    setIsrEnabled false
    irqLineDisable
    regClear .int intEnables
    regClear .fifocon1 (fifoconTfnrfnie ||| fifoconRxovie)
    regClear .txqcon txqconTxqeie
    setTxBusy false
    return .ok

/-! ### Asynchronous transmit -/

def txStart (frame : Option Frame) (room : Poll) : M Status := do
  let st ← getRegs
  if st ≠ .ok then return st
  else
    let c ← .get
    if !c.isr.isrEnabled then return .sequence
    else
      let st ← transmit frame room
      if st ≠ .ok then return st
      else
        setTxBusy true
        regSet .txqcon txqconTxqeie
        regSet .int intTxie
        irqTxLineEnable
        return .ok

def txIsBusy (c : Chan) : Bool := c.isr.txBusy

/-- The common part of `tx_abort` and of the handler's `TX_COMPLETE` path. -/
def txDisarm : M Unit := do
  regClear .txqcon txqconTxqeie
  regClear .int intTxie
  irqTxLineDisable
  setTxBusy false

def txAbort : M Status := do
  let st ← getRegs
  if st ≠ .ok then return st
  else
    txDisarm
    return .ok

/-! ### Interrupt entry and status -/

def evt (p : Prop) [Decidable p] (bit : BitVec 32) : BitVec 32 := if p then bit else 0

/-- `callback` runs what a registered function pointer stands for. -/
def irqHandler (callback : EventCallback → BitVec 32 → Option UserData → M Unit) :
    M Unit := do
  let st ← getRegs
  if st ≠ .ok then irqLineClear
  else
    let c ← .get
    let intf := c.regs .int
    (if intf &&& intRxovif ≠ 0 then regClear .fifosta1 fifostaRxovif else pure ())
    -- INT is not read again: what is reported and cleared is what it showed at the start.
    let c ← .get
    let txDone : Bool := intf &&& intTxif ≠ 0 ∧ c.regs .txqsta &&& txqstaTxqeif ≠ 0
    (if txDone then txDisarm else pure ())
    regClear .int intClrMask
    let c ← .get
    let events :=
      evt (intf &&& intRxif ≠ 0) eventRxAvailable
        ||| evt (intf &&& intRxovif ≠ 0) eventRxOverflow
        ||| evt txDone eventTxComplete
        ||| evt (intf &&& intCerrif ≠ 0) eventBusError
        ||| evt (intf &&& intIvmif ≠ 0) eventInvalidMsg
        ||| evt (c.regs .trec &&& trecTxbo ≠ 0) eventBusOff
    let c ← .get
    (match c.isr.cb with
      | some f => if events ≠ 0 then callback f events c.isr.ud else pure ()
      | none => pure ())
    irqLineClear

structure BusStatus : Type where
  txErrCount : BitVec 8
  rxErrCount : BitVec 8
  errorWarning : Bool
  errorPassive : Bool
  busOff : Bool
  rxOverflow : Bool

def getStatus : M (Status × Option BusStatus) := do
  let st ← getRegs
  if st ≠ .ok then return (st, none)
  else
    let c ← .get
    let t := c.regs .trec
    let c ← .get
    return (.ok, some {
      rxErrCount := t.setWidth 8
      txErrCount := (t >>> 8).setWidth 8
      errorWarning := t &&& trecEwarn ≠ 0
      errorPassive := t &&& (trecTxbp ||| trecRxbp) ≠ 0
      busOff := t &&& trecTxbo ≠ 0
      rxOverflow := c.fifosta1 &&& fifostaRxovif ≠ 0 })

def clearRxOverflow : M Status := do
  let st ← getRegs
  if st ≠ .ok then return st
  else
    regClear .fifosta1 fifostaRxovif
    return .ok

end CanfdDriver.NoraCanfd
