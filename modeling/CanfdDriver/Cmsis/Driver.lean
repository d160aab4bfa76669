import CanfdDriver.Hal.Isr

namespace CanfdDriver.Cmsis

open Lib NoraCanfd

def armDriverOk : Int := 0
def armDriverError : Int := -1
def armDriverErrorBusy : Int := -2
def armDriverErrorTimeout : Int := -3
def armDriverErrorUnsupported : Int := -4
def armDriverErrorParameter : Int := -5

/-- `other` is any value outside the C enumeration. -/
inductive PowerState : Type
  | off | low | full | other
  deriving DecidableEq

inductive BitrateSelect : Type
  | nominal | fdData | other
  deriving DecidableEq

inductive ArmMode : Type
  | initialization | normal | restricted | monitor | loopbackInternal | loopbackExternal | other
  deriving DecidableEq

def bitPropSegPos : Nat := 0
def bitPhaseSeg1Pos : Nat := 8
def bitPhaseSeg2Pos : Nat := 16

def idIdeMsk : BitVec 32 := 0x80000000

def controlMsk : BitVec 32 := 0xFF
def setFdModeCode : BitVec 32 := 1
def abortMessageSendCode : BitVec 32 := 2
def fdModeDisable : BitVec 32 := 0
def fdModeEnable : BitVec 32 := 1

def eventUnitBusOff : BitVec 32 := 4
def eventReceive : BitVec 32 := 2
def eventReceiveOverrun : BitVec 32 := 3

def objTx : BitVec 32 := 0
def objRx : BitVec 32 := 1

structure MsgInfo : Type where
  id : BitVec 32
  rtr : Bool
  edl : Bool
  brs : Bool
  esi : Bool
  dlc : BitVec 4
  deriving DecidableEq

/-- What a call finds outside the driver: the scripts of its polling loops and
the bytes of its uninitialised frame buffer. -/
structure Env : Type where
  toConfig : Poll
  toMode : Poll
  toOff : Poll
  room : Poll
  buffer : Nat → BitVec 8

structure ReadArgs : Type where
  objIdx : BitVec 32
  info : Bool
  data : Option (Nat → BitVec 8)
  size : Nat

/-- The reads an application makes inside each of its callbacks. -/
abbrev App := Signal → List ReadArgs

def canHalToArm : Status → Int
  | .ok => armDriverOk
  | .invalidArg => armDriverErrorParameter
  | .busy => armDriverErrorBusy
  | .unsupported => armDriverErrorUnsupported
  | .notInitialized => armDriverError
  | .timeout => armDriverErrorTimeout
  | _ => armDriverError

def canMapMode : ArmMode → Option Mode
  | .normal => some .normalFd
  | .monitor => some .listenOnly
  | .loopbackInternal => some .internalLoopback
  | .loopbackExternal => some .externalLoopback
  | _ => none

def canNormalModeForCtx (ctx : Context) : Mode :=
  if ctx.fdMode ≠ 0 then .normalFd else .normalClassic

def onCtx (f : Context → Context) : M Unit := .modify fun c => c.setCtx (f c.ctx)

/-! ### Message read -/

structure ReadResult : Type where
  code : Int
  info : Option MsgInfo
  data : Option (Nat → BitVec 8)

def copyBytes (src dst : Nat → BitVec 8) : Nat → Nat → BitVec 8
  | 0 => dst
  | n + 1 => Function.update (copyBytes src dst n) n (src n)

def readDlc (len : Nat) : Nat :=
  if len ≤ 8 then len
  else if len ≤ 12 then 9
  else if len ≤ 16 then 10
  else if len ≤ 20 then 11
  else if len ≤ 24 then 12
  else if len ≤ 32 then 13
  else if len ≤ 48 then 14
  else 15

def frameInfo (f : Frame) : MsgInfo where
  id := if f.extended then (f.id &&& 0x1FFFFFFF) ||| idIdeMsk else f.id &&& 0x7FF
  rtr := false
  edl := f.fd
  brs := f.brs
  esi := false
  dlc := BitVec.ofNat 4 (readDlc f.len)

def refuseRead (args : ReadArgs) (code : Int) : ReadResult := ⟨code, none, args.data⟩

def deliver (f : Frame) (args : ReadArgs) : ReadResult :=
  let n := if f.len < args.size then f.len else args.size
  ⟨n, some (frameInfo f), args.data.map fun d => copyBytes f.data d n⟩

def ReadArgs.bad (args : ReadArgs) : Bool :=
  !args.info || args.objIdx ≠ objRx || (0 < args.size && args.data.isNone)

def canMessageRead (args : ReadArgs) : M ReadResult := do
  let c ← .get
  if !c.ctx.powered then return refuseRead args armDriverError
  else if args.bad then return refuseRead args armDriverErrorParameter
  else
    let c ← .get
    let tail := c.ctx.rx.tail
    let c ← .get
    let head := c.ctx.rx.head
    if tail = head then return refuseRead args armDriverError
    else
      let c ← .get
      let frame := c.ctx.rx.front
      .modify fun c => (c.setCtx { c.ctx with rx := c.ctx.rx.advance }).log (.handed frame)
      return deliver frame args

/-! ### The event callback -/

def runReads : List ReadArgs → M Unit
  | [] => pure ()
  | args :: rest => do
    let _ ← canMessageRead args
    runReads rest

def signalObject (app : App) (event : BitVec 32) : M Unit := do
  let c ← .get
  if c.ctx.cbObject.isNone then return ()
  else
    .modify fun c => c.log (.signal (.object objRx event) c.ctx)
    runReads (app (.object objRx event))

def signalUnit (app : App) (event : BitVec 32) : M Unit := do
  let c ← .get
  if c.ctx.cbUnit.isNone then return ()
  else
    .modify fun c => c.log (.signal (.unit event) c.ctx)
    runReads (app (.unit event))

def storeFrame (f : Frame) : M Bool := do
  let c ← .get
  if c.ctx.rx.full then
    .modify fun c => c.log (.dropped f)
    return false
  else
    .modify fun c => (c.setCtx { c.ctx with rx := c.ctx.rx.push f }).log (.appended f)
    return true

def drainFrom (port : RxPort) : Nat → Frame → Bool → Bool → M (Bool × Bool)
  | 0, _, _, _ => .fail .polling
  | n + 1, f, received, dropped => do
    let more ← rxAvailable
    if !more then return (received, dropped)
    else
      let r ← receiveFrom port (some f) ⟨0, []⟩ fun _ => 0
      match r with
      | (.ok, some f) =>
        let stored ← storeFrame f
        drainFrom port n f (received || stored) (dropped || !stored)
      | _ => return (received, dropped)

abbrev drain : Nat → Frame → Bool → Bool → M (Bool × Bool) := drainFrom fifoPort

def canHalEventFrom (port : RxPort) (app : App) (f : Frame) (events : BitVec 32)
    (ud : Option UserData) : M Unit :=
  match ud with
  | none => pure ()
  | some .ctx => do
    (if events &&& eventRxAvailable ≠ 0 then do
      let c ← .get
      let r ← drainFrom port (c.rxFifo.length + 1) f false false
      (if r.1 then signalObject app eventReceive else pure ())
      (if r.2 then signalObject app eventReceiveOverrun else pure ())
    else pure ())
    (if events &&& eventRxOverflow ≠ 0 then signalObject app eventReceiveOverrun else pure ())
    (if events &&& eventBusOff ≠ 0 then signalUnit app eventUnitBusOff else pure ())

def eventCallbackFrom (port : RxPort) (app : App) (f : Frame) :
    EventCallback → BitVec 32 → Option UserData → M Unit
  | .canHalEvent, events, ud => canHalEventFrom port app f events ud
  | .application, _, _ => pure ()

def handlerFrom (port : RxPort) (app : App) (f : Frame) : M Unit :=
  irqHandler (eventCallbackFrom port app f)

abbrev canHalEvent : App → Frame → BitVec 32 → Option UserData → M Unit := canHalEventFrom fifoPort

abbrev eventCallback : App → Frame → EventCallback → BitVec 32 → Option UserData → M Unit :=
  eventCallbackFrom fifoPort

abbrev handler : App → Frame → M Unit := handlerFrom fifoPort

/-! ### Life cycle -/

def ctxConfig (ctx : Context) (mode : Mode) : Config where
  canClkHz := ctx.canClkHz
  nominalBps := ctx.nominalBps
  dataBps := ctx.dataBps
  samplePct := ctx.samplePct
  brs := ctx.fdMode ≠ 0
  mode := mode
  timeoutMs := ctx.timeoutMs
  getMs := true
  msgRam := ctx.msgRam.addr
  msgRamSize := ctx.msgRam.size

/-- `can_apply_init` from the point where the node is up. -/
def armEvents (mode : Mode) (env : Env) : M Int := do
  let _ ← isrSetCallback (some .canHalEvent) (some .ctx)
  let c ← .get
  let st ← isrEnable c.ctx.irqPriority
  if st ≠ .ok then
    let _ ← isrSetCallback none none
    let _ ← deinit env.toOff
    return canHalToArm st
  else
    onCtx fun x => { x with mode := mode }
    return armDriverOk

def canApplyInit (mode : Mode) (env : Env) : M Int := do
  let _ ← isrDisable
  let _ ← isrSetCallback none none
  let c ← .get
  let st ← init (some (ctxConfig c.ctx mode)) env.toConfig env.toMode
  -- A refused initialization does not put the registration back.
  if st ≠ .ok then return canHalToArm st
  else armEvents mode env

def canInitialize (cbUnit cbObject : Option Callback) : M Int := do
  let c ← .get
  if !c.ctx.enabled then return armDriverErrorUnsupported
  else
    onCtx fun x => { x with cbUnit := cbUnit }
    onCtx fun x => { x with cbObject := cbObject }
    -- The node, if it was up, is not taken down.
    onCtx fun x => { x with powered := false }
    onCtx fun x => { x with initialized := true }
    return armDriverOk

/-- `PowerControl(FULL)` from the point where the ring is reset. -/
def applyFull (env : Env) : M Int := do
  let c ← .get
  let rc ← canApplyInit (canNormalModeForCtx c.ctx) env
  if rc ≠ armDriverOk then return rc
  else
    -- The handler may have run since the lines were enabled.
    onCtx fun x => { x with powered := true }
    return armDriverOk

def resetHead (x : Context) : Context := { x with rx := { x.rx with head := 0 } }

def resetTail (x : Context) : Context := { x with rx := { x.rx with tail := 0 } }

def powerFull (env : Env) : M Int := do
  let c ← .get
  if c.ctx.powered then return armDriverOk
  else
    onCtx fun x => { x with rx := { x.rx with head := 0 } }
    onCtx fun x => { x with rx := { x.rx with tail := 0 } }
    applyFull env

def powerOff (env : Env) : M Int := do
  let c ← .get
  (if c.ctx.powered then do
    let _ ← isrDisable
    let _ ← isrSetCallback none none
    let _ ← deinit env.toOff
  else pure ())
  onCtx fun x => { x with powered := false }
  return armDriverOk

def canPowerControl (state : PowerState) (env : Env) : M Int := do
  let c ← .get
  if !c.ctx.initialized then return armDriverError
  else
    match state with
    | .full => powerFull env
    | .off => powerOff env
    | .low => return armDriverErrorUnsupported
    | .other => return armDriverErrorParameter

def canUnInitialize (env : Env) : M Int := do
  let c ← .get
  (if c.ctx.powered then do
    let _ ← canPowerControl .off env
  else pure ())
  onCtx fun x => { x with cbUnit := none }
  onCtx fun x => { x with cbObject := none }
  onCtx fun x => { x with initialized := false }
  return armDriverOk

/-! ### Configuration -/

def segmentSamplePct (bitSegments : BitVec 32) : Option (BitVec 8) :=
  if bitSegments = 0 then none
  else
    let prop := (bitSegments >>> bitPropSegPos) &&& 0xFF
    let ph1 := (bitSegments >>> bitPhaseSeg1Pos) &&& 0xFF
    let ph2 := (bitSegments >>> bitPhaseSeg2Pos) &&& 0xFF
    let tq := 1 + prop + ph1 + ph2
    if ph2 ≠ 0 ∧ tq > 1 then some ((((1 + prop + ph1) * 100) / tq).setWidth 8) else none

/-- `CAN_SetBitrate` from the point where the rate is cached. -/
def applyBitrate (env : Env) : M Int := do
  let c ← .get
  if !c.ctx.powered then return armDriverOk
  else
    let c ← .get
    let st ← setBitrate c.ctx.canClkHz c.ctx.nominalBps c.ctx.dataBps c.ctx.samplePct
      env.toConfig env.toMode
    return canHalToArm st

def canSetBitrate (select : BitrateSelect) (bitrate bitSegments : BitVec 32) (env : Env) : M Int :=
  if bitrate = 0 then return armDriverErrorParameter
  else do
    (match segmentSamplePct bitSegments with
      | some pct => onCtx fun x => { x with samplePct := pct }
      | none => pure ())
    match select with
    | .nominal =>
      onCtx fun x => { x with nominalBps := bitrate }
      applyBitrate env
    | .fdData =>
      onCtx fun x => { x with dataBps := bitrate }
      applyBitrate env
    | .other => return armDriverErrorParameter

/-- `CAN_SetMode` from the point where the HAL mode is known. -/
def changeMode (halMode : Mode) (env : Env) : M Int := do
  let c ← .get
  if !c.ctx.powered then return armDriverError
  else if halMode = c.ctx.mode then return armDriverOk
  else canApplyInit halMode env

def canSetMode (mode : ArmMode) (env : Env) : M Int := do
  let c ← .get
  if !c.ctx.initialized then return armDriverError
  else if mode = .initialization then return armDriverOk
  else
    match canMapMode mode with
    | none => return armDriverErrorUnsupported
    | some mapped =>
      let c ← .get
      changeMode (if mode = .normal then canNormalModeForCtx c.ctx else mapped) env

def fdModeTarget (ctx : Context) : Mode :=
  if ctx.mode = .normalFd ∨ ctx.mode = .normalClassic then canNormalModeForCtx ctx else ctx.mode

def setFdMode (arg : BitVec 32) (env : Env) : M Int :=
  if arg ≠ fdModeDisable ∧ arg ≠ fdModeEnable then return armDriverErrorParameter
  else do
    onCtx fun x => { x with fdMode := if arg ≠ 0 then 1 else 0 }
    let c ← .get
    if c.ctx.powered then
      let c ← .get
      canApplyInit (fdModeTarget c.ctx) env
    else return armDriverOk

def abortMessageSend (arg : BitVec 32) : M Int := do
  let c ← .get
  if !c.ctx.powered then return armDriverError
  else if arg ≠ objTx then return armDriverErrorParameter
  else
    let st ← txAbort
    return canHalToArm st

def canControl (code arg : BitVec 32) (env : Env) : M Int := do
  let c ← .get
  if !c.ctx.initialized then return armDriverError
  else if code &&& controlMsk = setFdModeCode then setFdMode arg env
  else if code &&& controlMsk = abortMessageSendCode then abortMessageSend arg
  else return armDriverErrorUnsupported

/-! ### Message send -/

def sendFrame (info : MsgInfo) (data : Nat → BitVec 8) (size : Nat) (buffer : Nat → BitVec 8) :
    Frame :=
  let extended : Bool := info.id &&& idIdeMsk ≠ 0
  { id := if extended then info.id &&& 0x1FFFFFFF else info.id &&& 0x7FF
    extended := extended
    fd := info.edl
    brs := info.brs
    len := size
    data := copyBytes data buffer size }

/-- `data` is `none` for `NULL`; its bytes are read only below `size`. -/
def canMessageSend (objIdx : BitVec 32) (info : Option MsgInfo) (data : Option (Nat → BitVec 8))
    (size : Nat) (env : Env) : M Int := do
  let c ← .get
  if !c.ctx.powered then return armDriverError
  else
    match info with
    | none => return armDriverErrorParameter
    | some info =>
      if objIdx ≠ objTx ∨ size > 64 ∨ (0 < size ∧ data.isNone) then
        return armDriverErrorParameter
      else if info.rtr then return armDriverErrorUnsupported
      else
        let c ← .get
        if c.ctx.fdMode = 0 ∧ (info.edl ∨ size > 8) then return armDriverErrorUnsupported
        else
          let st ← transmit
            (some (sendFrame info (data.getD fun _ => 0) size env.buffer)) env.room
          if st ≠ .ok then return canHalToArm st
          else return size

/-! ### Queries -/

def canGetClock (c : Chan) : BitVec 32 := if c.ctx.enabled then c.ctx.canClkHz else 0

structure ObjCapabilities : Type where
  tx : Bool
  rx : Bool
  messageDepth : Nat
  deriving DecidableEq

def canObjectGetCapabilities (c : Chan) (objIdx : BitVec 32) : ObjCapabilities :=
  if !c.ctx.enabled then ⟨false, false, 0⟩
  else if objIdx = objTx then ⟨true, false, 4⟩
  else if objIdx = objRx then ⟨false, true, 4⟩
  else ⟨false, false, 0⟩

inductive UnitState : Type
  | inactive | active | passive | busOff
  deriving DecidableEq

structure CanStatus : Type where
  unitState : UnitState
  txErrorCount : BitVec 8
  rxErrorCount : BitVec 8
  deriving DecidableEq

def canGetStatus : M CanStatus := do
  let c ← .get
  if !c.ctx.powered then return ⟨.inactive, 0, 0⟩
  else
    let r ← getStatus
    match r with
    | (.ok, some bs) =>
      let unitState :=
        if bs.busOff then .busOff else if bs.errorPassive then .passive else .active
      return ⟨unitState, bs.txErrCount, bs.rxErrCount⟩
    | _ => return ⟨.inactive, 0, 0⟩

inductive Call : Type
  | canInitialize (cbUnit cbObject : Option Callback)
  | canUnInitialize
  | canPowerControl (state : PowerState)
  | canSetBitrate (select : BitrateSelect) (bitrate bitSegments : BitVec 32)
  | canSetMode (mode : ArmMode)
  | canControl (code arg : BitVec 32)
  | canMessageSend (objIdx : BitVec 32) (info : Option MsgInfo) (data : Option (Nat → BitVec 8))
      (size : Nat)
  | canMessageRead (args : ReadArgs)

def Call.run (env : Env) : Call → M Int
  | .canInitialize cbUnit cbObject => Cmsis.canInitialize cbUnit cbObject
  | .canUnInitialize => Cmsis.canUnInitialize env
  | .canPowerControl state => Cmsis.canPowerControl state env
  | .canSetBitrate select bitrate bitSegments =>
    Cmsis.canSetBitrate select bitrate bitSegments env
  | .canSetMode mode => Cmsis.canSetMode mode env
  | .canControl code arg => Cmsis.canControl code arg env
  | .canMessageSend objIdx info data size => Cmsis.canMessageSend objIdx info data size env
  | .canMessageRead args => do
    let r ← Cmsis.canMessageRead args
    return r.code

end CanfdDriver.Cmsis
