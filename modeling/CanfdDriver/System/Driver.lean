import CanfdDriver.System.Hal

/-! The CMSIS-Driver wrapper over both instances.  What reaches the hardware
through the node layer only is carried out on the channel of its context and the
instance of that context; what calls the event layer is spelled out again. -/

namespace CanfdDriver.System

open Lib NoraCanfd Cmsis

def halInst : Fin 2 → Inst
  | 0 => .inst1
  | 1 => .inst2

def onIndex (index : Fin 2) {α : Type} (p : M α) : S α := (channel index (halInst index)).lift p

def onCtx (index : Fin 2) (f : Context → Context) : S Unit :=
  .modify fun m => { m with ctx := Function.update m.ctx index (f (m.ctx index)) }

/-- The application callbacks it invokes call no driver function. -/
def canHalEvent (f : Frame) (inst : Inst) (events : BitVec 32) (userData : Option (Fin 2)) : S Unit :=
  match userData with
  | none => pure ()
  | some k => (channel k inst).lift (canHalEventFrom ramPort (fun _ => []) f events (some .ctx))

def eventCallback (f : Frame) : EventCallback → Inst → BitVec 32 → Option (Fin 2) → S Unit
  | .canHalEvent, inst, events, userData => canHalEvent f inst events userData
  | .application, _, _, _ => pure ()

def handler (f : Frame) (inst : Inst) : S Unit := irqHandler (eventCallback f) inst

def armEvents (index : Fin 2) (mode : Mode) (env : Env) : S Int := do
  let _ ← isrSetCallback (halInst index) (some .canHalEvent) (some index)
  let m ← .get
  let st ← isrEnable (halInst index) (m.ctx index).irqPriority
  if st ≠ .ok then
    let _ ← isrSetCallback (halInst index) none none
    let _ ← deinit (halInst index) env.toOff
    return canHalToArm st
  else
    onCtx index fun x => { x with mode := mode }
    return armDriverOk

def canApplyInit (index : Fin 2) (mode : Mode) (env : Env) : S Int := do
  let _ ← isrDisable (halInst index)
  let _ ← isrSetCallback (halInst index) none none
  let m ← .get
  let st ← init (halInst index) (some (ctxConfig (m.ctx index) mode)) env.toConfig env.toMode
  if st ≠ .ok then return canHalToArm st
  else armEvents index mode env

def canInitialize (index : Fin 2) (cbUnit cbObject : Option Callback) : S Int :=
  onIndex index (Cmsis.canInitialize cbUnit cbObject)

def applyFull (index : Fin 2) (env : Env) : S Int := do
  let m ← .get
  let rc ← canApplyInit index (canNormalModeForCtx (m.ctx index)) env
  if rc ≠ armDriverOk then return rc
  else
    onCtx index fun x => { x with powered := true }
    return armDriverOk

def powerFull (index : Fin 2) (env : Env) : S Int := do
  let m ← .get
  if (m.ctx index).powered then return armDriverOk
  else
    onCtx index resetHead
    onCtx index resetTail
    applyFull index env

def powerOff (index : Fin 2) (env : Env) : S Int := do
  let m ← .get
  (if (m.ctx index).powered then do
    let _ ← isrDisable (halInst index)
    let _ ← isrSetCallback (halInst index) none none
    let _ ← deinit (halInst index) env.toOff
  else pure ())
  onCtx index fun x => { x with powered := false }
  return armDriverOk

def canPowerControl (index : Fin 2) (state : PowerState) (env : Env) : S Int := do
  let m ← .get
  if !(m.ctx index).initialized then return armDriverError
  else
    match state with
    | .full => powerFull index env
    | .off => powerOff index env
    | .low => return armDriverErrorUnsupported
    | .other => return armDriverErrorParameter

def canUnInitialize (index : Fin 2) (env : Env) : S Int := do
  let m ← .get
  (if (m.ctx index).powered then do
    let _ ← canPowerControl index .off env
  else pure ())
  onCtx index fun x => { x with cbUnit := none }
  onCtx index fun x => { x with cbObject := none }
  onCtx index fun x => { x with initialized := false }
  return armDriverOk

def canSetBitrate (index : Fin 2) (select : BitrateSelect) (bitrate bitSegments : BitVec 32)
    (env : Env) : S Int :=
  onIndex index (Cmsis.canSetBitrate select bitrate bitSegments env)

def changeMode (index : Fin 2) (halMode : Mode) (env : Env) : S Int := do
  let m ← .get
  if !(m.ctx index).powered then return armDriverError
  else if halMode = (m.ctx index).mode then return armDriverOk
  else canApplyInit index halMode env

def canSetMode (index : Fin 2) (mode : ArmMode) (env : Env) : S Int := do
  let m ← .get
  if !(m.ctx index).initialized then return armDriverError
  else if mode = .initialization then return armDriverOk
  else
    match canMapMode mode with
    | none => return armDriverErrorUnsupported
    | some mapped =>
      let m ← .get
      changeMode index (if mode = .normal then canNormalModeForCtx (m.ctx index) else mapped) env

def setFdMode (index : Fin 2) (arg : BitVec 32) (env : Env) : S Int :=
  if arg ≠ fdModeDisable ∧ arg ≠ fdModeEnable then return armDriverErrorParameter
  else do
    onCtx index fun x => { x with fdMode := if arg ≠ 0 then 1 else 0 }
    let m ← .get
    if (m.ctx index).powered then
      let m ← .get
      canApplyInit index (fdModeTarget (m.ctx index)) env
    else return armDriverOk

def abortMessageSend (index : Fin 2) (arg : BitVec 32) : S Int := do
  let m ← .get
  if !(m.ctx index).powered then return armDriverError
  else if arg ≠ objTx then return armDriverErrorParameter
  else
    let st ← txAbort (halInst index)
    return canHalToArm st

def canControl (index : Fin 2) (code arg : BitVec 32) (env : Env) : S Int := do
  let m ← .get
  if !(m.ctx index).initialized then return armDriverError
  else if code &&& controlMsk = setFdModeCode then setFdMode index arg env
  else if code &&& controlMsk = abortMessageSendCode then abortMessageSend index arg
  else return armDriverErrorUnsupported

def canMessageSend (index : Fin 2) (objIdx : BitVec 32) (info : Option MsgInfo)
    (data : Option (Nat → BitVec 8)) (size : Nat) (env : Env) : S Int :=
  onIndex index (Cmsis.canMessageSend objIdx info data size env)

def canMessageRead (index : Fin 2) (args : ReadArgs) : S ReadResult :=
  onIndex index (Cmsis.canMessageRead args)

structure ArmDriverVersion : Type where
  api : BitVec 16
  drv : BitVec 16
  deriving DecidableEq

structure ArmCanCapabilities : Type where
  numObjects : BitVec 8
  reentrantOperation : Bool
  fdMode : Bool
  restrictedMode : Bool
  monitorMode : Bool
  internalLoopback : Bool
  externalLoopback : Bool
  deriving DecidableEq

inductive FilterOperation : Type
  | idExactAdd | idExactRemove | idRangeAdd | idRangeRemove | idMaskableAdd | idMaskableRemove
  deriving DecidableEq

inductive ObjConfig : Type
  | inactive | tx | rx | rxRtrTxData | txRtrRxData | other
  deriving DecidableEq

def canGetVersion : S ArmDriverVersion := return ⟨0x103, 0x001⟩

def canGetCapabilities : S ArmCanCapabilities := return ⟨2, false, true, false, true, true, true⟩

def canGetClock (index : Fin 2) : S (BitVec 32) := do
  let m ← .get
  if !(m.ctx index).enabled then return 0 else return (m.ctx index).canClkHz

def canObjectGetCapabilities (index : Fin 2) (objIdx : BitVec 32) : S ObjCapabilities := do
  let m ← .get
  if !(m.ctx index).enabled then return ⟨false, false, 0⟩
  else if objIdx = objTx then return ⟨true, false, 4⟩
  else if objIdx = objRx then return ⟨false, true, 4⟩
  else return ⟨false, false, 0⟩

def canObjectSetFilter (_index : Fin 2) (_objIdx : BitVec 32) (_operation : FilterOperation)
    (_id _arg : BitVec 32) : S Int := return armDriverErrorUnsupported

def canObjectConfigure (_index : Fin 2) (objIdx : BitVec 32) (objCfg : ObjConfig) : S Int :=
  match objCfg with
  | .inactive => return armDriverOk
  | .tx => return if objIdx = objTx then armDriverOk else armDriverErrorUnsupported
  | .rx => return if objIdx = objRx then armDriverOk else armDriverErrorUnsupported
  | _ => return armDriverErrorUnsupported

def canGetStatus (index : Fin 2) : S CanStatus := onIndex index Cmsis.canGetStatus

structure ArmDriverCan : Type where
  getVersion : S ArmDriverVersion
  getCapabilities : S ArmCanCapabilities
  canInitialize : Option Callback → Option Callback → S Int
  canUnInitialize : Env → S Int
  powerControl : PowerState → Env → S Int
  getClock : S (BitVec 32)
  setBitrate : BitrateSelect → BitVec 32 → BitVec 32 → Env → S Int
  setMode : ArmMode → Env → S Int
  objectGetCapabilities : BitVec 32 → S ObjCapabilities
  objectSetFilter : BitVec 32 → FilterOperation → BitVec 32 → BitVec 32 → S Int
  objectConfigure : BitVec 32 → ObjConfig → S Int
  messageSend : BitVec 32 → Option MsgInfo → Option (Nat → BitVec 8) → Nat → Env → S Int
  messageRead : ReadArgs → S ReadResult
  control : BitVec 32 → BitVec 32 → Env → S Int
  getStatus : S CanStatus

def canDriverWrappers (idx : Fin 2) : ArmDriverCan where
  getVersion := canGetVersion
  getCapabilities := canGetCapabilities
  canInitialize := canInitialize idx
  canUnInitialize := canUnInitialize idx
  powerControl := canPowerControl idx
  getClock := canGetClock idx
  setBitrate := canSetBitrate idx
  setMode := canSetMode idx
  objectGetCapabilities := canObjectGetCapabilities idx
  objectSetFilter := canObjectSetFilter idx
  objectConfigure := canObjectConfigure idx
  messageSend := canMessageSend idx
  messageRead := canMessageRead idx
  control := canControl idx
  getStatus := canGetStatus idx

def driverCan1 : ArmDriverCan := canDriverWrappers idx1

def driverCan2 : ArmDriverCan := canDriverWrappers idx2

end CanfdDriver.System
