import CanfdDriver.System.Driver

/-! Every function of one instance mirrors the function of the single channel:
the device map, the switch blocks and the tables all lead to that instance. -/

namespace CanfdDriver.System

open Lib NoraCanfd Cmsis

variable {i : Inst} {α : Type}

abbrev chan (i : Inst) : Focus System Chan := channel i.index i

@[simp] theorem halInst_index (i : Inst) : halInst i.index = i := by cases i <;> rfl

section

variable (c : Chan) (m : System)

@[simp] theorem put_present : ((chan i).put c m).present i = c.present := Function.update_self ..

@[simp] theorem put_ctx : ((chan i).put c m).ctx i.index = c.ctx := Function.update_self ..

@[simp] theorem put_node : ((chan i).put c m).node i = c.node := Function.update_self ..

@[simp] theorem put_mode : ((chan i).put c m).mode i = c.mode := Function.update_self ..

@[simp] theorem put_cb : ((chan i).put c m).cb i = c.isr.cb := Function.update_self ..

@[simp] theorem put_ud : ((chan i).put c m).ud i = c.isr.ud.map fun _ => i.index :=
  Function.update_self ..

@[simp] theorem put_txBusy : ((chan i).put c m).txBusy i = c.isr.txBusy := Function.update_self ..

@[simp] theorem put_irqPriority : ((chan i).put c m).irqPriority i = c.isr.irqPriority :=
  Function.update_self ..

@[simp] theorem put_isrEnabled : ((chan i).put c m).isrEnabled i = c.isr.isrEnabled :=
  Function.update_self ..

@[simp] theorem put_rxFifo : ((chan i).put c m).rxFifo i = c.rxFifo := Function.update_self ..

@[simp] theorem put_trace : ((chan i).put c m).trace i = c.trace := Function.update_self ..

@[simp] theorem put_sfr (r : Reg) : ((chan i).put c m).sfr (canfdDevices i r) = c.regs r := by
  rw [canfdDevices_eq]
  exact storeRegs_self i _ _ r

end

theorem onInst_mirrors (p : M α) : (chan i).Mirrors (onInst i p) p := .lift p

theorem getRegs_bind (i : Inst) (k : Status × (Reg → Sfr) → S α) :
    getRegs i >>= k =
      .get >>= fun m => k (if m.present i then .ok else .notPresent, canfdDevices i) := by
  refine congrArg (Prog.act id) (funext fun m => ?_)
  cases hp : m.present i <;> simp only [Prog.bind, hp] <;> rfl

theorem getRegs_mirrors {k : Status × (Reg → Sfr) → S α} {k' : Status → M α}
    (h : ∀ st, (chan i).Mirrors (k (st, canfdDevices i)) (k' st)) :
    (chan i).Mirrors (getRegs i >>= k) (NoraCanfd.getRegs >>= k') := by
  rw [getRegs_bind]
  refine .get_bind fun m c => ?_
  rw [put_present]
  exact h _

theorem setReg_put (c : Chan) (m : System) (r : Reg) (v : BitVec 32) :
    { (chan i).put c m with sfr := Function.update ((chan i).put c m).sfr (canfdDevices i r) v } =
      (chan i).put (c.setReg r v) m := by
  apply System.ext
  case sfr => exact storeRegs_update i _ _ r v
  all_goals rfl

theorem regSet_mirrors (r : Reg) (mask : BitVec 32) :
    (chan i).Mirrors (regSet (canfdDevices i r) mask) (NoraCanfd.regSet r mask) := by
  refine .modify fun m c => ?_
  rw [put_sfr]
  exact setReg_put c m r _

theorem regClear_mirrors (r : Reg) (mask : BitVec 32) :
    (chan i).Mirrors (regClear (canfdDevices i r) mask) (NoraCanfd.regClear r mask) := by
  refine .modify fun m c => ?_
  rw [put_sfr]
  exact setReg_put c m r _

theorem onRx_mirrors (f : Line → Line) : (chan i).Mirrors (onLine i.rx f) (onRx f) := by
  refine .modify fun m c => System.ext rfl rfl rfl rfl rfl rfl rfl rfl rfl rfl rfl ?_ rfl rfl rfl rfl
  funext x
  cases i <;> cases x <;> rfl

theorem onTx_mirrors (f : Line → Line) : (chan i).Mirrors (onLine i.tx f) (onTx f) := by
  refine .modify fun m c => System.ext rfl rfl rfl rfl rfl rfl rfl rfl rfl rfl rfl ?_ rfl rfl rfl rfl
  funext x
  cases i <;> cases x <;> rfl

theorem onGen_mirrors (f : Line → Line) : (chan i).Mirrors (onLine i.gen f) (onGen f) := by
  refine .modify fun m c => System.ext rfl rfl rfl rfl rfl rfl rfl rfl rfl rfl rfl ?_ rfl rfl rfl rfl
  funext x
  cases i <;> cases x <;> rfl

theorem setIrqPriority_mirrors (priority : BitVec 8) :
    (chan i).Mirrors (setIrqPriority i priority)
      (.modify fun c => c.setIsr { c.isr with irqPriority := priority }) := by
  refine .modify fun m c => System.ext rfl rfl rfl rfl rfl rfl rfl rfl ?_ rfl rfl rfl rfl rfl rfl rfl
  exact Function.update_idem ..

theorem irqLineEnable_eq (i : Inst) (priority : BitVec 8) :
    irqLineEnable i priority = (do
      setIrqPriority i priority
      onLine i.rx clearLineFlag
      onLine i.rx (setLinePriority · priority)
      onLine i.rx (setLineEnable · true)
      onLine i.gen clearLineFlag
      onLine i.gen (setLinePriority · priority)
      onLine i.gen (setLineEnable · true)) := by
  cases i <;> rfl

theorem irqLineDisable_eq (i : Inst) :
    irqLineDisable i = (do
      onLine i.rx (setLineEnable · false)
      onLine i.rx clearLineFlag
      onLine i.tx (setLineEnable · false)
      onLine i.tx clearLineFlag
      onLine i.gen (setLineEnable · false)
      onLine i.gen clearLineFlag) := by
  cases i <;> rfl

theorem irqLineClear_eq (i : Inst) :
    irqLineClear i = (do
      onLine i.rx clearLineFlag
      onLine i.tx clearLineFlag
      onLine i.gen clearLineFlag) := by
  cases i <;> rfl

theorem irqTxLineEnable_eq (i : Inst) :
    irqTxLineEnable i = (do
      onLine i.tx clearLineFlag
      let m ← .get
      onLine i.tx (setLinePriority · (m.irqPriority i))
      onLine i.tx (setLineEnable · true)) := by
  cases i <;> rfl

theorem irqTxLineDisable_eq (i : Inst) :
    irqTxLineDisable i = (do
      onLine i.tx (setLineEnable · false)
      onLine i.tx clearLineFlag) := by
  cases i <;> rfl

theorem irqLineEnable_mirrors (priority : BitVec 8) :
    (chan i).Mirrors (irqLineEnable i priority) (NoraCanfd.irqLineEnable priority) := by
  rw [irqLineEnable_eq]
  refine .bind (setIrqPriority_mirrors priority) fun _ => ?_
  refine .bind (onRx_mirrors _) fun _ => .bind (onRx_mirrors _) fun _ => .bind (onRx_mirrors _) ?_
  exact fun _ => .bind (onGen_mirrors _) fun _ => .bind (onGen_mirrors _) fun _ => onGen_mirrors _

theorem irqLineDisable_mirrors :
    (chan i).Mirrors (irqLineDisable i) NoraCanfd.irqLineDisable := by
  rw [irqLineDisable_eq]
  refine .bind (onRx_mirrors _) fun _ => .bind (onRx_mirrors _) fun _ => .bind (onTx_mirrors _) ?_
  exact fun _ => .bind (onTx_mirrors _) fun _ => .bind (onGen_mirrors _) fun _ => onGen_mirrors _

theorem irqLineClear_mirrors : (chan i).Mirrors (irqLineClear i) NoraCanfd.irqLineClear := by
  rw [irqLineClear_eq]
  exact .bind (onRx_mirrors _) fun _ => .bind (onTx_mirrors _) fun _ => onGen_mirrors _

theorem irqTxLineEnable_mirrors :
    (chan i).Mirrors (irqTxLineEnable i) NoraCanfd.irqTxLineEnable := by
  rw [irqTxLineEnable_eq]
  refine .bind (onTx_mirrors _) fun _ => .get_bind fun m c => ?_
  rw [put_irqPriority]
  exact .bind (onTx_mirrors _) fun _ => onTx_mirrors _

theorem irqTxLineDisable_mirrors :
    (chan i).Mirrors (irqTxLineDisable i) NoraCanfd.irqTxLineDisable := by
  rw [irqTxLineDisable_eq]
  exact .bind (onTx_mirrors _) fun _ => onTx_mirrors _

theorem setTxBusy_mirrors (b : Bool) :
    (chan i).Mirrors (setTxBusy i b) (NoraCanfd.setTxBusy b) := by
  refine .modify fun m c => System.ext rfl rfl rfl rfl rfl rfl rfl ?_ rfl rfl rfl rfl rfl rfl rfl rfl
  exact Function.update_idem ..

theorem setIsrEnabled_mirrors (b : Bool) :
    (chan i).Mirrors (setIsrEnabled i b) (NoraCanfd.setIsrEnabled b) := by
  refine .modify fun m c => System.ext rfl rfl rfl rfl rfl rfl rfl rfl rfl ?_ rfl rfl rfl rfl rfl rfl
  exact Function.update_idem ..

theorem isrSetCallback_mirrors (callback : Option EventCallback) (userData : Option UserData) :
    (chan i).Mirrors (isrSetCallback i callback (userData.map fun _ => i.index))
      (NoraCanfd.isrSetCallback callback userData) := by
  refine .bind (.modify fun m c => ?_) fun _ => .bind (.modify fun m c => ?_) fun _ => .pure _
  · refine System.ext rfl rfl rfl rfl rfl ?_ rfl rfl rfl rfl rfl rfl rfl rfl rfl rfl
    exact Function.update_idem ..
  · refine System.ext rfl rfl rfl rfl rfl rfl ?_ rfl rfl rfl rfl rfl rfl rfl rfl rfl
    exact Function.update_idem ..

theorem isrEnable_mirrors (priority : BitVec 8) :
    (chan i).Mirrors (isrEnable i priority) (NoraCanfd.isrEnable priority) := by
  refine .ite Iff.rfl (.pure _) (getRegs_mirrors fun _ => .ite Iff.rfl (.pure _) ?_)
  refine .get_bind fun m c => .ite ?_ (.pure _) ?_
  · rw [put_mode, NoraCanfd.isInitialized]
  · refine .bind (regSet_mirrors _ _) fun _ => .bind (regSet_mirrors _ _) fun _ => ?_
    refine .bind (setTxBusy_mirrors _) fun _ => .bind (irqLineEnable_mirrors _) fun _ => ?_
    exact .bind (setIsrEnabled_mirrors _) fun _ => .pure _

theorem isPresent_mirrors :
    (chan i).Mirrors (isPresent i) (.get >>= fun c => pure c.present) := by
  refine .get_bind fun m c => ?_
  rw [put_present]
  cases c.present <;> exact .pure _

theorem getDevice_mirrors : (chan i).Mirrors (getDevice i)
    (.get >>= fun c => pure (if c.present then some (canfdDevices i) else none)) := by
  refine .get_bind fun m c => ?_
  rw [put_present]
  exact .pure _

theorem regs_mirrors : (chan i).Mirrors (getRegs i)
    (.get >>= fun c => pure (if c.present then .ok else .notPresent, canfdDevices i)) := by
  refine .get_bind fun m c => ?_
  rw [put_present]
  cases c.present <;> exact .pure _

theorem getMode_mirrors :
    (chan i).Mirrors (getMode i) (.get >>= fun c => pure c.mode) := by
  refine .get_bind fun m c => ?_
  rw [put_mode]
  exact .pure _

theorem setMode_mirrors (mode : Mode) :
    (chan i).Mirrors (setMode i mode) (NoraCanfd.setMode mode) := by
  refine .modify fun m c => System.ext rfl rfl rfl rfl ?_ rfl rfl rfl rfl rfl rfl rfl rfl rfl rfl rfl
  exact Function.update_idem ..

theorem isInitialized_mirrors :
    (chan i).Mirrors (isInitialized i) (.get >>= fun c => pure (NoraCanfd.isInitialized c)) := by
  refine .get_bind fun m c => ?_
  rw [put_mode]
  exact .pure _

theorem txIsBusy_mirrors :
    (chan i).Mirrors (txIsBusy i) (.get >>= fun c => pure (NoraCanfd.txIsBusy c)) := by
  refine .get_bind fun m c => ?_
  rw [put_txBusy]
  exact .pure _

theorem isrDisable_mirrors : (chan i).Mirrors (isrDisable i) NoraCanfd.isrDisable := by
  refine getRegs_mirrors fun _ => .ite Iff.rfl (.pure _) (.bind (setIsrEnabled_mirrors _) fun _ => ?_)
  refine .bind irqLineDisable_mirrors fun _ => .bind (regClear_mirrors _ _) fun _ => ?_
  refine .bind (regClear_mirrors _ _) fun _ => .bind (regClear_mirrors _ _) fun _ => ?_
  exact .bind (setTxBusy_mirrors _) fun _ => .pure _

theorem txStart_mirrors (frame : Option Frame) (room : Poll) :
    (chan i).Mirrors (txStart i frame room) (NoraCanfd.txStart frame room) := by
  refine getRegs_mirrors fun _ => .ite Iff.rfl (.pure _) (.get_bind fun m c => .ite ?_ (.pure _) ?_)
  · rw [put_isrEnabled]
  · refine .bind (onInst_mirrors _) fun _ => .ite Iff.rfl (.pure _) (.bind (setTxBusy_mirrors _) ?_)
    refine fun _ => .bind (regSet_mirrors _ _) fun _ => .bind (regSet_mirrors _ _) fun _ => ?_
    exact .bind irqTxLineEnable_mirrors fun _ => .pure _

theorem txDisarm_mirrors :
    (chan i).Mirrors (txDisarm i (canfdDevices i)) NoraCanfd.txDisarm := by
  refine .bind (regClear_mirrors _ _) fun _ => .bind (regClear_mirrors _ _) fun _ => ?_
  exact .bind irqTxLineDisable_mirrors fun _ => setTxBusy_mirrors _

theorem txAbort_mirrors : (chan i).Mirrors (txAbort i) NoraCanfd.txAbort :=
  getRegs_mirrors fun _ => .ite Iff.rfl (.pure _) (.bind txDisarm_mirrors fun _ => .pure _)

theorem irqHandler_mirrors
    {callback : EventCallback → Inst → BitVec 32 → Option (Fin 2) → S Unit}
    {callback' : EventCallback → BitVec 32 → Option UserData → M Unit}
    (h : ∀ f events ud, (chan i).Mirrors (callback f i events (ud.map fun _ => i.index))
      (callback' f events ud)) :
    (chan i).Mirrors (irqHandler callback i) (NoraCanfd.irqHandler callback') := by
  refine getRegs_mirrors fun _ => .ite Iff.rfl irqLineClear_mirrors (.get_bind fun m c => ?_)
  simp only [put_sfr]
  refine .bind (.ite Iff.rfl (regClear_mirrors _ _) (.pure _)) fun _ => .get_bind fun m c => ?_
  simp only [put_sfr]
  refine .bind (.ite Iff.rfl txDisarm_mirrors (.pure _)) fun _ => ?_
  refine .bind (regClear_mirrors _ _) fun _ => .get_bind fun m c => .get_bind fun m' d => ?_
  simp only [put_sfr, put_cb, put_ud]
  refine .bind ?_ fun _ => irqLineClear_mirrors
  cases d.isr.cb with
  | none => exact .pure _
  | some f => exact .ite Iff.rfl (h _ _ _) (.pure _)

theorem clearRxOverflow_mirrors :
    (chan i).Mirrors (clearRxOverflow i) NoraCanfd.clearRxOverflow :=
  getRegs_mirrors fun _ => .ite Iff.rfl (.pure _) (.bind (regClear_mirrors _ _) fun _ => .pure _)

theorem onIndex_mirrors (p : M α) : (chan i).Mirrors (onIndex i.index p) p := by
  rw [onIndex, halInst_index]
  exact .lift p

theorem onCtx_mirrors (f : Context → Context) :
    (chan i).Mirrors (onCtx i.index f) (Cmsis.onCtx f) := by
  refine .modify fun m c => ?_
  rw [put_ctx]
  refine System.ext rfl rfl ?_ rfl rfl rfl rfl rfl rfl rfl rfl rfl rfl rfl rfl rfl
  exact Function.update_idem ..

theorem eventCallback_mirrors (f : Frame) (cb : EventCallback) (events : BitVec 32)
    (ud : Option UserData) :
    (chan i).Mirrors (eventCallback f cb i events (ud.map fun _ => i.index))
      (eventCallbackFrom ramPort (fun _ => []) f cb events ud) := by
  cases cb with
  | application => exact .pure _
  | canHalEvent =>
    cases ud with
    | none => exact .pure _
    | some ud => exact .lift _

theorem handler_mirrors (f : Frame) :
    (chan i).Mirrors (handler f i) (handlerFrom ramPort (fun _ => []) f) :=
  irqHandler_mirrors fun _ _ _ => eventCallback_mirrors _ _ _ _

variable {env : Env}

theorem armEvents_mirrors (mode : Mode) :
    (chan i).Mirrors (armEvents i.index mode env) (Cmsis.armEvents mode env) := by
  rw [armEvents, halInst_index]
  refine .bind (isrSetCallback_mirrors _ (some .ctx)) fun _ => .get_bind fun m c => ?_
  rw [put_ctx]
  refine .bind (isrEnable_mirrors _) fun _ => .ite Iff.rfl ?_ ?_
  · exact .bind (isrSetCallback_mirrors _ none) fun _ => .bind (onInst_mirrors _) fun _ => .pure _
  · exact .bind (onCtx_mirrors _) fun _ => .pure _

theorem canApplyInit_mirrors (mode : Mode) :
    (chan i).Mirrors (canApplyInit i.index mode env) (Cmsis.canApplyInit mode env) := by
  rw [canApplyInit, halInst_index]
  refine .bind isrDisable_mirrors fun _ => .bind (isrSetCallback_mirrors _ none) fun _ => ?_
  refine .get_bind fun m c => ?_
  rw [put_ctx]
  exact .bind (onInst_mirrors _) fun _ => .ite Iff.rfl (.pure _) (armEvents_mirrors _)

theorem applyFull_mirrors :
    (chan i).Mirrors (applyFull i.index env) (Cmsis.applyFull env) := by
  refine .get_bind fun m c => ?_
  rw [put_ctx]
  refine .bind (canApplyInit_mirrors _) fun _ => .ite Iff.rfl (.pure _) ?_
  exact .bind (onCtx_mirrors _) fun _ => .pure _

theorem powerFull_mirrors :
    (chan i).Mirrors (powerFull i.index env) (Cmsis.powerFull env) := by
  refine .get_bind fun m c => ?_
  rw [put_ctx]
  refine .ite Iff.rfl (.pure _) (.bind (onCtx_mirrors _) fun _ => .bind (onCtx_mirrors _) fun _ => ?_)
  exact applyFull_mirrors

theorem powerOff_mirrors : (chan i).Mirrors (powerOff i.index env) (Cmsis.powerOff env) := by
  rw [powerOff, halInst_index]
  refine .get_bind fun m c => ?_
  rw [put_ctx]
  refine .bind (.ite Iff.rfl ?_ (.pure _)) fun _ => .bind (onCtx_mirrors _) fun _ => .pure _
  exact .bind isrDisable_mirrors fun _ => .bind (isrSetCallback_mirrors _ none) fun _ =>
    .bind (onInst_mirrors _) fun _ => .pure _

theorem canPowerControl_mirrors (state : PowerState) :
    (chan i).Mirrors (canPowerControl i.index state env) (Cmsis.canPowerControl state env) := by
  refine .get_bind fun m c => ?_
  rw [put_ctx]
  refine .ite Iff.rfl (.pure _) ?_
  cases state with
  | full => exact powerFull_mirrors
  | off => exact powerOff_mirrors
  | low => exact .pure _
  | other => exact .pure _

theorem canUnInitialize_mirrors :
    (chan i).Mirrors (canUnInitialize i.index env) (Cmsis.canUnInitialize env) := by
  refine .get_bind fun m c => ?_
  rw [put_ctx]
  refine .bind (.ite Iff.rfl (.bind (canPowerControl_mirrors _) fun _ => .pure _) (.pure _)) ?_
  refine fun _ => .bind (onCtx_mirrors _) fun _ => .bind (onCtx_mirrors _) fun _ => ?_
  exact .bind (onCtx_mirrors _) fun _ => .pure _

theorem changeMode_mirrors (halMode : Mode) :
    (chan i).Mirrors (changeMode i.index halMode env) (Cmsis.changeMode halMode env) := by
  refine .get_bind fun m c => ?_
  rw [put_ctx]
  exact .ite Iff.rfl (.pure _) (.ite Iff.rfl (.pure _) (canApplyInit_mirrors _))

theorem canSetMode_mirrors (mode : ArmMode) :
    (chan i).Mirrors (canSetMode i.index mode env) (Cmsis.canSetMode mode env) := by
  refine .get_bind fun m c => ?_
  rw [put_ctx]
  refine .ite Iff.rfl (.pure _) (.ite Iff.rfl (.pure _) ?_)
  cases canMapMode mode with
  | none => exact .pure _
  | some mapped =>
    refine .get_bind fun m c => ?_
    rw [put_ctx]
    exact changeMode_mirrors _

theorem setFdMode_mirrors (arg : BitVec 32) :
    (chan i).Mirrors (setFdMode i.index arg env) (Cmsis.setFdMode arg env) := by
  refine .ite Iff.rfl (.pure _) (.bind (onCtx_mirrors _) fun _ => .get_bind fun m c => ?_)
  rw [put_ctx]
  refine .ite Iff.rfl (.get_bind fun m c => ?_) (.pure _)
  rw [put_ctx]
  exact canApplyInit_mirrors _

theorem abortMessageSend_mirrors (arg : BitVec 32) :
    (chan i).Mirrors (abortMessageSend i.index arg) (Cmsis.abortMessageSend arg) := by
  rw [abortMessageSend, halInst_index]
  refine .get_bind fun m c => ?_
  rw [put_ctx]
  exact .ite Iff.rfl (.pure _) (.ite Iff.rfl (.pure _) (.bind txAbort_mirrors fun _ => .pure _))

theorem canControl_mirrors (code arg : BitVec 32) :
    (chan i).Mirrors (canControl i.index code arg env) (Cmsis.canControl code arg env) := by
  refine .get_bind fun m c => ?_
  rw [put_ctx]
  exact .ite Iff.rfl (.pure _) <| .ite Iff.rfl (setFdMode_mirrors _) <|
    .ite Iff.rfl (abortMessageSend_mirrors _) (.pure _)

theorem canGetClock_mirrors :
    (chan i).Mirrors (canGetClock i.index) (.get >>= fun c => pure (Cmsis.canGetClock c)) := by
  refine .get_bind fun m c => ?_
  rw [put_ctx, Cmsis.canGetClock]
  cases c.ctx.enabled <;> exact .pure _

theorem canObjectGetCapabilities_mirrors (objIdx : BitVec 32) :
    (chan i).Mirrors (canObjectGetCapabilities i.index objIdx)
      (.get >>= fun c => pure (Cmsis.canObjectGetCapabilities c objIdx)) := by
  refine .get_bind fun m c => ?_
  rw [put_ctx, Cmsis.canObjectGetCapabilities]
  cases c.ctx.enabled with
  | false => exact .pure _
  | true =>
    simp only [Bool.not_true, Bool.false_eq_true, if_false]
    by_cases htx : objIdx = objTx
    · rw [if_pos htx, if_pos htx]
      exact .pure _
    · rw [if_neg htx, if_neg htx]
      by_cases hrx : objIdx = objRx
      · rw [if_pos hrx, if_pos hrx]
        exact .pure _
      · rw [if_neg hrx, if_neg hrx]
        exact .pure _

end CanfdDriver.System
