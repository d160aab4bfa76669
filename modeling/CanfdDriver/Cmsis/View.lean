import CanfdDriver.Cmsis.Run
import CanfdDriver.Lib.Oblivious

/-! The calls of the driver see some of the state, and go on alike wherever
what they see is the same: they read no register, and only `MessageRead` reads
the ring. -/

namespace CanfdDriver

open Lib NoraCanfd Cmsis

structure View : Type where
  bits : Reg → BitVec 32
  ring : Bool

def View.software : View := ⟨fun _ => 0, true⟩

/-- The state without the FIFO, the message RAM, what no call of the thread reads, and the rest of
the registers and perhaps the ring. -/
def Chan.view (v : View) (c : Chan) : Chan where
  present := c.present
  ctx := { c.ctx with rx := bif v.ring then c.ctx.rx else .empty zeroFrame }
  node := c.node
  mode := c.mode
  isr := { c.isr with txBusy := false }
  irq :=
    { rx := clearLineFlag c.irq.rx
      tx := ⟨false, false, c.irq.tx.priority⟩
      gen := clearLineFlag c.irq.gen }
  regs := fun r => c.regs r &&& v.bits r
  ram := fun _ => 0
  rxFifo := []
  trace := []

variable {v : View}

theorem view_regs {c d : Chan} (h : c.view v = d.view v) (r : Reg) :
    c.regs r &&& v.bits r = d.regs r &&& v.bits r := congrFun (congrArg Chan.regs h) r

theorem view_setReg {c d : Chan} {r : Reg} {x y : BitVec 32} (h : c.view v = d.view v)
    (hxy : x &&& v.bits r = y &&& v.bits r) : (c.setReg r x).view v = (d.setReg r y).view v := by
  have hset (c : Chan) (x : BitVec 32) : (c.setReg r x).view v = (c.view v).setReg r (x &&& v.bits r) := by
    refine Chan.ext rfl rfl rfl rfl rfl rfl (funext fun r' => ?_) rfl rfl rfl
    obtain rfl | hne := eq_or_ne r' r
    · simp [Chan.view]
    · simp [Chan.view, Function.update_of_ne hne]
  rw [hset, hset, h, hxy]

theorem and_and_view {x y k : BitVec 32} (m : BitVec 32) (h : x &&& k = y &&& k) :
    x &&& m &&& k = y &&& m &&& k := by
  rw [BitVec.and_assoc, BitVec.and_comm m, ← BitVec.and_assoc, h, BitVec.and_assoc, BitVec.and_comm k,
    BitVec.and_assoc]

theorem or_and_view {x y k : BitVec 32} (m : BitVec 32) (h : x &&& k = y &&& k) :
    (x ||| m) &&& k = (y ||| m) &&& k := by
  rw [BitVec.and_comm, BitVec.and_or_distrib_left, BitVec.and_comm k, h, BitVec.and_comm y,
    ← BitVec.and_or_distrib_left, BitVec.and_comm]

/-- The program sees no more than the view. -/
abbrev Unseeing (v : View) {α : Type} (p : M α) : Prop := Prog.Oblivious (Chan.view v) p

namespace NoraCanfd

theorem regSet_unseeing (r : Reg) (m : BitVec 32) : Unseeing v (regSet r m) :=
  .modify fun _ _ h => view_setReg h (or_and_view m (view_regs h r))

theorem regClear_unseeing (r : Reg) (m : BitVec 32) : Unseeing v (regClear r m) :=
  .modify fun _ _ h => view_setReg h (and_and_view _ (view_regs h r))

theorem regWrite_unseeing (r : Reg) (x : BitVec 32) : Unseeing v (regWrite r x) :=
  .modify fun _ _ h => view_setReg h rfl

theorem regWriteField_unseeing (r : Reg) (mask value : BitVec 32) :
    Unseeing v (regWriteField r mask value) :=
  .modify fun _ _ h => view_setReg h (or_and_view _ (and_and_view _ (view_regs h r)))

theorem getRegs_unseeing : Unseeing v getRegs := .get_bind (fun _ => rfl) fun _ => .pure _

theorem setMode_unseeing (mode : Mode) : Unseeing v (setMode mode) := .modify_view fun _ => rfl

theorem pollUntil_unseeing (done : BitVec 32 → Bool) (start : BitVec 32) (xs : List Sample) :
    Unseeing v (pollUntil done start xs) := by
  induction xs with
  | nil => exact .fail _
  | cons x xs ih => exact .ite (.pure _) (.get_bind (fun _ => rfl) fun _ => .ite (.pure _) ih)

theorem startTick_unseeing (p : Poll) : Unseeing v (startTick p) :=
  .get_bind (fun _ => rfl) fun _ => .pure _

theorem requestMode_unseeing (reqop : BitVec 8) (p : Poll) : Unseeing v (requestMode reqop p) :=
  .bind (startTick_unseeing _) fun _ => .bind (regWriteField_unseeing _ _ _) fun _ =>
    pollUntil_unseeing _ _ _

theorem waitFlag_unseeing (mask : BitVec 32) (p : Poll) : Unseeing v (waitFlag mask p) :=
  .bind (startTick_unseeing _) fun _ => pollUntil_unseeing _ _ _

theorem solved_unseeing (x : Except Stop (Option BitTiming)) : Unseeing v (solved x) := by
  cases x with
  | error e => exact .fail _
  | ok t => exact .pure _

theorem writeBitTiming_unseeing (t : BitTiming) : Unseeing v (writeBitTiming t) :=
  .bind (regWrite_unseeing _ _) fun _ => .bind (regWrite_unseeing _ _) fun _ => regWrite_unseeing _ _

theorem configure_unseeing (cfg : Config) (t : BitTiming) : Unseeing v (configure cfg t) := by
  refine .bind (regClear_unseeing _ _) fun _ => .bind (regSet_unseeing _ _) fun _ => ?_
  refine .bind (.ite (regClear_unseeing _ _) (regSet_unseeing _ _)) fun _ => ?_
  refine .bind (regClear_unseeing _ _) fun _ => .bind (regSet_unseeing _ _) fun _ => ?_
  refine .bind (writeBitTiming_unseeing _) fun _ => .bind (regWrite_unseeing _ _) fun _ => ?_
  refine .bind (regWrite_unseeing _ _) fun _ => .bind (regWrite_unseeing _ _) fun _ => ?_
  exact .bind (regWrite_unseeing _ _) fun _ => .bind (regWrite_unseeing _ _) fun _ =>
    regWrite_unseeing _ _

theorem bringUp_unseeing (cfg : Config) (t : BitTiming) (toConfig toMode : Poll) :
    Unseeing v (bringUp cfg t toConfig toMode) := by
  refine .bind (.modify_view fun _ => rfl) fun _ => .bind (.modify_view fun _ => rfl) fun _ => ?_
  refine .bind (.modify_view fun _ => rfl) fun _ => .bind (setMode_unseeing _) fun _ => ?_
  refine .bind (regSet_unseeing _ _) fun _ => .bind (requestMode_unseeing _ _) fun _ => ?_
  refine .ite (.bind (regClear_unseeing _ _) fun _ => .pure _) ?_
  refine .bind (configure_unseeing _ _) fun _ => .bind (requestMode_unseeing _ _) fun _ => ?_
  refine .ite (.bind (regClear_unseeing _ _) fun _ => .pure _) ?_
  exact .bind (setMode_unseeing _) fun _ => .bind (.modify_view fun _ => rfl) fun _ => .pure _

theorem init_unseeing (config : Option Config) (toConfig toMode : Poll) :
    Unseeing v (init config toConfig toMode) := by
  cases config with
  | none => exact .pure _
  | some cfg =>
    refine .ite (.pure _) (.ite (.pure _) (.ite (.pure _) (.ite (.pure _) ?_)))
    refine .bind getRegs_unseeing fun _ => .ite (.pure _) (.bind (solved_unseeing _) fun t => ?_)
    cases t with
    | none => exact .pure _
    | some t => exact bringUp_unseeing _ _ _ _

theorem retime_unseeing (t : BitTiming) (toConfig toMode : Poll) :
    Unseeing v (retime t toConfig toMode) :=
  .get_bind (fun _ => rfl) fun _ => .bind (requestMode_unseeing _ _) fun _ =>
    .ite (.pure _) (.bind (writeBitTiming_unseeing _) fun _ => requestMode_unseeing _ _)

theorem setBitrate_unseeing (canClkHz nominalBps dataBps : BitVec 32) (samplePct : BitVec 8)
    (toConfig toMode : Poll) :
    Unseeing v (setBitrate canClkHz nominalBps dataBps samplePct toConfig toMode) := by
  refine .ite (.pure _) (.bind getRegs_unseeing fun _ => .ite (.pure _) ?_)
  refine .get_bind (fun _ => rfl) fun _ => .ite (.pure _) (.bind (solved_unseeing _) fun t => ?_)
  cases t with
  | none => exact .pure _
  | some t => exact retime_unseeing _ _ _

theorem deinit_unseeing (toOff : Poll) : Unseeing v (deinit toOff) := by
  refine .bind getRegs_unseeing fun _ => .ite (.pure _) (.get_bind (fun _ => rfl) fun _ => .ite ?_ ?_)
  · exact .bind (.modify_view fun _ => rfl) fun _ => .pure _
  · refine .bind (requestMode_unseeing _ _) fun _ => .bind (regClear_unseeing _ _) fun _ => ?_
    exact .bind (.modify_view fun _ => rfl) fun _ => .bind (setMode_unseeing _) fun _ => .pure _

theorem writePayload_unseeing (obj obj' : BitVec 32) (f : Frame) (n : Nat) :
    Prog.Lockstep (fun s t => s.view v = t.view v) (writePayload obj f n) (writePayload obj' f n) := by
  induction n with
  | zero => exact .pure _
  | succ n ih => exact .bind ih fun _ => .modify fun _ _ h => h

theorem transmit_unseeing (frame : Option Frame) (room : Poll) : Unseeing v (transmit frame room) := by
  cases frame with
  | none => exact .pure _
  | some f =>
    refine .ite (.pure _) (.ite (.pure _) (.get_bind (fun _ => rfl) fun _ => .ite (.pure _) ?_))
    refine .bind (waitFlag_unseeing _ _) fun _ => .ite (.pure _) (Prog.Lockstep.get_bind fun s t hst => ?_)
    refine .bind (.modify fun _ _ h => h) fun _ => .bind (.modify fun _ _ h => h) fun _ => ?_
    refine .bind (writePayload_unseeing _ _ _ _) fun _ => .bind (.modify fun _ _ h => h) fun _ => ?_
    refine .bind ?_ fun _ => .pure _
    exact .modify fun _ _ h => view_setReg h (or_and_view _ (view_regs h _))

theorem onRx_unseeing {f : Line → Line} (hf : ∀ l, clearLineFlag (f l) = f (clearLineFlag l)) :
    Unseeing v (onRx f) :=
  .modify_view fun c => Chan.ext rfl rfl rfl rfl rfl (by simp [Chan.view, hf]) rfl rfl rfl rfl

theorem onGen_unseeing {f : Line → Line} (hf : ∀ l, clearLineFlag (f l) = f (clearLineFlag l)) :
    Unseeing v (onGen f) :=
  .modify_view fun c => Chan.ext rfl rfl rfl rfl rfl (by simp [Chan.view, hf]) rfl rfl rfl rfl

theorem onTx_unseeing {f : Line → Line} (hf : ∀ l, (f l).priority = l.priority) :
    Unseeing v (onTx f) :=
  .modify_unseen fun c => Chan.ext rfl rfl rfl rfl rfl (by simp [Chan.view, hf]) rfl rfl rfl rfl

theorem irqLineEnable_unseeing (priority : BitVec 8) : Unseeing v (irqLineEnable priority) := by
  refine .bind (.modify_view fun _ => rfl) fun _ => .bind (onRx_unseeing fun _ => rfl) fun _ => ?_
  refine .bind (onRx_unseeing fun _ => rfl) fun _ => .bind (onRx_unseeing fun _ => rfl) fun _ => ?_
  refine .bind (onGen_unseeing fun _ => rfl) fun _ => ?_
  exact .bind (onGen_unseeing fun _ => rfl) fun _ => onGen_unseeing fun _ => rfl

theorem irqLineDisable_unseeing : Unseeing v irqLineDisable := by
  refine .bind (onRx_unseeing fun _ => rfl) fun _ => .bind (onRx_unseeing fun _ => rfl) fun _ => ?_
  refine .bind (onTx_unseeing fun _ => rfl) fun _ => .bind (onTx_unseeing fun _ => rfl) fun _ => ?_
  exact .bind (onGen_unseeing fun _ => rfl) fun _ => onGen_unseeing fun _ => rfl

theorem setTxBusy_unseeing (b : Bool) : Unseeing v (setTxBusy b) := .modify_unseen fun _ => rfl

theorem setIsrEnabled_unseeing (b : Bool) : Unseeing v (setIsrEnabled b) := .modify_view fun _ => rfl

theorem isrSetCallback_unseeing (callback : Option EventCallback) (userData : Option UserData) :
    Unseeing v (isrSetCallback callback userData) :=
  .bind (.modify_view fun _ => rfl) fun _ => .bind (.modify_view fun _ => rfl) fun _ => .pure _

theorem isrEnable_unseeing (priority : BitVec 8) : Unseeing v (isrEnable priority) := by
  refine .ite (.pure _) (.bind getRegs_unseeing fun _ => .ite (.pure _) ?_)
  refine .get_bind (fun _ => rfl) fun _ => .ite (.pure _) (.bind (regSet_unseeing _ _) fun _ => ?_)
  refine .bind (regSet_unseeing _ _) fun _ => .bind (setTxBusy_unseeing _) fun _ => ?_
  exact .bind (irqLineEnable_unseeing _) fun _ => .bind (setIsrEnabled_unseeing _) fun _ => .pure _

theorem isrDisable_unseeing : Unseeing v isrDisable := by
  refine .bind getRegs_unseeing fun _ => .ite (.pure _) (.bind (setIsrEnabled_unseeing _) fun _ => ?_)
  refine .bind irqLineDisable_unseeing fun _ => .bind (regClear_unseeing _ _) fun _ => ?_
  refine .bind (regClear_unseeing _ _) fun _ => .bind (regClear_unseeing _ _) fun _ => ?_
  exact .bind (setTxBusy_unseeing _) fun _ => .pure _

theorem txAbort_unseeing : Unseeing v txAbort := by
  refine .bind getRegs_unseeing fun _ => .ite (.pure _) (.bind ?_ fun _ => .pure _)
  refine .bind (regClear_unseeing _ _) fun _ => .bind (regClear_unseeing _ _) fun _ => ?_
  refine .bind (.bind (onTx_unseeing fun _ => rfl) fun _ => onTx_unseeing fun _ => rfl) fun _ => ?_
  exact setTxBusy_unseeing _

end NoraCanfd

namespace Cmsis

variable {env : Env}

theorem onCtx_unseeing {f : Context → Context}
    (hf : ∀ x rx, f { x with rx := rx } = { f x with rx := rx }) : Unseeing v (onCtx f) := by
  have hrx (x : Context) : (f x).rx = x.rx := by
    have h : f x = { f x with rx := x.rx } := hf x x.rx
    rw [h]
  refine .modify_view fun c => Chan.ext rfl ?_ rfl rfl rfl rfl rfl rfl rfl rfl
  change { f c.ctx with rx := bif v.ring then (f c.ctx).rx else .empty zeroFrame } =
    f { c.ctx with rx := bif v.ring then c.ctx.rx else .empty zeroFrame }
  rw [hrx]
  exact (hf c.ctx _).symm

theorem onCtx_rx_unseeing (g : Ring 7 Frame → Ring 7 Frame) :
    Unseeing v (onCtx fun x => { x with rx := g x.rx }) := by
  refine .modify fun s t h => ?_
  have hctx := congrArg Chan.ctx h
  have hrx : (bif v.ring then g s.ctx.rx else .empty zeroFrame) =
      bif v.ring then g t.ctx.rx else .empty zeroFrame := by
    cases hv : v.ring with
    | false => rfl
    | true =>
      have hseen := congrArg Context.rx hctx
      simp only [Chan.view, hv, cond_true] at hseen ⊢
      rw [hseen]
  have hview (c : Chan) : (c.setCtx { c.ctx with rx := g c.ctx.rx }).view v = (c.view v).setCtx
      { (c.view v).ctx with rx := bif v.ring then g c.ctx.rx else .empty zeroFrame } := rfl
  rw [hview, hview, h, hrx]

theorem armEvents_unseeing (mode : Mode) : Unseeing v (armEvents mode env) := by
  refine .bind (isrSetCallback_unseeing _ _) fun _ => .get_bind (fun _ => rfl) fun _ => ?_
  refine .bind (isrEnable_unseeing _) fun _ => .ite ?_ ?_
  · exact .bind (isrSetCallback_unseeing _ _) fun _ => .bind (deinit_unseeing _) fun _ => .pure _
  · exact .bind (onCtx_unseeing fun _ _ => rfl) fun _ => .pure _

theorem canApplyInit_unseeing (mode : Mode) : Unseeing v (canApplyInit mode env) :=
  .bind isrDisable_unseeing fun _ => .bind (isrSetCallback_unseeing _ _) fun _ =>
    .get_bind (fun _ => rfl) fun _ => .bind (init_unseeing _ _ _) fun _ =>
    .ite (.pure _) (armEvents_unseeing _)

theorem canInitialize_unseeing (cbUnit cbObject : Option Callback) :
    Unseeing v (canInitialize cbUnit cbObject) := by
  refine .get_bind (fun _ => rfl) fun _ => .ite (.pure _) ?_
  refine .bind (onCtx_unseeing fun _ _ => rfl) fun _ => .bind (onCtx_unseeing fun _ _ => rfl) fun _ => ?_
  exact .bind (onCtx_unseeing fun _ _ => rfl) fun _ => .bind (onCtx_unseeing fun _ _ => rfl) fun _ =>
    .pure _

theorem powerFull_unseeing : Unseeing v (powerFull env) := by
  refine .get_bind (fun _ => rfl) fun _ => .ite (.pure _) ?_
  refine .bind (onCtx_rx_unseeing fun rx => { rx with head := 0 }) fun _ => ?_
  refine .bind (onCtx_rx_unseeing fun rx => { rx with tail := 0 }) fun _ => .get_bind (fun _ => rfl) fun _ => ?_
  refine .bind (canApplyInit_unseeing _) fun _ => .ite (.pure _) ?_
  exact .bind (onCtx_unseeing fun _ _ => rfl) fun _ => .pure _

theorem powerOff_unseeing : Unseeing v (powerOff env) := by
  refine .get_bind (fun _ => rfl) fun _ => .bind (.ite ?_ (.pure _)) fun _ => ?_
  · exact .bind isrDisable_unseeing fun _ => .bind (isrSetCallback_unseeing _ _) fun _ =>
      .bind (deinit_unseeing _) fun _ => .pure _
  · exact .bind (onCtx_unseeing fun _ _ => rfl) fun _ => .pure _

theorem canPowerControl_unseeing (state : PowerState) : Unseeing v (canPowerControl state env) := by
  refine .get_bind (fun _ => rfl) fun _ => .ite (.pure _) ?_
  cases state with
  | full => exact powerFull_unseeing
  | off => exact powerOff_unseeing
  | low => exact .pure _
  | other => exact .pure _

theorem canUnInitialize_unseeing : Unseeing v (canUnInitialize env) := by
  refine .get_bind (fun _ => rfl) fun _ => .bind (.ite ?_ (.pure _)) fun _ => ?_
  · exact .bind (canPowerControl_unseeing _) fun _ => .pure _
  · exact .bind (onCtx_unseeing fun _ _ => rfl) fun _ => .bind (onCtx_unseeing fun _ _ => rfl) fun _ =>
      .bind (onCtx_unseeing fun _ _ => rfl) fun _ => .pure _

theorem applyBitrate_unseeing : Unseeing v (applyBitrate env) :=
  .get_bind (fun _ => rfl) fun _ => .ite (.pure _) <|
    .get_bind (fun _ => rfl) fun _ => .bind (setBitrate_unseeing _ _ _ _ _ _) fun _ => .pure _

theorem canSetBitrate_unseeing (select : BitrateSelect) (bitrate bitSegments : BitVec 32) :
    Unseeing v (canSetBitrate select bitrate bitSegments env) := by
  refine .ite (.pure _) (.bind ?_ fun _ => ?_)
  · cases segmentSamplePct bitSegments with
    | none => exact .pure _
    | some pct => exact onCtx_unseeing fun _ _ => rfl
  · cases select with
    | nominal => exact .bind (onCtx_unseeing fun _ _ => rfl) fun _ => applyBitrate_unseeing
    | fdData => exact .bind (onCtx_unseeing fun _ _ => rfl) fun _ => applyBitrate_unseeing
    | other => exact .pure _

theorem canSetMode_unseeing (mode : ArmMode) : Unseeing v (canSetMode mode env) := by
  refine .get_bind (fun _ => rfl) fun _ => .ite (.pure _) (.ite (.pure _) ?_)
  cases canMapMode mode with
  | none => exact .pure _
  | some mapped =>
    refine .get_bind (fun _ => rfl) fun _ => .get_bind (fun _ => rfl) fun _ => .ite (.pure _) ?_
    exact .ite (.pure _) (canApplyInit_unseeing _)

theorem setFdMode_unseeing (arg : BitVec 32) : Unseeing v (setFdMode arg env) :=
  .ite (.pure _) <| .bind (onCtx_unseeing fun _ _ => rfl) fun _ => .get_bind (fun _ => rfl) fun _ =>
    .ite (.get_bind (fun _ => rfl) fun _ => canApplyInit_unseeing _) (.pure _)

theorem canControl_unseeing (code arg : BitVec 32) : Unseeing v (canControl code arg env) := by
  refine .get_bind (fun _ => rfl) fun _ => .ite (.pure _) (.ite (setFdMode_unseeing _) (.ite ?_ (.pure _)))
  exact .get_bind (fun _ => rfl) fun _ => .ite (.pure _) <|
    .ite (.pure _) (.bind txAbort_unseeing fun _ => .pure _)

theorem canMessageSend_unseeing (objIdx : BitVec 32) (info : Option MsgInfo)
    (data : Option (Nat → BitVec 8)) (size : Nat) :
    Unseeing v (canMessageSend objIdx info data size env) := by
  refine .get_bind (fun _ => rfl) fun _ => .ite (.pure _) ?_
  cases info with
  | none => exact .pure _
  | some info =>
    refine .ite (.pure _) (.ite (.pure _) (.get_bind (fun _ => rfl) fun _ => .ite (.pure _) ?_))
    exact .bind (transmit_unseeing _ _) fun _ => .ite (.pure _) (.pure _)

theorem canMessageRead_unseeing (hv : v.ring = true) (args : ReadArgs) :
    Unseeing v (canMessageRead args) := by
  obtain ⟨bits, ring⟩ := v
  cases (show ring = true from hv)
  refine .get_bind (fun _ => rfl) fun _ => .ite (.pure _) (.ite (.pure _) ?_)
  refine .get_bind (fun _ => rfl) fun _ => .get_bind (fun _ => rfl) fun _ => ?_
  refine .ite (.pure _) (.get_bind (fun _ => rfl) fun c => ?_)
  refine .bind (.modify fun s t h => ?_) fun _ => .pure _
  exact congrArg (fun c : Chan => c.setCtx { c.ctx with rx := c.ctx.rx.advance }) h

def Call.seen : Call → Bool
  | .canMessageRead _ => false
  | _ => true

theorem call_unseeing {call : Call} (h : v.ring = true ∨ call.seen = true) (env : Env) :
    Unseeing v (call.run env) := by
  cases call with
  | canInitialize cbUnit cbObject => exact canInitialize_unseeing _ _
  | canUnInitialize => exact canUnInitialize_unseeing
  | canPowerControl state => exact canPowerControl_unseeing _
  | canSetBitrate select bitrate bitSegments => exact canSetBitrate_unseeing _ _ _
  | canSetMode mode => exact canSetMode_unseeing _
  | canControl code arg => exact canControl_unseeing _ _
  | canMessageSend objIdx info data size => exact canMessageSend_unseeing _ _ _ _
  | canMessageRead args =>
    have hv : v.ring = true := h.resolve_right Bool.false_ne_true
    exact .bind (canMessageRead_unseeing hv _) fun _ => .pure _

end Cmsis

end CanfdDriver
