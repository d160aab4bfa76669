import CanfdDriver.Cmsis.Driver

namespace CanfdDriver

open Lib NoraCanfd Cmsis

def Obs.receive : Obs → Bool
  | .signal _ _ | .appended _ | .dropped _ | .handed _ => true
  | .ramWrite _ _ | .uinc | .txreq => false

/-- What the HAL does for a call, apart from the registration of a callback: the context and the
receive side stay as they are. -/
structure Beside (c d : Chan) : Prop where
  ctx : d.ctx = c.ctx
  cb : d.isr.cb = c.isr.cb
  rxFifo : d.rxFifo = c.rxFifo
  trace : d.trace.filter Obs.receive = c.trace.filter Obs.receive

namespace Beside

variable {c d e : Chan}

theorem refl (c : Chan) : Beside c c := ⟨rfl, rfl, rfl, rfl⟩

theorem trans (h : Beside c d) (h' : Beside d e) : Beside c e :=
  ⟨h'.ctx.trans h.ctx, h'.cb.trans h.cb, h'.rxFifo.trans h.rxFifo, h'.trace.trans h.trace⟩

instance : Std.Refl Beside := ⟨refl⟩

instance : IsTrans Chan Beside := ⟨fun _ _ _ => trans⟩

theorem log {o : Obs} (ho : o.receive = false) : Beside c (c.log o) :=
  ⟨rfl, rfl, rfl, by simp [ho]⟩

theorem writeRam (addr word : BitVec 32) : Beside c (c.writeRam addr word) :=
  ⟨rfl, rfl, rfl, by simp [Obs.receive]⟩

end Beside

structure Aside (c d : Chan) : Prop where
  rx : d.ctx.rx = c.ctx.rx
  rxFifo : d.rxFifo = c.rxFifo
  trace : d.trace.filter Obs.receive = c.trace.filter Obs.receive

namespace Aside

variable {c d e : Chan}

theorem refl (c : Chan) : Aside c c := ⟨rfl, rfl, rfl⟩

theorem trans (h : Aside c d) (h' : Aside d e) : Aside c e :=
  ⟨h'.rx.trans h.rx, h'.rxFifo.trans h.rxFifo, h'.trace.trans h.trace⟩

instance : Std.Refl Aside := ⟨refl⟩

instance : IsTrans Chan Aside := ⟨fun _ _ _ => trans⟩

end Aside

theorem Beside.aside {c d : Chan} (h : Beside c d) : Aside c d :=
  ⟨congrArg Context.rx h.ctx, h.rxFifo, h.trace⟩

namespace NoraCanfd

theorem regSet_beside (r : Reg) (m : BitVec 32) : (regSet r m).Moves Beside :=
  .modify fun _ => ⟨rfl, rfl, rfl, rfl⟩

theorem regClear_beside (r : Reg) (m : BitVec 32) : (regClear r m).Moves Beside :=
  .modify fun _ => ⟨rfl, rfl, rfl, rfl⟩

theorem regWrite_beside (r : Reg) (v : BitVec 32) : (regWrite r v).Moves Beside :=
  .modify fun _ => ⟨rfl, rfl, rfl, rfl⟩

theorem setMode_beside (m : Mode) : (setMode m).Moves Beside := .modify fun _ => ⟨rfl, rfl, rfl, rfl⟩

theorem requestMode_beside (reqop : BitVec 8) (p : Poll) : (requestMode reqop p).Moves Beside :=
  .bind (.bind .get fun _ => .pure _) fun _ =>
  .bind (.modify fun _ => ⟨rfl, rfl, rfl, rfl⟩) fun _ => pollUntil_reads _ _ _

theorem solved_beside (x : Except Stop (Option BitTiming)) : (solved x).Moves Beside := by
  cases x with
  | error e => exact .fail e
  | ok t => exact .pure t

theorem writeBitTiming_beside (t : BitTiming) : (writeBitTiming t).Moves Beside :=
  .bind (regWrite_beside _ _) fun _ => .bind (regWrite_beside _ _) fun _ => regWrite_beside _ _

theorem configure_beside (cfg : Config) (t : BitTiming) : (configure cfg t).Moves Beside :=
  .bind (regClear_beside _ _) fun _ =>
  .bind (regSet_beside _ _) fun _ =>
  .bind (.ite (regClear_beside _ _) (regSet_beside _ _)) fun _ =>
  .bind (regClear_beside _ _) fun _ =>
  .bind (regSet_beside _ _) fun _ =>
  .bind (writeBitTiming_beside t) fun _ =>
  .bind (regWrite_beside _ _) fun _ =>
  .bind (regWrite_beside _ _) fun _ =>
  .bind (regWrite_beside _ _) fun _ =>
  .bind (regWrite_beside _ _) fun _ =>
  .bind (regWrite_beside _ _) fun _ => regWrite_beside _ _

theorem bringUp_beside (cfg : Config) (t : BitTiming) (toConfig toMode : Poll) :
    (bringUp cfg t toConfig toMode).Moves Beside := by
  refine .bind (.modify fun _ => ⟨rfl, rfl, rfl, rfl⟩) fun _ => ?_
  refine .bind (.modify fun _ => ⟨rfl, rfl, rfl, rfl⟩) fun _ => ?_
  refine .bind (.modify fun _ => ⟨rfl, rfl, rfl, rfl⟩) fun _ => ?_
  refine .bind (setMode_beside _) fun _ => .bind (regSet_beside _ _) fun _ => ?_
  refine .bind (requestMode_beside _ _) fun _ => .ite (.bind (regClear_beside _ _) fun _ => .pure _) ?_
  refine .bind (configure_beside _ _) fun _ => .bind (requestMode_beside _ _) fun _ => ?_
  refine .ite (.bind (regClear_beside _ _) fun _ => .pure _) (.bind (setMode_beside _) fun _ => ?_)
  exact .bind (.modify fun _ => ⟨rfl, rfl, rfl, rfl⟩) fun _ => .pure _

theorem init_beside (config : Option Config) (toConfig toMode : Poll) :
    (init config toConfig toMode).Moves Beside := by
  cases config with
  | none => exact .pure _
  | some cfg =>
    refine .ite (.pure _) (.ite (.pure _) (.ite (.pure _) (.ite (.pure _) ?_)))
    refine .bind getRegs_reads fun _ => .ite (.pure _) (.bind (solved_beside _) fun t => ?_)
    cases t with
    | none => exact .pure _
    | some t => exact bringUp_beside cfg t _ _

theorem setBitrate_beside (canClkHz nominalBps dataBps : BitVec 32) (samplePct : BitVec 8)
    (toConfig toMode : Poll) :
    (setBitrate canClkHz nominalBps dataBps samplePct toConfig toMode).Moves Beside := by
  refine .ite (.pure _) (.bind getRegs_reads fun _ => .ite (.pure _) (.bind .get fun _ => ?_))
  refine .ite (.pure _) (.bind (solved_beside _) fun t => ?_)
  cases t with
  | none => exact .pure _
  | some t =>
    refine .bind .get fun _ => .bind (requestMode_beside _ _) fun _ => .ite (.pure _) ?_
    exact .bind (writeBitTiming_beside t) fun _ => requestMode_beside _ _

theorem deinit_beside (toOff : Poll) : (deinit toOff).Moves Beside := by
  refine .bind getRegs_reads fun _ => .ite (.pure _) (.bind .get fun _ => .ite ?_ ?_)
  · exact .bind (.modify fun _ => ⟨rfl, rfl, rfl, rfl⟩) fun _ => .pure _
  · refine .bind (requestMode_beside _ _) fun _ => .bind (regClear_beside _ _) fun _ => ?_
    exact .bind (.modify fun _ => ⟨rfl, rfl, rfl, rfl⟩) fun _ => .bind (setMode_beside _) fun _ => .pure _

theorem onRx_beside (f : Line → Line) : (onRx f).Moves Beside := .modify fun _ => ⟨rfl, rfl, rfl, rfl⟩

theorem onTx_beside (f : Line → Line) : (onTx f).Moves Beside := .modify fun _ => ⟨rfl, rfl, rfl, rfl⟩

theorem onGen_beside (f : Line → Line) : (onGen f).Moves Beside := .modify fun _ => ⟨rfl, rfl, rfl, rfl⟩

theorem setTxBusy_beside (b : Bool) : (setTxBusy b).Moves Beside := .modify fun _ => ⟨rfl, rfl, rfl, rfl⟩

theorem setIsrEnabled_beside (b : Bool) : (setIsrEnabled b).Moves Beside :=
  .modify fun _ => ⟨rfl, rfl, rfl, rfl⟩

theorem irqLineEnable_beside (priority : BitVec 8) : (irqLineEnable priority).Moves Beside :=
  .bind (.modify fun _ => ⟨rfl, rfl, rfl, rfl⟩) fun _ =>
  .bind (onRx_beside _) fun _ => .bind (onRx_beside _) fun _ => .bind (onRx_beside _) fun _ =>
  .bind (onGen_beside _) fun _ => .bind (onGen_beside _) fun _ => onGen_beside _

theorem irqLineDisable_beside : irqLineDisable.Moves Beside :=
  .bind (onRx_beside _) fun _ => .bind (onRx_beside _) fun _ => .bind (onTx_beside _) fun _ =>
  .bind (onTx_beside _) fun _ => .bind (onGen_beside _) fun _ => onGen_beside _

theorem isrEnable_beside (priority : BitVec 8) : (isrEnable priority).Moves Beside :=
  .ite (.pure _) <| .bind getRegs_reads fun _ => .ite (.pure _) <|
  .bind .get fun _ => .ite (.pure _) <|
  .bind (regSet_beside _ _) fun _ => .bind (regSet_beside _ _) fun _ =>
  .bind (setTxBusy_beside _) fun _ => .bind (irqLineEnable_beside _) fun _ =>
  .bind (setIsrEnabled_beside _) fun _ => .pure _

theorem isrDisable_beside : isrDisable.Moves Beside :=
  .bind getRegs_reads fun _ => .ite (.pure _) <|
  .bind (setIsrEnabled_beside _) fun _ => .bind irqLineDisable_beside fun _ =>
  .bind (regClear_beside _ _) fun _ => .bind (regClear_beside _ _) fun _ =>
  .bind (regClear_beside _ _) fun _ => .bind (setTxBusy_beside _) fun _ => .pure _

theorem txDisarm_beside : txDisarm.Moves Beside :=
  .bind (regClear_beside _ _) fun _ => .bind (regClear_beside _ _) fun _ =>
  .bind (.bind (onTx_beside _) fun _ => onTx_beside _) fun _ => setTxBusy_beside _

theorem txAbort_beside : txAbort.Moves Beside :=
  .bind getRegs_reads fun _ => .ite (.pure _) (.bind txDisarm_beside fun _ => .pure _)

theorem writePayload_beside (obj : BitVec 32) (f : Frame) (n : Nat) :
    (writePayload obj f n).Moves Beside := by
  induction n with
  | zero => exact .pure _
  | succ n ih => exact .bind ih fun _ => .modify fun _ => .writeRam _ _

theorem transmit_beside (frame : Option Frame) (room : Poll) :
    (transmit frame room).Moves Beside := by
  cases frame with
  | none => exact .pure _
  | some f =>
    refine .ite (.pure _) (.ite (.pure _) (.bind .get fun _ => .ite (.pure _) ?_))
    refine .bind (waitFlag_reads _ _) fun _ => .ite (.pure _) (.bind .get fun c => ?_)
    refine .bind (.modify fun _ => .writeRam _ _) fun _ => ?_
    refine .bind (.modify fun _ => .writeRam _ _) fun _ => ?_
    refine .bind (writePayload_beside _ _ _) fun _ => .bind (.modify fun _ => .log rfl) fun _ => ?_
    refine .bind (.modify fun c => ?_) fun _ => .pure _
    exact .trans (d := c.setReg .txqcon _) ⟨rfl, rfl, rfl, rfl⟩ (.log rfl)

end NoraCanfd

namespace Cmsis

variable {env : Env}

theorem aside {α : Type} {p : M α} (hp : p.Moves Beside) : p.Moves Aside :=
  hp.mono fun _ _ h => h.aside

theorem onCtx_aside {f : Context → Context} (hf : ∀ x, (f x).rx = x.rx) :
    (onCtx f).Moves Aside := .modify fun c => ⟨hf c.ctx, rfl, rfl⟩

theorem isrSetCallback_aside (cb : Option EventCallback) (ud : Option UserData) :
    (isrSetCallback cb ud).Moves Aside :=
  .bind (.modify fun _ => ⟨rfl, rfl, rfl⟩) fun _ =>
  .bind (.modify fun _ => ⟨rfl, rfl, rfl⟩) fun _ => .pure _

theorem armEvents_aside (mode : Mode) : (armEvents mode env).Moves Aside := by
  refine .bind (isrSetCallback_aside _ _) fun _ => .bind .get fun _ => ?_
  refine .bind (aside (isrEnable_beside _)) fun _ => .ite ?_ ?_
  · exact .bind (isrSetCallback_aside _ _) fun _ =>
      .bind (aside (deinit_beside _)) fun _ => .pure _
  · exact .bind (onCtx_aside fun _ => rfl) fun _ => .pure _

theorem canApplyInit_aside (mode : Mode) : (canApplyInit mode env).Moves Aside :=
  .bind (aside isrDisable_beside) fun _ => .bind (isrSetCallback_aside _ _) fun _ =>
  .bind .get fun _ =>
  .bind (aside (init_beside _ _ _)) fun _ => .ite (.pure _) (armEvents_aside mode)

theorem canInitialize_aside (cbUnit cbObject : Option Callback) :
    (canInitialize cbUnit cbObject).Moves Aside :=
  .bind .get fun _ => .ite (.pure _) <|
  .bind (onCtx_aside fun _ => rfl) fun _ => .bind (onCtx_aside fun _ => rfl) fun _ =>
  .bind (onCtx_aside fun _ => rfl) fun _ => .bind (onCtx_aside fun _ => rfl) fun _ => .pure _

theorem powerOff_aside : (powerOff env).Moves Aside := by
  refine .bind .get fun _ => .bind (.ite ?_ (.pure _)) fun _ => ?_
  · exact .bind (aside isrDisable_beside) fun _ => .bind (isrSetCallback_aside _ _) fun _ =>
      .bind (aside (deinit_beside _)) fun _ => .pure _
  · exact .bind (onCtx_aside fun _ => rfl) fun _ => .pure _

theorem canUnInitialize_aside : (canUnInitialize env).Moves Aside := by
  refine .bind .get fun _ => .bind (.ite ?_ (.pure _)) fun _ => ?_
  · exact .bind (.bind .get fun _ => .ite (.pure _) powerOff_aside) fun _ => .pure _
  · exact .bind (onCtx_aside fun _ => rfl) fun _ => .bind (onCtx_aside fun _ => rfl) fun _ =>
      .bind (onCtx_aside fun _ => rfl) fun _ => .pure _

theorem canSetBitrate_aside (select : BitrateSelect) (bitrate bitSegments : BitVec 32) :
    (canSetBitrate select bitrate bitSegments env).Moves Aside := by
  have happly : (applyBitrate env).Moves Aside :=
    .bind .get fun _ => .ite (.pure _) (.bind .get fun _ =>
      .bind (aside (setBitrate_beside _ _ _ _ _ _)) fun _ => .pure _)
  refine .ite (.pure _) (.bind ?_ fun _ => ?_)
  · cases segmentSamplePct bitSegments with
    | none => exact .pure _
    | some pct => exact onCtx_aside fun _ => rfl
  · cases select with
    | nominal | fdData => exact .bind (onCtx_aside fun _ => rfl) fun _ => happly
    | other => exact .pure _

theorem canSetMode_aside (mode : ArmMode) : (canSetMode mode env).Moves Aside := by
  refine .bind .get fun _ => .ite (.pure _) (.ite (.pure _) ?_)
  cases canMapMode mode with
  | none => exact .pure _
  | some mapped =>
    exact .bind .get fun _ => .bind .get fun _ => .ite (.pure _)
      (.ite (.pure _) (canApplyInit_aside _))

theorem canControl_aside (code arg : BitVec 32) : (canControl code arg env).Moves Aside := by
  refine .bind .get fun _ => .ite (.pure _) (.ite ?_ (.ite ?_ (.pure _)))
  · exact .ite (.pure _) (.bind (onCtx_aside fun _ => rfl) fun _ => .bind .get fun _ =>
      .ite (.bind .get fun _ => canApplyInit_aside _) (.pure _))
  · exact .bind .get fun _ => .ite (.pure _) (.ite (.pure _) (.bind (aside txAbort_beside) fun _ => .pure _))

theorem canMessageSend_aside (objIdx : BitVec 32) (info : Option MsgInfo)
    (data : Option (Nat → BitVec 8)) (size : Nat) :
    (canMessageSend objIdx info data size env).Moves Aside := by
  refine .bind .get fun _ => .ite (.pure _) ?_
  cases info with
  | none => exact .pure _
  | some info =>
    refine .ite (.pure _) (.ite (.pure _) (.bind .get fun _ => .ite (.pure _) ?_))
    exact .bind (aside (transmit_beside _ _)) fun _ => .ite (.pure _) (.pure _)

end Cmsis

def Obs.isSignal : Obs → Bool
  | .signal _ _ => true
  | _ => false

def Chan.signals (c : Chan) : List Obs := c.trace.filter Obs.isSignal

def Mute (c d : Chan) : Prop := d.signals = c.signals

instance : Std.Refl Mute := ⟨fun _ => rfl⟩

instance : IsTrans Chan Mute := ⟨fun _ _ _ h h' => Eq.trans h' h⟩

theorem Aside.mute {c d : Chan} (h : Aside c d) : Mute c d := by
  have hsub : ∀ l : List Obs, l.filter Obs.isSignal = (l.filter Obs.receive).filter Obs.isSignal := by
    intro l
    rw [List.filter_filter]
    apply List.filter_congr
    intro o _
    cases o <;> rfl
  rw [Mute, Chan.signals, Chan.signals, hsub, h.trace, ← hsub]

namespace Cmsis

variable {env : Env}

theorem canMessageRead_mute (args : ReadArgs) : (canMessageRead args).Moves Mute := by
  refine .bind .get fun _ => .ite (.pure _) (.ite (.pure _) ?_)
  refine .bind .get fun _ => .bind .get fun _ => .ite (.pure _) (.bind .get fun _ => ?_)
  refine .bind (.modify fun c => ?_) fun _ => .pure _
  simp [Mute, Chan.signals, Obs.isSignal]

theorem canPowerControl_mute (state : PowerState) : (canPowerControl state env).Moves Mute := by
  refine .bind .get fun _ => .ite (.pure _) ?_
  cases state with
  | full =>
    refine .bind .get fun _ => .ite (.pure _) (.bind (.modify fun _ => rfl) fun _ => ?_)
    refine .bind (.modify fun _ => rfl) fun _ => .bind .get fun _ => ?_
    refine .bind ((canApplyInit_aside _).mono fun _ _ h => h.mute) fun _ => .ite (.pure _) ?_
    exact .bind (.modify fun _ => rfl) fun _ => .pure _
  | off => exact powerOff_aside.mono fun _ _ h => h.mute
  | low | other => exact .pure _

/-- No call signals the application. -/
theorem call_mute (call : Call) : (call.run env).Moves Mute := by
  cases call with
  | canInitialize cbUnit cbObject =>
    exact (canInitialize_aside cbUnit cbObject).mono fun _ _ h => h.mute
  | canUnInitialize => exact canUnInitialize_aside.mono fun _ _ h => h.mute
  | canPowerControl state => exact canPowerControl_mute state
  | canSetBitrate select bitrate bitSegments =>
    exact (canSetBitrate_aside select bitrate bitSegments).mono fun _ _ h => h.mute
  | canSetMode mode => exact (canSetMode_aside mode).mono fun _ _ h => h.mute
  | canControl code arg => exact (canControl_aside code arg).mono fun _ _ h => h.mute
  | canMessageSend objIdx info data size =>
    exact (canMessageSend_aside objIdx info data size).mono fun _ _ h => h.mute
  | canMessageRead args => exact .bind (canMessageRead_mute args) fun _ => .pure _

end Cmsis

end CanfdDriver
