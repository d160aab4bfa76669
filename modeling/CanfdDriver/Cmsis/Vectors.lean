import CanfdDriver.Cmsis.Requests
import CanfdDriver.Hal.Unwired

namespace CanfdDriver

open Lib NoraCanfd Cmsis

variable {c d : Chan} {env : Env}

theorem Traffic.noArm (h : Traffic c d) : NoArm c d where
  line := h.txEnable
  regs r hc := by
    cases r with
    | int => exact h.regs_off (by decide) (by decide) hc
    | txqcon => exact h.regs_off (by decide) (by decide) hc
    | _ => exact BitVec.and_zero

namespace Cmsis

theorem onCtx_noArm (f : Context → Context) : (onCtx f).Moves NoArm :=
  .modify fun _ => .of_eq rfl rfl

theorem isrSetCallback_noArm (cb : Option EventCallback) (ud : Option UserData) :
    (isrSetCallback cb ud).Moves NoArm :=
  .bind (.modify fun _ => .of_eq rfl rfl) fun _ =>
  .bind (.modify fun _ => .of_eq rfl rfl) fun _ => .pure _

theorem armEvents_noArm (mode : Mode) : (armEvents mode env).Moves NoArm := by
  refine .bind (isrSetCallback_noArm _ _) fun _ => .bind .get fun _ => ?_
  refine .bind (isrEnable_noArm _) fun _ => .ite ?_ (.bind (onCtx_noArm _) fun _ => .pure _)
  exact .bind (isrSetCallback_noArm _ _) fun _ => .bind (deinit_noArm _) fun _ => .pure _

theorem canApplyInit_noArm (mode : Mode) : (canApplyInit mode env).Moves NoArm := by
  refine .bind isrDisable_noArm fun _ => .bind (isrSetCallback_noArm _ _) fun _ => ?_
  refine .bind .get fun _ => .bind (init_noArm _ _ _) fun _ => ?_
  exact .ite (.pure _) (armEvents_noArm mode)

theorem powerOff_noArm : (powerOff env).Moves NoArm := by
  refine .bind .get fun _ => .bind (.ite ?_ (.pure _)) fun _ => ?_
  · refine .bind isrDisable_noArm fun _ => .bind (isrSetCallback_noArm _ _) fun _ => ?_
    exact .bind (deinit_noArm _) fun _ => .pure _
  · exact .bind (onCtx_noArm _) fun _ => .pure _

theorem powerFull_noArm : (powerFull env).Moves NoArm := by
  refine .bind .get fun _ => .ite (.pure _) (.bind (onCtx_noArm _) fun _ => ?_)
  refine .bind (onCtx_noArm _) fun _ => .bind .get fun _ => .bind (canApplyInit_noArm _) fun _ => ?_
  exact .ite (.pure _) (.bind (onCtx_noArm _) fun _ => .pure _)

theorem canPowerControl_noArm (state : PowerState) : (canPowerControl state env).Moves NoArm := by
  refine .bind .get fun _ => .ite (.pure _) ?_
  cases state with
  | full => exact powerFull_noArm
  | off => exact powerOff_noArm
  | low | other => exact .pure _

theorem canUnInitialize_noArm : (canUnInitialize env).Moves NoArm := by
  refine .bind .get fun _ => .bind (.ite ?_ (.pure _)) fun _ => ?_
  · exact .bind (canPowerControl_noArm _) fun _ => .pure _
  · exact .bind (onCtx_noArm _) fun _ => .bind (onCtx_noArm _) fun _ =>
      .bind (onCtx_noArm _) fun _ => .pure _

theorem canSetBitrate_noArm (select : BitrateSelect) (bitrate bitSegments : BitVec 32) :
    (canSetBitrate select bitrate bitSegments env).Moves NoArm := by
  have happly : (applyBitrate env).Moves NoArm :=
    .bind .get fun _ => .ite (.pure _) (.bind .get fun _ =>
      .bind (setBitrate_noArm _ _ _ _ _ _) fun _ => .pure _)
  refine .ite (.pure _) (.bind ?_ fun _ => ?_)
  · cases segmentSamplePct bitSegments with
    | none => exact .pure _
    | some pct => exact onCtx_noArm _
  · cases select with
    | nominal | fdData => exact .bind (onCtx_noArm _) fun _ => happly
    | other => exact .pure _

theorem canSetMode_noArm (mode : ArmMode) : (canSetMode mode env).Moves NoArm := by
  refine .bind .get fun _ => .ite (.pure _) (.ite (.pure _) ?_)
  cases canMapMode mode with
  | none => exact .pure _
  | some mapped =>
    refine .bind .get fun _ => .bind .get fun _ => .ite (.pure _) (.ite (.pure _) ?_)
    exact canApplyInit_noArm _

theorem canControl_noArm (code arg : BitVec 32) : (canControl code arg env).Moves NoArm := by
  have hfd : (setFdMode arg env).Moves NoArm := by
    refine .ite (.pure _) (.bind (onCtx_noArm _) fun _ => .bind .get fun _ => ?_)
    exact .ite (.bind .get fun _ => canApplyInit_noArm _) (.pure _)
  refine .bind .get fun _ => .ite (.pure _) (.ite hfd (.ite ?_ (.pure _)))
  exact (abortMessageSend_moves arg).mono fun _ _ h => h.noArm

theorem call_unwired (env : Env) (call : Call) : (call.run env).Moves NoArm := by
  cases call with
  | canInitialize cbUnit cbObject =>
    exact .bind .get fun _ => .ite (.pure _) <|
      .bind (onCtx_noArm _) fun _ => .bind (onCtx_noArm _) fun _ =>
      .bind (onCtx_noArm _) fun _ => .bind (onCtx_noArm _) fun _ => .pure _
  | canUnInitialize => exact canUnInitialize_noArm
  | canPowerControl state => exact canPowerControl_noArm state
  | canSetBitrate select bitrate bitSegments => exact canSetBitrate_noArm select bitrate bitSegments
  | canSetMode mode => exact canSetMode_noArm mode
  | canControl code arg => exact canControl_noArm code arg
  | canMessageSend objIdx info data size =>
    exact (canMessageSend_moves objIdx info data size env).mono fun _ _ h => h.noArm
  | canMessageRead args =>
    exact .bind ((canMessageRead_moves args).mono fun _ _ h => h.noArm) fun _ => .pure _

end Cmsis

theorem Device.unwired (dev : Device) : Unwired dev.boot where
  line := rfl
  regs r := by
    cases r with
    | int =>
      have hoff := congrArg (· &&& unwiredBits .int) dev.int_off
      simp only [BitVec.and_assoc] at hoff
      exact hoff.trans BitVec.zero_and
    | txqcon => exact dev.txqcon_off
    | _ => exact BitVec.and_zero

/-- Wherever a call stands, and whatever interrupted it: nothing is enabled that takes another
vector than the receive and the general one, and these are taken only where the callback of the
wrapper answers. -/
theorem vectors_served {dev : Device} {b : Bench}
    (h : AppRun (.idle dev.boot) b) : Unwired b.state ∧ Answered b.state := by
  have hkeep (s t : Chan) (hs : Unwired s) (hst : NoArm s t) : Unwired t := hst.unwired hs
  have htraffic (s t : Chan) (hs : Unwired s) (hst : Traffic s t) : Unwired t :=
    hst.noArm.unwired hs
  have hunwired : Unwired b.state := h.invariant (J := fun _ => Unwired) dev.unwired (fun _ _ => id)
    (fun _ k _ hs => kept ((call_unwired k.1 k.2).preserves hkeep) htraffic (fun _ => id) hs)
    fun _ _ _ hs ht => htraffic _ _ hs ht.traffic
  exact ⟨hunwired, h.answered⟩

def enableReceive : List BenchMove := enterUp 59

theorem vectors_served_example :
    ∃ b, AppRun (.idle exampleDevice.boot) b ∧ b.rest.isSome ∧ b.state.irq.rx.enable = true ∧
      b.state.irq.gen.enable = false ∧ Unwired b.state ∧ Answered b.state := by
  have hrun : ∃ b, AppRun (.idle exampleDevice.boot) b ∧
      (b.rest.isSome && b.state.irq.rx.enable && !b.state.irq.gen.enable) = true :=
    AppRun.of_play enableReceive _ (by decide +kernel)
  obtain ⟨b, hb, hp⟩ := hrun
  simp only [Bool.and_eq_true, Bool.not_eq_true'] at hp
  exact ⟨b, hb, hp.1.1, hp.1.2, hp.2, vectors_served hb⟩

end CanfdDriver
