import CanfdDriver.Cmsis.Effects
import CanfdDriver.Hal.Run
import CanfdDriver.System.MessageRam

namespace CanfdDriver

open Lib NoraCanfd Cmsis

def Owned (W : BitVec 32 → Prop) (addr : BitVec 32) : Prop :=
  ∀ n, n < msgRamBytes / 4 → W (objAddr addr n)

/-- The region of the context is owned, and so is the one an initialized node works on. -/
structure Homed (W : BitVec 32 → Prop) (c : Chan) : Prop where
  ctx : Owned W c.ctx.msgRam.addr
  fifoba : c.node.initialized = true → Owned W (c.regs .fifoba)

/-- While the node is up, the module has `TXQUA` point at an object of the transmit queue, which
is the first thing in its message RAM, and `FIFOUA1` at one of FIFO 1, which is the next. -/
structure QueuesShown (c : Chan) : Prop where
  txqua : c.node.initialized = true →
    ∃ slot, slot < txqDepth ∧ c.regs .txqua = objAddr (c.regs .fifoba) (objWords * slot)
  fifoua1 : c.node.initialized = true → ∃ slot, ShowsSlot c slot

variable {W : BitVec 32 → Prop} {c d : Chan}

theorem Homed.ready (h : Homed W c) (hq : QueuesShown c) : Ready W c.node.initialized c := by
  refine ⟨rfl, fun hup n hn => ?_, hq.fifoua1, fun hup slot hslot n hn => ?_⟩
  · obtain ⟨slot, hslot, htxqua⟩ := hq.txqua hup
    rw [htxqua, objAddr_objAddr]
    refine h.fifoba hup _ ?_
    change 18 * slot + n < 144
    change slot < 4 at hslot
    change n < 18 at hn
    omega
  · rw [rxSlot, objAddr_objAddr]
    refine h.fifoba hup _ ?_
    change 18 * (4 + slot) + n < 144
    change slot < 4 at hslot
    change n < 18 at hn
    omega

/-- From `c` the program changes no memory outside the region, nor does it see any. -/
def Confined (W : BitVec 32 → Prop) {α : Type} (q : M α) (c : Chan) : Prop :=
  ∀ r, ∃ R : Chan → Chan → Prop, R (outside W r c) c ∧ (∀ s t, R s t → s = outside W r t) ∧
    Prog.Lockstep R q q

theorem confined_of_blind {α : Type} {q : M α} (h : ∀ r, Prog.Blind (outside W r) q) (c : Chan) :
    Confined W q c := fun r => ⟨_, rfl, fun _ _ hst => hst, h r⟩

theorem confined_of_inStep {α : Type} {q : M α}
    (h : ∀ r up, Prog.Lockstep (InStep W r up) q q) (hc : Homed W c) (hq : QueuesShown c) :
    Confined W q c := fun r => ⟨_, ⟨rfl, hc.ready hq⟩, fun _ _ hst => hst.1, h r _⟩

structure HomeStep (c d : Chan) : Prop where
  ctx : d.ctx.msgRam = c.ctx.msgRam
  fifoba : d.node.initialized = true → d.regs .fifoba = c.ctx.msgRam.addr ∨
    c.node.initialized = true ∧ d.regs .fifoba = c.regs .fifoba

theorem Homed.step (h : Homed W c) (hcd : HomeStep c d) : Homed W d := by
  refine ⟨hcd.ctx ▸ h.ctx, fun hup => ?_⟩
  obtain hctx | ⟨hc, hfifoba⟩ := hcd.fifoba hup
  · exact hctx ▸ h.ctx
  · exact hfifoba ▸ h.fifoba hc

namespace HomeStep

theorem same (hctx : d.ctx.msgRam = c.ctx.msgRam) (hnode : d.node = c.node)
    (hfifoba : d.regs .fifoba = c.regs .fifoba) : HomeStep c d :=
  ⟨hctx, fun hup => .inr ⟨hnode ▸ hup, hfifoba⟩⟩

theorem down (hctx : d.ctx.msgRam = c.ctx.msgRam) (hnode : d.node.initialized = false) :
    HomeStep c d :=
  ⟨hctx, fun hup => by rw [hnode] at hup; cases hup⟩

theorem refl (c : Chan) : HomeStep c c := .same rfl rfl rfl

theorem trans {e : Chan} (h : HomeStep c d) (h' : HomeStep d e) : HomeStep c e := by
  refine ⟨h'.ctx.trans h.ctx, fun hup => ?_⟩
  obtain hctx | ⟨hd, hfifoba⟩ := h'.fifoba hup
  · exact .inl (hctx.trans (congrArg MsgRam.addr h.ctx))
  · rw [hfifoba]
    exact h.fifoba hd

instance : Std.Refl HomeStep := ⟨refl⟩

instance : IsTrans Chan HomeStep := ⟨fun _ _ _ => trans⟩

theorem of_traffic (h : Traffic c d) : HomeStep c d := by
  obtain ⟨rx, hrx⟩ := h.ctx
  refine .same (by rw [hrx]) h.node ?_
  have hregs := h.regs_and (r := .fifoba) (b := .allOnes 32) (by decide)
  rwa [BitVec.and_allOnes, BitVec.and_allOnes] at hregs

theorem of_bringUp {cfg : Config} {t : BitTiming} {toConfig toMode : Poll} {st : Status}
    (h : BringUp c cfg t toConfig toMode st d) :
    d.node.initialized = true → d.regs .fifoba = cfg.msgRam := by
  cases h with
  | configTimeout => nofun
  | modeTimeout => nofun
  | live => exact fun _ => rfl

theorem of_retime {t : BitTiming} {toConfig toMode : Poll} {st : Status}
    (h : Retime c t toConfig toMode st d) : HomeStep c d := by
  cases h with
  | configTimeout => exact .same rfl rfl rfl
  | modeTimeout | retimed =>
    exact .same (by rw [Chan.retimed_ctx]) (Chan.retimed_node c t) rfl

theorem of_setBitrate {canClkHz nominalBps dataBps : BitVec 32} {samplePct : BitVec 8}
    {toConfig toMode : Poll} {st : Status}
    (h : SetBitrate c canClkHz nominalBps dataBps samplePct toConfig toMode st d) :
    HomeStep c d := by
  cases h with
  | retime _ _ h => exact of_retime h
  | _ => exact .refl _

theorem of_applyInit {mode : Mode} {env : Env} {r : Int} (h : ApplyInit c mode env r d) :
    HomeStep c d := by
  cases h with
  | absent => exact .same rfl rfl rfl
  | refused => exact .same rfl rfl rfl
  | timeout _ _ h => exact ⟨congrArg Context.msgRam h.ctx, fun hup => .inl (of_bringUp h hup)⟩
  | badPriority => exact .down rfl rfl
  | applied => exact ⟨rfl, fun _ => .inl rfl⟩

theorem of_teardown {toOff : Poll} (h : Teardown c toOff d) : HomeStep c d := by
  cases h with
  | unpowered => exact .refl _
  | absent => exact .same rfl rfl rfl
  | down => exact .down rfl rfl
  | off => exact .down rfl rfl

theorem setCtx {x : Context} (h : x.msgRam = c.ctx.msgRam) : HomeStep c (c.setCtx x) :=
  .same h rfl rfl

theorem cacheRate_msgRam (x : Context) (select : BitrateSelect) (bitrate segs : BitVec 32) :
    (cacheRate x select bitrate segs).msgRam = x.msgRam := by
  obtain ⟨_, _, _, h⟩ := cacheRate_eq x select bitrate segs
  rw [h]

theorem of_outcome {env : Env} {call : Call} {r : Int} (h : Outcome env c call r d) :
    HomeStep c d := by
  cases h with
  | traffic h => exact of_traffic h
  | opened => exact setCtx rfl
  | closed _ h => exact (of_teardown h).trans (setCtx (of_teardown h).ctx.symm)
  | closedPowered => exact setCtx rfl
  | off _ h => exact (of_teardown h).trans (setCtx (of_teardown h).ctx.symm)
  | full _ _ h =>
    have hempty : HomeStep c (emptied c) := setCtx rfl
    exact (hempty.trans (of_applyInit h)).trans (setCtx rfl)
  | fullFailed _ _ h _ =>
    have hempty : HomeStep c (emptied c) := setCtx rfl
    exact hempty.trans (of_applyInit h)
  | rateCached => exact setCtx (cacheRate_msgRam _ _ _ _)
  | rate _ hx h =>
    subst hx
    exact (setCtx (cacheRate_msgRam _ _ _ _)).trans (of_setBitrate h)
  | mode _ _ _ _ h => exact of_applyInit h
  | fdCached => exact setCtx rfl
  | @fd _ arg _ _ _ _ _ _ h =>
    have hcached : HomeStep c (c.setCtx (cacheFdMode c.ctx arg)) := setCtx rfl
    exact hcached.trans (of_applyInit h)

end HomeStep

namespace NoraCanfd

theorem regSet_home {x : Reg} (hx : x ≠ .fifoba) (mask : BitVec 32) :
    (regSet x mask).Moves HomeStep :=
  .modify fun _ => .same rfl rfl (Function.update_of_ne hx.symm _ _)

theorem regClear_home {x : Reg} (hx : x ≠ .fifoba) (mask : BitVec 32) :
    (regClear x mask).Moves HomeStep :=
  .modify fun _ => .same rfl rfl (Function.update_of_ne hx.symm _ _)

theorem setTxBusy_home (b : Bool) : (setTxBusy b).Moves HomeStep := .modify fun _ => .same rfl rfl rfl

theorem setIsrEnabled_home (b : Bool) : (setIsrEnabled b).Moves HomeStep :=
  .modify fun _ => .same rfl rfl rfl

theorem onRx_home (f : Line → Line) : (onRx f).Moves HomeStep := .modify fun _ => .same rfl rfl rfl

theorem onTx_home (f : Line → Line) : (onTx f).Moves HomeStep := .modify fun _ => .same rfl rfl rfl

theorem onGen_home (f : Line → Line) : (onGen f).Moves HomeStep := .modify fun _ => .same rfl rfl rfl

theorem irqLineEnable_home (priority : BitVec 8) : (irqLineEnable priority).Moves HomeStep := by
  refine .bind (.modify fun _ => .same rfl rfl rfl) fun _ => .bind (onRx_home _) fun _ => ?_
  refine .bind (onRx_home _) fun _ => .bind (onRx_home _) fun _ => .bind (onGen_home _) fun _ => ?_
  exact .bind (onGen_home _) fun _ => onGen_home _

theorem irqLineDisable_home : irqLineDisable.Moves HomeStep := by
  refine .bind (onRx_home _) fun _ => .bind (onRx_home _) fun _ => .bind (onTx_home _) fun _ => ?_
  exact .bind (onTx_home _) fun _ => .bind (onGen_home _) fun _ => onGen_home _

theorem isrEnable_home (priority : BitVec 8) : (isrEnable priority).Moves HomeStep := by
  refine .ite (.pure _) (.bind getRegs_reads fun _ => .ite (.pure _) (.bind .get fun _ => ?_))
  refine .ite (.pure _) (.bind (regSet_home (by decide) _) fun _ => ?_)
  refine .bind (regSet_home (by decide) _) fun _ => .bind (setTxBusy_home _) fun _ => ?_
  exact .bind (irqLineEnable_home _) fun _ => .bind (setIsrEnabled_home _) fun _ => .pure _

theorem isrDisable_home : isrDisable.Moves HomeStep := by
  refine .bind getRegs_reads fun _ => .ite (.pure _) (.bind (setIsrEnabled_home _) fun _ => ?_)
  refine .bind irqLineDisable_home fun _ => .bind (regClear_home (by decide) _) fun _ => ?_
  refine .bind (regClear_home (by decide) _) fun _ => .bind (regClear_home (by decide) _) fun _ => ?_
  exact .bind (setTxBusy_home _) fun _ => .pure _

theorem txStart_home (frame : Option Frame) (room : Poll) :
    (txStart frame room).Moves HomeStep := by
  have htransmit := (transmit_moves frame room).mono fun _ _ h => HomeStep.of_traffic h
  refine .bind getRegs_reads fun _ => .ite (.pure _) (.bind .get fun _ => .ite (.pure _) ?_)
  refine .bind htransmit fun _ => .ite (.pure _) (.bind (setTxBusy_home _) fun _ => ?_)
  refine .bind (regSet_home (by decide) _) fun _ => .bind (regSet_home (by decide) _) fun _ => ?_
  refine .bind (.bind (onTx_home _) fun _ => .bind .get fun _ => ?_) fun _ => .pure _
  exact .bind (onTx_home _) fun _ => onTx_home _

theorem getStatus_reads {R : Chan → Chan → Prop} [Std.Refl R] : getStatus.Moves R :=
  .bind getRegs_reads fun _ => .ite (.pure _) (.bind .get fun _ => .bind .get fun _ => .pure _)

theorem clearRxOverflow_home : clearRxOverflow.Moves HomeStep :=
  .bind getRegs_reads fun _ => .ite (.pure _) <|
    .bind (regClear_home (by decide) _) fun _ => .pure _

theorem deinit_home (toOff : Poll) : (deinit toOff).Yields HomeStep := by
  intro c st d h
  cases hp : c.present with
  | false =>
    rw [exec_deinit_absent toOff hp] at h
    cases h
    exact .refl _
  | true =>
    rw [exec_deinit toOff hp] at h
    split at h
    next =>
      cases h
      exact .down rfl rfl
    next =>
      split at h
      next => cases h
      next =>
        cases h
        exact .down rfl rfl

theorem setBitrate_home (canClkHz nominalBps dataBps : BitVec 32) (samplePct : BitVec 8)
    (toConfig toMode : Poll) :
    (setBitrate canClkHz nominalBps dataBps samplePct toConfig toMode).Yields HomeStep :=
  fun _ _ _ h => .of_setBitrate (setBitrate_outcome h)

theorem init_home {config : Option Config} (toConfig toMode : Poll)
    (hown : ∀ cfg, config = some cfg → cfg.Accepted → Owned W cfg.msgRam) :
    (init config toConfig toMode).Yields fun c d => Homed W c → Homed W d := by
  intro c st d h hc
  obtain ⟨-, rfl⟩ | ⟨cfg, t, hcfg, hacc, -, -, hup⟩ := init_cases h
  · exact hc
  · exact ⟨hup.ctx ▸ hc.ctx, fun hd => HomeStep.of_bringUp hup hd ▸ hown cfg hcfg hacc⟩

end NoraCanfd

namespace Cmsis

theorem canInitialize_home (cbUnit cbObject : Option Callback) :
    (canInitialize cbUnit cbObject).Moves HomeStep := by
  refine .bind .get fun _ => .ite (.pure _) (.bind (.modify fun _ => .setCtx rfl) fun _ => ?_)
  refine .bind (.modify fun _ => .setCtx rfl) fun _ => .bind (.modify fun _ => .setCtx rfl) fun _ => ?_
  exact .bind (.modify fun _ => .setCtx rfl) fun _ => .pure _

theorem canGetStatus_reads {R : Chan → Chan → Prop} [Std.Refl R] : canGetStatus.Moves R := by
  refine .bind .get fun _ => .ite (.pure _) (.bind getStatus_reads fun x => ?_)
  split <;> exact .pure _

end Cmsis

end CanfdDriver
