import CanfdDriver.Cmsis.Run
import CanfdDriver.Hal.BitTiming

namespace CanfdDriver

open Lib NoraCanfd Cmsis

namespace NoraCanfd

theorem getRegs_avoids {e : Stop} : getRegs.Avoids e := .bind .get fun _ => .pure _

theorem pollUntil_avoids (done : BitVec 32 → Bool) (start : BitVec 32) (xs : List Sample) :
    (pollUntil done start xs).Avoids .divByZero := by
  induction xs with
  | nil => exact .fail (by decide)
  | cons x xs ih => exact .ite (.pure _) (.bind .get fun _ => .ite (.pure _) ih)

theorem requestMode_avoids (reqop : BitVec 8) (p : Poll) :
    (requestMode reqop p).Avoids .divByZero :=
  .bind (.bind .get fun _ => .pure _) fun _ => .bind .modify fun _ => pollUntil_avoids _ _ _

theorem waitFlag_avoids (mask : BitVec 32) (p : Poll) : (waitFlag mask p).Avoids .divByZero :=
  .bind (.bind .get fun _ => .pure _) fun _ => pollUntil_avoids _ _ _

theorem configure_avoids (cfg : Config) (t : BitTiming) {e : Stop} :
    (configure cfg t).Avoids e := by
  intro c h
  rw [exec_configure] at h
  cases h

theorem bringUp_avoids (cfg : Config) (t : BitTiming) (toConfig toMode : Poll) :
    (bringUp cfg t toConfig toMode).Avoids .divByZero := by
  refine .bind .modify fun _ => .bind .modify fun _ => .bind .modify fun _ => ?_
  refine .bind .modify fun _ => .bind .modify fun _ => ?_
  refine .bind (requestMode_avoids _ _) fun _ => .ite (.bind .modify fun _ => .pure _) ?_
  refine .bind (configure_avoids _ _) fun _ => .bind (requestMode_avoids _ _) fun _ => ?_
  exact .ite (.bind .modify fun _ => .pure _) (.bind .modify fun _ => .bind .modify fun _ => .pure _)

theorem retime_avoids (t : BitTiming) (toConfig toMode : Poll) :
    (retime t toConfig toMode).Avoids .divByZero := by
  refine .bind .get fun _ => .bind (requestMode_avoids _ _) fun _ => .ite (.pure _) ?_
  exact .bind (.bind .modify fun _ => .bind .modify fun _ => .modify) fun _ =>
    requestMode_avoids _ _

theorem deinit_avoids (toOff : Poll) : (deinit toOff).Avoids .divByZero := by
  refine .bind getRegs_avoids fun _ => .ite (.pure _) (.bind .get fun _ => .ite ?_ ?_)
  · exact .bind .modify fun _ => .pure _
  · exact .bind (requestMode_avoids _ _) fun _ => .bind .modify fun _ => .bind .modify fun _ =>
      .bind .modify fun _ => .pure _

theorem isrSetCallback_avoids (cb : Option EventCallback) (ud : Option UserData) {e : Stop} :
    (isrSetCallback cb ud).Avoids e :=
  .bind .modify fun _ => .bind .modify fun _ => .pure _

theorem isrDisable_avoids {e : Stop} : isrDisable.Avoids e := by
  intro c h
  cases hp : c.present with
  | false =>
    rw [isrDisable_absent hp] at h
    cases h
  | true =>
    rw [exec_isrDisable hp] at h
    cases h

theorem isrEnable_avoids (priority : BitVec 8) {e : Stop} : (isrEnable priority).Avoids e := by
  refine .ite (.pure _) (.bind getRegs_avoids fun _ => .ite (.pure _) (.bind .get fun _ => ?_))
  refine .ite (.pure _) (.bind .modify fun _ => .bind .modify fun _ => .bind .modify fun _ => ?_)
  refine .bind ?_ fun _ => .bind .modify fun _ => .pure _
  exact .bind .modify fun _ => .bind .modify fun _ => .bind .modify fun _ =>
    .bind .modify fun _ => .bind .modify fun _ => .bind .modify fun _ => .modify

theorem txAbort_avoids {e : Stop} : txAbort.Avoids e := by
  refine .bind getRegs_avoids fun _ => .ite (.pure _) (.bind ?_ fun _ => .pure _)
  exact .bind .modify fun _ => .bind .modify fun _ =>
    .bind (.bind .modify fun _ => .modify) fun _ => .modify

theorem writePayload_avoids (obj : BitVec 32) (f : Frame) (n : Nat) {e : Stop} :
    (writePayload obj f n).Avoids e := by
  induction n with
  | zero => exact .pure _
  | succ n ih => exact .bind ih fun _ => .modify

theorem transmit_avoids (frame : Option Frame) (room : Poll) :
    (transmit frame room).Avoids .divByZero := by
  cases frame with
  | none => exact .pure _
  | some f =>
    refine .ite (.pure _) (.ite (.pure _) (.bind .get fun _ => .ite (.pure _) ?_))
    refine .bind (waitFlag_avoids _ _) fun _ => .ite (.pure _) (.bind .get fun c => ?_)
    exact .bind .modify fun _ => .bind .modify fun _ => .bind (writePayload_avoids _ _ _) fun _ =>
      .bind .modify fun _ => .bind .modify fun _ => .pure _

end NoraCanfd

namespace Cmsis

variable {c : Chan} {env : Env}

theorem canMessageRead_avoids (args : ReadArgs) {e : Stop} : (canMessageRead args).Avoids e := by
  refine .bind .get fun _ => .ite (.pure _) (.ite (.pure _) ?_)
  refine .bind .get fun _ => .bind .get fun _ => .ite (.pure _) (.bind .get fun _ => ?_)
  exact .bind .modify fun _ => .pure _

theorem canMessageSend_avoids (objIdx : BitVec 32) (info : Option MsgInfo)
    (data : Option (Nat → BitVec 8)) (size : Nat) :
    (canMessageSend objIdx info data size env).Avoids .divByZero := by
  refine .bind .get fun _ => .ite (.pure _) ?_
  cases info with
  | none => exact .pure _
  | some info =>
    refine .ite (.pure _) (.ite (.pure _) (.bind .get fun _ => .ite (.pure _) ?_))
    exact .bind (transmit_avoids _ _) fun _ => .ite (.pure _) (.pure _)

theorem armEvents_avoids (mode : Mode) : (armEvents mode env).Avoids .divByZero := by
  refine .bind (isrSetCallback_avoids _ _) fun _ => .bind .get fun _ => ?_
  refine .bind (isrEnable_avoids _) fun _ => .ite ?_ (.bind .modify fun _ => .pure _)
  exact .bind (isrSetCallback_avoids _ _) fun _ => .bind (deinit_avoids _) fun _ => .pure _

theorem canInitialize_avoids (cbUnit cbObject : Option Callback) {e : Stop} :
    (canInitialize cbUnit cbObject).Avoids e :=
  .bind .get fun _ => .ite (.pure _) <|
  .bind .modify fun _ => .bind .modify fun _ => .bind .modify fun _ => .bind .modify fun _ =>
  .pure _

theorem powerOff_avoids : (powerOff env).Avoids .divByZero := by
  refine .bind .get fun _ => .bind (.ite ?_ (.pure _)) fun _ => .bind .modify fun _ => .pure _
  exact .bind isrDisable_avoids fun _ => .bind (isrSetCallback_avoids _ _) fun _ =>
    .bind (deinit_avoids _) fun _ => .pure _

theorem canUnInitialize_avoids : (canUnInitialize env).Avoids .divByZero := by
  refine .bind .get fun _ => .bind (.ite ?_ (.pure _)) fun _ => ?_
  · exact .bind (.bind .get fun _ => .ite (.pure _) powerOff_avoids) fun _ => .pure _
  · exact .bind .modify fun _ => .bind .modify fun _ => .bind .modify fun _ => .pure _

theorem abortMessageSend_avoids (arg : BitVec 32) {e : Stop} : (abortMessageSend arg).Avoids e :=
  .bind .get fun _ => .ite (.pure _) (.ite (.pure _) (.bind txAbort_avoids fun _ => .pure _))

def ctxTraps (x : Context) : Prop :=
  TimingTraps x.canClkHz.toNat x.nominalBps.toNat x.dataBps.toNat
    (effectiveSamplePct x.samplePct).toNat

theorem ctxTiming_traps {x : Context} {e : Stop} :
    ctxTiming x = .error e ↔ e = .divByZero ∧ ctxTraps x := calcBitTiming_traps

/-- The calls that run the solver, and the settings they run it with. -/
inductive Solves (c : Chan) : Call → Context → Prop
  | full : c.ctx.initialized = true → c.ctx.powered = false → Solves c (.canPowerControl .full) c.ctx
  | rate {select : BitrateSelect} {bitrate bitSegments : BitVec 32} {x : Context} :
      bitrate ≠ 0 → select ≠ .other → c.ctx.powered = true → c.node.initialized = true →
      x = cacheRate c.ctx select bitrate bitSegments →
      ¬(x.canClkHz = 0 ∨ x.nominalBps = 0 ∨ x.dataBps = 0) →
      Solves c (.canSetBitrate select bitrate bitSegments) x
  | mode {arm : ArmMode} {mode : Mode} : c.ctx.initialized = true → c.ctx.powered = true →
      setModeTarget c.ctx arm = some mode → mode ≠ c.ctx.mode → Solves c (.canSetMode arm) c.ctx
  | fd {code arg : BitVec 32} : c.ctx.initialized = true → c.ctx.powered = true →
      code &&& controlMsk = setFdModeCode → arg = fdModeDisable ∨ arg = fdModeEnable →
      fdModeTarget (cacheFdMode c.ctx arg) ≠ .none →
      Solves c (.canControl code arg) (cacheFdMode c.ctx arg)

theorem canApplyInit_traps {mode : Mode} :
    (canApplyInit mode env).exec c = .error .divByZero ↔
      c.present = true ∧ mode ≠ .none ∧ ctxTraps c.ctx := by
  cases hp : c.present with
  | false => simp [exec_canApplyInit_absent hp]
  | true =>
    by_cases hmode : mode = .none
    · subst hmode
      simp [exec_canApplyInit_none hp]
    · rw [exec_canApplyInit hp hmode]
      cases ht : ctxTiming c.ctx with
      | error e =>
        obtain ⟨rfl, htraps⟩ := ctxTiming_traps.mp ht
        simp [hmode, htraps]
      | ok t =>
        have hno : ¬ctxTraps c.ctx := by
          intro htraps
          rw [ctxTiming_traps.mpr ⟨rfl, htraps⟩] at ht
          cases ht
        simp only [hno, and_false, iff_false]
        cases t with
        | none => simp
        | some t =>
          have hup := bringUp_avoids (ctxConfig c.ctx mode) t env.toConfig env.toMode c.quiet
          simp only
          split
          next e hb => exact fun he => hup (hb.trans (congrArg _ (Except.error.inj he)))
          next st d hb =>
            split
            next => simp
            next => exact armEvents_avoids mode d

theorem powerFull_traps :
    (powerFull env).exec c = .error .divByZero ↔
      c.ctx.powered = false ∧ c.present = true ∧ ctxTraps c.ctx := by
  cases hpow : c.ctx.powered with
  | true => simp [powerFull, Prog.exec_bind, hpow]
  | false =>
    have happ : _ ↔ c.present = true ∧ _ ∧ ctxTraps c.ctx :=
      @canApplyInit_traps (emptied c) env (canNormalModeForCtx c.ctx)
    rw [and_iff_right (canNormalModeForCtx_ne_none c.ctx)] at happ
    rw [exec_powerFull hpow, and_iff_right rfl, ← happ]
    cases (canApplyInit (canNormalModeForCtx c.ctx) env).exec (emptied c) with
    | error e => simp
    | ok q =>
      simp only
      split <;> simp

theorem setBitrate_traps {canClkHz nominalBps dataBps : BitVec 32} {samplePct : BitVec 8}
    {toConfig toMode : Poll} :
    (setBitrate canClkHz nominalBps dataBps samplePct toConfig toMode).exec c =
      .error .divByZero ↔ ¬(canClkHz = 0 ∨ nominalBps = 0 ∨ dataBps = 0) ∧ c.present = true ∧
        c.node.initialized = true ∧
        calcBitTiming canClkHz nominalBps dataBps (effectiveSamplePct samplePct) =
          .error .divByZero := by
  by_cases hz : canClkHz = 0 ∨ nominalBps = 0 ∨ dataBps = 0
  · rw [setBitrate, if_pos hz]
    simp only [hz, not_true_eq_false, false_and, iff_false]
    exact Prog.Avoids.pure _ c
  cases hp : c.present with
  | false =>
    simp only [setBitrate, if_neg hz, Prog.exec_bind, exec_getRegs, hp, Bool.false_eq_true,
      if_false, ne_eq, reduceCtorEq, not_false_eq_true, if_true, Prog.exec_pure, false_and,
      and_false]
  | true =>
    cases hi : c.node.initialized with
    | false =>
      simp only [setBitrate, if_neg hz, Prog.exec_bind, exec_getRegs, hp, if_true, ne_eq,
        not_true_eq_false, if_false, Prog.exec_get, hi, Bool.not_false, Prog.exec_pure,
        reduceCtorEq, Bool.false_eq_true, false_and, and_false]
    | true =>
      rw [exec_setBitrate hz hp hi]
      simp only [hz, not_false_eq_true, true_and]
      cases calcBitTiming canClkHz nominalBps dataBps (effectiveSamplePct samplePct) with
      | error e => simp
      | ok t =>
        cases t with
        | none => simp
        | some t => simpa using retime_avoids t toConfig toMode c

theorem applyBitrate_traps :
    (applyBitrate env).exec c = .error .divByZero ↔ c.ctx.powered = true ∧
      ¬(c.ctx.canClkHz = 0 ∨ c.ctx.nominalBps = 0 ∨ c.ctx.dataBps = 0) ∧ c.present = true ∧
      c.node.initialized = true ∧ ctxTraps c.ctx := by
  by_cases hpow : c.ctx.powered = true
  · have hn : ¬(!c.ctx.powered) = true := by simp [hpow]
    have hset : _ ↔ _ ∧ _ ∧ _ ∧ ctxTiming c.ctx = .error .divByZero :=
      @setBitrate_traps c c.ctx.canClkHz c.ctx.nominalBps c.ctx.dataBps c.ctx.samplePct
        env.toConfig env.toMode
    simp only [ctxTiming_traps, true_and] at hset
    rw [and_iff_right hpow, ← hset, applyBitrate, Prog.exec_bind_of_ok (Prog.exec_get c), if_neg hn,
      Prog.exec_bind_of_ok (Prog.exec_get c), Prog.exec_bind]
    cases (setBitrate c.ctx.canClkHz c.ctx.nominalBps c.ctx.dataBps c.ctx.samplePct env.toConfig
      env.toMode).exec c with
    | error e => simp
    | ok q => simp
  · simp [exec_applyBitrate_unpowered hpow, hpow]

theorem canPowerControl_traps {state : PowerState} :
    (canPowerControl state env).exec c = .error .divByZero ↔
      c.present = true ∧ ∃ x, Solves c (.canPowerControl state) x ∧ ctxTraps x := by
  unfold canPowerControl
  rw [Prog.exec_bind_of_ok (Prog.exec_get c)]
  by_cases hi : c.ctx.initialized = true
  · have hn : ¬(!c.ctx.initialized) = true := by simp [hi]
    rw [if_neg hn]
    cases state with
    | full =>
      refine powerFull_traps.trans ⟨?_, ?_⟩
      · rintro ⟨hpow, hp, htraps⟩
        exact ⟨hp, _, .full hi hpow, htraps⟩
      · rintro ⟨hp, x, ⟨-, hpow⟩, htraps⟩
        exact ⟨hpow, hp, htraps⟩
    | off => exact iff_of_false (powerOff_avoids c) fun ⟨_, x, hx, _⟩ => by cases hx
    | low | other => exact iff_of_false (Prog.Avoids.pure _ c) fun ⟨_, x, hx, _⟩ => by cases hx
  · have hn : (!c.ctx.initialized) = true := by simpa using hi
    rw [if_pos hn]
    refine iff_of_false (Prog.Avoids.pure _ c) ?_
    rintro ⟨-, x, ⟨hi', -⟩, -⟩
    exact hi hi'

theorem canSetBitrate_traps {select : BitrateSelect} {bitrate bitSegments : BitVec 32} :
    (canSetBitrate select bitrate bitSegments env).exec c = .error .divByZero ↔
      c.present = true ∧
        ∃ x, Solves c (.canSetBitrate select bitrate bitSegments) x ∧ ctxTraps x := by
  by_cases hb : bitrate = 0
  · simp only [canSetBitrate, if_pos hb]
    refine iff_of_false (Prog.Avoids.pure _ c) ?_
    rintro ⟨-, x, hx, -⟩
    cases hx with
    | rate hb' => exact hb' hb
  rw [exec_canSetBitrate hb]
  split
  next hsel =>
    refine iff_of_false (by simp) ?_
    rintro ⟨-, x, hx, -⟩
    cases hx with
    | rate _ hsel' => exact hsel' hsel
  next hsel =>
    have hrate := @applyBitrate_traps (c.setCtx (cacheRate c.ctx select bitrate bitSegments)) env
    rw [hrate, Chan.setCtx_ctx, cacheRate_powered]
    constructor
    · rintro ⟨hpow, hz, hp, hi, htraps⟩
      exact ⟨hp, _, .rate hb hsel hpow hi rfl hz, htraps⟩
    · rintro ⟨hp, x, hx, htraps⟩
      cases hx with
      | rate _ _ hpow hi hx hz =>
        subst hx
        exact ⟨hpow, hz, hp, hi, htraps⟩

theorem changeMode_traps {mode : Mode} :
    (changeMode mode env).exec c = .error .divByZero ↔ c.ctx.powered = true ∧
      mode ≠ c.ctx.mode ∧ c.present = true ∧ mode ≠ .none ∧ ctxTraps c.ctx := by
  rw [changeMode, Prog.exec_bind_of_ok (Prog.exec_get c)]
  by_cases hpow : c.ctx.powered = true
  · have hn : ¬(!c.ctx.powered) = true := by simp [hpow]
    rw [if_neg hn, and_iff_right hpow]
    by_cases hm : mode = c.ctx.mode
    · rw [if_pos hm]
      exact iff_of_false (Prog.Avoids.pure _ c) fun h => h.1 hm
    · rw [if_neg hm, canApplyInit_traps, ne_eq mode c.ctx.mode, and_iff_right hm]
  · have hn : (!c.ctx.powered) = true := by simpa using hpow
    rw [if_pos hn]
    exact iff_of_false (Prog.Avoids.pure _ c) fun h => hpow h.1

theorem canSetMode_traps {arm : ArmMode} :
    (canSetMode arm env).exec c = .error .divByZero ↔
      c.present = true ∧ ∃ x, Solves c (.canSetMode arm) x ∧ ctxTraps x := by
  unfold canSetMode
  rw [Prog.exec_bind_of_ok (Prog.exec_get c)]
  by_cases hi : c.ctx.initialized = true
  · have hn : ¬(!c.ctx.initialized) = true := by simp [hi]
    rw [if_neg hn]
    cases arm with
    | initialization | restricted | other =>
      refine iff_of_false (Prog.Avoids.pure _ c) ?_
      rintro ⟨-, x, hx, -⟩
      cases hx with
      | mode _ _ ht => cases ht
    | normal | monitor | loopbackInternal | loopbackExternal =>
      refine (changeMode_traps (c := c)).trans ⟨?_, ?_⟩
      · rintro ⟨hpow, hm, hp, -, htraps⟩
        exact ⟨hp, _, .mode hi hpow rfl hm, htraps⟩
      · rintro ⟨hp, x, hx, htraps⟩
        cases hx with
        | mode _ hpow ht hm =>
          obtain rfl := Option.some.inj ht
          exact ⟨hpow, hm, hp, setModeTarget_ne_none ht, htraps⟩
  · have hn : (!c.ctx.initialized) = true := by simpa using hi
    rw [if_pos hn]
    refine iff_of_false (Prog.Avoids.pure _ c) ?_
    rintro ⟨-, x, hx, -⟩
    cases hx with
    | mode hi' => exact hi hi'

theorem setFdMode_traps {arg : BitVec 32} :
    (setFdMode arg env).exec c = .error .divByZero ↔ (arg = fdModeDisable ∨ arg = fdModeEnable) ∧
      c.ctx.powered = true ∧ c.present = true ∧ fdModeTarget (cacheFdMode c.ctx arg) ≠ .none ∧
      ctxTraps (cacheFdMode c.ctx arg) := by
  have hiff : (arg = fdModeDisable ∨ arg = fdModeEnable) ↔
      ¬(arg ≠ fdModeDisable ∧ arg ≠ fdModeEnable) := by
    rw [not_and_or, not_not, not_not]
  rw [hiff]
  by_cases ha : arg ≠ fdModeDisable ∧ arg ≠ fdModeEnable
  · simp only [setFdMode, if_pos ha]
    exact iff_of_false (Prog.Avoids.pure _ c) fun h => h.1 ha
  · rw [exec_setFdMode ha, and_iff_right ha]
    by_cases hpow : c.ctx.powered = true
    · rw [if_pos hpow, canApplyInit_traps, and_iff_right hpow]
      rfl
    · rw [if_neg hpow]
      exact iff_of_false (by simp) fun h => hpow h.1

theorem canControl_traps {code arg : BitVec 32} :
    (canControl code arg env).exec c = .error .divByZero ↔
      c.present = true ∧ ∃ x, Solves c (.canControl code arg) x ∧ ctxTraps x := by
  unfold canControl
  rw [Prog.exec_bind_of_ok (Prog.exec_get c)]
  by_cases hi : c.ctx.initialized = true
  · have hn : ¬(!c.ctx.initialized) = true := by simp [hi]
    rw [if_neg hn]
    by_cases hcode : code &&& controlMsk = setFdModeCode
    · rw [if_pos hcode]
      refine setFdMode_traps.trans ⟨?_, ?_⟩
      · rintro ⟨harg, hpow, hp, hm, htraps⟩
        exact ⟨hp, _, .fd hi hpow hcode harg hm, htraps⟩
      · rintro ⟨hp, x, hx, htraps⟩
        cases hx with
        | fd _ hpow _ harg hm => exact ⟨harg, hpow, hp, hm, htraps⟩
    · rw [if_neg hcode]
      refine iff_of_false (Prog.Avoids.ite (abortMessageSend_avoids arg) (.pure _) c) ?_
      rintro ⟨-, x, hx, -⟩
      cases hx with
      | fd _ _ hcode' => exact hcode hcode'
  · have hn : (!c.ctx.initialized) = true := by simpa using hi
    rw [if_pos hn]
    refine iff_of_false (Prog.Avoids.pure _ c) ?_
    rintro ⟨-, x, hx, -⟩
    cases hx with
    | fd hi' => exact hi hi'

/-- A call divides by zero just when it runs the solver on settings that do. -/
theorem call_traps {call : Call} : (call.run env).exec c = .error .divByZero ↔
    c.present = true ∧ ∃ x, Solves c call x ∧ ctxTraps x := by
  have hsafe (hno : ∀ x, ¬Solves c call x) (hcall : (call.run env).Avoids .divByZero) :
      (call.run env).exec c = .error .divByZero ↔
        c.present = true ∧ ∃ x, Solves c call x ∧ ctxTraps x :=
    ⟨fun h => absurd h (hcall c), fun ⟨_, x, hx, _⟩ => absurd hx (hno x)⟩
  cases call with
  | canInitialize cbUnit cbObject =>
    exact hsafe (fun x hx => by cases hx) (canInitialize_avoids cbUnit cbObject)
  | canUnInitialize => exact hsafe (fun x hx => by cases hx) canUnInitialize_avoids
  | canPowerControl state => exact canPowerControl_traps
  | canSetBitrate select bitrate bitSegments => exact canSetBitrate_traps
  | canSetMode mode => exact canSetMode_traps
  | canControl code arg => exact canControl_traps
  | canMessageSend objIdx info data size =>
    exact hsafe (fun x hx => by cases hx) (canMessageSend_avoids objIdx info data size)
  | canMessageRead args =>
    exact hsafe (fun x hx => by cases hx) (.bind (canMessageRead_avoids args) fun _ => .pure _)

end Cmsis

/-- The solver comes back, and a call comes back from it, unless a prescaler at which the divisor
wraps to zero is reached. -/
theorem division_safe_iff (c : Chan) (env : Env) (call : Call) :
    (∀ canClkHz nominalBps dataBps samplePct,
      (∃ t, calcBitTiming canClkHz nominalBps dataBps samplePct = .ok t) ↔
        ¬TimingTraps canClkHz.toNat nominalBps.toNat dataBps.toNat samplePct.toNat) ∧
      ((call.run env).exec c ≠ .error .divByZero ↔
        (c.present = true → ∀ x, Solves c call x → ¬ctxTraps x)) := by
  refine ⟨fun _ _ _ _ => calcBitTiming_returns, ?_⟩
  rw [ne_eq, call_traps]
  push Not
  rfl

/-- On a powered instance the nominal rate 0x80000000 is divided by at the prescaler 2. -/
theorem division_by_zero_in_setBitrate :
    ∃ c, Reach Step (fun _ _ => True) exampleDevice.boot c ∧
      ((Call.canSetBitrate .nominal 0x80000000 0).run (granting .normalFd)).exec c =
        .error .divByZero := by
  have hrun : ∃ c, Reach Step (fun _ _ => True) exampleDevice.boot c ∧
      (match ((Call.canSetBitrate .nominal 0x80000000 0).run (granting .normalFd)).exec c with
        | .error .divByZero => true
        | _ => false) = true := by
    exact reach_of_replay (fun _ _ _ _ => true) powerUp _ (fun _ _ _ _ _ => trivial)
      (by decide +kernel)
  obtain ⟨c, hc, hp⟩ := hrun
  refine ⟨c, hc, ?_⟩
  split at hp
  next h => exact h
  next => cases hp

end CanfdDriver
