import CanfdDriver.Cmsis.Traffic
import CanfdDriver.Hal.Effects

namespace CanfdDriver

open Lib NoraCanfd Cmsis

namespace Chan

def quiet (c : Chan) : Chan := c.isrOff.setCallback none none

def applied (c : Chan) (mode : Mode) (t : BitTiming) : Chan :=
  (((c.quiet.live (ctxConfig c.ctx mode) t).setCallback (some .canHalEvent) (some .ctx)).isrOn
    (effectivePriority c.ctx.irqPriority)).setCtx { c.ctx with mode := mode }

theorem applied_present (c : Chan) (mode : Mode) (t : BitTiming) :
    (c.applied mode t).present = c.present := by
  simp only [applied, live_present, quiet, setCtx_present, isrOn_present, setCallback_present,
    isrOff_present]

theorem applied_ctx (c : Chan) (mode : Mode) (t : BitTiming) :
    (c.applied mode t).ctx = { c.ctx with mode := mode } := rfl

theorem applied_mode (c : Chan) (mode : Mode) (t : BitTiming) :
    (c.applied mode t).ctx.mode = mode := rfl

theorem applied_fdMode (c : Chan) (mode : Mode) (t : BitTiming) :
    (c.applied mode t).ctx.fdMode = c.ctx.fdMode := rfl

theorem applied_con (c : Chan) (mode : Mode) (t : BitTiming) :
    (c.applied mode t).regs .con =
      ((configureCon (c.ctx.fdMode ≠ 0)).andThen (reqopWrite (modeToReqop mode))).apply
        (((MaskedWrite.set conOn).andThen (reqopWrite opmodeConfig)).apply (c.regs .con)) := rfl

theorem retimed_con (c : Chan) (t : BitTiming) :
    (c.retimed t).regs .con = (reqopWrite (modeToReqop c.mode)).apply
      ((reqopWrite opmodeConfig).apply (c.regs .con)) := rfl

theorem retimed_con_and {b : BitVec 32} (h : b &&& conReqopMask = 0) (c : Chan) (t : BitTiming) :
    (c.retimed t).regs .con &&& b = c.regs .con &&& b := by
  rw [retimed_con, reqopWrite_and_of_disjoint h, reqopWrite_and_of_disjoint h]

end Chan

namespace Cmsis

variable {c d : Chan} {mode : Mode} {env : Env} {r : Int}

def ctxTiming (ctx : Context) : Except Stop (Option BitTiming) :=
  calcBitTiming ctx.canClkHz ctx.nominalBps ctx.dataBps (effectiveSamplePct ctx.samplePct)

instance (x : Context) : Decidable (∃ t, ctxTiming x = .ok (some t)) :=
  match h : ctxTiming x with
  | .ok (some t) => isTrue ⟨t, rfl⟩
  | .ok none => isFalse fun ⟨_, ht⟩ => by cases ht
  | .error _ => isFalse fun ⟨_, ht⟩ => by cases ht

theorem ctxTiming_congr {x y : Context} (hk : x.canClkHz = y.canClkHz)
    (hn : x.nominalBps = y.nominalBps) (hd : x.dataBps = y.dataBps)
    (hs : x.samplePct = y.samplePct) : ctxTiming x = ctxTiming y := by
  rw [ctxTiming, ctxTiming, hk, hn, hd, hs]

def ctxNode (ctx : Context) : NodeState := ⟨false, true, ctx.timeoutMs⟩

theorem ctxConfig_accepted (ctx : Context) (hmode : mode ≠ .none) :
    (ctxConfig ctx mode).Accepted :=
  ⟨ctx.msgRam.addr_ne_zero, ctx.msgRam.aligned, ctx.msgRam.size_le, hmode⟩

@[simp] theorem ctxConfig_timing (ctx : Context) :
    (ctxConfig ctx mode).timing = ctxTiming ctx := rfl

@[simp] theorem ctxConfig_node (ctx : Context) : (ctxConfig ctx mode).node = ctxNode ctx := rfl

/-- How `can_apply_init` can end. -/
inductive ApplyInit (c : Chan) (mode : Mode) (env : Env) : Int → Chan → Prop
  | absent {r : Int} : c.present = false → r < 0 →
      ApplyInit c mode env r (c.setCallback none none)
  | refused : c.present = true → mode = .none ∨ ctxTiming c.ctx = .ok none →
      ApplyInit c mode env armDriverErrorParameter c.quiet
  | timeout {t : BitTiming} {d : Chan} : c.present = true → ctxTiming c.ctx = .ok (some t) →
      BringUp c.quiet (ctxConfig c.ctx mode) t env.toConfig env.toMode .timeout d →
      ApplyInit c mode env armDriverErrorTimeout d
  | badPriority {t : BitTiming} : c.present = true → ctxTiming c.ctx = .ok (some t) →
      Granted (ctxNode c.ctx) opmodeConfig env.toConfig →
      Granted (ctxNode c.ctx) (modeToReqop mode) env.toMode →
      effectivePriority c.ctx.irqPriority > 7 → mode ≠ .none →
      ApplyInit c mode env armDriverErrorParameter
        ((c.quiet.live (ctxConfig c.ctx mode) t).setCallback none none).off
  | applied {t : BitTiming} : c.present = true → ctxTiming c.ctx = .ok (some t) →
      Granted (ctxNode c.ctx) opmodeConfig env.toConfig →
      Granted (ctxNode c.ctx) (modeToReqop mode) env.toMode →
      ¬effectivePriority c.ctx.irqPriority > 7 → mode ≠ .none →
      ApplyInit c mode env armDriverOk (c.applied mode t)

theorem exec_init_none_mode {toConfig toMode : Poll} (ctx : Context) :
    (init (some (ctxConfig ctx .none)) toConfig toMode).exec c = .ok (.invalidArg, c) := by
  simp [init, ctxConfig]

theorem exec_canApplyInit_absent (hp : c.present = false) :
    (canApplyInit mode env).exec c =
      .ok (if mode = .none then armDriverErrorParameter else armDriverError,
        c.setCallback none none) := by
  have hdis := isrDisable_absent hp
  by_cases hmode : mode = .none
  · subst hmode
    simp only [canApplyInit, Prog.exec_bind, hdis, exec_isrSetCallback, Prog.exec_get,
      exec_init_none_mode, ne_eq, reduceCtorEq, not_false_eq_true, if_true, Prog.exec_pure,
      canHalToArm]
  · have hinit : (init (some (ctxConfig (c.setCallback none none).ctx mode)) env.toConfig
        env.toMode).exec (c.setCallback none none) = .ok (.notPresent, c.setCallback none none) :=
      exec_init_absent (c := c.setCallback none none) (ctxConfig_accepted c.ctx hmode) hp _ _
    simp only [canApplyInit, Prog.exec_bind, hdis, exec_isrSetCallback, Prog.exec_get, hinit,
      ne_eq, reduceCtorEq, not_false_eq_true, if_true, if_neg hmode, Prog.exec_pure, canHalToArm]

theorem exec_canApplyInit_none (hp : c.present = true) :
    (canApplyInit .none env).exec c = .ok (armDriverErrorParameter, c.quiet) := by
  simp only [canApplyInit, Prog.exec_bind, exec_isrDisable hp, exec_isrSetCallback,
    Prog.exec_get, exec_init_none_mode, ne_eq, reduceCtorEq, not_false_eq_true, if_true,
    Prog.exec_pure, canHalToArm]
  rfl

theorem exec_armEvents (hp : d.present = true) (hm : d.mode ≠ .none) :
    (armEvents mode env).exec d =
      if effectivePriority d.ctx.irqPriority > 7 then
        match requestOutcome d.node opmodeConfig env.toOff with
        | .error e => .error e
        | .ok _ => .ok (armDriverErrorParameter, (d.setCallback none none).off)
      else
        .ok (armDriverOk, ((d.setCallback (some .canHalEvent) (some .ctx)).isrOn
          (effectivePriority d.ctx.irqPriority)).setCtx { d.ctx with mode := mode }) := by
  have hen : (isrEnable d.ctx.irqPriority).exec
      (d.setCallback (some .canHalEvent) (some .ctx)) = _ := exec_isrEnable _ hp
  have hde : (deinit env.toOff).exec (d.setCallback none none) = _ := exec_deinit _ hp
  have hm' : (d.setCallback (some .canHalEvent) (some .ctx)).mode ≠ .none := hm
  have hm'' : (d.setCallback none none).mode ≠ .none := hm
  rw [if_neg hm'] at hen
  rw [if_neg hm''] at hde
  simp only [armEvents, Prog.exec_bind, exec_isrSetCallback, Prog.exec_get,
    show (d.setCallback (some .canHalEvent) (some .ctx)).ctx = d.ctx from rfl, hen]
  by_cases hprio : effectivePriority d.ctx.irqPriority > 7
  · simp only [hprio, if_true, ne_eq, reduceCtorEq, not_false_eq_true, Prog.exec_bind,
      exec_isrSetCallback,
      show (d.setCallback (some .canHalEvent) (some .ctx)).setCallback none none =
        d.setCallback none none from rfl, hde,
      show (d.setCallback none none).node = d.node from rfl]
    cases requestOutcome d.node opmodeConfig env.toOff <;> rfl
  · simp only [hprio, if_false]
    rfl

theorem exec_canApplyInit (hp : c.present = true) (hmode : mode ≠ .none) :
    (canApplyInit mode env).exec c =
      match ctxTiming c.ctx with
      | .error e => .error e
      | .ok none => .ok (armDriverErrorParameter, c.quiet)
      | .ok (some t) =>
        match (bringUp (ctxConfig c.ctx mode) t env.toConfig env.toMode).exec c.quiet with
        | .error e => .error e
        | .ok (st, d) =>
          if st ≠ .ok then .ok (canHalToArm st, d) else (armEvents mode env).exec d := by
  have hinit : (init (some (ctxConfig (c.isrOff.setCallback none none).ctx mode)) env.toConfig
      env.toMode).exec (c.isrOff.setCallback none none) = _ :=
    exec_init (c := c.isrOff.setCallback none none) (ctxConfig_accepted c.ctx hmode) hp
      env.toConfig env.toMode
  rw [ctxConfig_timing] at hinit
  simp only [canApplyInit, Prog.exec_bind, exec_isrDisable hp, exec_isrSetCallback,
    Prog.exec_get, hinit]
  cases ctxTiming c.ctx with
  | error e => rfl
  | ok t =>
    cases t with
    | none => rfl
    | some t =>
      simp only [Chan.quiet]
      cases (bringUp (ctxConfig c.ctx mode) t env.toConfig env.toMode).exec
        (c.isrOff.setCallback none none) with
      | error e => rfl
      | ok r =>
        simp only [Prog.exec_ite, Prog.exec_pure]

theorem canApplyInit_outcome (h : (canApplyInit mode env).exec c = .ok (r, d)) :
    ApplyInit c mode env r d := by
  cases hp : c.present with
  | false =>
    rw [exec_canApplyInit_absent hp] at h
    cases h
    refine .absent hp ?_
    split <;> decide
  | true =>
    by_cases hmode : mode = .none
    · subst hmode
      rw [exec_canApplyInit_none hp] at h
      cases h
      exact .refused hp (.inl rfl)
    · rw [exec_canApplyInit hp hmode] at h
      split at h
      next => cases h
      next ht =>
        cases h
        exact .refused hp (.inr ht)
      next t ht =>
        split at h
        next => cases h
        next st e hb =>
          cases bringUp_iff.mp hb with
          | configTimeout hc =>
            cases h
            exact .timeout hp ht (.configTimeout hc)
          | modeTimeout hc hm =>
            cases h
            exact .timeout hp ht (.modeTimeout hc hm)
          | live hc hm =>
            have harm : (armEvents mode env).exec (c.quiet.live (ctxConfig c.ctx mode) t) = _ :=
              exec_armEvents ((Chan.live_present ..).trans hp) hmode
            simp only [ne_eq, not_true_eq_false, if_false, harm] at h
            split at h
            next hprio =>
              split at h
              next => cases h
              next =>
                cases h
                exact .badPriority hp ht hc hm hprio hmode
            next hprio =>
              cases h
              exact .applied hp ht hc hm hprio hmode

theorem ApplyInit.ctx (h : ApplyInit c mode env r d) :
    ∃ m, d.ctx = { c.ctx with mode := m } := by
  cases h with
  | timeout _ _ hb => exact ⟨_, hb.ctx⟩
  | applied => exact ⟨mode, rfl⟩
  | _ => exact ⟨_, rfl⟩

theorem ApplyInit.powered (h : ApplyInit c mode env r d) : d.ctx.powered = c.ctx.powered := by
  obtain ⟨m, hm⟩ := h.ctx
  rw [hm]

theorem ApplyInit.initialized (h : ApplyInit c mode env r d) :
    d.ctx.initialized = c.ctx.initialized := by
  obtain ⟨m, hm⟩ := h.ctx
  rw [hm]

theorem ApplyInit.fdMode (h : ApplyInit c mode env r d) : d.ctx.fdMode = c.ctx.fdMode := by
  obtain ⟨m, hm⟩ := h.ctx
  rw [hm]

theorem ApplyInit.ok (h : ApplyInit c mode env armDriverOk d) :
    ∃ t, c.present = true ∧ ctxTiming c.ctx = .ok (some t) ∧
      ¬effectivePriority c.ctx.irqPriority > 7 ∧ mode ≠ .none ∧ d = c.applied mode t := by
  generalize hr : armDriverOk = r at h
  cases h with
  | absent _ hlt => exact absurd (hr ▸ hlt) (by decide)
  | refused | timeout | badPriority => exact absurd hr (by decide)
  | applied hp ht _ _ hprio hm => exact ⟨_, hp, ht, hprio, hm, rfl⟩

theorem canHalToArm_neg {st : Status} : canHalToArm st < 0 ↔ st ≠ .ok := by
  cases st <;> decide

theorem canHalToArm_nonneg {st : Status} (h : 0 ≤ canHalToArm st) : st = .ok :=
  not_not.mp (mt canHalToArm_neg.mpr (Int.not_lt.mpr h))

theorem ApplyInit.of_nonneg (h : ApplyInit c mode env r d) (hr : 0 ≤ r) : r = armDriverOk := by
  cases h with
  | absent _ hlt => exact absurd hr (Int.not_le.mpr hlt)
  | refused | timeout | badPriority => exact absurd hr (by decide)
  | applied => rfl

theorem exec_canApplyInit_applied {t : BitTiming} (hp : c.present = true)
    (ht : ctxTiming c.ctx = .ok (some t)) (hprio : ¬effectivePriority c.ctx.irqPriority > 7)
    (hm : mode ≠ .none) (hconfig : Granted (ctxNode c.ctx) opmodeConfig env.toConfig)
    (hmode : Granted (ctxNode c.ctx) (modeToReqop mode) env.toMode) :
    (canApplyInit mode env).exec c = .ok (armDriverOk, c.applied mode t) := by
  have hup : (bringUp (ctxConfig c.ctx mode) t env.toConfig env.toMode).exec c.quiet = _ :=
    bringUp_iff.mpr (.live hconfig hmode)
  have harm : (armEvents mode env).exec (c.quiet.live (ctxConfig c.ctx mode) t) = _ :=
    exec_armEvents ((Chan.live_present ..).trans hp) hm
  have hprio' : ¬effectivePriority (c.quiet.live (ctxConfig c.ctx mode) t).ctx.irqPriority > 7 :=
    hprio
  rw [if_neg hprio'] at harm
  simp only [exec_canApplyInit hp hm, ht, hup, ne_eq, not_true_eq_false, if_false, harm]
  rfl

inductive Teardown (c : Chan) (toOff : Poll) : Chan → Prop
  | unpowered : c.ctx.powered = false → Teardown c toOff c
  | absent : c.present = false → Teardown c toOff (c.setCallback none none)
  | down : c.present = true → c.mode = .none →
      Teardown c toOff (c.quiet.setNode { c.node with initialized := false })
  | off : c.present = true → c.mode ≠ .none → Teardown c toOff c.quiet.off

def cacheRate (x : Context) (select : BitrateSelect) (bitrate bitSegments : BitVec 32) :
    Context :=
  let x := match segmentSamplePct bitSegments with
    | some pct => { x with samplePct := pct }
    | none => x
  match select with
  | .nominal => { x with nominalBps := bitrate }
  | .fdData => { x with dataBps := bitrate }
  | .other => x

def setModeTarget (ctx : Context) (mode : ArmMode) : Option Mode :=
  if mode = .normal then some (canNormalModeForCtx ctx) else canMapMode mode

theorem canNormalModeForCtx_ne_none (x : Context) : canNormalModeForCtx x ≠ .none := by
  rw [canNormalModeForCtx]
  split <;> decide

theorem setModeTarget_ne_none {x : Context} {arm : ArmMode} {mode : Mode}
    (h : setModeTarget x arm = some mode) : mode ≠ .none := by
  rw [setModeTarget] at h
  split at h
  next =>
    cases h
    exact canNormalModeForCtx_ne_none x
  next => cases arm <;> cases h <;> decide

def cacheFdMode (x : Context) (arg : BitVec 32) : Context :=
  { x with fdMode := if arg ≠ 0 then 1 else 0 }

def emptied (c : Chan) : Chan := c.setCtx { c.ctx with rx := c.ctx.rx.reset }

/-- How a wrapper call can end. -/
inductive Outcome (env : Env) (c : Chan) : Call → Int → Chan → Prop
  | traffic {call : Call} {r : Int} {d : Chan} : Traffic c d → Outcome env c call r d
  | opened {cbUnit cbObject : Option Callback} : c.ctx.enabled = true →
      Outcome env c (.canInitialize cbUnit cbObject) armDriverOk (c.setCtx
        { c.ctx with cbUnit := cbUnit, cbObject := cbObject, powered := false, initialized := true })
  | closed {d : Chan} : (c.ctx.powered = true → c.ctx.initialized = true) →
      Teardown c env.toOff d →
      Outcome env c .canUnInitialize armDriverOk (d.setCtx
        { c.ctx with cbUnit := none, cbObject := none, powered := false, initialized := false })
  | closedPowered : c.ctx.powered = true → c.ctx.initialized = false →
      Outcome env c .canUnInitialize armDriverOk (c.setCtx
        { c.ctx with cbUnit := none, cbObject := none, initialized := false })
  | off {d : Chan} : c.ctx.initialized = true → Teardown c env.toOff d →
      Outcome env c (.canPowerControl .off) armDriverOk
        (d.setCtx { c.ctx with powered := false })
  | full {d : Chan} : c.ctx.initialized = true → c.ctx.powered = false →
      ApplyInit (emptied c) (canNormalModeForCtx c.ctx) env armDriverOk d →
      Outcome env c (.canPowerControl .full) armDriverOk
        (d.setCtx { d.ctx with powered := true })
  | fullFailed {r : Int} {d : Chan} : c.ctx.initialized = true → c.ctx.powered = false →
      ApplyInit (emptied c) (canNormalModeForCtx c.ctx) env r d → r ≠ armDriverOk →
      Outcome env c (.canPowerControl .full) r d
  | rateCached {select : BitrateSelect} {bitrate bitSegments : BitVec 32} {r : Int} :
      c.ctx.powered = false ∨ select = .other ∧ r = armDriverErrorParameter →
      Outcome env c (.canSetBitrate select bitrate bitSegments) r
        (c.setCtx (cacheRate c.ctx select bitrate bitSegments))
  | rate {select : BitrateSelect} {bitrate bitSegments : BitVec 32} {st : Status} {x : Context}
      {d : Chan} : c.ctx.powered = true → x = cacheRate c.ctx select bitrate bitSegments →
      SetBitrate (c.setCtx x) x.canClkHz x.nominalBps x.dataBps x.samplePct env.toConfig
        env.toMode st d → bitrate ≠ 0 ∧ select ≠ .other →
      Outcome env c (.canSetBitrate select bitrate bitSegments) (canHalToArm st) d
  | mode {arm : ArmMode} {mode : Mode} {r : Int} {d : Chan} : c.ctx.initialized = true →
      c.ctx.powered = true → setModeTarget c.ctx arm = some mode → mode ≠ c.ctx.mode →
      ApplyInit c mode env r d → Outcome env c (.canSetMode arm) r d
  | fdCached {code arg : BitVec 32} : c.ctx.powered = false →
      Outcome env c (.canControl code arg) armDriverOk (c.setCtx (cacheFdMode c.ctx arg))
  | fd {code arg : BitVec 32} {r : Int} {d : Chan} : c.ctx.initialized = true →
      c.ctx.powered = true → code &&& controlMsk = setFdModeCode →
      arg = fdModeDisable ∨ arg = fdModeEnable →
      ApplyInit (c.setCtx (cacheFdMode c.ctx arg)) (fdModeTarget (cacheFdMode c.ctx arg)) env
        r d → Outcome env c (.canControl code arg) r d

@[simp] theorem exec_onCtx (f : Context → Context) :
    (onCtx f).exec c = .ok ((), c.setCtx (f c.ctx)) := rfl

theorem setCtx_setCtx (x y : Context) : (c.setCtx x).setCtx y = c.setCtx y := rfl

theorem canInitialize_outcome {cbUnit cbObject : Option Callback}
    (h : (canInitialize cbUnit cbObject).exec c = .ok (r, d)) :
    Outcome env c (.canInitialize cbUnit cbObject) r d := by
  simp only [canInitialize, Prog.exec_bind, Prog.exec_get, Prog.exec_ite, Bool.not_eq_true'] at h
  split at h
  next =>
    cases h
    exact .traffic (.refl c)
  next hen =>
    cases h
    exact .opened (by simpa using hen)

theorem powerOff_outcome (h : (powerOff env).exec c = .ok (r, d)) :
    ∃ e, Teardown c env.toOff e ∧ r = armDriverOk ∧
      d = e.setCtx { c.ctx with powered := false } := by
  cases hpow : c.ctx.powered with
  | false =>
    simp only [powerOff, Prog.exec_bind, Prog.exec_get, hpow, Bool.false_eq_true, if_false,
      Prog.exec_pure, exec_onCtx] at h
    cases h
    exact ⟨c, .unpowered hpow, rfl, rfl⟩
  | true =>
    cases hp : c.present with
    | false =>
      have hde := exec_deinit_absent (c := c.setCallback none none) env.toOff hp
      simp only [powerOff, Prog.exec_bind, Prog.exec_get, hpow, if_true, isrDisable_absent hp,
        exec_isrSetCallback, hde, Prog.exec_pure, exec_onCtx] at h
      cases h
      exact ⟨_, .absent hp, rfl, rfl⟩
    | true =>
      have hde : (deinit env.toOff).exec (c.isrOff.setCallback none none) = _ :=
        exec_deinit _ hp
      simp only [powerOff, Prog.exec_bind, Prog.exec_get, hpow, if_true, exec_isrDisable hp,
        exec_isrSetCallback, hde] at h
      by_cases hm : (c.isrOff.setCallback none none).mode = .none
      · simp only [hm, if_true, Prog.exec_pure, exec_onCtx] at h
        cases h
        exact ⟨_, .down hp hm, rfl, rfl⟩
      · simp only [hm, if_false] at h
        cases hr : requestOutcome (c.isrOff.setCallback none none).node opmodeConfig
          env.toOff with
        | error e =>
          simp only [hr] at h
          cases h
        | ok st =>
          simp only [hr, Prog.exec_pure, exec_onCtx] at h
          cases h
          exact ⟨_, .off hp hm, rfl, rfl⟩

theorem exec_powerFull (hpow : c.ctx.powered = false) :
    (powerFull env).exec c =
      match (canApplyInit (canNormalModeForCtx c.ctx) env).exec (emptied c) with
      | .error e => .error e
      | .ok (rc, d) =>
        if rc ≠ armDriverOk then .ok (rc, d)
        else .ok (armDriverOk, d.setCtx { d.ctx with powered := true }) := by
  have hn : ¬c.ctx.powered = true := by simp [hpow]
  have hreset : (powerFull env).exec c = (applyFull env).exec (emptied c) := by
    rw [powerFull, Prog.exec_bind_of_ok (Prog.exec_get c), if_neg hn,
      Prog.exec_bind_of_ok (exec_onCtx _), Prog.exec_bind_of_ok (exec_onCtx _)]
    rfl
  have hctx : canNormalModeForCtx (emptied c).ctx = canNormalModeForCtx c.ctx := rfl
  rw [hreset, applyFull, Prog.exec_bind_of_ok (Prog.exec_get _), hctx, Prog.exec_bind]
  cases (canApplyInit (canNormalModeForCtx c.ctx) env).exec (emptied c) with
  | error e => rfl
  | ok q => simp only [Prog.exec_ite, Prog.exec_pure, Prog.exec_bind, exec_onCtx]

theorem powerFull_outcome (hi : c.ctx.initialized = true)
    (h : (powerFull env).exec c = .ok (r, d)) :
    Outcome env c (.canPowerControl .full) r d := by
  cases hpow : c.ctx.powered with
  | true =>
    simp only [powerFull, Prog.exec_bind, Prog.exec_get, hpow, if_true, Prog.exec_pure] at h
    cases h
    exact .traffic (.refl c)
  | false =>
    rw [exec_powerFull hpow] at h
    split at h
    next => cases h
    next rc e he =>
      have happ := canApplyInit_outcome he
      split at h
      next hrc =>
        cases h
        exact .fullFailed hi hpow happ hrc
      next hrc =>
        obtain rfl := not_not.mp hrc
        cases h
        exact .full hi hpow happ

theorem powerControl_off_ok
    (h : (canPowerControl .off env).exec c = .ok (armDriverOk, d)) : d.ctx.powered = false := by
  simp only [canPowerControl, Prog.exec_bind, Prog.exec_get, Prog.exec_ite] at h
  split at h
  next => cases h
  next =>
    obtain ⟨e, -, -, rfl⟩ := powerOff_outcome h
    rfl

theorem canPowerControl_outcome {state : PowerState}
    (h : (canPowerControl state env).exec c = .ok (r, d)) :
    Outcome env c (.canPowerControl state) r d := by
  cases hi : c.ctx.initialized with
  | false =>
    simp only [canPowerControl, Prog.exec_bind, Prog.exec_get, hi, Bool.not_false, if_true,
      Prog.exec_pure] at h
    cases h
    exact .traffic (.refl c)
  | true =>
    simp only [canPowerControl, Prog.exec_bind, Prog.exec_get, hi, Bool.not_true,
      Bool.false_eq_true, if_false] at h
    cases state with
    | full => exact powerFull_outcome hi h
    | off =>
      obtain ⟨e, he, rfl, rfl⟩ := powerOff_outcome h
      exact .off hi he
    | low =>
      cases h
      exact .traffic (.refl c)
    | other =>
      cases h
      exact .traffic (.refl c)

theorem canUnInitialize_cases (h : (canUnInitialize env).exec c = .ok (r, d)) :
    r = armDriverOk ∧
      ((c.ctx.powered = true → c.ctx.initialized = true) ∧
          (∃ e, Teardown c env.toOff e ∧ d = e.setCtx { c.ctx with
            cbUnit := none, cbObject := none, powered := false, initialized := false }) ∨
        c.ctx.powered = true ∧ c.ctx.initialized = false ∧
          d = c.setCtx { c.ctx with cbUnit := none, cbObject := none, initialized := false }) := by
  cases hpow : c.ctx.powered with
  | false =>
    have hn : ¬c.ctx.powered = true := by simp [hpow]
    simp only [canUnInitialize, Prog.exec_bind, Prog.exec_get, if_neg hn, Prog.exec_pure,
      exec_onCtx, setCtx_setCtx] at h
    cases h
    have hctx := congrArg (fun b => ({ c.ctx with
      cbUnit := none, cbObject := none, powered := b, initialized := false } : Context)) hpow
    exact ⟨rfl, .inl ⟨fun h => absurd h (by decide), c, .unpowered hpow, congrArg c.setCtx hctx⟩⟩
  | true =>
    cases hi : c.ctx.initialized with
    | false =>
      have hn : (!c.ctx.initialized) = true := by simp [hi]
      simp only [canUnInitialize, canPowerControl, Prog.exec_bind, Prog.exec_get, if_pos hpow,
        if_pos hn, Prog.exec_pure, exec_onCtx] at h
      cases h
      exact ⟨rfl, .inr ⟨rfl, rfl, rfl⟩⟩
    | true =>
      have hn : ¬(!c.ctx.initialized) = true := by simp [hi]
      simp only [canUnInitialize, canPowerControl, Prog.exec_bind, Prog.exec_get, if_pos hpow,
        if_neg hn] at h
      split at h
      next s e he =>
        split at he
        next rc f hf =>
          obtain ⟨g, hg, rfl, rfl⟩ := powerOff_outcome hf
          cases he
          cases h
          exact ⟨rfl, .inl ⟨fun _ => rfl, g, hg, rfl⟩⟩
        next => cases he
      next => cases h

theorem canUnInitialize_outcome (h : (canUnInitialize env).exec c = .ok (r, d)) :
    Outcome env c .canUnInitialize r d := by
  obtain ⟨rfl, ⟨hi, e, he, rfl⟩ | ⟨hpow, hi, rfl⟩⟩ := canUnInitialize_cases h
  · exact .closed hi he
  · exact .closedPowered hpow hi

theorem exec_applyBitrate_unpowered (hpow : ¬c.ctx.powered = true) :
    (applyBitrate env).exec c = .ok (armDriverOk, c) := by
  have hn : (!c.ctx.powered) = true := by simpa using hpow
  simp only [applyBitrate, Prog.exec_bind, Prog.exec_get, if_pos hn, Prog.exec_pure]

theorem applyBitrate_outcome (hpow : c.ctx.powered = true)
    (h : (applyBitrate env).exec c = .ok (r, d)) :
    ∃ st, r = canHalToArm st ∧ SetBitrate c c.ctx.canClkHz c.ctx.nominalBps c.ctx.dataBps
      c.ctx.samplePct env.toConfig env.toMode st d := by
  have hn : ¬(!c.ctx.powered) = true := by simp [hpow]
  simp only [applyBitrate, Prog.exec_bind, Prog.exec_get, if_neg hn] at h
  split at h
  next st e he =>
    cases h
    exact ⟨st, rfl, setBitrate_outcome he⟩
  next => cases h

theorem exec_canSetBitrate {select : BitrateSelect} {bitrate bitSegments : BitVec 32}
    (hb : bitrate ≠ 0) :
    (canSetBitrate select bitrate bitSegments env).exec c =
      if select = .other then
        .ok (armDriverErrorParameter, c.setCtx (cacheRate c.ctx select bitrate bitSegments))
      else (applyBitrate env).exec (c.setCtx (cacheRate c.ctx select bitrate bitSegments)) := by
  cases hs : segmentSamplePct bitSegments <;> cases select <;>
    simp only [canSetBitrate, if_neg hb, hs, cacheRate, Prog.exec_bind, exec_onCtx,
      Prog.exec_pure, reduceCtorEq, if_true, if_false, setCtx_setCtx] <;> rfl

theorem cacheRate_eq (x : Context) (select : BitrateSelect) (bitrate segs : BitVec 32) :
    ∃ nominal data pct, cacheRate x select bitrate segs =
      { x with nominalBps := nominal, dataBps := data, samplePct := pct } := by
  cases hs : segmentSamplePct segs <;> cases select <;> simp only [cacheRate, hs] <;>
    exact ⟨_, _, _, rfl⟩

theorem cacheRate_powered (x : Context) (select : BitrateSelect) (bitrate segs : BitVec 32) :
    (cacheRate x select bitrate segs).powered = x.powered := by
  obtain ⟨_, _, _, h⟩ := cacheRate_eq x select bitrate segs
  rw [h]

theorem cacheRate_mode (x : Context) (select : BitrateSelect) (bitrate segs : BitVec 32) :
    (cacheRate x select bitrate segs).mode = x.mode := by
  obtain ⟨_, _, _, h⟩ := cacheRate_eq x select bitrate segs
  rw [h]

theorem cacheRate_fdMode (x : Context) (select : BitrateSelect) (bitrate segs : BitVec 32) :
    (cacheRate x select bitrate segs).fdMode = x.fdMode := by
  obtain ⟨_, _, _, h⟩ := cacheRate_eq x select bitrate segs
  rw [h]

theorem cacheFdMode_cases (x : Context) (arg : BitVec 32) :
    (cacheFdMode x arg).fdMode = 0 ∨ (cacheFdMode x arg).fdMode = 1 := by
  simp only [cacheFdMode]
  split
  next => exact .inr rfl
  next => exact .inl rfl

theorem canSetBitrate_outcome {select : BitrateSelect} {bitrate bitSegments : BitVec 32}
    (h : (canSetBitrate select bitrate bitSegments env).exec c = .ok (r, d)) :
    Outcome env c (.canSetBitrate select bitrate bitSegments) r d := by
  by_cases hb : bitrate = 0
  · simp only [canSetBitrate, if_pos hb, Prog.exec_pure] at h
    cases h
    exact .traffic (.refl c)
  rw [exec_canSetBitrate hb] at h
  split at h
  next hsel =>
    cases h
    exact .rateCached (.inr ⟨hsel, rfl⟩)
  next hsel =>
    have hkeep := cacheRate_powered c.ctx select bitrate bitSegments
    by_cases hpow : c.ctx.powered = true
    · obtain ⟨st, rfl, hst⟩ := applyBitrate_outcome (hkeep.trans hpow) h
      exact .rate hpow rfl hst ⟨hb, hsel⟩
    · rw [exec_applyBitrate_unpowered (fun h => hpow (hkeep.symm.trans h))] at h
      cases h
      exact .rateCached (.inl (by simpa using hpow))

theorem changeMode_outcome {arm : ArmMode} (hi : c.ctx.initialized = true)
    (ht : setModeTarget c.ctx arm = some mode)
    (h : (changeMode mode env).exec c = .ok (r, d)) : Outcome env c (.canSetMode arm) r d := by
  simp only [changeMode, Prog.exec_bind, Prog.exec_get, Prog.exec_ite] at h
  split at h
  next =>
    cases h
    exact .traffic (.refl c)
  next hpow =>
    split at h
    next =>
      cases h
      exact .traffic (.refl c)
    next hm => exact .mode hi (by simpa using hpow) ht hm (canApplyInit_outcome h)

theorem canSetMode_outcome {arm : ArmMode} (h : (canSetMode arm env).exec c = .ok (r, d)) :
    Outcome env c (.canSetMode arm) r d := by
  by_cases hi : c.ctx.initialized = true
  · have hn : ¬(!c.ctx.initialized) = true := by simp [hi]
    simp only [canSetMode, Prog.exec_bind, Prog.exec_get, if_neg hn] at h
    cases arm with
    | initialization | restricted | other =>
      cases h
      exact .traffic (.refl c)
    | normal | monitor | loopbackInternal | loopbackExternal =>
      exact changeMode_outcome hi rfl h
  · have hn : (!c.ctx.initialized) = true := by simpa using hi
    simp only [canSetMode, Prog.exec_bind, Prog.exec_get, if_pos hn, Prog.exec_pure] at h
    cases h
    exact .traffic (.refl c)

theorem exec_setFdMode {arg : BitVec 32} (ha : ¬(arg ≠ fdModeDisable ∧ arg ≠ fdModeEnable)) :
    (setFdMode arg env).exec c =
      if c.ctx.powered = true then
        (canApplyInit (fdModeTarget (cacheFdMode c.ctx arg)) env).exec
          (c.setCtx (cacheFdMode c.ctx arg))
      else .ok (armDriverOk, c.setCtx (cacheFdMode c.ctx arg)) := by
  simp only [setFdMode, if_neg ha, Prog.exec_bind, Prog.exec_get, exec_onCtx, Prog.exec_ite]
  rfl

theorem setFdMode_outcome {code arg : BitVec 32} (hi : c.ctx.initialized = true)
    (hc : code &&& controlMsk = setFdModeCode) (h : (setFdMode arg env).exec c = .ok (r, d)) :
    Outcome env c (.canControl code arg) r d := by
  by_cases ha : arg ≠ fdModeDisable ∧ arg ≠ fdModeEnable
  · simp only [setFdMode, if_pos ha, Prog.exec_pure] at h
    cases h
    exact .traffic (.refl c)
  · have harg : arg = fdModeDisable ∨ arg = fdModeEnable := by
      rw [not_and_or, not_not, not_not] at ha
      exact ha
    rw [exec_setFdMode ha] at h
    split at h
    next hpow => exact .fd hi hpow hc harg (canApplyInit_outcome h)
    next hpow =>
      cases h
      exact .fdCached (by simpa using hpow)

theorem canControl_outcome {code arg : BitVec 32}
    (h : (canControl code arg env).exec c = .ok (r, d)) :
    Outcome env c (.canControl code arg) r d := by
  simp only [canControl, Prog.exec_bind, Prog.exec_get, Prog.exec_ite] at h
  split at h
  next =>
    cases h
    exact .traffic (.refl c)
  next hi =>
    split at h
    next hc => exact setFdMode_outcome (by simpa using hi) hc h
    next =>
      split at h
      next => exact .traffic ((abortMessageSend_moves arg).exec h)
      next =>
        cases h
        exact .traffic (.refl c)

theorem call_outcome {call : Call} (h : (call.run env).exec c = .ok (r, d)) :
    Outcome env c call r d := by
  cases call with
  | canInitialize cbUnit cbObject => exact canInitialize_outcome h
  | canUnInitialize => exact canUnInitialize_outcome h
  | canPowerControl state => exact canPowerControl_outcome h
  | canSetBitrate select bitrate bitSegments => exact canSetBitrate_outcome h
  | canSetMode mode => exact canSetMode_outcome h
  | canControl code arg => exact canControl_outcome h
  | canMessageSend objIdx info data size =>
    exact .traffic ((canMessageSend_moves objIdx info data size env).exec h)
  | canMessageRead args =>
    exact .traffic ((Prog.Moves.bind (canMessageRead_moves args) fun _ => .pure _).exec h)

end Cmsis

end CanfdDriver
