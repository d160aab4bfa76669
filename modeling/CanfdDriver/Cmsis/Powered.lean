import CanfdDriver.Cmsis.LifeCycle

namespace CanfdDriver

open Lib NoraCanfd Cmsis

def intRxEnables : BitVec 32 := intRxie ||| intRxovie

/-- The node, the event layer and the wrapper agree that the instance runs. -/
structure Live (c : Chan) : Prop where
  initialized : c.node.initialized = true
  mode : c.mode = c.ctx.mode
  mode_ne : c.mode ≠ .none
  isrEnabled : c.isr.isrEnabled = true
  cb : c.isr.cb = some .canHalEvent
  ud : c.isr.ud = some .ctx
  rxLine : c.irq.rx.enable = true
  genLine : c.irq.gen.enable = true
  int : c.regs .int &&& intRxEnables = intRxEnables
  fifocon1 : c.regs .fifocon1 &&& fifocon1Enables = fifocon1Enables

structure Requested (c : Chan) : Prop where
  on : c.regs .con &&& conOn = conOn
  reqop : c.regs .con &&& conReqopMask = (modeToReqop c.ctx.mode).setWidth 32 <<< conReqopPos

namespace Live

variable {c d : Chan}

theorem traffic (h : Live c) (htr : Traffic c d) : Live d where
  initialized := htr.node ▸ h.initialized
  mode := by
    obtain ⟨rx, hrx⟩ := htr.ctx
    rw [htr.mode, h.mode, hrx]
  mode_ne := htr.mode ▸ h.mode_ne
  isrEnabled := (congrArg IsrState.isrEnabled htr.isr).trans h.isrEnabled
  cb := (congrArg IsrState.cb htr.isr).trans h.cb
  ud := (congrArg IsrState.ud htr.isr).trans h.ud
  rxLine := (congrArg Line.enable htr.rxLine).trans h.rxLine
  genLine := (congrArg Line.enable htr.genLine).trans h.genLine
  int := (htr.regs_and (by decide)).trans h.int
  fifocon1 := (htr.regs_and (by decide)).trans h.fifocon1

theorem setCtx (h : Live c) {x : Context} (hx : x.mode = c.ctx.mode) : Live (c.setCtx x) :=
  { h with mode := h.mode.trans hx.symm }

theorem setReg (h : Live c) {r : Reg} (v : BitVec 32) (hi : Reg.int ≠ r)
    (hf : Reg.fifocon1 ≠ r) : Live (c.setReg r v) :=
  { h with
    int := by
      rw [Chan.setReg_regs, Function.update_of_ne hi]
      exact h.int
    fifocon1 := by
      rw [Chan.setReg_regs, Function.update_of_ne hf]
      exact h.fifocon1 }

theorem retimed (h : Live c) (t : BitTiming) : Live (c.retimed t) := by
  refine setReg (setReg (setReg (setReg (setReg h _ ?_ ?_) _ ?_ ?_) _ ?_ ?_) _ ?_ ?_) _ ?_ ?_ <;>
    decide

theorem retime {t : BitTiming} {toConfig toMode : Poll} {st : Status} (h : Live c)
    (hr : Retime c t toConfig toMode st d) : Live d := by
  cases hr with
  | configTimeout => exact h.setReg _ (by decide) (by decide)
  | modeTimeout | retimed => exact h.retimed t

theorem applied (c : Chan) {mode : Mode} (hm : mode ≠ .none) (t : BitTiming) :
    Live (c.applied mode t) where
  initialized := rfl
  mode := rfl
  mode_ne := hm
  isrEnabled := rfl
  cb := rfl
  ud := rfl
  rxLine := rfl
  genLine := rfl
  int := by
    change ((c.quiet.live (ctxConfig c.ctx mode) t).regs .int ||| intRxEnables) &&& intRxEnables = _
    exact MaskedWrite.or_and_of_sub (by decide) _
  fifocon1 := by
    change ((c.quiet.live (ctxConfig c.ctx mode) t).regs .fifocon1 ||| fifocon1Enables) &&&
      fifocon1Enables = _
    exact MaskedWrite.or_and_of_sub (by decide) _

end Live

namespace Requested

variable {c d : Chan}

theorem traffic (h : Requested c) (htr : Traffic c d) : Requested d where
  on := (htr.regs_and (by decide)).trans h.on
  reqop := by
    obtain ⟨rx, hrx⟩ := htr.ctx
    rw [htr.regs_and (by decide), h.reqop, hrx]

theorem setCtx (h : Requested c) {x : Context} (hx : x.mode = c.ctx.mode) :
    Requested (c.setCtx x) := ⟨h.on, hx.symm ▸ h.reqop⟩

theorem retimed (h : Requested c) (hm : c.mode = c.ctx.mode) (t : BitTiming) :
    Requested (c.retimed t) where
  on := (Chan.retimed_con_and (by decide) c t).trans h.on
  reqop := by
    rw [Chan.retimed_con, reqopWrite_and, modeToReqop_field, Chan.retimed_ctx, hm]

theorem applied (c : Chan) (mode : Mode) (t : BitTiming) : Requested (c.applied mode t) where
  on := by
    rw [Chan.applied_con, MaskedWrite.apply_and_of_disjoint,
      MaskedWrite.apply_and_of_sub (by decide)]
    · decide
    · change conOn &&& ((configureCon _).mask ||| conReqopMask) = 0
      cases decide (c.ctx.fdMode ≠ 0) <;> decide
  reqop := by
    rw [Chan.applied_con, MaskedWrite.apply_and_of_sub, Chan.applied_mode]
    · cases decide (c.ctx.fdMode ≠ 0) <;> cases mode <;> decide
    · change conReqopMask &&& ((configureCon _).mask ||| conReqopMask) = conReqopMask
      cases decide (c.ctx.fdMode ≠ 0) <;> decide

end Requested

/-- The call re-applies the HAL initialisation to a powered instance, with the
settings of `x` and in the given mode. -/
inductive Reapplies (c : Chan) : Call → Context → Mode → Prop
  | mode {arm : ArmMode} {mode : Mode} : c.ctx.initialized = true → c.ctx.powered = true →
      setModeTarget c.ctx arm = some mode → mode ≠ c.ctx.mode →
      Reapplies c (.canSetMode arm) c.ctx mode
  | fdMode {code arg : BitVec 32} : c.ctx.initialized = true → c.ctx.powered = true →
      code &&& controlMsk = setFdModeCode → arg = fdModeDisable ∨ arg = fdModeEnable →
      Reapplies c (.canControl code arg) (cacheFdMode c.ctx arg)
        (fdModeTarget (cacheFdMode c.ctx arg))

structure Applicable (x : Context) (mode : Mode) (env : Env) : Prop where
  timing : ∃ t, ctxTiming x = .ok (some t)
  config : Granted (ctxNode x) opmodeConfig env.toConfig
  operate : Granted (ctxNode x) (modeToReqop mode) env.toMode

instance (x : Context) (mode : Mode) (env : Env) : Decidable (Applicable x mode env) :=
  decidable_of_iff ((∃ t, ctxTiming x = .ok (some t)) ∧
      Granted (ctxNode x) opmodeConfig env.toConfig ∧
      Granted (ctxNode x) (modeToReqop mode) env.toMode)
    ⟨fun h => ⟨h.1, h.2.1, h.2.2⟩, fun h => ⟨h.timing, h.config, h.operate⟩⟩

def ReappliesApplicable (c : Chan) : Label → Prop
  | .call env call _ => ∀ x mode, Reapplies c call x mode → Applicable x mode env
  | _ => True

def RetimesGranted (c : Chan) : Label → Prop
  | .call env (.canSetBitrate select bitrate bitSegments) _ =>
      c.ctx.powered = true → bitrate ≠ 0 → select ≠ .other →
      (∃ t, ctxTiming (cacheRate c.ctx select bitrate bitSegments) = .ok (some t)) →
      Granted c.node opmodeConfig env.toConfig ∧
        Granted c.node (modeToReqop c.ctx.mode) env.toMode
  | _ => True

theorem fdModeTarget_ne_none {x : Context} (hx : x.mode ≠ .none) : fdModeTarget x ≠ .none := by
  rw [fdModeTarget]
  split
  next => exact canNormalModeForCtx_ne_none x
  next => exact hx

theorem NoraCanfd.Granted.not_timeout {n : NodeState} {reqop : BitVec 8} {p : Poll}
    (h : Granted n reqop p) : requestOutcome n reqop p ≠ .ok .timeout := by
  rw [show requestOutcome n reqop p = _ from h]
  decide

theorem Cmsis.ApplyInit.of_applicable {c d : Chan} {mode : Mode} {env : Env} {r : Int}
    (h : ApplyInit c mode env r d) (ha : Applicable c.ctx mode env) (hp : c.present = true)
    (hprio : ¬effectivePriority c.ctx.irqPriority > 7) (hm : mode ≠ .none) :
    ∃ t, r = armDriverOk ∧ ctxTiming c.ctx = .ok (some t) ∧ d = c.applied mode t := by
  obtain ⟨t, ht⟩ := ha.timing
  cases h with
  | absent habs => exact absurd (habs.symm.trans hp) (by decide)
  | refused _ hbad =>
    rcases hbad with hnone | hnone
    · exact absurd hnone hm
    · cases ht.symm.trans hnone
  | timeout _ _ hb =>
    cases hb with
    | configTimeout hc => exact absurd hc ha.config.not_timeout
    | modeTimeout _ ho => exact absurd ho ha.operate.not_timeout
  | badPriority _ _ _ _ hbad => exact absurd hbad hprio
  | applied _ ht' => exact ⟨_, rfl, ht', rfl⟩

structure PoweredLive (c : Chan) : Prop where
  powered : PoweredUp c
  live : c.ctx.powered = true → Live c

namespace PoweredLive

variable {c d : Chan} {env : Env} {call : Call} {r : Int}

theorem boot (dev : Device) : PoweredLive dev.boot :=
  ⟨.of_unpowered rfl, fun h => absurd h (by simp [Device.boot])⟩

theorem traffic (hc : PoweredLive c) (htr : Traffic c d) : PoweredLive d where
  powered := hc.powered.traffic htr
  live hpow := by
    obtain ⟨rx, hrx⟩ := htr.ctx
    exact (hc.live (by rw [← hpow, hrx])).traffic htr

theorem reapply {x : Context} {mode : Mode} (hc : PoweredLive c) (hpow : c.ctx.powered = true)
    (hx : x.irqPriority = c.ctx.irqPriority) (hm : mode ≠ .none) (ha : Applicable x mode env)
    (h : ApplyInit (c.setCtx x) mode env r d) : ∃ t, d = (c.setCtx x).applied mode t := by
  obtain ⟨hp, -, hprio⟩ := hc.powered hpow
  obtain ⟨t, -, -, hd⟩ := h.of_applicable ha hp (hx ▸ hprio) hm
  exact ⟨t, hd⟩

theorem outcome (hc : PoweredLive c) (ha : ReappliesApplicable c (.call env call r))
    (h : Outcome env c call r d) : PoweredLive d where
  powered := hc.powered.outcome h
  live hpow := by
    cases h with
    | traffic h => exact (hc.traffic h).live hpow
    | opened | closed | off => exact absurd hpow (by simp)
    | closedPowered hp => exact (hc.live hp).setCtx rfl
    | full _ _ h =>
      obtain ⟨t, -, -, -, hm, rfl⟩ := h.ok
      exact (Live.applied _ hm t).setCtx rfl
    | fullFailed _ hp h => exact absurd (hp.symm.trans (h.powered.symm.trans hpow)) (by decide)
    | rateCached =>
      exact (hc.live ((cacheRate_powered ..).symm.trans hpow)).setCtx (cacheRate_mode ..)
    | @rate select bitrate bitSegments _ _ _ hp hx h =>
      subst hx
      have hl := (hc.live hp).setCtx (cacheRate_mode c.ctx select bitrate bitSegments)
      cases h with
      | retime _ _ h => exact hl.retime h
      | _ => exact hl
    | mode hi hp ht hne h =>
      have hm := setModeTarget_ne_none ht
      obtain ⟨t, rfl⟩ := hc.reapply hp rfl hm (ha _ _ (.mode hi hp ht hne)) h
      exact .applied _ hm t
    | fdCached hp => exact absurd (hp.symm.trans hpow) (by decide)
    | @fd code arg _ _ hi hp hcode harg h =>
      have hm := fdModeTarget_ne_none (x := cacheFdMode c.ctx arg)
        ((hc.live hp).mode ▸ (hc.live hp).mode_ne)
      have happ := ha _ _ (.fdMode hi hp hcode harg)
      obtain ⟨t, rfl⟩ := hc.reapply (x := cacheFdMode c.ctx arg) hp rfl hm happ h
      exact .applied _ hm t

theorem run {allowed : Chan → Label → Prop} {start : Chan}
    (hallowed : ∀ s l, allowed s l → ReappliesApplicable s l) (h : Reach Step allowed start c)
    (h0 : PoweredLive start) : PoweredLive c :=
  run_invariant h h0 (fun _ _ => traffic) fun s _ _ _ _ hs ha hout =>
    outcome hs (hallowed s _ ha) hout

end PoweredLive

structure PoweredReady (c : Chan) : Prop extends PoweredLive c where
  requested : c.ctx.powered = true → Requested c

namespace PoweredReady

variable {c d : Chan} {env : Env} {call : Call} {r : Int}

theorem boot (dev : Device) : PoweredReady dev.boot :=
  ⟨.boot dev, fun h => absurd h (by simp [Device.boot])⟩

theorem traffic (hc : PoweredReady c) (htr : Traffic c d) : PoweredReady d where
  toPoweredLive := hc.toPoweredLive.traffic htr
  requested hpow := by
    obtain ⟨rx, hrx⟩ := htr.ctx
    exact (hc.requested (by rw [← hpow, hrx])).traffic htr

theorem outcome (hc : PoweredReady c) (ha : ReappliesApplicable c (.call env call r))
    (hrate : RetimesGranted c (.call env call r)) (h : Outcome env c call r d) :
    PoweredReady d where
  toPoweredLive := hc.toPoweredLive.outcome ha h
  requested hpow := by
    cases h with
    | traffic h => exact (hc.traffic h).requested hpow
    | opened | closed | off => exact absurd hpow (by simp)
    | closedPowered hp => exact (hc.requested hp).setCtx rfl
    | full _ _ h =>
      obtain ⟨t, -, -, -, -, rfl⟩ := h.ok
      exact (Requested.applied _ _ t).setCtx rfl
    | fullFailed _ hp h => exact absurd (hp.symm.trans (h.powered.symm.trans hpow)) (by decide)
    | rateCached =>
      exact (hc.requested ((cacheRate_powered ..).symm.trans hpow)).setCtx (cacheRate_mode ..)
    | @rate select bitrate bitSegments _ _ _ hp hx h hne =>
      subst hx
      have hmode := cacheRate_mode c.ctx select bitrate bitSegments
      have hreq := (hc.requested hp).setCtx hmode
      cases h with
      | retime _ ht h =>
        obtain ⟨hconfig, hoperate⟩ := hrate hp hne.1 hne.2 ⟨_, ht⟩
        have hm : (c.setCtx (cacheRate c.ctx select bitrate bitSegments)).mode = c.ctx.mode :=
          (hc.live hp).mode
        cases h with
        | configTimeout hbad => exact absurd hbad hconfig.not_timeout
        | modeTimeout _ hbad => exact absurd hbad (hm ▸ hoperate.not_timeout)
        | retimed => exact hreq.retimed (hm.trans hmode.symm) _
      | _ => exact hreq
    | mode hi hp ht hne h =>
      have hm := setModeTarget_ne_none ht
      obtain ⟨t, rfl⟩ := hc.reapply hp rfl hm (ha _ _ (.mode hi hp ht hne)) h
      exact .applied _ _ t
    | fdCached hp => exact absurd (hp.symm.trans hpow) (by decide)
    | @fd code arg _ _ hi hp hcode harg h =>
      have hm := fdModeTarget_ne_none (x := cacheFdMode c.ctx arg)
        ((hc.live hp).mode ▸ (hc.live hp).mode_ne)
      have happ := ha _ _ (.fdMode hi hp hcode harg)
      obtain ⟨t, rfl⟩ := hc.reapply (x := cacheFdMode c.ctx arg) hp rfl hm happ h
      exact .applied _ _ t

theorem run {allowed : Chan → Label → Prop} {start : Chan}
    (hallowed : ∀ s l, allowed s l → ReappliesApplicable s l ∧ RetimesGranted s l)
    (h : Reach Step allowed start c) (h0 : PoweredReady start) : PoweredReady c :=
  run_invariant h h0 (fun _ _ => traffic) fun s _ _ _ _ hs ha hout =>
    outcome hs (hallowed s _ ha).1 (hallowed s _ ha).2 hout

end PoweredReady

/-- Powered means live, as long as every re-applied initialisation can be applied;
and it means able to receive when every applied rate is granted too. -/
theorem powered_live (dev : Device) :
    (∀ c, Reach Step ReappliesApplicable dev.boot c → c.ctx.powered = true → Live c) ∧
      ∀ c, Reach Step (fun s l => ReappliesApplicable s l ∧ RetimesGranted s l) dev.boot c →
        c.ctx.powered = true → Live c ∧ Requested c := by
  constructor
  · intro c hc
    exact (PoweredLive.run (fun _ _ => id) hc (.boot dev)).live
  · intro c hc hpow
    have hready := PoweredReady.run (fun _ _ => id) hc (.boot dev)
    exact ⟨hready.live hpow, hready.requested hpow⟩

theorem powered_live_in_monitor_mode :
    ∃ c, Reach Step ReappliesApplicable exampleDevice.boot c ∧ c.ctx.powered = true ∧
      c.ctx.mode = .listenOnly ∧ Live c := by
  have hrun : ∃ c, Reach Step ReappliesApplicable exampleDevice.boot c ∧
      (c.ctx.powered && decide (c.ctx.mode = .listenOnly)) = true := by
    refine reach_of_replay (fun c env call _ => match call with
      | .canSetMode .monitor => decide (Applicable c.ctx .listenOnly env)
      | .canInitialize _ _ | .canPowerControl _ => true
      | _ => false) (powerUp ++ [(granting .listenOnly, .canSetMode .monitor)]) _ ?_
      (by decide +kernel)
    intro s env call r hs x mode hre
    cases hre with
    | @mode arm mode _ _ ht =>
      cases arm <;> first | cases hs | skip
      cases ht
      exact of_decide_eq_true hs
    | fdMode => cases hs
  obtain ⟨c, hc, hp⟩ := hrun
  simp only [Bool.and_eq_true, decide_eq_true_eq] at hp
  exact ⟨c, hc, hp.1, hp.2, (powered_live exampleDevice).1 c hc hp.1⟩

/-- `SetBitrate` caches a rate without a timing; the next `SetMode` tears the event
layer down and fails, and the instance still counts as powered. -/
theorem powered_dead_after_failed_mode_change :
    ∃ c, Reach Step (fun _ _ => True) exampleDevice.boot c ∧ c.ctx.powered = true ∧ ¬Live c := by
  have hrun : ∃ c, Reach Step (fun _ _ => True) exampleDevice.boot c ∧
      (c.ctx.powered && !c.isr.isrEnabled) = true :=
    reach_of_replay (fun _ _ _ _ => true)
      (powerUp ++ [(granting .normalFd, .canSetBitrate .nominal 7 0),
        (granting .listenOnly, .canSetMode .monitor)]) _
      (fun _ _ _ _ _ => trivial) (by decide +kernel)
  obtain ⟨c, hc, hp⟩ := hrun
  simp only [Bool.and_eq_true, Bool.not_eq_true'] at hp
  exact ⟨c, hc, hp.1, fun h => absurd (h.isrEnabled.symm.trans hp.2) (by decide)⟩

end CanfdDriver
