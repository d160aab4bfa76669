import CanfdDriver.Cmsis.Powered

namespace CanfdDriver

open Lib NoraCanfd Cmsis

/-- The timing registers hold the timing of the cached settings, and bit-rate
switching is disabled exactly when FD mode is off. -/
structure Programmed (c : Chan) : Prop where
  timing : ∃ t, ctxTiming c.ctx = .ok (some t) ∧
    c.regs .nbtcfg = t.nbtcfg ∧ c.regs .dbtcfg = t.dbtcfg ∧ c.regs .tdc = t.tdc
  brsdis : c.regs .con &&& conBrsdis = if c.ctx.fdMode = 0 then conBrsdis else 0

structure ModeAgrees (x : Context) : Prop where
  normalFd : x.mode = .normalFd → x.fdMode ≠ 0
  normalClassic : x.mode = .normalClassic → x.fdMode = 0

def ErrorFree : Label → Prop
  | .call _ (.canSetBitrate _ _ _) r | .call _ (.canSetMode _) r
  | .call _ (.canPowerControl _) r => 0 ≤ r
  | .call _ (.canControl code _) r => code &&& controlMsk = setFdModeCode → 0 ≤ r
  | _ => True

theorem canNormalModeForCtx_agrees (x : Context) :
    ModeAgrees { x with mode := canNormalModeForCtx x } :=
  ⟨by simp [canNormalModeForCtx], by simp [canNormalModeForCtx]⟩

theorem setModeTarget_agrees {x : Context} {arm : ArmMode} {mode : Mode}
    (h : setModeTarget x arm = some mode) : ModeAgrees { x with mode := mode } := by
  rw [setModeTarget] at h
  split at h
  next =>
    cases h
    exact canNormalModeForCtx_agrees x
  next hne =>
    cases arm <;> cases h <;> first | exact absurd rfl hne | exact ⟨(by cases ·), (by cases ·)⟩

theorem fdModeTarget_agrees (x : Context) : ModeAgrees { x with mode := fdModeTarget x } := by
  rw [fdModeTarget]
  split
  next => exact canNormalModeForCtx_agrees x
  next hx =>
    rw [not_or] at hx
    exact ⟨fun h => absurd h hx.1, fun h => absurd h hx.2⟩

namespace Programmed

variable {c d : Chan}

theorem congr {x : Context} (hn : x.nominalBps = c.ctx.nominalBps)
    (hd : x.dataBps = c.ctx.dataBps) (hs : x.samplePct = c.ctx.samplePct)
    (hk : x.canClkHz = c.ctx.canClkHz) (hf : x.fdMode = c.ctx.fdMode) (h : Programmed c) :
    Programmed (c.setCtx x) where
  timing := by
    obtain ⟨t, htime, hregs⟩ := h.timing
    exact ⟨t, (ctxTiming_congr hk hn hd hs).trans htime, hregs⟩
  brsdis := by
    rw [Chan.setCtx_ctx, hf]
    exact h.brsdis

theorem traffic (h : Programmed c) (htr : Traffic c d) : Programmed d := by
  obtain ⟨rx, hrx⟩ := htr.ctx
  have hall : ∀ r, keptBits r = BitVec.allOnes 32 → d.regs r = c.regs r := by
    intro r hr
    have := htr.regs r
    rwa [hr, BitVec.and_allOnes, BitVec.and_allOnes] at this
  obtain ⟨t, htime, hn, hd, htdc⟩ := h.timing
  refine ⟨⟨t, ?_, ?_, ?_, ?_⟩, ?_⟩
  · rw [hrx]
    exact htime
  · exact (hall .nbtcfg (by decide)).trans hn
  · exact (hall .dbtcfg (by decide)).trans hd
  · exact (hall .tdc (by decide)).trans htdc
  · rw [htr.regs_and (by decide), h.brsdis, hrx]

theorem applied {mode : Mode} {t : BitTiming} (ht : ctxTiming c.ctx = .ok (some t)) :
    Programmed (c.applied mode t) where
  timing := by
    have hctx : ctxTiming (c.applied mode t).ctx = ctxTiming c.ctx :=
      ctxTiming_congr rfl rfl rfl rfl
    exact ⟨t, hctx.trans ht, rfl, rfl, rfl⟩
  brsdis := by
    have hmask : ∀ brs, conBrsdis &&& ((configureCon brs).mask ||| conReqopMask) = conBrsdis := by
      intro brs
      cases brs <;> decide
    rw [Chan.applied_con, MaskedWrite.apply_and_of_sub (hmask _), Chan.applied_fdMode]
    by_cases hf : c.ctx.fdMode = 0
    · rw [if_pos hf, decide_eq_false (not_not_intro hf)]
      cases mode <;> decide
    · rw [if_neg hf, decide_eq_true hf]
      cases mode <;> decide

theorem retimed {t : BitTiming} (ht : ctxTiming c.ctx = .ok (some t))
    (hb : c.regs .con &&& conBrsdis = if c.ctx.fdMode = 0 then conBrsdis else 0) :
    Programmed (c.retimed t) where
  timing := ⟨t, by rw [Chan.retimed_ctx, ht], rfl, rfl, rfl⟩
  brsdis := (Chan.retimed_con_and (by decide) c t).trans hb

end Programmed

/-- What holds of a powered instance after a run without errors. -/
structure Up (c : Chan) : Prop where
  present : c.present = true
  initialized : c.ctx.initialized = true
  priority : ¬effectivePriority c.ctx.irqPriority > 7
  live : Live c
  requested : Requested c
  programmed : Programmed c
  agrees : ModeAgrees c.ctx

namespace Up

variable {c d : Chan} {env : Env} {r : Int} {mode : Mode}

theorem traffic (h : Up c) (htr : Traffic c d) : Up d := by
  obtain ⟨rx, hrx⟩ := htr.ctx
  exact
    { present := htr.present.trans h.present
      initialized := by rw [hrx, h.initialized]
      priority := by
        rw [hrx]
        exact h.priority
      live := h.live.traffic htr
      requested := h.requested.traffic htr
      programmed := h.programmed.traffic htr
      agrees := by
        rw [hrx]
        exact ⟨h.agrees.normalFd, h.agrees.normalClassic⟩ }

theorem setPowered (h : Up c) (powered : Bool) :
    Up (c.setCtx { c.ctx with powered := powered }) where
  present := h.present
  initialized := h.initialized
  priority := h.priority
  live := h.live.setCtx rfl
  requested := h.requested.setCtx rfl
  programmed := h.programmed.congr rfl rfl rfl rfl rfl
  agrees := ⟨h.agrees.normalFd, h.agrees.normalClassic⟩

theorem applyInit (h : ApplyInit c mode env armDriverOk d) (hi : c.ctx.initialized = true)
    (ha : ModeAgrees { c.ctx with mode := mode }) : Up d := by
  obtain ⟨t, hp, ht, hprio, hm, rfl⟩ := h.ok
  exact
    { present := by rw [Chan.applied_present, hp]
      initialized := by
        rw [Chan.applied_ctx]
        exact hi
      priority := by
        rw [Chan.applied_ctx]
        exact hprio
      live := .applied c hm t
      requested := .applied c mode t
      programmed := .applied ht
      agrees := by
        rw [Chan.applied_ctx]
        exact ha }

theorem retimed (h : Up c) {x : Context} (hx : ∃ nominal data pct,
    x = { c.ctx with nominalBps := nominal, dataBps := data, samplePct := pct })
    {t : BitTiming} (ht : ctxTiming x = .ok (some t)) : Up ((c.setCtx x).retimed t) := by
  obtain ⟨n, m, p, hx⟩ := hx
  have hmode : x.mode = c.ctx.mode := by rw [hx]
  have hf : x.fdMode = c.ctx.fdMode := by rw [hx]
  have hb := h.programmed.brsdis
  rw [← hf] at hb
  exact
    { present := h.present
      initialized := (congrArg Context.initialized hx).trans h.initialized
      priority := by
        have hprio : x.irqPriority = c.ctx.irqPriority := by rw [hx]
        change ¬effectivePriority x.irqPriority > 7
        rw [hprio]
        exact h.priority
      live := (h.live.setCtx hmode).retimed t
      requested := (h.requested.setCtx hmode).retimed (h.live.mode.trans hmode.symm) t
      programmed := .retimed ht hb
      agrees := ⟨fun h' => hf ▸ h.agrees.normalFd (hmode ▸ h'),
        fun h' => hf ▸ h.agrees.normalClassic (hmode ▸ h')⟩ }

end Up

theorem unpowered_elim {c : Chan} {P : Prop} (h : c.ctx.powered = false)
    (hp : c.ctx.powered = true) : P := absurd (h.symm.trans hp) (by decide)

theorem up_outcome {c d : Chan} {env : Env} {call : Call} {r : Int}
    (hc : c.ctx.powered = true → Up c) (ha : ErrorFree (.call env call r))
    (h : Outcome env c call r d) (hpow : d.ctx.powered = true) : Up d := by
  cases h with
  | traffic h =>
    obtain ⟨rx, hrx⟩ := h.ctx
    exact (hc (by rw [← hpow, hrx])).traffic h
  | opened | closed | off => exact absurd hpow (by simp)
  | closedPowered hp hi => exact absurd (hi.symm.trans (hc hp).initialized) (by decide)
  | full hi _ h => exact (Up.applyInit h hi (canNormalModeForCtx_agrees _)).setPowered true
  | fullFailed _ hp h => exact unpowered_elim (h.powered.trans hp) hpow
  | rateCached hp =>
    rcases hp with hp | ⟨-, rfl⟩
    · exact unpowered_elim ((cacheRate_powered ..).trans hp) hpow
    · exact absurd (show 0 ≤ armDriverErrorParameter from ha) (by decide)
  | rate hp hx h =>
    obtain rfl := canHalToArm_nonneg ha
    subst hx
    cases h with
    | retime _ ht h =>
      cases h with
      | retimed => exact (hc hp).retimed (cacheRate_eq ..) ht
  | mode hi _ ht _ h =>
    obtain rfl := h.of_nonneg ha
    exact .applyInit h hi (setModeTarget_agrees ht)
  | fdCached hp => exact unpowered_elim hp hpow
  | fd hi _ hcode _ h =>
    obtain rfl := h.of_nonneg (ha hcode)
    exact .applyInit h hi (fdModeTarget_agrees _)

theorem outcome_fdMode {c d : Chan} {env : Env} {call : Call} {r : Int}
    (h : Outcome env c call r d) :
    d.ctx.fdMode = c.ctx.fdMode ∨ d.ctx.fdMode = 0 ∨ d.ctx.fdMode = 1 := by
  cases h with
  | traffic h =>
    obtain ⟨rx, hrx⟩ := h.ctx
    exact .inl (by rw [hrx])
  | opened | closed | closedPowered | off => exact .inl rfl
  | full _ _ h | fullFailed _ _ h => exact .inl h.fdMode
  | rateCached => exact .inl (cacheRate_fdMode ..)
  | rate _ hx h => exact .inl (by rw [h.ctx, Chan.setCtx_ctx, hx, cacheRate_fdMode])
  | mode _ _ _ _ h => exact .inl h.fdMode
  | fdCached => exact .inr (cacheFdMode_cases ..)
  | fd _ _ _ _ h =>
    rw [h.fdMode]
    exact .inr (cacheFdMode_cases ..)

theorem run_fdMode {allowed : Chan → Label → Prop} {start c : Chan}
    (h : Reach Step allowed start c) :
    c.ctx.fdMode = start.ctx.fdMode ∨ c.ctx.fdMode = 0 ∨ c.ctx.fdMode = 1 := by
  refine run_invariant (I := fun c => c.ctx.fdMode = start.ctx.fdMode ∨ c.ctx.fdMode = 0 ∨
    c.ctx.fdMode = 1) h (.inl rfl) ?_ ?_
  · intro c d hc htr
    obtain ⟨rx, hrx⟩ := htr.ctx
    rwa [hrx]
  · intro c env call r d hc _ hout
    rcases outcome_fdMode hout with hsame | hset
    · rwa [hsame]
    · exact .inr hset

theorem run_up {dev : Device} {c : Chan} (h : Reach Step (fun _ => ErrorFree) dev.boot c)
    (hpow : c.ctx.powered = true) : Up c := by
  refine run_invariant (I := fun c => c.ctx.powered = true → Up c) h ?_ ?_ ?_ hpow
  · exact fun h => absurd h (by simp [Device.boot])
  · intro c d hc htr hpow
    obtain ⟨rx, hrx⟩ := htr.ctx
    exact (hc (by rw [← hpow, hrx])).traffic htr
  · exact fun c env call r d hc ha hout => up_outcome hc ha hout

/-- After a run without errors the configuration of a powered instance is a function of
its cached settings, and histories that end with the same settings and mode agree on it. -/
theorem configuration_confluent (dev : Device) :
    (∀ c, Reach Step (fun _ => ErrorFree) dev.boot c → c.ctx.powered = true →
      Programmed c ∧ c.mode = c.ctx.mode ∧
        c.regs .con &&& conReqopMask = (modeToReqop c.ctx.mode).setWidth 32 <<< conReqopPos ∧
        (c.ctx.mode = .normalFd → c.ctx.fdMode ≠ 0 ∧ (dev.fdMode ≤ 1 → c.ctx.fdMode = 1)) ∧
        (c.ctx.mode = .normalClassic → c.ctx.fdMode = 0)) ∧
      ∀ c d, Reach Step (fun _ => ErrorFree) dev.boot c →
        Reach Step (fun _ => ErrorFree) dev.boot d → c.ctx.powered = true →
        d.ctx.powered = true → c.ctx.nominalBps = d.ctx.nominalBps →
        c.ctx.dataBps = d.ctx.dataBps → c.ctx.samplePct = d.ctx.samplePct →
        c.ctx.fdMode = d.ctx.fdMode → c.ctx.mode = d.ctx.mode →
        c.regs .nbtcfg = d.regs .nbtcfg ∧ c.regs .dbtcfg = d.regs .dbtcfg ∧
          c.regs .tdc = d.regs .tdc ∧
          c.regs .con &&& conBrsdis = d.regs .con &&& conBrsdis ∧
          c.regs .con &&& conReqopMask = d.regs .con &&& conReqopMask ∧ c.mode = d.mode := by
  constructor
  · intro c hc hpow
    have h := run_up hc hpow
    refine ⟨h.programmed, h.live.mode, h.requested.reqop, fun hm => ?_, h.agrees.normalClassic⟩
    have hne := h.agrees.normalFd hm
    refine ⟨hne, fun hle => ?_⟩
    rcases run_fdMode hc with hdev | hzero | hone
    · have hle' : c.ctx.fdMode ≤ 1 := hdev ▸ hle
      have hpos : c.ctx.fdMode.toNat ≠ 0 := fun h0 => hne (BitVec.eq_of_toNat_eq h0)
      have hlt : c.ctx.fdMode.toNat ≤ 1 := hle'
      exact BitVec.eq_of_toNat_eq (show c.ctx.fdMode.toNat = 1 by omega)
    · exact absurd hzero hne
    · exact hone
  · intro c d hc hd hpc hpd hnom hdat hpct hfd hmode
    have h := run_up hc hpc
    have h' := run_up hd hpd
    have hclk : c.ctx.canClkHz = d.ctx.canClkHz :=
      congrArg Fixed.canClkHz ((run_fixed hc).trans (run_fixed hd).symm)
    obtain ⟨t, ht, hn, hdb, htdc⟩ := h.programmed.timing
    obtain ⟨t', ht', hn', hdb', htdc'⟩ := h'.programmed.timing
    -- Both timings are the solver's answer for the same clock, rates and sample point.
    have htt : t = t' := by
      rw [ctxTiming_congr hclk hnom hdat hpct, ht'] at ht
      cases ht
      rfl
    subst htt
    refine ⟨hn.trans hn'.symm, hdb.trans hdb'.symm, htdc.trans htdc'.symm, ?_, ?_, ?_⟩
    · rw [h.programmed.brsdis, h'.programmed.brsdis, hfd]
    · rw [h.requested.reqop, h'.requested.reqop, hmode]
    · rw [h.live.mode, h'.live.mode, hmode]

theorem configuration_confluent_example :
    ∃ c d, Reach Step (fun _ => ErrorFree) exampleDevice.boot c ∧
      Reach Step (fun _ => ErrorFree) exampleDevice.boot d ∧ c.ctx.powered = true ∧
      d.ctx.powered = true ∧ c.regs .nbtcfg = d.regs .nbtcfg := by
  have hok : ∀ (s : Chan) (env : Env) (call : Call) (r : Int),
      (fun (_ : Chan) (_ : Env) (_ : Call) r => decide (0 ≤ r)) s env call r = true →
      ErrorFree (.call env call r) := by
    intro s env call r hr
    have hr' := of_decide_eq_true hr
    cases call <;> first | exact hr' | exact fun _ => hr' | trivial
  have hrun : ∀ calls, ((replay (fun _ _ _ r => decide (0 ≤ r)) calls exampleDevice.boot).map
      fun c => c.ctx.powered && decide (c.ctx.nominalBps = 250000 ∧ c.ctx.dataBps = 2000000 ∧
        c.ctx.samplePct = 80 ∧ c.ctx.fdMode = 1 ∧ c.ctx.mode = .normalFd)) = some true →
      ∃ c, Reach Step (fun _ => ErrorFree) exampleDevice.boot c ∧ c.ctx.powered = true ∧
        c.ctx.nominalBps = 250000 ∧ c.ctx.dataBps = 2000000 ∧ c.ctx.samplePct = 80 ∧
        c.ctx.fdMode = 1 ∧ c.ctx.mode = .normalFd := by
    intro calls h
    obtain ⟨c, hc, hp⟩ := reach_of_replay _ calls _ hok h
    simp only [Bool.and_eq_true, decide_eq_true_eq] at hp
    exact ⟨c, hc, hp.1, hp.2⟩
  obtain ⟨c, hc, hpc, hnc, hdc, hsc, hfc, hmc⟩ :=
    hrun ((granting .normalFd, .canSetBitrate .nominal 250000 0) :: powerUp) (by decide +kernel)
  obtain ⟨d, hd, hpd, hnd, hdd, hsd, hfd, hmd⟩ :=
    hrun (powerUp ++ [(granting .normalFd, .canSetBitrate .nominal 250000 0)])
      (by decide +kernel)
  refine ⟨c, d, hc, hd, hpc, hpd, ((configuration_confluent exampleDevice).2 c d hc hd hpc hpd
    ?_ ?_ ?_ ?_ ?_).1⟩
  · rw [hnc, hnd]
  · rw [hdc, hdd]
  · rw [hsc, hsd]
  · rw [hfc, hfd]
  · rw [hmc, hmd]

end CanfdDriver
