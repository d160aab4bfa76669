import CanfdDriver.Cmsis.Configuration
import CanfdDriver.Cmsis.View
import CanfdDriver.Hal.Retiming

namespace CanfdDriver

open Lib NoraCanfd Cmsis

variable {c d : Chan} {env : Env} {r : Int}

structure SameSettings (x y : Context) : Prop where
  nominalBps : y.nominalBps = x.nominalBps
  dataBps : y.dataBps = x.dataBps
  samplePct : y.samplePct = x.samplePct

/-- The arguments ask for the sample point and the rate that are already cached. -/
structure AsksCached (x : Context) (select : BitrateSelect) (bitrate bitSegments : BitVec 32) :
    Prop where
  samplePct : ∀ pct, segmentSamplePct bitSegments = some pct → pct = x.samplePct
  nominal : select = .nominal → bitrate = x.nominalBps
  fdData : select = .fdData → bitrate = x.dataBps

def ctxRequest (x : Context) (env : Env) : RateRequest :=
  ⟨x.canClkHz, x.nominalBps, x.dataBps, x.samplePct, env.toConfig, env.toMode⟩

/-- `SetBitrate` returns an error after it has cached something: the selector is invalid, or the
HAL of a powered instance does not carry out the request. -/
def RateFails (c : Chan) (select : BitrateSelect) (bitrate bitSegments : BitVec 32) (env : Env) :
    Prop :=
  bitrate ≠ 0 ∧ (select = .other ∨ c.ctx.powered = true ∧
    (ctxRequest (cacheRate c.ctx select bitrate bitSegments) env).Fails c)

theorem sameSettings_cacheRate {x : Context} {select : BitrateSelect}
    {bitrate bitSegments : BitVec 32} :
    SameSettings x (cacheRate x select bitrate bitSegments) ↔
      AsksCached x select bitrate bitSegments := by
  constructor
  · intro h
    refine ⟨fun pct hs => ?_, fun hs => ?_, fun hs => ?_⟩
    · have hpct := h.samplePct
      cases select <;> simpa only [cacheRate, hs] using hpct
    · subst hs
      exact h.nominalBps
    · subst hs
      exact h.dataBps
  · intro h
    have hpct : (cacheRate x select bitrate bitSegments).samplePct = x.samplePct := by
      cases hs : segmentSamplePct bitSegments with
      | none => cases select <;> simp only [cacheRate, hs]
      | some pct => cases select <;> simp only [cacheRate, hs] <;> exact h.samplePct pct hs
    cases hs : segmentSamplePct bitSegments <;> cases select <;>
      refine ⟨?_, ?_, hpct⟩ <;> simp only [cacheRate, hs] <;>
      first | exact h.nominal rfl | exact h.fdData rfl

theorem exec_applyBitrate (hpow : c.ctx.powered = true) :
    (applyBitrate env).exec c = match (ctxRequest c.ctx env).run.exec c with
      | .error e => .error e
      | .ok (st, d) => .ok (canHalToArm st, d) := by
  have hn : ¬(!c.ctx.powered) = true := by simp [hpow]
  rw [applyBitrate, Prog.exec_bind_of_ok (Prog.exec_get c), if_neg hn,
    Prog.exec_bind_of_ok (Prog.exec_get c), Prog.exec_bind, RateRequest.run, ctxRequest]
  cases (setBitrate c.ctx.canClkHz c.ctx.nominalBps c.ctx.dataBps c.ctx.samplePct env.toConfig
    env.toMode).exec c <;> rfl

theorem exec_canSetBitrate_ctx {select : BitrateSelect} {bitrate bitSegments : BitVec 32}
    (hb : bitrate ≠ 0) (h : (canSetBitrate select bitrate bitSegments env).exec c = .ok (r, d)) :
    d.ctx = cacheRate c.ctx select bitrate bitSegments := by
  rw [exec_canSetBitrate hb] at h
  split at h
  next =>
    cases h
    rfl
  next =>
    by_cases hpow : (c.setCtx (cacheRate c.ctx select bitrate bitSegments)).ctx.powered = true
    · obtain ⟨st, -, hst⟩ := applyBitrate_outcome hpow h
      exact hst.ctx
    · rw [exec_applyBitrate_unpowered hpow] at h
      cases h
      rfl

theorem rateFails_iff {select : BitrateSelect} {bitrate bitSegments : BitVec 32} (hb : bitrate ≠ 0) :
    RateFails c select bitrate bitSegments env ↔
      ∃ r d, (canSetBitrate select bitrate bitSegments env).exec c = .ok (r, d) ∧ r < 0 := by
  rw [RateFails, and_iff_right hb, exec_canSetBitrate hb]
  by_cases hsel : select = .other
  · rw [if_pos hsel]
    exact iff_of_true (.inl hsel) ⟨_, _, rfl, by decide⟩
  rw [if_neg hsel, or_iff_right hsel]
  have hkeep := cacheRate_powered c.ctx select bitrate bitSegments
  by_cases hpow : c.ctx.powered = true
  · have hfails : (ctxRequest (cacheRate c.ctx select bitrate bitSegments) env).Fails c ↔
        (ctxRequest (cacheRate c.ctx select bitrate bitSegments) env).Fails
          (c.setCtx (cacheRate c.ctx select bitrate bitSegments)) := Iff.rfl
    rw [and_iff_right hpow, hfails, rateRequest_fails_iff, exec_applyBitrate (hkeep.trans hpow)]
    constructor
    · rintro ⟨st, d, hexec, hne⟩
      refine ⟨canHalToArm st, d, ?_, canHalToArm_neg.mpr hne⟩
      rw [Chan.setCtx_ctx, hexec]
    · rintro ⟨r, d, hexec, hr⟩
      split at hexec
      next => cases hexec
      next st e he =>
        cases hexec
        exact ⟨st, d, he, canHalToArm_neg.mp hr⟩
  · rw [exec_applyBitrate_unpowered (fun h => hpow (hkeep.symm.trans h))]
    refine iff_of_false (fun h => hpow h.1) ?_
    rintro ⟨r, d, hexec, hr⟩
    cases hexec
    exact absurd hr (by decide)

theorem exec_canSetBitrate_zero (select : BitrateSelect) (bitSegments : BitVec 32) :
    (canSetBitrate select 0 bitSegments env).exec c = .ok (armDriverErrorParameter, c) := rfl

theorem canSetBitrate_keeps {select : BitrateSelect} {bitrate bitSegments : BitVec 32}
    (h : (canSetBitrate select bitrate bitSegments env).exec c = .ok (r, d))
    (hsame : SameSettings c.ctx d.ctx) : d.ctx = c.ctx := by
  by_cases hb : bitrate = 0
  · subst hb
    rw [exec_canSetBitrate_zero] at h
    cases h
    rfl
  rw [exec_canSetBitrate_ctx hb h] at hsame ⊢
  obtain ⟨n, m, p, hctx⟩ := cacheRate_eq c.ctx select bitrate bitSegments
  obtain ⟨rfl, rfl, rfl⟩ := hctx ▸ hsame
  exact hctx

/-- A failed `SetBitrate` keeps the cached settings exactly when it asks for the settings that are
already cached; what it keeps then is the whole context. -/
theorem failed_setBitrate_keeps_iff (c : Chan) (select : BitrateSelect)
    (bitrate bitSegments : BitVec 32) (env : Env) :
    ((∀ r d, (canSetBitrate select bitrate bitSegments env).exec c = .ok (r, d) → r < 0 →
        SameSettings c.ctx d.ctx) ↔
      (RateFails c select bitrate bitSegments env → AsksCached c.ctx select bitrate bitSegments)) ∧
    ∀ r d, (canSetBitrate select bitrate bitSegments env).exec c = .ok (r, d) →
      SameSettings c.ctx d.ctx → d.ctx = c.ctx := by
  refine ⟨?_, fun _ _ => canSetBitrate_keeps⟩
  by_cases hb : bitrate = 0
  · subst hb
    refine iff_of_true (fun r d h _ => ?_) fun h => absurd rfl h.1
    rw [exec_canSetBitrate_zero] at h
    cases h
    exact ⟨rfl, rfl, rfl⟩
  constructor
  · intro h hfails
    obtain ⟨r, d, hexec, hr⟩ := (rateFails_iff hb).mp hfails
    have hsame := h r d hexec hr
    rw [exec_canSetBitrate_ctx hb hexec] at hsame
    exact sameSettings_cacheRate.mp hsame
  · intro h r d hexec hr
    rw [exec_canSetBitrate_ctx hb hexec]
    exact sameSettings_cacheRate.mpr (h ((rateFails_iff hb).mpr ⟨r, d, hexec, hr⟩))

/-- On a powered instance a rate without a bit timing is refused and stays cached. -/
theorem failed_setBitrate_cached :
    ∃ c d, Reach Step (fun _ _ => True) exampleDevice.boot c ∧
      (canSetBitrate .nominal 7 0 (granting .normalFd)).exec c = .ok (armDriverErrorParameter, d) ∧
      ¬SameSettings c.ctx d.ctx := by
  have hrun : ∃ c, Reach Step (fun _ _ => True) exampleDevice.boot c ∧
      ((canSetBitrate .nominal 7 0 (granting .normalFd)).ends c fun r d =>
        decide (r = armDriverErrorParameter ∧ d.ctx.nominalBps ≠ c.ctx.nominalBps)) = true :=
    reach_of_replay (fun _ _ _ _ => true) powerUp _ (fun _ _ _ _ _ => trivial) (by decide +kernel)
  obtain ⟨c, hc, hp⟩ := hrun
  obtain ⟨r, d, hexec, hp⟩ := Prog.ends_iff.mp hp
  obtain ⟨rfl, hne⟩ := of_decide_eq_true hp
  exact ⟨c, d, hc, hexec, fun h => hne h.nominalBps⟩

theorem NoraCanfd.SetBitrate.view {canClkHz nominalBps dataBps : BitVec 32} {samplePct : BitVec 8}
    {toConfig toMode : Poll} {st : Status}
    (h : SetBitrate c canClkHz nominalBps dataBps samplePct toConfig toMode st d) :
    d.view .software = c.view .software := by
  have hset (c : Chan) (r : Reg) (x : BitVec 32) :
      (c.setReg r x).view .software = c.view .software :=
    Chan.ext rfl rfl rfl rfl rfl rfl (funext fun _ => BitVec.and_zero.trans BitVec.and_zero.symm)
      rfl rfl rfl
  cases h with
  | retime _ _ h =>
    cases h with
    | configTimeout => exact hset _ _ _
    | modeTimeout | retimed => simp only [Chan.retimed, Chan.writeCon, hset]
  | _ => rfl

theorem canSetBitrate_view {select : BitrateSelect} {bitrate bitSegments : BitVec 32}
    (h : (canSetBitrate select bitrate bitSegments env).exec c = .ok (r, d))
    (hsame : SameSettings c.ctx d.ctx) :
    d.view .software = c.view .software := by
  by_cases hb : bitrate = 0
  · subst hb
    rw [exec_canSetBitrate_zero] at h
    cases h
    rfl
  have hcached : c.setCtx (cacheRate c.ctx select bitrate bitSegments) = c := by
    rw [← exec_canSetBitrate_ctx hb h, canSetBitrate_keeps h hsame]
    rfl
  rw [exec_canSetBitrate hb, hcached] at h
  split at h
  next =>
    cases h
    rfl
  next =>
    by_cases hpow : c.ctx.powered = true
    · obtain ⟨st, -, hst⟩ := applyBitrate_outcome hpow h
      exact hst.view
    · rw [exec_applyBitrate_unpowered hpow] at h
      cases h
      rfl

def callAll : List (Env × Call) → M (List Int)
  | [] => pure []
  | (env, call) :: rest => do
    let r ← call.run env
    let rs ← callAll rest
    return r :: rs

theorem callAll_unseeing {v : View} (hv : v.ring = true) (calls : List (Env × Call)) :
    Unseeing v (callAll calls) := by
  induction calls with
  | nil => exact .pure _
  | cons k rest ih =>
    exact .bind (call_unseeing (.inl hv) k.1) fun _ => .bind ih fun _ => .pure _

/-- Where a `SetBitrate` keeps the settings, calls that come later return what they return without
it, and leave the same context. -/
theorem kept_setBitrate_forgotten {select : BitrateSelect} {bitrate bitSegments : BitVec 32}
    (h : (canSetBitrate select bitrate bitSegments env).exec c = .ok (r, d))
    (hsame : SameSettings c.ctx d.ctx) (calls : List (Env × Call)) :
    Prog.EndAlike (fun s t => s.ctx = t.ctx) (callAll calls) d (callAll calls) c := by
  have hview := canSetBitrate_view h hsame
  have hsteps := callAll_unseeing (v := .software) rfl calls
  exact (Prog.EndAlike.of_lockstep hsteps hview).mono fun s t hst => (congrArg Chan.ctx hst :)

/-- The configuration and the event layer of a live instance are as they were. -/
structure Untouched (c d : Chan) : Prop where
  mode : d.ctx.mode = c.ctx.mode
  fdMode : d.ctx.fdMode = c.ctx.fdMode
  halMode : d.mode = c.mode
  regs : d.regs = c.regs
  rxLine : d.irq.rx.enable = c.irq.rx.enable
  txLine : d.irq.tx.enable = c.irq.tx.enable
  genLine : d.irq.gen.enable = c.irq.gen.enable
  isrEnabled : d.isr.isrEnabled = c.isr.isrEnabled
  cb : d.isr.cb = c.isr.cb
  ud : d.isr.ud = c.isr.ud

structure TornDown (c : Chan) : Prop extends EventsOff c where
  ud : c.isr.ud = none

def Reconfigures : Call → Prop
  | .canSetMode _ | .canControl _ _ => True
  | _ => False

theorem untouched_refl (c : Chan) : Untouched c c :=
  ⟨rfl, rfl, rfl, rfl, rfl, rfl, rfl, rfl, rfl, rfl⟩

theorem untouched_quiet {x : Context} (hm : x.mode = c.ctx.mode) :
    Untouched c (c.setCtx x).quiet ↔ TornDown c ∧ x.fdMode = c.ctx.fdMode := by
  constructor
  · intro h
    have hint : c.regs .int &&& ~~~intEnables = c.regs .int := congrFun h.regs .int
    have hf : c.regs .fifocon1 &&& ~~~fifocon1Enables = c.regs .fifocon1 := congrFun h.regs .fifocon1
    have ht : c.regs .txqcon &&& ~~~txqconTxqeie = c.regs .txqcon := congrFun h.regs .txqcon
    exact ⟨⟨⟨h.isrEnabled.symm, h.cb.symm, h.rxLine.symm, h.txLine.symm, h.genLine.symm,
      MaskedWrite.and_not_eq_self.mp hint, MaskedWrite.and_not_eq_self.mp hf,
      MaskedWrite.and_not_eq_self.mp ht⟩, h.ud.symm⟩, h.fdMode⟩
  · rintro ⟨h, hf⟩
    refine ⟨hm, hf, rfl, ?_, h.rxLine.symm, h.txLine.symm, h.genLine.symm, h.isrEnabled.symm,
      h.cb.symm, h.ud.symm⟩
    funext r
    cases r with
    | int => exact MaskedWrite.and_not_eq_self.mpr h.int
    | fifocon1 => exact MaskedWrite.and_not_eq_self.mpr h.fifocon1
    | txqcon => exact MaskedWrite.and_not_eq_self.mpr h.txqcon
    | _ => rfl

theorem exec_reapplies {call : Call} {x : Context} {mode : Mode} (h : Reapplies c call x mode) :
    (call.run env).exec c = (canApplyInit mode env).exec (c.setCtx x) := by
  cases h with
  | @mode arm _ hi hpow ht hne =>
    have hn : ¬(!c.ctx.initialized) = true := by simp [hi]
    have hp : ¬(!c.ctx.powered) = true := by simp [hpow]
    have hchange : (changeMode mode env).exec c = (canApplyInit mode env).exec c := by
      rw [changeMode, Prog.exec_bind_of_ok (Prog.exec_get c), if_neg hp, if_neg hne]
    rw [Call.run, canSetMode, Prog.exec_bind_of_ok (Prog.exec_get c), if_neg hn]
    cases arm with
    | initialization | restricted | other => cases ht
    | normal | monitor | loopbackInternal | loopbackExternal =>
      cases ht
      exact hchange
  | @fdMode code arg hi hpow hcode harg =>
    have hn : ¬(!c.ctx.initialized) = true := by simp [hi]
    have ha : ¬(arg ≠ fdModeDisable ∧ arg ≠ fdModeEnable) := by
      rintro ⟨h0, h1⟩
      exact harg.elim h0 h1
    rw [Call.run, canControl, Prog.exec_bind_of_ok (Prog.exec_get c), if_neg hn, if_pos hcode,
      exec_setFdMode ha, if_pos hpow]

theorem canSetMode_cases {arm : ArmMode} (hpow : c.ctx.powered = true)
    (h : (canSetMode arm env).exec c = .ok (r, d)) :
    d = c ∨ ∃ x mode, Reapplies c (.canSetMode arm) x mode := by
  by_cases hi : c.ctx.initialized = true
  · have hn : ¬(!c.ctx.initialized) = true := by simp [hi]
    have hp : ¬(!c.ctx.powered) = true := by simp [hpow]
    rw [canSetMode, Prog.exec_bind_of_ok (Prog.exec_get c), if_neg hn] at h
    have hchange {mode : Mode} (ht : setModeTarget c.ctx arm = some mode)
        (h : (changeMode mode env).exec c = .ok (r, d)) :
        d = c ∨ ∃ x mode, Reapplies c (.canSetMode arm) x mode := by
      rw [changeMode, Prog.exec_bind_of_ok (Prog.exec_get c), if_neg hp] at h
      by_cases hm : mode = c.ctx.mode
      · rw [if_pos hm] at h
        cases h
        exact .inl rfl
      · exact .inr ⟨_, _, .mode hi hpow ht hm⟩
    cases arm with
    | initialization | restricted | other =>
      cases h
      exact .inl rfl
    | normal | monitor | loopbackInternal | loopbackExternal => exact hchange rfl h
  · have hn : (!c.ctx.initialized) = true := by simpa using hi
    rw [canSetMode, Prog.exec_bind_of_ok (Prog.exec_get c), if_pos hn] at h
    cases h
    exact .inl rfl

theorem abortMessageSend_error {arg : BitVec 32} (h : (abortMessageSend arg).exec c = .ok (r, d))
    (hr : r < 0) : d = c := by
  simp only [abortMessageSend, Prog.exec_bind, Prog.exec_get, Prog.exec_ite] at h
  split at h
  next =>
    cases h
    rfl
  next =>
    split at h
    next =>
      cases h
      rfl
    next =>
      cases hp : c.present with
      | false =>
        have habort : txAbort.exec c = .ok (.notPresent, c) := by
          simp only [txAbort, Prog.exec_bind, exec_getRegs, hp, Bool.false_eq_true, if_false, ne_eq,
            reduceCtorEq, not_false_eq_true, if_true, Prog.exec_pure]
        simp only [habort, Prog.exec_pure] at h
        cases h
        rfl
      | true =>
        simp only [exec_txAbort hp, Prog.exec_pure] at h
        cases h
        exact absurd hr (by decide)

theorem canControl_cases {code arg : BitVec 32} (hpow : c.ctx.powered = true)
    (h : (canControl code arg env).exec c = .ok (r, d)) (hr : r < 0) :
    d = c ∨ ∃ x mode, Reapplies c (.canControl code arg) x mode := by
  by_cases hi : c.ctx.initialized = true
  · have hn : ¬(!c.ctx.initialized) = true := by simp [hi]
    rw [canControl, Prog.exec_bind_of_ok (Prog.exec_get c), if_neg hn] at h
    by_cases hcode : code &&& controlMsk = setFdModeCode
    · by_cases ha : arg ≠ fdModeDisable ∧ arg ≠ fdModeEnable
      · rw [if_pos hcode, setFdMode, if_pos ha] at h
        cases h
        exact .inl rfl
      · rw [not_and_or, not_not, not_not] at ha
        exact .inr ⟨_, _, .fdMode hi hpow hcode ha⟩
    · rw [if_neg hcode] at h
      split at h
      next => exact .inl (abortMessageSend_error h hr)
      next =>
        cases h
        exact .inl rfl
  · have hn : (!c.ctx.initialized) = true := by simpa using hi
    rw [canControl, Prog.exec_bind_of_ok (Prog.exec_get c), if_pos hn] at h
    cases h
    exact .inl rfl

theorem rejected_cases {call : Call} (hcall : Reconfigures call) (hpow : c.ctx.powered = true)
    (h : (call.run env).exec c = .ok (r, d)) (hr : r < 0) :
    d = c ∨ ∃ x mode, Reapplies c call x mode ∧ ApplyInit (c.setCtx x) mode env r d := by
  have hcases : d = c ∨ ∃ x mode, Reapplies c call x mode := by
    cases call with
    | canSetMode arm => exact canSetMode_cases hpow h
    | canControl code arg => exact canControl_cases hpow h hr
    | _ => exact hcall.elim
  rcases hcases with hsame | ⟨x, mode, hre⟩
  · exact .inl hsame
  · exact .inr ⟨x, mode, hre, canApplyInit_outcome ((exec_reapplies hre).symm.trans h)⟩

theorem run_poweredUp {dev : Device} {allowed : Chan → Label → Prop}
    (h : Reach Step allowed dev.boot c) : PoweredUp c :=
  run_invariant h (.of_unpowered rfl) (fun _ _ => PoweredUp.traffic)
    fun _ _ _ _ _ hc _ hout => hc.outcome hout

theorem Cmsis.ApplyInit.mode {mode : Mode} (h : ApplyInit c mode env r d) :
    d.ctx.mode = c.ctx.mode ∨ mode ≠ .none ∧ d.ctx.mode = mode := by
  cases h with
  | timeout _ _ hb => exact .inl (congrArg Context.mode hb.ctx)
  | applied _ _ _ _ _ hm => exact .inr ⟨hm, rfl⟩
  | _ => exact .inl rfl

theorem Cmsis.ApplyInit.mode_ne_none {mode : Mode} (h : ApplyInit c mode env r d)
    (hc : c.ctx.mode ≠ .none) : d.ctx.mode ≠ .none := by
  rcases h.mode with hsame | ⟨hm, hd⟩
  · rwa [hsame]
  · rwa [hd]

theorem Traffic.mode_ne_none (h : Traffic c d) (hc : c.ctx.mode ≠ .none) : d.ctx.mode ≠ .none := by
  obtain ⟨rx, hrx⟩ := h.ctx
  rwa [hrx]

theorem Cmsis.Outcome.mode_ne_none {call : Call} (h : Outcome env c call r d)
    (hc : c.ctx.mode ≠ .none) : d.ctx.mode ≠ .none := by
  cases h with
  | traffic htr => exact htr.mode_ne_none hc
  | opened | closed | closedPowered | off | fdCached => exact hc
  | full _ _ h | fullFailed _ _ h => exact h.mode_ne_none (c := emptied c) hc
  | rateCached =>
    rw [Chan.setCtx_ctx, cacheRate_mode]
    exact hc
  | rate _ hx h =>
    rw [h.ctx, Chan.setCtx_ctx, hx, cacheRate_mode]
    exact hc
  | mode _ _ _ _ h => exact h.mode_ne_none hc
  | fd _ _ _ _ h => exact h.mode_ne_none hc

theorem run_mode_ne_none {dev : Device} {allowed : Chan → Label → Prop}
    (h : Reach Step allowed dev.boot c) : c.ctx.mode ≠ .none :=
  run_invariant (I := fun c => c.ctx.mode ≠ .none) h Mode.noConfusion
    (fun _ _ hc htr => htr.mode_ne_none hc) fun _ _ _ _ _ hc _ hout => hout.mode_ne_none hc

theorem Reapplies.mode_ne_none {call : Call} {x : Context} {mode : Mode}
    (h : Reapplies c call x mode) (hc : c.ctx.mode ≠ .none) : mode ≠ .none := by
  cases h with
  | mode _ _ ht => exact setModeTarget_ne_none ht
  | fdMode => exact fdModeTarget_ne_none hc

theorem Reapplies.ctx {call : Call} {x : Context} {mode : Mode} (h : Reapplies c call x mode) :
    x.mode = c.ctx.mode ∧ x.irqPriority = c.ctx.irqPriority ∧ ctxTiming x = ctxTiming c.ctx := by
  cases h with
  | mode => exact ⟨rfl, rfl, rfl⟩
  | fdMode => exact ⟨rfl, rfl, ctxTiming_congr rfl rfl rfl rfl⟩

/-- A rejected reconfiguration leaves the live instance as it was exactly when it does not get as
far as a search without a result, or finds the event layer torn down and keeps the FD mode. -/
theorem rejected_reconfiguration_iff {dev : Device} (hc : Reach Step (fun _ _ => True) dev.boot c)
    (hpow : c.ctx.powered = true) {call : Call} (hcall : Reconfigures call) (env : Env) :
    (∀ r d, (call.run env).exec c = .ok (r, d) → r < 0 → r ≠ armDriverErrorTimeout →
        Untouched c d) ↔
      ∀ x mode, Reapplies c call x mode → ctxTiming c.ctx = .ok none →
        TornDown c ∧ x.fdMode = c.ctx.fdMode := by
  obtain ⟨hp, -, hprio⟩ := run_poweredUp hc hpow
  have hm := run_mode_ne_none hc
  constructor
  · intro h x mode hre ht
    obtain ⟨hmode, -, htime⟩ := hre.ctx
    have happ : (canApplyInit mode env).exec (c.setCtx x) = _ :=
      exec_canApplyInit hp (hre.mode_ne_none hm)
    rw [Chan.setCtx_ctx, htime, ht] at happ
    exact (untouched_quiet hmode).mp
      (h _ _ ((exec_reapplies hre).trans happ) (by decide) (by decide))
  · intro h r d hexec hr htimeout
    rcases rejected_cases hcall hpow hexec hr with rfl | ⟨x, mode, hre, happ⟩
    · exact untouched_refl _
    · obtain ⟨hmode, hpriority, htime⟩ := hre.ctx
      cases happ with
      | absent habs => exact absurd (habs.symm.trans hp) (by decide)
      | refused _ hbad =>
        rcases hbad with hnone | ht
        · exact absurd hnone (hre.mode_ne_none hm)
        · exact (untouched_quiet hmode).mpr (h x mode hre (htime.symm.trans ht))
      | timeout => exact absurd rfl htimeout
      | badPriority _ _ _ _ hbad => exact absurd (hpriority ▸ hbad) hprio
      | applied => exact absurd hr (by decide)

theorem rejected_reconfiguration_iff_example :
    ∃ c d, Reach Step (fun _ _ => True) exampleDevice.boot c ∧ c.ctx.powered = true ∧
      (canSetMode .monitor (granting .listenOnly)).exec c = .ok (armDriverErrorParameter, d) ∧
      Untouched c d := by
  have hrun : ∃ c, Reach Step (fun _ _ => True) exampleDevice.boot c ∧ (c.ctx.powered &&
      decide (c.isr = ⟨none, none, false, 4, false⟩ ∧ c.irq.rx.enable = false ∧
        c.irq.tx.enable = false ∧ c.irq.gen.enable = false ∧ c.regs .int &&& intEnables = 0 ∧
        c.regs .fifocon1 &&& fifocon1Enables = 0 ∧ c.regs .txqcon &&& txqconTxqeie = 0) &&
      (canSetMode .monitor (granting .listenOnly)).ends c fun r _ =>
        decide (r = armDriverErrorParameter)) = true :=
    reach_of_replay (fun _ _ _ _ => true)
      (powerUp ++ [(granting .normalFd, .canSetBitrate .nominal 7 0),
        (granting .listenOnly, .canSetMode .monitor)]) _
      (fun _ _ _ _ _ => trivial) (by decide +kernel)
  obtain ⟨c, hc, hp⟩ := hrun
  rw [Bool.and_eq_true, Bool.and_eq_true, decide_eq_true_eq] at hp
  obtain ⟨⟨hpow, hisr, hrx, htx, hgen, hint, hf, ht⟩, hexec⟩ := hp
  have hdown : TornDown c := ⟨⟨congrArg IsrState.isrEnabled hisr, congrArg IsrState.cb hisr, hrx, htx,
    hgen, hint, hf, ht⟩, congrArg IsrState.ud hisr⟩
  have hcall : Reconfigures (.canSetMode .monitor) := trivial
  have hkeep := (rejected_reconfiguration_iff hc hpow hcall (granting .listenOnly)).mpr
    fun x mode hre _ => ⟨hdown, by
      cases hre
      rfl⟩
  obtain ⟨r, d, he, hr⟩ := Prog.ends_iff.mp hexec
  obtain rfl := of_decide_eq_true hr
  exact ⟨c, d, hc, hpow, he, hkeep _ d he (by decide) (by decide)⟩

/-- The settings have no bit timing: the failed `SetMode` has taken the event layer down. -/
theorem rejected_setMode_silences :
    ∃ c d, Reach Step (fun _ _ => True) exampleDevice.boot c ∧ c.ctx.powered = true ∧
      (canSetMode .monitor (granting .listenOnly)).exec c = .ok (armDriverErrorParameter, d) ∧
      ¬Untouched c d := by
  have hrun : ∃ c, Reach Step (fun _ _ => True) exampleDevice.boot c ∧ (c.ctx.powered &&
      (canSetMode .monitor (granting .listenOnly)).ends c fun r d =>
        decide (r = armDriverErrorParameter) && (d.isr.cb != c.isr.cb)) = true :=
    reach_of_replay (fun _ _ _ _ => true)
      (powerUp ++ [(granting .normalFd, .canSetBitrate .nominal 7 0)]) _
      (fun _ _ _ _ _ => trivial) (by decide +kernel)
  obtain ⟨c, hc, hp⟩ := hrun
  rw [Bool.and_eq_true, Prog.ends_iff] at hp
  obtain ⟨hpow, r, d, hexec, hp⟩ := hp
  rw [Bool.and_eq_true, decide_eq_true_eq, bne_iff_ne] at hp
  obtain ⟨rfl, hne⟩ := hp
  exact ⟨c, d, hc, hpow, hexec, fun h => hne h.cb⟩

end CanfdDriver
