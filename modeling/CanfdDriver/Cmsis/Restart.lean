import CanfdDriver.Cmsis.PowerCycle
import CanfdDriver.Cmsis.Reader
import CanfdDriver.Cmsis.Sending

namespace CanfdDriver

open Lib NoraCanfd Cmsis

/-- The device has the instance, and its clock can be divided into bits. -/
structure Device.Usable (dev : Device) : Prop where
  present : dev.present = true
  enabled : dev.enabled = true
  priority : dev.irqPriority ≤ 7
  timing : ∃ nominalBps dataBps samplePct t,
    calcBitTiming dev.canClkHz nominalBps dataBps samplePct = .ok (some t)

structure Online (c : Chan) : Prop where
  present : c.present = true
  powered : c.ctx.powered = true
  fdMode : c.ctx.fdMode ≠ 0
  initialized : c.node.initialized = true
  cb : c.isr.cb = some .canHalEvent
  ud : c.isr.ud = some .ctx

theorem Online.traffic {c d : Chan} (h : Online c) (htr : Traffic c d) : Online d := by
  obtain ⟨rx, hrx⟩ := htr.ctx
  exact
    { present := htr.present.trans h.present
      powered := by
        rw [hrx]
        exact h.powered
      fdMode := by
        rw [hrx]
        exact h.fdMode
      initialized := htr.node ▸ h.initialized
      cb := (congrArg IsrState.cb htr.isr).trans h.cb
      ud := (congrArg IsrState.ud htr.isr).trans h.ud }

namespace Cmsis

variable {c d : Chan}

def segmentsAt (pct : BitVec 8) : BitVec 32 :=
  ((pct - 1).setWidth 32 <<< bitPropSegPos) ||| ((100 - pct).setWidth 32 <<< bitPhaseSeg2Pos)

theorem segmentSamplePct_segmentsAt : ∀ pct : BitVec 8, ¬(pct = 0 ∨ pct ≥ 100) →
    segmentSamplePct (segmentsAt pct) = some pct := by decide +kernel

theorem calcBitTiming_settings {canClkHz nominalBps dataBps : BitVec 32} {samplePct : BitVec 8}
    {t : BitTiming} (h : calcBitTiming canClkHz nominalBps dataBps samplePct = .ok (some t)) :
    nominalBps ≠ 0 ∧ dataBps ≠ 0 ∧ ¬(samplePct = 0 ∨ samplePct ≥ 100) := by
  obtain ⟨n, d, hn, hd, -⟩ := calcBitTiming_found h
  have hrate {bps : BitVec 32} {lim : BtLimits} {pos : BtPositions} {p : Phase}
      (hp : solvePhase canClkHz bps samplePct lim pos = .ok (some p)) : bps ≠ 0 := by
    intro hzero
    rw [solvePhase, if_pos hzero] at hp
    cases hp
  refine ⟨hrate hn, hrate hd, fun hpct => ?_⟩
  rw [calcBitTiming, if_pos hpct] at h
  cases h

def returnsOk (_ : Chan) (_ : Env) (_ : Call) (r : Int) : Bool := r == armDriverOk

variable {env : Env} {call : Call}

theorem replay_cons (h : (call.run env).exec c = .ok (armDriverOk, d)) (rest : List (Env × Call)) :
    replay returnsOk ((env, call) :: rest) c = replay returnsOk rest d := by
  simp only [replay, play, Chan.carryOut, h]
  rfl

theorem exec_canInitialize (he : c.ctx.enabled = true) (cbUnit cbObject : Option Callback) :
    (Call.run env (.canInitialize cbUnit cbObject)).exec c = .ok (armDriverOk, c.setCtx
      { c.ctx with cbUnit := cbUnit, cbObject := cbObject, powered := false, initialized := true }) := by
  rw [Call.run, canInitialize, Prog.exec_bind_of_ok (Prog.exec_get c), if_neg (by simp [he])]
  rfl

theorem exec_setFdMode_cached (hi : c.ctx.initialized = true) (hpow : c.ctx.powered = false) :
    (Call.run env (.canControl setFdModeCode fdModeEnable)).exec c =
      .ok (armDriverOk, c.setCtx { c.ctx with fdMode := 1 }) := by
  rw [Call.run, canControl, Prog.exec_bind_of_ok (Prog.exec_get c), if_neg (by simp [hi]),
    if_pos (by decide), exec_setFdMode (by decide), if_neg (by simp [hpow])]
  rfl

theorem exec_canSetBitrate_cached {select : BitrateSelect} {bitrate segs : BitVec 32}
    (hpow : c.ctx.powered = false) (hrate : bitrate ≠ 0) (hselect : select ≠ .other) :
    (Call.run env (.canSetBitrate select bitrate segs)).exec c =
      .ok (armDriverOk, c.setCtx (cacheRate c.ctx select bitrate segs)) := by
  have hoff : (cacheRate c.ctx select bitrate segs).powered = false :=
    (cacheRate_powered ..).trans hpow
  rw [Call.run, exec_canSetBitrate hrate, if_neg hselect, exec_applyBitrate_unpowered]
  simp [hoff]

def settled (x : Context) (nominalBps dataBps : BitVec 32) (samplePct : BitVec 8) : Context :=
  { x with
    cbUnit := none, cbObject := none, powered := false, initialized := true, fdMode := 1
    nominalBps := nominalBps, dataBps := dataBps, samplePct := samplePct }

def restart (env : Env) (nominalBps dataBps : BitVec 32) (samplePct : BitVec 8) : List (Env × Call) :=
  [(env, .canInitialize none none), (env, .canControl setFdModeCode fdModeEnable),
    (env, .canSetBitrate .nominal nominalBps (segmentsAt samplePct)),
    (env, .canSetBitrate .fdData dataBps 0), (env, .canPowerControl .full)]

variable {nominalBps dataBps : BitVec 32} {samplePct : BitVec 8} {t : BitTiming}

theorem replay_settings (he : c.ctx.enabled = true) (hn : nominalBps ≠ 0) (hd : dataBps ≠ 0)
    (hpct : ¬(samplePct = 0 ∨ samplePct ≥ 100)) :
    replay returnsOk (restart env nominalBps dataBps samplePct) c =
      replay returnsOk [(env, .canPowerControl .full)]
        (c.setCtx (settled c.ctx nominalBps dataBps samplePct)) := by
  have hseg := segmentSamplePct_segmentsAt samplePct hpct
  rw [restart, replay_cons (exec_canInitialize he none none),
    replay_cons (exec_setFdMode_cached rfl rfl),
    replay_cons (exec_canSetBitrate_cached rfl hn (by decide)),
    replay_cons (exec_canSetBitrate_cached (cacheRate_powered ..) hd (by decide))]
  simp only [cacheRate, hseg, setCtx_setCtx]
  rfl

theorem applied_online (mode : Mode) (t : BitTiming) (hp : c.present = true)
    (hfd : c.ctx.fdMode ≠ 0) :
    Online ((c.applied mode t).setCtx { c.ctx with mode := mode, powered := true }) where
  present := (c.applied_present mode t).trans hp
  powered := rfl
  fdMode := hfd
  initialized := rfl
  cb := rfl
  ud := rfl

/-- The calls bring any state of a usable device up. -/
theorem restart_online (hp : c.present = true) (he : c.ctx.enabled = true)
    (hprio : c.ctx.irqPriority ≤ 7)
    (ht : calcBitTiming c.ctx.canClkHz nominalBps dataBps samplePct = .ok (some t))
    (hconfig : Granted (ctxNode c.ctx) opmodeConfig env.toConfig)
    (hmode : Granted (ctxNode c.ctx) opmodeNormalFd env.toMode) :
    ∃ d, replay returnsOk (restart env nominalBps dataBps samplePct) c = some d ∧ Online d ∧
      d.queue = [] := by
  obtain ⟨hn, hd, hpct⟩ := calcBitTiming_settings ht
  let x := settled c.ctx nominalBps dataBps samplePct
  have htime : ctxTiming x = .ok (some t) := by
    have heff : effectiveSamplePct x.samplePct = samplePct := if_pos fun h => hpct (.inl h)
    rw [ctxTiming, heff]
    exact ht
  have hfull := exec_powerFull_ok (c := c.setCtx x) rfl hp htime (effectivePriority_le hprio)
    hconfig hmode
  have hcall := (exec_powerControl (c := c.setCtx x) rfl).2.trans hfull
  have hfd : x.fdMode ≠ 0 := by
    change (1 : BitVec 8) ≠ 0
    decide
  exact ⟨_, (replay_settings he hn hd hpct).trans (replay_cons hcall []),
    applied_online (c := emptied (c.setCtx x)) _ t hp hfd, Ring.toList_eq_nil.mpr rfl⟩

end Cmsis

namespace Cmsis

variable {c d : Chan} {env : Env} {call : Call} {r : Int}

theorem Outcome.comes_powered (h : Outcome env c call r d) (hpow : d.ctx.powered = true) :
    c.ctx.powered = true ∨ (c.ctx.initialized = true ∧ c.present = true ∧
      ¬effectivePriority c.ctx.irqPriority > 7 ∧ ∃ t, ctxTiming c.ctx = .ok (some t)) := by
  cases h with
  | traffic h =>
    obtain ⟨rx, hrx⟩ := h.ctx
    rw [hrx] at hpow
    exact .inl hpow
  | opened | closed | off => cases hpow
  | closedPowered hp => exact .inl hp
  | full hi _ h =>
    obtain ⟨t, hp, ht, hprio, -, -⟩ := h.ok
    exact .inr ⟨hi, hp, hprio, t, ht⟩
  | fullFailed _ _ h => exact .inl (h.powered ▸ hpow)
  | rateCached => exact .inl ((cacheRate_powered ..).symm.trans hpow)
  | rate hp | mode _ hp | fd _ hp => exact .inl hp
  | fdCached => exact .inl hpow

theorem Outcome.comes_initialized (h : Outcome env c call r d) (hd : d.ctx.initialized = true) :
    c.ctx.initialized = true ∨ c.ctx.enabled = true := by
  have hrate (select : BitrateSelect) (bitrate segs : BitVec 32) :
      (cacheRate c.ctx select bitrate segs).initialized = c.ctx.initialized := by
    obtain ⟨_, _, _, h⟩ := cacheRate_eq c.ctx select bitrate segs
    rw [h]
  cases h with
  | traffic h =>
    obtain ⟨rx, hrx⟩ := h.ctx
    rw [hrx] at hd
    exact .inl hd
  | opened he => exact .inr he
  | closed | closedPowered => cases hd
  | off hi | full hi | fullFailed hi | mode hi | fd hi => exact .inl hi
  | rateCached => exact .inl ((hrate ..).symm.trans hd)
  | rate _ hx h =>
    rw [h.ctx, Chan.setCtx_ctx, hx, hrate] at hd
    exact .inl hd
  | fdCached => exact .inl hd

end Cmsis

theorem run_usable {dev : Device} {allowed : Chan → Label → Prop} {c : Chan}
    (h : Reach Step allowed dev.boot c) (hpow : c.ctx.powered = true) : dev.Usable := by
  let I (c : Chan) : Prop := c.fixed = dev.boot.fixed ∧
    (c.ctx.initialized = true → dev.enabled = true) ∧ (c.ctx.powered = true → dev.Usable)
  suffices hI : I c from hI.2.2 hpow
  refine run_invariant h ⟨rfl, fun hi => (nomatch hi), fun hp => nomatch hp⟩ ?_ ?_
  · intro c d hc htr
    obtain ⟨rx, hrx⟩ := htr.ctx
    refine ⟨htr.fixed.trans hc.1, ?_, ?_⟩
    · rw [hrx]
      exact hc.2.1
    · rw [hrx]
      exact hc.2.2
  · intro c env call r d hc _ hout
    obtain ⟨hfix, hinit, hpower⟩ := hc
    refine ⟨hout.fixed.trans hfix, fun hd => ?_, fun hd => ?_⟩
    · obtain hi | he := hout.comes_initialized hd
      · exact hinit hi
      · exact (congrArg Fixed.enabled hfix).symm.trans he
    · obtain hp | ⟨hi, hp, hprio, t, ht⟩ := hout.comes_powered hd
      · exact hpower hp
      have hclk : c.ctx.canClkHz = dev.canClkHz := congrArg Fixed.canClkHz hfix
      have hdev : c.ctx.irqPriority = dev.irqPriority := congrArg Fixed.irqPriority hfix
      rw [hdev, effectivePriority] at hprio
      rw [ctxTiming, hclk] at ht
      refine ⟨(congrArg Fixed.present hfix).symm.trans hp, hinit hi, ?_, _, _, _, t, ht⟩
      split at hprio
      next hzero =>
        rw [hzero]
        decide
      next => exact BitVec.not_lt.mp hprio

def SameRing (c d : Chan) : Prop := d.ctx.rx = c.ctx.rx

instance : Std.Refl SameRing := ⟨fun _ => rfl⟩

instance : IsTrans Chan SameRing := ⟨fun _ _ _ h h' => Eq.trans h' h⟩

namespace Cmsis

variable {c d : Chan} {f : Frame}

theorem signalObject_ring (event : BitVec 32) : (signalObject silent event).Moves SameRing :=
  .bind .get fun _ => .ite (.pure _) <| .bind (.modify fun _ => rfl) fun _ => .pure _

theorem signalUnit_ring (event : BitVec 32) : (signalUnit silent event).Moves SameRing :=
  .bind .get fun _ => .ite (.pure _) <| .bind (.modify fun _ => rfl) fun _ => .pure _

theorem canHalEvent_ring {events : BitVec 32}
    (hrx : events &&& eventRxAvailable ≠ 0 ∧ c.node.initialized = true)
    (h : (canHalEvent silent f events (some .ctx)).exec c = .ok ((), d)) :
    d.ctx.rx = (c.drained f).ctx.rx := by
  obtain ⟨s, t, hreceive, hover, hoff⟩ := canHalEvent_cases h
  have ht : t.ctx.rx = s.ctx.rx := Prog.Moves.exec (.ite (signalObject_ring _) (.pure _)) hover
  have hd : d.ctx.rx = t.ctx.rx := Prog.Moves.exec (.ite (signalUnit_ring _) (.pure _)) hoff
  cases hreceive with
  | skipped hn => exact absurd hrx hn
  | @drained e _ _ hsignal hoverrun =>
    have he : e.ctx.rx = (c.drained f).ctx.rx :=
      Prog.Moves.exec (.ite (signalObject_ring _) (.pure _)) hsignal
    have hs : s.ctx.rx = e.ctx.rx := Prog.Moves.exec (.ite (signalObject_ring _) (.pure _)) hoverrun
    exact hd.trans (ht.trans (hs.trans he))

theorem handler_takes {obj : Obj} (hc : Online c) (hflag : c.regs .int &&& intRxif ≠ 0)
    (hq : c.queue = []) (hfifo : c.rxFifo = [obj]) :
    ∃ d, (handler silent f).exec c = .ok ((), d) ∧ d.queue = [parseObj obj f] ∧ d.rxFifo = [] := by
  obtain ⟨d, hexec⟩ := handler_returns silent f c
  have hdraining : Draining c := ⟨hc.present, hc.cb, hc.ud, hflag, hc.initialized⟩
  rcases handler_cases hexec with ⟨hno, -⟩ | ⟨events, s, t, hbefore, hcall, hlast, hdrain⟩
  · exact absurd hdraining hno
  have hrx := hdrain.mpr hdraining
  have hring : d.ctx.rx = (s.drained f).ctx.rx :=
    (congrArg Context.rx hlast.beside.ctx).trans (canHalEvent_ring hrx hcall)
  have hempty : s.queue = [] := (congrArg (fun x => x.rx.toList) hbefore.beside.ctx).trans hq
  have hstored : s.stored f = [parseObj obj f] := by
    rw [Chan.stored, room_eq, hempty, hbefore.beside.rxFifo, hfifo]
    rfl
  have hqueue := (drained_moved s f).queue
  rw [hempty, hstored, List.nil_append, List.nil_append] at hqueue
  have hrest := canHalEvent_fifo hcall
  rw [if_pos hrx] at hrest
  exact ⟨d, hexec, (congrArg Ring.toList hring).trans hqueue.symm, hlast.beside.rxFifo.trans hrest⟩

end Cmsis

end CanfdDriver
