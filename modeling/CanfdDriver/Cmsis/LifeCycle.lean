import CanfdDriver.Cmsis.Run
import CanfdDriver.Cmsis.Handler

namespace CanfdDriver

open Lib NoraCanfd Cmsis

/-- A powered instance was brought up by a successful `PowerControl(FULL)`. -/
def PoweredUp (c : Chan) : Prop :=
  c.ctx.powered = true →
    c.present = true ∧ c.ctx.initialized = true ∧ ¬effectivePriority c.ctx.irqPriority > 7

theorem PoweredUp.congr {c d : Chan} (h : PoweredUp c) (hp : d.present = c.present)
    (hpow : d.ctx.powered = c.ctx.powered) (hi : d.ctx.initialized = c.ctx.initialized)
    (hprio : d.ctx.irqPriority = c.ctx.irqPriority) : PoweredUp d := by
  rw [PoweredUp, hp, hpow, hi, hprio]
  exact h

theorem PoweredUp.of_unpowered {c : Chan} (h : c.ctx.powered = false) : PoweredUp c :=
  fun hpow => absurd (h.symm.trans hpow) (by decide)

theorem PoweredUp.traffic {c d : Chan} (hc : PoweredUp c) (h : Traffic c d) : PoweredUp d := by
  obtain ⟨rx, hrx⟩ := h.ctx
  exact hc.congr h.present (by rw [hrx]) (by rw [hrx]) (by rw [hrx])

theorem PoweredUp.outcome {c d : Chan} {env : Env} {call : Call} {r : Int} (hc : PoweredUp c)
    (h : Outcome env c call r d) : PoweredUp d := by
  have hpresent := congrArg Fixed.present h.fixed
  have hprio := congrArg Fixed.irqPriority h.fixed
  cases h with
  | traffic h => exact hc.traffic h
  | opened | closed | off => exact .of_unpowered rfl
  | closedPowered hpow hi => exact absurd (hi.symm.trans (hc hpow).2.1) (by decide)
  | full hi _ h =>
    obtain ⟨t, hp, -, hlow, -, rfl⟩ := h.ok
    refine fun _ => ⟨?_, ?_, ?_⟩
    · rw [Chan.setCtx_present, Chan.applied_present]
      exact hp
    · rw [Chan.setCtx_ctx, Chan.applied_ctx]
      exact hi
    · rw [Chan.setCtx_ctx, Chan.applied_ctx]
      exact hlow
  | fullFailed _ hpow h => exact .of_unpowered (h.powered.trans hpow)
  | @rateCached select bitrate bitSegments =>
    obtain ⟨_, _, _, hctx⟩ := cacheRate_eq c.ctx select bitrate bitSegments
    rw [hctx] at hprio hpresent ⊢
    exact hc.congr hpresent rfl rfl hprio
  | @rate select bitrate bitSegments _ _ _ _ hx h =>
    obtain ⟨_, _, _, hctx⟩ := cacheRate_eq c.ctx select bitrate bitSegments
    have hd := h.ctx.trans (hx.trans hctx)
    exact hc.congr hpresent (by rw [hd]) (by rw [hd]) hprio
  | mode _ _ _ _ h => exact hc.congr hpresent h.powered h.initialized hprio
  | fdCached => exact hc
  | fd _ _ _ _ h => exact hc.congr hpresent h.powered h.initialized hprio

def fifocon1Enables : BitVec 32 := fifoconTfnrfnie ||| fifoconRxovie

structure EventsOff (c : Chan) : Prop where
  isrEnabled : c.isr.isrEnabled = false
  cb : c.isr.cb = none
  rxLine : c.irq.rx.enable = false
  txLine : c.irq.tx.enable = false
  genLine : c.irq.gen.enable = false
  int : c.regs .int &&& intEnables = 0
  fifocon1 : c.regs .fifocon1 &&& fifocon1Enables = 0
  txqcon : c.regs .txqcon &&& txqconTxqeie = 0

structure Silent (c : Chan) : Prop extends EventsOff c where
  initialized : c.node.initialized = false
  mode : c.mode = .none

namespace EventsOff

variable {c d : Chan}

theorem congr (h : EventsOff c) (hisr : d.isr = c.isr) (hirq : d.irq = c.irq)
    (hint : d.regs .int = c.regs .int) (hf : d.regs .fifocon1 = c.regs .fifocon1)
    (ht : d.regs .txqcon = c.regs .txqcon) : EventsOff d where
  isrEnabled := hisr ▸ h.isrEnabled
  cb := hisr ▸ h.cb
  rxLine := hirq ▸ h.rxLine
  txLine := hirq ▸ h.txLine
  genLine := hirq ▸ h.genLine
  int := hint ▸ h.int
  fifocon1 := hf ▸ h.fifocon1
  txqcon := ht ▸ h.txqcon

theorem traffic (h : EventsOff c) (htr : Traffic c d) : EventsOff d where
  isrEnabled := (congrArg IsrState.isrEnabled htr.isr).trans h.isrEnabled
  cb := (congrArg IsrState.cb htr.isr).trans h.cb
  rxLine := (congrArg Line.enable htr.rxLine).trans h.rxLine
  txLine := htr.txEnable h.txLine
  genLine := (congrArg Line.enable htr.genLine).trans h.genLine
  int := htr.regs_off (by decide) (by decide) h.int
  fifocon1 := htr.regs_off (by decide) (by decide) h.fifocon1
  txqcon := htr.regs_off (by decide) (by decide) h.txqcon

theorem quiet (c : Chan) : EventsOff c.quiet where
  isrEnabled := rfl
  cb := rfl
  rxLine := rfl
  txLine := rfl
  genLine := rfl
  int := MaskedWrite.and_not_and_of_sub (by decide) _
  fifocon1 := MaskedWrite.and_not_and_of_sub (by decide) _
  txqcon := MaskedWrite.and_not_and_of_sub (by decide) _

theorem setCallback (h : EventsOff c) (ud : Option UserData) :
    EventsOff (c.setCallback none ud) := ⟨h.isrEnabled, rfl, h.rxLine, h.txLine, h.genLine,
  h.int, h.fifocon1, h.txqcon⟩

theorem writeCon (h : EventsOff c) (m : MaskedWrite 32) : EventsOff (c.writeCon m) :=
  h.congr rfl rfl rfl rfl rfl

theorem setNode (h : EventsOff c) (n : NodeState) : EventsOff (c.setNode n) :=
  h.congr rfl rfl rfl rfl rfl

theorem setMode (h : EventsOff c) (m : Mode) : EventsOff (c.setMode m) :=
  h.congr rfl rfl rfl rfl rfl

theorem setCtx (h : EventsOff c) (x : Context) : EventsOff (c.setCtx x) :=
  h.congr rfl rfl rfl rfl rfl

theorem programmed (h : EventsOff c) (cfg : Config) (t : BitTiming) :
    EventsOff (c.programmed cfg t) where
  isrEnabled := h.isrEnabled
  cb := h.cb
  rxLine := h.rxLine
  txLine := h.txLine
  genLine := h.genLine
  int := h.int
  fifocon1 := by
    change fifocon1Word &&& fifocon1Enables = 0
    decide
  txqcon := by
    change txqconWord &&& txqconTxqeie = 0
    decide

theorem entered (h : EventsOff c) (cfg : Config) : EventsOff (c.entered cfg) :=
  ((h.setNode _).setMode _).writeCon _

theorem configured (h : EventsOff c) (cfg : Config) (t : BitTiming) :
    EventsOff (c.configured cfg t) := ((h.entered cfg).programmed cfg t).writeCon _

theorem live (h : EventsOff c) (cfg : Config) (t : BitTiming) : EventsOff (c.live cfg t) :=
  ((h.configured cfg t).setMode _).setNode _

theorem off (h : EventsOff c) : EventsOff c.off :=
  (((h.writeCon _).writeCon _).setNode _).setMode _

end EventsOff

namespace Silent

variable {c d : Chan} {env : Env} {mode : Mode} {r : Int}

theorem traffic (h : Silent c) (htr : Traffic c d) : Silent d where
  toEventsOff := h.toEventsOff.traffic htr
  initialized := htr.node ▸ h.initialized
  mode := htr.mode ▸ h.mode

theorem setCtx (h : Silent c) (x : Context) : Silent (c.setCtx x) :=
  ⟨h.toEventsOff.setCtx x, h.initialized, h.mode⟩

theorem applyInit (h : Silent c) (happ : ApplyInit c mode env r d) (hr : r ≠ armDriverOk) :
    Silent d := by
  cases happ with
  | absent => exact ⟨h.toEventsOff.setCallback none, h.initialized, h.mode⟩
  | refused => exact ⟨.quiet c, h.initialized, h.mode⟩
  | timeout _ _ hb =>
    cases hb with
    | configTimeout => exact ⟨((EventsOff.quiet c).entered _).writeCon _, rfl, rfl⟩
    | modeTimeout => exact ⟨((EventsOff.quiet c).configured _ _).writeCon _, rfl, rfl⟩
  | badPriority => exact ⟨(((EventsOff.quiet c).live _ _).setCallback none).off, rfl, rfl⟩
  | applied => exact absurd rfl hr

theorem teardown (hd : Teardown c env.toOff d) (hc : c.ctx.powered = false → Silent c)
    (hp : c.ctx.powered = true → c.present = true) : Silent d := by
  cases hd with
  | unpowered hpow => exact hc hpow
  | absent habs =>
    have hpow : c.ctx.powered = false := by
      cases hpow : c.ctx.powered with
      | false => rfl
      | true => exact absurd (habs.symm.trans (hp hpow)) (by decide)
    exact ⟨(hc hpow).toEventsOff.setCallback none, (hc hpow).initialized, (hc hpow).mode⟩
  | down _ hm => exact ⟨(EventsOff.quiet c).setNode _, rfl, hm⟩
  | off => exact ⟨(EventsOff.quiet c).off, rfl, rfl⟩

end Silent

/-- A repeated `Initialize` finds the instance unpowered, or torn down by a failed
reconfiguration. -/
def InitializesSilent (c : Chan) : Label → Prop
  | .call _ (.canInitialize _ _) _ => c.ctx.powered = true → Silent c
  | _ => True

structure Sound (c : Chan) : Prop where
  powered : PoweredUp c
  unpowered : c.ctx.powered = false → Silent c

namespace Sound

variable {c d : Chan}

theorem boot (dev : Device) : Sound dev.boot where
  powered := .of_unpowered rfl
  unpowered _ :=
    { isrEnabled := rfl
      cb := rfl
      rxLine := rfl
      txLine := rfl
      genLine := rfl
      int := dev.int_off
      fifocon1 := dev.fifocon1_off
      txqcon := dev.txqcon_off
      initialized := rfl
      mode := rfl }

theorem traffic (hc : Sound c) (htr : Traffic c d) : Sound d where
  powered := hc.powered.traffic htr
  unpowered hpow := by
    obtain ⟨rx, hrx⟩ := htr.ctx
    exact (hc.unpowered (by rw [← hpow, hrx])).traffic htr

theorem outcome {env : Env} {call : Call} {r : Int} (hc : Sound c)
    (ha : InitializesSilent c (.call env call r)) (h : Outcome env c call r d) : Sound d where
  powered := hc.powered.outcome h
  unpowered hpow := by
    have hpresent := fun hpow => (hc.powered hpow).1
    cases h with
    | traffic h => exact (hc.traffic h).unpowered hpow
    | opened =>
      cases hp : c.ctx.powered with
      | false => exact (hc.unpowered hp).setCtx _
      | true => exact (ha hp).setCtx _
    | closed _ h => exact (Silent.teardown h hc.unpowered hpresent).setCtx _
    | off _ h => exact (Silent.teardown h hc.unpowered hpresent).setCtx _
    | closedPowered hp hi => exact absurd (hi.symm.trans (hc.powered hp).2.1) (by decide)
    | full => exact absurd hpow (by simp)
    | fullFailed _ hp h hr => exact ((hc.unpowered hp).setCtx _).applyInit h hr
    | rateCached => exact (hc.unpowered ((cacheRate_powered ..).symm.trans hpow)).setCtx _
    | rate hp hx h =>
      subst hx
      have hd := (congrArg Context.powered h.ctx).trans (cacheRate_powered ..)
      exact absurd (hp.symm.trans (hd.symm.trans hpow)) (by decide)
    | mode _ hp _ _ h => exact absurd (hp.symm.trans (h.powered.symm.trans hpow)) (by decide)
    | fdCached hp => exact (hc.unpowered hp).setCtx _
    | fd _ hp _ _ h => exact absurd (hp.symm.trans (h.powered.symm.trans hpow)) (by decide)

theorem run {allowed : Chan → Label → Prop} {start : Chan}
    (hallowed : ∀ s l, allowed s l → InitializesSilent s l) (h : Reach Step allowed start c)
    (h0 : Sound start) : Sound c :=
  run_invariant h h0 (fun _ _ => traffic) fun s _ _ _ _ hs ha hout =>
    outcome hs (hallowed s _ ha) hout

end Sound

theorem irqHandler_aside {c d : Chan}
    {callback : EventCallback → BitVec 32 → Option UserData → M Unit}
    (hcb : c.isr.cb = none) (h : (irqHandler callback).exec c = .ok ((), d)) : Aside c d := by
  rcases irqHandler_cases h with ⟨hpass, -⟩ | ⟨f, _, _, _, hf, -⟩
  · exact hpass.beside.aside
  · exact absurd (hcb.symm.trans hf.cb) (by simp)

def PowersOff (call : Call) : Prop := call = .canPowerControl .off ∨ call = .canUnInitialize

def PowersFull : Label → Prop
  | .call _ (.canPowerControl .full) _ => True
  | _ => False

theorem powersOff_unpowered {c d : Chan} {env : Env} {call : Call} (hc : PoweredUp c)
    (hcall : PowersOff call) (h : (call.run env).exec c = .ok (armDriverOk, d)) :
    d.ctx.powered = false := by
  rcases hcall with rfl | rfl
  · exact powerControl_off_ok h
  · obtain ⟨-, ⟨-, e, -, rfl⟩ | ⟨hpow, hi, -⟩⟩ := canUnInitialize_cases h
    · rfl
    · exact absurd (hi.symm.trans (hc hpow).2.1) (by decide)

theorem unpowered_step {c d : Chan} {l : Label} (hc : c.ctx.powered = false) (h : Step c l d)
    (hl : ¬PowersFull l) : d.ctx.powered = false := by
  rcases h.outcome with htr | ⟨env, call, r, rfl, hout⟩
  · obtain ⟨rx, hrx⟩ := htr.ctx
    rw [hrx]
    exact hc
  · cases hout with
    | traffic htr =>
      obtain ⟨rx, hrx⟩ := htr.ctx
      rw [hrx]
      exact hc
    | opened | closed | off => rfl
    | closedPowered hp | rate hp | mode _ hp | fd _ hp =>
      exact absurd (hc.symm.trans hp) (by decide)
    | full | fullFailed => exact absurd trivial hl
    | rateCached => exact (cacheRate_powered ..).trans hc
    | fdCached => exact hc

theorem silent_step_mute {c d : Chan} {l : Label} (hc : Silent c) (h : Step c l d) :
    Mute c d := by
  cases h with
  | call h => exact (call_mute _).exec h
  | handler h => exact (irqHandler_aside hc.cb h).mute
  | hardware => rfl

/-- Not powered means silent, as long as `Initialize` is not repeated on a live instance. -/
theorem unpowered_silent (dev : Device) :
    (∀ c, Reach Step InitializesSilent dev.boot c → c.ctx.powered = false → Silent c) ∧
      ∀ c env call d e, Reach Step InitializesSilent dev.boot c → PowersOff call →
        (call.run env).exec c = .ok (armDriverOk, d) →
        Reach Step (fun s l => InitializesSilent s l ∧ ¬PowersFull l) d e →
        e.ctx.powered = false ∧ e.signals = d.signals := by
  refine ⟨fun c h => (Sound.run (fun _ _ => id) h (.boot dev)).unpowered, ?_⟩
  intro c env call d e hc hoff hcall he
  have hsound := Sound.run (fun _ _ => id) hc (.boot dev)
  have hd : Sound d := by
    refine hsound.outcome ?_ (call_outcome (r := armDriverOk) hcall)
    rcases hoff with rfl | rfl <;> trivial
  have hinv : Sound e ∧ e.ctx.powered = false ∧ Mute d e := by
    refine he.invariant (I := fun s => Sound s ∧ s.ctx.powered = false ∧ Mute d s)
      ⟨hd, powersOff_unpowered hsound.powered hoff hcall, rfl⟩ ?_
    intro s l t ⟨hs, hpow, hmute⟩ ⟨ha, hl⟩ hst
    refine ⟨hs.run (fun _ _ => id) (.tail .refl ha hst), unpowered_step hpow hst hl, ?_⟩
    exact (silent_step_mute (hs.unpowered hpow) hst).trans hmute
  exact hinv.2

theorem powerOff_silent_example :
    ∃ c d, Reach Step InitializesSilent exampleDevice.boot c ∧ c.ctx.powered = true ∧
      (Call.run (granting .normalFd) (.canPowerControl .off)).exec c = .ok (armDriverOk, d) ∧
      d.ctx.powered = false ∧ Silent d := by
  have hrun : ∃ c, Reach Step InitializesSilent exampleDevice.boot c ∧
      (c.ctx.powered && (((Call.run (granting .normalFd) (.canPowerControl .off)).exec
        c).toOption.map Prod.fst == some armDriverOk)) = true := by
    refine reach_of_replay (fun c _ _ _ => !c.ctx.powered) powerUp _ ?_ (by decide +kernel)
    intro s env call r hs
    cases call with
    | canInitialize => exact fun hpow => absurd hs (by simp [hpow])
    | _ => trivial
  obtain ⟨c, hc, hp⟩ := hrun
  simp only [Bool.and_eq_true, beq_iff_eq, Option.map_eq_some_iff] at hp
  obtain ⟨hpow, ⟨r, d⟩, hd, rfl⟩ := hp
  cases hexec : (Call.run (granting .normalFd) (.canPowerControl .off)).exec c with
  | error e => simp [hexec, Except.toOption] at hd
  | ok q =>
    simp only [hexec, Except.toOption, Option.some.injEq] at hd
    subst hd
    have hoff := (unpowered_silent exampleDevice).2 c _ _ d d hc (.inl rfl) hexec .refl
    have hstep : Reach Step InitializesSilent exampleDevice.boot d :=
      hc.tail (l := .call (granting .normalFd) (.canPowerControl .off) armDriverOk) trivial
        (.call hexec)
    exact ⟨c, d, hc, hpow, hexec, hoff.1, (unpowered_silent exampleDevice).1 d hstep hoff.1⟩

/-- A second `Initialize` clears the power flag of a live instance. -/
theorem unpowered_live_after_second_initialize :
    ∃ c, Reach Step (fun _ _ => True) exampleDevice.boot c ∧ c.ctx.powered = false ∧
      ¬Silent c := by
  have hrun : ∃ c, Reach Step (fun _ _ => True) exampleDevice.boot c ∧
      (!c.ctx.powered && c.isr.isrEnabled) = true :=
    reach_of_replay (fun _ _ _ _ => true)
      (powerUp ++ [(granting .normalFd, .canInitialize none (some 1))]) _
      (fun _ _ _ _ _ => trivial) (by decide +kernel)
  obtain ⟨c, hc, hp⟩ := hrun
  simp only [Bool.and_eq_true, Bool.not_eq_true'] at hp
  exact ⟨c, hc, hp.1, fun h => absurd (h.isrEnabled.symm.trans hp.2) (by decide)⟩

end CanfdDriver
