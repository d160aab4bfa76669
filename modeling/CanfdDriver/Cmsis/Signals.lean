import CanfdDriver.Cmsis.Delivery
import CanfdDriver.Lib.Thread

namespace CanfdDriver

open Lib NoraCanfd Cmsis

def Obs.receiveContext : Obs → Option Context
  | .signal s x => if s = .object objRx eventReceive then some x else none
  | _ => none

def Chan.receives (c : Chan) : List Context := c.trace.filterMap Obs.receiveContext

/-- A `MessageRead` with valid arguments that finds the context `x` returns a byte count. -/
def Served (x : Context) : Prop :=
  ∀ c args, c.ctx = x → args.bad = false →
    ∃ r d, (canMessageRead args).exec c = .ok (r, d) ∧ 0 ≤ r.code

theorem Mute.receives {c d : Chan} (h : Mute c d) : d.receives = c.receives := by
  have hsignals (l : List Obs) :
      l.filterMap Obs.receiveContext = (l.filter Obs.isSignal).filterMap Obs.receiveContext := by
    rw [List.filterMap_filter]
    apply List.filterMap_congr
    intro o _
    cases o <;> rfl
  rw [Chan.receives, hsignals, Chan.receives, hsignals c.trace]
  exact congrArg _ h

namespace Cmsis

variable {c d : Chan}

theorem served_iff {x : Context} : Served x ↔ x.powered = true ∧ x.rx.tail ≠ x.rx.head := by
  constructor
  · intro h
    obtain ⟨r, d, hread, hr⟩ := h (exampleDevice.boot.setCtx x) ⟨objRx, true, none, 0⟩ rfl rfl
    obtain ⟨hpow, -, f, fs, hq, -⟩ := canMessageRead_ok hread hr
    refine ⟨hpow, fun heq => ?_⟩
    have hq : x.rx.toList = f :: fs := hq
    rw [Ring.toList_eq_nil.mpr heq] at hq
    cases hq
  · rintro ⟨hpow, hne⟩ c args rfl hargs
    obtain ⟨d, hread, -⟩ := exec_canMessageRead_cons hpow hargs (Ring.toList_eq_cons hne)
    exact ⟨_, d, hread, Int.natCast_nonneg _⟩

/-! ### What a run of the handler signals -/

/-- The handler finds a frame that it will store and signal. -/
structure Announces (c : Chan) : Prop where
  present : c.present = true
  cb : c.isr.cb = some .canHalEvent
  ud : c.isr.ud = some .ctx
  flag : c.regs .int &&& intRxif ≠ 0
  initialized : c.node.initialized = true
  waiting : c.rxFifo ≠ []
  room : ¬c.ctx.rx.full
  cbObject : c.ctx.cbObject ≠ none

instance (c : Chan) : Decidable (Announces c) :=
  decidable_of_iff (c.present = true ∧ c.isr.cb = some .canHalEvent ∧ c.isr.ud = some .ctx ∧
      c.regs .int &&& intRxif ≠ 0 ∧ c.node.initialized = true ∧ c.rxFifo ≠ [] ∧ ¬c.ctx.rx.full ∧
      c.ctx.cbObject ≠ none)
    ⟨fun ⟨hp, hcb, hud, hf, hi, hw, hr, ho⟩ => ⟨hp, hcb, hud, hf, hi, hw, hr, ho⟩,
      fun ⟨hp, hcb, hud, hf, hi, hw, hr, ho⟩ => ⟨hp, hcb, hud, hf, hi, hw, hr, ho⟩⟩

theorem stored_ne_nil {f : Frame} : c.stored f ≠ [] ↔ c.rxFifo ≠ [] ∧ ¬c.ctx.rx.full := by
  rw [Chan.stored, ← Ring.room_eq_zero, ne_eq, List.take_eq_nil_iff, ← List.length_eq_zero_iff,
    length_parseAll, List.length_eq_zero_iff]
  tauto

theorem runReads_mute (reads : List ReadArgs) : (runReads reads).Moves Mute := by
  induction reads with
  | nil => exact .pure _
  | cons args rest ih => exact .bind (canMessageRead_mute args) fun _ => ih

def announced (x : Context) (event : BitVec 32) : List Context :=
  if event = eventReceive ∧ x.cbObject ≠ none then [x] else []

theorem log_receives {reads : List ReadArgs} {s : Signal}
    (h : (runReads reads).exec (c.log (.signal s c.ctx)) = .ok ((), d)) :
    d.receives = c.receives ++ if s = .object objRx eventReceive then [c.ctx] else [] := by
  rw [((runReads_mute _).exec h).receives]
  split
  next hs => simp [hs, Chan.receives, Obs.receiveContext]
  next hs => simp [hs, Chan.receives, Obs.receiveContext]

theorem signalObject_receives {app : App} {event : BitVec 32}
    (h : (signalObject app event).exec c = .ok ((), d)) :
    d.receives = c.receives ++ announced c.ctx event := by
  rw [exec_signalObject] at h
  split at h
  next hcb =>
    cases h
    rw [announced, if_neg fun hx => hx.2 (Option.isNone_iff_eq_none.mp hcb), List.append_nil]
  next hcb =>
    have hne : c.ctx.cbObject ≠ none := fun hx => hcb (Option.isNone_iff_eq_none.mpr hx)
    rw [log_receives h, announced]
    simp only [Signal.object.injEq, true_and, and_iff_left hne]

theorem signalUnit_receives {app : App} {event : BitVec 32}
    (h : (signalUnit app event).exec c = .ok ((), d)) : d.receives = c.receives := by
  rw [exec_signalUnit] at h
  split at h
  next =>
    cases h
    rfl
  next => rw [log_receives h, if_neg Signal.noConfusion, List.append_nil]

theorem announced_overrun (x : Context) : announced x eventReceiveOverrun = [] :=
  if_neg fun h => absurd h.1 (by decide)

theorem overrun_receives {app : App} {p : Prop} [Decidable p]
    (h : (if p then signalObject app eventReceiveOverrun else pure ()).exec c = .ok ((), d)) :
    d.receives = c.receives := by
  split at h
  next => rw [signalObject_receives h, announced_overrun, List.append_nil]
  next =>
    cases h
    rfl

theorem drained_receives (f : Frame) : (c.drained f).receives = c.receives :=
  drained_filterMap (fun _ => rfl) (fun _ => rfl) f

theorem canHalEvent_receives {app : App} {f : Frame} {events : BitVec 32}
    (h : (canHalEvent app f events (some .ctx)).exec c = .ok ((), d)) :
    d.receives = c.receives ++
      if (events &&& eventRxAvailable ≠ 0 ∧ c.node.initialized = true) ∧ c.stored f ≠ [] then
        announced (c.drained f).ctx eventReceive
      else [] := by
  obtain ⟨s, t, hpart, ht, hlast⟩ := canHalEvent_cases h
  have hd : d.receives = t.receives := by
    split at hlast
    next => exact signalUnit_receives hlast
    next =>
      cases hlast
      rfl
  rw [hd, overrun_receives ht]
  cases hpart with
  | skipped hno => rw [if_neg fun hx => hno hx.1, List.append_nil]
  | drained hyes he hover =>
    rw [overrun_receives hover]
    split at he
    next hst => rw [signalObject_receives he, drained_receives, if_pos ⟨hyes, hst⟩]
    next hst =>
      cases he
      rw [drained_receives, if_neg fun hx => hst hx.2, List.append_nil]

theorem drained_nonempty {f : Frame} (h : c.stored f ≠ []) :
    (c.drained f).ctx.rx.tail ≠ (c.drained f).ctx.rx.head := by
  intro heq
  have hq := (drained_moved c f).queue
  rw [Chan.queue, Chan.queue, Ring.toList_eq_nil.mpr heq, List.append_nil] at hq
  exact h (List.append_eq_nil_iff.mp hq).2

structure Draining (c : Chan) : Prop where
  present : c.present = true
  cb : c.isr.cb = some .canHalEvent
  ud : c.isr.ud = some .ctx
  flag : c.regs .int &&& intRxif ≠ 0
  initialized : c.node.initialized = true

theorem announces_iff :
    Announces c ↔ (Draining c ∧ c.rxFifo ≠ [] ∧ ¬c.ctx.rx.full) ∧ c.ctx.cbObject ≠ none := by
  constructor
  · exact fun ha => ⟨⟨⟨ha.present, ha.cb, ha.ud, ha.flag, ha.initialized⟩, ha.waiting, ha.room⟩,
      ha.cbObject⟩
  · rintro ⟨⟨⟨hp, hcb, hud, hflag, hi⟩, hwaiting, hroom⟩, hobject⟩
    exact ⟨hp, hcb, hud, hflag, hi, hwaiting, hroom, hobject⟩

theorem handler_cases {app : App} {f : Frame} (h : (handler app f).exec c = .ok ((), d)) :
    (¬Draining c ∧ Passes c d) ∨ ∃ events s t, Passes c s ∧
      (canHalEvent app f events (some .ctx)).exec s = .ok ((), t) ∧ Passes t d ∧
      (events &&& eventRxAvailable ≠ 0 ∧ s.node.initialized = true ↔ Draining c) := by
  rcases irqHandler_cases h with ⟨hpass, hquiet⟩ | ⟨cb, events, s, t, hcall, hlast⟩
  · exact .inl ⟨fun hd => hd.flag (hquiet hd.present (by simp [hd.cb])), hpass⟩
  have hexec := hcall.exec
  cases cb with
  | application =>
    cases hexec
    refine .inl ⟨fun hd => ?_, hcall.before.trans hlast⟩
    exact absurd (hd.cb.symm.trans hcall.cb) (by simp)
  | canHalEvent =>
    cases hud : c.isr.ud with
    | none =>
      rw [hud] at hexec
      cases hexec
      refine .inl ⟨fun hd => ?_, hcall.before.trans hlast⟩
      exact absurd (hd.ud.symm.trans hud) (by simp)
    | some ud =>
      rw [hud] at hexec
      refine .inr ⟨events, s, t, hcall.before, hexec, hlast, ?_⟩
      rw [hcall.rx, hcall.before.traffic.node]
      constructor
      · exact fun ⟨hflag, hi⟩ => ⟨hcall.present, hcall.cb, hud, hflag, hi⟩
      · exact fun hd => ⟨hd.flag, hd.initialized⟩

theorem handler_receives {app : App} {f : Frame} (h : (handler app f).exec c = .ok ((), d)) :
    (Announces c ∧ ∃ x, d.receives = c.receives ++ [x] ∧ x.powered = c.ctx.powered ∧
        x.rx.tail ≠ x.rx.head) ∨
      (¬Announces c ∧ d.receives = c.receives) := by
  have hpasses {s t : Chan} (hp : Passes s t) : t.receives = s.receives :=
    hp.beside.aside.mute.receives
  rcases handler_cases h with ⟨hno, hpass⟩ | ⟨events, s, t, hbefore, hexec, hlast, hdrain⟩
  · exact .inr ⟨fun ha => hno (announces_iff.mp ha).1.1, hpasses hpass⟩
  have hreceives := canHalEvent_receives hexec
  rw [hpasses hbefore, ← hpasses hlast] at hreceives
  have hann : Announces c ↔ ((events &&& eventRxAvailable ≠ 0 ∧ s.node.initialized = true) ∧
      s.stored f ≠ []) ∧ s.ctx.cbObject ≠ none := by
    rw [announces_iff, hdrain, stored_ne_nil, hbefore.beside.rxFifo, hbefore.beside.ctx]
  by_cases ha : Announces c
  · obtain ⟨hst, hobject⟩ := hann.mp ha
    have hpow : (s.drained f).ctx.powered = c.ctx.powered := by
      change s.ctx.powered = _
      rw [hbefore.beside.ctx]
    refine .inl ⟨ha, _, ?_, hpow, drained_nonempty hst.2⟩
    rw [hreceives, if_pos hst, announced, if_pos ⟨rfl, hobject⟩]
  · refine .inr ⟨ha, ?_⟩
    rw [hreceives]
    split
    next hst =>
      have hobject : ¬(s.drained f).ctx.cbObject ≠ none := fun ho => ha (hann.mpr ⟨hst, ho⟩)
      rw [announced, if_neg fun hx => hobject hx.2, List.append_nil]
    next => rw [List.append_nil]

/-! ### Preemption of a call -/

/-- Between two steps of a call the handler may run, and the hardware may change. -/
def Interrupts (c d : Chan) : Prop :=
  (∃ app f, (handler app f).exec c = .ok ((), d)) ∨ ∃ hw, d = c.sense hw

theorem Interrupts.traffic (h : Interrupts c d) : Traffic c d := by
  rcases h with ⟨app, f, hf⟩ | ⟨hw, rfl⟩
  · exact (handler_moves app f).exec hf
  · exact .sense hw

def Backed (c : Chan) : Prop := c.isr.cb ≠ none → c.ctx.powered = true

structure Calm (c : Chan) : Prop where
  powered : c.ctx.powered = false
  cb : c.isr.cb = none

theorem Backed.traffic (h : Backed c) (ht : Traffic c d) : Backed d := by
  rw [Backed, ht.cb, ht.powered]
  exact h

theorem backed_of_powered (h : c.ctx.powered = true) : Backed c := fun _ => h

theorem backed_of_none (h : c.isr.cb = none) : Backed c := fun hne => absurd h hne

theorem Calm.traffic (h : Calm c) (ht : Traffic c d) : Calm d :=
  ⟨ht.powered.trans h.powered, ht.cb.trans h.cb⟩

theorem interrupts_traffic (h : Relation.ReflTransGen Interrupts c d) : Traffic c d := by
  induction h with
  | refl => exact .refl c
  | tail _ hr ih => exact ih.trans hr.traffic

theorem kept {α : Type} {I J : Chan → Prop} {p : M α} (hp : p.Preserves J)
    (hJ : ∀ s t, J s → Traffic s t → J t) (hI : ∀ t, J t → I t) (hc : J c) :
    Prog.Conc Interrupts I p (fun _ d => J d) c :=
  (hp.conc (fun s t hs hst => hJ s t hs hst.traffic) hc).mono hI fun _ _ h _ => h

theorem beside_powered {α : Type} {p : M α} (hp : p.Moves Beside) :
    p.Preserves fun c => c.ctx.powered = true :=
  hp.preserves fun _ _ hs hst => hst.ctx ▸ hs

theorem beside_none {α : Type} {p : M α} (hp : p.Moves Beside) :
    p.Preserves fun c => c.isr.cb = none :=
  hp.preserves fun _ _ hs hst => hst.cb.trans hs

variable {env : Env}

theorem isrSetCallback_powered (cb : Option EventCallback) (ud : Option UserData) :
    (isrSetCallback cb ud).Preserves fun c => c.ctx.powered = true :=
  .bind (.modify fun _ h => h) fun _ => .bind (.modify fun _ h => h) fun _ => .pure _

theorem canApplyInit_powered (mode : Mode) :
    (canApplyInit mode env).Preserves fun c => c.ctx.powered = true := by
  refine .bind (beside_powered isrDisable_beside) fun _ => .bind (isrSetCallback_powered _ _) fun _ => ?_
  refine .bind .get fun _ => .bind (beside_powered (init_beside _ _ _)) fun _ => ?_
  refine .ite (fun _ => .pure _) fun _ => .bind (isrSetCallback_powered _ _) fun _ => ?_
  refine .bind .get fun _ => .bind (beside_powered (isrEnable_beside _)) fun _ => .ite ?_ ?_
  · exact fun _ => .bind (isrSetCallback_powered _ _) fun _ =>
      .bind (beside_powered (deinit_beside _)) fun _ => .pure _
  · exact fun _ => .bind (.modify fun _ h => h) fun _ => .pure _

theorem call_powered {call : Call} (hinit : ∀ u o, call ≠ .canInitialize u o)
    (hclose : call ≠ .canUnInitialize) (hoff : call ≠ .canPowerControl .off) :
    (call.run env).Preserves fun c => c.ctx.powered = true := by
  cases call with
  | canInitialize u o => exact absurd rfl (hinit u o)
  | canUnInitialize => exact absurd rfl hclose
  | canPowerControl state =>
    refine .bind .get fun _ => .ite (fun _ => .pure _) fun _ => ?_
    cases state with
    | off => exact absurd rfl hoff
    | full => exact .get_bind fun s hs => .ite (fun _ => .pure _) fun h => absurd hs h
    | low | other => exact .pure _
  | canSetBitrate select bitrate bitSegments =>
    have happly : (applyBitrate env).Preserves fun c => c.ctx.powered = true :=
      .bind .get fun _ => .ite (fun _ => .pure _) fun _ => .bind .get fun _ =>
        .bind (beside_powered (setBitrate_beside _ _ _ _ _ _)) fun _ => .pure _
    refine .ite (fun _ => .pure _) fun _ => .bind ?_ fun _ => ?_
    · cases segmentSamplePct bitSegments with
      | none => exact .pure _
      | some pct => exact .modify fun _ h => h
    · cases select with
      | nominal | fdData => exact .bind (.modify fun _ h => h) fun _ => happly
      | other => exact .pure _
  | canSetMode mode =>
    refine .bind .get fun _ => .ite (fun _ => .pure _) fun _ => .ite (fun _ => .pure _) fun _ => ?_
    cases canMapMode mode with
    | none => exact .pure _
    | some mapped =>
      exact .bind .get fun _ => .bind .get fun _ => .ite (fun _ => .pure _) fun _ =>
        .ite (fun _ => .pure _) fun _ => canApplyInit_powered _
  | canControl code arg =>
    refine .bind .get fun _ => .ite (fun _ => .pure _) fun _ => .ite (fun _ => ?_) fun _ => ?_
    · exact .ite (fun _ => .pure _) fun _ => .bind (.modify fun _ h => h) fun _ =>
        .bind .get fun _ => .ite (fun _ => .bind .get fun _ => canApplyInit_powered _) fun _ => .pure _
    · exact .ite (fun _ => .bind .get fun _ => .ite (fun _ => .pure _) fun _ =>
        .ite (fun _ => .pure _) fun _ => .bind (beside_powered txAbort_beside) fun _ => .pure _)
        fun _ => .pure _
  | canMessageSend objIdx info data size =>
    refine .bind .get fun _ => .ite (fun _ => .pure _) fun _ => ?_
    cases info with
    | none => exact .pure _
    | some info =>
      exact .ite (fun _ => .pure _) fun _ => .ite (fun _ => .pure _) fun _ => .bind .get fun _ =>
        .ite (fun _ => .pure _) fun _ => .bind (beside_powered (transmit_beside _ _)) fun _ =>
        .ite (fun _ => .pure _) fun _ => .pure _
  | canMessageRead args =>
    refine .bind ?_ fun _ => .pure _
    refine .bind .get fun _ => .ite (fun _ => .pure _) fun _ => .ite (fun _ => .pure _) fun _ => ?_
    exact .bind .get fun _ => .bind .get fun _ => .ite (fun _ => .pure _) fun _ =>
      .bind .get fun _ => .bind (.modify fun _ h => h) fun _ => .pure _

theorem onCtx_calm {f : Context → Context} (hf : ∀ x, x.powered = false → (f x).powered = false) :
    (onCtx f).Preserves Calm := .modify fun _ h => ⟨hf _ h.powered, h.cb⟩

theorem calm_elim {P : Prop} {s : Chan} (hs : Calm s) (h : s.ctx.powered = true) : P :=
  absurd (hs.powered.symm.trans h) (by decide)

theorem calm_refuses {P : Prop} {s : Chan} (hs : Calm s) (h : ¬(!s.ctx.powered) = true) : P :=
  calm_elim hs (by simpa using h)

theorem call_calm {call : Call} (hfull : call ≠ .canPowerControl .full) :
    (call.run env).Preserves Calm := by
  cases call with
  | canInitialize u o =>
    refine .bind .get fun _ => .ite (fun _ => .pure _) fun _ => ?_
    exact .bind (onCtx_calm fun _ h => h) fun _ => .bind (onCtx_calm fun _ h => h) fun _ =>
      .bind (onCtx_calm fun _ _ => rfl) fun _ => .bind (onCtx_calm fun _ h => h) fun _ => .pure _
  | canUnInitialize =>
    refine .get_bind fun s hs => .bind (.ite (fun h => calm_elim hs h) fun _ => .pure _) fun _ => ?_
    exact .bind (onCtx_calm fun _ h => h) fun _ => .bind (onCtx_calm fun _ h => h) fun _ =>
      .bind (onCtx_calm fun _ h => h) fun _ => .pure _
  | canPowerControl state =>
    refine .bind .get fun _ => .ite (fun _ => .pure _) fun _ => ?_
    cases state with
    | full => exact absurd rfl hfull
    | off =>
      refine .get_bind fun s hs => .bind (.ite (fun h => calm_elim hs h) fun _ => .pure _) fun _ => ?_
      exact .bind (onCtx_calm fun _ _ => rfl) fun _ => .pure _
    | low | other => exact .pure _
  | canSetBitrate select bitrate bitSegments =>
    have happly : (applyBitrate env).Preserves Calm :=
      .get_bind fun s hs => .ite (fun _ => .pure _) fun h => calm_refuses hs h
    refine .ite (fun _ => .pure _) fun _ => .bind ?_ fun _ => ?_
    · cases segmentSamplePct bitSegments with
      | none => exact .pure _
      | some pct => exact onCtx_calm fun _ h => h
    · cases select with
      | nominal | fdData => exact .bind (onCtx_calm fun _ h => h) fun _ => happly
      | other => exact .pure _
  | canSetMode mode =>
    refine .bind .get fun _ => .ite (fun _ => .pure _) fun _ => .ite (fun _ => .pure _) fun _ => ?_
    cases canMapMode mode with
    | none => exact .pure _
    | some mapped =>
      exact .bind .get fun _ => .get_bind fun s hs => .ite (fun _ => .pure _) fun h =>
        calm_refuses hs h
  | canControl code arg =>
    refine .bind .get fun _ => .ite (fun _ => .pure _) fun _ => .ite (fun _ => ?_) fun _ => ?_
    · exact .ite (fun _ => .pure _) fun _ => .bind (onCtx_calm fun _ h => h) fun _ =>
        .get_bind fun s hs => .ite (fun h => calm_elim hs h) fun _ => .pure _
    · exact .ite (fun _ => .get_bind fun s hs => .ite (fun _ => .pure _) fun h => calm_refuses hs h)
        fun _ => .pure _
  | canMessageSend objIdx info data size =>
    exact .get_bind fun s hs => .ite (fun _ => .pure _) fun h => calm_refuses hs h
  | canMessageRead args =>
    refine .bind ?_ fun _ => .pure _
    exact .get_bind fun s hs => .ite (fun _ => .pure _) fun h => calm_refuses hs h

theorem isrSetCallback_conc {I : Chan → Prop} (hI : ∀ t, Traffic c t → I t)
    (hnone : ∀ t, t.isr.cb = none → I t) :
    Prog.Conc Interrupts I (isrSetCallback none none) (fun _ d => d.isr.cb = none) c := by
  refine .modify_bind fun t ht => ⟨hI t (interrupts_traffic ht), ?_⟩
  refine kept (.bind (.modify fun _ h => h) fun _ => .pure _) (fun s t hs hst => ?_) hnone rfl
  exact hst.cb.trans hs

theorem none_conc {α : Type} {I : Chan → Prop} {p : M α}
    (hp : p.Preserves fun c => c.isr.cb = none) (hnone : ∀ t, t.isr.cb = none → I t)
    (hc : c.isr.cb = none) : Prog.Conc Interrupts I p (fun _ d => d.isr.cb = none) c :=
  kept hp (fun _ _ hs hst => hst.cb.trans hs) hnone hc

theorem powered_conc {α : Type} {p : M α} (hp : p.Preserves fun c => c.ctx.powered = true)
    (hc : c.ctx.powered = true) :
    Prog.Conc Interrupts Backed p (fun _ d => d.ctx.powered = true) c :=
  kept hp (fun _ _ hs hst => hst.powered.trans hs) (fun _ => backed_of_powered) hc

theorem onCtx_none (f : Context → Context) : (onCtx f).Preserves fun c => c.isr.cb = none :=
  .modify fun _ h => h

theorem powerOff_conc (hc : c.ctx.powered = true) :
    Prog.Conc Interrupts Backed (powerOff env) (fun _ d => Backed d) c := by
  refine .get_bind fun t ht => ?_
  have hpow : t.ctx.powered = true := (interrupts_traffic ht).powered.trans hc
  refine ⟨backed_of_powered hpow, ?_⟩
  rw [if_pos hpow]
  refine .seq ?_ fun _ s _ hs => (none_conc (.bind (onCtx_none _) fun _ => .pure _)
    (fun _ => backed_of_none) hs).mono (fun _ => id) fun _ _ h _ => h
  refine .seq (powered_conc (beside_powered isrDisable_beside) hpow) fun _ s _ hs => ?_
  refine .seq (isrSetCallback_conc (fun t ht => backed_of_powered (ht.powered.trans hs))
    fun _ => backed_of_none) fun _ s _ hs => ?_
  exact none_conc (.bind (beside_none (deinit_beside _)) fun _ => .pure _)
    (fun _ => backed_of_none) hs

theorem powerControl_off_conc (hc : c.ctx.powered = true) :
    Prog.Conc Interrupts Backed (canPowerControl .off env) (fun _ d => Backed d) c := by
  refine .get_bind fun t ht => ?_
  have hpow : t.ctx.powered = true := (interrupts_traffic ht).powered.trans hc
  refine ⟨backed_of_powered hpow, ?_⟩
  split
  next =>
    refine .pure fun s hs => ?_
    have hb := backed_of_powered ((interrupts_traffic hs).powered.trans hpow)
    exact ⟨hb, hb⟩
  next => exact powerOff_conc hpow

theorem canUnInitialize_conc (hc : c.ctx.powered = true) :
    Prog.Conc Interrupts Backed (canUnInitialize env) (fun _ d => Backed d) c := by
  refine .get_bind fun t ht => ?_
  have hpow : t.ctx.powered = true := (interrupts_traffic ht).powered.trans hc
  refine ⟨backed_of_powered hpow, ?_⟩
  rw [if_pos hpow]
  have honCtx {f : Context → Context} (hf : ∀ x, (f x).powered = x.powered) :
      (onCtx f).Preserves Backed := .modify fun s hs hne => (hf s.ctx).trans (hs hne)
  refine .seq (Q := fun _ d => Backed d) ?_ fun _ s _ hs => ?_
  · refine .seq (powerControl_off_conc hpow) fun _ s _ hs => ?_
    exact kept (.pure _) (fun _ _ => Backed.traffic) (fun _ => id) hs
  · exact kept (.bind (honCtx fun _ => rfl) fun _ => .bind (honCtx fun _ => rfl) fun _ =>
      .bind (honCtx fun _ => rfl) fun _ => .pure _) (fun _ _ => Backed.traffic) (fun _ => id) hs

def InitializesBare (c : Chan) : Call → Prop
  | .canInitialize _ _ => c.ctx.powered = true → c.isr.cb = none
  | _ => True

theorem call_backed {call : Call} (hfull : call ≠ .canPowerControl .full) (hc : Backed c)
    (hinit : InitializesBare c call) :
    Prog.Conc Interrupts Backed (call.run env) (fun _ d => Backed d) c := by
  cases hpow : c.ctx.powered with
  | false =>
    have hcalm : Calm c := by
      refine ⟨hpow, ?_⟩
      by_contra hne
      exact absurd ((hc hne).symm.trans hpow) (by decide)
    exact (kept (call_calm hfull) (fun _ _ => Calm.traffic) (fun _ h => backed_of_none h.cb)
      hcalm).mono (fun _ => id) fun _ _ h _ => h
  | true =>
    have hother (hi : ∀ u o, call ≠ .canInitialize u o) (hclose : call ≠ .canUnInitialize)
        (hoff : call ≠ .canPowerControl .off) :
        Prog.Conc Interrupts Backed (call.run env) (fun _ d => Backed d) c :=
      (powered_conc (call_powered hi hclose hoff) hpow).mono (fun _ => id) fun _ _ h _ => h
    cases call with
    | canInitialize u o =>
      refine (none_conc ?_ (fun _ => backed_of_none) (hinit hpow)).mono (fun _ => id) fun _ _ h _ => h
      exact .bind .get fun _ => .ite (fun _ => .pure _) fun _ => .bind (onCtx_none _) fun _ =>
        .bind (onCtx_none _) fun _ => .bind (onCtx_none _) fun _ => .bind (onCtx_none _) fun _ =>
        .pure _
    | canUnInitialize => exact canUnInitialize_conc hpow
    | canPowerControl state =>
      cases state with
      | off => exact powerControl_off_conc hpow
      | full => exact absurd rfl hfull
      | low | other => exact hother (by simp) (by simp) (by simp)
    | _ => exact hother (by simp) (by simp) (by simp)

theorem any_conc {α : Type} (p : M α) (c : Chan) :
    Prog.Conc Interrupts (fun _ => True) p (fun _ _ => True) c := by
  induction p generalizing c with
  | ret a => exact fun _ _ => ⟨trivial, trivial⟩
  | fail e => exact fun _ _ => trivial
  | act u n ih => exact fun t _ => ⟨trivial, ih t (u t)⟩

theorem canApplyInit_conc (mode : Mode) (c : Chan) :
    Prog.Conc Interrupts (fun _ => True) (canApplyInit mode env)
      (fun rc d => rc ≠ armDriverOk → d.isr.cb = none) c := by
  have hunset (c : Chan) : Prog.Conc Interrupts (fun _ => True) (isrSetCallback none none)
      (fun _ d => d.isr.cb = none) c := isrSetCallback_conc (fun _ _ => trivial) fun _ _ => trivial
  have hnone {α : Type} {p : M α} {c : Chan} (hp : p.Preserves fun c => c.isr.cb = none)
      (hc : c.isr.cb = none) :
      Prog.Conc Interrupts (fun _ => True) p (fun _ d => d.isr.cb = none) c :=
    none_conc hp (fun _ _ => trivial) hc
  refine .seq (any_conc isrDisable c) fun _ s _ _ => .seq (hunset s) fun _ s _ hs => ?_
  refine .seq (hnone .get hs) fun _ s _ hs => ?_
  refine .seq (hnone (beside_none (init_beside _ _ _)) hs) fun st s _ hs => ?_
  split
  next => exact (hnone (.pure _) hs).mono (fun _ => id) fun _ _ _ h _ => h
  next =>
    refine .seq (any_conc _ s) fun _ s _ _ => .seq (any_conc _ s) fun _ s _ _ => ?_
    refine .seq (any_conc _ s) fun st s _ _ => ?_
    split
    next =>
      refine .seq (hunset s) fun _ s _ hs => ?_
      refine .seq (hnone (beside_none (deinit_beside _)) hs) fun _ s _ hs => ?_
      exact (hnone (.pure _) hs).mono (fun _ => id) fun _ _ _ h _ => h
    next =>
      refine .seq (any_conc _ s) fun _ s _ _ => .pure fun t _ => ⟨trivial, fun hne => ?_⟩
      exact absurd rfl hne

theorem powerFull_backed (hc : Backed c) :
    Prog.Conc Interrupts (fun _ => True) (canPowerControl .full env) (fun _ d => Backed d) c := by
  have hpure {α : Type} {a : α} {c : Chan} (hc : Backed c) :
      Prog.Conc Interrupts (fun _ => True) (pure a : M α) (fun _ d => Backed d) c :=
    .pure fun t ht => ⟨trivial, hc.traffic (interrupts_traffic ht)⟩
  refine .get_bind fun t ht => ⟨trivial, ?_⟩
  have hb := hc.traffic (interrupts_traffic ht)
  split
  next => exact hpure hb
  next =>
    refine .get_bind fun s hs => ⟨trivial, ?_⟩
    split
    next hpow => exact hpure (backed_of_powered hpow)
    next =>
      refine .seq (any_conc _ s) fun _ s _ _ => .seq (any_conc _ s) fun _ s _ _ => ?_
      refine .seq (any_conc _ s) fun _ s _ _ => .seq (canApplyInit_conc _ s) fun rc s _ hrc => ?_
      split
      next hne => exact hpure (backed_of_none (hrc hne))
      next => exact .modify_bind fun t _ => ⟨trivial, hpure (backed_of_powered rfl)⟩

end Cmsis

/-! ### Interleaved runs -/

abbrev Bench : Type := Thread (Env × Call) Chan Stop Int

inductive Interrupt : Type
  | handler (app : App) (buffer : Frame)
  | hardware (hw : Hw)

inductive Interrupt.Takes : Interrupt → Chan → Chan → Prop
  | handler {app : App} {f : Frame} {c d : Chan} : (Cmsis.handler app f).exec c = .ok ((), d) →
      Takes (.handler app f) c d
  | hardware {hw : Hw} {c : Chan} : Takes (.hardware hw) c (c.sense hw)

theorem Interrupt.Takes.interrupts {e : Interrupt} {c d : Chan} (h : e.Takes c d) :
    Interrupts c d := by
  cases h with
  | handler hexec => exact .inl ⟨_, _, hexec⟩
  | hardware => exact .inr ⟨_, rfl⟩

abbrev BenchMove : Type := Thread.Move (Env × Call) Int Interrupt

abbrev BenchStep : Bench → BenchMove → Bench → Prop :=
  Thread.Makes (fun k : Env × Call => k.2.run k.1) Interrupt.Takes

/-- A run of the handler that finds a frame to announce finds the instance powered. -/
def Timely (b : Bench) : BenchMove → Prop
  | .env (.handler _ _) => Announces b.state → b.state.ctx.powered = true
  | _ => True

/-- `Initialize` finds the instance unpowered, or without a registered callback. -/
def EntersBare (b : Bench) : BenchMove → Prop
  | .enter k => InitializesBare b.state k.2
  | _ => True

structure AllServed (b : Bench) : Prop where
  served : ∀ x ∈ b.state.receives, Served x
  mute : ∀ k p, b.rest = some (k, p) → p.Moves Mute

theorem AllServed.step {b b' : Bench} {m : BenchMove} (h : AllServed b) (ht : Timely b m)
    (hs : BenchStep b m b') : AllServed b' := by
  cases hs with
  | enter k =>
    refine ⟨h.served, fun k p hp => ?_⟩
    cases hp
    exact call_mute _
  | act hact =>
    have hmoves := h.mute _ _ hact b.state
    refine ⟨?_, fun k p hp => ?_⟩
    · rw [hmoves.1.receives]
      exact h.served
    · cases hp
      exact hmoves.2
  | leave => exact ⟨h.served, fun _ _ hp => by cases hp⟩
  | env htakes =>
    refine ⟨?_, h.mute⟩
    cases htakes with
    | handler hexec =>
      rcases handler_receives hexec with ⟨ha, x, hx, hpow, hne⟩ | ⟨-, hx⟩
      · intro y hy
        rw [hx, List.mem_append, List.mem_singleton] at hy
        rcases hy with hy | rfl
        · exact h.served y hy
        · exact served_iff.mpr ⟨hpow.trans (ht ha), hne⟩
      · rw [hx]
        exact h.served
    | hardware => exact h.served

/-- While the thread is in `PowerControl(FULL)`, a callback may be registered before the instance
is powered. -/
def Covered (call : Call) (c : Chan) : Prop := call = .canPowerControl .full ∨ Backed c

abbrev Backs : Bench → Prop :=
  Thread.Keeps Interrupts (fun _ k => Covered k.2) (fun _ => Backed)

theorem backs_enter {c : Chan} {call : Call} (env : Env) (hc : Backed c)
    (hinit : InitializesBare c call) :
    Prog.Conc Interrupts (Covered call) (call.run env) (fun _ d => Backed d) c := by
  by_cases hfull : call = .canPowerControl .full
  · subst hfull
    exact (powerFull_backed hc).mono (fun _ _ => .inl rfl) fun _ _ _ h => h
  · exact (call_backed hfull hc hinit).mono (fun _ => .inr) fun _ _ h _ => h

theorem Backs.step {b b' : Bench} {m : BenchMove} (h : Backs b) (ha : EntersBare b m)
    (hs : BenchStep b m b') : Backs b' := by
  refine Thread.Keeps.makes h (fun k hk hb => ?_) (fun _ _ _ => Interrupt.Takes.interrupts)
    (fun _ _ _ hb ht => hb.traffic ht.traffic) hs
  subst hk
  exact backs_enter k.1 hb ha

theorem Backs.backed {b : Bench} (h : Backs b) :
    Backed b.state ∨ ∃ env p, b.rest = some ((env, .canPowerControl .full), p) := by
  rw [Backs, Thread.Keeps] at h
  split at h
  next => exact .inl h
  next k p hrest =>
    obtain ⟨env, call⟩ := k
    rcases h.inv with rfl | hb
    · exact .inr ⟨env, p, hrest⟩
    · exact .inl hb

/-- While every frame is announced by a powered instance, every `RECEIVE` signal can be served; a
frame that is not raises a signal that cannot; and unless `Initialize` drops the power flag under
a registered callback, such a frame only comes inside `PowerControl(FULL)`. -/
theorem receive_signals_served (dev : Device) :
    (∀ b, Reach BenchStep Timely (.idle dev.boot) b → ∀ x ∈ b.state.receives, Served x) ∧
    (∀ c d app f, (handler app f).exec c = .ok ((), d) → Announces c → c.ctx.powered = false →
      ∃ x, d.receives = c.receives ++ [x] ∧ ¬Served x) ∧
    ∀ b, Reach BenchStep EntersBare (.idle dev.boot) b → Announces b.state →
      b.state.ctx.powered = false → ∃ env p, b.rest = some ((env, .canPowerControl .full), p) := by
  refine ⟨fun b hb => ?_, fun c d app f hexec ha hpow => ?_, fun b hb ha hpow => ?_⟩
  · have hstart : AllServed (.idle dev.boot) := by
      refine ⟨fun x hx => ?_, fun k p hp => ?_⟩
      · cases hx
      · cases hp
    exact (hb.invariant hstart fun _ _ _ hs ht hst => hs.step ht hst).served
  · rcases handler_receives hexec with ⟨-, x, hx, hxp, -⟩ | ⟨hn, -⟩
    · refine ⟨x, hx, fun hserved => ?_⟩
      exact absurd ((served_iff.mp hserved).1.symm.trans (hxp.trans hpow)) (by decide)
    · exact absurd ha hn
  · have hstart : Backs (.idle dev.boot) := backed_of_none rfl
    rcases (hb.invariant hstart fun _ _ _ hs he hst => Backs.step hs he hst).backed with hback | hfull
    · exact absurd ((hback (by rw [ha.cb]; simp)).symm.trans hpow) (by decide)
    · exact hfull

def Interrupt.act : Interrupt → Chan → Option Chan
  | .handler app f, c => match (Cmsis.handler app f).exec c with
    | .ok ((), d) => some d
    | .error _ => none
  | .hardware hw, c => some (c.sense hw)

theorem Interrupt.takes_of_act (e : Interrupt) (c d : Chan) (h : e.act c = some d) :
    e.Takes c d := by
  cases e with
  | handler app f =>
    simp only [act] at h
    split at h
    next hexec =>
      cases h
      exact .handler hexec
    next => cases h
  | hardware hw =>
    cases h
    exact .hardware

abbrev benchFire (ok : Bench → BenchMove → Bool) : Bench → BenchMove → Option Bench :=
  guarded ok (Thread.fire (fun k : Env × Call => k.2.run k.1) Interrupt.act)

theorem reach_of_bench {allowed : Bench → BenchMove → Prop} (ok : Bench → BenchMove → Bool)
    (hok : ∀ b m, ok b m = true → allowed b m) (ms : List BenchMove) (p : Bench → Bool)
    {start : Bench} (h : (play (benchFire ok) ms start).map p = some true) :
    ∃ b, Reach BenchStep allowed start b ∧ p b = true :=
  Reach.of_guarded ok hok (fun _ _ _ => Thread.makes_of_fire Interrupt.takes_of_act) ms p h

def enterUp (n : Nat) : List BenchMove :=
  Thread.undisturbed (granting .normalFd, .canInitialize none (some 1)) 5 armDriverOk ++
    Thread.upTo (granting .normalFd, .canPowerControl .full) n

theorem receive_signals_served_example :
    (∃ b, Reach BenchStep Timely (.idle exampleDevice.boot) b ∧ b.state.receives.length = 1 ∧
      ∀ x ∈ b.state.receives, Served x) ∧
    ∃ b, Reach BenchStep EntersBare (.idle exampleDevice.boot) b ∧ Announces b.state ∧
      (∃ env p, b.rest = some ((env, .canPowerControl .full), p)) ∧
      ∃ d x, (handler silent zeroFrame).exec b.state = .ok ((), d) ∧
        d.receives = b.state.receives ++ [x] ∧ ¬Served x := by
  constructor
  · have hrun : ∃ b, Reach BenchStep Timely (.idle exampleDevice.boot) b ∧
        decide (b.state.receives.length = 1) = true := by
      refine reach_of_bench (fun b m => match m with
          | .env (.handler _ _) => b.state.ctx.powered
          | _ => true) ?_
        (enterUp 64 ++ [.leave armDriverOk, .env (.hardware exampleArrival),
          .env (.handler silent zeroFrame)]) _ (by decide +kernel)
      intro b m hm
      cases m with
      | env e => cases e with
        | handler => exact fun _ => hm
        | hardware => trivial
      | _ => trivial
    obtain ⟨b, hb, hlen⟩ := hrun
    exact ⟨b, hb, of_decide_eq_true hlen, (receive_signals_served exampleDevice).1 b hb⟩
  · have hrun : ∃ b, Reach BenchStep EntersBare (.idle exampleDevice.boot) b ∧
        (decide (Announces b.state) && !b.state.ctx.powered &&
          ((handler silent zeroFrame).exec b.state).isOk) = true := by
      refine reach_of_bench (fun b m => match m with
          | .enter _ => !b.state.ctx.powered
          | _ => true) ?_
        (enterUp 62 ++ [.env (.hardware exampleArrival)]) _ (by decide +kernel)
      intro b m hm
      cases m with
      | enter k =>
        obtain ⟨env, call⟩ := k
        cases call with
        | canInitialize => exact fun hpow => absurd hm (by simp [hpow])
        | _ => trivial
      | _ => trivial
    obtain ⟨b, hb, hp⟩ := hrun
    simp only [Bool.and_eq_true, Bool.not_eq_true', decide_eq_true_eq] at hp
    obtain ⟨⟨ha, hpow⟩, hexec⟩ := hp
    cases hd : (handler silent zeroFrame).exec b.state with
    | error e =>
      rw [hd] at hexec
      cases hexec
    | ok q =>
      obtain ⟨x, hx, hserved⟩ := (receive_signals_served exampleDevice).2.1 b.state q.2 silent
        zeroFrame hd ha hpow
      exact ⟨b, hb, ha, (receive_signals_served exampleDevice).2.2 b hb ha hpow, q.2, x, hd, hx, hserved⟩

def Armed (b : Bench) : BenchMove → Prop
  | .env (.handler _ _) => b.state.isr.isrEnabled = true ∧ b.state.irq.rx.enable = true
  | _ => True

/-- A frame that arrives between the arming of the lines and the power flag of the first power-up
raises a `RECEIVE` signal that cannot be served. -/
theorem receive_signal_before_powered :
    ∃ b, Reach BenchStep Armed (.idle exampleDevice.boot) b ∧ ∃ x ∈ b.state.receives, ¬Served x := by
  have hrun : ∃ b, Reach BenchStep Armed (.idle exampleDevice.boot) b ∧
      b.state.receives.any (fun x => !x.powered) = true := by
    refine reach_of_bench (fun b m => match m with
        | .env (.handler _ _) => b.state.isr.isrEnabled && b.state.irq.rx.enable
        | _ => true) ?_
      (enterUp 62 ++ [.env (.hardware exampleArrival), .env (.handler silent zeroFrame)]) _
      (by decide +kernel)
    intro b m hm
    cases m with
    | env e => cases e with
      | handler => exact Bool.and_eq_true_iff.mp hm
      | hardware => trivial
    | _ => trivial
  obtain ⟨b, hb, hp⟩ := hrun
  obtain ⟨x, hx, hpow⟩ := List.any_eq_true.mp hp
  exact ⟨b, hb, x, hx, fun hserved => by simp [(served_iff.mp hserved).1] at hpow⟩

end CanfdDriver
