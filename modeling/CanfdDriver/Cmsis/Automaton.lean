import CanfdDriver.Cmsis.Unseen

/-! The driver as its application sees it: an automaton over the calls and
their results.  Every run, however interrupted, is a run of it. -/

namespace CanfdDriver

open Lib NoraCanfd Cmsis

namespace Cmsis

inductive Stage : Type
  | closed | ready | powered
  deriving DecidableEq

def HalCode (r : Int) : Prop :=
  r = armDriverOk ∨ r = armDriverError ∨ r = armDriverErrorTimeout ∨ r = armDriverErrorParameter

instance (r : Int) : Decidable (HalCode r) := inferInstanceAs (Decidable (_ ∨ _ ∨ _ ∨ _))

namespace Stage

def stay (p : Stage) (b : Prop) [Decidable b] : Option Stage := if b then some p else none

/-- The stage after a call that returns `r`, if the call may return it. -/
def next (p : Stage) : Call → Int → Option Stage
  | .canInitialize _ _, r =>
    if r = armDriverOk then some .ready else p.stay (r = armDriverErrorUnsupported)
  | .canUnInitialize, r => closed.stay (r = armDriverOk)
  | .canPowerControl state, r =>
    if p = .closed then p.stay (r = armDriverError)
    else
      match state with
      | .full => if r = armDriverOk then some .powered else p.stay (p = .ready ∧ HalCode r)
      | .off => ready.stay (r = armDriverOk)
      | .low => p.stay (r = armDriverErrorUnsupported)
      | .other => p.stay (r = armDriverErrorParameter)
  | .canSetBitrate select bitrate _, r =>
    if bitrate = 0 ∨ select = .other then p.stay (r = armDriverErrorParameter)
    else if p = .powered then p.stay (HalCode r)
    else p.stay (r = armDriverOk)
  | .canSetMode mode, r =>
    if p = .closed then p.stay (r = armDriverError)
    else if mode = .initialization then p.stay (r = armDriverOk)
    else if canMapMode mode = none then p.stay (r = armDriverErrorUnsupported)
    else if p = .ready then p.stay (r = armDriverError)
    else p.stay (HalCode r)
  | .canControl code arg, r =>
    if p = .closed then p.stay (r = armDriverError)
    else if code &&& controlMsk = setFdModeCode then
      if arg ≠ fdModeDisable ∧ arg ≠ fdModeEnable then p.stay (r = armDriverErrorParameter)
      else if p = .ready then p.stay (r = armDriverOk)
      else p.stay (HalCode r)
    else if code &&& controlMsk = abortMessageSendCode then
      if p = .ready then p.stay (r = armDriverError)
      else if arg ≠ objTx then p.stay (r = armDriverErrorParameter)
      else p.stay (r = armDriverOk ∨ r = armDriverError)
    else p.stay (r = armDriverErrorUnsupported)
  | .canMessageSend objIdx info data size, r =>
    if p ≠ .powered then p.stay (r = armDriverError)
    else
      match info with
      | none => p.stay (r = armDriverErrorParameter)
      | some info =>
        if objIdx ≠ objTx ∨ size > 64 ∨ (0 < size ∧ data.isNone) then
          p.stay (r = armDriverErrorParameter)
        else if info.rtr then p.stay (r = armDriverErrorUnsupported)
        else p.stay (r = size ∨ r = armDriverErrorUnsupported ∧ (info.edl ∨ size > 8) ∨
          HalCode r ∧ r ≠ armDriverOk)
  | .canMessageRead args, r =>
    if p ≠ .powered then p.stay (r = armDriverError)
    else if args.bad then p.stay (r = armDriverErrorParameter)
    else p.stay (r = armDriverError ∨ 0 ≤ r ∧ r ≤ args.size)

def run : Stage → List (Call × Int) → Option Stage :=
  List.foldlM fun p q => p.next q.1 q.2

def isOpen (p : Stage) : Bool := p ≠ .closed

def isPowered (p : Stage) : Bool := p = .powered

theorem eq_ready {p : Stage} (hopen : p ≠ .closed) (hp : p ≠ .powered) : p = .ready := by
  cases p with
  | closed => exact absurd rfl hopen
  | ready => rfl
  | powered => exact absurd rfl hp

@[simp] theorem stay_eq_some {p q : Stage} {b : Prop} [Decidable b] :
    p.stay b = some q ↔ b ∧ q = p := by
  rw [stay]
  split
  next h => simp [h, eq_comm]
  next h => simp [h]

end Stage

end Cmsis

structure Chan.At (p : Stage) (c : Chan) : Prop where
  initialized : c.ctx.initialized = p.isOpen
  powered : c.ctx.powered = p.isPowered

structure SameStage (c d : Chan) : Prop where
  initialized : d.ctx.initialized = c.ctx.initialized
  powered : d.ctx.powered = c.ctx.powered

instance : Std.Refl SameStage := ⟨fun _ => ⟨rfl, rfl⟩⟩

section

variable {c d : Chan} {p q : Stage}

theorem SameStage.at (h : SameStage c d) (hc : c.At p) : d.At p :=
  ⟨h.initialized.trans hc.initialized, h.powered.trans hc.powered⟩

theorem Beside.sameStage (h : Beside c d) : SameStage c d := ⟨h.ctx ▸ rfl, h.ctx ▸ rfl⟩

theorem Traffic.sameStage (h : Traffic c d) : SameStage c d := by
  obtain ⟨rx, hrx⟩ := h.ctx
  exact ⟨by rw [hrx], h.powered⟩

theorem Chan.At.traffic (h : c.At p) (ht : Traffic c d) : d.At p := ht.sameStage.at h

end

namespace Cmsis

variable {c d : Chan} {p q : Stage} {env : Env} {α : Type}

def Answer (st : Status) : Prop :=
  st = .ok ∨ st = .invalidArg ∨ st = .notPresent ∨ st = .notInitialized ∨ st = .timeout

theorem Answer.code {st : Status} (h : Answer st) : HalCode (canHalToArm st) := by
  obtain rfl | rfl | rfl | rfl | rfl := h <;> decide

theorem answer_of_regs {st : Status} (h : st = .ok ∨ st = .notPresent) : Answer st := by
  obtain rfl | rfl := h
  · exact .inl rfl
  · exact .inr (.inr (.inl rfl))

theorem answer_of_wait {st : Status} (h : st = .ok ∨ st = .timeout) : Answer st := by
  obtain rfl | rfl := h
  · exact .inl rfl
  · exact .inr (.inr (.inr (.inr rfl)))

theorem answer_invalidArg : Answer .invalidArg := .inr (.inl rfl)

theorem answer_notInitialized : Answer .notInitialized := .inr (.inr (.inr (.inl rfl)))

theorem requestMode_answers (reqop : BitVec 8) (p : Poll) : (requestMode reqop p).Returns Answer :=
  (requestMode_returns reqop p).mono fun _ => answer_of_wait

theorem bringUp_answers (cfg : Config) (t : BitTiming) (toConfig toMode : Poll) :
    (bringUp cfg t toConfig toMode).Returns Answer := by
  refine .bind (.any _) fun _ _ => .bind (.any _) fun _ _ => .bind (.any _) fun _ _ => ?_
  refine .bind (.any _) fun _ _ => .bind (.any _) fun _ _ => ?_
  refine .bind (requestMode_answers _ _) fun st hst => .ite (fun _ => ?_) fun _ => ?_
  · exact .bind (.any _) fun _ _ => .pure hst
  refine .bind (.any _) fun _ _ => .bind (requestMode_answers _ _) fun st hst => .ite (fun _ => ?_) ?_
  · exact .bind (.any _) fun _ _ => .pure hst
  · exact fun _ => .bind (.any _) fun _ _ => .bind (.any _) fun _ _ => .pure (.inl rfl)

theorem init_answers (config : Option Config) (toConfig toMode : Poll) :
    (init config toConfig toMode).Returns Answer := by
  have hrefuse : (pure .invalidArg : M Status).Returns Answer := .pure answer_invalidArg
  cases config with
  | none => exact hrefuse
  | some cfg =>
    refine .ite (fun _ => hrefuse) fun _ => .ite (fun _ => hrefuse) fun _ => ?_
    refine .ite (fun _ => hrefuse) fun _ => .ite (fun _ => hrefuse) fun _ => ?_
    refine .bind getRegs_returns fun st hst => .ite (fun _ => .pure (answer_of_regs hst)) fun _ => ?_
    refine .bind (.any _) fun t _ => ?_
    cases t with
    | none => exact hrefuse
    | some t => exact bringUp_answers _ _ _ _

theorem isrEnable_answers (priority : BitVec 8) : (isrEnable priority).Returns Answer := by
  refine .ite (fun _ => .pure answer_invalidArg) fun _ => .bind getRegs_returns fun st hst => ?_
  refine .ite (fun _ => .pure (answer_of_regs hst)) fun _ => .bind (.any _) fun _ _ => ?_
  refine .ite (fun _ => .pure answer_notInitialized) fun _ => .bind (.any _) fun _ _ => ?_
  exact .bind (.any _) fun _ _ => .bind (.any _) fun _ _ => .bind (.any _) fun _ _ =>
    .bind (.any _) fun _ _ => .pure (.inl rfl)

theorem setBitrate_answers (canClkHz nominalBps dataBps : BitVec 32) (samplePct : BitVec 8)
    (toConfig toMode : Poll) :
    (setBitrate canClkHz nominalBps dataBps samplePct toConfig toMode).Returns Answer := by
  refine .ite (fun _ => .pure answer_invalidArg) fun _ => .bind getRegs_returns fun st hst => ?_
  refine .ite (fun _ => .pure (answer_of_regs hst)) fun _ => .bind (.any _) fun _ _ => ?_
  refine .ite (fun _ => .pure answer_notInitialized) fun _ => .bind (.any _) fun t _ => ?_
  cases t with
  | none => exact .pure answer_invalidArg
  | some t =>
    refine .bind (.any _) fun _ _ => .bind (requestMode_answers _ _) fun st hst => ?_
    exact .ite (fun _ => .pure hst) fun _ => .bind (.any _) fun _ _ => requestMode_answers _ _

theorem transmit_answers (frame : Option Frame) (room : Poll) :
    (transmit frame room).Returns Answer := by
  cases frame with
  | none => exact .pure answer_invalidArg
  | some f =>
    refine .ite (fun _ => .pure answer_invalidArg) fun _ => .ite (fun _ => .pure answer_invalidArg) ?_
    refine fun _ => .bind (.any _) fun _ _ => .ite (fun _ => .pure answer_notInitialized) fun _ => ?_
    refine .bind (.bind (.any _) fun _ _ => pollUntil_returns _ _ _) fun st hst => ?_
    refine .ite (fun _ => .pure (answer_of_wait hst)) fun _ => .bind (.any _) fun _ _ => ?_
    refine .bind (.any _) fun _ _ => .bind (.any _) fun _ _ => .bind (.any _) fun _ _ => ?_
    exact .bind (.any _) fun _ _ => .bind (.any _) fun _ _ => .pure (.inl rfl)

theorem txAbort_answers : txAbort.Returns fun st => st = .ok ∨ st = .notPresent :=
  .bind getRegs_returns fun _ hst => .ite (fun _ => .pure hst) fun _ =>
    .bind (.any _) fun _ _ => .pure (.inl rfl)

theorem beside_sameStage {m : M α} (h : m.Moves Beside) : m.Moves SameStage :=
  h.mono fun _ _ h => h.sameStage

theorem onCtx_sameStage {f : Context → Context} (hi : ∀ x, (f x).initialized = x.initialized)
    (hp : ∀ x, (f x).powered = x.powered) : (onCtx f).Moves SameStage :=
  .modify fun c => ⟨hi c.ctx, hp c.ctx⟩

theorem isrSetCallback_sameStage (cb : Option EventCallback) (ud : Option UserData) :
    (isrSetCallback cb ud).Moves SameStage :=
  .bind (.modify fun _ => ⟨rfl, rfl⟩) fun _ => .bind (.modify fun _ => ⟨rfl, rfl⟩) fun _ => .pure _

theorem canApplyInit_sameStage (mode : Mode) : (canApplyInit mode env).Moves SameStage := by
  refine .bind (beside_sameStage isrDisable_beside) fun _ => ?_
  refine .bind (isrSetCallback_sameStage _ _) fun _ => .bind .get fun _ => ?_
  refine .bind (beside_sameStage (init_beside _ _ _)) fun _ => .ite (.pure _) ?_
  refine .bind (isrSetCallback_sameStage _ _) fun _ => .bind .get fun _ => ?_
  refine .bind (beside_sameStage (isrEnable_beside _)) fun _ => .ite ?_ ?_
  · exact .bind (isrSetCallback_sameStage _ _) fun _ =>
      .bind (beside_sameStage (deinit_beside _)) fun _ => .pure _
  · exact .bind (onCtx_sameStage (fun _ => rfl) fun _ => rfl) fun _ => .pure _

theorem canApplyInit_code (mode : Mode) : (canApplyInit mode env).Returns HalCode := by
  refine .bind (.any _) fun _ _ => .bind (.any _) fun _ _ => .bind (.any _) fun _ _ => ?_
  refine .bind (init_answers _ _ _) fun _ hst => .ite (fun _ => .pure hst.code) fun _ => ?_
  refine .bind (.any _) fun _ _ => .bind (.any _) fun _ _ => .bind (isrEnable_answers _) fun _ hst => ?_
  refine .ite (fun _ => ?_) fun _ => .bind (.any _) fun _ _ => .pure (.inl rfl)
  exact .bind (.any _) fun _ _ => .bind (.any _) fun _ _ => .pure hst.code

theorem within {P : α → Prop} {m : M α} (hm : m.Moves SameStage) (hr : m.Returns P) (hc : c.At p) :
    Prog.Conc Interrupts (fun _ => True) m (fun a d => P a ∧ d.At p) c := by
  have hkeep : Prog.Conc Interrupts (Chan.At p) m (fun _ d => d.At p) c :=
    kept (hm.preserves fun _ _ hs hst => hst.at hs) (fun _ _ => Chan.At.traffic) (fun _ => id) hc
  exact (hr.conc c).and hkeep |>.mono (fun _ _ => trivial) fun _ _ _ h => h

/-- The call ends in the stage that follows for its result. -/
def Follows (p : Stage) (call : Call) (r : Int) (d : Chan) : Prop :=
  ∃ q, p.next call r = some q ∧ d.At q

theorem follows_within {call : Call} {m : M Int} (hm : m.Moves SameStage)
    (hr : m.Returns fun r => p.next call r = some p) (hc : c.At p) :
    Prog.Conc Interrupts (fun _ => True) m (Follows p call) c :=
  (within hm hr hc).mono (fun _ => id) fun _ _ _ h => ⟨p, h⟩

theorem follows_pure {call : Call} {r : Int} (hr : p.next call r = some q) (hc : c.At q) :
    Prog.Conc Interrupts (fun _ => True) (pure r : M Int) (Follows p call) c :=
  .pure fun _ ht => ⟨trivial, q, hr, hc.traffic (interrupts_traffic ht)⟩

/-! ### The calls -/

theorem canInitialize_follows (cbUnit cbObject : Option Callback) (hc : c.At p) :
    Prog.Conc Interrupts (fun _ => True) (canInitialize cbUnit cbObject)
      (Follows p (.canInitialize cbUnit cbObject)) c := by
  refine .get_bind fun t ht => ⟨trivial, ?_⟩
  have ht := hc.traffic (interrupts_traffic ht)
  split
  next => exact follows_pure (by simp [Stage.next, armDriverOk, armDriverErrorUnsupported]) ht
  next =>
    refine .modify_bind fun _ _ => ⟨trivial, .modify_bind fun _ _ => ⟨trivial, ?_⟩⟩
    refine .modify_bind fun t _ => ⟨trivial, .modify_bind fun s hs => ⟨trivial, ?_⟩⟩
    have hp : s.ctx.powered = false := (interrupts_traffic hs).powered
    exact follows_pure (q := .ready) (by simp [Stage.next]) ⟨rfl, hp⟩

theorem powerFull_follows (hopen : p ≠ .closed) (hc : c.At p) :
    Prog.Conc Interrupts (fun _ => True) (powerFull env)
      (Follows p (.canPowerControl .full)) c := by
  refine .get_bind fun t ht => ⟨trivial, ?_⟩
  have ht := hc.traffic (interrupts_traffic ht)
  split
  next hpow =>
    have hp : p = .powered := by simpa [Stage.isPowered] using ht.powered.symm.trans hpow
    subst hp
    exact follows_pure (q := .powered) (by simp [Stage.next]) ht
  next hpow =>
    have hp : p = .ready :=
      Stage.eq_ready hopen (by simpa [ht.powered, Stage.isPowered] using hpow)
    subst hp
    refine .seq (within (onCtx_sameStage (fun _ => rfl) fun _ => rfl) (.any _) ht) fun _ s _ hs => ?_
    refine .seq (within (onCtx_sameStage (fun _ => rfl) fun _ => rfl) (.any _) hs.2) fun _ s _ hs => ?_
    refine .seq (within .get (.any _) hs.2) fun _ s _ hs => ?_
    refine .seq (within (canApplyInit_sameStage _) (canApplyInit_code _) hs.2) fun rc s _ hs => ?_
    split
    next hne => exact follows_pure (q := .ready) (by simp [Stage.next, hne, hs.1]) hs.2
    next =>
      refine .modify_bind fun t ht => ⟨trivial, ?_⟩
      have ht := hs.2.traffic (interrupts_traffic ht)
      exact follows_pure (q := .powered) (by simp [Stage.next]) ⟨ht.initialized, rfl⟩

theorem powerOff_ready (hc : c.At p) (hopen : p ≠ .closed) :
    Prog.Conc Interrupts (fun _ => True) (powerOff env) (fun r d => r = armDriverOk ∧ d.At .ready) c := by
  refine .seq (within .get (.any _) hc) fun _ s _ hs => ?_
  refine .seq (within ?_ (.any _) hs.2) fun _ s _ hs => ?_
  · refine .ite ?_ (.pure _)
    exact .bind (beside_sameStage isrDisable_beside) fun _ => .bind (isrSetCallback_sameStage _ _) fun _ =>
      .bind (beside_sameStage (deinit_beside _)) fun _ => .pure _
  · refine .modify_bind fun t ht => ⟨trivial, .pure fun s' hs' => ⟨trivial, rfl, ?_⟩⟩
    have ht := hs.2.traffic (interrupts_traffic ht)
    have hopen : t.ctx.initialized = true := by simpa [Stage.isOpen, hopen] using ht.initialized
    have hready : (t.setCtx { t.ctx with powered := false }).At .ready := ⟨hopen, rfl⟩
    exact hready.traffic (interrupts_traffic hs')

theorem canPowerControl_follows (state : PowerState) (hc : c.At p) :
    Prog.Conc Interrupts (fun _ => True) (canPowerControl state env)
      (Follows p (.canPowerControl state)) c := by
  refine .get_bind fun t ht => ⟨trivial, ?_⟩
  have ht := hc.traffic (interrupts_traffic ht)
  split
  next hno =>
    have hp : p = .closed := by simpa [ht.initialized, Stage.isOpen] using hno
    subst hp
    exact follows_pure (q := .closed) (by simp [Stage.next]) ht
  next hyes =>
    have hp : p ≠ .closed := by simpa [ht.initialized, Stage.isOpen] using hyes
    cases state with
    | full => exact powerFull_follows hp ht
    | off =>
      refine (powerOff_ready ht hp).mono (fun _ => id) fun r d _ h => ?_
      exact ⟨.ready, by simp [Stage.next, hp, h.1], h.2⟩
    | low => exact follows_pure (by simp [Stage.next, hp]) ht
    | other => exact follows_pure (by simp [Stage.next, hp]) ht

theorem canUnInitialize_follows (hc : c.At p) :
    Prog.Conc Interrupts (fun _ => True) (canUnInitialize env) (Follows p .canUnInitialize) c := by
  refine .get_bind fun t ht => ⟨trivial, ?_⟩
  have ht := hc.traffic (interrupts_traffic ht)
  refine .seq (Q := fun _ d => d.ctx.powered = false) ?_ fun _ s _ hs => ?_
  · split
    next hpow =>
      have hp : p = .powered := by simpa [Stage.isPowered] using ht.powered.symm.trans hpow
      subst hp
      refine .seq (Q := fun _ d => d.At .ready) ?_ fun _ s _ hs => .pure fun r hr => ?_
      · refine .get_bind fun u hu => ⟨trivial, ?_⟩
        have hu := ht.traffic (interrupts_traffic hu)
        rw [if_neg (by simp [hu.initialized, Stage.isOpen])]
        exact (powerOff_ready hu (by decide)).mono (fun _ => id) fun _ _ _ h => h.2
      · exact ⟨trivial, (hs.traffic (interrupts_traffic hr)).powered⟩
    next hpow =>
      exact .pure fun r hr => ⟨trivial, (interrupts_traffic hr).powered.trans (by simpa using hpow)⟩
  · refine .modify_bind fun t ht => ⟨trivial, .modify_bind fun u hu => ⟨trivial, ?_⟩⟩
    refine .modify_bind fun v hv => ⟨trivial, ?_⟩
    have hpow : v.ctx.powered = false := (interrupts_traffic hv).powered.trans <|
      (interrupts_traffic hu).powered.trans <| (interrupts_traffic ht).powered.trans hs
    exact follows_pure (q := .closed) (by simp [Stage.next]) ⟨rfl, hpow⟩

theorem canSetBitrate_follows (select : BitrateSelect) (bitrate bitSegments : BitVec 32)
    (hc : c.At p) : Prog.Conc Interrupts (fun _ => True) (canSetBitrate select bitrate bitSegments env)
      (Follows p (.canSetBitrate select bitrate bitSegments)) c := by
  unfold canSetBitrate
  split
  next hrate => exact follows_pure (by simp [Stage.next, hrate]) hc
  next hrate =>
    have hrate : bitrate ≠ 0#32 := hrate
    refine .seq (within ?_ (.any _) hc) fun _ s _ hs => ?_
    · cases segmentSamplePct bitSegments with
      | none => exact .pure _
      | some pct => exact onCtx_sameStage (fun _ => rfl) fun _ => rfl
    have happly {s : Chan} {sel : BitrateSelect} (hsel : sel ≠ .other) (hs : s.At p) :
        Prog.Conc Interrupts (fun _ => True) (applyBitrate env)
          (Follows p (.canSetBitrate sel bitrate bitSegments)) s := by
      refine .get_bind fun t ht => ⟨trivial, ?_⟩
      have ht := hs.traffic (interrupts_traffic ht)
      split
      next hno =>
        have hp : p ≠ .powered := by simpa [ht.powered, Stage.isPowered] using hno
        exact follows_pure (by simp [Stage.next, hrate, hsel, hp]) ht
      next hyes =>
        have hp : p = .powered := by simpa [ht.powered, Stage.isPowered] using hyes
        refine follows_within ?_ ?_ ht
        · exact .bind .get fun _ => .bind (beside_sameStage (setBitrate_beside _ _ _ _ _ _)) fun _ =>
            .pure _
        · refine .bind (.any _) fun _ _ => .bind (setBitrate_answers _ _ _ _ _ _) fun st hst => .pure ?_
          simp [Stage.next, hrate, hsel, hp, hst.code]
    cases select with
    | nominal =>
      exact .seq (within (onCtx_sameStage (fun _ => rfl) fun _ => rfl) (.any _) hs.2)
        fun _ s _ hs => happly (by decide) hs.2
    | fdData =>
      exact .seq (within (onCtx_sameStage (fun _ => rfl) fun _ => rfl) (.any _) hs.2)
        fun _ s _ hs => happly (by decide) hs.2
    | other => exact follows_pure (by simp [Stage.next]) hs.2

theorem canSetMode_follows (mode : ArmMode) (hc : c.At p) :
    Prog.Conc Interrupts (fun _ => True) (canSetMode mode env) (Follows p (.canSetMode mode)) c := by
  refine .get_bind fun t ht => ⟨trivial, ?_⟩
  have ht := hc.traffic (interrupts_traffic ht)
  split
  next hno =>
    have hp : p = .closed := by simpa [ht.initialized, Stage.isOpen] using hno
    exact follows_pure (by simp [Stage.next, hp]) (hp ▸ ht)
  next hyes =>
    have hp : p ≠ .closed := by simpa [ht.initialized, Stage.isOpen] using hyes
    split
    next hm => exact follows_pure (by simp [Stage.next, hp, hm]) ht
    next hm =>
      cases hmap : canMapMode mode with
      | none => exact follows_pure (by simp [Stage.next, hp, hm, hmap]) ht
      | some mapped =>
        refine .seq (within .get (.any _) ht) fun x s _ hs => .get_bind fun t ht => ⟨trivial, ?_⟩
        have ht := hs.2.traffic (interrupts_traffic ht)
        split
        next hno =>
          have hready : p = .ready :=
            Stage.eq_ready hp (by simpa [ht.powered, Stage.isPowered] using hno)
          exact follows_pure (by simp [Stage.next, hm, hmap, hready]) (hready ▸ ht)
        next hyes =>
          have hpow : p = .powered := by simpa [ht.powered, Stage.isPowered] using hyes
          refine follows_within (.ite (.pure _) (canApplyInit_sameStage _)) ?_ ht
          have hcode {r : Int} (hr : HalCode r) : p.next (.canSetMode mode) r = some p := by
            simp [Stage.next, hpow, hm, hmap, hr]
          refine .ite (fun _ => .pure (hcode (by decide))) fun _ => ?_
          exact (canApplyInit_code _).mono fun _ => hcode

theorem setFdMode_follows {code : BitVec 32} (arg : BitVec 32)
    (hcode : code &&& controlMsk = setFdModeCode) (hopen : p ≠ .closed) (hc : c.At p) :
    Prog.Conc Interrupts (fun _ => True) (setFdMode arg env) (Follows p (.canControl code arg)) c := by
  unfold setFdMode
  split
  next harg => exact follows_pure (by simp [Stage.next, hopen, hcode, harg]) hc
  next harg =>
    refine .seq (within (onCtx_sameStage (fun _ => rfl) fun _ => rfl) (.any _) hc) fun _ s _ hs => ?_
    refine .get_bind fun t ht => ⟨trivial, ?_⟩
    have ht := hs.2.traffic (interrupts_traffic ht)
    split
    next hpow =>
      have hp : p = .powered := by simpa [Stage.isPowered] using ht.powered.symm.trans hpow
      refine follows_within (.bind .get fun _ => canApplyInit_sameStage _) ?_ ht
      refine .bind (.any _) fun _ _ => (canApplyInit_code _).mono fun r hr => ?_
      simp [Stage.next, hp, hcode, harg, hr]
    next hpow =>
      have hready : p = .ready :=
        Stage.eq_ready hopen (by simpa [ht.powered, Stage.isPowered] using hpow)
      exact follows_pure (by simp [Stage.next, hready, hcode, harg]) ht

theorem abortMessageSend_follows {code : BitVec 32} (arg : BitVec 32)
    (hcode : code &&& controlMsk = abortMessageSendCode) (hopen : p ≠ .closed) (hc : c.At p) :
    Prog.Conc Interrupts (fun _ => True) (abortMessageSend arg)
      (Follows p (.canControl code arg)) c := by
  have hother : abortMessageSendCode ≠ setFdModeCode := by decide
  refine .get_bind fun t ht => ⟨trivial, ?_⟩
  have ht := hc.traffic (interrupts_traffic ht)
  split
  next hno =>
    have hready : p = .ready :=
      Stage.eq_ready hopen (by simpa [ht.powered, Stage.isPowered] using hno)
    exact follows_pure (by simp [Stage.next, hready, hcode, hother]) ht
  next hyes =>
    have hp : p = .powered := by simpa [ht.powered, Stage.isPowered] using hyes
    split
    next harg => exact follows_pure (by simp [Stage.next, hp, hcode, hother, harg]) ht
    next harg =>
      refine follows_within ?_ (.bind txAbort_answers fun st hst => .pure ?_) ht
      · exact .bind (txAbort_moves.mono fun _ _ h => h.sameStage) fun _ => .pure _
      · obtain rfl | rfl := hst <;> simp [Stage.next, hp, hcode, hother, harg, canHalToArm]

theorem canControl_follows (code arg : BitVec 32) (hc : c.At p) :
    Prog.Conc Interrupts (fun _ => True) (canControl code arg env)
      (Follows p (.canControl code arg)) c := by
  refine .get_bind fun t ht => ⟨trivial, ?_⟩
  have ht := hc.traffic (interrupts_traffic ht)
  split
  next hno =>
    have hp : p = .closed := by simpa [ht.initialized, Stage.isOpen] using hno
    exact follows_pure (by simp [Stage.next, hp]) (hp ▸ ht)
  next hyes =>
    have hp : p ≠ .closed := by simpa [ht.initialized, Stage.isOpen] using hyes
    split
    next hcode => exact setFdMode_follows arg hcode hp ht
    next hfd =>
      split
      next hcode => exact abortMessageSend_follows arg hcode hp ht
      next habort => exact follows_pure (by simp [Stage.next, hp, hfd, habort]) ht

theorem canMessageSend_follows (objIdx : BitVec 32) (info : Option MsgInfo)
    (data : Option (Nat → BitVec 8)) (size : Nat) (hc : c.At p) :
    Prog.Conc Interrupts (fun _ => True) (canMessageSend objIdx info data size env)
      (Follows p (.canMessageSend objIdx info data size)) c := by
  refine .get_bind fun t ht => ⟨trivial, ?_⟩
  have ht := hc.traffic (interrupts_traffic ht)
  split
  next hno =>
    have hp : p ≠ .powered := by simpa [ht.powered, Stage.isPowered] using hno
    exact follows_pure (by simp [Stage.next, hp]) ht
  next hyes =>
    have hp : p = .powered := by simpa [ht.powered, Stage.isPowered] using hyes
    subst hp
    cases info with
    | none => exact follows_pure (q := .powered) (by simp [Stage.next]) ht
    | some info =>
      dsimp only
      split
      next hbad =>
        refine follows_pure (q := .powered) ?_ ht
        exact (if_pos hbad).trans (if_pos rfl)
      next hgood =>
        split
        next hrtr =>
          refine follows_pure (q := .powered) ?_ ht
          exact (if_neg hgood).trans ((if_pos hrtr).trans (if_pos rfl))
        next hrtr =>
          have hresult {r : Int} (hr : r = size ∨ r = armDriverErrorUnsupported ∧
              (info.edl ∨ size > 8) ∨ HalCode r ∧ r ≠ armDriverOk) :
              Stage.powered.next (.canMessageSend objIdx (some info) data size) r = some .powered := by
            exact (if_neg hgood).trans ((if_neg hrtr).trans (if_pos hr))
          refine follows_within (.bind .get fun _ => .ite (.pure _) ?_) ?_ ht
          · exact .bind ((transmit_moves _ _).mono fun _ _ h => h.sameStage) fun _ =>
              .ite (.pure _) (.pure _)
          · refine .bind (.any _) fun _ _ => .ite (fun hfd => ?_) fun _ => ?_
            · exact .pure (hresult (.inr (.inl ⟨rfl, hfd.2⟩)))
            refine .bind (transmit_answers _ _) fun st hans => .ite (fun hst => .pure ?_) fun _ => ?_
            · refine hresult (.inr (.inr ⟨hans.code, ?_⟩))
              obtain rfl | rfl | rfl | rfl | rfl := hans <;> first | exact absurd rfl hst | decide
            · exact .pure (hresult (.inl rfl))

theorem canMessageRead_follows (args : ReadArgs) (hc : c.At p) :
    Prog.Conc Interrupts (fun _ => True) (do let r ← canMessageRead args; return r.code)
      (Follows p (.canMessageRead args)) c := by
  refine .seq (Q := fun r d => Follows p (.canMessageRead args) r.code d) ?_ fun r s _ hs => ?_
  · refine .get_bind fun t ht => ⟨trivial, ?_⟩
    have ht := hc.traffic (interrupts_traffic ht)
    have hreads {P : ReadResult → Prop} {m : M ReadResult} (hm : m.Moves Traffic) (hr : m.Returns P)
        (hP : ∀ r, P r → p.next (.canMessageRead args) r.code = some p) :
        Prog.Conc Interrupts (fun _ => True) m
          (fun r d => Follows p (.canMessageRead args) r.code d) t :=
      (within (hm.mono fun _ _ h => h.sameStage) hr ht).mono (fun _ => id)
        fun r d _ h => ⟨p, hP r h.1, h.2⟩
    split
    next hno =>
      have hp : p ≠ .powered := by simpa [ht.powered, Stage.isPowered] using hno
      refine hreads (.pure _) (.pure (P := fun r => r.code = armDriverError) rfl) fun r hr => ?_
      simp [Stage.next, hp, hr]
    next hyes =>
      have hp : p = .powered := by simpa [ht.powered, Stage.isPowered] using hyes
      split
      next hbad =>
        refine hreads (.pure _) (.pure (P := fun r => r.code = armDriverErrorParameter) rfl) fun r hr => ?_
        simp [Stage.next, hp, hr, hbad]
      next hgood =>
        refine hreads (P := fun r => r.code = armDriverError ∨ 0 ≤ r.code ∧ r.code ≤ args.size) ?_ ?_ ?_
        · refine .bind .get fun _ => .bind .get fun _ => .ite (.pure _) (.bind .get fun _ => ?_)
          exact .bind (.modify fun _ => ReceiveSide.traffic ⟨_, _, _, rfl⟩) fun _ => .pure _
        · refine .bind (.any _) fun _ _ => .bind (.any _) fun _ _ => .ite (fun _ => .pure (.inl rfl)) ?_
          refine fun _ => .bind (.any _) fun x _ => .bind (.any _) fun _ _ => .pure (.inr ⟨?_, ?_⟩)
          · exact Int.natCast_nonneg _
          · refine Int.ofNat_le.mpr ?_
            split <;> omega
        · exact fun r hr => by simp [Stage.next, hp, hgood, hr]
  · obtain ⟨q, hq, hs⟩ := hs
    exact follows_pure hq hs

theorem call_follows (env : Env) (call : Call) (hc : c.At p) :
    Prog.Conc Interrupts (fun _ => True) (call.run env) (Follows p call) c := by
  cases call with
  | canInitialize cbUnit cbObject => exact canInitialize_follows cbUnit cbObject hc
  | canUnInitialize => exact canUnInitialize_follows hc
  | canPowerControl state => exact canPowerControl_follows state hc
  | canSetBitrate select bitrate bitSegments => exact canSetBitrate_follows select bitrate bitSegments hc
  | canSetMode mode => exact canSetMode_follows mode hc
  | canControl code arg => exact canControl_follows code arg hc
  | canMessageSend objIdx info data size => exact canMessageSend_follows objIdx info data size hc
  | canMessageRead args => exact canMessageRead_follows args hc

end Cmsis

/-- Every run, however interrupted, is one of the automaton: its calls return what their stage
allows, and the stage that the results lead to is the one that the instance is in. -/
theorem stage_observable {dev : Device} {b : Bench}
    (h : AppRun (.idle dev.boot) b) (hrest : b.rest = none) :
    ∃ p, Stage.run .closed (b.done.map fun q => (q.1.2, q.2)) = some p ∧ b.state.At p := by
  refine h.between (J := fun l c =>
    ∃ p, Stage.run .closed (l.map fun q => (q.1.2, q.2)) = some p ∧ c.At p) ?_ ?_ ?_ hrest
  · exact ⟨.closed, rfl, rfl, rfl⟩
  · rintro l ⟨env, call⟩ c ⟨p, hp, hc⟩
    refine (call_follows env call hc).mono (fun _ => id) fun r d _ ⟨q, hq, hd⟩ => ⟨q, ?_, hd⟩
    rw [Stage.run] at hp ⊢
    rw [List.map_append, List.foldlM_append, hp]
    simpa using hq
  · rintro l c d ⟨p, hp, hc⟩ ht
    exact ⟨p, hp, hc.traffic ht.traffic⟩

theorem stage_observable_example :
    ∃ b, AppRun (.idle exampleDevice.boot) b ∧ b.done.length = 3 ∧
      ∃ p, Stage.run .closed (b.done.map fun q => (q.1.2, q.2)) = some p ∧ b.state.At p := by
  obtain ⟨b, hb, hrest, hdone, -⟩ := run_readEarly
  exact ⟨b, hb, hdone, stage_observable hb hrest⟩

end CanfdDriver
