import CanfdDriver.Hal.Arming

namespace CanfdDriver

open Lib NoraCanfd

namespace NoraCanfd

structure RateRequest : Type where
  canClkHz : BitVec 32
  nominalBps : BitVec 32
  dataBps : BitVec 32
  samplePct : BitVec 8
  toConfig : Poll
  toMode : Poll

namespace RateRequest

def run (q : RateRequest) : M Status :=
  setBitrate q.canClkHz q.nominalBps q.dataBps q.samplePct q.toConfig q.toMode

def timing (q : RateRequest) : Except Stop (Option BitTiming) :=
  calcBitTiming q.canClkHz q.nominalBps q.dataBps (effectiveSamplePct q.samplePct)

def Refused (q : RateRequest) (c : Chan) : Prop :=
  (q.canClkHz = 0 ∨ q.nominalBps = 0 ∨ q.dataBps = 0) ∨ c.present = false ∨
    c.node.initialized = false ∨ q.timing = .ok none

def Finds (q : RateRequest) (c : Chan) (t : BitTiming) : Prop :=
  ¬q.Refused c ∧ q.timing = .ok (some t)

end RateRequest

variable {c d : Chan} {q : RateRequest} {st : Status}

def RequestsMode (c : Chan) : Prop :=
  c.regs .con &&& conReqopMask = (modeToReqop c.mode).setWidth 32 <<< conReqopPos

/-- The controller is as it was, in its operating mode and on its old timing. -/
structure Unretimed (c d : Chan) : Prop where
  nbtcfg : d.regs .nbtcfg = c.regs .nbtcfg
  dbtcfg : d.regs .dbtcfg = c.regs .dbtcfg
  tdc : d.regs .tdc = c.regs .tdc
  reqop : d.regs .con &&& conReqopMask = c.regs .con &&& conReqopMask
  mode : RequestsMode d

def FailsSafe (c : Chan) (q : RateRequest) : Prop :=
  ∀ st d, q.run.exec c = .ok (st, d) → st ≠ .ok → Unretimed c d ∨ isInitialized d = false

def Holds (c : Chan) (t : BitTiming) : Prop :=
  c.regs .nbtcfg = t.nbtcfg ∧ c.regs .dbtcfg = t.dbtcfg ∧ c.regs .tdc = t.tdc

instance (c : Chan) (t : BitTiming) : Decidable (Holds c t) :=
  inferInstanceAs (Decidable (_ ∧ _ ∧ _))

/-- Configuration mode is not denied, and the way back only with the timing in place before. -/
structure Unparked (c : Chan) (q : RateRequest) : Prop where
  config : ∀ t, q.Finds c t → requestOutcome c.node opmodeConfig q.toConfig ≠ .ok .timeout
  mode : ∀ t, q.Finds c t → Granted c.node opmodeConfig q.toConfig →
    requestOutcome c.node (modeToReqop c.mode) q.toMode = .ok .timeout → Holds c t

def Denied (c : Chan) (q : RateRequest) : Prop :=
  q.Refused c ∨ ∃ t, q.Finds c t ∧ Granted c.node opmodeConfig q.toConfig ∧
    requestOutcome c.node (modeToReqop c.mode) q.toMode = .ok .timeout

def UnparkedStep (c : Chan) : HalLabel → Prop
  | .call (.setBitrate canClkHz nominalBps dataBps samplePct toConfig toMode) _ =>
    Unparked c ⟨canClkHz, nominalBps, dataBps, samplePct, toConfig, toMode⟩
  | _ => True

theorem exec_refused (h : q.Refused c) : ∃ st, st ≠ .ok ∧ q.run.exec c = .ok (st, c) := by
  by_cases hz : q.canClkHz = 0 ∨ q.nominalBps = 0 ∨ q.dataBps = 0
  · refine ⟨.invalidArg, by decide, ?_⟩
    simp only [RateRequest.run, setBitrate, if_pos hz, Prog.exec_pure]
  cases hp : c.present with
  | false =>
    refine ⟨.notPresent, by decide, ?_⟩
    simp only [RateRequest.run, setBitrate, if_neg hz, Prog.exec_bind, exec_getRegs, hp,
      Bool.false_eq_true, if_false, ne_eq, reduceCtorEq, not_false_eq_true, if_true, Prog.exec_pure]
  | true =>
    cases hi : c.node.initialized with
    | false =>
      refine ⟨.notInitialized, by decide, ?_⟩
      simp only [RateRequest.run, setBitrate, if_neg hz, Prog.exec_bind, exec_getRegs, hp, if_true,
        ne_eq, not_true_eq_false, if_false, Prog.exec_get, hi, Bool.not_false, Prog.exec_pure]
    | true =>
      obtain hbad | hbad | hbad | ht := h
      · exact absurd hbad hz
      · exact absurd (hbad.symm.trans hp) (by decide)
      · exact absurd (hbad.symm.trans hi) (by decide)
      · refine ⟨.invalidArg, by decide, ?_⟩
        have htime : calcBitTiming q.canClkHz q.nominalBps q.dataBps
          (effectiveSamplePct q.samplePct) = .ok none := ht
        rw [RateRequest.run, exec_setBitrate hz hp hi, htime]

theorem exec_finds {t : BitTiming} (h : q.Finds c t) :
    q.run.exec c = (retime t q.toConfig q.toMode).exec c := by
  obtain ⟨hnot, ht⟩ := h
  have hz : ¬(q.canClkHz = 0 ∨ q.nominalBps = 0 ∨ q.dataBps = 0) := fun h => hnot (.inl h)
  have hp : c.present = true := by simpa using fun h => hnot (.inr (.inl h))
  have hi : c.node.initialized = true := by simpa using fun h => hnot (.inr (.inr (.inl h)))
  have htime : calcBitTiming q.canClkHz q.nominalBps q.dataBps
    (effectiveSamplePct q.samplePct) = .ok (some t) := ht
  rw [RateRequest.run, exec_setBitrate hz hp hi, htime]

theorem rateRequest_cases (h : q.run.exec c = .ok (st, d)) :
    (q.Refused c ∧ d = c) ∨ ∃ t, q.Finds c t ∧ Retime c t q.toConfig q.toMode st d := by
  by_cases hr : q.Refused c
  · obtain ⟨st', -, hexec⟩ := exec_refused hr
    cases hexec.symm.trans h
    exact .inl ⟨hr, rfl⟩
  · refine .inr ?_
    cases setBitrate_outcome h with
    | zero hz => exact absurd (.inl hz) hr
    | absent hp => exact absurd (.inr (.inl hp)) hr
    | notInitialized hn => exact absurd (.inr (.inr (.inl hn))) hr
    | noTiming ht => exact absurd (.inr (.inr (.inr ht))) hr
    | retime _ ht hst => exact ⟨_, ⟨hr, ht⟩, hst⟩

def RateRequest.Fails (q : RateRequest) (c : Chan) : Prop :=
  q.Refused c ∨ ∃ t, q.Finds c t ∧ (requestOutcome c.node opmodeConfig q.toConfig = .ok .timeout ∨
    Granted c.node opmodeConfig q.toConfig ∧
      requestOutcome c.node (modeToReqop c.mode) q.toMode = .ok .timeout)

theorem rateRequest_fails_iff : q.Fails c ↔ ∃ st d, q.run.exec c = .ok (st, d) ∧ st ≠ .ok := by
  constructor
  · rintro (hr | ⟨t, hf, ho | ⟨hc, ho⟩⟩)
    · obtain ⟨st, hne, hexec⟩ := exec_refused hr
      exact ⟨st, c, hexec, hne⟩
    · refine ⟨.timeout, c.writeCon (reqopWrite opmodeConfig), ?_, by decide⟩
      rw [exec_finds hf, exec_retime, ho]
      rfl
    · refine ⟨.timeout, c.retimed t, ?_, by decide⟩
      rw [exec_finds hf, exec_retime, show requestOutcome _ _ _ = _ from hc, ho]
      rfl
  · rintro ⟨st, d, hexec, hne⟩
    rcases rateRequest_cases hexec with ⟨hr, -⟩ | ⟨t, hf, hst⟩
    · exact .inl hr
    · cases hst with
      | configTimeout ho => exact .inr ⟨t, hf, .inl ho⟩
      | modeTimeout hc ho => exact .inr ⟨t, hf, .inr ⟨hc, ho⟩⟩
      | retimed => exact absurd rfl hne

theorem retimed_requestsMode (t : BitTiming) : RequestsMode (c.retimed t) := by
  have hcon : (c.retimed t).regs .con &&& conReqopMask = _ := reqopWrite_and (modeToReqop c.mode) _
  rw [RequestsMode, hcon, modeToReqop_field, Chan.retimed_mode]

theorem live_requestsMode (cfg : Config) (t : BitTiming) : RequestsMode (c.live cfg t) := by
  have hcon : (c.live cfg t).regs .con = (reqopWrite (modeToReqop cfg.mode)).apply
      ((configureCon cfg.brs).apply ((c.entered cfg).regs .con)) := by
    rw [MaskedWrite.apply_apply]
    rfl
  rw [RequestsMode, hcon, reqopWrite_and, modeToReqop_field]
  rfl

theorem config_not_requestsMode (hm : c.mode ≠ .none) :
    ¬RequestsMode (c.writeCon (reqopWrite opmodeConfig)) := by
  have hcon : (c.writeCon (reqopWrite opmodeConfig)).regs .con &&& conReqopMask = _ :=
    reqopWrite_and opmodeConfig _
  rw [RequestsMode, hcon]
  change _ ≠ (modeToReqop c.mode).setWidth 32 <<< conReqopPos
  cases h : c.mode <;> first | exact absurd h hm | decide

theorem unretimed_refl (h : RequestsMode c) : Unretimed c c := ⟨rfl, rfl, rfl, rfl, h⟩

theorem unretimed_retimed (c : Chan) (t : BitTiming) :
    Unretimed c (c.retimed t) ↔ Holds c t ∧ RequestsMode c := by
  have hreq : RequestsMode (c.retimed t) := retimed_requestsMode t
  have hcode := hreq
  rw [RequestsMode, Chan.retimed_mode] at hcode
  constructor
  · intro h
    exact ⟨⟨h.nbtcfg.symm, h.dbtcfg.symm, h.tdc.symm⟩, h.reqop.symm.trans hcode⟩
  · rintro ⟨⟨hn, hd, ht⟩, hmode⟩
    exact ⟨hn.symm, hd.symm, ht.symm, hcode.trans hmode.symm, hreq⟩

theorem failsSafe_iff (hm : c.mode ≠ .none) :
    FailsSafe c q ↔ Unparked c q ∧ (Denied c q → RequestsMode c) := by
  constructor
  · intro h
    have hkept {st : Status} {d : Chan} (hexec : q.run.exec c = .ok (st, d)) (hne : st ≠ .ok)
        (hd : d.mode = c.mode) : Unretimed c d := by
      rcases h st d hexec hne with hkeep | hdown
      · exact hkeep
      · exact absurd (hd ▸ of_decide_eq_false hdown) (not_not_intro hm)
    have hdenied {t : BitTiming} (hf : q.Finds c t)
        (hc : Granted c.node opmodeConfig q.toConfig)
        (ho : requestOutcome c.node (modeToReqop c.mode) q.toMode = .ok .timeout) :
        Holds c t ∧ RequestsMode c := by
      have hexec : q.run.exec c = .ok (.timeout, c.retimed t) := by
        rw [exec_finds hf, exec_retime, show requestOutcome _ _ _ = _ from hc, ho]
        rfl
      have hkeep : Unretimed c (c.retimed t) := hkept hexec (by decide) (Chan.retimed_mode c t)
      exact (unretimed_retimed c t).mp hkeep
    refine ⟨⟨fun t hf ho => ?_, fun t hf hc ho => (hdenied hf hc ho).1⟩, ?_⟩
    · have hexec : q.run.exec c = .ok (.timeout, c.writeCon (reqopWrite opmodeConfig)) := by
        rw [exec_finds hf, exec_retime, ho]
        rfl
      exact config_not_requestsMode hm (hkept hexec (by decide) rfl).mode
    · rintro (hr | ⟨t, hf, hc, ho⟩)
      · obtain ⟨st, hne, hexec⟩ := exec_refused hr
        exact (hkept hexec hne rfl).mode
      · exact (hdenied hf hc ho).2
  · rintro ⟨hpark, hmode⟩ st d hexec hne
    rcases rateRequest_cases hexec with ⟨hr, rfl⟩ | ⟨t, hf, hst⟩
    · exact .inl (unretimed_refl (hmode (.inl hr)))
    · cases hst with
      | configTimeout ho => exact absurd ho (hpark.config t hf)
      | modeTimeout hc ho =>
        exact .inl ((unretimed_retimed c t).mpr ⟨hpark.mode t hf hc ho, hmode (.inr ⟨t, hf, hc, ho⟩)⟩)
      | retimed => exact absurd rfl hne

def Steady (c d : Chan) : Prop := d.regs .con = c.regs .con ∧ d.mode = c.mode

instance : Std.Refl Steady := ⟨fun _ => ⟨rfl, rfl⟩⟩

instance : IsTrans Chan Steady := ⟨fun _ _ _ h h' => ⟨h'.1.trans h.1, h'.2.trans h.2⟩⟩

theorem setReg_steady {r : Reg} (hr : Reg.con ≠ r) (v : BitVec 32) : Steady c (c.setReg r v) :=
  ⟨Function.update_of_ne hr _ _, rfl⟩

theorem regClear_steady {r : Reg} (hr : Reg.con ≠ r) (m : BitVec 32) : (regClear r m).Moves Steady :=
  .modify fun _ => setReg_steady hr _

theorem regSet_steady {r : Reg} (hr : Reg.con ≠ r) (m : BitVec 32) : (regSet r m).Moves Steady :=
  .modify fun _ => setReg_steady hr _

theorem onTx_steady (f : Line → Line) : (onTx f).Moves Steady := .modify fun _ => ⟨rfl, rfl⟩

theorem setTxBusy_steady (b : Bool) : (setTxBusy b).Moves Steady := .modify fun _ => ⟨rfl, rfl⟩

theorem writePayload_steady (obj : BitVec 32) (f : Frame) (n : Nat) :
    (writePayload obj f n).Moves Steady := by
  induction n with
  | zero => exact .pure _
  | succ n ih => exact .bind ih fun _ => .modify fun _ => ⟨rfl, rfl⟩

theorem transmit_steady (frame : Option Frame) (room : Poll) :
    (transmit frame room).Moves Steady := by
  cases frame with
  | none => exact .pure _
  | some f =>
    refine .ite (.pure _) (.ite (.pure _) (.bind .get fun _ => .ite (.pure _) ?_))
    refine .bind (waitFlag_reads _ _) fun _ => .ite (.pure _) (.bind .get fun c => ?_)
    refine .bind (.modify fun _ => ⟨rfl, rfl⟩) fun _ => .bind (.modify fun _ => ⟨rfl, rfl⟩) fun _ => ?_
    refine .bind (writePayload_steady _ _ _) fun _ => .bind (.modify fun _ => ⟨rfl, rfl⟩) fun _ => ?_
    refine .bind (.modify fun c => ?_) fun _ => .pure _
    exact setReg_steady (r := .txqcon) (by decide) (c.regs .txqcon ||| fifoconTxreq)

theorem receive_steady (frame : Option Frame) (p : Poll) (arriving : Obj) :
    (receive frame p arriving).Moves Steady :=
  receiveFrom_moves (fun _ _ => ⟨rfl, rfl⟩) (fun _ => ⟨rfl, rfl⟩) frame p arriving

theorem txDisarm_steady : txDisarm.Moves Steady :=
  .bind (regClear_steady (by decide) _) fun _ => .bind (regClear_steady (by decide) _) fun _ =>
    .bind (.bind (onTx_steady _) fun _ => onTx_steady _) fun _ => setTxBusy_steady _

theorem txStart_steady (frame : Option Frame) (room : Poll) : (txStart frame room).Moves Steady := by
  refine .bind getRegs_reads fun _ => .ite (.pure _) (.bind .get fun _ => .ite (.pure _) ?_)
  refine .bind (transmit_steady _ _) fun _ => .ite (.pure _) (.bind (setTxBusy_steady _) fun _ => ?_)
  refine .bind (regSet_steady (by decide) _) fun _ => .bind (regSet_steady (by decide) _) fun _ => ?_
  refine .bind ?_ fun _ => .pure _
  exact .bind (onTx_steady _) fun _ => .bind .get fun _ => .bind (onTx_steady _) fun _ => onTx_steady _

theorem irqDecide_steady : irqDecide.Moves Steady := by
  refine .bind getRegs_reads fun _ => .ite (.pure _) (.bind .get fun _ => ?_)
  exact .bind (.ite (regClear_steady (by decide) _) (.pure _)) fun _ => .bind .get fun _ => .pure _

theorem irqReport_steady (x : Option (BitVec 32 × Bool)) : (irqReport x).Moves Steady := by
  cases x with
  | none => exact .pure _
  | some x =>
    refine .bind (.ite txDisarm_steady (.pure _)) fun _ => .bind (regClear_steady (by decide) _) ?_
    refine fun _ => .bind .get fun _ => .bind .get fun c => ?_
    cases c.isr.cb with
    | none => exact .pure _
    | some f => exact .ite (.pure _) (.pure _)

theorem irqEvents_steady : irqEvents.Moves Steady := irqDecide_steady.bind irqReport_steady

theorem isrEnable_steady (priority : BitVec 8) : (isrEnable priority).Yields Steady := by
  intro c st d h
  cases hp : c.present with
  | false =>
    obtain ⟨-, rfl⟩ := isrEnable_absent hp h
    exact ⟨rfl, rfl⟩
  | true =>
    rw [exec_isrEnable priority hp] at h
    split at h
    next =>
      cases h
      exact ⟨rfl, rfl⟩
    next =>
      split at h
      all_goals
        cases h
        exact ⟨rfl, rfl⟩

theorem isrDisable_steady : isrDisable.Yields Steady := by
  intro c st d h
  cases hp : c.present with
  | false =>
    rw [isrDisable_absent hp] at h
    cases h
    exact ⟨rfl, rfl⟩
  | true =>
    rw [exec_isrDisable hp] at h
    cases h
    exact ⟨rfl, rfl⟩

def LiveRequests (c : Chan) : Prop := c.mode ≠ .none → RequestsMode c

theorem LiveRequests.steady (h : LiveRequests c) (hs : Steady c d) : LiveRequests d := by
  intro hm
  have hc := h (hs.2 ▸ hm)
  rw [RequestsMode, hs.1, hs.2]
  exact hc

theorem LiveRequests.call {call : HalCall} (h : LiveRequests c)
    (hl : UnparkedStep c (.call call st)) (hrun : call.run.exec c = .ok (st, d)) :
    LiveRequests d := by
  cases call with
  | init config toConfig toMode =>
    rcases init_cases hrun with ⟨-, rfl⟩ | ⟨cfg, t, -, -, -, -, hup⟩
    · exact h
    · cases hup with
      | configTimeout | modeTimeout => exact fun hm => absurd rfl hm
      | live => exact fun _ => live_requestsMode cfg t
  | deinit toOff =>
    cases hp : c.present with
    | false =>
      rw [HalCall.run, exec_deinit_absent toOff hp] at hrun
      cases hrun
      exact h
    | true =>
      rw [HalCall.run, exec_deinit toOff hp] at hrun
      split at hrun
      next =>
        cases hrun
        exact h
      next =>
        split at hrun
        next => cases hrun
        next =>
          cases hrun
          exact fun hm => absurd rfl hm
  | setBitrate canClkHz nominalBps dataBps samplePct toConfig toMode =>
    rcases rateRequest_cases (q := ⟨canClkHz, nominalBps, dataBps, samplePct, toConfig, toMode⟩)
      hrun with ⟨-, rfl⟩ | ⟨t, hf, hst⟩
    · exact h
    · cases hst with
      -- The exit that leaves REQOP at CONFIG: the condition on the step excludes it.
      | configTimeout ho => exact absurd ho (hl.config t hf)
      | modeTimeout | retimed => exact fun _ => retimed_requestsMode t
  | transmit frame room => exact h.steady ((transmit_steady frame room).exec hrun)
  | rxAvailable =>
    exact h.steady ((Prog.Moves.bind (R := Steady) rxAvailable_reads fun _ => .pure _).exec hrun)
  | receive frame p arriving =>
    exact h.steady ((Prog.Moves.bind (receive_steady frame p arriving) fun _ => .pure _).exec hrun)
  | isrSetCallback callback userData =>
    rw [HalCall.run, exec_isrSetCallback] at hrun
    cases hrun
    exact h
  | isrEnable priority => exact h.steady (isrEnable_steady priority _ _ _ hrun)
  | isrDisable => exact h.steady (isrDisable_steady _ _ _ hrun)
  | txStart frame room => exact h.steady ((txStart_steady frame room).exec hrun)
  | txAbort =>
    have hmoves : txAbort.Moves Steady :=
      .bind getRegs_reads fun _ => .ite (.pure _) (.bind txDisarm_steady fun _ => .pure _)
    exact h.steady (hmoves.exec hrun)
  | getStatus =>
    have hmoves : getStatus.Moves Steady :=
      .bind getRegs_reads fun _ => .ite (.pure _) (.bind .get fun _ => .bind .get fun _ => .pure _)
    exact h.steady ((Prog.Moves.bind hmoves fun _ => .pure _).exec hrun)
  | clearRxOverflow =>
    have hmoves : clearRxOverflow.Moves Steady :=
      .bind getRegs_reads fun _ => .ite (.pure _) (.bind (regClear_steady (by decide) _) fun _ => .pure _)
    exact h.steady (hmoves.exec hrun)

theorem LiveRequests.step {l : HalLabel} (h : LiveRequests c) (hl : UnparkedStep c l)
    (hst : HalStep c l d) : LiveRequests d := by
  cases hst with
  | call hrun => exact h.call hl hrun
  | events hrun => exact h.steady (irqEvents_steady.exec hrun)
  | leave hrun =>
    have hmoves : irqLineClear.Moves Steady :=
      .bind (.modify fun _ => ⟨rfl, rfl⟩) fun _ => .bind (onTx_steady _) fun _ =>
        .modify fun _ => ⟨rfl, rfl⟩
    exact h.steady (hmoves.exec hrun)
  | @hardware hw =>
    intro hm
    have hmask : conReqopMask &&& hwBits .con = 0 := by decide
    have hcon : (c.sense hw).regs .con &&& conReqopMask = c.regs .con &&& conReqopMask :=
      MaskedWrite.apply_and_of_disjoint hmask _
    rw [RequestsMode, hcon]
    exact h hm

/-- A failed rate change is safe exactly when it neither stays parked in configuration mode nor
leaves a new timing behind, and finds the operating mode requested; and the operating mode is
requested as long as no rate change has stayed parked. -/
theorem setBitrate_fails_safe {start : Chan} (h0 : Reset start) :
    (∀ c q, isInitialized c = true →
      (FailsSafe c q ↔ Unparked c q ∧ (Denied c q → RequestsMode c))) ∧
    ∀ c, HalReach UnparkedStep start c → isInitialized c = true →
      RequestsMode c ∧ ∀ q, FailsSafe c q ↔ Unparked c q := by
  constructor
  · exact fun c q hi => failsSafe_iff (of_decide_eq_true hi)
  · intro c h hi
    have hmode : RequestsMode c := by
      refine h.invariant (I := LiveRequests) ?_ (fun _ _ _ => LiveRequests.step) (of_decide_eq_true hi)
      exact fun hm => absurd h0.mode hm
    refine ⟨hmode, fun q => ?_⟩
    rw [failsSafe_iff (of_decide_eq_true hi)]
    exact and_iff_left fun _ => hmode

def changeRate (nominalBps : BitVec 32) (toConfig toMode : Poll) : RateRequest where
  canClkHz := 20000000
  nominalBps := nominalBps
  dataBps := 2000000
  samplePct := 80
  toConfig := toConfig
  toMode := toMode

def denies : Poll := ⟨0, [⟨0, 10⟩]⟩

def bringUpAlone : List HalCall :=
  [.init (some exampleConfig) (shows opmodeConfig) (shows opmodeNormalFd)]

def HalCall.setsBitrate : HalCall → Bool
  | .setBitrate _ _ _ _ _ _ => true
  | _ => false

theorem setBitrate_fails_safe_example :
    ∃ c, HalReach UnparkedStep resetChan c ∧ isInitialized c = true ∧ RequestsMode c ∧
      (changeRate 7 denies denies).Refused c ∧ FailsSafe c (changeRate 7 denies denies) := by
  have hrun : ∃ c, HalReach UnparkedStep resetChan c ∧ isInitialized c = true := by
    refine Reach.of_play (fireCall_step (fun _ call => !call.setsBitrate) ?_) bringUpAlone _
      (by decide +kernel)
    intro c call st h
    cases call <;> trivial
  obtain ⟨c, hc, hi⟩ := hrun
  obtain ⟨hmode, hsafe⟩ := (setBitrate_fails_safe resetChan_reset).2 c hc hi
  have ht : (changeRate 7 denies denies).timing = .ok none := by decide +kernel
  have hfinds (t : BitTiming) (h : (changeRate 7 denies denies).Finds c t) : False := by
    cases ht.symm.trans h.2
  exact ⟨c, hc, hi, hmode, .inr (.inr (.inr ht)), (hsafe _).mpr
    ⟨fun t h => (hfinds t h).elim, fun t h => (hfinds t h).elim⟩⟩

/-- Configuration mode is not shown in time: it stays requested, and the instance counts as
initialized. -/
theorem setBitrate_parks :
    ∃ c, HalReach (fun _ _ => True) resetChan c ∧ isInitialized c = true ∧
      ¬FailsSafe c (changeRate 250000 denies denies) := by
  have hrun : ∃ c, HalReach (fun _ _ => True) resetChan c ∧ (isInitialized c &&
      (changeRate 250000 denies denies).run.ends c fun st d => isInitialized d &&
        decide (st ≠ .ok ∧ d.regs .con &&& conReqopMask ≠ c.regs .con &&& conReqopMask)) = true :=
    Reach.of_play (fireCall_step (fun _ _ => true) fun _ _ _ _ => trivial) bringUpAlone _
      (by decide +kernel)
  obtain ⟨c, hc, hp⟩ := hrun
  rw [Bool.and_eq_true, Prog.ends_iff] at hp
  obtain ⟨hi, st, d, hexec, hbad⟩ := hp
  rw [Bool.and_eq_true, decide_eq_true_eq] at hbad
  obtain ⟨hinit, hst, hreqop⟩ := hbad
  refine ⟨c, hc, hi, fun h => ?_⟩
  rcases h _ d hexec hst with hkeep | hdown
  · exact hreqop hkeep.reqop
  · exact Bool.false_ne_true (hdown.symm.trans hinit)

end NoraCanfd

end CanfdDriver
