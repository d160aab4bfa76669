import CanfdDriver.Cmsis.Reader
import CanfdDriver.Hal.Events
import CanfdDriver.Lib.Thread

/-! The interrupts that the module requests: a level-sensitive request that the
handler leaves standing brings it back at once. -/

namespace CanfdDriver

open Lib NoraCanfd Cmsis

namespace Chan

/-! ### Requests -/

def RxRequest (c : Chan) : Prop :=
  c.regs .int &&& intRxie ≠ 0 ∧ c.regs .fifocon1 &&& fifoconTfnrfnie ≠ 0 ∧ c.rxFifo ≠ []

def OverflowRequest (c : Chan) : Prop :=
  c.regs .int &&& intRxovie ≠ 0 ∧ c.regs .fifocon1 &&& fifoconRxovie ≠ 0 ∧
    c.regs .fifosta1 &&& fifostaRxovif ≠ 0

def TxRequest (c : Chan) : Prop :=
  c.regs .int &&& intTxie ≠ 0 ∧ c.regs .txqcon &&& txqconTxqeie ≠ 0 ∧
    c.regs .txqsta &&& txqstaTxqeif ≠ 0

def ErrorRequest (c : Chan) : Prop :=
  c.regs .int &&& intCerrie ≠ 0 ∧ c.regs .int &&& intCerrif ≠ 0 ∨
    c.regs .int &&& intIvmie ≠ 0 ∧ c.regs .int &&& intIvmif ≠ 0

def Requests (c : Chan) : Prop :=
  c.RxRequest ∨ c.OverflowRequest ∨ c.TxRequest ∨ c.ErrorRequest

/-- The roll-up flags show the events behind them that are enabled. -/
structure RollsUp (c : Chan) : Prop where
  rx : c.regs .int &&& intRxif ≠ 0 ↔ c.regs .fifocon1 &&& fifoconTfnrfnie ≠ 0 ∧ c.rxFifo ≠ []
  overflow : c.regs .int &&& intRxovif ≠ 0 ↔
    c.regs .fifocon1 &&& fifoconRxovie ≠ 0 ∧ c.regs .fifosta1 &&& fifostaRxovif ≠ 0
  tx : c.regs .int &&& intTxif ≠ 0 ↔
    c.regs .txqcon &&& txqconTxqeie ≠ 0 ∧ c.regs .txqsta &&& txqstaTxqeif ≠ 0

/-- A receive event is drained by the wrapper. -/
structure Answers (c : Chan) : Prop where
  initialized : c.node.initialized = true
  cb : c.isr.cb = some .canHalEvent
  ud : c.isr.ud = some .ctx

def Handles (c : Chan) : Prop := c.regs .int &&& intRxif ≠ 0 ∧ c.Answers

end Chan

/-! ### What the handler leaves standing -/

namespace Cmsis

variable {c d : Chan} {app : App} {f : Frame}

theorem acked_fifo (c : Chan) : c.acked.rxFifo = c.rxFifo := by
  simp only [Chan.acked, Chan.noted]
  split <;> split <;> rfl

theorem acked_node (c : Chan) : c.acked.node = c.node := by
  simp only [Chan.acked, Chan.noted]
  split <;> split <;> rfl

theorem events_rx (c : Chan) : c.events &&& eventRxAvailable ≠ 0 ↔ c.regs .int &&& intRxif ≠ 0 := by
  have hrx := evt_rx (c.regs .int &&& intRxif ≠ 0) (c.regs .int &&& intRxovif ≠ 0) (TxDone c)
    (c.regs .int &&& intCerrif ≠ 0) (c.regs .int &&& intIvmif ≠ 0) (c.regs .trec &&& trecTxbo ≠ 0)
  exact hrx

theorem report_fifo {s t : Chan} (hs : s.rxFifo = c.rxFifo) (hnode : s.node = c.node)
    (h : (match c.report with
      | some r => eventCallback app f r.callback r.events r.userData
      | none => pure ()).exec s = .ok ((), t)) :
    (c.Handles → t.rxFifo = []) ∧ (¬c.Handles → t.rxFifo = c.rxFifo) := by
  by_cases hev : c.events ≠ 0
  · cases hcb : c.isr.cb with
    | none =>
      rw [Chan.report, hcb] at h
      cases h
      exact ⟨fun hd => absurd (hcb.symm.trans hd.2.cb) (by simp), fun _ => hs⟩
    | some g =>
      rw [Chan.report, hcb] at h
      simp only [if_pos hev] at h
      -- A callback of the application's own leaves the FIFO as it is.
      cases g with
      | application =>
        cases h
        exact ⟨fun hd => absurd (hcb.symm.trans hd.2.cb) (by simp), fun _ => hs⟩
      | canHalEvent =>
        cases hud : c.isr.ud with
        | none =>
          rw [hud] at h
          cases h
          exact ⟨fun hd => absurd (hud.symm.trans hd.2.ud) (by simp), fun _ => hs⟩
        | some ud =>
          rw [hud] at h
          have hfifo := canHalEvent_fifo h
          rw [hnode] at hfifo
          refine ⟨fun hd => ?_, fun hd => ?_⟩
          · exact hfifo.trans (if_pos ⟨(events_rx c).mpr hd.1, hd.2.initialized⟩)
          · refine hfifo.trans ((if_neg fun hx => hd ⟨(events_rx c).mp hx.1, hx.2, hcb, hud⟩).trans hs)
  · have hnone : c.report = none := by
      rw [Chan.report]
      cases c.isr.cb with
      | none => rfl
      | some g => exact if_neg hev
    rw [hnone] at h
    cases h
    refine ⟨fun hd => ?_, fun _ => hs⟩
    have hrx := (events_rx c).mpr hd.1
    rw [not_not.mp hev] at hrx
    exact absurd (by decide) hrx

theorem handler_effect (hp : c.present = true) (h : (handler app f).exec c = .ok ((), d)) :
    d.regs = c.acked.regs ∧ (c.Handles → d.rxFifo = []) ∧ (¬c.Handles → d.rxFifo = c.rxFifo) := by
  rw [handler, handlerFrom, irqHandler_eq, Prog.exec_bind_of_ok (exec_irqEvents hp)] at h
  obtain ⟨_, t, ht, hclear⟩ := Prog.exec_bind_eq_ok.mp h
  have hfifo := report_fifo (acked_fifo c) (acked_node c) ht
  have hside : ReceiveSide c.acked t := by
    cases hr : c.report with
    | none =>
      rw [hr] at ht
      cases ht
      exact .refl _
    | some r =>
      rw [hr] at ht
      exact (eventCallback_side _ _ _ _ _).exec ht
  obtain ⟨rx, q, l, rfl⟩ := hside
  cases hclear
  exact ⟨rfl, hfifo⟩

theorem acked_regs {r : Reg} (hi : r ≠ .int) (hs : r ≠ .fifosta1) (ht : r ≠ .txqcon) :
    c.acked.regs r = c.regs r := by
  have htxOff (s : Chan) : s.txOff.regs r = s.regs r := by
    cases r <;> first | contradiction | rfl
  simp only [Chan.acked, Chan.noted, Chan.setReg_regs, Function.update_of_ne hi]
  split <;> split <;> simp only [htxOff, Chan.setReg_regs, Function.update_of_ne hs]

theorem acked_int {b : BitVec 32} (hb : b &&& (intTxie ||| intClrMask) = 0) :
    c.acked.regs .int &&& b = c.regs .int &&& b := by
  have hclr : b &&& intClrMask = 0 := by
    have hand := congrArg (· &&& intClrMask) hb
    simp only [BitVec.and_assoc] at hand
    exact hand.trans (BitVec.zero_and)
  have htxie : b &&& intTxie = 0 := by
    have hand := congrArg (· &&& intTxie) hb
    simp only [BitVec.and_assoc] at hand
    exact hand.trans (BitVec.zero_and)
  have htxOff (s : Chan) : s.txOff.regs .int &&& b = s.regs .int &&& b :=
    MaskedWrite.and_not_and_of_disjoint htxie _
  simp only [Chan.acked, Chan.noted, Chan.setReg_regs, Function.update_self,
    MaskedWrite.and_not_and_of_disjoint hclr]
  split <;> split <;> simp only [htxOff, Chan.setReg_regs, ne_eq, reduceCtorEq, not_false_eq_true,
    Function.update_of_ne]

theorem acked_errors : c.acked.regs .int &&& intClrMask = 0 := by
  simp only [Chan.acked, Chan.noted, Chan.setReg_regs, Function.update_self]
  rw [BitVec.and_assoc, BitVec.not_and_self]
  exact BitVec.and_zero

theorem acked_fifosta (c : Chan) : c.acked.regs .fifosta1 =
    if c.regs .int &&& intRxovif ≠ 0 then c.regs .fifosta1 &&& ~~~fifostaRxovif
    else c.regs .fifosta1 := by
  have htxOff (s : Chan) : s.txOff.regs .fifosta1 = s.regs .fifosta1 := rfl
  simp only [Chan.acked, Chan.noted, Chan.setReg_regs]
  split <;> split <;> simp [htxOff]

theorem acked_txqcon (c : Chan) : c.acked.regs .txqcon =
    if TxDone c then c.regs .txqcon &&& ~~~txqconTxqeie else c.regs .txqcon := by
  have htxOff (s : Chan) : s.txOff.regs .txqcon = s.regs .txqcon &&& ~~~txqconTxqeie := rfl
  simp only [Chan.acked, Chan.noted, Chan.setReg_regs]
  split <;> split <;> simp [htxOff]

/-- With roll-ups that show what they should, a run of the handler leaves only a receive request
standing, and that one just if nobody answers it. -/
theorem handler_requests_iff (hp : c.present = true) (hroll : c.RollsUp)
    (h : (handler app f).exec c = .ok ((), d)) : d.Requests ↔ c.RxRequest ∧ ¬c.Answers := by
  obtain ⟨hregs, hempty, hkeep⟩ := handler_effect hp h
  have hint {b : BitVec 32} (hb : b &&& (intTxie ||| intClrMask) = 0) :
      d.regs .int &&& b = c.regs .int &&& b := by
    rw [hregs]
    exact acked_int hb
  have hrxie : d.regs .int &&& intRxie = c.regs .int &&& intRxie := hint (by decide)
  have hcon : d.regs .fifocon1 = c.regs .fifocon1 := by
    rw [hregs]
    exact acked_regs (by decide) (by decide) (by decide)
  have hcleared (v b : BitVec 32) : v &&& ~~~b &&& b = 0 := by
    rw [BitVec.and_assoc, BitVec.not_and_self]
    exact BitVec.and_zero
  have hoverflow : ¬d.OverflowRequest := by
    rintro ⟨-, hie, hif⟩
    rw [hcon] at hie
    rw [hregs, acked_fifosta] at hif
    split at hif
    next => exact hif (hcleared _ fifostaRxovif)
    -- Not seen by the handler, so its roll-up was off: then it was not pending.
    next hov => exact hov (hroll.overflow.mpr ⟨hie, hif⟩)
  have htx : ¬d.TxRequest := by
    rintro ⟨-, hie, hif⟩
    rw [hregs] at hie hif
    rw [acked_regs (by decide) (by decide) (by decide)] at hif
    rw [acked_txqcon] at hie
    split at hie
    next => exact hie (hcleared _ txqconTxqeie)
    next hdone => exact hdone ⟨hroll.tx.mpr ⟨hie, hif⟩, hif⟩
  have herror : ¬d.ErrorRequest := by
    have hclear {b : BitVec 32} (hb : intClrMask &&& b = b) : d.regs .int &&& b = 0 := by
      rw [hregs, ← hb, ← BitVec.and_assoc, acked_errors, BitVec.ofNat_eq_ofNat, BitVec.zero_and]
    rintro (⟨-, hif⟩ | ⟨-, hif⟩)
    · exact hif (hclear (by decide))
    · exact hif (hclear (by decide))
  have hrx : d.RxRequest ↔ c.RxRequest ∧ ¬c.Answers := by
    rw [Chan.RxRequest, Chan.RxRequest, hrxie, hcon]
    constructor
    · rintro ⟨hie, hcon, hne⟩
      have hn : ¬c.Handles := fun hh => hne (hempty hh)
      rw [hkeep hn] at hne
      exact ⟨⟨hie, hcon, hne⟩, fun ha => hn ⟨hroll.rx.mpr ⟨hcon, hne⟩, ha⟩⟩
    · rintro ⟨⟨hie, hcon, hne⟩, hna⟩
      refine ⟨hie, hcon, ?_⟩
      rw [hkeep fun hh => hna hh.2]
      exact hne
  rw [Chan.Requests, hrx]
  exact ⟨fun hd => (hd.resolve_right fun hd =>
    hd.elim hoverflow fun hd => hd.elim htx herror), .inl⟩

end Cmsis

/-! ### Preempted calls -/

def Alert (c : Chan) : Prop :=
  c.regs .int &&& (intRxie ||| intRxovie) ≠ 0 ∨ c.irq.rx.enable = true ∨ c.irq.gen.enable = true

def Attended (c : Chan) : Prop := c.present = true ∧ c.Answers

/-- What may interrupt is answered, at a priority that the processor takes. -/
structure Answered (c : Chan) : Prop where
  attended : Alert c → Attended c
  rx : c.irq.rx.enable = true → c.irq.rx.priority ≠ 0
  gen : c.irq.gen.enable = true → c.irq.gen.priority ≠ 0

def Masked (c : Chan) : Prop := ¬Alert c

structure SameAnswer (c d : Chan) : Prop where
  present : d.present = c.present
  initialized : d.node.initialized = c.node.initialized
  cb : d.isr.cb = c.isr.cb
  ud : d.isr.ud = c.isr.ud

def Lowers (l m : Line) : Prop := m.enable = true → l.enable = true ∧ l.priority = m.priority

structure NoAlert (c d : Chan) : Prop where
  int : d.regs .int &&& (intRxie ||| intRxovie) ≠ 0 → c.regs .int &&& (intRxie ||| intRxovie) ≠ 0
  rx : Lowers c.irq.rx d.irq.rx
  gen : Lowers c.irq.gen d.irq.gen

structure Quieter (c d : Chan) : Prop extends NoAlert c d, SameAnswer c d

section

variable {c d : Chan} {α : Type} {p : M α}

theorem Lowers.refl (l : Line) : Lowers l l := fun h => ⟨h, rfl⟩

theorem Lowers.of_clearLineFlag {l m : Line} (h : clearLineFlag m = clearLineFlag l) : Lowers l m := by
  have henable := congrArg Line.enable h
  have hpriority := congrArg Line.priority h
  exact fun hm => ⟨henable.symm.trans hm, hpriority.symm⟩

theorem NoAlert.of_eq (hint : d.regs .int = c.regs .int) (hirq : d.irq = c.irq) : NoAlert c d where
  int := by
    rw [hint]
    exact id
  rx := hirq ▸ .refl _
  gen := hirq ▸ .refl _

instance : Std.Refl NoAlert := ⟨fun _ => .of_eq rfl rfl⟩

instance : Std.Refl Quieter := ⟨fun _ => ⟨.of_eq rfl rfl, ⟨rfl, rfl, rfl, rfl⟩⟩⟩

theorem NoAlert.alert (h : NoAlert c d) (hd : Alert d) : Alert c :=
  hd.imp h.int (Or.imp (fun hrx => (h.rx hrx).1) fun hgen => (h.gen hgen).1)

theorem NoAlert.masked (h : NoAlert c d) (hc : Masked c) : Masked d := fun hd => hc (h.alert hd)

theorem SameAnswer.answers (h : SameAnswer c d) (hc : c.Answers) : d.Answers :=
  ⟨h.initialized.trans hc.initialized, h.cb.trans hc.cb, h.ud.trans hc.ud⟩

theorem SameAnswer.attended (h : SameAnswer c d) (hc : Attended c) : Attended d :=
  ⟨h.present.trans hc.1, h.answers hc.2⟩

theorem Quieter.answered (h : Quieter c d) (hc : Answered c) : Answered d where
  attended hd := h.attended (hc.attended (h.alert hd))
  rx hd := (h.rx hd).2 ▸ hc.rx (h.rx hd).1
  gen hd := (h.gen hd).2 ▸ hc.gen (h.gen hd).1

theorem Masked.answered (h : Masked c) : Answered c where
  attended hc := absurd hc h
  rx hc := absurd (.inr (.inl hc)) h
  gen hc := absurd (.inr (.inr hc)) h

theorem Traffic.quieter (h : Traffic c d) : Quieter c d where
  int := by
    rw [h.regs_and (by decide)]
    exact id
  rx := .of_clearLineFlag h.rxLine
  gen := .of_clearLineFlag h.genLine
  present := h.present
  initialized := h.node ▸ rfl
  cb := h.cb
  ud := by
    have hud := congrArg IsrState.ud h.isr
    exact hud

theorem Answered.traffic (hc : Answered c) (h : Traffic c d) : Answered d := h.quieter.answered hc

theorem Masked.traffic (hc : Masked c) (h : Traffic c d) : Masked d := h.quieter.masked hc

namespace Cmsis

theorem noAlert (hp : p.Moves Quieter) : p.Moves NoAlert := hp.mono fun _ _ h => h.toNoAlert

theorem answered_conc (hp : p.Moves Quieter) (hc : Answered c) :
    Prog.Conc Interrupts Answered p (fun _ d => Answered d) c :=
  kept (hp.preserves fun _ _ hs hst => hst.answered hs) (fun _ _ => Answered.traffic) (fun _ => id) hc

theorem quieter_conc {P : Chan → Prop} (hP : ∀ s t, Quieter s t → P s → P t) (hp : p.Moves Quieter)
    (hc : Answered c ∧ P c) :
    Prog.Conc Interrupts Answered p (fun _ d => Answered d ∧ P d) c :=
  kept (hp.preserves fun s t hs hst => ⟨hst.answered hs.1, hP s t hst hs.2⟩)
    (fun s t hs hst => ⟨hs.1.traffic hst, hP s t hst.quieter hs.2⟩) (fun _ hs => hs.1) hc

theorem masked_conc (hp : p.Moves NoAlert) (hc : Masked c) :
    Prog.Conc Interrupts Answered p (fun _ d => Masked d) c :=
  kept (hp.preserves fun _ _ hs hst => hst.masked hs) (fun _ _ => Masked.traffic)
    (fun _ => Masked.answered) hc

end Cmsis

end

namespace NoraCanfd

variable {r : Reg}

theorem setReg_quieter {c : Chan} (hr : Reg.int ≠ r) (v : BitVec 32) :
    Quieter c (c.setReg r v) where
  int := by
    rw [Chan.setReg_regs, Function.update_of_ne hr]
    exact id
  rx := .refl _
  gen := .refl _
  toSameAnswer := ⟨rfl, rfl, rfl, rfl⟩

theorem regSet_quieter (hr : Reg.int ≠ r) (m : BitVec 32) : (regSet r m).Moves Quieter :=
  .modify fun _ => setReg_quieter hr _

theorem regClear_quieter (hr : Reg.int ≠ r) (m : BitVec 32) : (regClear r m).Moves Quieter :=
  .modify fun _ => setReg_quieter hr _

theorem regWrite_quieter (hr : Reg.int ≠ r) (v : BitVec 32) : (regWrite r v).Moves Quieter :=
  .modify fun _ => setReg_quieter hr _

theorem requestMode_quieter (reqop : BitVec 8) (p : Poll) : (requestMode reqop p).Moves Quieter :=
  .bind (.bind .get fun _ => .pure _) fun _ =>
  .bind (.modify fun _ => setReg_quieter (by decide) _) fun _ => pollUntil_reads _ _ _

theorem writeBitTiming_quieter (t : BitTiming) : (writeBitTiming t).Moves Quieter :=
  .bind (regWrite_quieter (by decide) _) fun _ =>
  .bind (regWrite_quieter (by decide) _) fun _ => regWrite_quieter (by decide) _

theorem solved_quieter (x : Except Stop (Option BitTiming)) : (solved x).Moves Quieter := by
  cases x with
  | error e => exact .fail e
  | ok t => exact .pure t

theorem setBitrate_quieter (canClkHz nominalBps dataBps : BitVec 32) (samplePct : BitVec 8)
    (toConfig toMode : Poll) :
    (setBitrate canClkHz nominalBps dataBps samplePct toConfig toMode).Moves Quieter := by
  refine .ite (.pure _) (.bind getRegs_reads fun _ => .ite (.pure _) (.bind .get fun _ => ?_))
  refine .ite (.pure _) (.bind (solved_quieter _) fun t => ?_)
  cases t with
  | none => exact .pure _
  | some t =>
    refine .bind .get fun _ => .bind (requestMode_quieter _ _) fun _ => .ite (.pure _) ?_
    exact .bind (writeBitTiming_quieter t) fun _ => requestMode_quieter _ _

theorem configure_quieter (cfg : Config) (t : BitTiming) : (configure cfg t).Moves Quieter := by
  refine .bind (regClear_quieter (by decide) _) fun _ =>
    .bind (regSet_quieter (by decide) _) fun _ => .bind (.ite ?_ ?_) fun _ => ?_
  · exact regClear_quieter (by decide) _
  · exact regSet_quieter (by decide) _
  refine .bind (regClear_quieter (by decide) _) fun _ =>
    .bind (regSet_quieter (by decide) _) fun _ => .bind (writeBitTiming_quieter t) fun _ => ?_
  refine .bind (regWrite_quieter (by decide) _) fun _ =>
    .bind (regWrite_quieter (by decide) _) fun _ => ?_
  refine .bind (regWrite_quieter (by decide) _) fun _ =>
    .bind (regWrite_quieter (by decide) _) fun _ => ?_
  exact .bind (regWrite_quieter (by decide) _) fun _ => regWrite_quieter (by decide) _

theorem deinit_noAlert (toOff : Poll) : (deinit toOff).Moves NoAlert := by
  refine .bind getRegs_reads fun _ => .ite (.pure _) (.bind .get fun _ => .ite ?_ ?_)
  · exact .bind (.modify fun _ => .of_eq rfl rfl) fun _ => .pure _
  · refine .bind (noAlert (requestMode_quieter _ _)) fun _ => ?_
    refine .bind (noAlert (regClear_quieter (by decide) _)) fun _ => ?_
    refine .bind (.modify fun _ => .of_eq rfl rfl) fun _ => ?_
    exact .bind (.modify fun _ => .of_eq rfl rfl) fun _ => .pure _

theorem rxOff_quieter : (onRx (setLineEnable · false)).Moves Quieter :=
  .modify fun _ => ⟨⟨id, fun h => Bool.noConfusion h, .refl _⟩, ⟨rfl, rfl, rfl, rfl⟩⟩

theorem rxFlag_quieter : (onRx clearLineFlag).Moves Quieter :=
  .modify fun _ => ⟨⟨id, .of_clearLineFlag rfl, .refl _⟩, ⟨rfl, rfl, rfl, rfl⟩⟩

theorem onTx_quieter (f : Line → Line) : (onTx f).Moves Quieter :=
  .modify fun _ => ⟨⟨id, .refl _, .refl _⟩, ⟨rfl, rfl, rfl, rfl⟩⟩

theorem genOff_quieter : (onGen (setLineEnable · false)).Moves Quieter :=
  .modify fun _ => ⟨⟨id, .refl _, fun h => Bool.noConfusion h⟩, ⟨rfl, rfl, rfl, rfl⟩⟩

theorem genFlag_quieter : (onGen clearLineFlag).Moves Quieter :=
  .modify fun _ => ⟨⟨id, .refl _, .of_clearLineFlag rfl⟩, ⟨rfl, rfl, rfl, rfl⟩⟩

theorem setTxBusy_quieter (b : Bool) : (setTxBusy b).Moves Quieter :=
  .modify fun _ => ⟨.of_eq rfl rfl, ⟨rfl, rfl, rfl, rfl⟩⟩

theorem setIsrEnabled_quieter (b : Bool) : (setIsrEnabled b).Moves Quieter :=
  .modify fun _ => ⟨.of_eq rfl rfl, ⟨rfl, rfl, rfl, rfl⟩⟩

theorem isrSetCallback_noAlert (cb : Option EventCallback) (ud : Option UserData) :
    (isrSetCallback cb ud).Moves NoAlert :=
  .bind (.modify fun _ => .of_eq rfl rfl) fun _ =>
  .bind (.modify fun _ => .of_eq rfl rfl) fun _ => .pure _

end NoraCanfd

/-! ### Bring-up and teardown -/

namespace Cmsis

variable {c d : Chan} {env : Env}

theorem pure_conc {α : Type} {I J : Chan → Prop} {Q : α → Chan → Prop} {a : α}
    (hJ : ∀ s t, J s → Traffic s t → J t) (hc : J c) (hQ : ∀ t, J t → I t ∧ Q a t) :
    Prog.Conc Interrupts I (pure a : M α) Q c :=
  .pure fun _ ht => hQ _ (hJ _ _ hc (interrupts_traffic ht))

theorem getRegs_conc {I J : Chan → Prop} (hJ : ∀ s t, J s → Traffic s t → J t) (hI : ∀ t, J t → I t)
    (hc : J c) : Prog.Conc Interrupts I getRegs
      (fun st d => J d ∧ (st = .ok ↔ d.present = true)) c := by
  refine .get_bind fun t ht => ?_
  have hjt := hJ _ _ hc (interrupts_traffic ht)
  refine ⟨hI t hjt, .pure fun s hs => ?_⟩
  have hjs := hJ _ _ hjt (interrupts_traffic hs)
  refine ⟨hI s hjs, hjs, ?_⟩
  rw [(interrupts_traffic hs).present]
  cases t.present <;> simp

theorem irqLineDisable_off (hc : Answered c) : Prog.Conc Interrupts Answered irqLineDisable
    (fun _ d => Answered d ∧ ¬d.irq.rx.enable = true ∧ ¬d.irq.gen.enable = true) c := by
  have hrx {α : Type} {p : M α} {c : Chan} (hp : p.Moves Quieter)
      (hc : Answered c ∧ ¬c.irq.rx.enable = true) :
      Prog.Conc Interrupts Answered p (fun _ d => Answered d ∧ ¬d.irq.rx.enable = true) c :=
    quieter_conc (fun _ _ hst hs ht => hs (hst.rx ht).1) hp hc
  refine .modify_bind fun t ht => ?_
  have ht := hc.traffic (interrupts_traffic ht)
  refine ⟨ht, .seq (hrx rxFlag_quieter ⟨(rxOff_quieter t).1.answered ht, Bool.false_ne_true⟩) ?_⟩
  refine fun _ s _ hs => .seq (hrx (onTx_quieter _) hs) fun _ s _ hs => ?_
  refine .seq (hrx (onTx_quieter _) hs) fun _ s _ hs => .modify_bind fun t ht => ?_
  have ht := interrupts_traffic ht
  have hta := hs.1.traffic ht
  refine ⟨hta, ?_⟩
  have hoff (s t : Chan) (hst : Quieter s t)
      (hs : ¬s.irq.rx.enable = true ∧ ¬s.irq.gen.enable = true) :
      ¬t.irq.rx.enable = true ∧ ¬t.irq.gen.enable = true :=
    ⟨fun ht => hs.1 (hst.rx ht).1, fun ht => hs.2 (hst.gen ht).1⟩
  refine quieter_conc hoff genFlag_quieter ⟨(genOff_quieter t).1.answered hta, ?_, Bool.false_ne_true⟩
  exact fun hrx => hs.2 (ht.quieter.rx hrx).1

theorem isrDisable_masks (hc : Answered c) :
    Prog.Conc Interrupts Answered isrDisable (fun _ d => Masked d) c := by
  refine .seq (getRegs_conc (fun _ _ => Answered.traffic) (fun _ => id) hc) fun st s _ hs => ?_
  obtain ⟨hs, hpresent⟩ := hs
  split
  next hne =>
    have hmask : Masked s := fun ha => hne (hpresent.mpr (hs.attended ha).1)
    exact masked_conc (.pure _) hmask
  next =>
    refine .seq (answered_conc (setIsrEnabled_quieter _) hs) fun _ s _ hs => ?_
    refine .seq (irqLineDisable_off hs) fun _ s _ hs => ?_
    refine .modify_bind fun t ht => ?_
    have ht := interrupts_traffic ht
    refine ⟨hs.1.traffic ht, ?_⟩
    have hmask : Masked (t.setReg .int (t.regs .int &&& ~~~intEnables)) := by
      rintro (hint | hrx | hgen)
      · rw [Chan.setReg_regs, Function.update_self, BitVec.and_assoc] at hint
        exact hint BitVec.and_zero
      · exact hs.2.1 (ht.quieter.rx hrx).1
      · exact hs.2.2 (ht.quieter.gen hgen).1
    refine masked_conc (noAlert ?_) hmask
    refine .bind (regClear_quieter (by decide) _) fun _ => ?_
    refine .bind (regClear_quieter (by decide) _) fun _ => ?_
    exact .bind (setTxBusy_quieter _) fun _ => .pure _

theorem init_masked (cfg : Config) (toConfig toMode : Poll) (hc : Masked c) :
    Prog.Conc Interrupts Answered (init (some cfg) toConfig toMode)
      (fun st d => Masked d ∧ (st = .ok → d.node.initialized = true)) c := by
  have hrefuse {c : Chan} {st : Status} (hc : Masked c) (hne : st ≠ .ok) :
      Prog.Conc Interrupts Answered (pure st : M Status)
        (fun st d => Masked d ∧ (st = .ok → d.node.initialized = true)) c :=
    pure_conc (fun _ _ => Masked.traffic) hc fun _ h => ⟨h.answered, h, fun he => absurd he hne⟩
  rw [init]
  split
  next => exact hrefuse hc (by decide)
  split
  next => exact hrefuse hc (by decide)
  split
  next => exact hrefuse hc (by decide)
  split
  next => exact hrefuse hc (by decide)
  refine .seq (masked_conc getRegs_reads hc) fun st s _ hs => ?_
  split
  next hne => exact hrefuse hs hne
  refine .seq (masked_conc (noAlert (solved_quieter _)) hs) fun t s _ hs => ?_
  cases t with
  | none => exact hrefuse hs (by decide)
  | some t =>
    refine .seq (masked_conc (.modify fun _ => .of_eq rfl rfl) hs) fun _ s _ hs => ?_
    refine .seq (masked_conc (.modify fun _ => .of_eq rfl rfl) hs) fun _ s _ hs => ?_
    refine .seq (masked_conc (.modify fun _ => .of_eq rfl rfl) hs) fun _ s _ hs => ?_
    refine .seq (masked_conc (.modify fun _ => .of_eq rfl rfl) hs) fun _ s _ hs => ?_
    refine .seq (masked_conc (noAlert (regSet_quieter (by decide) _)) hs) fun _ s _ hs => ?_
    refine .seq (masked_conc (noAlert (requestMode_quieter _ _)) hs) fun st s _ hs => ?_
    split
    next hne =>
      refine .seq (masked_conc (noAlert (regClear_quieter (by decide) _)) hs) fun _ s _ hs => ?_
      exact hrefuse hs hne
    refine .seq (masked_conc (noAlert (configure_quieter _ _)) hs) fun _ s _ hs => ?_
    refine .seq (masked_conc (noAlert (requestMode_quieter _ _)) hs) fun st s _ hs => ?_
    split
    next hne =>
      refine .seq (masked_conc (noAlert (regClear_quieter (by decide) _)) hs) fun _ s _ hs => ?_
      exact hrefuse hs hne
    refine .seq (masked_conc (.modify fun _ => .of_eq rfl rfl) hs) fun _ s _ hs => ?_
    -- The store that makes the node live is the last action, made with everything still masked.
    refine .modify_bind fun t ht => ?_
    have ht := hs.traffic (interrupts_traffic ht)
    have hup : Masked (t.setNode { t.node with initialized := true }) := ht
    refine ⟨ht.answered, ?_⟩
    refine pure_conc (J := fun d => Masked d ∧ d.node.initialized = true) ?_ ⟨hup, rfl⟩ ?_
    · exact fun _ _ hs hst => ⟨hs.1.traffic hst, hst.node ▸ hs.2⟩
    · exact fun _ hs => ⟨hs.1.answered, hs.1, fun _ => hs.2⟩

def Ready (c : Chan) : Prop := Masked c ∧ Attended c

theorem ready_stable (h : Ready c) (hs : Quieter c d) : Ready d :=
  ⟨hs.masked h.1, hs.attended h.2⟩

theorem ready_traffic (h : Ready c) (ht : Traffic c d) : Ready d := ready_stable h ht.quieter

def Up (c : Chan) : Prop := Answered c ∧ Attended c

theorem up_stable (h : Up c) (hs : Quieter c d) : Up d := ⟨hs.answered h.1, hs.attended h.2⟩

theorem up_traffic (h : Up c) (ht : Traffic c d) : Up d := up_stable h ht.quieter

theorem up_conc {α : Type} {p : M α} (hp : p.Moves Quieter) (hc : Up c) :
    Prog.Conc Interrupts Answered p (fun _ d => Up d) c :=
  kept (hp.preserves fun _ _ => up_stable) (fun _ _ => up_traffic) (fun _ h => h.1) hc

theorem up_setIrq {rx tx gen : Line} (h : Up c) (hrx : rx.enable = true → rx.priority ≠ 0)
    (hgen : gen.enable = true → gen.priority ≠ 0) : Up (c.setIrq ⟨rx, tx, gen⟩) := by
  have hup : Attended (c.setIrq ⟨rx, tx, gen⟩) := ⟨h.2.1, h.2.2.initialized, h.2.2.cb, h.2.2.ud⟩
  exact ⟨⟨fun _ => hup, hrx, hgen⟩, hup⟩

theorem irqLineEnable_up {priority : BitVec 8} (hp : priority.setWidth 3 ≠ 0) (hc : Up c) :
    Prog.Conc Interrupts Answered (irqLineEnable priority) (fun _ d => Up d) c := by
  refine .seq (up_conc (.modify fun _ => ⟨.of_eq rfl rfl, ⟨rfl, rfl, rfl, rfl⟩⟩) hc) fun _ s _ hs => ?_
  refine .seq (up_conc rxFlag_quieter hs) fun _ s _ hs => ?_
  refine .modify_bind fun t ht => ?_
  have ht := up_traffic hs (interrupts_traffic ht)
  refine ⟨ht.1, .modify_bind fun u hu => ?_⟩
  have hrx : u.irq.rx.priority ≠ 0 := by
    have hsame := congrArg Line.priority (interrupts_traffic hu).rxLine
    exact hsame ▸ hp
  have hu := up_traffic (up_setIrq ht (fun _ => hp) ht.1.gen) (interrupts_traffic hu)
  refine ⟨hu.1, .seq (up_conc genFlag_quieter (up_setIrq hu (fun _ => hrx) hu.1.gen)) ?_⟩
  refine fun _ s _ hs => .modify_bind fun t ht => ?_
  have ht := up_traffic hs (interrupts_traffic ht)
  refine ⟨ht.1, fun u hu => ?_⟩
  have hgen : u.irq.gen.priority ≠ 0 := by
    have hsame := congrArg Line.priority (interrupts_traffic hu).genLine
    exact hsame ▸ hp
  have hu := up_traffic (up_setIrq ht ht.1.rx fun _ => hp) (interrupts_traffic hu)
  refine ⟨hu.1, fun v hv => ?_⟩
  have hup : Up (u.setIrq { u.irq with gen := setLineEnable u.irq.gen true }) :=
    up_setIrq hu hu.1.rx fun _ => hgen
  have hv := up_traffic hup (interrupts_traffic hv)
  exact ⟨hv.1, hv⟩

theorem effectivePriority_ne_zero {priority : BitVec 8} (h : ¬effectivePriority priority > 7) :
    (effectivePriority priority).setWidth 3 ≠ 0 := by
  have hne : effectivePriority priority ≠ 0 := by
    rw [effectivePriority]
    split
    next => decide
    next h0 => exact h0
  bv_omega

theorem isrEnable_answered (priority : BitVec 8) (hc : Masked c) (ha : c.Answers) :
    Prog.Conc Interrupts Answered (isrEnable priority)
      (fun st d => Answered d ∧ (st ≠ .ok → Masked d)) c := by
  have hrefuse {c : Chan} {st : Status} (hc : Masked c) :
      Prog.Conc Interrupts Answered (pure st : M Status)
        (fun st d => Answered d ∧ (st ≠ .ok → Masked d)) c :=
    pure_conc (fun _ _ => Masked.traffic) hc fun _ h => ⟨h.answered, h.answered, fun _ => h⟩
  have hstable (s t : Chan) (hs : Masked s ∧ s.Answers) (ht : Traffic s t) : Masked t ∧ t.Answers :=
    ⟨hs.1.traffic ht, ht.quieter.answers hs.2⟩
  have hready {α : Type} {p : M α} {c : Chan} (hp : p.Moves Quieter) (hc : Ready c) :
      Prog.Conc Interrupts Answered p (fun _ d => Ready d) c :=
    kept (hp.preserves fun _ _ => ready_stable) (fun _ _ => ready_traffic) (fun _ h => h.1.answered) hc
  rw [isrEnable]
  split
  next => exact hrefuse hc
  next hpriority =>
    refine .seq (getRegs_conc hstable (fun _ h => h.1.answered) ⟨hc, ha⟩) fun st s _ hs => ?_
    obtain ⟨⟨hmask, ha⟩, hpresent⟩ := hs
    split
    next => exact hrefuse hmask
    next hok =>
      refine .seq (hready .get ⟨hmask, hpresent.mp (not_not.mp hok), ha⟩) fun _ s _ hs => ?_
      split
      next => exact hrefuse hs.1
      next =>
        refine .seq (hready (regSet_quieter (by decide) _) hs) fun _ s _ hs => ?_
        refine .modify_bind fun t ht => ?_
        obtain ⟨hmask, hp, ha⟩ := ready_traffic hs (interrupts_traffic ht)
        refine ⟨hmask.answered, ?_⟩
        have hup : Up (t.setReg .int (t.regs .int ||| (intRxie ||| intRxovie))) :=
          ⟨⟨fun _ => ⟨hp, ha.initialized, ha.cb, ha.ud⟩, hmask.answered.rx, hmask.answered.gen⟩,
            hp, ha.initialized, ha.cb, ha.ud⟩
        refine .seq (up_conc (setTxBusy_quieter _) hup) fun _ s _ hs => ?_
        refine .seq (irqLineEnable_up (effectivePriority_ne_zero hpriority) hs) fun _ s _ hs => ?_
        refine .seq (up_conc (setIsrEnabled_quieter _) hs) fun _ s _ hs => ?_
        exact pure_conc (fun _ _ => up_traffic) hs fun _ h => ⟨h.1, h.1, fun hne => absurd rfl hne⟩

theorem onCtx_quieter (f : Context → Context) : (onCtx f).Moves Quieter :=
  .modify fun _ => ⟨.of_eq rfl rfl, ⟨rfl, rfl, rfl, rfl⟩⟩

theorem armEvents_answered (mode : Mode) (hc : Masked c) (hi : c.node.initialized = true) :
    Prog.Conc Interrupts Answered (armEvents mode env) (fun _ d => Answered d) c := by
  have hset : Prog.Conc Interrupts Answered (isrSetCallback (some .canHalEvent) (some .ctx))
      (fun _ d => Masked d ∧ d.Answers) c := by
    refine .modify_bind fun t ht => ?_
    have htm := hc.traffic (interrupts_traffic ht)
    have hti : t.node.initialized = true := (interrupts_traffic ht).node ▸ hi
    refine ⟨htm.answered, .modify_bind fun s hs => ?_⟩
    have hs := interrupts_traffic hs
    have hsm : Masked s := Masked.traffic (c := t.setIsr { t.isr with cb := some .canHalEvent }) htm hs
    refine ⟨hsm.answered, pure_conc (J := fun d => Masked d ∧ d.Answers) ?_ ⟨hsm, ?_⟩ ?_⟩
    · exact fun _ _ h ht => ⟨h.1.traffic ht, ht.quieter.answers h.2⟩
    · exact ⟨hs.node ▸ hti, hs.cb, rfl⟩
    · exact fun _ h => ⟨h.1.answered, h⟩
  refine .seq hset fun _ s _ hs => .get_bind fun t ht => ?_
  have ht := interrupts_traffic ht
  refine ⟨(hs.1.traffic ht).answered, ?_⟩
  refine .seq (isrEnable_answered _ (hs.1.traffic ht) (ht.quieter.answers hs.2)) fun st s _ hs => ?_
  split
  next hne =>
    refine .seq (masked_conc (isrSetCallback_noAlert _ _) (hs.2 hne)) fun _ s _ hs => ?_
    refine .seq (masked_conc (deinit_noAlert _) hs) fun _ s _ hs => ?_
    exact answered_conc (.pure _) hs.answered
  next => exact answered_conc (.bind (onCtx_quieter _) fun _ => .pure _) hs.1

theorem canApplyInit_answered (mode : Mode) (hc : Answered c) :
    Prog.Conc Interrupts Answered (canApplyInit mode env) (fun _ d => Answered d) c := by
  refine .seq (isrDisable_masks hc) fun _ s _ hs => ?_
  refine .seq (masked_conc (isrSetCallback_noAlert _ _) hs) fun _ s _ hs => ?_
  refine .seq (masked_conc .get hs) fun _ s _ hs => ?_
  refine .seq (init_masked _ _ _ hs) fun st s _ hs => ?_
  split
  next => exact answered_conc (.pure _) hs.1.answered
  next hok => exact armEvents_answered mode hs.1 (hs.2 (not_not.mp hok))

theorem powerOff_answered (hc : Answered c) :
    Prog.Conc Interrupts Answered (powerOff env) (fun _ d => Answered d) c := by
  refine .seq (answered_conc .get hc) fun _ s _ hs => ?_
  refine .seq (Q := fun _ d => Answered d) ?_ fun _ s _ hs => ?_
  · split
    next =>
      refine .seq (isrDisable_masks hs) fun _ s _ hs => ?_
      refine .seq (masked_conc (isrSetCallback_noAlert _ _) hs) fun _ s _ hs => ?_
      refine .seq (masked_conc (deinit_noAlert _) hs) fun _ s _ hs => ?_
      exact answered_conc (.pure _) hs.answered
    next => exact answered_conc (.pure _) hs
  · exact answered_conc (.bind (onCtx_quieter _) fun _ => .pure _) hs

theorem powerFull_answered (hc : Answered c) :
    Prog.Conc Interrupts Answered (powerFull env) (fun _ d => Answered d) c := by
  refine .seq (answered_conc .get hc) fun _ s _ hs => ?_
  split
  next => exact answered_conc (.pure _) hs
  next =>
    refine .seq (answered_conc (onCtx_quieter _) hs) fun _ s _ hs => ?_
    refine .seq (answered_conc (onCtx_quieter _) hs) fun _ s _ hs => ?_
    refine .seq (answered_conc .get hs) fun _ s _ hs => ?_
    refine .seq (canApplyInit_answered _ hs) fun rc s _ hs => ?_
    split
    next => exact answered_conc (.pure _) hs
    next => exact answered_conc (.bind (onCtx_quieter _) fun _ => .pure _) hs

theorem canPowerControl_answered (state : PowerState) (hc : Answered c) :
    Prog.Conc Interrupts Answered (canPowerControl state env) (fun _ d => Answered d) c := by
  refine .seq (answered_conc .get hc) fun _ s _ hs => ?_
  split
  next => exact answered_conc (.pure _) hs
  next =>
    cases state with
    | full => exact powerFull_answered hs
    | off => exact powerOff_answered hs
    | low | other => exact answered_conc (.pure _) hs

theorem canUnInitialize_answered (hc : Answered c) :
    Prog.Conc Interrupts Answered (canUnInitialize env) (fun _ d => Answered d) c := by
  refine .seq (answered_conc .get hc) fun _ s _ hs => ?_
  refine .seq (Q := fun _ d => Answered d) ?_ fun _ s _ hs => ?_
  · split
    next =>
      exact .seq (canPowerControl_answered _ hs) fun _ s _ hs => answered_conc (.pure _) hs
    next => exact answered_conc (.pure _) hs
  · exact answered_conc (.bind (onCtx_quieter _) fun _ => .bind (onCtx_quieter _) fun _ =>
      .bind (onCtx_quieter _) fun _ => .pure _) hs

theorem canSetBitrate_quieter (select : BitrateSelect) (bitrate bitSegments : BitVec 32) :
    (canSetBitrate select bitrate bitSegments env).Moves Quieter := by
  have happly : (applyBitrate env).Moves Quieter :=
    .bind .get fun _ => .ite (.pure _) (.bind .get fun _ =>
      .bind (setBitrate_quieter _ _ _ _ _ _) fun _ => .pure _)
  refine .ite (.pure _) (.bind ?_ fun _ => ?_)
  · cases segmentSamplePct bitSegments with
    | none => exact .pure _
    | some pct => exact onCtx_quieter _
  · cases select with
    | nominal | fdData => exact .bind (onCtx_quieter _) fun _ => happly
    | other => exact .pure _

theorem changeMode_answered (halMode : Mode) (hc : Answered c) :
    Prog.Conc Interrupts Answered (changeMode halMode env) (fun _ d => Answered d) c := by
  refine .seq (answered_conc .get hc) fun _ s _ hs => ?_
  split
  next => exact answered_conc (.pure _) hs
  split
  next => exact answered_conc (.pure _) hs
  next => exact canApplyInit_answered _ hs

theorem canSetMode_answered (mode : ArmMode) (hc : Answered c) :
    Prog.Conc Interrupts Answered (canSetMode mode env) (fun _ d => Answered d) c := by
  refine .seq (answered_conc .get hc) fun _ s _ hs => ?_
  split
  next => exact answered_conc (.pure _) hs
  split
  next => exact answered_conc (.pure _) hs
  cases canMapMode mode with
  | none => exact answered_conc (.pure _) hs
  | some mapped => exact .seq (answered_conc .get hs) fun _ s _ hs => changeMode_answered _ hs

theorem setFdMode_answered (arg : BitVec 32) (hc : Answered c) :
    Prog.Conc Interrupts Answered (setFdMode arg env) (fun _ d => Answered d) c := by
  rw [setFdMode]
  split
  next => exact answered_conc (.pure _) hc
  next =>
    refine .seq (answered_conc (onCtx_quieter _) hc) fun _ s _ hs => ?_
    refine .seq (answered_conc .get hs) fun _ s _ hs => ?_
    split
    next => exact .seq (answered_conc .get hs) fun _ s _ hs => canApplyInit_answered _ hs
    next => exact answered_conc (.pure _) hs

theorem canControl_answered (code arg : BitVec 32) (hc : Answered c) :
    Prog.Conc Interrupts Answered (canControl code arg env) (fun _ d => Answered d) c := by
  refine .seq (answered_conc .get hc) fun _ s _ hs => ?_
  split
  next => exact answered_conc (.pure _) hs
  split
  next => exact setFdMode_answered arg hs
  split
  next =>
    exact answered_conc ((abortMessageSend_moves arg).mono fun _ _ h => h.quieter) hs
  next => exact answered_conc (.pure _) hs

theorem call_answered (env : Env) (call : Call) (hc : Answered c) :
    Prog.Conc Interrupts Answered (call.run env) (fun _ d => Answered d) c := by
  cases call with
  | canInitialize cbUnit cbObject =>
    exact answered_conc (.bind .get fun _ => .ite (.pure _) <|
      .bind (onCtx_quieter _) fun _ => .bind (onCtx_quieter _) fun _ =>
      .bind (onCtx_quieter _) fun _ => .bind (onCtx_quieter _) fun _ => .pure _) hc
  | canUnInitialize => exact canUnInitialize_answered hc
  | canPowerControl state => exact canPowerControl_answered state hc
  | canSetBitrate select bitrate bitSegments =>
    exact answered_conc (canSetBitrate_quieter select bitrate bitSegments) hc
  | canSetMode mode => exact canSetMode_answered mode hc
  | canControl code arg => exact canControl_answered code arg hc
  | canMessageSend objIdx info data size =>
    exact answered_conc ((canMessageSend_moves objIdx info data size env).mono
      fun _ _ h => h.quieter) hc
  | canMessageRead args =>
    exact answered_conc (.bind ((canMessageRead_moves args).mono fun _ _ h => h.quieter)
      fun _ => .pure _) hc

end Cmsis

/-- The thread of the application, which makes any calls, and is interrupted anywhere in them. -/
abbrev AppRun : Bench → Bench → Prop := Thread.Run (fun k : Env × Call => k.2.run k.1) Interrupts

theorem AppRun.answered {dev : Device} {b : Bench}
    (h : AppRun (.idle dev.boot) b) : Answered b.state := by
  have hboot : Masked dev.boot := by
    have hoff := congrArg (· &&& (intRxie ||| intRxovie)) dev.int_off
    simp only [BitVec.and_assoc] at hoff
    rintro (hint | hrx | hgen)
    · exact hint (hoff.trans BitVec.zero_and)
    · cases hrx
    · cases hgen
  exact h.invariant (J := fun _ => Answered) hboot.answered (fun _ _ => id)
    (fun _ k _ hs => call_answered k.1 k.2 hs) fun _ _ _ hs ht => hs.traffic ht.traffic

/-- Wherever the handler interrupts the application, it leaves no request standing that would
bring it back at once. -/
theorem no_interrupt_storm {dev : Device} {b : Bench}
    (h : AppRun (.idle dev.boot) b) (hp : b.state.present = true) (hroll : b.state.RollsUp)
    (app : App) (f : Frame) : ∃ d, (handler app f).exec b.state = .ok ((), d) ∧ ¬d.Requests := by
  obtain ⟨d, hd⟩ := handler_returns app f b.state
  refine ⟨d, hd, fun hreq => ?_⟩
  obtain ⟨⟨hrxie, -⟩, hno⟩ := (handler_requests_iff hp hroll hd).mp hreq
  refine hno (h.answered.attended (.inl fun hoff => hrxie ?_)).2
  have hsub := congrArg (· &&& intRxie) hoff
  simp only [BitVec.and_assoc] at hsub
  exact hsub.trans BitVec.zero_and

instance (c : Chan) : Decidable c.RollsUp :=
  decidable_of_iff
    ((c.regs .int &&& intRxif ≠ 0 ↔ c.regs .fifocon1 &&& fifoconTfnrfnie ≠ 0 ∧ c.rxFifo ≠ []) ∧
      (c.regs .int &&& intRxovif ≠ 0 ↔
        c.regs .fifocon1 &&& fifoconRxovie ≠ 0 ∧ c.regs .fifosta1 &&& fifostaRxovif ≠ 0) ∧
      (c.regs .int &&& intTxif ≠ 0 ↔
        c.regs .txqcon &&& txqconTxqeie ≠ 0 ∧ c.regs .txqsta &&& txqstaTxqeif ≠ 0))
    ⟨fun ⟨hrx, hoverflow, htx⟩ => ⟨hrx, hoverflow, htx⟩,
      fun ⟨hrx, hoverflow, htx⟩ => ⟨hrx, hoverflow, htx⟩⟩

instance (c : Chan) : Decidable c.RxRequest :=
  inferInstanceAs (Decidable (c.regs .int &&& intRxie ≠ 0 ∧ _ ∧ c.rxFifo ≠ []))

theorem AppRun.of_play (ms : List BenchMove) (p : Bench → Bool) {b : Bench}
    (h : (play (Thread.fire (fun k : Env × Call => k.2.run k.1) Interrupt.act) ms b).map p =
      some true) : ∃ b', AppRun b b' ∧ p b' = true :=
  Thread.run_of_play (fun e c d he => (Interrupt.takes_of_act e c d he).interrupts) ms p h

def arriveArmed : List BenchMove := enterUp 62 ++ [.env (.hardware exampleArrival)]

theorem no_interrupt_storm_example :
    ∃ b, AppRun (.idle exampleDevice.boot) b ∧ b.rest.isSome ∧ b.state.RxRequest ∧
      ∃ d, (handler silent zeroFrame).exec b.state = .ok ((), d) ∧ ¬d.Requests := by
  have hrun : ∃ b, AppRun (.idle exampleDevice.boot) b ∧
      (b.rest.isSome && decide b.state.RxRequest && decide b.state.RollsUp &&
        b.state.present) = true := AppRun.of_play arriveArmed _ (by decide +kernel)
  obtain ⟨b, hb, hp⟩ := hrun
  simp only [Bool.and_eq_true, decide_eq_true_eq] at hp
  obtain ⟨⟨⟨hrest, hrx⟩, hroll⟩, hp⟩ := hp
  exact ⟨b, hb, hrest, hrx, no_interrupt_storm hb hp hroll silent zeroFrame⟩

end CanfdDriver
