import CanfdDriver.Hal.Run

namespace CanfdDriver

open Lib NoraCanfd

namespace NoraCanfd

/-- The transmit queue ran empty after a `tx_start`. -/
def TxDone (c : Chan) : Prop :=
  c.regs .int &&& intTxif ≠ 0 ∧ c.regs .txqsta &&& txqstaTxqeif ≠ 0

instance (c : Chan) : Decidable (TxDone c) := inferInstanceAs (Decidable (_ ∧ _))

end NoraCanfd

namespace Chan

def noted (c : Chan) : Chan :=
  if c.regs .int &&& intRxovif ≠ 0 then
    c.setReg .fifosta1 (c.regs .fifosta1 &&& ~~~fifostaRxovif) else c

def acked (c : Chan) : Chan :=
  let t := if TxDone c then c.noted.txOff else c.noted
  t.setReg .int (t.regs .int &&& ~~~intClrMask)

def events (c : Chan) : BitVec 32 :=
  evt (c.regs .int &&& intRxif ≠ 0) eventRxAvailable
    ||| evt (c.regs .int &&& intRxovif ≠ 0) eventRxOverflow
    ||| evt (TxDone c) eventTxComplete
    ||| evt (c.regs .int &&& intCerrif ≠ 0) eventBusError
    ||| evt (c.regs .int &&& intIvmif ≠ 0) eventInvalidMsg
    ||| evt (c.regs .trec &&& trecTxbo ≠ 0) eventBusOff

def report (c : Chan) : Option Report :=
  match c.isr.cb with
  | some f => if c.events ≠ 0 then some ⟨f, c.events, c.isr.ud⟩ else none
  | none => none

end Chan

namespace NoraCanfd

variable {c d : Chan}

theorem noted_keeps : c.noted.regs .txqsta = c.regs .txqsta ∧ c.noted.regs .trec = c.regs .trec ∧
    c.noted.isr = c.isr := by
  rw [Chan.noted]
  split <;> exact ⟨rfl, rfl, rfl⟩

theorem acked_keeps : c.acked.regs .trec = c.regs .trec ∧ c.acked.isr.cb = c.isr.cb ∧
    c.acked.isr.ud = c.isr.ud := by
  obtain ⟨-, htrec, hisr⟩ := noted_keeps (c := c)
  rw [Chan.acked]
  split
  · exact ⟨htrec, (congrArg IsrState.cb hisr :), (congrArg IsrState.ud hisr :)⟩
  · exact ⟨htrec, congrArg IsrState.cb hisr, congrArg IsrState.ud hisr⟩

theorem exec_irqDecide (hp : c.present = true) :
    irqDecide.exec c = .ok (some (c.regs .int, decide (TxDone c)), c.noted) := by
  have hst : ¬(if c.present then Status.ok else .notPresent) ≠ .ok := by simp [hp]
  have hnoted : (if c.regs .int &&& intRxovif ≠ 0 then regClear .fifosta1 fifostaRxovif
      else pure ()).exec c = .ok ((), c.noted) := by
    rw [Prog.exec_ite, Chan.noted]
    split <;> rfl
  rw [irqDecide, Prog.exec_bind_of_ok exec_getRegs, if_neg hst,
    Prog.exec_bind_of_ok (Prog.exec_get c), Prog.exec_bind_of_ok hnoted,
    Prog.exec_bind_of_ok (Prog.exec_get _), noted_keeps.1]
  rfl

theorem exec_irqEvents (hp : c.present = true) : irqEvents.exec c = .ok (c.report, c.acked) := by
  have hdisarm : (if (decide (TxDone c)) = true then txDisarm else pure ()).exec c.noted =
      .ok ((), if TxDone c then c.noted.txOff else c.noted) := by
    rw [Prog.exec_ite, exec_txDisarm]
    simp only [decide_eq_true_eq]
    split <;> rfl
  have hclear : (regClear .int intClrMask).exec (if TxDone c then c.noted.txOff else c.noted) =
      .ok ((), c.acked) := rfl
  obtain ⟨htrec, hcb, hud⟩ := acked_keeps (c := c)
  rw [irqEvents, Prog.exec_bind_of_ok (exec_irqDecide hp), irqReport, Prog.exec_bind_of_ok hdisarm,
    Prog.exec_bind_of_ok hclear, Prog.exec_bind_of_ok (Prog.exec_get c.acked),
    Prog.exec_bind_of_ok (Prog.exec_get c.acked)]
  simp only [hcb, hud, htrec, Chan.report, decide_eq_true_eq]
  cases c.isr.cb with
  | none => rfl
  | some f =>
    simp only [Prog.exec_ite]
    by_cases hev : c.events ≠ 0
    · rw [if_pos hev]
      exact if_pos hev
    · rw [if_neg hev]
      exact if_neg hev

theorem exec_irqEvents_absent (hp : c.present = false) : irqEvents.exec c = .ok (none, c) := by
  have hst : (if c.present then Status.ok else .notPresent) ≠ .ok := by simp [hp]
  rw [irqEvents, irqDecide, Prog.bind_assoc, Prog.exec_bind_of_ok exec_getRegs, if_pos hst]
  rfl

theorem txDone_of_report {r : Report} (hr : c.report = some r)
    (htx : r.events &&& eventTxComplete ≠ 0) : TxDone c := by
  have hev : r.events = c.events := by
    rw [Chan.report] at hr
    split at hr
    next =>
      split at hr
      next =>
        cases hr
        rfl
      next => cases hr
    next => cases hr
  have hother (p : Prop) [Decidable p] {bit : BitVec 32} (hbit : bit &&& eventTxComplete = 0) :
      evt p bit &&& eventTxComplete = 0 := by
    rw [evt]
    split
    next => exact hbit
    next => exact BitVec.zero_and
  by_contra hdone
  refine htx ?_
  rw [hev, Chan.events]
  simp only [BitVec.and_or_distrib_right]
  rw [hother _ (by decide), hother _ (by decide), evt, if_neg hdone, hother _ (by decide),
    hother _ (by decide), hother _ (by decide)]
  rfl

end NoraCanfd

end CanfdDriver
