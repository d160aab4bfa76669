import CanfdDriver.Cmsis.Powered
import CanfdDriver.Hal.Preemption

namespace CanfdDriver

open Lib NoraCanfd Cmsis

theorem ReceiveSide.switches {c d : Chan} (h : ReceiveSide c d) : SameSwitches c d := by
  obtain ⟨rx, q, l, rfl⟩ := h
  rfl

theorem Cmsis.eventCallback_called {app : App} {f : Frame} {cb : EventCallback} {events : BitVec 32}
    {ud : Option UserData} {c d : Chan}
    (h : (eventCallback app f cb events ud).Runs Hardware c () d) : ∃ calls, CallbackRun c calls d := by
  have hmoves : (eventCallback app f cb events ud).Moves SameSwitches :=
    (eventCallback_side app f cb events ud).mono fun _ _ h => h.switches
  exact ⟨[], .other (hmoves.runs (fun _ _ h => h.switches) h) .done⟩

instance (v : Switches) : Decidable v.TxAgrees := inferInstanceAs (Decidable (_ ∧ _ ∧ _))

/-- `nora_canfd_tx_start` is safe against the handler as long as each run of it that preempts spares
the arming; the first one that does not makes it return with the line armed for none. -/
theorem txStart_safe_unless_undone (c : Chan) (frame : Option Frame) (room : Poll) :
    (∀ t, Reach TxStep Spared (txStart frame room, c) (.ret .ok, t) → TxSafe t) ∧
    ∀ x l y, Reach TxStep Spared (txStart frame room, c) x → TxStep x l y → ¬Spared x l →
      ∃ t, Reach TxStep (fun _ l => l = .own) y (.ret .ok, t) ∧ ¬TxSafe t :=
  ⟨fun _ h => txSafe_of_side (reach_stage h).of_ret, fun _ _ _ h hst hl => (reach_stage h).strands hst hl⟩

namespace Cmsis

abbrev silentCallback : EventCallback → BitVec 32 → Option UserData → M Unit :=
  eventCallback (fun _ => []) zeroFrame

def asyncFrame : Frame := ⟨1, false, false, false, 0, fun _ => 0⟩

def sendFrameAsync : M Status := txStart (some asyncFrame) (readsOnce fifostaTfnrfnif)

end Cmsis

theorem txStart_safe_unless_undone_example :
    ∃ c t, Reach Step (fun _ _ => True) exampleDevice.boot c ∧ c.isr.isrEnabled = true ∧ TxAgrees c ∧
      Reach TxStep Spared (sendFrameAsync, c) (.ret .ok, t) ∧ t.irq.tx.enable = true ∧ TxSafe t := by
  have hrun : ∃ c, Reach Step (fun _ _ => True) exampleDevice.boot c ∧
      (c.isr.isrEnabled && decide c.switches.TxAgrees &&
        sendFrameAsync.ends c fun st t => decide (st = .ok) && t.irq.tx.enable) = true :=
    reach_of_replay (fun _ _ _ _ => true) powerUp _ (fun _ _ _ _ _ => trivial) (by decide +kernel)
  obtain ⟨c, hc, hp⟩ := hrun
  rw [Bool.and_eq_true, Bool.and_eq_true, decide_eq_true_eq, Prog.ends_iff] at hp
  obtain ⟨⟨hen, hagrees⟩, st, t, hexec, hp⟩ := hp
  rw [Bool.and_eq_true, decide_eq_true_eq] at hp
  obtain ⟨rfl, hline⟩ := hp
  have hsend : Reach TxStep Spared (sendFrameAsync, c) (.ret .ok, t) :=
    (reach_own hexec).mono fun _ _ hl => hl ▸ trivial
  exact ⟨c, t, hc, hen, txAgrees_iff.mpr hagrees, hsend, hline,
    (txStart_safe_unless_undone c _ _).1 t hsend⟩

namespace Cmsis

def drainedHw (c : Chan) : Hw where
  regs
    | .int => intTxif ||| intRxif
    | .txqsta => txqstaTxqeif
    | r => c.regs r
  rxFifo := [fun _ => 0]
  rxFlag := true
  txFlag := false
  genFlag := false

def marked (c : Chan) : Chan :=
  (c.setIsr { c.isr with txBusy := true }).setReg .txqcon (c.regs .txqcon ||| txqconTxqeie)

def drainedEarly (c : Chan) : Chan := (marked c).sense (drainedHw (marked c))

def txqeieStored : M Status := do
  regSet .int intTxie
  irqTxLineEnable
  return .ok

def EndedEarly (c : Chan) : Bool :=
  decide (LineEnabled (drainedEarly c)) && decide (TxifShown (drainedEarly c)) &&
    (irqHandler silentCallback).ends (drainedEarly c) fun _ d =>
      txqeieStored.ends d fun st t => decide (st = .ok) && !decide (TxSafe t)

theorem stranded {c s : Chan}
    (hqueue : (txQueue (some asyncFrame) (readsOnce fifostaTfnrfnif)).exec c = .ok (.ok, s))
    (hended : EndedEarly s = true) :
    ∃ t, Reach TxStep (fun _ _ => True) (sendFrameAsync, c) (.ret .ok, t) ∧ ¬TxSafe t := by
  rw [EndedEarly, Bool.and_eq_true, Bool.and_eq_true, decide_eq_true_eq, decide_eq_true_eq,
    Prog.ends_iff] at hended
  obtain ⟨⟨hline, hshown⟩, _, d, hhandler, hrest⟩ := hended
  rw [Prog.ends_iff] at hrest
  obtain ⟨st, t, hrest, ht⟩ := hrest
  rw [Bool.and_eq_true, decide_eq_true_eq, Bool.not_eq_true', decide_eq_false_iff_not] at ht
  obtain ⟨rfl, ht⟩ := ht
  refine ⟨t, ?_, ht⟩
  have hstart : Reach TxStep (fun _ _ => True) (sendFrameAsync, c) (txStarted .ok, s) := by
    rw [sendFrameAsync, txStart_eq]
    exact (reach_own_bind hqueue).mono fun _ _ _ => trivial
  have hmarked : Reach TxStep (fun _ _ => True) (sendFrameAsync, c) (txqeieStored, marked s) :=
    (hstart.tail trivial .own).tail trivial .own
  obtain ⟨txDone, calls, hstep⟩ :=
    TxStep.of_irqHandler (p := txqeieStored) (fun _ _ _ _ _ => eventCallback_called) hline hshown
      (.of_exec hhandler)
  have hdrained := hmarked.tail trivial (.hardware (.sense hshown))
  exact (hdrained.tail trivial hstep).trans ((reach_own hrest).mono fun _ _ _ => trivial)

end Cmsis

/-- The handler runs for the receive line between the enabling of the queue interrupt and that of
the transmit line: `tx_start` returns with the line enabled and no transmission outstanding. -/
theorem line_enabled_for_none :
    ∃ c t, Reach Step (fun _ _ => True) exampleDevice.boot c ∧ c.isr.isrEnabled = true ∧ TxAgrees c ∧
      Reach TxStep (fun _ _ => True) (sendFrameAsync, c) (.ret .ok, t) ∧ ¬TxSafe t := by
  have hrun : ∃ c, Reach Step (fun _ _ => True) exampleDevice.boot c ∧
      (c.isr.isrEnabled && decide c.switches.TxAgrees &&
        (txQueue (some asyncFrame) (readsOnce fifostaTfnrfnif)).ends c fun st s =>
          decide (st = .ok) && EndedEarly s) = true :=
    reach_of_replay (fun _ _ _ _ => true) powerUp _ (fun _ _ _ _ _ => trivial) (by decide +kernel)
  obtain ⟨c, hc, hp⟩ := hrun
  rw [Bool.and_eq_true, Bool.and_eq_true, decide_eq_true_eq, Prog.ends_iff] at hp
  obtain ⟨⟨hen, hagrees⟩, st, s, hqueue, hp⟩ := hp
  rw [Bool.and_eq_true, decide_eq_true_eq] at hp
  obtain ⟨rfl, hended⟩ := hp
  obtain ⟨t, hreach, ht⟩ := stranded hqueue hended
  exact ⟨c, t, hc, hen, txAgrees_iff.mpr hagrees, hreach, ht⟩

end CanfdDriver
