import CanfdDriver.Cmsis.Driver

/-! Traffic: message transfer, the interrupt handler and the hardware change the
ring, flags and status, and may disarm the transmit side; the configuration
and the rest of the event layer stay as they are. -/

namespace CanfdDriver

open Lib NoraCanfd Cmsis

def armBits : Reg → BitVec 32
  | .int => intTxie
  | .txqcon => txqconTxqeie
  | _ => 0

/-- The bits that traffic leaves as they are. -/
def keptBits (r : Reg) : BitVec 32 := ~~~(hwBits r ||| armBits r)

theorem keptBits_and_hwBits (r : Reg) : keptBits r &&& hwBits r = 0 := by cases r <;> decide

theorem hwBits_and_armBits (r : Reg) : hwBits r &&& armBits r = 0 := by cases r <;> decide

structure Traffic (c d : Chan) : Prop where
  present : d.present = c.present
  ctx : ∃ rx, d.ctx = { c.ctx with rx := rx }
  node : d.node = c.node
  mode : d.mode = c.mode
  isr : { d.isr with txBusy := false } = { c.isr with txBusy := false }
  txBusy : c.isr.txBusy = false → d.isr.txBusy = false
  rxLine : clearLineFlag d.irq.rx = clearLineFlag c.irq.rx
  genLine : clearLineFlag d.irq.gen = clearLineFlag c.irq.gen
  txPriority : d.irq.tx.priority = c.irq.tx.priority
  txEnable : c.irq.tx.enable = false → d.irq.tx.enable = false
  regs : ∀ r, d.regs r &&& keptBits r = c.regs r &&& keptBits r
  armed : ∀ r, c.regs r &&& armBits r = 0 → d.regs r &&& armBits r = 0

namespace Traffic

variable {c d e : Chan}

theorem refl (c : Chan) : Traffic c c :=
  ⟨rfl, ⟨c.ctx.rx, rfl⟩, rfl, rfl, rfl, id, rfl, rfl, rfl, id, fun _ => rfl, fun _ => id⟩

theorem trans (h : Traffic c d) (h' : Traffic d e) : Traffic c e where
  present := h'.present.trans h.present
  ctx := by
    obtain ⟨rx, hrx⟩ := h.ctx
    obtain ⟨rx', hrx'⟩ := h'.ctx
    exact ⟨rx', by rw [hrx', hrx]⟩
  node := h'.node.trans h.node
  mode := h'.mode.trans h.mode
  isr := h'.isr.trans h.isr
  txBusy := h'.txBusy ∘ h.txBusy
  rxLine := h'.rxLine.trans h.rxLine
  genLine := h'.genLine.trans h.genLine
  txPriority := h'.txPriority.trans h.txPriority
  txEnable := h'.txEnable ∘ h.txEnable
  regs r := (h'.regs r).trans (h.regs r)
  armed r := h'.armed r ∘ h.armed r

theorem powered (h : Traffic c d) : d.ctx.powered = c.ctx.powered := by
  obtain ⟨rx, hrx⟩ := h.ctx
  rw [hrx]

theorem cb (h : Traffic c d) : d.isr.cb = c.isr.cb := by
  have hcb := congrArg IsrState.cb h.isr
  exact hcb

theorem regs_and {r : Reg} {b : BitVec 32} (h : Traffic c d) (hb : keptBits r &&& b = b) :
    d.regs r &&& b = c.regs r &&& b := by
  rw [← hb, ← BitVec.and_assoc, h.regs r, BitVec.and_assoc]

theorem regs_off {r : Reg} {b : BitVec 32} (h : Traffic c d)
    (hb : (keptBits r ||| armBits r) &&& b = b) (ha : armBits r &&& b = armBits r)
    (h0 : c.regs r &&& b = 0) : d.regs r &&& b = 0 := by
  have harm : c.regs r &&& armBits r = 0 := by
    rw [← ha, BitVec.and_comm (armBits r), ← BitVec.and_assoc, h0, BitVec.ofNat_eq_ofNat,
      BitVec.zero_and]
  have hk := h.regs r
  have hd := h.armed r harm
  ext i hi
  have hbi := congrArg (·[i]) hb
  have h0i := congrArg (·[i]) h0
  have hki := congrArg (·[i]) hk
  have hdi := congrArg (·[i]) hd
  simp only [BitVec.getElem_and, BitVec.getElem_or, BitVec.ofNat_eq_ofNat,
    BitVec.getElem_zero] at hbi h0i hki hdi ⊢
  grind

instance : Std.Refl Traffic := ⟨refl⟩

instance : IsTrans Chan Traffic := ⟨fun _ _ _ => trans⟩

theorem setReg {r : Reg} {v : BitVec 32} (hk : v &&& keptBits r = c.regs r &&& keptBits r)
    (ha : c.regs r &&& armBits r = 0 → v &&& armBits r = 0) : Traffic c (c.setReg r v) where
  present := rfl
  ctx := ⟨_, rfl⟩
  node := rfl
  mode := rfl
  isr := rfl
  txBusy := id
  rxLine := rfl
  genLine := rfl
  txPriority := rfl
  txEnable := id
  regs r' := by
    obtain rfl | hne := eq_or_ne r' r
    · simpa using hk
    · simp [Function.update_of_ne hne]
  armed r' h := by
    obtain rfl | hne := eq_or_ne r' r
    · simpa using ha h
    · simpa [Function.update_of_ne hne] using h

theorem write {r : Reg} (m : MaskedWrite 32) (hk : keptBits r &&& m.mask = 0)
    (ha : m.value &&& armBits r = 0) : Traffic c (c.setReg r (m.apply (c.regs r))) :=
  setReg (MaskedWrite.apply_and_of_disjoint hk _) (MaskedWrite.apply_and_eq_zero ha)

theorem log (o : Obs) : Traffic c (c.log o) :=
  ⟨rfl, ⟨_, rfl⟩, rfl, rfl, rfl, id, rfl, rfl, rfl, id, fun _ => rfl, fun _ => id⟩

theorem writeRam (addr word : BitVec 32) : Traffic c (c.writeRam addr word) :=
  ⟨rfl, ⟨_, rfl⟩, rfl, rfl, rfl, id, rfl, rfl, rfl, id, fun _ => rfl, fun _ => id⟩

theorem sense (hw : Hw) : Traffic c (c.sense hw) where
  present := rfl
  ctx := ⟨_, rfl⟩
  node := rfl
  mode := rfl
  isr := rfl
  txBusy := id
  rxLine := rfl
  genLine := rfl
  txPriority := rfl
  txEnable := id
  regs r := MaskedWrite.apply_and_of_disjoint (keptBits_and_hwBits r) _
  armed r := MaskedWrite.apply_and_eq_zero (by
    change hw.regs r &&& hwBits r &&& armBits r = 0
    rw [BitVec.and_assoc, hwBits_and_armBits, BitVec.ofNat_eq_ofNat, BitVec.and_zero])

end Traffic

namespace NoraCanfd

theorem regClear_moves {r : Reg} {m : BitVec 32} (hk : keptBits r &&& m = 0) :
    (regClear r m).Moves Traffic := by
  refine .modify fun c => ?_
  rw [MaskedWrite.and_not_eq_apply]
  exact .write _ hk (BitVec.zero_and)

theorem onRx_clear_moves : (onRx clearLineFlag).Moves Traffic :=
  .modify fun _ => ⟨rfl, ⟨_, rfl⟩, rfl, rfl, rfl, id, rfl, rfl, rfl, id, fun _ => rfl, fun _ => id⟩

theorem onGen_clear_moves : (onGen clearLineFlag).Moves Traffic :=
  .modify fun _ => ⟨rfl, ⟨_, rfl⟩, rfl, rfl, rfl, id, rfl, rfl, rfl, id, fun _ => rfl, fun _ => id⟩

theorem onTx_clear_moves : (onTx clearLineFlag).Moves Traffic :=
  .modify fun _ => ⟨rfl, ⟨_, rfl⟩, rfl, rfl, rfl, id, rfl, rfl, rfl, id, fun _ => rfl, fun _ => id⟩

theorem onTx_disable_moves : (onTx (setLineEnable · false)).Moves Traffic :=
  .modify fun _ => ⟨rfl, ⟨_, rfl⟩, rfl, rfl, rfl, id, rfl, rfl, rfl, fun _ => rfl, fun _ => rfl,
    fun _ => id⟩

theorem setTxBusy_moves : (setTxBusy false).Moves Traffic :=
  .modify fun _ => ⟨rfl, ⟨_, rfl⟩, rfl, rfl, rfl, fun _ => rfl, rfl, rfl, rfl, id, fun _ => rfl,
    fun _ => id⟩

theorem irqLineClear_moves : irqLineClear.Moves Traffic :=
  .bind onRx_clear_moves fun _ => .bind onTx_clear_moves fun _ => onGen_clear_moves

theorem txDisarm_moves : txDisarm.Moves Traffic :=
  .bind (regClear_moves (by decide)) fun _ =>
  .bind (regClear_moves (by decide)) fun _ =>
  .bind (.bind onTx_disable_moves fun _ => onTx_clear_moves) fun _ => setTxBusy_moves

theorem txAbort_moves : txAbort.Moves Traffic :=
  .bind getRegs_reads fun _ => .ite (.pure _) (.bind txDisarm_moves fun _ => .pure _)

theorem irqHandler_moves {callback : EventCallback → BitVec 32 → Option UserData → M Unit}
    (h : ∀ f events ud, (callback f events ud).Moves Traffic) :
    (irqHandler callback).Moves Traffic := by
  refine .bind getRegs_reads fun _ => .ite irqLineClear_moves ?_
  refine .bind .get fun c => .bind (.ite (regClear_moves (by decide)) (.pure _)) fun _ => ?_
  refine .bind .get fun c => .bind (.ite txDisarm_moves (.pure _)) fun _ => ?_
  refine .bind (regClear_moves (by decide)) fun _ => .bind .get fun c => .bind .get fun c => ?_
  refine .bind ?_ fun _ => irqLineClear_moves
  cases c.isr.cb with
  | none => exact .pure _
  | some f => exact .ite (h _ _ _) (.pure _)

theorem writePayload_moves (obj : BitVec 32) (f : Frame) (n : Nat) :
    (writePayload obj f n).Moves Traffic := by
  induction n with
  | zero => exact .pure _
  | succ n ih => exact .bind ih fun _ => .modify fun _ => .writeRam ..

theorem transmit_moves (frame : Option Frame) (room : Poll) :
    (transmit frame room).Moves Traffic := by
  cases frame with
  | none => exact .pure _
  | some f =>
    refine .ite (.pure _) (.ite (.pure _) (.bind .get fun _ => .ite (.pure _) ?_))
    refine .bind (waitFlag_reads _ _) fun _ => .ite (.pure _) (.bind .get fun c => ?_)
    refine .bind (.modify fun _ => .writeRam ..) fun _ => ?_
    refine .bind (.modify fun _ => .writeRam ..) fun _ => ?_
    refine .bind (writePayload_moves _ _ _) fun _ => .bind (.modify fun _ => .log _) fun _ => ?_
    refine .bind (.modify fun c => ?_) fun _ => .pure _
    rw [MaskedWrite.or_eq_apply]
    exact .trans (.write _ (by decide) (by decide)) (.log _)

end NoraCanfd

/-- Only the ring, the FIFO and the record change. -/
def ReceiveSide (c d : Chan) : Prop :=
  ∃ rx q l, d = { c with ctx := { c.ctx with rx := rx }, rxFifo := q, trace := l }

namespace ReceiveSide

variable {c d e : Chan}

theorem refl (c : Chan) : ReceiveSide c c := ⟨_, _, _, rfl⟩

theorem trans (h : ReceiveSide c d) (h' : ReceiveSide d e) : ReceiveSide c e := by
  obtain ⟨_, _, _, rfl⟩ := h
  obtain ⟨rx, q, l, rfl⟩ := h'
  exact ⟨rx, q, l, rfl⟩

instance : Std.Refl ReceiveSide := ⟨refl⟩

instance : IsTrans Chan ReceiveSide := ⟨fun _ _ _ => trans⟩

theorem traffic (h : ReceiveSide c d) : Traffic c d := by
  obtain ⟨rx, q, l, rfl⟩ := h
  exact ⟨rfl, ⟨rx, rfl⟩, rfl, rfl, rfl, id, rfl, rfl, rfl, id, fun _ => rfl, fun _ => id⟩

end ReceiveSide

namespace Cmsis

theorem canMessageRead_side (args : ReadArgs) : (canMessageRead args).Moves ReceiveSide := by
  refine .bind .get fun _ => .ite (.pure _) (.ite (.pure _) ?_)
  refine .bind .get fun _ => .bind .get fun _ => .ite (.pure _) (.bind .get fun _ => ?_)
  exact .bind (.modify fun _ => ⟨_, _, _, rfl⟩) fun _ => .pure _

theorem canMessageRead_moves (args : ReadArgs) : (canMessageRead args).Moves Traffic :=
  (canMessageRead_side args).mono fun _ _ h => h.traffic

theorem runReads_side (reads : List ReadArgs) : (runReads reads).Moves ReceiveSide := by
  induction reads with
  | nil => exact .pure _
  | cons args rest ih => exact .bind (canMessageRead_side args) fun _ => ih

theorem signalObject_side (app : App) (event : BitVec 32) :
    (signalObject app event).Moves ReceiveSide :=
  .bind .get fun _ => .ite (.pure _) <|
    .bind (.modify fun _ => ⟨_, _, _, rfl⟩) fun _ => runReads_side _

theorem signalUnit_side (app : App) (event : BitVec 32) :
    (signalUnit app event).Moves ReceiveSide :=
  .bind .get fun _ => .ite (.pure _) <|
    .bind (.modify fun _ => ⟨_, _, _, rfl⟩) fun _ => runReads_side _

theorem storeFrame_side (f : Frame) : (storeFrame f).Moves ReceiveSide :=
  .bind .get fun _ => .ite (.bind (.modify fun _ => ⟨_, _, _, rfl⟩) fun _ => .pure _)
    (.bind (.modify fun _ => ⟨_, _, _, rfl⟩) fun _ => .pure _)

section

variable {port : RxPort} {R : Chan → Chan → Prop} [Std.Refl R]
  (hside : ∀ c d, ReceiveSide c d → R c d) (harrive : ∀ o c, R c (port.arrive o c))
  (hrelease : ∀ c, R c (port.release c))

include hside harrive hrelease

theorem drainFrom_moves (n : Nat) (f : Frame) (received dropped : Bool) :
    (drainFrom port n f received dropped).Moves R := by
  induction n generalizing f received dropped with
  | zero => exact .fail _
  | succ n ih =>
    refine .bind rxAvailable_reads fun _ => .ite (.pure _) ?_
    refine .bind (receiveFrom_moves harrive hrelease _ _ _) fun r => ?_
    split
    next => exact .bind ((storeFrame_side _).mono hside) fun _ => ih _ _ _
    next => exact .pure _

theorem canHalEventFrom_moves (app : App) (f : Frame) (events : BitVec 32) (ud : Option UserData) :
    (canHalEventFrom port app f events ud).Moves R := by
  have hobject (event : BitVec 32) := (signalObject_side app event).mono hside
  have hunit (event : BitVec 32) := (signalUnit_side app event).mono hside
  cases ud with
  | none => exact .pure _
  | some ud =>
    refine .bind (.ite (.bind .get fun _ => .bind ?_ fun _ => ?_) (.pure _)) fun _ => ?_
    · exact drainFrom_moves hside harrive hrelease _ _ _ _
    · exact .bind (.ite (hobject _) (.pure _)) fun _ => .ite (hobject _) (.pure _)
    · exact .bind (.ite (hobject _) (.pure _)) fun _ => .ite (hunit _) (.pure _)

theorem eventCallbackFrom_moves (app : App) (f : Frame) (cb : EventCallback) (events : BitVec 32)
    (ud : Option UserData) : (eventCallbackFrom port app f cb events ud).Moves R := by
  cases cb with
  | canHalEvent => exact canHalEventFrom_moves hside harrive hrelease _ _ _ _
  | application => exact .pure _

end

theorem eventCallback_side (app : App) (f : Frame) (cb : EventCallback) (events : BitVec 32)
    (ud : Option UserData) : (eventCallback app f cb events ud).Moves ReceiveSide :=
  eventCallbackFrom_moves (fun _ _ => id) (fun _ _ => ⟨_, _, _, rfl⟩) (fun _ => ⟨_, _, _, rfl⟩)
    app f cb events ud

theorem handler_moves (app : App) (f : Frame) : (handler app f).Moves Traffic :=
  irqHandler_moves fun cb events ud => (eventCallback_side app f cb events ud).mono fun _ _ h => h.traffic

theorem abortMessageSend_moves (arg : BitVec 32) : (abortMessageSend arg).Moves Traffic :=
  .bind .get fun _ => .ite (.pure _) (.ite (.pure _) (.bind txAbort_moves fun _ => .pure _))

theorem canMessageSend_moves (objIdx : BitVec 32) (info : Option MsgInfo)
    (data : Option (Nat → BitVec 8)) (size : Nat) (env : Env) :
    (canMessageSend objIdx info data size env).Moves Traffic := by
  refine .bind .get fun _ => .ite (.pure _) ?_
  cases info with
  | none => exact .pure _
  | some info =>
    refine .ite (.pure _) (.ite (.pure _) (.bind .get fun _ => .ite (.pure _) ?_))
    exact .bind (transmit_moves _ _) fun _ => .ite (.pure _) (.pure _)

end Cmsis

end CanfdDriver
