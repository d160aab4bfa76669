import CanfdDriver.Hal.Reception
import CanfdDriver.Cmsis.Traffic
import CanfdDriver.Hal.Run
import CanfdDriver.System.State

/-! The message RAM under the functions of one channel: only the transmit path
writes it, at the object that `TXQUA` points at, and only the receive path reads
it, at the one that `FIFOUA1` points at. -/

namespace CanfdDriver

open Lib NoraCanfd Cmsis

open Classical in
/-- The memory outside the region `W` replaced by `r`. -/
noncomputable def outside (W : BitVec 32 → Prop) (r : BitVec 32 → BitVec 32) (c : Chan) : Chan :=
  { c with ram := fun a => if W a then c.ram a else r a }

variable {W : BitVec 32 → Prop} {r : BitVec 32 → BitVec 32}

theorem outside_ram_of {a : BitVec 32} (ha : W a) (c : Chan) : (outside W r c).ram a = c.ram a :=
  if_pos ha

theorem outside_ram_of_not {a : BitVec 32} (ha : ¬W a) (c : Chan) : (outside W r c).ram a = r a :=
  if_neg ha

theorem outside_self (c : Chan) : outside W c.ram c = c := by
  refine Chan.ext rfl rfl rfl rfl rfl rfl rfl ?_ rfl rfl
  exact funext fun a => ite_self _

theorem writeRam_outside (c : Chan) {addr : BitVec 32} (haddr : W addr) (word : BitVec 32) :
    (outside W r c).writeRam addr word = outside W r (c.writeRam addr word) := by
  refine Chan.ext rfl rfl rfl rfl rfl rfl rfl (funext fun a => ?_) rfl rfl
  simp only [outside, Chan.writeRam_ram, Function.update_apply]
  by_cases ha : a = addr
  · rw [if_pos ha, if_pos ha, if_pos (ha ▸ haddr)]
  · rw [if_neg ha, if_neg ha]

namespace NoraCanfd

open Prog

theorem regSet_blind (x : Reg) (mask : BitVec 32) : Blind (outside W r) (regSet x mask) :=
  .modify fun _ => rfl

theorem regClear_blind (x : Reg) (mask : BitVec 32) : Blind (outside W r) (regClear x mask) :=
  .modify fun _ => rfl

theorem regWrite_blind (x : Reg) (value : BitVec 32) : Blind (outside W r) (regWrite x value) :=
  .modify fun _ => rfl

theorem setMode_blind (mode : Mode) : Blind (outside W r) (setMode mode) := .modify fun _ => rfl

theorem getRegs_blind : Blind (outside W r) getRegs := .get_bind (fun _ => rfl) fun _ => .pure _

theorem pollUntil_blind (done : BitVec 32 → Bool) (start : BitVec 32) (xs : List Sample) :
    Blind (outside W r) (pollUntil done start xs) := by
  induction xs with
  | nil => exact .fail _
  | cons x xs ih => exact .ite (.pure _) (.get_bind (fun _ => rfl) fun _ => .ite (.pure _) ih)

theorem startTick_blind (p : Poll) : Blind (outside W r) (startTick p) :=
  .get_bind (fun _ => rfl) fun _ => .pure _

theorem requestMode_blind (reqop : BitVec 8) (p : Poll) :
    Blind (outside W r) (requestMode reqop p) :=
  .bind (startTick_blind _) fun _ => .bind (.modify fun _ => rfl) fun _ => pollUntil_blind _ _ _

theorem waitFlag_blind (mask : BitVec 32) (p : Poll) : Blind (outside W r) (waitFlag mask p) :=
  .bind (startTick_blind _) fun _ => pollUntil_blind _ _ _

theorem solved_blind (x : Except Stop (Option BitTiming)) : Blind (outside W r) (solved x) := by
  cases x with
  | error e => exact .fail _
  | ok t => exact .pure _

theorem writeBitTiming_blind (t : BitTiming) : Blind (outside W r) (writeBitTiming t) :=
  .bind (regWrite_blind _ _) fun _ => .bind (regWrite_blind _ _) fun _ => regWrite_blind _ _

theorem configure_blind (cfg : Config) (t : BitTiming) : Blind (outside W r) (configure cfg t) := by
  refine .bind (regClear_blind _ _) fun _ => .bind (regSet_blind _ _) fun _ => ?_
  refine .bind (.ite (regClear_blind _ _) (regSet_blind _ _)) fun _ => ?_
  refine .bind (regClear_blind _ _) fun _ => .bind (regSet_blind _ _) fun _ => ?_
  refine .bind (writeBitTiming_blind _) fun _ => .bind (regWrite_blind _ _) fun _ => ?_
  refine .bind (regWrite_blind _ _) fun _ => .bind (regWrite_blind _ _) fun _ => ?_
  exact .bind (regWrite_blind _ _) fun _ => .bind (regWrite_blind _ _) fun _ => regWrite_blind _ _

theorem bringUp_blind (cfg : Config) (t : BitTiming) (toConfig toMode : Poll) :
    Blind (outside W r) (bringUp cfg t toConfig toMode) := by
  refine .bind (.modify fun _ => rfl) fun _ => .bind (.modify fun _ => rfl) fun _ => ?_
  refine .bind (.modify fun _ => rfl) fun _ => .bind (setMode_blind _) fun _ => ?_
  refine .bind (regSet_blind _ _) fun _ => .bind (requestMode_blind _ _) fun _ => ?_
  refine .ite (.bind (regClear_blind _ _) fun _ => .pure _) (.bind (configure_blind _ _) fun _ => ?_)
  refine .bind (requestMode_blind _ _) fun _ => ?_
  refine .ite (.bind (regClear_blind _ _) fun _ => .pure _) (.bind (setMode_blind _) fun _ => ?_)
  exact .bind (.modify fun _ => rfl) fun _ => .pure _

theorem init_blind (config : Option Config) (toConfig toMode : Poll) :
    Blind (outside W r) (init config toConfig toMode) := by
  cases config with
  | none => exact .pure _
  | some cfg =>
    refine .ite (.pure _) (.ite (.pure _) (.ite (.pure _) (.ite (.pure _) ?_)))
    refine .bind getRegs_blind fun _ => .ite (.pure _) (.bind (solved_blind _) fun t => ?_)
    cases t with
    | none => exact .pure _
    | some t => exact bringUp_blind _ _ _ _

theorem retime_blind (t : BitTiming) (toConfig toMode : Poll) :
    Blind (outside W r) (retime t toConfig toMode) :=
  .get_bind (fun _ => rfl) fun _ => .bind (requestMode_blind _ _) fun _ =>
    .ite (.pure _) (.bind (writeBitTiming_blind _) fun _ => requestMode_blind _ _)

theorem setBitrate_blind (canClkHz nominalBps dataBps : BitVec 32) (samplePct : BitVec 8)
    (toConfig toMode : Poll) :
    Blind (outside W r) (setBitrate canClkHz nominalBps dataBps samplePct toConfig toMode) := by
  refine .ite (.pure _) (.bind getRegs_blind fun _ => .ite (.pure _) ?_)
  refine .get_bind (fun _ => rfl) fun _ => .ite (.pure _) (.bind (solved_blind _) fun t => ?_)
  cases t with
  | none => exact .pure _
  | some t => exact retime_blind _ _ _

theorem deinit_blind (toOff : Poll) : Blind (outside W r) (deinit toOff) := by
  refine .bind getRegs_blind fun _ => .ite (.pure _) (.get_bind (fun _ => rfl) fun _ => .ite ?_ ?_)
  · exact .bind (.modify fun _ => rfl) fun _ => .pure _
  · refine .bind (requestMode_blind _ _) fun _ => .bind (regClear_blind _ _) fun _ => ?_
    exact .bind (.modify fun _ => rfl) fun _ => .bind (setMode_blind _) fun _ => .pure _

theorem rxAvailable_blind : Blind (outside W r) rxAvailable :=
  .get_bind (fun _ => rfl) fun _ => .ite (.pure _) (.get_bind (fun _ => rfl) fun _ => .pure _)

theorem receive_blind (frame : Option Frame) (p : Poll) (arriving : Obj) :
    Blind (outside W r) (receive frame p arriving) := by
  cases frame with
  | none => exact .pure _
  | some f =>
    refine .get_bind (fun _ => rfl) fun _ => .ite (.pure _) (.get_bind (fun _ => rfl) fun _ => ?_)
    refine .bind (waitFlag_blind _ _) fun _ => .ite (.pure _) (.bind (.modify fun c => ?_) fun _ => ?_)
    · change (if c.rxFifo.isEmpty then _ else _) = outside W r (if c.rxFifo.isEmpty then _ else _)
      split <;> rfl
    · exact .get_bind (fun _ => rfl) fun _ => .bind (.modify fun _ => rfl) fun _ => .pure _

theorem onRx_blind (f : Line → Line) : Blind (outside W r) (onRx f) := .modify fun _ => rfl

theorem onTx_blind (f : Line → Line) : Blind (outside W r) (onTx f) := .modify fun _ => rfl

theorem onGen_blind (f : Line → Line) : Blind (outside W r) (onGen f) := .modify fun _ => rfl

theorem irqLineEnable_blind (priority : BitVec 8) :
    Blind (outside W r) (irqLineEnable priority) := by
  refine .bind (.modify fun _ => rfl) fun _ => .bind (onRx_blind _) fun _ => ?_
  refine .bind (onRx_blind _) fun _ => .bind (onRx_blind _) fun _ => .bind (onGen_blind _) fun _ => ?_
  exact .bind (onGen_blind _) fun _ => onGen_blind _

theorem irqLineDisable_blind : Blind (outside W r) irqLineDisable := by
  refine .bind (onRx_blind _) fun _ => .bind (onRx_blind _) fun _ => .bind (onTx_blind _) fun _ => ?_
  exact .bind (onTx_blind _) fun _ => .bind (onGen_blind _) fun _ => onGen_blind _

theorem irqLineClear_blind : Blind (outside W r) irqLineClear :=
  .bind (onRx_blind _) fun _ => .bind (onTx_blind _) fun _ => onGen_blind _

theorem irqTxLineEnable_blind : Blind (outside W r) irqTxLineEnable :=
  .bind (onTx_blind _) fun _ => .get_bind (fun _ => rfl) fun _ =>
    .bind (onTx_blind _) fun _ => onTx_blind _

theorem setTxBusy_blind (b : Bool) : Blind (outside W r) (setTxBusy b) := .modify fun _ => rfl

theorem setIsrEnabled_blind (b : Bool) : Blind (outside W r) (setIsrEnabled b) :=
  .modify fun _ => rfl

theorem isrSetCallback_blind (callback : Option EventCallback) (userData : Option UserData) :
    Blind (outside W r) (isrSetCallback callback userData) :=
  .bind (.modify fun _ => rfl) fun _ => .bind (.modify fun _ => rfl) fun _ => .pure _

theorem isrEnable_blind (priority : BitVec 8) : Blind (outside W r) (isrEnable priority) := by
  refine .ite (.pure _) (.bind getRegs_blind fun _ => .ite (.pure _) ?_)
  refine .get_bind (fun _ => rfl) fun _ => .ite (.pure _) (.bind (regSet_blind _ _) fun _ => ?_)
  refine .bind (regSet_blind _ _) fun _ => .bind (setTxBusy_blind _) fun _ => ?_
  exact .bind (irqLineEnable_blind _) fun _ => .bind (setIsrEnabled_blind _) fun _ => .pure _

theorem isrDisable_blind : Blind (outside W r) isrDisable := by
  refine .bind getRegs_blind fun _ => .ite (.pure _) (.bind (setIsrEnabled_blind _) fun _ => ?_)
  refine .bind irqLineDisable_blind fun _ => .bind (regClear_blind _ _) fun _ => ?_
  refine .bind (regClear_blind _ _) fun _ => .bind (regClear_blind _ _) fun _ => ?_
  exact .bind (setTxBusy_blind _) fun _ => .pure _

theorem txDisarm_blind : Blind (outside W r) txDisarm := by
  refine .bind (regClear_blind _ _) fun _ => .bind (regClear_blind _ _) fun _ => ?_
  exact .bind (.bind (onTx_blind _) fun _ => onTx_blind _) fun _ => setTxBusy_blind _

theorem txAbort_blind : Blind (outside W r) txAbort :=
  .bind getRegs_blind fun _ => .ite (.pure _) (.bind txDisarm_blind fun _ => .pure _)

theorem irqDecide_blind : Blind (outside W r) irqDecide := by
  refine .bind getRegs_blind fun _ => .ite (.pure _) (.get_bind (fun _ => rfl) fun _ => ?_)
  refine .bind (.ite (regClear_blind _ _) (.pure _)) fun _ => .get_bind (fun _ => rfl) fun _ => ?_
  exact .pure _

theorem irqReport_blind (x : Option (BitVec 32 × Bool)) : Blind (outside W r) (irqReport x) := by
  cases x with
  | none => exact .pure _
  | some x =>
    refine .bind (.ite txDisarm_blind (.pure _)) fun _ => .bind (regClear_blind _ _) fun _ => ?_
    refine .get_bind (fun _ => rfl) fun _ => .get_bind (fun _ => rfl) fun c => ?_
    cases c.isr.cb with
    | none => exact .pure _
    | some f => exact .ite (.pure _) (.pure _)

theorem irqEvents_blind : Blind (outside W r) irqEvents :=
  .bind irqDecide_blind fun _ => irqReport_blind _

theorem irqHandler_blind {callback : EventCallback → BitVec 32 → Option UserData → M Unit}
    (h : ∀ f events ud, Blind (outside W r) (callback f events ud)) :
    Blind (outside W r) (irqHandler callback) := by
  rw [irqHandler_eq]
  refine .bind irqEvents_blind fun x => .bind ?_ fun _ => irqLineClear_blind
  cases x with
  | none => exact .pure _
  | some x => exact h _ _ _

theorem getStatus_blind : Blind (outside W r) getStatus :=
  .bind getRegs_blind fun _ => .ite (.pure _) <|
    .get_bind (fun _ => rfl) fun _ => .get_bind (fun _ => rfl) fun _ => .pure _

theorem clearRxOverflow_blind : Blind (outside W r) clearRxOverflow :=
  .bind getRegs_blind fun _ => .ite (.pure _) (.bind (regClear_blind _ _) fun _ => .pure _)

/-! ### The queues -/

/-- Whether the node is up; while it is, `TXQUA` points at an object in the region, and so does
`FIFOUA1`, at one of FIFO 1. -/
structure Ready (W : BitVec 32 → Prop) (up : Bool) (c : Chan) : Prop where
  initialized : c.node.initialized = up
  txqua : up = true → ∀ n, n < objWords → W (objAddr (c.regs .txqua) n)
  fifoua1 : up = true → ∃ slot, ShowsSlot c slot
  slots : up = true → ∀ slot, slot < rxDepth → ∀ n, n < objWords →
    W (objAddr (rxSlot (c.regs .fifoba) slot) n)

structure KeepsQueues (c d : Chan) : Prop where
  node : d.node = c.node
  txqua : d.regs .txqua = c.regs .txqua
  fifoua1 : d.regs .fifoua1 = c.regs .fifoua1
  fifoba : d.regs .fifoba = c.regs .fifoba

instance : Std.Refl KeepsQueues := ⟨fun _ => ⟨rfl, rfl, rfl, rfl⟩⟩

variable {up : Bool} {α : Type}

theorem Ready.keeps {c d : Chan} (h : Ready W up c) (hcd : KeepsQueues c d) : Ready W up d where
  initialized := hcd.node ▸ h.initialized
  txqua := hcd.txqua ▸ h.txqua
  fifoua1 hup := by
    obtain ⟨slot, hslot, hua⟩ := h.fifoua1 hup
    refine ⟨slot, hslot, ?_⟩
    rw [hcd.fifoua1, hcd.fifoba, hua]
  slots := hcd.fifoba ▸ h.slots

theorem Ready.shown {c : Chan} (h : Ready W true c) {n : Nat} (hn : n < objWords) :
    W (objAddr (c.regs .fifoua1) n) := by
  obtain ⟨slot, hslot, hua⟩ := h.fifoua1 rfl
  rw [hua]
  exact h.slots rfl slot hslot n hn

def InStep (W : BitVec 32 → Prop) (r : BitVec 32 → BitVec 32) (up : Bool) (s t : Chan) : Prop :=
  s = outside W r t ∧ Ready W up t

theorem inStep_of_blind {p : M α} (h : Blind (outside W r) p) (hp : p.Moves KeepsQueues) :
    Lockstep (InStep W r up) p p := Lockstep.and h (hp.preserves fun _ _ hc hcd => hc.keeps hcd)

theorem inStep_of_reads {p : M α} (h : Blind (outside W r) p) (hp : p.Moves Eq) :
    Lockstep (InStep W r up) p p :=
  inStep_of_blind h (hp.mono fun _ _ hcd => hcd ▸ ⟨rfl, rfl, rfl, rfl⟩)

theorem regSet_keeps {x : Reg} (hx : x = .int ∨ x = .txqcon) (mask : BitVec 32) :
    (regSet x mask).Moves KeepsQueues := by
  obtain rfl | rfl := hx <;> exact .modify fun _ => ⟨rfl, rfl, rfl, rfl⟩

theorem regClear_keeps {x : Reg} (hx : x = .int ∨ x = .txqcon ∨ x = .fifosta1) (mask : BitVec 32) :
    (regClear x mask).Moves KeepsQueues := by
  obtain rfl | rfl | rfl := hx <;> exact .modify fun _ => ⟨rfl, rfl, rfl, rfl⟩

theorem onTx_keeps (f : Line → Line) : (onTx f).Moves KeepsQueues :=
  .modify fun _ => ⟨rfl, rfl, rfl, rfl⟩

theorem setTxBusy_keeps (b : Bool) : (setTxBusy b).Moves KeepsQueues :=
  .modify fun _ => ⟨rfl, rfl, rfl, rfl⟩

/-! ### The transmit path -/

theorem writeObj_inStep {obj : BitVec 32} {n : Nat} (hobj : W (objAddr obj n)) (word : BitVec 32) :
    Lockstep (InStep W r up) (writeObj obj n word) (writeObj obj n word) := by
  refine .modify fun s t hst => ?_
  obtain ⟨rfl, ht⟩ := hst
  exact ⟨writeRam_outside t hobj word, ht.keeps ⟨rfl, rfl, rfl, rfl⟩⟩

theorem writePayload_inStep {obj : BitVec 32} (hobj : ∀ n, n < objWords → W (objAddr obj n))
    (f : Frame) {n : Nat} (hn : n ≤ 16) :
    Lockstep (InStep W r up) (writePayload obj f n) (writePayload obj f n) := by
  induction n with
  | zero => exact .pure _
  | succ n ih =>
    refine .bind (ih (by omega)) fun _ => writeObj_inStep (hobj (2 + n) ?_) _
    change 2 + n < 18
    omega

theorem transmit_inStep (frame : Option Frame) (room : Poll) :
    Lockstep (InStep W r up) (transmit frame room) (transmit frame room) := by
  cases frame with
  | none => exact .pure _
  | some f =>
    rw [transmit]
    split
    next => exact .pure _
    next hlen =>
      refine .ite Iff.rfl (.pure _) (.get_bind fun s t hst => ?_)
      obtain ⟨rfl, ht⟩ := hst
      cases up with
      | false =>
        change Lockstep _ (if !t.node.initialized then _ else _) (if !t.node.initialized then _ else _)
        rw [ht.initialized]
        exact .pure _
      | true =>
        have hwait : Lockstep (InStep W r true) (waitFlag fifostaTfnrfnif room)
            (waitFlag fifostaTfnrfnif room) := inStep_of_reads (waitFlag_blind _ _) (waitFlag_reads _ _)
        refine .ite Iff.rfl (.pure _) (.bind hwait fun _ => ?_)
        refine .ite Iff.rfl (.pure _) (.get_bind fun s t hst => ?_)
        obtain ⟨rfl, ht⟩ := hst
        have hobj := ht.txqua rfl
        have hwords := wordCount_dlcToLen_le _ (lenToDlc_lt _ (Nat.not_lt.mp hlen))
        refine .bind (writeObj_inStep (hobj 0 (by decide)) _) fun _ => ?_
        refine .bind (writeObj_inStep (hobj 1 (by decide)) _) fun _ => ?_
        refine .bind (writePayload_inStep hobj f hwords) fun _ => ?_
        have hlog : Lockstep (InStep W r true) (.modify fun c => c.log .uinc : M Unit)
            (.modify fun c => c.log .uinc) :=
          inStep_of_blind (.modify fun _ => rfl) (.modify fun _ => ⟨rfl, rfl, rfl, rfl⟩)
        refine .bind hlog fun _ => .bind (inStep_of_blind ?_ ?_) fun _ => .pure _
        · exact .modify fun _ => rfl
        · exact .modify fun _ => ⟨rfl, rfl, rfl, rfl⟩

theorem txStart_inStep (frame : Option Frame) (room : Poll) :
    Lockstep (InStep W r up) (txStart frame room) (txStart frame room) := by
  have hline : irqTxLineEnable.Moves KeepsQueues :=
    .bind (onTx_keeps _) fun _ => .bind .get fun _ => .bind (onTx_keeps _) fun _ => onTx_keeps _
  refine .bind (inStep_of_reads getRegs_blind getRegs_reads) fun _ => .ite Iff.rfl (.pure _) ?_
  refine .get_bind fun s t hst => ?_
  obtain ⟨rfl, ht⟩ := hst
  refine .ite Iff.rfl (.pure _) (.bind (transmit_inStep _ _) fun _ => .ite Iff.rfl (.pure _) ?_)
  refine .bind (inStep_of_blind (setTxBusy_blind _) (setTxBusy_keeps _)) fun _ => ?_
  refine .bind (inStep_of_blind (regSet_blind _ _) (regSet_keeps (.inr rfl) _)) fun _ => ?_
  refine .bind (inStep_of_blind (regSet_blind _ _) (regSet_keeps (.inl rfl) _)) fun _ => ?_
  exact .bind (inStep_of_blind irqTxLineEnable_blind hline) fun _ => .pure _

/-! ### The receive path -/

open Classical in
theorem placeObj_outside {addr : BitVec 32} {obj : Obj} (hobj : ∀ n, n < objWords → W (objAddr addr n))
    {n : Nat} (hn : n ≤ objWords) (c : Chan) :
    { outside W r c with ram := placeObj addr obj (outside W r c).ram n } =
      outside W r { c with ram := placeObj addr obj c.ram n } := by
  refine Chan.ext rfl rfl rfl rfl rfl rfl rfl (funext fun a => ?_) rfl rfl
  change placeObj addr obj (outside W r c).ram n a = if W a then placeObj addr obj c.ram n a else r a
  by_cases ha : ∃ k, k < n ∧ a = objAddr addr k
  · obtain ⟨k, hk, rfl⟩ := ha
    rw [placeObj_at hn hk, placeObj_at hn hk, if_pos (hobj k (Nat.lt_of_lt_of_le hk hn))]
  · have hne : ∀ k, k < n → a ≠ objAddr addr k := fun k hk h => ha ⟨k, hk, h⟩
    rw [placeObj_of_ne hne, placeObj_of_ne hne]
    rfl

theorem arrive_inStep {s t : Chan} (hst : InStep W r true s t) (o : Obj) :
    InStep W r true (ramPort.arrive o s) (ramPort.arrive o t) := by
  obtain ⟨rfl, ht⟩ := hst
  refine ⟨?_, ht.keeps ⟨rfl, rfl, rfl, rfl⟩⟩
  exact congrArg (fun c : Chan => { c with rxFifo := [o] })
    (placeObj_outside (fun _ hn => ht.shown hn) le_rfl t)

theorem release_inStep {s t : Chan} (hst : InStep W r true s t) :
    InStep W r true (ramPort.release s) (ramPort.release t) := by
  obtain ⟨rfl, ht⟩ := hst
  refine ⟨rfl, ht.initialized, ht.txqua, fun hup => ?_, ht.slots⟩
  obtain ⟨slot, hslot⟩ := ht.fifoua1 hup
  exact ⟨_, hslot.release⟩

theorem receive_inStep (frame : Option Frame) (p : Poll) (arriving : Obj) :
    Lockstep (InStep W r up) (receiveFrom ramPort frame p arriving)
      (receiveFrom ramPort frame p arriving) := by
  cases frame with
  | none => exact .pure _
  | some f =>
    refine .get_bind fun s t hst => ?_
    obtain ⟨rfl, ht⟩ := hst
    cases up with
    | false =>
      change Lockstep _ (if !t.node.initialized then _ else _) (if !t.node.initialized then _ else _)
      rw [ht.initialized]
      exact .pure _
    | true =>
      refine .ite Iff.rfl (.pure _) (.get_bind fun s t hst => ?_)
      obtain ⟨rfl, -⟩ := hst
      refine .bind (inStep_of_reads (waitFlag_blind _ _) (waitFlag_reads _ _)) fun _ => ?_
      refine .ite Iff.rfl (.pure _) (.bind (.modify fun s t hst => ?_) fun _ => ?_)
      · have hfifo : s.rxFifo = t.rxFifo := by rw [hst.1]; rfl
        rw [hfifo]
        split
        next => exact arrive_inStep hst arriving
        next => exact hst
      · refine .get_bind fun s t hst => ?_
        have hobj : parseObj (ramPort.obj s) f = parseObj (ramPort.obj t) f := by
          obtain ⟨rfl, ht⟩ := hst
          exact parseObj_words (fun n hn => outside_ram_of (ht.shown hn) t) f
        rw [hobj]
        exact .bind (.modify fun _ _ h => release_inStep h) fun _ => .pure _

theorem txDisarm_keeps : txDisarm.Moves KeepsQueues :=
  .bind (regClear_keeps (.inr (.inl rfl)) _) fun _ => .bind (regClear_keeps (.inl rfl) _) fun _ =>
    .bind (.bind (onTx_keeps _) fun _ => onTx_keeps _) fun _ => setTxBusy_keeps _

theorem irqEvents_keeps : irqEvents.Moves KeepsQueues := by
  refine .bind (.bind getRegs_reads fun _ => .ite (.pure _) (.bind .get fun _ => ?_)) fun x => ?_
  · refine .bind (.ite (regClear_keeps (.inr (.inr rfl)) _) (.pure _)) fun _ => ?_
    exact .bind .get fun _ => .pure _
  · cases x with
    | none => exact .pure _
    | some x =>
      refine .bind (.ite txDisarm_keeps (.pure _)) fun _ => .bind (regClear_keeps (.inl rfl) _) fun _ => ?_
      refine .bind .get fun _ => .bind .get fun c => ?_
      cases c.isr.cb with
      | none => exact .pure _
      | some f => exact .ite (.pure _) (.pure _)

theorem irqLineClear_keeps : irqLineClear.Moves KeepsQueues :=
  .bind (.modify fun _ => ⟨rfl, rfl, rfl, rfl⟩) fun _ => .bind (onTx_keeps _) fun _ =>
    .modify fun _ => ⟨rfl, rfl, rfl, rfl⟩

theorem irqHandler_inStep {callback : EventCallback → BitVec 32 → Option UserData → M Unit}
    (h : ∀ f events ud, Lockstep (InStep W r up) (callback f events ud) (callback f events ud)) :
    Lockstep (InStep W r up) (irqHandler callback) (irqHandler callback) := by
  rw [irqHandler_eq]
  refine .bind (inStep_of_blind irqEvents_blind irqEvents_keeps) fun x => .bind ?_ fun _ =>
    inStep_of_blind irqLineClear_blind irqLineClear_keeps
  cases x with
  | none => exact .pure _
  | some x => exact h _ _ _

end NoraCanfd

/-! ### The wrapper -/

namespace Cmsis

open Prog

variable {env : Env}

theorem onCtx_blind (f : Context → Context) : Blind (outside W r) (onCtx f) := .modify fun _ => rfl

theorem canMessageRead_blind (args : ReadArgs) : Blind (outside W r) (canMessageRead args) := by
  refine .get_bind (fun _ => rfl) fun _ => .ite (.pure _) (.ite (.pure _) ?_)
  refine .get_bind (fun _ => rfl) fun _ => .get_bind (fun _ => rfl) fun _ => .ite (.pure _) ?_
  exact .get_bind (fun _ => rfl) fun _ => .bind (.modify fun _ => rfl) fun _ => .pure _

theorem runReads_blind (reads : List ReadArgs) : Blind (outside W r) (runReads reads) := by
  induction reads with
  | nil => exact .pure _
  | cons args rest ih => exact .bind (canMessageRead_blind _) fun _ => ih

theorem signalObject_blind (app : App) (event : BitVec 32) :
    Blind (outside W r) (signalObject app event) :=
  .get_bind (fun _ => rfl) fun _ => .ite (.pure _) <|
    .bind (.modify fun _ => rfl) fun _ => runReads_blind _

theorem signalUnit_blind (app : App) (event : BitVec 32) :
    Blind (outside W r) (signalUnit app event) :=
  .get_bind (fun _ => rfl) fun _ => .ite (.pure _) <|
    .bind (.modify fun _ => rfl) fun _ => runReads_blind _

theorem storeFrame_blind (f : Frame) : Blind (outside W r) (storeFrame f) :=
  .get_bind (fun _ => rfl) fun _ => .ite (.bind (.modify fun _ => rfl) fun _ => .pure _)
    (.bind (.modify fun _ => rfl) fun _ => .pure _)

theorem drain_blind (n : Nat) (f : Frame) (received dropped : Bool) :
    Blind (outside W r) (drain n f received dropped) := by
  induction n generalizing f received dropped with
  | zero => exact .fail _
  | succ n ih =>
    refine .bind rxAvailable_blind fun _ => .ite (.pure _) (.bind (receive_blind _ _ _) fun x => ?_)
    split
    next => exact .bind (storeFrame_blind _) fun _ => ih _ _ _
    next => exact .pure _

theorem canHalEvent_blind (app : App) (f : Frame) (events : BitVec 32) (ud : Option UserData) :
    Blind (outside W r) (canHalEvent app f events ud) := by
  cases ud with
  | none => exact .pure _
  | some ud =>
    refine .bind (.ite (.get_bind (fun _ => rfl) fun _ => .bind (drain_blind _ _ _ _) fun _ => ?_)
      (.pure _)) fun _ => .bind (.ite (signalObject_blind _ _) (.pure _)) fun _ => ?_
    · exact .bind (.ite (signalObject_blind _ _) (.pure _)) fun _ =>
        .ite (signalObject_blind _ _) (.pure _)
    · exact .ite (signalUnit_blind _ _) (.pure _)

theorem handler_blind (app : App) (f : Frame) : Blind (outside W r) (handler app f) := by
  refine irqHandler_blind fun cb events ud => ?_
  cases cb with
  | canHalEvent => exact canHalEvent_blind _ _ _ _
  | application => exact .pure _

theorem armEvents_blind (mode : Mode) : Blind (outside W r) (armEvents mode env) := by
  refine .bind (isrSetCallback_blind _ _) fun _ => .get_bind (fun _ => rfl) fun _ => ?_
  refine .bind (isrEnable_blind _) fun _ => .ite ?_ (.bind (onCtx_blind _) fun _ => .pure _)
  exact .bind (isrSetCallback_blind _ _) fun _ => .bind (deinit_blind _) fun _ => .pure _

theorem canApplyInit_blind (mode : Mode) : Blind (outside W r) (canApplyInit mode env) :=
  .bind isrDisable_blind fun _ => .bind (isrSetCallback_blind _ _) fun _ =>
    .get_bind (fun _ => rfl) fun _ => .bind (init_blind _ _ _) fun _ =>
    .ite (.pure _) (armEvents_blind _)

theorem canInitialize_blind (cbUnit cbObject : Option Callback) :
    Blind (outside W r) (canInitialize cbUnit cbObject) := by
  refine .get_bind (fun _ => rfl) fun _ => .ite (.pure _) (.bind (onCtx_blind _) fun _ => ?_)
  exact .bind (onCtx_blind _) fun _ => .bind (onCtx_blind _) fun _ => .bind (onCtx_blind _) fun _ =>
    .pure _

theorem applyFull_blind : Blind (outside W r) (applyFull env) :=
  .get_bind (fun _ => rfl) fun _ => .bind (canApplyInit_blind _) fun _ =>
    .ite (.pure _) (.bind (onCtx_blind _) fun _ => .pure _)

theorem powerFull_blind : Blind (outside W r) (powerFull env) :=
  .get_bind (fun _ => rfl) fun _ => .ite (.pure _) <|
    .bind (onCtx_blind _) fun _ => .bind (onCtx_blind _) fun _ => applyFull_blind

theorem powerOff_blind : Blind (outside W r) (powerOff env) := by
  refine .get_bind (fun _ => rfl) fun _ => .bind (.ite ?_ (.pure _)) fun _ => ?_
  · exact .bind isrDisable_blind fun _ => .bind (isrSetCallback_blind _ _) fun _ =>
      .bind (deinit_blind _) fun _ => .pure _
  · exact .bind (onCtx_blind _) fun _ => .pure _

theorem canPowerControl_blind (state : PowerState) :
    Blind (outside W r) (canPowerControl state env) := by
  refine .get_bind (fun _ => rfl) fun _ => .ite (.pure _) ?_
  cases state with
  | full => exact powerFull_blind
  | off => exact powerOff_blind
  | low => exact .pure _
  | other => exact .pure _

theorem canUnInitialize_blind : Blind (outside W r) (canUnInitialize env) := by
  refine .get_bind (fun _ => rfl) fun _ => .bind (.ite ?_ (.pure _)) fun _ => ?_
  · exact .bind (canPowerControl_blind _) fun _ => .pure _
  · exact .bind (onCtx_blind _) fun _ => .bind (onCtx_blind _) fun _ => .bind (onCtx_blind _) fun _ =>
      .pure _

theorem applyBitrate_blind : Blind (outside W r) (applyBitrate env) :=
  .get_bind (fun _ => rfl) fun _ => .ite (.pure _) <|
    .get_bind (fun _ => rfl) fun _ => .bind (setBitrate_blind _ _ _ _ _ _) fun _ => .pure _

theorem canSetBitrate_blind (select : BitrateSelect) (bitrate bitSegments : BitVec 32) :
    Blind (outside W r) (canSetBitrate select bitrate bitSegments env) := by
  refine .ite (.pure _) (.bind ?_ fun _ => ?_)
  · cases segmentSamplePct bitSegments with
    | none => exact .pure _
    | some pct => exact onCtx_blind _
  · cases select with
    | nominal => exact .bind (onCtx_blind _) fun _ => applyBitrate_blind
    | fdData => exact .bind (onCtx_blind _) fun _ => applyBitrate_blind
    | other => exact .pure _

theorem changeMode_blind (halMode : Mode) : Blind (outside W r) (changeMode halMode env) :=
  .get_bind (fun _ => rfl) fun _ => .ite (.pure _) (.ite (.pure _) (canApplyInit_blind _))

theorem canSetMode_blind (mode : ArmMode) : Blind (outside W r) (canSetMode mode env) := by
  refine .get_bind (fun _ => rfl) fun _ => .ite (.pure _) (.ite (.pure _) ?_)
  cases canMapMode mode with
  | none => exact .pure _
  | some mapped => exact .get_bind (fun _ => rfl) fun _ => changeMode_blind _

theorem setFdMode_blind (arg : BitVec 32) : Blind (outside W r) (setFdMode arg env) :=
  .ite (.pure _) <| .bind (onCtx_blind _) fun _ => .get_bind (fun _ => rfl) fun _ =>
    .ite (.get_bind (fun _ => rfl) fun _ => canApplyInit_blind _) (.pure _)

theorem abortMessageSend_blind (arg : BitVec 32) : Blind (outside W r) (abortMessageSend arg) :=
  .get_bind (fun _ => rfl) fun _ => .ite (.pure _) <|
    .ite (.pure _) (.bind txAbort_blind fun _ => .pure _)

theorem canControl_blind (code arg : BitVec 32) : Blind (outside W r) (canControl code arg env) :=
  .get_bind (fun _ => rfl) fun _ => .ite (.pure _) <|
    .ite (setFdMode_blind _) (.ite (abortMessageSend_blind _) (.pure _))

theorem canGetStatus_blind : Blind (outside W r) canGetStatus := by
  refine .get_bind (fun _ => rfl) fun _ => .ite (.pure _) (.bind getStatus_blind fun x => ?_)
  split <;> exact .pure _

theorem canMessageSend_inStep {up : Bool} (objIdx : BitVec 32) (info : Option MsgInfo)
    (data : Option (Nat → BitVec 8)) (size : Nat) :
    Lockstep (InStep W r up) (canMessageSend objIdx info data size env)
      (canMessageSend objIdx info data size env) := by
  refine .get_bind fun s t hst => ?_
  obtain ⟨rfl, -⟩ := hst
  refine .ite Iff.rfl (.pure _) ?_
  cases info with
  | none => exact .pure _
  | some info =>
    refine .ite Iff.rfl (.pure _) (.ite Iff.rfl (.pure _) (.get_bind fun s t hst => ?_))
    obtain ⟨rfl, -⟩ := hst
    refine .ite Iff.rfl (.pure _) (.bind (transmit_inStep _ _) fun _ => ?_)
    exact .ite Iff.rfl (.pure _) (.pure _)

theorem inStep_of_side {up : Bool} {p : M α} (h : Blind (outside W r) p) (hp : p.Moves ReceiveSide) :
    Lockstep (InStep W r up) p p := by
  refine inStep_of_blind h (hp.mono fun _ _ hcd => ?_)
  obtain ⟨_, _, _, rfl⟩ := hcd
  exact ⟨rfl, rfl, rfl, rfl⟩

theorem signalObject_inStep {up : Bool} (app : App) (event : BitVec 32) :
    Lockstep (InStep W r up) (signalObject app event) (signalObject app event) :=
  inStep_of_side (signalObject_blind _ _) (signalObject_side _ _)

theorem drain_inStep {up : Bool} (n : Nat) (f : Frame) (received dropped : Bool) :
    Lockstep (InStep W r up) (drainFrom ramPort n f received dropped)
      (drainFrom ramPort n f received dropped) := by
  induction n generalizing f received dropped with
  | zero => exact .fail _
  | succ n ih =>
    refine .bind (inStep_of_reads rxAvailable_blind rxAvailable_reads) fun _ => ?_
    refine .ite Iff.rfl (.pure _) (.bind (receive_inStep _ _ _) fun x => ?_)
    split
    next => exact .bind (inStep_of_side (storeFrame_blind _) (storeFrame_side _)) fun _ => ih _ _ _
    next => exact .pure _

theorem canHalEvent_inStep {up : Bool} (app : App) (f : Frame) (events : BitVec 32)
    (ud : Option UserData) : Lockstep (InStep W r up) (canHalEventFrom ramPort app f events ud)
      (canHalEventFrom ramPort app f events ud) := by
  cases ud with
  | none => exact .pure _
  | some ud =>
    refine .bind (.ite Iff.rfl (.get_bind fun s t hst => ?_) (.pure _)) fun _ => ?_
    · have hfifo : s.rxFifo = t.rxFifo := by rw [hst.1]; rfl
      rw [hfifo]
      refine .bind (drain_inStep _ _ _ _) fun _ => ?_
      exact .bind (.ite Iff.rfl (signalObject_inStep _ _) (.pure _)) fun _ =>
        .ite Iff.rfl (signalObject_inStep _ _) (.pure _)
    · refine .bind (.ite Iff.rfl (signalObject_inStep _ _) (.pure _)) fun _ => ?_
      exact .ite Iff.rfl (inStep_of_side (signalUnit_blind _ _) (signalUnit_side _ _)) (.pure _)

theorem handler_inStep {up : Bool} (app : App) (f : Frame) :
    Lockstep (InStep W r up) (handlerFrom ramPort app f) (handlerFrom ramPort app f) := by
  refine irqHandler_inStep fun cb events ud => ?_
  cases cb with
  | canHalEvent => exact canHalEvent_inStep _ _ _ _
  | application => exact .pure _

end Cmsis

end CanfdDriver
