import CanfdDriver.Hal.Arming
import CanfdDriver.Lib.Runs

/-! What the calls of the HAL do to the transmit side while the hardware works on. -/

namespace CanfdDriver

open Lib NoraCanfd

namespace NoraCanfd

/-- The busy flag, the CPU line and the two enables of the transmit side. -/
@[ext] structure TxSide : Type where
  busy : Bool
  line : Bool
  txie : Bool
  txqeie : Bool
  deriving DecidableEq

def Switches.txSide (v : Switches) : TxSide := ⟨v.txBusy, v.txLine, v.txie, v.txqeie⟩

abbrev txSide (c : Chan) : TxSide := c.switches.txSide

def SameTx (c d : Chan) : Prop := txSide d = txSide c

instance : Std.Refl SameTx := ⟨fun _ => rfl⟩

instance : IsTrans Chan SameTx := ⟨fun _ _ _ h h' => Eq.trans h' h⟩

theorem SameSwitches.tx {c d : Chan} (h : SameSwitches c d) : SameTx c d :=
  congrArg Switches.txSide h

/-- `INT.TXIF` shows the empty flag of the transmit queue while its interrupt is enabled. -/
def TxifShown (c : Chan) : Prop :=
  c.regs .int &&& intTxif ≠ 0 ↔
    c.regs .txqcon &&& txqconTxqeie ≠ 0 ∧ c.regs .txqsta &&& txqstaTxqeif ≠ 0

instance (c : Chan) : Decidable (TxifShown c) := inferInstanceAs (Decidable (_ ↔ _))

inductive Hardware (c : Chan) : Chan → Prop
  | sense {hw : Hw} : TxifShown (c.sense hw) → Hardware c (c.sense hw)

variable {c d : Chan} {st : Status}

theorem Hardware.switches (h : Hardware c d) : SameSwitches c d := by
  cases h with
  | sense => exact Chan.switches_sense _

theorem Hardware.tx (h : Hardware c d) : SameTx c d := h.switches.tx

theorem Hardware.node (h : Hardware c d) : d.node = c.node := by
  cases h with
  | sense => rfl

/-! ### Stores -/

theorem setReg_tx {r : Reg} (hi : r ≠ .int) (ht : r ≠ .txqcon) (v : BitVec 32) :
    SameTx c (c.setReg r v) := by
  have hint : (c.setReg r v).regs .int = c.regs .int := Function.update_of_ne hi.symm _ _
  have htxq : (c.setReg r v).regs .txqcon = c.regs .txqcon := Function.update_of_ne ht.symm _ _
  apply TxSide.ext
  case txie => exact congrArg (fun w : BitVec 32 => decide (w &&& intTxie ≠ 0)) hint
  case txqeie => exact congrArg (fun w : BitVec 32 => decide (w &&& txqconTxqeie ≠ 0)) htxq
  all_goals rfl

theorem regSet_tx {r : Reg} (hi : r ≠ .int) (ht : r ≠ .txqcon) (m : BitVec 32) :
    (regSet r m).Moves SameTx := .modify fun _ => setReg_tx hi ht _

theorem regClear_tx {r : Reg} (hi : r ≠ .int) (ht : r ≠ .txqcon) (m : BitVec 32) :
    (regClear r m).Moves SameTx := .modify fun _ => setReg_tx hi ht _

theorem regWrite_tx {r : Reg} (hi : r ≠ .int) (ht : r ≠ .txqcon) (v : BitVec 32) :
    (regWrite r v).Moves SameTx := .modify fun _ => setReg_tx hi ht _

theorem set_shows {m : BitVec 32} (hm : m ≠ 0) (v : BitVec 32) :
    decide ((v ||| m) &&& m ≠ 0) = true := by
  rwa [MaskedWrite.or_and_of_sub BitVec.and_self, decide_eq_true_eq]

theorem clear_shows (m v : BitVec 32) : decide ((v &&& ~~~m) &&& m ≠ 0) = false := by
  rw [MaskedWrite.and_not_and_of_sub BitVec.and_self]
  rfl

theorem setTxqcon_tx (v : BitVec 32) : txSide (c.setReg .txqcon v) =
    { txSide c with txqeie := v &&& txqconTxqeie ≠ 0 } := rfl

theorem setInt_tx (v : BitVec 32) : txSide (c.setReg .int v) =
    { txSide c with txie := v &&& intTxie ≠ 0 } := rfl

theorem setTxqeie_maps :
    Prog.Maps txSide (fun v => { v with txqeie := true }) (regSet .txqcon txqconTxqeie) :=
  .modify fun _ => by rw [setTxqcon_tx, set_shows (by decide)]

theorem clearTxqeie_maps :
    Prog.Maps txSide (fun v => { v with txqeie := false }) (regClear .txqcon txqconTxqeie) :=
  .modify fun _ => by rw [setTxqcon_tx, clear_shows]

theorem rewriteTxqcon_maps :
    Prog.Maps txSide (fun v => { v with txqeie := false }) (regWrite .txqcon txqconWord) :=
  .modify fun _ => by rw [setTxqcon_tx, decide_eq_false (by decide)]

theorem setTxie_maps :
    Prog.Maps txSide (fun v => { v with txie := true }) (regSet .int intTxie) :=
  .modify fun _ => by rw [setInt_tx, set_shows (by decide)]

theorem clearTxie_maps :
    Prog.Maps txSide (fun v => { v with txie := false }) (regClear .int intTxie) :=
  .modify fun _ => by rw [setInt_tx, clear_shows]

theorem setOthers_tx {m : BitVec 32} (hm : intTxie &&& m = 0) : (regSet .int m).Moves SameTx :=
  .modify fun _ => by rw [SameTx, setInt_tx, MaskedWrite.or_and_of_disjoint hm]; rfl

theorem clearOthers_tx {m : BitVec 32} (hm : intTxie &&& m = 0) : (regClear .int m).Moves SameTx :=
  .modify fun _ => by rw [SameTx, setInt_tx, MaskedWrite.and_not_and_of_disjoint hm]; rfl

theorem setTxBusy_maps (b : Bool) :
    Prog.Maps txSide (fun v => { v with busy := b }) (setTxBusy b) := .modify fun _ => rfl

theorem setTxLine_maps (b : Bool) :
    Prog.Maps txSide (fun v => { v with line := b }) (onTx (setLineEnable · b)) :=
  .modify fun _ => rfl

theorem txLineFlag_tx : (onTx clearLineFlag).Moves SameTx := .modify fun _ => rfl

theorem txLinePriority_tx (priority : BitVec 8) :
    (onTx (setLinePriority · priority)).Moves SameTx := .modify fun _ => rfl

theorem onRx_tx (f : Line → Line) : (onRx f).Moves SameTx := .modify fun _ => rfl

theorem onGen_tx (f : Line → Line) : (onGen f).Moves SameTx := .modify fun _ => rfl

theorem setIsrEnabled_tx (b : Bool) : (setIsrEnabled b).Moves SameTx := .modify fun _ => rfl

def TxSide.off : TxSide := ⟨false, false, false, false⟩

def TxSide.on : TxSide := ⟨true, true, true, true⟩

theorem txDisarm_maps : Prog.Maps txSide (fun _ => .off) txDisarm :=
  (Prog.Maps.bind clearTxqeie_maps fun _ => .bind clearTxie_maps fun _ =>
    .bind (.bind (setTxLine_maps false) fun _ => .of_moves txLineFlag_tx) fun _ =>
    setTxBusy_maps false :)

theorem irqLineDisable_maps :
    Prog.Maps txSide (fun v => { v with line := false }) irqLineDisable :=
  (Prog.Maps.bind (.of_moves (onRx_tx _)) fun _ => .bind (.of_moves (onRx_tx _)) fun _ =>
    .bind (setTxLine_maps false) fun _ => .bind (.of_moves txLineFlag_tx) fun _ =>
    .bind (.of_moves (onGen_tx _)) fun _ => .of_moves (onGen_tx _) :)

theorem irqLineEnable_tx (priority : BitVec 8) : (irqLineEnable priority).Moves SameTx :=
  .bind (.modify fun _ => rfl) fun _ => .bind (onRx_tx _) fun _ => .bind (onRx_tx _) fun _ =>
    .bind (onRx_tx _) fun _ => .bind (onGen_tx _) fun _ => .bind (onGen_tx _) fun _ => onGen_tx _

theorem irqTxLineEnable_maps :
    Prog.Maps txSide (fun v => { v with line := true }) irqTxLineEnable :=
  (Prog.Maps.bind (.of_moves txLineFlag_tx) fun _ => .get_bind fun _ =>
    .bind (.of_moves (txLinePriority_tx _)) fun _ => setTxLine_maps true :)

theorem requestMode_tx (reqop : BitVec 8) (p : Poll) : (requestMode reqop p).Moves SameTx :=
  .bind (.bind .get fun _ => .pure _) fun _ =>
    .bind (.modify fun _ => setReg_tx (by decide) (by decide) _) fun _ => pollUntil_reads _ _ _

theorem writeBitTiming_tx (t : BitTiming) : (writeBitTiming t).Moves SameTx :=
  .bind (regWrite_tx (by decide) (by decide) _) fun _ =>
    .bind (regWrite_tx (by decide) (by decide) _) fun _ => regWrite_tx (by decide) (by decide) _

theorem configure_maps (cfg : Config) (t : BitTiming) :
    Prog.Maps txSide (fun v => { v with txqeie := false }) (configure cfg t) := by
  have hset (m : BitVec 32) := regSet_tx (r := .con) (by decide) (by decide) m
  have hclear (m : BitVec 32) := regClear_tx (r := .con) (by decide) (by decide) m
  have hwrite (r : Reg) (v : BitVec 32) (hi : r ≠ .int) (ht : r ≠ .txqcon) :=
    Prog.Maps.of_moves (regWrite_tx hi ht v)
  have hbrs : (if cfg.brs then regClear .con conBrsdis else regSet .con conBrsdis).Moves SameTx :=
    .ite (hclear _) (hset _)
  exact (Prog.Maps.bind (.of_moves (hclear _)) fun _ => .bind (.of_moves (hset _)) fun _ =>
    .bind (.of_moves hbrs) fun _ => .bind (.of_moves (hclear _)) fun _ =>
    .bind (.of_moves (hset _)) fun _ => .bind (.of_moves (writeBitTiming_tx t)) fun _ =>
    .bind (hwrite .fifoba cfg.msgRam (by decide) (by decide)) fun _ => .bind rewriteTxqcon_maps fun _ =>
    .bind (hwrite .fifocon1 fifocon1Word (by decide) (by decide)) fun _ =>
    .bind (hwrite .fltobj0 0 (by decide) (by decide)) fun _ =>
    .bind (hwrite .mask0 0 (by decide) (by decide)) fun _ =>
    hwrite .fltcon0 fltcon0Word (by decide) (by decide) :)

theorem solved_tx (x : Except Stop (Option BitTiming)) : (solved x).Moves SameTx := by
  cases x with
  | error e => exact .fail e
  | ok t => exact .pure t

theorem setBitrate_tx (canClkHz nominalBps dataBps : BitVec 32) (samplePct : BitVec 8)
    (toConfig toMode : Poll) :
    (setBitrate canClkHz nominalBps dataBps samplePct toConfig toMode).Moves SameTx := by
  refine .ite (.pure _) (.bind getRegs_reads fun _ => .ite (.pure _) (.bind .get fun _ => ?_))
  refine .ite (.pure _) (.bind (solved_tx _) fun t => ?_)
  cases t with
  | none => exact .pure _
  | some t =>
    refine .bind .get fun _ => .bind (requestMode_tx _ _) fun _ => .ite (.pure _) ?_
    exact .bind (writeBitTiming_tx t) fun _ => requestMode_tx _ _

theorem deinit_tx (toOff : Poll) : (deinit toOff).Moves SameTx := by
  refine .bind getRegs_reads fun _ => .ite (.pure _) (.bind .get fun _ => .ite ?_ ?_)
  · exact .bind (.modify fun _ => rfl) fun _ => .pure _
  · refine .bind (requestMode_tx _ _) fun _ => ?_
    refine .bind (regClear_tx (by decide) (by decide) _) fun _ => .bind (.modify fun _ => rfl) ?_
    exact fun _ => .bind (.modify fun _ => rfl) fun _ => .pure _

def HalCall.isTxStart : HalCall → Bool
  | .txStart _ _ => true
  | _ => false

def startsTx : HalCall × Status → Bool
  | (call, st) => call.isTxStart && st = .ok

def endsTx : HalCall × Status → Bool
  | (.txAbort, st) | (.isrDisable, st) => st = .ok
  | _ => false

def forgetsTx : HalCall × Status → Bool
  | (.isrEnable _, st) => st = .ok
  | _ => false

def rewritesTxqcon : HalCall × Status → Bool
  | (.init (some cfg) toConfig _, st) =>
    (st = .ok || st = .timeout) && decide (Granted cfg.node opmodeConfig toConfig)
  | _ => false

def TxSide.after (v : TxSide) (k : HalCall × Status) : TxSide :=
  if startsTx k then .on
  else if endsTx k then .off
  else if forgetsTx k then { v with busy := false }
  else if rewritesTxqcon k then { v with txqeie := false }
  else v

section

variable {α : Type} {p : M α} {a : α} {f : TxSide → TxSide}

theorem runs_tx (hp : p.Moves SameTx) (h : p.Runs Hardware c a d) : txSide d = txSide c :=
  hp.runs (fun _ _ h => h.tx) h

theorem runs_maps (hp : p.Maps txSide f) (h : p.Runs Hardware c a d) : txSide d = f (txSide c) :=
  hp.runs (fun _ _ h => h.tx) h

end

def txQueue (frame : Option Frame) (room : Poll) : M Status := do
  let st ← getRegs
  if st ≠ .ok then return st
  else
    let c ← .get
    if !c.isr.isrEnabled then return .sequence
    else transmit frame room

def txArm : M Status := do
  regSet .txqcon txqconTxqeie
  regSet .int intTxie
  irqTxLineEnable
  return .ok

def txStarted (st : Status) : M Status :=
  if st ≠ .ok then return st
  else do
    setTxBusy true
    txArm

theorem txStart_eq (frame : Option Frame) (room : Poll) :
    txStart frame room = txQueue frame room >>= txStarted := by
  rw [txStart, txQueue, Prog.bind_assoc]
  refine congrArg (getRegs >>= ·) (funext fun st => ?_)
  rw [Prog.ite_bind]
  split
  next hst => exact (if_pos hst).symm
  next =>
    rw [Prog.bind_assoc]
    refine congrArg (Prog.get >>= ·) (funext fun c => ?_)
    rw [Prog.ite_bind]
    rfl

theorem txQueue_switches (frame : Option Frame) (room : Poll) :
    (txQueue frame room).Moves SameSwitches :=
  .bind getRegs_reads fun _ => .ite (.pure _) (.bind .get fun _ =>
    .ite (.pure _) (transmit_switches frame room))

theorem txArm_maps :
    Prog.Maps txSide (fun v => { v with txqeie := true, txie := true, line := true }) txArm :=
  (Prog.Maps.bind setTxqeie_maps fun _ => .bind setTxie_maps fun _ =>
    .bind irqTxLineEnable_maps fun _ => .pure Status.ok :)

theorem txArm_returns : txArm.Returns (· = .ok) :=
  .bind (.any _) fun _ _ => .bind (.any _) fun _ _ => .bind (.any _) fun _ _ => .pure rfl

theorem txStart_runs {frame : Option Frame} {room : Poll}
    (h : (txStart frame room).Runs Hardware c st d) :
    txSide d = if st = .ok then .on else txSide c := by
  rw [txStart_eq, Prog.runs_bind] at h
  obtain ⟨st', e, hqueue, hrest⟩ := h
  have he : txSide e = txSide c := runs_tx ((txQueue_switches _ _).mono fun _ _ h => h.tx) hqueue
  rw [txStarted] at hrest
  split at hrest
  next hst =>
    obtain rfl : st = st' := Prog.Returns.runs (P := (· = st')) (.pure rfl) hrest
    rw [if_neg hst, ← he]
    exact runs_tx (.pure _) hrest
  next =>
    obtain ⟨_, g, hbusy, harm⟩ := Prog.runs_bind.mp hrest
    obtain rfl : st = .ok := txArm_returns.runs harm
    rw [if_pos rfl, runs_maps txArm_maps harm, runs_maps (setTxBusy_maps true) hbusy]
    rfl

theorem guarded_runs {p : M Unit} {f : TxSide → TxSide} (hp : p.Maps txSide f)
    (h : (getRegs >>= fun st => if st ≠ .ok then pure st else p >>= fun _ => pure .ok).Runs
      Hardware c st d) :
    txSide d = if st = .ok then f (txSide c) else txSide c := by
  obtain ⟨st', e, hregs, hrest⟩ := Prog.runs_bind.mp h
  have he : txSide e = txSide c := runs_tx getRegs_reads hregs
  split at hrest
  next hst =>
    obtain rfl : st = st' := Prog.Returns.runs (P := (· = st')) (.pure rfl) hrest
    rw [if_neg hst, ← he]
    exact runs_tx (.pure _) hrest
  next =>
    obtain ⟨_, g, hp', hret⟩ := Prog.runs_bind.mp hrest
    obtain rfl : st = .ok := Prog.Returns.runs (P := (· = .ok)) (.pure rfl) hret
    rw [if_pos rfl, runs_tx (.pure _) hret, runs_maps hp hp', he]

theorem txAbort_runs (h : txAbort.Runs Hardware c st d) :
    txSide d = if st = .ok then .off else txSide c := guarded_runs txDisarm_maps h

theorem isrDisable_runs (h : isrDisable.Runs Hardware c st d) :
    txSide d = if st = .ok then .off else txSide c := by
  have hint : Prog.Maps txSide (fun v => { v with txie := false }) (regClear .int intEnables) :=
    .modify fun _ => by
      rw [setInt_tx, MaskedWrite.and_not_and_of_sub (by decide)]
      rfl
  have hfifo := Prog.Maps.of_moves (regClear_tx (r := .fifocon1) (by decide) (by decide)
    (fifoconTfnrfnie ||| fifoconRxovie))
  have hparts : Prog.Maps txSide (fun _ => .off) (do
      setIsrEnabled false
      irqLineDisable
      regClear .int intEnables
      regClear .fifocon1 (fifoconTfnrfnie ||| fifoconRxovie)
      regClear .txqcon txqconTxqeie
      setTxBusy false) :=
    (Prog.Maps.bind (.of_moves (setIsrEnabled_tx false)) fun _ => .bind irqLineDisable_maps fun _ =>
      .bind hint fun _ => .bind hfifo fun _ => .bind clearTxqeie_maps fun _ => setTxBusy_maps false :)
  refine guarded_runs (d := d) hparts ?_
  simp only [Prog.bind_assoc]
  exact h

theorem isrEnable_runs {priority : BitVec 8} (h : (isrEnable priority).Runs Hardware c st d) :
    txSide d = if st = .ok then { txSide c with busy := false } else txSide c := by
  have hrefuse {e : Chan} {st' : Status} (hst : st' ≠ .ok) (he : txSide e = txSide c)
      (hret : (pure st' : M Status).Runs Hardware e st d) :
      txSide d = if st = .ok then { txSide c with busy := false } else txSide c := by
    obtain rfl : st = st' := Prog.Returns.runs (P := (· = st')) (.pure rfl) hret
    rw [if_neg hst, runs_tx (.pure _) hret, he]
  rw [isrEnable] at h
  split at h
  next => exact hrefuse (by decide) rfl h
  next =>
    obtain ⟨st', e, hregs, hrest⟩ := Prog.runs_bind.mp h
    have he : txSide e = txSide c := runs_tx getRegs_reads hregs
    split at hrest
    next hst => exact hrefuse hst he hrest
    next =>
      obtain ⟨g, g', hget, hrest⟩ := Prog.runs_bind.mp hrest
      have hg : txSide g' = txSide c := (runs_tx .get hget).trans he
      split at hrest
      next => exact hrefuse (by decide) hg hrest
      next =>
        have hparts : Prog.Maps txSide (fun v => { v with busy := false }) (do
            regSet .fifocon1 (fifoconTfnrfnie ||| fifoconRxovie)
            regSet .int (intRxie ||| intRxovie)
            setTxBusy false
            irqLineEnable (effectivePriority priority)
            setIsrEnabled true
            return Status.ok) :=
          (Prog.Maps.bind (.of_moves (regSet_tx (r := .fifocon1) (by decide) (by decide) _)) fun _ =>
            .bind (.of_moves (setOthers_tx (m := intRxie ||| intRxovie) (by decide))) fun _ =>
            .bind (setTxBusy_maps false) fun _ =>
            .bind (.of_moves (irqLineEnable_tx _)) fun _ => .bind (.of_moves (setIsrEnabled_tx true))
              fun _ => .pure _ :)
        obtain rfl : st = .ok := Prog.Returns.runs (P := (· = .ok)) (.bind (.any _) fun _ _ =>
          .bind (.any _) fun _ _ => .bind (.any _) fun _ _ => .bind (.any _) fun _ _ =>
          .bind (.any _) fun _ _ => .pure rfl) hrest
        rw [if_pos rfl, runs_maps hparts hrest, hg]

/-! ### The bring-up -/

theorem pollUntil_runs {done : BitVec 32 → Bool} {start : BitVec 32} {xs : List Sample}
    (h : (pollUntil done start xs).Runs Hardware c st d) :
    pollResult c.node done start xs = .ok st := by
  induction xs generalizing c with
  | nil => exact h.not_fail.elim
  | cons x xs ih =>
    rw [pollUntil] at h
    rw [pollResult]
    split at h
    next hd =>
      rw [if_pos hd]
      exact congrArg Except.ok (Prog.Returns.runs (P := (Status.ok = ·)) (.pure rfl) h)
    next hd =>
      rw [if_neg hd]
      obtain ⟨e, g, hget, hrest⟩ := Prog.runs_bind.mp h
      obtain ⟨he, hg⟩ := Prog.runs_get (π := Chan.node) (fun _ _ h => h.node) hget
      rw [he] at hrest
      split at hrest
      next hx =>
        rw [if_pos hx]
        exact congrArg Except.ok (Prog.Returns.runs (P := (Status.timeout = ·)) (.pure rfl) hrest)
      next hx =>
        rw [if_neg hx, ← hg]
        exact ih hrest

theorem node_runs {α : Type} {p : M α} {a : α} {f : NodeState → NodeState} (hp : p.Maps Chan.node f)
    (h : p.Runs Hardware c a d) : d.node = f c.node :=
  hp.runs (fun _ _ h => h.node) h

theorem requestMode_runs {reqop : BitVec 8} {p : Poll} (h : (requestMode reqop p).Runs Hardware c st d) :
    requestOutcome c.node reqop p = .ok st := by
  obtain ⟨start, e, hstart, hrest⟩ := Prog.runs_bind.mp h
  obtain ⟨_, g, hwrite, hpoll⟩ := Prog.runs_bind.mp hrest
  obtain ⟨x, e', hget, hret⟩ := Prog.runs_bind.mp hstart
  obtain ⟨hx, he'⟩ := Prog.runs_get (π := Chan.node) (fun _ _ h => h.node) hget
  obtain rfl : start = if x.node.getMs then p.start else 0 :=
    Prog.Returns.runs (P := (· = _)) (.pure rfl) hret
  have he : e.node = c.node := (node_runs (.pure _) hret).trans he'
  have hfield : (regWriteField .con conReqopMask (reqop.setWidth 32 <<< conReqopPos)).Maps
      Chan.node id := .modify fun _ => rfl
  have hg : g.node = c.node := (node_runs hfield hwrite).trans he
  rw [hx, ← hg] at hpoll
  rw [← hg]
  exact pollUntil_runs hpoll

def bringUpEnter (cfg : Config) : M Unit := do
  .modify fun c => c.setNode { c.node with getMs := cfg.getMs }
  .modify fun c => c.setNode { c.node with timeoutMs := cfg.timeoutMs }
  .modify fun c => c.setNode { c.node with initialized := false }
  setMode .none
  regSet .con conOn

theorem bringUpEnter_tx (cfg : Config) : (bringUpEnter cfg).Moves SameTx :=
  .bind (.modify fun _ => rfl) fun _ => .bind (.modify fun _ => rfl) fun _ =>
    .bind (.modify fun _ => rfl) fun _ => .bind (.modify fun _ => rfl) fun _ =>
    regSet_tx (by decide) (by decide) _

theorem bringUpEnter_node (cfg : Config) :
    (bringUpEnter cfg).Maps Chan.node fun _ => cfg.node := by
  have hset (u : NodeState → NodeState) :
      (Prog.modify fun c => c.setNode (u c.node) : M Unit).Maps Chan.node u := .modify fun _ => rfl
  have hmode : (setMode .none).Maps Chan.node id := .modify fun _ => rfl
  have hon : (regSet .con conOn).Maps Chan.node id := .modify fun _ => rfl
  exact (Prog.Maps.bind (hset fun n => { n with getMs := cfg.getMs }) fun _ =>
    .bind (hset fun n => { n with timeoutMs := cfg.timeoutMs }) fun _ =>
    .bind (hset fun n => { n with initialized := false }) fun _ => .bind hmode fun _ => hon :)

def bringUpConfigure (cfg : Config) (t : BitTiming) (toConfig toMode : Poll) : M Status := do
  let st ← requestMode opmodeConfig toConfig
  if st ≠ .ok then
    regClear .con conOn
    return st
  else
    configure cfg t
    let st ← requestMode (modeToReqop cfg.mode) toMode
    if st ≠ .ok then
      regClear .con conOn
      return st
    else
      setMode cfg.mode
      .modify fun c => c.setNode { c.node with initialized := true }
      return .ok

theorem bringUp_runs {cfg : Config} {t : BitTiming} {toConfig toMode : Poll}
    (h : (bringUp cfg t toConfig toMode).Runs Hardware c st d) :
    (st = .ok ∨ st = .timeout) ∧ txSide d =
      if Granted cfg.node opmodeConfig toConfig then { txSide c with txqeie := false }
      else txSide c := by
  have hcut : bringUp cfg t toConfig toMode =
      bringUpEnter cfg >>= fun _ => bringUpConfigure cfg t toConfig toMode := rfl
  rw [hcut] at h
  obtain ⟨_, e, henter, h⟩ := Prog.runs_bind.mp h
  obtain ⟨st', g, hrequest, h⟩ := Prog.runs_bind.mp h
  have hg : txSide g = txSide c :=
    (runs_tx (requestMode_tx _ _) hrequest).trans (runs_tx (bringUpEnter_tx cfg) henter)
  have hconfig := requestMode_runs hrequest
  rw [node_runs (bringUpEnter_node cfg) henter] at hconfig
  have hoff {st' : Status} {b : Chan} (hst : st' ≠ .ok) (hend : st' = .ok ∨ st' = .timeout)
      (h : (regClear .con conOn >>= fun _ => pure st').Runs Hardware b st d) :
      (st = .ok ∨ st = .timeout) ∧ txSide d = txSide b := by
    obtain rfl : st = st' :=
      Prog.Returns.runs (P := (· = st')) (.bind (.any _) fun _ _ => .pure rfl) h
    exact ⟨hend, runs_tx (.bind (regClear_tx (by decide) (by decide) _) fun _ => .pure _) h⟩
  split at h
  next hst =>
    have hnot : ¬Granted cfg.node opmodeConfig toConfig := fun hgr =>
      hst (Except.ok.inj (hconfig.symm.trans hgr))
    rw [if_neg hnot, ← hg]
    exact hoff hst (pollResult_eq_ok hconfig) h
  next hst =>
    rw [not_not] at hst
    subst hst
    obtain ⟨_, b, hconf, h⟩ := Prog.runs_bind.mp h
    obtain ⟨st', b', hmode, h⟩ := Prog.runs_bind.mp h
    rw [if_pos (show Granted _ _ _ from hconfig), ← hg]
    have hb : txSide b' = { txSide g with txqeie := false } :=
      (runs_tx (requestMode_tx _ _) hmode).trans (runs_maps (configure_maps cfg t) hconf)
    rw [← hb]
    split at h
    next hst => exact hoff hst (pollResult_eq_ok (requestMode_runs hmode)) h
    next =>
      obtain rfl : st = .ok := Prog.Returns.runs (P := (· = .ok)) (.bind (.any _) fun _ _ =>
        .bind (.any _) fun _ _ => .pure rfl) h
      have hrest : (do
          setMode cfg.mode
          .modify fun c => c.setNode { c.node with initialized := true }
          return .ok : M Status).Moves SameTx :=
        .bind (.modify fun _ => rfl) fun _ => .bind (.modify fun _ => rfl) fun _ => .pure _
      exact ⟨.inl rfl, runs_tx hrest h⟩

theorem init_runs {config : Option Config} {toConfig toMode : Poll}
    (h : (init config toConfig toMode).Runs Hardware c st d) :
    txSide d = if rewritesTxqcon (.init config toConfig toMode, st) then
      { txSide c with txqeie := false } else txSide c := by
  have hrefuse {e : Chan} {st' : Status} (hst : st' ≠ .ok) (hst' : st' ≠ .timeout)
      (he : txSide e = txSide c) (hret : (pure st' : M Status).Runs Hardware e st d) :
      txSide d = if rewritesTxqcon (.init config toConfig toMode, st) then
        { txSide c with txqeie := false } else txSide c := by
    obtain rfl : st = st' := Prog.Returns.runs (P := (· = st')) (.pure rfl) hret
    rw [runs_tx (.pure _) hret, he]
    cases config with
    | none => rfl
    | some cfg => simp [rewritesTxqcon, hst, hst']
  cases config with
  | none => exact hrefuse (by decide) (by decide) rfl h
  | some cfg =>
    rw [init] at h
    split at h
    next => exact hrefuse (by decide) (by decide) rfl h
    split at h
    next => exact hrefuse (by decide) (by decide) rfl h
    split at h
    next => exact hrefuse (by decide) (by decide) rfl h
    split at h
    next => exact hrefuse (by decide) (by decide) rfl h
    obtain ⟨st', e, hregs, h⟩ := Prog.runs_bind.mp h
    have he : txSide e = txSide c := runs_tx getRegs_reads hregs
    have hst' : st' = .ok ∨ st' = .notPresent := getRegs_returns.runs hregs
    split at h
    next hst =>
      obtain rfl := hst'.resolve_left hst
      exact hrefuse (by decide) (by decide) he h
    next =>
      obtain ⟨t, g, hsolved, h⟩ := Prog.runs_bind.mp h
      have hg : txSide g = txSide c := (runs_tx (solved_tx _) hsolved).trans he
      cases t with
      | none => exact hrefuse (by decide) (by decide) hg h
      | some t =>
        obtain ⟨hend, hd⟩ := bringUp_runs h
        rw [hd, hg]
        obtain rfl | rfl := hend <;> simp [rewritesTxqcon]

/-- What a call does to the transmit side, whatever the hardware does meanwhile. -/
theorem call_runs {call : HalCall} (h : call.run.Runs Hardware c st d) :
    txSide d = (txSide c).after (call, st) := by
  cases call with
  | init config toConfig toMode => exact init_runs h
  | deinit toOff => exact runs_tx (deinit_tx toOff) h
  | setBitrate => exact runs_tx (setBitrate_tx _ _ _ _ _ _) h
  | transmit frame room => exact runs_tx ((transmit_switches frame room).mono fun _ _ h => h.tx) h
  | rxAvailable => exact runs_tx (.bind rxAvailable_reads fun _ => .pure _) h
  | receive frame p arriving =>
    exact runs_tx (.bind ((receive_switches frame p arriving).mono fun _ _ h => h.tx) fun _ => .pure _) h
  | isrSetCallback callback userData =>
    have hset : (isrSetCallback callback userData).Moves SameTx :=
      .bind (.modify fun _ => rfl) fun _ => .bind (.modify fun _ => rfl) fun _ => .pure _
    exact runs_tx hset h
  | isrEnable priority =>
    rw [isrEnable_runs h]
    cases st <;> rfl
  | isrDisable =>
    rw [isrDisable_runs h]
    cases st <;> rfl
  | txStart frame room =>
    rw [txStart_runs h]
    cases st <;> rfl
  | txAbort =>
    rw [txAbort_runs h]
    cases st <;> rfl
  | getStatus =>
    exact runs_tx (.bind (getStatus_switches.mono fun _ _ h => h.tx) fun _ => .pure _) h
  | clearRxOverflow => exact runs_tx (clearRxOverflow_switches.mono fun _ _ h => h.tx) h

end NoraCanfd

end CanfdDriver
