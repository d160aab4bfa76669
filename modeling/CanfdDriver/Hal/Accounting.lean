import CanfdDriver.Hal.TxSide
import CanfdDriver.Hal.Unwired
import CanfdDriver.Lib.Logged

namespace CanfdDriver

open Lib NoraCanfd

namespace NoraCanfd

def HalLabel.starts : HalLabel → Bool
  | .call k st => startsTx (k, st)
  | _ => false

def HalLabel.reportsDone : HalLabel → Bool
  | .events (some r) => r.events &&& eventTxComplete ≠ 0
  | _ => false

/-- The transmissions that can still be reported: at most one is armed. -/
def armed (c : Chan) : Nat := c.switches.txqeie.toNat

/-- What interrupts the application: the handler, which finds `TXIF` as the module shows it, the
calls of its callback, and the hardware. -/
def Serviced (c : Chan) (l : HalLabel) (d : Chan) : Prop :=
  HalStep c l d ∧ ∀ r, l = .events r → TxifShown c

abbrev TxRun : Thread HalCall (Logged Chan HalLabel) Stop Status →
    Thread HalCall (Logged Chan HalLabel) Stop Status → Prop :=
  Thread.Run (fun call => Logged.focus.lift call.run) (Logged.Env Serviced)

variable {c d : Chan} {l : HalLabel}

theorem acts_armed {a : Action} (h : Acts c l a) :
    (c.switches.act a).txqeie.toNat ≤ armed c + if l.starts then 1 else 0 := by
  cases h with
  | stay | unset | off | down | enable => exact Nat.le_add_right _ _
  | strip | up | disable | abort | done => exact Nat.zero_le _
  | arm => exact Nat.le_add_left _ _

theorem serviced_pays : Logged.Pays Serviced armed HalLabel.starts HalLabel.reportsDone := by
  rintro c l d ⟨hstep, hshown⟩
  obtain ⟨a, hacts, hd⟩ := hstep.acts
  have hle : armed d ≤ armed c + if l.starts then 1 else 0 := by
    rw [armed, hd]
    exact acts_armed hacts
  cases hrep : l.reportsDone with
  | false => simpa using hle
  | true =>
    cases hstep with
    | call => cases hrep
    | leave => cases hrep
    | hardware => cases hrep
    | @events r _ hexec =>
      cases hp : c.present with
      | false =>
        rw [exec_irqEvents_absent hp] at hexec
        cases hexec
        cases hrep
      | true =>
        have hserves := irqEvents_serves hp hexec
        rw [exec_irqEvents hp] at hexec
        cases hexec
        cases hr : c.report with
        | none =>
          rw [hr] at hrep
          cases hrep
        | some r =>
          rw [hr] at hrep
          have hdone := txDone_of_report hr (by simpa [HalLabel.reportsDone] using hrep)
          have htxqeie := ((hshown _ rfl).mp hdone.1).1
          have hc : armed c = 1 := by
            rw [armed, Chan.switches, decide_eq_true htxqeie]
            rfl
          have hzero : armed c.acked = 0 := by
            rw [armed, hserves.switches, if_pos hdone]
            rfl
          rw [hc, hzero]
          exact Nat.le_add_right _ _

theorem NoArm.armed (h : NoArm c d) : armed d ≤ armed c :=
  Bool.toNat_le_toNat fun hd => decide_eq_true fun hc => of_decide_eq_true hd (h.regs .txqcon hc)

theorem call_noArm {call : HalCall} (hc : call.isTxStart = false) : call.run.Moves NoArm := by
  have hsame {p : M Status} (hp : p.Moves SameSwitches) : p.Moves NoArm :=
    hp.mono fun _ _ h => h.noArm
  cases call with
  | init config toConfig toMode => exact init_noArm config toConfig toMode
  | deinit toOff => exact deinit_noArm toOff
  | setBitrate canClkHz nominalBps dataBps samplePct toConfig toMode =>
    exact setBitrate_noArm canClkHz nominalBps dataBps samplePct toConfig toMode
  | transmit frame room => exact hsame (transmit_switches frame room)
  | rxAvailable => exact .bind rxAvailable_reads fun _ => .pure _
  | receive frame p arriving =>
    exact hsame (.bind (receive_switches frame p arriving) fun _ => .pure _)
  | isrSetCallback callback userData =>
    exact .bind (.modify fun _ => .of_eq rfl rfl) fun _ =>
      .bind (.modify fun _ => .of_eq rfl rfl) fun _ => .pure _
  | isrEnable priority => exact isrEnable_noArm priority
  | isrDisable => exact isrDisable_noArm
  | txStart => cases hc
  | txAbort => exact txAbort_noArm
  | getStatus => exact hsame (.bind getStatus_switches fun _ => .pure _)
  | clearRxOverflow => exact hsame clearRxOverflow_switches

/-- What was reported or can still be reported is covered by the calls of the callback and `n` of
the application. -/
abbrev Owes (n : Nat) : Logged Chan HalLabel → Prop :=
  Logged.Covered armed HalLabel.starts HalLabel.reportsDone n

variable {n : Nat} {s t : Logged Chan HalLabel}

theorem Owes.interrupted (h : Owes n s)
    (hs : Relation.ReflTransGen (Logged.Env Serviced) s t) : Owes n t :=
  Logged.Covered.interrupted serviced_pays h hs

theorem owes_conc {α : Type} {p : M α} (hp : p.Moves NoArm) (hs : Owes n s) :
    Prog.Conc (Logged.Env Serviced) (Owes n) (Logged.focus.lift p) (fun _ => Owes n) s :=
  Logged.Covered.conc serviced_pays (hp.mono fun _ _ h => h.armed) hs

theorem txStart_owes (frame : Option Frame) (room : Poll) (hs : Owes n s) :
    Prog.Conc (Logged.Env Serviced) (Owes (n + 1)) (Logged.focus.lift (txStart frame room))
      (fun st => Owes (n + if st = .ok then 1 else 0)) s := by
  have hmono {α : Type} {p : M α} {u : Logged Chan HalLabel} (hp : p.Moves NoArm) (hu : Owes n u) :
      Prog.Conc (Logged.Env Serviced) (Owes (n + 1)) (Logged.focus.lift p) (fun _ => Owes n) u :=
    (owes_conc hp hu).mono (fun _ h => h.mono (Nat.le_succ n)) fun _ _ _ => id
  have hqueue : (txQueue frame room).Moves NoArm :=
    (txQueue_switches frame room).mono fun _ _ h => h.noArm
  rw [txStart_eq, Focus.lift_bind]
  refine .seq (hmono hqueue hs) fun st u _ hu => ?_
  rw [txStarted]
  split
  next hst =>
    refine .pure fun v hv => ?_
    have hv : Owes n v := hu.interrupted hv
    exact ⟨hv.mono (Nat.le_succ n), hv.mono (Nat.le_add_right n _)⟩
  next =>
    have harm : txArm = regSet .txqcon txqconTxqeie >>= fun _ =>
        (regSet .int intTxie >>= fun _ => irqTxLineEnable) >>= fun _ => pure Status.ok := rfl
    have : Std.Refl fun c d : Chan => armed d ≤ armed c := ⟨fun _ => Nat.le_refl _⟩
    have hline (f : Line → Line) : (onTx f).Moves fun c d => armed d ≤ armed c :=
      .modify fun _ => Nat.le_refl _
    have hrest : (regSet .int intTxie >>= fun _ => irqTxLineEnable).Moves
        fun c d => armed d ≤ armed c :=
      .bind (.modify fun _ => Nat.le_refl _) fun _ => .bind (hline _) fun _ => .bind .get fun _ =>
        .bind (hline _) fun _ => hline _
    rw [Focus.lift_bind]
    refine .seq (hmono (.modify fun _ => .of_eq rfl rfl) hu) fun _ v _ hv => ?_
    rw [harm, Focus.lift_bind]
    have hone (c d : Chan) : armed d ≤ armed c + 1 :=
      Nat.le_trans (Bool.toNat_le _) (Nat.le_add_left 1 _)
    -- The store of TXQEIE is the one action that arms: it takes the credit of this call.
    refine .seq (Logged.Covered.take serviced_pays (fun _ => hone _ _) hv)
      fun _ x _ hx => ?_
    rw [Focus.lift_bind]
    refine .seq (Logged.Covered.conc serviced_pays hrest hx) fun _ y _ hy => .pure fun z hz => ?_
    have hz : Owes (n + 1) z := Owes.interrupted hy hz
    exact ⟨hz, hz⟩

/-- Whoever starts transmissions, and whatever interrupts whom: the handler reports `TX_COMPLETE` at
most once for each `tx_start` that was accepted, and what is armed is one more of these. -/
theorem completions_accounted {start : Chan} (h0 : start.regs .txqcon &&& txqconTxqeie = 0)
    {b : Thread HalCall (Logged Chan HalLabel) Stop Status} (h : TxRun (.idle ⟨start, []⟩) b) :
    b.state.log.countP HalLabel.reportsDone + armed b.state.now ≤
      b.state.log.countP HalLabel.starts + b.done.countP startsTx +
        if b.rest.any (·.1.isTxStart) then 1 else 0 := by
  -- Every accepted start is a credit, and a `tx_start` that has not returned is one more.
  let J : List (HalCall × Status) → Logged Chan HalLabel → Prop := fun l => Owes (l.countP startsTx)
  let I : List (HalCall × Status) → HalCall → Logged Chan HalLabel → Prop :=
    fun l call => Owes (l.countP startsTx + if call.isTxStart then 1 else 0)
  have hstart : J [] ⟨start, []⟩ := by
    have hoff : armed start = 0 := by
      rw [armed, Chan.switches, decide_eq_false (not_not.mpr h0)]
      rfl
    change 0 + armed start ≤ 0 + 0
    rw [hoff]
  have hcall : ∀ l call s, J l s → Prog.Conc (Logged.Env Serviced) (I l call)
      (Logged.focus.lift call.run) (fun st => J (l ++ [(call, st)])) s := by
    intro l call s hs
    cases hc : call.isTxStart with
    | false =>
      refine (owes_conc (call_noArm hc) hs).mono (fun t ht => ?_) fun st t _ ht => ?_
      · exact ht.mono (Nat.le_add_right _ _)
      · refine ht.mono ?_
        rw [List.countP_append]
        exact Nat.le_add_right _ _
    | true =>
      cases call with
      | txStart frame room =>
        refine (txStart_owes frame room hs).mono (fun t ht => ht) fun st t _ ht => ht.mono ?_
        rw [List.countP_append, List.countP_singleton]
        simp [startsTx, HalCall.isTxStart]
      | _ => cases hc
  have henv (l : List (HalCall × Status)) (s t : Logged Chan HalLabel) (hs : J l s)
      (hst : Logged.Env Serviced s t) : J l t := Owes.interrupted hs (.single hst)
  cases hrest : b.rest with
  | none => exact h.between hstart (fun l k s hs => (hcall l k s hs).mono (fun _ _ => trivial)
      fun _ _ _ => id) henv hrest
  | some q =>
    have hin : I b.done q.1 b.state := h.inside (I := I) hstart hcall henv hrest
    rw [Option.any_some, Nat.add_assoc]
    exact hin

inductive Service : Type
  | hardware (hw : Hw)
  | events

def Service.act : Service → Logged Chan HalLabel → Option (Logged Chan HalLabel)
  | .hardware hw, s => some ⟨s.now.sense hw, s.log ++ [.hardware hw]⟩
  | .events, s =>
    if TxifShown s.now then
      match irqEvents.exec s.now with
      | .ok (r, d) => some ⟨d, s.log ++ [.events r]⟩
      | .error _ => none
    else none

theorem Service.env (e : Service) (s t : Logged Chan HalLabel) (h : e.act s = some t) :
    Logged.Env Serviced s t := by
  cases e with
  | hardware hw =>
    cases h
    exact .step ⟨.hardware, fun _ hl => by cases hl⟩
  | events =>
    rw [Service.act] at h
    split at h
    next hshown =>
      split at h
      next r d hexec =>
        cases h
        exact .step ⟨.events hexec, fun _ _ => hshown⟩
      next => cases h
    next => cases h

def queueEmpty : Hw where
  regs r := if r = .int then intTxif else if r = .txqsta then txqstaTxqeif else 0
  rxFifo := []
  rxFlag := false
  txFlag := true
  genFlag := false

def sendAndComplete : List (Thread.Move HalCall Status Service) :=
  Thread.undisturbed (.isrSetCallback (some .application) none) 2 .ok ++
    (sendAsync.zipWith (fun call n => Thread.undisturbed call n .ok) [26, 13, 16]).flatten ++
    [.env (.hardware queueEmpty), .env .events]

theorem completions_accounted_example :
    ∃ b, TxRun (.idle ⟨resetChan, []⟩) b ∧ b.state.log.countP HalLabel.reportsDone = 1 ∧
      b.state.log.countP HalLabel.reportsDone + armed b.state.now ≤
        b.state.log.countP HalLabel.starts + b.done.countP startsTx +
          if b.rest.any (·.1.isTxStart) then 1 else 0 := by
  have hrun : ∃ b, TxRun (.idle ⟨resetChan, []⟩) b ∧
      decide (b.state.log.countP HalLabel.reportsDone = 1) = true :=
    Thread.run_of_play Service.env sendAndComplete _ (by decide +kernel)
  obtain ⟨b, hb, hone⟩ := hrun
  exact ⟨b, hb, of_decide_eq_true hone, completions_accounted resetChan_reset.txqcon hb⟩

end NoraCanfd

end CanfdDriver
