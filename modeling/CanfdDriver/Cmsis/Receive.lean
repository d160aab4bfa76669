import CanfdDriver.Cmsis.Traffic
import CanfdDriver.Hal.Effects

namespace CanfdDriver

open Lib NoraCanfd Cmsis

/-- The frames that a drain builds from the waiting objects; its buffer is reused between them. -/
def NoraCanfd.parseAll (f : Frame) : List Obj → List Frame
  | [] => []
  | o :: os => parseObj o f :: parseAll (parseObj o f) os

namespace Chan

@[simps] def setRxFifo (c : Chan) (q : List Obj) : Chan := { c with rxFifo := q }

def stored (c : Chan) (f : Frame) : List Frame := (parseAll f c.rxFifo).take c.ctx.rx.room

def refused (c : Chan) (f : Frame) : List Frame := (parseAll f c.rxFifo).drop c.ctx.rx.room

@[simps] def absorb (c : Chan) (f : Frame) : Chan :=
  { c with
    ctx := { c.ctx with rx := c.ctx.rx.offer f }
    trace := c.trace ++ [if c.ctx.rx.full then .dropped f else .appended f] }

def drained (c : Chan) (f : Frame) : Chan :=
  { c with
    ctx := { c.ctx with rx := (parseAll f c.rxFifo).foldl Ring.offer c.ctx.rx }
    rxFifo := []
    trace := c.trace ++ (c.stored f).map .appended ++ (c.refused f).map .dropped }

end Chan

namespace NoraCanfd

variable {c : Chan}

theorem fifosta1_notEmpty : c.fifosta1 &&& fifostaTfnrfnif ≠ 0 ↔ c.rxFifo ≠ [] := by
  rw [Chan.fifosta1]
  cases c.rxFifo with
  | nil => simp [BitVec.and_assoc]
  | cons o os =>
    have hread : (c.regs .fifosta1 ||| fifostaTfnrfnif) &&& fifostaTfnrfnif = fifostaTfnrfnif :=
      MaskedWrite.or_and_of_sub BitVec.and_self _
    simp only [List.isEmpty_cons, Bool.false_eq_true, if_false, hread]
    exact iff_of_true (by decide) (List.cons_ne_nil o os)

theorem exec_rxAvailable (hi : c.node.initialized = true) :
    rxAvailable.exec c = .ok (decide (c.rxFifo ≠ []), c) := by
  have hn : ¬(!c.node.initialized) = true := by simp [hi]
  rw [rxAvailable, Prog.exec_bind_of_ok (Prog.exec_get c), if_neg hn,
    Prog.exec_bind_of_ok (Prog.exec_get c), Prog.exec_pure]
  simp only [fifosta1_notEmpty]

theorem exec_receive (hi : c.node.initialized = true) {o : Obj} {os : List Obj}
    (hq : c.rxFifo = o :: os) (f : Frame) (p : Poll) (arriving : Obj) :
    (receive (some f) p arriving).exec c =
      .ok ((.ok, some (parseObj o f)), c.setRxFifo os) := by
  have hn : ¬(!c.node.initialized) = true := by simp [hi]
  have hne : c.rxFifo ≠ [] := by simp [hq]
  have hwait : (waitFlag fifostaTfnrfnif (frameWait c p)).exec c = .ok (.ok, c) := by
    have hbit := fifosta1_notEmpty.mpr hne
    rw [frameWait, if_pos hbit]
    simp only [waitFlag, startTick, Prog.exec_bind, Prog.exec_get, Prog.exec_pure, pollUntil,
      hbit, decide_true, if_true, ne_eq, not_false_eq_true]
  rw [receive, receiveFrom, Prog.exec_bind_of_ok (Prog.exec_get c), if_neg hn,
    Prog.exec_bind_of_ok (Prog.exec_get c), Prog.exec_bind_of_ok hwait]
  simp only [ne_eq, not_true_eq_false, if_false, Prog.exec_bind, Prog.exec_modify, Prog.exec_get,
    hq, List.isEmpty_cons, Bool.false_eq_true, Prog.exec_pure, fifoPort]
  rfl

end NoraCanfd

namespace Cmsis

variable {c : Chan}

theorem drain_succ (n : Nat) (f : Frame) (received dropped : Bool) :
    drain (n + 1) f received dropped = (do
      let more ← rxAvailable
      if !more then return (received, dropped)
      else
        let r ← receive (some f) ⟨0, []⟩ fun _ => 0
        match r with
        | (.ok, some f) =>
          let stored ← storeFrame f
          drain n f (received || stored) (dropped || !stored)
        | _ => return (received, dropped)) := rfl

theorem exec_storeFrame (f : Frame) :
    (storeFrame f).exec c = .ok (decide ¬c.ctx.rx.full, c.absorb f) := by
  by_cases h : c.ctx.rx.full
  · simp [storeFrame, Chan.absorb, Chan.log, Prog.exec_bind, Ring.offer, h]
  · simp [storeFrame, Chan.absorb, Chan.log, Chan.setCtx, Prog.exec_bind, Ring.offer, h]

theorem drained_nil (hq : c.rxFifo = []) (f : Frame) : c.drained f = c := by
  apply Chan.ext
  case rxFifo => exact hq.symm
  case trace => simp [Chan.drained, Chan.stored, Chan.refused, hq, parseAll]
  all_goals simp [Chan.drained, hq, parseAll]

section

variable {o : Obj} {os : List Obj} {f : Frame}

theorem absorb_full (hfull : c.ctx.rx.full) (hq : c.rxFifo = o :: os) :
    c.stored f = [] ∧ ((c.setRxFifo os).absorb (parseObj o f)).stored (parseObj o f) = [] ∧
      c.refused f =
        parseObj o f :: ((c.setRxFifo os).absorb (parseObj o f)).refused (parseObj o f) := by
  simp [Chan.stored, Chan.refused, hq, parseAll, Ring.offer, hfull, Ring.room_eq_zero.mpr hfull]

theorem absorb_room (hfull : ¬c.ctx.rx.full) (hq : c.rxFifo = o :: os) :
    c.stored f = parseObj o f :: ((c.setRxFifo os).absorb (parseObj o f)).stored (parseObj o f) ∧
      c.refused f = ((c.setRxFifo os).absorb (parseObj o f)).refused (parseObj o f) := by
  simp [Chan.stored, Chan.refused, hq, parseAll, Ring.offer, hfull,
    Ring.room_push hfull (parseObj o f)]

theorem drained_cons (hq : c.rxFifo = o :: os) :
    ((c.setRxFifo os).absorb (parseObj o f)).drained (parseObj o f) = c.drained f := by
  apply Chan.ext
  case trace =>
    by_cases hfull : c.ctx.rx.full
    · obtain ⟨hs, hs', hr⟩ := absorb_full hfull hq (f := f)
      simp [Chan.drained, hs, hs', hr, hfull]
    · obtain ⟨hs, hr⟩ := absorb_room hfull hq (f := f)
      simp [Chan.drained, hs, hr, hfull]
  case regs => rfl
  case ram => rfl
  all_goals simp [Chan.drained, hq, parseAll]

end

theorem exec_drain {n : Nat} (hi : c.node.initialized = true) (hn : c.rxFifo.length < n)
    (f : Frame) (received dropped : Bool) :
    (drain n f received dropped).exec c =
      .ok ((received || decide (c.stored f ≠ []), dropped || decide (c.refused f ≠ [])),
        c.drained f) := by
  induction hq : c.rxFifo generalizing c n f received dropped with
  | nil =>
    cases n with
    | zero => simp at hn
    | succ n =>
      rw [drain_succ, Prog.exec_bind_of_ok (exec_rxAvailable hi), drained_nil hq]
      simp [hq, Chan.stored, Chan.refused, parseAll]
  | cons o os ih =>
    cases n with
    | zero => simp at hn
    | succ n =>
      have hlen : os.length < n := by
        rw [hq, List.length_cons] at hn
        omega
      have hrest (r d : Bool) :=
        ih (c := (c.setRxFifo os).absorb (parseObj o f)) hi hlen (parseObj o f) r d rfl
      rw [drain_succ, Prog.exec_bind_of_ok (exec_rxAvailable hi)]
      simp only [hq, ne_eq, reduceCtorEq, not_false_eq_true, decide_true, Bool.not_true,
        Bool.false_eq_true, if_false]
      rw [Prog.exec_bind_of_ok (exec_receive hi hq f _ _)]
      simp only []
      rw [Prog.exec_bind_of_ok (exec_storeFrame _), hrest, drained_cons hq]
      by_cases hfull : c.ctx.rx.full
      · obtain ⟨hs, hs', hr⟩ := absorb_full hfull hq (f := f)
        simp [hs, hs', hr, hfull]
      · obtain ⟨hs, hr⟩ := absorb_room hfull hq (f := f)
        simp [hs, hr, hfull]

theorem exec_drain_uninitialized (hi : c.node.initialized = false) (n : Nat) (f : Frame)
    (received dropped : Bool) :
    (drain (n + 1) f received dropped).exec c = .ok ((received, dropped), c) := by
  have hnone : rxAvailable.exec c = .ok (false, c) := by
    rw [rxAvailable, Prog.exec_bind_of_ok (Prog.exec_get c), if_pos (by simp [hi])]
    rfl
  rw [drain_succ, Prog.exec_bind_of_ok hnone]
  rfl

def taken (c : Chan) : Chan :=
  (c.setCtx { c.ctx with rx := c.ctx.rx.advance }).log (.handed c.ctx.rx.front)

/-- A read that runs alone refuses, finds no message, or takes the oldest frame. -/
theorem exec_canMessageRead (args : ReadArgs) :
    (canMessageRead args).exec c =
      if !c.ctx.powered then .ok (refuseRead args armDriverError, c)
      else if args.bad then .ok (refuseRead args armDriverErrorParameter, c)
      else if c.ctx.rx.tail = c.ctx.rx.head then .ok (refuseRead args armDriverError, c)
      else .ok (deliver c.ctx.rx.front args, taken c) := by
  simp only [canMessageRead, Prog.exec_bind, Prog.exec_get, Prog.exec_ite, Prog.exec_pure,
    Prog.exec_modify]
  rfl

end Cmsis

def Obs.raised : Obs → Option Signal
  | .signal s _ => some s
  | _ => none

def Chan.raised (c : Chan) : List Signal := c.trace.filterMap Obs.raised

namespace Cmsis

variable {c : Chan}

structure Quiet (c d : Chan) : Prop where
  cbObject : d.ctx.cbObject = c.ctx.cbObject
  cbUnit : d.ctx.cbUnit = c.ctx.cbUnit
  raised : d.raised = c.raised

theorem runReads_quiet (reads : List ReadArgs) (c : Chan) :
    ∃ d, (runReads reads).exec c = .ok ((), d) ∧ Quiet c d := by
  induction reads generalizing c with
  | nil => exact ⟨c, rfl, rfl, rfl, rfl⟩
  | cons args rest ih =>
    have hread : ∃ r d, (canMessageRead args).exec c = .ok (r, d) ∧ Quiet c d := by
      rw [exec_canMessageRead]
      split
      next => exact ⟨_, c, rfl, rfl, rfl, rfl⟩
      next =>
        split
        next => exact ⟨_, c, rfl, rfl, rfl, rfl⟩
        next =>
          split
          next => exact ⟨_, c, rfl, rfl, rfl, rfl⟩
          next => exact ⟨_, taken c, rfl, rfl, rfl, by simp [taken, Chan.raised, Obs.raised]⟩
    obtain ⟨r, d, hd, hq⟩ := hread
    obtain ⟨e, he, hq'⟩ := ih d
    refine ⟨e, (Prog.exec_bind_of_ok hd).trans he, ?_⟩
    exact ⟨hq'.cbObject.trans hq.cbObject, hq'.cbUnit.trans hq.cbUnit, hq'.raised.trans hq.raised⟩

structure Raises (c : Chan) (l : List Signal) (d : Chan) : Prop where
  cbObject : d.ctx.cbObject = c.ctx.cbObject
  cbUnit : d.ctx.cbUnit = c.ctx.cbUnit
  raised : d.raised = c.raised ++ l

def objectSignal (x : Context) (event : BitVec 32) : List Signal :=
  if x.cbObject.isNone then [] else [.object objRx event]

def unitSignal (x : Context) (event : BitVec 32) : List Signal :=
  if x.cbUnit.isNone then [] else [.unit event]

theorem exec_signalObject (app : App) (event : BitVec 32) (c : Chan) :
    (signalObject app event).exec c =
      if c.ctx.cbObject.isNone then .ok ((), c)
      else (runReads (app (.object objRx event))).exec
        (c.log (.signal (.object objRx event) c.ctx)) := by
  rw [signalObject, Prog.exec_bind_of_ok (Prog.exec_get c), Prog.exec_ite]
  rfl

theorem exec_signalUnit (app : App) (event : BitVec 32) (c : Chan) :
    (signalUnit app event).exec c =
      if c.ctx.cbUnit.isNone then .ok ((), c)
      else (runReads (app (.unit event))).exec (c.log (.signal (.unit event) c.ctx)) := by
  rw [signalUnit, Prog.exec_bind_of_ok (Prog.exec_get c), Prog.exec_ite]
  rfl

theorem log_raises (reads : List ReadArgs) (s : Signal) (c : Chan) :
    ∃ d, (runReads reads).exec (c.log (.signal s c.ctx)) = .ok ((), d) ∧ Raises c [s] d := by
  obtain ⟨d, hd, hq⟩ := runReads_quiet reads (c.log (.signal s c.ctx))
  refine ⟨d, hd, hq.cbObject, hq.cbUnit, ?_⟩
  rw [hq.raised]
  simp [Chan.raised, Obs.raised]

theorem signalObject_raises (app : App) (event : BitVec 32) (c : Chan) :
    ∃ d, (signalObject app event).exec c = .ok ((), d) ∧ Raises c (objectSignal c.ctx event) d := by
  rw [exec_signalObject, objectSignal]
  split
  next => exact ⟨c, rfl, rfl, rfl, by simp⟩
  next => exact log_raises _ _ c

theorem signalUnit_raises (app : App) (event : BitVec 32) (c : Chan) :
    ∃ d, (signalUnit app event).exec c = .ok ((), d) ∧ Raises c (unitSignal c.ctx event) d := by
  rw [exec_signalUnit, unitSignal]
  split
  next => exact ⟨c, rfl, rfl, rfl, by simp⟩
  next => exact log_raises _ _ c

theorem ite_raises {p : M Unit} {l : List Signal} (b : Prop) [Decidable b]
    (h : ∃ d, p.exec c = .ok ((), d) ∧ Raises c l d) :
    ∃ d, (if b then p else pure ()).exec c = .ok ((), d) ∧ Raises c (if b then l else []) d := by
  split
  next => exact h
  next => exact ⟨c, rfl, rfl, rfl, by simp⟩

def eventSignals (c : Chan) (f : Frame) (events : BitVec 32) : List Signal :=
  (if events &&& eventRxAvailable ≠ 0 then
      (if c.stored f ≠ [] then objectSignal c.ctx eventReceive else []) ++
        (if c.refused f ≠ [] then objectSignal c.ctx eventReceiveOverrun else [])
    else []) ++
  (if events &&& eventRxOverflow ≠ 0 then objectSignal c.ctx eventReceiveOverrun else []) ++
  (if events &&& eventBusOff ≠ 0 then unitSignal c.ctx eventUnitBusOff else [])

theorem Raises.objectSignal {l : List Signal} {d : Chan} (h : Raises c l d) (event : BitVec 32) :
    objectSignal d.ctx event = objectSignal c.ctx event := by
  rw [Cmsis.objectSignal, Cmsis.objectSignal, h.cbObject]

theorem Raises.unitSignal {l : List Signal} {d : Chan} (h : Raises c l d) (event : BitVec 32) :
    unitSignal d.ctx event = unitSignal c.ctx event := by
  rw [Cmsis.unitSignal, Cmsis.unitSignal, h.cbUnit]

theorem Raises.trans {l l' : List Signal} {d e : Chan} (h : Raises c l d) (h' : Raises d l' e) :
    Raises c (l ++ l') e where
  cbObject := h'.cbObject.trans h.cbObject
  cbUnit := h'.cbUnit.trans h.cbUnit
  raised := by rw [h'.raised, h.raised, List.append_assoc]

theorem bind_raises {p q : M Unit} {l l' : List Signal}
    (hp : ∃ d, p.exec c = .ok ((), d) ∧ Raises c l d)
    (hq : ∀ d, Raises c l d → ∃ e, q.exec d = .ok ((), e) ∧ Raises d l' e) :
    ∃ e, (p >>= fun _ => q).exec c = .ok ((), e) ∧ Raises c (l ++ l') e := by
  obtain ⟨d, hd, hl⟩ := hp
  obtain ⟨e, he, hl'⟩ := hq d hl
  exact ⟨e, (Prog.exec_bind_of_ok hd).trans he, hl.trans hl'⟩

theorem drained_filterMap {α : Type} {g : Obs → Option α} (happ : ∀ f, g (.appended f) = none)
    (hdrop : ∀ f, g (.dropped f) = none) (f : Frame) :
    (c.drained f).trace.filterMap g = c.trace.filterMap g := by
  have hstored : ((c.stored f).map Obs.appended).filterMap g = [] := by
    simp [happ]
  have hrefused : ((c.refused f).map Obs.dropped).filterMap g = [] := by
    simp [hdrop]
  simp only [Chan.drained, List.filterMap_append, hstored, hrefused, List.append_nil]

theorem drained_raises (f : Frame) : Raises c [] (c.drained f) where
  cbObject := rfl
  cbUnit := rfl
  raised := (drained_filterMap (fun _ => rfl) (fun _ => rfl) f).trans (List.append_nil _).symm

theorem signalObject_if (b : Prop) [Decidable b] {l : List Signal} {d : Chan} (h : Raises c l d)
    (app : App) (event : BitVec 32) :
    ∃ e, (if b then signalObject app event else pure ()).exec d = .ok ((), e) ∧
      Raises d (if b then objectSignal c.ctx event else []) e := by
  rw [← h.objectSignal]
  exact ite_raises b (signalObject_raises app event d)

theorem signalUnit_if (b : Prop) [Decidable b] {l : List Signal} {d : Chan} (h : Raises c l d)
    (app : App) (event : BitVec 32) :
    ∃ e, (if b then signalUnit app event else pure ()).exec d = .ok ((), e) ∧
      Raises d (if b then unitSignal c.ctx event else []) e := by
  rw [← h.unitSignal]
  exact ite_raises b (signalUnit_raises app event d)

/-- A run of the event callback on an initialized node comes back without polling and raises
exactly these signals, whatever the application reads inside its callbacks. -/
theorem canHalEvent_raises (hi : c.node.initialized = true) (app : App) (f : Frame)
    (events : BitVec 32) :
    ∃ d, (canHalEvent app f events (some .ctx)).exec c = .ok ((), d) ∧
      Raises c (eventSignals c f events) d := by
  rw [eventSignals, List.append_assoc]
  refine bind_raises (ite_raises _ ?_) fun d hd =>
    bind_raises (signalObject_if _ hd app _) fun e he => ?_
  · have hrest := bind_raises (c := c.drained f)
      (signalObject_if (c.stored f ≠ []) (drained_raises f) app eventReceive)
      fun d hd => signalObject_if (c.refused f ≠ []) hd app eventReceiveOverrun
    rw [Prog.exec_bind_of_ok (Prog.exec_get c),
      Prog.exec_bind_of_ok (exec_drain hi (Nat.lt_succ_self _) f false false)]
    simp only [Bool.false_or, decide_eq_true_eq]
    obtain ⟨d, hd, hraises⟩ := hrest
    exact ⟨d, hd, (drained_raises f).trans hraises⟩
  · exact signalUnit_if _ (hd.trans he) app _

inductive ReceivePart (app : App) (f : Frame) (events : BitVec 32) (c : Chan) : Chan → Prop
  | skipped : ¬(events &&& eventRxAvailable ≠ 0 ∧ c.node.initialized = true) →
      ReceivePart app f events c c
  | drained {e s : Chan} : events &&& eventRxAvailable ≠ 0 ∧ c.node.initialized = true →
      (if c.stored f ≠ [] then signalObject app eventReceive else pure ()).exec (c.drained f) =
        .ok ((), e) →
      (if c.refused f ≠ [] then signalObject app eventReceiveOverrun else pure ()).exec e =
        .ok ((), s) → ReceivePart app f events c s

theorem canHalEvent_cases {app : App} {f : Frame} {events : BitVec 32} {d : Chan}
    (h : (canHalEvent app f events (some .ctx)).exec c = .ok ((), d)) :
    ∃ s t, ReceivePart app f events c s ∧
      (if events &&& eventRxOverflow ≠ 0 then signalObject app eventReceiveOverrun
        else pure ()).exec s = .ok ((), t) ∧
      (if events &&& eventBusOff ≠ 0 then signalUnit app eventUnitBusOff else pure ()).exec t =
        .ok ((), d) := by
  obtain ⟨_, s, hs, hrest⟩ := Prog.exec_bind_eq_ok.mp h
  obtain ⟨_, t, ht, hlast⟩ := Prog.exec_bind_eq_ok.mp hrest
  refine ⟨s, t, ?_, ht, hlast⟩
  by_cases hrx : events &&& eventRxAvailable ≠ 0
  swap
  · rw [if_neg hrx] at hs
    cases hs
    exact .skipped fun hx => hrx hx.1
  rw [if_pos hrx, Prog.exec_bind_of_ok (Prog.exec_get c)] at hs
  cases hi : c.node.initialized with
  | false =>
    rw [Prog.exec_bind_of_ok (exec_drain_uninitialized hi _ f false false)] at hs
    cases hs
    exact .skipped fun hx => Bool.false_ne_true (hi.symm.trans hx.2)
  | true =>
    rw [Prog.exec_bind_of_ok (exec_drain hi (Nat.lt_succ_self _) f false false)] at hs
    obtain ⟨_, e, he, hover⟩ := Prog.exec_bind_eq_ok.mp hs
    simp only [Bool.false_or, decide_eq_true_eq] at he hover
    exact .drained ⟨hrx, hi⟩ he hover

end Cmsis

def SameFifo (c d : Chan) : Prop := d.rxFifo = c.rxFifo

instance : Std.Refl SameFifo := ⟨fun _ => rfl⟩

instance : IsTrans Chan SameFifo := ⟨fun _ _ _ h h' => Eq.trans h' h⟩

namespace Cmsis

theorem canMessageRead_fifo (args : ReadArgs) : (canMessageRead args).Moves SameFifo := by
  refine .bind .get fun _ => .ite (.pure _) (.ite (.pure _) ?_)
  refine .bind .get fun _ => .bind .get fun _ => .ite (.pure _) (.bind .get fun _ => ?_)
  exact .bind (.modify fun _ => rfl) fun _ => .pure _

theorem runReads_fifo (reads : List ReadArgs) : (runReads reads).Moves SameFifo := by
  induction reads with
  | nil => exact .pure _
  | cons args rest ih => exact .bind (canMessageRead_fifo args) fun _ => ih

theorem signalObject_fifo (app : App) (event : BitVec 32) : (signalObject app event).Moves SameFifo :=
  .bind .get fun _ => .ite (.pure _) <| .bind (.modify fun _ => rfl) fun _ => runReads_fifo _

theorem signalUnit_fifo (app : App) (event : BitVec 32) : (signalUnit app event).Moves SameFifo :=
  .bind .get fun _ => .ite (.pure _) <| .bind (.modify fun _ => rfl) fun _ => runReads_fifo _

theorem canHalEvent_fifo {app : App} {f : Frame} {events : BitVec 32} {c d : Chan}
    (h : (canHalEvent app f events (some .ctx)).exec c = .ok ((), d)) :
    d.rxFifo = if events &&& eventRxAvailable ≠ 0 ∧ c.node.initialized = true then [] else c.rxFifo := by
  obtain ⟨s, t, hreceive, hover, hoff⟩ := canHalEvent_cases h
  have ht : t.rxFifo = s.rxFifo := Prog.Moves.exec (.ite (signalObject_fifo _ _) (.pure _)) hover
  have hd : d.rxFifo = t.rxFifo := Prog.Moves.exec (.ite (signalUnit_fifo _ _) (.pure _)) hoff
  rw [hd, ht]
  cases hreceive with
  | skipped hn => exact (if_neg hn).symm
  | @drained e _ hrx hsignal hoverrun =>
    have he : e.rxFifo = (c.drained f).rxFifo :=
      Prog.Moves.exec (.ite (signalObject_fifo _ _) (.pure _)) hsignal
    have hs : s.rxFifo = e.rxFifo :=
      Prog.Moves.exec (.ite (signalObject_fifo _ _) (.pure _)) hoverrun
    rw [hs, he, if_pos hrx]
    rfl

end Cmsis

end CanfdDriver
