import CanfdDriver.Cmsis.Delivery
import CanfdDriver.Hal.Content

namespace CanfdDriver

open Lib NoraCanfd Cmsis

/-- What has been received: the frames handed out, then those in the ring, then those in the
FIFO. -/
def Chan.held (c : Chan) : List Content :=
  (c.handed ++ c.queue).map Frame.content ++ c.rxFifo.map objContent

/-- Nothing is made up, and nothing changes its place. -/
def Shrinks (c d : Chan) : Prop := d.held.Sublist c.held

instance : Std.Refl Shrinks := ⟨fun c => List.Sublist.refl c.held⟩

instance : IsTrans Chan Shrinks := ⟨fun _ _ _ h h' => h'.trans h⟩

variable {c d : Chan}

theorem Moved.held {hs : List Frame} (h : Moved c [] hs d) (hq : d.rxFifo = c.rxFifo) :
    d.held = c.held := by
  have hqueue := h.queue
  rw [List.append_nil] at hqueue
  rw [Chan.held, Chan.held, hq, h.handed, hqueue, List.append_assoc]

theorem shrinks_of_held (h : d.held = c.held) : Shrinks c d := by
  rw [Shrinks, h]

theorem Aside.shrinks (h : Aside c d) : Shrinks c d := shrinks_of_held (h.moved.held h.rxFifo)

theorem NoraCanfd.content_parseAll (f : Frame) (os : List Obj) :
    (parseAll f os).map Frame.content = os.map objContent := by
  induction os generalizing f with
  | nil => rfl
  | cons o os ih => rw [parseAll, List.map_cons, List.map_cons, content_parseObj, ih]

theorem drained_shrinks (c : Chan) (f : Frame) : Shrinks c (c.drained f) := by
  have hmoved := drained_moved c f
  have hqueue : c.queue ++ c.stored f = (c.drained f).queue := hmoved.queue
  have hstored : ((c.stored f).map Frame.content).Sublist (c.rxFifo.map objContent) := by
    rw [← content_parseAll f]
    exact (List.take_sublist _ _).map _
  have hheld : (c.drained f).held =
      (c.handed ++ c.queue).map Frame.content ++ (c.stored f).map Frame.content := by
    have hrest : (c.drained f).rxFifo = [] := rfl
    rw [Chan.held, hmoved.handed, List.append_nil, hrest, ← hqueue, ← List.append_assoc,
      List.map_append, List.map_nil, List.append_nil]
  rw [Shrinks, hheld]
  exact hstored.append_left _

namespace Cmsis

theorem canMessageRead_shrinks (args : ReadArgs) : (canMessageRead args).Yields Shrinks := by
  intro c r d h
  rw [exec_canMessageRead] at h
  split at h
  next =>
    cases h
    exact shrinks_of_held rfl
  next =>
    split at h
    next =>
      cases h
      exact shrinks_of_held rfl
    next =>
      split at h
      next =>
        cases h
        exact shrinks_of_held rfl
      next hne =>
        cases h
        exact shrinks_of_held ((taken_moved hne).held rfl)

theorem runReads_shrinks (reads : List ReadArgs) : (runReads reads).Yields Shrinks := by
  induction reads with
  | nil => exact .pure _
  | cons args rest ih => exact .bind (canMessageRead_shrinks args) fun _ => ih

theorem log_signal_shrinks (s : Signal) (x : Context) : Shrinks c (c.log (.signal s x)) := by
  have hmoved : Moved c [] [] (c.log (.signal s x)) :=
    ⟨by simp [Chan.appended, Obs.stored], by simp [Chan.handed, Obs.taken], by simp [Chan.queue]⟩
  exact shrinks_of_held (hmoved.held rfl)

theorem signalObject_shrinks (app : App) (event : BitVec 32) :
    (signalObject app event).Yields Shrinks :=
  .bind .get fun _ => .ite (.pure _) <|
  .bind (Prog.Moves.modify fun _ => log_signal_shrinks _ _).yields fun _ => runReads_shrinks _

theorem signalUnit_shrinks (app : App) (event : BitVec 32) : (signalUnit app event).Yields Shrinks :=
  .bind .get fun _ => .ite (.pure _) <|
  .bind (Prog.Moves.modify fun _ => log_signal_shrinks _ _).yields fun _ => runReads_shrinks _

theorem canHalEvent_shrinks (app : App) (f : Frame) (events : BitVec 32) (ud : Option UserData) :
    (canHalEvent app f events ud).Yields Shrinks := by
  intro c u d h
  cases ud with
  | none =>
    cases h
    exact shrinks_of_held rfl
  | some ud =>
    obtain ⟨s, t, hreceive, hover, hoff⟩ := canHalEvent_cases h
    have hs : Shrinks c s := by
      cases hreceive with
      | skipped => exact shrinks_of_held rfl
      | drained _ hsignal hoverrun =>
        have hsignal' := Prog.Yields.ite (signalObject_shrinks app eventReceive) (.pure _) _ _ _ hsignal
        exact Trans.trans (drained_shrinks c f) (Trans.trans hsignal'
          (Prog.Yields.ite (signalObject_shrinks app _) (.pure _) _ _ _ hoverrun))
    have ht := Prog.Yields.ite (signalObject_shrinks app _) (.pure _) _ _ _ hover
    exact Trans.trans hs (Trans.trans ht
      (Prog.Yields.ite (signalUnit_shrinks app _) (.pure _) _ _ _ hoff))

theorem handler_shrinks (app : App) (f : Frame) : (handler app f).Yields Shrinks :=
  irqHandler_yields (fun _ _ h => h.shrinks) fun cb events ud => by
    cases cb with
    | canHalEvent => exact canHalEvent_shrinks _ _ _ _
    | application => exact .pure _

variable {env : Env} {r : Int}

theorem canPowerControl_full_fifo : (canPowerControl .full env).Moves SameFifo := by
  have happly (mode : Mode) : (canApplyInit mode env).Moves SameFifo :=
    (canApplyInit_aside mode).mono fun _ _ h => h.rxFifo
  refine .bind .get fun _ => .ite (.pure _) (.bind .get fun _ => .ite (.pure _) ?_)
  refine .bind (.modify fun _ => rfl) fun _ => .bind (.modify fun _ => rfl) fun _ => ?_
  refine .bind .get fun _ => .bind (happly _) fun _ => .ite (.pure _) ?_
  exact .bind (.modify fun _ => rfl) fun _ => .pure _

theorem powerFull_shrinks (h : (canPowerControl .full env).exec c = .ok (r, d)) : Shrinks c d := by
  have hfifo : d.rxFifo = c.rxFifo := canPowerControl_full_fifo.exec h
  have hqueue := powerFull_queue h
  split at hqueue
  next =>
    obtain ⟨hq, hhanded, -, -⟩ := hqueue
    rw [Shrinks, Chan.held, Chan.held, hfifo, hq, hhanded, List.append_nil, List.map_append]
    exact (List.sublist_append_left _ _).append_right _
  next =>
    subst hqueue
    exact shrinks_of_held rfl

theorem call_shrinks (call : Call) : (call.run env).Yields Shrinks := by
  intro c r d h
  by_cases hfull : call = .canPowerControl .full
  · subst hfull
    exact powerFull_shrinks h
  by_cases hread : ∃ args, call = .canMessageRead args
  · obtain ⟨args, rfl⟩ := hread
    have hyields : ((Call.canMessageRead args).run env).Yields Shrinks :=
      .bind (canMessageRead_shrinks args) fun _ => .pure _
    exact hyields _ _ _ h
  · have haside : (call.run env).Moves Aside := call_aside hfull fun args h => hread ⟨args, h⟩
    exact (haside.exec h).shrinks

end Cmsis

end CanfdDriver
