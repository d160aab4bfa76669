import CanfdDriver.Cmsis.LifeCycle
import CanfdDriver.Cmsis.Receive

/-! The receive path as a bounded queue, under preemption of its reader. -/

namespace CanfdDriver

open Lib NoraCanfd Cmsis

/-! ### The account of the queue -/

def Obs.taken : Obs → Option Frame
  | .handed f => some f
  | _ => none

def Obs.stored : Obs → Option Frame
  | .appended f => some f
  | _ => none

def Chan.handed (c : Chan) : List Frame := c.trace.filterMap Obs.taken

def Chan.appended (c : Chan) : List Frame := c.trace.filterMap Obs.stored

def Chan.queue (c : Chan) : List Frame := c.ctx.rx.toList

/-- Between two states the frames `fs` are appended and the frames `hs` are handed out. -/
structure Moved (c : Chan) (fs hs : List Frame) (d : Chan) : Prop where
  appended : d.appended = c.appended ++ fs
  handed : d.handed = c.handed ++ hs
  queue : c.queue ++ fs = hs ++ d.queue

def Flow (c d : Chan) : Prop := ∃ fs hs, Moved c fs hs d

namespace Moved

variable {c d e : Chan} {fs hs fs' hs' : List Frame}

theorem refl (c : Chan) : Moved c [] [] c := ⟨by simp, by simp, by simp⟩

theorem trans (h : Moved c fs hs d) (h' : Moved d fs' hs' e) :
    Moved c (fs ++ fs') (hs ++ hs') e where
  appended := by rw [h'.appended, h.appended, List.append_assoc]
  handed := by rw [h'.handed, h.handed, List.append_assoc]
  queue := by
    calc
      c.queue ++ (fs ++ fs') = hs ++ (d.queue ++ fs') := by
        rw [← List.append_assoc, h.queue, List.append_assoc]
      _ = hs ++ hs' ++ e.queue := by rw [h'.queue, List.append_assoc]

end Moved

namespace Flow

variable {c d e : Chan}

theorem refl (c : Chan) : Flow c c := ⟨[], [], .refl c⟩

theorem trans (h : Flow c d) (h' : Flow d e) : Flow c e := by
  obtain ⟨fs, hs, h⟩ := h
  obtain ⟨fs', hs', h'⟩ := h'
  exact ⟨_, _, h.trans h'⟩

instance : Std.Refl Flow := ⟨refl⟩

instance : IsTrans Chan Flow := ⟨fun _ _ _ => trans⟩

end Flow

section

variable {c d : Chan}

theorem filterMap_receive {α : Type} {g : Obs → Option α} (hg : ∀ o, o.receive = false → g o = none)
    (l : List Obs) : l.filterMap g = (l.filter Obs.receive).filterMap g := by
  rw [List.filterMap_filter]
  apply List.filterMap_congr
  intro o _
  cases ho : o.receive with
  | false => simp [hg o ho]
  | true => simp

theorem Aside.moved (h : Aside c d) : Moved c [] [] d where
  appended := by
    rw [List.append_nil, Chan.appended, Chan.appended, filterMap_receive (g := Obs.stored),
      filterMap_receive (g := Obs.stored) _ c.trace, h.trace] <;>
    · intro o ho
      cases o <;> first | rfl | cases ho
  handed := by
    rw [List.append_nil, Chan.handed, Chan.handed, filterMap_receive (g := Obs.taken),
      filterMap_receive (g := Obs.taken) _ c.trace, h.trace] <;>
    · intro o ho
      cases o <;> first | rfl | cases ho
  queue := by rw [List.append_nil, List.nil_append, Chan.queue, Chan.queue, h.rx]

theorem Aside.flow (h : Aside c d) : Flow c d := ⟨[], [], h.moved⟩

end

namespace NoraCanfd

theorem irqHandler_yields {R : Chan → Chan → Prop} [Std.Refl R] [IsTrans Chan R]
    (hR : ∀ c d, Aside c d → R c d)
    {callback : EventCallback → BitVec 32 → Option UserData → M Unit}
    (h : ∀ f events ud, (callback f events ud).Yields R) : (irqHandler callback).Yields R := by
  intro c u d hexec
  rcases irqHandler_cases hexec with ⟨hpass, -⟩ | ⟨f, events, s, t, hcall, hlast⟩
  · exact hR c d hpass.beside.aside
  · have hbefore := hR c s hcall.before.beside.aside
    exact Trans.trans hbefore (Trans.trans (h f events _ s () t hcall.exec)
      (hR t d hlast.beside.aside))

theorem setRxFifo_flow {c : Chan} (q : List Obj) : Flow c { c with rxFifo := q } :=
  ⟨[], [], by simp [Chan.appended], by simp [Chan.handed], by simp [Chan.queue]⟩

theorem receive_flow (frame : Option Frame) (p : Poll) (arriving : Obj) :
    (receive frame p arriving).Moves Flow := by
  cases frame with
  | none => exact .pure _
  | some f =>
    refine .bind .get fun _ => .ite (.pure _) (.bind .get fun _ => .bind (waitFlag_reads _ _) fun _ => ?_)
    refine .ite (.pure _) (.bind (.modify fun c => ?_) fun _ => ?_)
    · split
      · exact setRxFifo_flow _
      · exact .refl c
    · exact .bind .get fun _ => .bind (.modify fun _ => setRxFifo_flow _) fun _ => .pure _

end NoraCanfd

namespace Cmsis

variable {c d : Chan}

theorem absorb_moved (f : Frame) :
    Moved c (if c.ctx.rx.full then [] else [f]) [] (c.absorb f) := by
  by_cases h : c.ctx.rx.full
  · refine ⟨?_, ?_, ?_⟩ <;>
      simp [Chan.appended, Chan.handed, Chan.queue, h, Obs.stored, Obs.taken, Ring.offer]
  · refine ⟨?_, ?_, ?_⟩ <;>
      simp [Chan.appended, Chan.handed, Chan.queue, h, Obs.stored, Obs.taken, Ring.offer,
        Ring.toList_push h]

theorem taken_moved (h : c.ctx.rx.tail ≠ c.ctx.rx.head) :
    Moved c [] [c.ctx.rx.front] (taken c) where
  appended := by simp [Chan.appended, taken, Obs.stored]
  handed := by simp [Chan.handed, taken, Obs.taken]
  queue := by simp [Chan.queue, taken, Ring.toList_eq_cons h]

theorem storeFrame_flow (f : Frame) : (storeFrame f).Yields Flow := by
  intro c b d h
  rw [exec_storeFrame] at h
  cases h
  exact ⟨_, _, absorb_moved f⟩

theorem drain_flow (n : Nat) (f : Frame) (received dropped : Bool) :
    (drain n f received dropped).Yields Flow := by
  induction n generalizing f received dropped with
  | zero => exact .fail _
  | succ n ih =>
    refine .bind rxAvailable_reads.yields fun _ => .ite (.pure _) ?_
    refine .bind (receive_flow _ _ _).yields fun r => ?_
    split
    next => exact .bind (storeFrame_flow _) fun _ => ih _ _ _
    next => exact .pure _

theorem canMessageRead_flow (args : ReadArgs) : (canMessageRead args).Yields Flow := by
  intro c r d h
  rw [exec_canMessageRead] at h
  split at h
  next =>
    cases h
    exact .refl c
  next =>
    split at h
    next =>
      cases h
      exact .refl c
    next =>
      split at h
      next =>
        cases h
        exact .refl c
      next hne =>
        cases h
        exact ⟨_, _, taken_moved hne⟩

theorem runReads_flow (reads : List ReadArgs) : (runReads reads).Yields Flow := by
  induction reads with
  | nil => exact .pure _
  | cons args rest ih => exact .bind (canMessageRead_flow args) fun _ => ih

theorem log_signal_flow (s : Signal) (x : Context) : Flow c (c.log (.signal s x)) := by
  refine ⟨[], [], ?_, ?_, ?_⟩ <;>
    simp [Chan.appended, Chan.handed, Chan.queue, Obs.stored, Obs.taken]

theorem signalObject_flow (app : App) (event : BitVec 32) :
    (signalObject app event).Yields Flow :=
  .bind .get fun _ => .ite (.pure _) <|
  .bind (Prog.Moves.modify fun _ => log_signal_flow _ _).yields fun _ => runReads_flow _

theorem signalUnit_flow (app : App) (event : BitVec 32) : (signalUnit app event).Yields Flow :=
  .bind .get fun _ => .ite (.pure _) <|
  .bind (Prog.Moves.modify fun _ => log_signal_flow _ _).yields fun _ => runReads_flow _

theorem canHalEvent_flow (app : App) (f : Frame) (events : BitVec 32) (ud : Option UserData) :
    (canHalEvent app f events ud).Yields Flow := by
  cases ud with
  | none => exact .pure _
  | some ud =>
    refine .bind (.ite (.bind .get fun _ => .bind (drain_flow _ _ _ _) fun _ => ?_) (.pure _)) fun _ => ?_
    · exact .bind (.ite (signalObject_flow _ _) (.pure _)) fun _ =>
        .ite (signalObject_flow _ _) (.pure _)
    · exact .bind (.ite (signalObject_flow _ _) (.pure _)) fun _ =>
        .ite (signalUnit_flow _ _) (.pure _)

theorem handler_flow (app : App) (f : Frame) : (handler app f).Yields Flow :=
  irqHandler_yields (fun _ _ h => h.flow) fun cb events ud => by
    cases cb with
    | canHalEvent => exact canHalEvent_flow _ _ _ _
    | application => exact .pure _

/-! ### Preemption of the reader -/

def silent : App := fun _ => []

structure Untaken (c d : Chan) : Prop where
  handed : d.handed = c.handed
  tail : d.ctx.rx.tail = c.ctx.rx.tail

instance : Std.Refl Untaken := ⟨fun _ => ⟨rfl, rfl⟩⟩

instance : IsTrans Chan Untaken :=
  ⟨fun _ _ _ h h' => ⟨h'.handed.trans h.handed, h'.tail.trans h.tail⟩⟩

theorem Aside.untaken (h : Aside c d) : Untaken c d :=
  ⟨by rw [h.moved.handed, List.append_nil], by rw [h.rx]⟩

theorem storeFrame_untaken (f : Frame) : (storeFrame f).Moves Untaken :=
  .bind .get fun _ => .ite
    (.bind (.modify fun _ => ⟨by simp [Chan.handed, Obs.taken], rfl⟩) fun _ => .pure _)
    (.bind (.modify fun _ => ⟨by simp [Chan.handed, Obs.taken], rfl⟩) fun _ => .pure _)

theorem receive_untaken (frame : Option Frame) (p : Poll) (arriving : Obj) :
    (receive frame p arriving).Moves Untaken := by
  cases frame with
  | none => exact .pure _
  | some f =>
    refine .bind .get fun _ => .ite (.pure _) (.bind .get fun _ => .bind (waitFlag_reads _ _) fun _ => ?_)
    refine .ite (.pure _) (.bind (.modify fun c => ?_) fun _ => ?_)
    · split <;> exact ⟨rfl, rfl⟩
    · exact .bind .get fun _ => .bind (.modify fun _ => ⟨rfl, rfl⟩) fun _ => .pure _

theorem drain_untaken (n : Nat) (f : Frame) (received dropped : Bool) :
    (drain n f received dropped).Moves Untaken := by
  induction n generalizing f received dropped with
  | zero => exact .fail _
  | succ n ih =>
    refine .bind rxAvailable_reads fun _ => .ite (.pure _) ?_
    refine .bind (receive_untaken _ _ _) fun r => ?_
    split
    next => exact .bind (storeFrame_untaken _) fun _ => ih _ _ _
    next => exact .pure _

theorem signalObject_untaken (event : BitVec 32) : (signalObject silent event).Moves Untaken :=
  .bind .get fun _ => .ite (.pure _) <|
  .bind (.modify fun _ => ⟨by simp [Chan.handed, Obs.taken], rfl⟩) fun _ => .pure _

theorem signalUnit_untaken (event : BitVec 32) : (signalUnit silent event).Moves Untaken :=
  .bind .get fun _ => .ite (.pure _) <|
  .bind (.modify fun _ => ⟨by simp [Chan.handed, Obs.taken], rfl⟩) fun _ => .pure _

theorem canHalEvent_untaken (f : Frame) (events : BitVec 32) (ud : Option UserData) :
    (canHalEvent silent f events ud).Moves Untaken := by
  cases ud with
  | none => exact .pure _
  | some ud =>
    refine .bind (.ite (.bind .get fun _ => .bind (drain_untaken _ _ _ _) fun _ => ?_) (.pure _)) fun _ => ?_
    · exact .bind (.ite (signalObject_untaken _) (.pure _)) fun _ =>
        .ite (signalObject_untaken _) (.pure _)
    · exact .bind (.ite (signalObject_untaken _) (.pure _)) fun _ =>
        .ite (signalUnit_untaken _) (.pure _)

theorem handler_untaken (f : Frame) : (handler silent f).Yields Untaken :=
  irqHandler_yields (fun _ _ h => Aside.untaken h) fun cb events ud => by
    cases cb with
    | canHalEvent => exact (canHalEvent_untaken _ _ _).yields
    | application => exact .pure _

/-- Between two steps of the reader the handler may run, and the hardware may change. -/
def Preempts (c d : Chan) : Prop :=
  (∃ f, (handler silent f).exec c = .ok ((), d)) ∨ ∃ hw, d = c.sense hw

structure Grows (c d : Chan) : Prop where
  moved : ∃ fs, Moved c fs [] d
  tail : d.ctx.rx.tail = c.ctx.rx.tail
  powered : d.ctx.powered = c.ctx.powered

theorem Grows.refl (c : Chan) : Grows c c := ⟨⟨[], .refl c⟩, rfl, rfl⟩

theorem Grows.trans {e : Chan} (h : Grows c d) (h' : Grows d e) : Grows c e where
  moved := by
    obtain ⟨fs, hm⟩ := h.moved
    obtain ⟨fs', hm'⟩ := h'.moved
    exact ⟨fs ++ fs', hm.trans hm'⟩
  tail := h'.tail.trans h.tail
  powered := h'.powered.trans h.powered

theorem Grows.of_flow (h : Flow c d) (h' : Untaken c d) (ht : Traffic c d) : Grows c d where
  moved := by
    obtain ⟨fs, hs, hm⟩ := h
    have hnil : hs = [] := List.append_right_eq_self.mp (hm.handed.symm.trans h'.handed)
    exact ⟨fs, hnil ▸ hm⟩
  tail := h'.tail
  powered := by
    obtain ⟨rx, hrx⟩ := ht.ctx
    rw [hrx]

theorem Preempts.grows (h : Preempts c d) : Grows c d := by
  rcases h with ⟨f, hf⟩ | ⟨hw, rfl⟩
  · exact .of_flow (handler_flow _ _ c () d hf) (handler_untaken f c () d hf)
      ((handler_moves _ _).exec hf)
  · exact ⟨⟨[], by simp [Chan.appended], by simp [Chan.handed], by simp [Chan.queue]⟩, rfl, rfl⟩

theorem grows_of_preempts (h : Relation.ReflTransGen Preempts c d) : Grows c d := by
  induction h with
  | refl => exact .refl c
  | tail _ hp ih => exact ih.trans hp.grows

/-- How a read that is preempted can end, from the state in which it starts. -/
inductive ReadEnds (c : Chan) (args : ReadArgs) : ReadResult → Chan → Prop
  | unpowered {fs : List Frame} {d : Chan} : c.ctx.powered = false → Moved c fs [] d →
      ReadEnds c args (refuseRead args armDriverError) d
  | bad {fs : List Frame} {d : Chan} : c.ctx.powered = true → args.bad = true → Moved c fs [] d →
      ReadEnds c args (refuseRead args armDriverErrorParameter) d
  | empty {fs : List Frame} {d : Chan} : c.ctx.powered = true → args.bad = false →
      c.queue = [] → Moved c fs [] d → ReadEnds c args (refuseRead args armDriverError) d
  | took {f : Frame} {fs : List Frame} {d : Chan} : c.ctx.powered = true → args.bad = false →
      Moved c fs [f] d → ReadEnds c args (deliver f args) d

structure Keeps (c d : Chan) : Prop where
  flow : Flow c d
  powered : d.ctx.powered = true → c.ctx.powered = true

theorem Grows.keeps (h : Grows c d) : Keeps c d := by
  obtain ⟨fs, hm⟩ := h.moved
  exact ⟨⟨fs, [], hm⟩, fun hp => h.powered.symm.trans hp⟩

theorem Grows.queue (h : Grows c d) : ∃ fs, d.queue = c.queue ++ fs := by
  obtain ⟨fs, hm⟩ := h.moved
  exact ⟨fs, hm.queue.symm⟩

theorem Grows.front (h : Grows c d) (hne : c.ctx.rx.tail ≠ c.ctx.rx.head) :
    d.ctx.rx.tail ≠ d.ctx.rx.head ∧ d.ctx.rx.front = c.ctx.rx.front := by
  obtain ⟨fs, hq⟩ := h.queue
  rw [Chan.queue, Chan.queue, Ring.toList_eq_cons hne, List.cons_append] at hq
  have hne' : d.ctx.rx.tail ≠ d.ctx.rx.head := by
    intro heq
    rw [Ring.toList_eq_nil.mpr heq] at hq
    cases hq
  rw [Ring.toList_eq_cons hne'] at hq
  exact ⟨hne', (List.cons.inj hq).1⟩

theorem canMessageRead_conc (c : Chan) (args : ReadArgs) :
    Prog.Conc Preempts (Keeps c) (canMessageRead args) (ReadEnds c args) c := by
  have hrefuse {r : ReadResult} {t : Chan} (ht : Grows c t)
      (hr : ∀ fs d, Moved c fs [] d → ReadEnds c args r d) :
      Prog.Conc Preempts (Keeps c) (pure r : M ReadResult) (ReadEnds c args) t := by
    refine .pure fun d hd => ?_
    have hg := ht.trans (grows_of_preempts hd)
    obtain ⟨fs, hm⟩ := hg.moved
    exact ⟨hg.keeps, hr fs d hm⟩
  refine .get_bind fun t1 h1 => ?_
  have hg1 := grows_of_preempts h1
  refine ⟨hg1.keeps, ?_⟩
  by_cases hpow : t1.ctx.powered = true
  swap
  · rw [if_pos (by simpa using hpow)]
    exact hrefuse hg1 fun _ _ => .unpowered (by rw [← hg1.powered]; simpa using hpow)
  have hpow' : c.ctx.powered = true := hg1.powered.symm.trans hpow
  rw [if_neg (by simp [hpow])]
  by_cases hbad : args.bad = true
  · rw [if_pos hbad]
    exact hrefuse hg1 fun _ _ => .bad hpow' hbad
  have hbad' : args.bad = false := by simpa using hbad
  rw [if_neg hbad]
  refine .get_bind fun t2 h2 => ?_
  have hg2 := hg1.trans (grows_of_preempts h2)
  refine ⟨hg2.keeps, .get_bind fun t3 h3 => ?_⟩
  have hg23 := grows_of_preempts h3
  have hg3 := hg2.trans hg23
  refine ⟨hg3.keeps, ?_⟩
  rw [← hg23.tail]
  by_cases hempty : t3.ctx.rx.tail = t3.ctx.rx.head
  · rw [if_pos hempty]
    -- Only the reader removes frames, so a queue seen empty was empty from the start.
    have hq : c.queue = [] := by
      obtain ⟨fs, hq⟩ := hg3.queue
      rw [Chan.queue, Ring.toList_eq_nil.mpr hempty] at hq
      exact (List.append_eq_nil_iff.mp hq.symm).1
    exact hrefuse hg3 fun _ _ => .empty hpow' hbad' hq
  rw [if_neg hempty]
  refine .get_bind fun t4 h4 => ?_
  obtain ⟨hne4, -⟩ := (grows_of_preempts h4).front hempty
  have hg4 := hg3.trans (grows_of_preempts h4)
  refine ⟨hg4.keeps, .modify_bind fun t5 h5 => ?_⟩
  obtain ⟨hne5, hfront⟩ := (grows_of_preempts h5).front hne4
  have hg5 := hg4.trans (grows_of_preempts h5)
  refine ⟨hg5.keeps, .pure fun d hd => ?_⟩
  rw [← hfront] at hd ⊢
  obtain ⟨fs, hm⟩ := hg5.moved
  obtain ⟨fs', hm'⟩ := (grows_of_preempts hd).moved
  have hm : Moved c _ _ d := (hm.trans (taken_moved hne5)).trans hm'
  exact ⟨⟨⟨_, _, hm⟩, fun _ => hpow'⟩, .took hpow' hbad' hm⟩

variable {env : Env} {r : Int}

theorem call_aside {call : Call} (hfull : call ≠ .canPowerControl .full)
    (hread : ∀ args, call ≠ .canMessageRead args) : (call.run env).Moves Aside := by
  cases call with
  | canInitialize cbUnit cbObject => exact canInitialize_aside cbUnit cbObject
  | canUnInitialize => exact canUnInitialize_aside
  | canPowerControl state =>
    refine .bind .get fun _ => .ite (.pure _) ?_
    cases state with
    | full => exact absurd rfl hfull
    | off => exact powerOff_aside
    | low | other => exact .pure _
  | canSetBitrate select bitrate bitSegments => exact canSetBitrate_aside select bitrate bitSegments
  | canSetMode mode => exact canSetMode_aside mode
  | canControl code arg => exact canControl_aside code arg
  | canMessageSend objIdx info data size => exact canMessageSend_aside objIdx info data size
  | canMessageRead args => exact absurd rfl (hread args)

theorem call_flow {call : Call} (hfull : call ≠ .canPowerControl .full) :
    (call.run env).Yields Flow := by
  by_cases hread : ∃ args, call = .canMessageRead args
  · obtain ⟨args, rfl⟩ := hread
    exact .bind (canMessageRead_flow args) fun _ => .pure _
  · have haside : (call.run env).Moves Aside := call_aside hfull fun args h => hread ⟨args, h⟩
    exact (haside.mono fun _ _ h => h.flow).yields

theorem powerFull_queue (h : (canPowerControl .full env).exec c = .ok (r, d)) :
    if c.ctx.initialized && !c.ctx.powered then
      d.queue = [] ∧ d.handed = c.handed ∧ d.appended = c.appended ∧
        (d.ctx.powered = true → r = armDriverOk)
    else d = c := by
  have hget : (canPowerControl .full env).exec c =
      if c.ctx.initialized then (powerFull env).exec c else .ok (armDriverError, c) := by
    simp only [canPowerControl, Prog.exec_bind, Prog.exec_get, Prog.exec_ite, Prog.exec_pure,
      Bool.not_eq_true']
    cases c.ctx.initialized <;> rfl
  rw [hget] at h
  cases hi : c.ctx.initialized with
  | false =>
    simp only [hi, Bool.false_eq_true, if_false] at h
    cases h
    simp
  | true =>
    simp only [hi, if_true] at h
    cases hpow : c.ctx.powered with
    | true =>
      simp only [powerFull, Prog.exec_bind, Prog.exec_get, hpow, if_true, Prog.exec_pure] at h
      cases h
      simp
    | false =>
      rw [exec_powerFull hpow] at h
      simp only [Bool.not_false, Bool.and_self, if_true]
      split at h
      next => cases h
      next rc e he =>
        -- The ring is emptied before the initialisation, so a refused one leaves it empty too.
        have hmoved := ((canApplyInit_aside _).exec he).moved
        have hempty : (emptied c).queue = [] := Ring.toList_reset _
        have hq : e.queue = [] := by simpa [hempty] using hmoved.queue.symm
        have hhand : e.handed = c.handed := by
          rw [hmoved.handed, List.append_nil]
          rfl
        have happ : e.appended = c.appended := by
          rw [hmoved.appended, List.append_nil]
          rfl
        have hoff : e.ctx.powered = false := (canApplyInit_outcome he).powered.trans hpow
        split at h
        next =>
          cases h
          exact ⟨hq, hhand, happ, fun hp => absurd (hp.symm.trans hoff) (by decide)⟩
        next =>
          cases h
          exact ⟨hq, hhand, happ, fun _ => rfl⟩

/-! ### Runs -/

end Cmsis

/-- An observer's notes: how many frames had been handed out and appended when the instance was
last powered up, and whether no later power-up has failed. -/
structure Notes : Type where
  handed : Nat
  appended : Nat
  intact : Bool

def Notes.next (n : Notes) (c : Chan) (l : Label) (d : Chan) : Notes :=
  match l with
  | .call _ (.canPowerControl .full) r =>
    if c.ctx.initialized && !c.ctx.powered then
      if r = armDriverOk then ⟨d.handed.length, d.appended.length, true⟩
      else { n with intact := false }
    else n
  | _ => n

structure Watch : Type where
  chan : Chan
  reading : Option (M ReadResult)
  notes : Notes

def Watch.init (c : Chan) : Watch := ⟨c, none, ⟨0, 0, true⟩⟩

inductive QueueLabel : Type
  | alone (l : Label)
  | enter (args : ReadArgs)
  | act
  | preempt
  | leave (r : ReadResult)

/-- Calls run alone, except for the reads that the handler preempts. -/
inductive QueueStep (w : Watch) : QueueLabel → Watch → Prop
  | alone {l : Label} {d : Chan} : w.reading = none → Step w.chan l d →
      QueueStep w (.alone l) ⟨d, none, w.notes.next w.chan l d⟩
  | enter {args : ReadArgs} : w.reading = none →
      QueueStep w (.enter args) { w with reading := some (canMessageRead args) }
  | act {u : Chan → Chan} {n : Chan → M ReadResult} : w.reading = some (.act u n) →
      QueueStep w .act { w with chan := u w.chan, reading := some (n w.chan) }
  | preempt {p : M ReadResult} {d : Chan} : w.reading = some p → Preempts w.chan d →
      QueueStep w .preempt { w with chan := d }
  | leave {r : ReadResult} : w.reading = some (.ret r) →
      QueueStep w (.leave r) { w with reading := none }

/-- The frames handed out since the last power-up, and then the frames still in the ring, are
the frames appended since then. -/
def Accounted (n : Notes) (c : Chan) : Prop :=
  c.handed.drop n.handed ++ c.queue = c.appended.drop n.appended

structure Sums (n : Notes) (c : Chan) : Prop where
  handed : n.handed ≤ c.handed.length
  appended : n.appended ≤ c.appended.length
  account : n.intact = true → Accounted n c
  powered : c.ctx.powered = true → n.intact = true

theorem keeps_of_step {c d : Chan} {l : Label} (hs : Step c l d) (hl : ¬PowersFull l) :
    Keeps c d where
  powered := by
    intro hp
    by_contra hn
    have hd := unpowered_step (by simpa using hn) hs hl
    exact absurd (hp.symm.trans hd) (by decide)
  flow := by
    cases hs with
    | @call env call r _ h =>
      refine call_flow ?_ _ _ _ h
      rintro rfl
      exact hl trivial
    | handler h => exact handler_flow _ _ _ _ _ h
    | hardware => exact ⟨[], [], by simp [Chan.appended], by simp [Chan.handed], by simp [Chan.queue]⟩

namespace Sums

variable {n : Notes} {c d : Chan}

theorem keeps (h : Sums n c) (hk : Keeps c d) : Sums n d := by
  obtain ⟨fs, hs, hm⟩ := hk.flow
  refine ⟨?_, ?_, fun hi => ?_, fun hp => h.powered (hk.powered hp)⟩
  · rw [hm.handed, List.length_append]
    exact Nat.le_add_right_of_le h.handed
  · rw [hm.appended, List.length_append]
    exact Nat.le_add_right_of_le h.appended
  · calc
      d.handed.drop n.handed ++ d.queue = c.handed.drop n.handed ++ (hs ++ d.queue) := by
        rw [hm.handed, List.drop_append_of_le_length h.handed, List.append_assoc]
      _ = c.appended.drop n.appended ++ fs := by
        rw [← hm.queue, ← List.append_assoc, h.account hi]
      _ = d.appended.drop n.appended := by
        rw [hm.appended, List.drop_append_of_le_length h.appended]

theorem next {l : Label} (h : Sums n c) (hs : Step c l d) : Sums (n.next c l d) d := by
  by_cases hl : PowersFull l
  · cases hs with
    | handler | hardware => cases hl
    | @call env call r _ hexec =>
      cases call with
      | canPowerControl state =>
        cases state with
        | full =>
          have hqueue := powerFull_queue hexec
          simp only [Notes.next]
          split at hqueue
          -- The one call that drops frames: the notes start afresh with the emptied ring.
          next hup =>
            obtain ⟨hq, hhand, happ, hpow⟩ := hqueue
            rw [if_pos hup]
            split
            next => exact ⟨le_rfl, le_rfl, fun _ => by simp [Accounted, hq], fun _ => rfl⟩
            next hr =>
              exact ⟨hhand ▸ h.handed, happ ▸ h.appended, fun hi => absurd hi (by simp),
                fun hp => absurd (hpow hp) hr⟩
          next hup =>
            subst hqueue
            rw [if_neg hup]
            exact h
        | _ => cases hl
      | _ => cases hl
  · have hnext : n.next c l d = n := by
      cases l with
      | call env call r =>
        cases call with
        | canPowerControl state =>
          cases state with
          | full => exact absurd trivial hl
          | _ => rfl
        | _ => rfl
      | _ => rfl
    rw [hnext]
    exact h.keeps (keeps_of_step hs hl)

end Sums

def Watched (w : Watch) : Prop :=
  match w.reading with
  | none => Sums w.notes w.chan
  | some p => ∃ s args, Sums w.notes s ∧
      Prog.Conc Preempts (Keeps s) p (ReadEnds s args) w.chan

theorem Watched.sums {w : Watch} (h : Watched w) : Sums w.notes w.chan := by
  rw [Watched] at h
  split at h
  next => exact h
  next =>
    obtain ⟨s, args, hs, hc⟩ := h
    exact hs.keeps hc.inv

theorem Watched.step {w w' : Watch} {l : QueueLabel} (h : Watched w) (hs : QueueStep w l w') :
    Watched w' := by
  have hsums := h.sums
  cases hs with
  | alone _ hst => exact hsums.next hst
  | enter _ => exact ⟨w.chan, _, hsums, canMessageRead_conc _ _⟩
  | act hr =>
    rw [Watched, hr] at h
    obtain ⟨s, args, hs, hc⟩ := h
    exact ⟨s, args, hs, hc.step .act⟩
  | preempt hr hp =>
    simp only [Watched, hr] at h ⊢
    obtain ⟨s, args, hs, hc⟩ := h
    exact ⟨s, args, hs, hc.step (.env hp)⟩
  | leave hr => exact hsums

theorem Watched.run {dev : Device} {w : Watch}
    (h : Reach QueueStep (fun _ _ => True) (.init dev.boot) w) : Watched w := by
  refine h.invariant ?_ fun _ _ _ hs _ hst => hs.step hst
  refine ⟨le_rfl, le_rfl, fun _ => rfl, fun _ => rfl⟩

theorem queue_length_le (c : Chan) : c.queue.length ≤ 7 := by
  rw [Chan.queue, Ring.length_toList]
  exact c.ctx.rx.count_le

theorem drained_moved (c : Chan) (f : Frame) : Moved c (c.stored f) [] (c.drained f) where
  appended := by simp [Chan.appended, Chan.drained, List.filterMap_map, Function.comp_def, Obs.stored]
  handed := by simp [Chan.handed, Chan.drained, List.filterMap_map, Function.comp_def, Obs.taken]
  queue := by
    rw [Chan.queue, Chan.queue, Chan.drained, Ring.toList_foldl_offer]
    rfl

theorem room_eq (c : Chan) : c.ctx.rx.room = 7 - c.queue.length := by
  rw [Chan.queue, Ring.length_toList, Ring.room]

/-- What a drain does: it empties the FIFO without polling, appends the longest prefix that fits
and drops the rest. -/
structure Drains (c : Chan) (f : Frame) (d : Chan) : Prop where
  exec : (drain (c.rxFifo.length + 1) f false false).exec c =
    .ok ((decide (c.stored f ≠ []), decide (c.refused f ≠ [])), d)
  rxFifo : d.rxFifo = []
  stored : c.stored f = (parseAll f c.rxFifo).take (7 - c.queue.length)
  refused : c.refused f = (parseAll f c.rxFifo).drop (7 - c.queue.length)
  moved : Moved c (c.stored f) [] d

theorem drained_drains {c : Chan} (hi : c.node.initialized = true) (f : Frame) :
    Drains c f (c.drained f) where
  exec := by
    rw [exec_drain hi (Nat.lt_succ_self _), Bool.false_or, Bool.false_or]
  rxFifo := rfl
  stored := by rw [Chan.stored, room_eq]
  refused := by rw [Chan.refused, room_eq]
  moved := drained_moved c f

/-- The receive path is a bounded queue: what a drain does, which signals it raises, how a
preempted read ends, and the account of all frames while no power-up has failed since the last. -/
theorem receive_queue :
    (∀ c f, c.node.initialized = true → ∃ d, Drains c f d ∧ d.queue.length ≤ 7) ∧
    (∀ c app f events, c.node.initialized = true →
      ∃ d, (canHalEvent app f events (some .ctx)).exec c = .ok ((), d) ∧
        d.raised = c.raised ++ eventSignals c f events) ∧
    (∀ c args r d,
      Relation.ReflTransGen (Prog.Step Preempts) (canMessageRead args, c) (.ret r, d) →
        ReadEnds c args r d) ∧
    ∀ dev w, Reach QueueStep (fun _ _ => True) (.init (Device.boot dev)) w →
      (w.notes.intact = true → Accounted w.notes w.chan) ∧
        (w.chan.ctx.powered = true → w.notes.intact = true) := by
  refine ⟨fun c f hi => ⟨_, drained_drains hi f, queue_length_le _⟩, fun c app f events hi => ?_,
    fun c args r d hrun => ?_, fun dev w hw => ?_⟩
  · obtain ⟨d, hd, hr⟩ := canHalEvent_raises hi app f events
    exact ⟨d, hd, hr.raised⟩
  · exact ((canMessageRead_conc c args).run hrun d .refl).2
  · have hsums := (Watched.run hw).sums
    exact ⟨hsums.account, hsums.powered⟩

inductive Event : Type
  | call (env : Env) (call : Call)
  | handler (buffer : Frame)
  | hardware (hw : Hw)

def Watch.fire (w : Watch) (e : Event) : Option Watch :=
  if w.reading.isSome then none else match e with
    | .call env call => match (call.run env).exec w.chan with
      | .ok (r, d) => some ⟨d, none, w.notes.next w.chan (.call env call r) d⟩
      | .error _ => none
    | .handler f => match (handler silent f).exec w.chan with
      | .ok ((), d) => some ⟨d, none, w.notes⟩
      | .error _ => none
    | .hardware hw => some ⟨w.chan.sense hw, none, w.notes⟩

theorem Watch.step_of_fire (w : Watch) (e : Event) (w' : Watch) (h : w.fire e = some w') :
    ∃ l, True ∧ QueueStep w l w' := by
  unfold fire at h
  split at h
  next => cases h
  next hr =>
    have hr : w.reading = none := by simpa using hr
    cases e with
    | call env call =>
      simp only at h
      split at h
      next he =>
        cases h
        exact ⟨_, trivial, .alone hr (.call he)⟩
      next => cases h
    | handler f =>
      simp only at h
      split at h
      next he =>
        cases h
        exact ⟨.alone (.handler silent f), trivial, .alone hr (.handler he)⟩
      next => cases h
    | hardware hw =>
      cases h
      exact ⟨.alone (.hardware hw), trivial, .alone hr .hardware⟩

def exampleArrival : Hw where
  regs := fun
    | .int => intRxif
    | _ => 0
  rxFifo := [fun _ => 0]
  rxFlag := true
  txFlag := false
  genFlag := false

def receiveOne : List Event :=
  [.call (granting .normalFd) (.canInitialize none (some 1)),
    .call (granting .normalFd) (.canPowerControl .full),
    .hardware exampleArrival, .handler zeroFrame]

theorem receive_queue_example :
    ∃ w, Reach QueueStep (fun _ _ => True) (.init exampleDevice.boot) w ∧
      w.chan.queue.length = 1 ∧ Accounted w.notes w.chan ∧
      (∃ d, Drains w.chan zeroFrame d) ∧ ∃ r d, ReadEnds w.chan ⟨objRx, true, none, 0⟩ r d := by
  have hrun : ∃ w, Reach QueueStep (fun _ _ => True) (.init exampleDevice.boot) w ∧
      (w.chan.ctx.powered && w.chan.node.initialized && decide (w.chan.queue.length = 1)) = true :=
    Reach.of_play Watch.step_of_fire receiveOne _ (by decide +kernel)
  obtain ⟨w, hw, hp⟩ := hrun
  simp only [Bool.and_eq_true, decide_eq_true_eq] at hp
  obtain ⟨⟨hpow, hi⟩, hlen⟩ := hp
  have haccount := receive_queue.2.2.2 exampleDevice w hw
  obtain ⟨d, hd, -⟩ := receive_queue.1 w.chan zeroFrame hi
  have hread : ∃ q, (canMessageRead ⟨objRx, true, none, 0⟩).exec w.chan = .ok q := by
    rw [exec_canMessageRead]
    split
    next => exact ⟨_, rfl⟩
    next => split <;> [exact ⟨_, rfl⟩; split <;> exact ⟨_, rfl⟩]
  obtain ⟨⟨r, e⟩, he⟩ := hread
  exact ⟨w, hw, hlen, haccount.1 (haccount.2 hpow), ⟨d, hd⟩, r, e,
    receive_queue.2.2.1 w.chan _ r e (Prog.steps_of_exec he)⟩

/-- A power-up that times out after `PowerControl(OFF)` throws the waiting frame away. -/
theorem frame_lost_at_failed_power_up :
    ∃ w, Reach QueueStep (fun _ _ => True) (.init exampleDevice.boot) w ∧
      ¬Accounted w.notes w.chan := by
  have hrun : ∃ w, Reach QueueStep (fun _ _ => True) (.init exampleDevice.boot) w ∧
      decide ((w.chan.handed.drop w.notes.handed).length + w.chan.queue.length ≠
        (w.chan.appended.drop w.notes.appended).length) = true :=
    Reach.of_play Watch.step_of_fire
      (receiveOne ++ [.call (granting .normalFd) (.canPowerControl .off),
        .call { granting .normalFd with toConfig := ⟨0, [⟨0, 10⟩]⟩ } (.canPowerControl .full)]) _
      (by decide +kernel)
  obtain ⟨w, hw, hp⟩ := hrun
  refine ⟨w, hw, fun h => of_decide_eq_true hp ?_⟩
  rw [← List.length_append, h]

end CanfdDriver
