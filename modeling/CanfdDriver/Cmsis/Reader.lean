import CanfdDriver.Cmsis.Division
import CanfdDriver.Cmsis.Failure
import CanfdDriver.Cmsis.Signals

namespace CanfdDriver

open Lib NoraCanfd Cmsis

namespace NoraCanfd

variable {e : Stop}

theorem irqLineClear_avoids : irqLineClear.Avoids e :=
  .bind .modify fun _ => .bind .modify fun _ => .modify

theorem txDisarm_avoids : txDisarm.Avoids e :=
  .bind .modify fun _ => .bind .modify fun _ => .bind (.bind .modify fun _ => .modify) fun _ => .modify

theorem irqHandler_avoids {callback : EventCallback → BitVec 32 → Option UserData → M Unit}
    (h : ∀ f events ud, (callback f events ud).Avoids e) : (irqHandler callback).Avoids e := by
  refine .bind getRegs_avoids fun _ => .ite irqLineClear_avoids (.bind .get fun c => ?_)
  refine .bind (.ite .modify (.pure _)) fun _ => .bind .get fun c => ?_
  refine .bind (.ite txDisarm_avoids (.pure _)) fun _ => .bind .modify fun _ => ?_
  refine .bind .get fun c => .bind .get fun c => .bind ?_ fun _ => irqLineClear_avoids
  cases c.isr.cb with
  | none => exact .pure _
  | some f => exact .ite (h _ _ _) (.pure _)

end NoraCanfd

namespace Cmsis

variable {c d : Chan} {app : App} {e : Stop}

theorem runReads_avoids (reads : List ReadArgs) : (runReads reads).Avoids e := by
  induction reads with
  | nil => exact .pure _
  | cons args rest ih => exact .bind (canMessageRead_avoids args) fun _ => ih

theorem signalObject_avoids (event : BitVec 32) : (signalObject app event).Avoids e :=
  .bind .get fun _ => .ite (.pure _) (.bind .modify fun _ => runReads_avoids _)

theorem signalUnit_avoids (event : BitVec 32) : (signalUnit app event).Avoids e :=
  .bind .get fun _ => .ite (.pure _) (.bind .modify fun _ => runReads_avoids _)

theorem drain_returns (c : Chan) (f : Frame) :
    ∃ b d, (drain (c.rxFifo.length + 1) f false false).exec c = .ok (b, d) := by
  cases hi : c.node.initialized with
  | false => exact ⟨_, c, exec_drain_uninitialized hi _ f false false⟩
  | true => exact ⟨_, _, exec_drain hi (Nat.lt_succ_self _) f false false⟩

theorem canHalEvent_avoids (f : Frame) (events : BitVec 32) (ud : Option UserData) :
    (canHalEvent app f events ud).Avoids e := by
  cases ud with
  | none => exact .pure _
  | some ud =>
    refine .bind (.ite ?_ (.pure _)) fun _ => .bind (.ite (signalObject_avoids _) (.pure _)) fun _ =>
      .ite (signalUnit_avoids _) (.pure _)
    intro c h
    obtain ⟨b, d, hd⟩ := drain_returns c f
    rw [Prog.exec_bind_of_ok (Prog.exec_get c), Prog.exec_bind_of_ok hd] at h
    refine Prog.Avoids.bind ?_ (fun _ => ?_) d h
    · exact .ite (signalObject_avoids _) (.pure _)
    · exact .ite (signalObject_avoids _) (.pure _)

theorem handler_returns (app : App) (f : Frame) (c : Chan) :
    ∃ d, (handler app f).exec c = .ok ((), d) := by
  have havoids (e : Stop) : (handler app f).Avoids e := irqHandler_avoids fun cb events ud => by
    cases cb with
    | canHalEvent => exact canHalEvent_avoids f events ud
    | application => exact .pure _
  obtain ⟨_, d, hd⟩ := Prog.Avoids.exec_ok havoids c
  exact ⟨d, hd⟩

end Cmsis

/-- The application reads once in each `RECEIVE` callback, and in no other. -/
structure ReadsOnce (app : App) : Prop where
  receive : ∃ args, app (.object objRx eventReceive) = [args] ∧ args.bad = false
  other : ∀ s, s ≠ .object objRx eventReceive → app s = []

/-- After a run of the handler from `c` to `d`, each frame that it took from the FIFO has been
handed out, or dropped and announced as an overrun, and the ring is empty. -/
structure Delivers (f : Frame) (c d : Chan) : Prop where
  account : ∃ os fs gs, c.rxFifo = os ++ d.rxFifo ∧ parseAll f os = fs ++ gs ∧
    d.handed = c.handed ++ fs ∧
    (gs ≠ [] → .object objRx eventReceiveOverrun ∈ d.raised.drop c.raised.length)
  ring : d.queue = []

/-- The application is registered at each `Initialize`, and reads in the handler only. -/
def Documented (_ : Chan) : Label → Prop
  | .call _ (.canInitialize _ cbObject) _ => cbObject ≠ none
  | .handler app _ => ReadsOnce app
  | _ => True

/-- A run of the handler that finds a frame to announce on a powered instance finds one only. -/
def OneWaiting (c : Chan) : Label → Prop
  | .handler _ _ => c.ctx.powered = true → Announces c → c.rxFifo.length ≤ 1
  | _ => True

/-- What a run of the handler does with `os`, the objects that it takes from the FIFO while the
ring is empty: the first is handed out, and the others stay in the ring as far as they fit. -/
structure HandsFirst (f : Frame) (os : List Obj) (c d : Chan) : Prop where
  rxFifo : c.rxFifo = os ++ d.rxFifo
  handed : d.handed = c.handed ++ (parseAll f os).take 1
  queue : d.queue = ((parseAll f os).take 7).tail

structure Idle (c d : Chan) : Prop where
  ctx : d.ctx = c.ctx
  rxFifo : d.rxFifo = c.rxFifo
  handed : d.handed = c.handed

section

variable {c d s t : Chan} {f : Frame} {os : List Obj} {app : App}

theorem Idle.refl (c : Chan) : Idle c c := ⟨rfl, rfl, rfl⟩

theorem Idle.trans (h : Idle c d) (h' : Idle d s) : Idle c s :=
  ⟨h'.ctx.trans h.ctx, h'.rxFifo.trans h.rxFifo, h'.handed.trans h.handed⟩

theorem Passes.idle (h : Passes c d) : Idle c d :=
  ⟨h.beside.ctx, h.beside.rxFifo, h.beside.aside.moved.handed.trans (List.append_nil _)⟩

theorem HandsFirst.of_idle (h : Idle c d) (hq : c.queue = []) : HandsFirst f [] c d where
  rxFifo := h.rxFifo.symm
  handed := h.handed.trans (List.append_nil _).symm
  queue := (congrArg (fun x => x.rx.toList) h.ctx).trans hq

theorem HandsFirst.idle (hcs : Idle c s) (h : HandsFirst f os s t) (htd : Idle t d) :
    HandsFirst f os c d where
  rxFifo := by rw [← hcs.rxFifo, h.rxFifo, htd.rxFifo]
  handed := by rw [htd.handed, h.handed, hcs.handed]
  queue := (congrArg (fun x => x.rx.toList) htd.ctx).trans h.queue

theorem HandsFirst.delivers_iff (h : HandsFirst f os c d) : Delivers f c d ↔ os.length ≤ 1 := by
  have hlen := length_parseAll f os
  constructor
  · intro hd
    have hq := congrArg List.length (h.queue.symm.trans hd.ring)
    rw [List.length_tail, List.length_take, List.length_nil] at hq
    omega
  · intro hle
    refine ⟨⟨os, parseAll f os, [], h.rxFifo, (List.append_nil _).symm, ?_, fun hne => ?_⟩, ?_⟩
    · rw [h.handed, List.take_of_length_le (by omega)]
    · exact absurd rfl hne
    · rw [h.queue, ← List.length_eq_zero_iff, List.length_tail, List.length_take]
      omega

end

namespace Cmsis

variable {c d : Chan} {f : Frame} {app : App} {events : BitVec 32}

theorem log_idle {s : Signal} {x : Context}
    (h : (runReads []).exec (c.log (.signal s x)) = .ok ((), d)) : Idle c d := by
  cases h
  exact ⟨rfl, rfl, by simp [Chan.handed, Obs.taken]⟩

theorem overrun_idle {p : Prop} [Decidable p] (hreads : ReadsOnce app)
    (h : (if p then signalObject app eventReceiveOverrun else pure ()).exec c = .ok ((), d)) :
    Idle c d := by
  split at h
  swap
  · cases h
    exact .refl c
  rw [exec_signalObject] at h
  split at h
  next =>
    cases h
    exact .refl c
  next =>
    rw [hreads.other _ (by decide)] at h
    exact log_idle h

theorem busOff_idle {p : Prop} [Decidable p] (hreads : ReadsOnce app)
    (h : (if p then signalUnit app eventUnitBusOff else pure ()).exec c = .ok ((), d)) :
    Idle c d := by
  split at h
  swap
  · cases h
    exact .refl c
  rw [exec_signalUnit] at h
  split at h
  next =>
    cases h
    exact .refl c
  next =>
    rw [hreads.other _ Signal.noConfusion] at h
    exact log_idle h

theorem receive_hands {g : Frame} {gs : List Frame} (hreads : ReadsOnce app)
    (hpow : c.ctx.powered = true) (hobject : c.ctx.cbObject ≠ none) (hq : c.queue = g :: gs)
    (h : (signalObject app eventReceive).exec c = .ok ((), d)) :
    d.rxFifo = c.rxFifo ∧ d.handed = c.handed ++ [g] ∧ d.queue = gs := by
  obtain ⟨args, happ, hargs⟩ := hreads.receive
  have hring : c.ctx.rx.tail ≠ c.ctx.rx.head := by
    intro heq
    rw [Chan.queue, Ring.toList_eq_nil.mpr heq] at hq
    cases hq
  rw [exec_signalObject, if_neg (by simpa using hobject), happ] at h
  obtain ⟨_, s, hs, hrest⟩ := Prog.exec_bind_eq_ok.mp h
  cases hrest
  have hpow' : ¬(!(c.log (.signal (.object objRx eventReceive) c.ctx)).ctx.powered) = true := by
    simp [hpow]
  have hring' : (c.log (.signal (.object objRx eventReceive) c.ctx)).ctx.rx.tail ≠
      (c.log (.signal (.object objRx eventReceive) c.ctx)).ctx.rx.head := hring
  rw [exec_canMessageRead, if_neg hpow', if_neg (by simp [hargs]), if_neg hring'] at hs
  cases hs
  rw [Chan.queue, Ring.toList_eq_cons hring] at hq
  obtain ⟨rfl, htail⟩ := List.cons.inj hq
  have hlog : (c.log (.signal (.object objRx eventReceive) c.ctx)).handed = c.handed := by
    simp [Chan.handed, Obs.taken]
  refine ⟨rfl, ?_, htail⟩
  rw [(taken_moved hring').handed, hlog]
  rfl

theorem drained_hands {e s : Chan} (hreads : ReadsOnce app) (hpow : c.ctx.powered = true)
    (hobject : c.ctx.cbObject ≠ none) (hq : c.queue = [])
    (he : (if c.stored f ≠ [] then signalObject app eventReceive else pure ()).exec (c.drained f) =
      .ok ((), e))
    (hs : (if c.refused f ≠ [] then signalObject app eventReceiveOverrun else pure ()).exec e =
      .ok ((), s)) :
    HandsFirst f c.rxFifo c s := by
  have hmoved := drained_moved c f
  have hstored : c.stored f = (parseAll f c.rxFifo).take 7 := by
    rw [Chan.stored, room_eq, hq]
    rfl
  have hqueue : (c.drained f).queue = (parseAll f c.rxFifo).take 7 := by
    rw [← hstored, ← List.nil_append (c.drained f).queue, ← hmoved.queue, hq, List.nil_append]
  have hhanded : (c.drained f).handed = c.handed := by rw [hmoved.handed, List.append_nil]
  refine HandsFirst.idle (.refl c) ?_ (overrun_idle hreads hs)
  cases hos : parseAll f c.rxFifo with
  | nil =>
    rw [if_neg (by simp [hstored, hos])] at he
    cases he
    refine ⟨(List.append_nil _).symm, ?_, ?_⟩
    · rw [hhanded, hos, List.take_nil, List.append_nil]
    · rw [hqueue, hos]
      rfl
  | cons g gs =>
    rw [if_pos (by simp [hstored, hos])] at he
    have hcons : (c.drained f).queue = g :: gs.take 6 := by rw [hqueue, hos, List.take_succ_cons]
    obtain ⟨hfifo, hhand, hrest⟩ := receive_hands (c := c.drained f) hreads hpow hobject hcons he
    have hempty : e.rxFifo = [] := hfifo
    refine ⟨by rw [hempty, List.append_nil], ?_, ?_⟩
    · rw [hhand, hhanded, hos]
      rfl
    · rw [hrest, hos]
      rfl

theorem canHalEvent_hands (hreads : ReadsOnce app) (hpow : c.ctx.powered = true)
    (hobject : c.ctx.cbObject ≠ none) (hq : c.queue = [])
    (h : (canHalEvent app f events (some .ctx)).exec c = .ok ((), d)) :
    HandsFirst f (if events &&& eventRxAvailable ≠ 0 ∧ c.node.initialized = true then c.rxFifo else [])
      c d := by
  obtain ⟨s, t, hpart, ht, hlast⟩ := canHalEvent_cases h
  have hidle := (overrun_idle hreads ht).trans (busOff_idle hreads hlast)
  cases hpart with
  | skipped hno =>
    rw [if_neg hno]
    exact .of_idle hidle hq
  | drained hyes he hs =>
    rw [if_pos hyes]
    exact .idle (.refl c) (drained_hands hreads hpow hobject hq he hs) hidle

theorem handler_hands (hreads : ReadsOnce app) (hpow : c.ctx.powered = true)
    (hobject : c.ctx.cbObject ≠ none) (hq : c.queue = [])
    (h : (handler app f).exec c = .ok ((), d)) :
    HandsFirst f (if Announces c then c.rxFifo else []) c d := by
  have hroom : ¬c.ctx.rx.full := by
    intro hfull
    have hcount : c.queue.length = 7 := (Ring.length_toList _).trans (Ring.full_iff.mp hfull)
    rw [hq] at hcount
    cases hcount
  rcases handler_cases h with ⟨hno, hpass⟩ | ⟨events, s, t, hbefore, hexec, hlast, hdrain⟩
  · rw [if_neg fun ha => hno (announces_iff.mp ha).1.1]
    exact .of_idle hpass.idle hq
  have hidle := hbefore.idle
  have hhands := canHalEvent_hands hreads (hidle.ctx ▸ hpow) (hidle.ctx ▸ hobject)
    ((congrArg (fun x => x.rx.toList) hidle.ctx).trans hq) hexec
  have hos : (if events &&& eventRxAvailable ≠ 0 ∧ s.node.initialized = true then s.rxFifo else []) =
      if Announces c then c.rxFifo else [] := by
    by_cases ha : Announces c
    · rw [if_pos ha, if_pos (hdrain.mpr (announces_iff.mp ha).1.1), hidle.rxFifo]
    · rw [if_neg ha]
      split
      next hd =>
        -- Only an empty FIFO keeps a drain from announcing a frame.
        by_contra hne
        exact ha (announces_iff.mpr ⟨⟨hdrain.mp hd, hidle.rxFifo ▸ hne, hroom⟩, hobject⟩)
      next => rfl
  rw [hos] at hhands
  exact .idle hidle hhands hlast.idle

end Cmsis

namespace Cmsis

variable {c d : Chan} {env : Env} {call : Call} {r : Int}

theorem Outcome.cbObject (h : Outcome env c call r d) :
    (d.ctx.cbObject = c.ctx.cbObject ∧ d.ctx.initialized = c.ctx.initialized) ∨
      d.ctx.initialized = false ∨ ∃ cbUnit, call = .canInitialize cbUnit d.ctx.cbObject := by
  have happly {x : Chan} {mode : Mode} {r : Int} (h : ApplyInit x mode env r d) :
      d.ctx.cbObject = x.ctx.cbObject ∧ d.ctx.initialized = x.ctx.initialized := by
    obtain ⟨m, hm⟩ := h.ctx
    rw [hm]
    exact ⟨rfl, rfl⟩
  have hrate (select : BitrateSelect) (bitrate bitSegments : BitVec 32) :
      (cacheRate c.ctx select bitrate bitSegments).cbObject = c.ctx.cbObject ∧
        (cacheRate c.ctx select bitrate bitSegments).initialized = c.ctx.initialized := by
    obtain ⟨_, _, _, hx⟩ := cacheRate_eq c.ctx select bitrate bitSegments
    rw [hx]
    exact ⟨rfl, rfl⟩
  cases h with
  | traffic htr =>
    obtain ⟨rx, hrx⟩ := htr.ctx
    rw [hrx]
    exact .inl ⟨rfl, rfl⟩
  | opened => exact .inr (.inr ⟨_, rfl⟩)
  | closed | closedPowered => exact .inr (.inl rfl)
  | off | fdCached => exact .inl ⟨rfl, rfl⟩
  | full _ _ happ =>
    obtain ⟨m, hm⟩ := happ.ctx
    rw [Chan.setCtx_ctx, hm]
    exact .inl ⟨rfl, rfl⟩
  | fullFailed _ _ happ | mode _ _ _ _ happ | fd _ _ _ _ happ =>
    have hsame := happly happ
    exact .inl hsame
  | rateCached => exact .inl (hrate ..)
  | rate _ hx hr =>
    subst hx
    rw [hr.ctx]
    exact .inl (hrate ..)

end Cmsis

section

variable {c d : Chan} {l : Label}

structure ReaderInv (c : Chan) : Prop where
  poweredUp : PoweredUp c
  object : c.ctx.initialized = true → c.ctx.cbObject ≠ none
  ring : c.ctx.powered = true → c.queue = []

theorem ReaderInv.cbObject (h : ReaderInv c) (hpow : c.ctx.powered = true) : c.ctx.cbObject ≠ none :=
  h.object (h.poweredUp hpow).2.1

theorem ReaderInv.hands {app : App} {f : Frame} (h : ReaderInv c) (hpow : c.ctx.powered = true)
    (hreads : ReadsOnce app) (hexec : (handler app f).exec c = .ok ((), d)) :
    HandsFirst f (if Announces c then c.rxFifo else []) c d :=
  handler_hands hreads hpow (h.cbObject hpow) (h.ring hpow) hexec

theorem oneWaiting_iff {app : App} {f : Frame} (hpow : c.ctx.powered = true) :
    (if Announces c then c.rxFifo else []).length ≤ 1 ↔ OneWaiting c (.handler app f) := by
  rw [OneWaiting, forall_prop_of_true hpow]
  split
  next ha => rw [forall_prop_of_true ha]
  next ha => exact iff_of_true (Nat.zero_le _) fun h => absurd h ha

theorem ReaderInv.call_ring {env : Env} {call : Call} {r : Int} (h : ReaderInv c)
    (hexec : (call.run env).exec c = .ok (r, d)) (hpow : d.ctx.powered = true) : d.queue = [] := by
  by_cases hfull : call = .canPowerControl .full
  · subst hfull
    have hqueue := powerFull_queue hexec
    split at hqueue
    next => exact hqueue.1
    next =>
      subst hqueue
      exact h.ring hpow
  have hpow' : c.ctx.powered = true := by
    by_contra hn
    have hno : ¬PowersFull (.call env call r) := by
      intro hp
      cases call with
      | canPowerControl state => cases state <;> first | exact hfull rfl | exact hp
      | _ => exact hp
    exact unpowered_elim (unpowered_step (Bool.eq_false_iff.mpr hn) (.call hexec) hno) hpow
  have hq := h.ring hpow'
  by_cases hread : ∃ args, call = .canMessageRead args
  · obtain ⟨args, rfl⟩ := hread
    obtain ⟨_, s, hs, hrest⟩ := Prog.exec_bind_eq_ok.mp hexec
    cases hrest
    rw [exec_canMessageRead, if_pos (Ring.toList_eq_nil.mp hq)] at hs
    split at hs
    next =>
      cases hs
      exact hq
    next =>
      split at hs <;>
      · cases hs
        exact hq
  · have haside := (call_aside hfull fun args h => hread ⟨args, h⟩).exec hexec
    exact (congrArg Ring.toList haside.rx).trans hq

theorem ReaderInv.step (h : ReaderInv c) (hdoc : Documented c l) (hone : OneWaiting c l)
    (hst : Step c l d) : ReaderInv d := by
  cases hst with
  | hardware => exact ⟨h.poweredUp.traffic (.sense _), h.object, h.ring⟩
  | handler hexec =>
    have htr := (handler_moves _ _).exec hexec
    refine ⟨h.poweredUp.traffic htr, ?_, fun hpow => ?_⟩
    · obtain ⟨rx, hrx⟩ := htr.ctx
      rw [hrx]
      exact h.object
    · have hpow' := htr.powered.symm.trans hpow
      exact ((h.hands hpow' hdoc hexec).delivers_iff.mpr ((oneWaiting_iff hpow').mpr hone)).ring
  | call hexec =>
    have hout := call_outcome hexec
    refine ⟨h.poweredUp.outcome hout, fun hi => ?_, h.call_ring hexec⟩
    rcases hout.cbObject with ⟨hsame, hinit⟩ | hoff | ⟨cbUnit, rfl⟩
    · rw [hsame]
      exact h.object (hinit.symm.trans hi)
    · exact absurd (hoff.symm.trans hi) Bool.false_ne_true
    · exact hdoc

theorem run_readerInv {dev : Device}
    (h : Reach Step (fun c l => Documented c l ∧ OneWaiting c l) dev.boot c) : ReaderInv c := by
  refine h.invariant ⟨.of_unpowered rfl, ?_, ?_⟩ fun s l t hs hl hst => hs.step hl.1 hl.2 hst
  · exact fun hi => absurd hi Bool.false_ne_true
  · exact fun _ => Ring.toList_eq_nil.mpr rfl

end

/-- In every run of the documented reader in which no run of the handler finds more than one frame
to announce, each of them delivers what it takes; one that finds more leaves a frame in the ring. -/
theorem reader_strands_none (dev : Device) {c : Chan} {app : App} (f : Frame)
    (hc : Reach Step (fun c l => Documented c l ∧ OneWaiting c l) dev.boot c)
    (hpow : c.ctx.powered = true) (hreads : ReadsOnce app) :
    ∃ d, (handler app f).exec c = .ok ((), d) ∧
      (Delivers f c d ↔ OneWaiting c (.handler app f)) := by
  obtain ⟨d, hd⟩ := handler_returns app f c
  have hhands := (run_readerInv hc).hands hpow hreads hd
  exact ⟨d, hd, hhands.delivers_iff.trans (oneWaiting_iff hpow)⟩

def documentedReader : App
  | .object objIdx event =>
    if objIdx = objRx ∧ event = eventReceive then [⟨objRx, true, some fun _ => 0, 64⟩] else []
  | .unit _ => []

theorem documentedReader_readsOnce : ReadsOnce documentedReader where
  receive := ⟨⟨objRx, true, some fun _ => 0, 64⟩, rfl, rfl⟩
  other s hs := by
    cases s with
    | object objIdx event =>
      refine if_neg fun h => hs ?_
      rw [h.1, h.2]
    | unit event => rfl

theorem reach_arrival (os : List Obj) (p : Chan → Bool)
    (h : (replay (fun _ _ call _ => match call with
        | .canInitialize _ cbObject => cbObject.isSome
        | _ => true) powerUp exampleDevice.boot).map
      (fun c => p (c.sense { exampleArrival with rxFifo := os })) = some true) :
    ∃ c, Reach Step (fun c l => Documented c l ∧ OneWaiting c l) exampleDevice.boot c ∧
      p c = true := by
  have hrun : ∃ c, Reach Step (fun c l => Documented c l ∧ OneWaiting c l) exampleDevice.boot c ∧
      p (c.sense { exampleArrival with rxFifo := os }) = true := by
    refine reach_of_replay _ powerUp _ (fun c env call r hok => ?_) h
    cases call with
    | canInitialize => exact ⟨Option.isSome_iff_ne_none.mp hok, trivial⟩
    | _ => exact ⟨trivial, trivial⟩
  obtain ⟨c, hc, hp⟩ := hrun
  exact ⟨_, hc.tail (l := .hardware { exampleArrival with rxFifo := os }) ⟨trivial, trivial⟩
    .hardware, hp⟩

theorem reader_strands_none_example :
    ∃ c d, Reach Step (fun c l => Documented c l ∧ OneWaiting c l) exampleDevice.boot c ∧
      Announces c ∧ (handler documentedReader zeroFrame).exec c = .ok ((), d) ∧
      Delivers zeroFrame c d := by
  obtain ⟨c, hc, hp⟩ := reach_arrival [fun _ => 0]
    (fun c => c.ctx.powered && decide (Announces c) && decide (c.rxFifo.length = 1))
    (by decide +kernel)
  simp only [Bool.and_eq_true, decide_eq_true_eq] at hp
  obtain ⟨⟨hpow, ha⟩, hlen⟩ := hp
  obtain ⟨d, hd, hiff⟩ := reader_strands_none exampleDevice zeroFrame hc hpow
    documentedReader_readsOnce
  exact ⟨c, d, hc, ha, hd, hiff.mpr fun _ _ => hlen.le⟩

/-- Of two frames that wait at one run of the handler the second stays in the ring. -/
theorem frame_stranded_by_reader :
    ∃ c d, Reach Step Documented exampleDevice.boot c ∧ c.ctx.powered = true ∧
      c.rxFifo.length = 2 ∧ ReadsOnce documentedReader ∧
      (handler documentedReader zeroFrame).exec c = .ok ((), d) ∧ d.queue.length = 1 ∧
      ¬Delivers zeroFrame c d := by
  obtain ⟨c, hc, hp⟩ := reach_arrival [fun _ => 0, fun _ => 0]
    (fun c => c.ctx.powered && decide (c.rxFifo.length = 2) &&
      (handler documentedReader zeroFrame).ends c fun _ d => decide (d.queue.length = 1))
    (by decide +kernel)
  rw [Bool.and_eq_true, Bool.and_eq_true, decide_eq_true_eq, Prog.ends_iff] at hp
  obtain ⟨⟨hpow, hlen⟩, _, d, hd, hq⟩ := hp
  have hone := of_decide_eq_true hq
  refine ⟨c, d, hc.mono fun _ _ h => h.1, hpow, hlen, documentedReader_readsOnce, hd, hone, ?_⟩
  intro hdel
  rw [hdel.ring] at hone
  cases hone

end CanfdDriver
