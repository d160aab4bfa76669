import CanfdDriver.Hal.TxSide

/-! `nora_canfd_tx_start` while the handler preempts it between its actions, and
the hardware works on. -/

namespace CanfdDriver

open Lib NoraCanfd

namespace NoraCanfd

/-- A run of the callback, with the calls of the HAL that it makes and what they return. -/
inductive CallbackRun : Chan → List (HalCall × Status) → Chan → Prop
  | done {c : Chan} : CallbackRun c [] c
  | call {c d e : Chan} {call : HalCall} {st : Status} {calls : List (HalCall × Status)} :
      call.run.Runs Hardware c st d → CallbackRun d calls e → CallbackRun c ((call, st) :: calls) e
  /-- Anything else that it does switches nothing. -/
  | other {c d e : Chan} {calls : List (HalCall × Status)} :
      SameSwitches c d → CallbackRun d calls e → CallbackRun c calls e

inductive Called : Option Report → Chan → List (HalCall × Status) → Chan → Prop
  | none {c d : Chan} : SameSwitches c d → Called none c [] d
  | some {r : Report} {c d : Chan} {calls : List (HalCall × Status)} :
      CallbackRun c calls d → Called (some r) c calls d

def completes (x : Option (BitVec 32 × Bool)) : Bool := x.elim false Prod.snd

def LineEnabled (c : Chan) : Prop :=
  c.irq.rx.enable = true ∨ c.irq.gen.enable = true ∨ c.irq.tx.enable = true

instance (c : Chan) : Decidable (LineEnabled c) := inferInstanceAs (Decidable (_ ∨ _ ∨ _))

inductive TxLabel : Type
  | own
  | hardware
  | handler (txDone : Bool) (calls : List (HalCall × Status))

/-- What is left of `nora_canfd_tx_start` proceeds by one action, or is preempted. -/
inductive TxStep : M Status × Chan → TxLabel → M Status × Chan → Prop
  | own {u : Chan → Chan} {n : Chan → M Status} {c : Chan} : TxStep (.act u n, c) .own (n c, u c)
  | hardware {p : M Status} {c d : Chan} : Hardware c d → TxStep (p, c) .hardware (p, d)
  | handler {p : M Status} {c s t e d : Chan} {x : Option (BitVec 32 × Bool)} {r : Option Report}
      {calls : List (HalCall × Status)} : LineEnabled c → TxifShown c →
      irqDecide.Runs Hardware c x s → (irqReport x).Runs Hardware s r t → Called r t calls e →
      irqLineClear.Runs Hardware e () d → TxStep (p, c) (.handler (completes x) calls) (p, d)

variable {c d : Chan} {p p' : M Status} {l : TxLabel}

theorem TxStep.of_irqHandler {callback : EventCallback → BitVec 32 → Option UserData → M Unit}
    (hcb : ∀ f events ud s t, (callback f events ud).Runs Hardware s () t →
      ∃ calls, CallbackRun s calls t)
    (hline : LineEnabled c) (hshown : TxifShown c)
    (h : (irqHandler callback).Runs Hardware c () d) :
    ∃ txDone calls, TxStep (p, c) (.handler txDone calls) (p, d) := by
  rw [irqHandler_eq, irqEvents, Prog.bind_assoc, Prog.runs_bind] at h
  obtain ⟨x, s, hdecide, h⟩ := h
  obtain ⟨r, t, hreport, h⟩ := Prog.runs_bind.mp h
  obtain ⟨_, e, hcall, hclear⟩ := Prog.runs_bind.mp h
  have hcalled : ∃ calls, Called r t calls e := by
    cases r with
    | none =>
      have hsame : (pure () : M Unit).Moves SameSwitches := .pure ()
      exact ⟨[], .none (hsame.runs (fun _ _ h => h.switches) hcall)⟩
    | some r =>
      obtain ⟨calls, hcalls⟩ := hcb _ _ _ _ _ hcall
      exact ⟨calls, .some hcalls⟩
  obtain ⟨calls, hcalled⟩ := hcalled
  exact ⟨_, calls, .handler hline hshown hdecide hreport hcalled hclear⟩

theorem CallbackRun.side {calls : List (HalCall × Status)} (h : CallbackRun c calls d) :
    txSide d = calls.foldl TxSide.after (txSide c) := by
  induction h with
  | done => rfl
  | call hrun _ ih => rw [ih, call_runs hrun, List.foldl_cons]
  | other hsame _ ih => rw [ih, hsame.tx]

theorem Called.side {r : Option Report} {calls : List (HalCall × Status)} (h : Called r c calls d) :
    txSide d = calls.foldl TxSide.after (txSide c) := by
  cases h with
  | none hsame => exact hsame.tx
  | some h => exact h.side

theorem irqDecide_switches : irqDecide.Moves SameSwitches := by
  refine .bind getRegs_reads fun _ => .ite (.pure _) (.bind .get fun _ => .bind (.ite ?_ (.pure _)) ?_)
  · exact regClear_switches _ (by decide) (by decide) (by decide) (by decide)
  · exact fun _ => .bind .get fun _ => .pure _

theorem irqReport_maps (x : Option (BitVec 32 × Bool)) :
    (irqReport x).Maps txSide (if completes x then fun _ => .off else id) := by
  cases x with
  | none => exact .pure none
  | some x =>
    obtain ⟨intf, txDone⟩ := x
    have hpart : Prog.Maps txSide (if txDone then fun _ => .off else id)
        (if txDone then txDisarm else pure () : M Unit) := by
      cases txDone with
      | true => exact txDisarm_maps
      | false => exact .pure ()
    refine (Prog.Maps.bind hpart fun _ => .of_moves ?_ :)
    refine .bind (clearOthers_tx (by decide)) fun _ => .bind .get fun c => .bind .get fun c => ?_
    cases c.isr.cb with
    | none => exact .pure _
    | some f => exact .ite (.pure _) (.pure _)

theorem TxStep.handler_side {txDone : Bool} {calls : List (HalCall × Status)}
    (h : TxStep (p, c) (.handler txDone calls) (p', d)) :
    p' = p ∧ txSide d = calls.foldl TxSide.after (if txDone then .off else txSide c) := by
  cases h with
  | @handler _ _ s t e _ x _ _ _ _ hdecide hreport hcalled hclear =>
    have hs : txSide s = txSide c := runs_tx (irqDecide_switches.mono fun _ _ h => h.tx) hdecide
    have ht := runs_maps (irqReport_maps x) hreport
    refine ⟨rfl, ?_⟩
    rw [runs_tx (irqLineClear_switches.mono fun _ _ h => h.tx) hclear, hcalled.side, ht, hs]
    cases completes x <;> rfl

/-! ### What is left of the arming -/

/-- What is left of `nora_canfd_tx_start` between its store to `g_tx_busy` and its last one, which
enables the line; and whether `TXQEIE` and `TXIE` are stored already. -/
inductive Arming : Bool → Bool → M Status → Prop
  | busy : Arming false false txArm
  | txqeie : Arming true false do
      regSet .int intTxie
      irqTxLineEnable
      return .ok
  | txie : Arming true true do
      irqTxLineEnable
      return .ok
  | flag : Arming true true do
      let c ← .get
      onTx (setLinePriority · c.isr.irqPriority)
      onTx (setLineEnable · true)
      return .ok
  | read (priority : BitVec 8) : Arming true true do
      onTx (setLinePriority · priority)
      onTx (setLineEnable · true)
      return .ok
  | priority : Arming true true do
      onTx (setLineEnable · true)
      return .ok

variable {q i : Bool}

structure TxSide.Stands (q i : Bool) (v : TxSide) : Prop where
  busy : v.busy = true
  txqeie : q = true → v.txqeie = true
  txie : i = true → v.txie = true

theorem Arming.own {u : Chan → Chan} {n : Chan → M Status} (h : Arming q i (.act u n))
    (hc : (txSide c).Stands q i) :
    (∃ q' i', Arming q' i' (n c) ∧ (txSide (u c)).Stands q' i') ∨
      n c = .ret .ok ∧ txSide (u c) = .on := by
  generalize hp : Prog.act u n = p at h
  cases h with
  | busy =>
    cases hp
    refine .inl ⟨_, _, .txqeie, hc.busy, fun _ => ?_, nofun⟩
    rw [setTxqcon_tx, set_shows (by decide)]
  | txqeie =>
    cases hp
    refine .inl ⟨_, _, .txie, hc.busy, fun _ => hc.txqeie rfl, fun _ => ?_⟩
    rw [setInt_tx, set_shows (by decide)]
  | txie =>
    cases hp
    exact .inl ⟨_, _, .flag, hc.busy, hc.txqeie, hc.txie⟩
  | flag =>
    cases hp
    exact .inl ⟨_, _, .read _, hc⟩
  | read =>
    cases hp
    exact .inl ⟨_, _, .priority, hc.busy, hc.txqeie, hc.txie⟩
  | priority =>
    cases hp
    exact .inr ⟨rfl, TxSide.ext hc.busy rfl (hc.txie rfl) (hc.txqeie rfl)⟩

theorem Arming.not_ret {st : Status} : ¬Arming q i (.ret st) := by
  generalize hp : Prog.ret st = p
  intro h
  cases h <;> cases hp

theorem Arming.maps (h : Arming q i p) : ∃ f, p.Maps txSide f ∧
    ∀ v, (f v).line = true ∧ (f v).busy = v.busy ∧ (q = true → (f v).txqeie = v.txqeie) := by
  have hret (a : Status) : Prog.Maps txSide id (pure a : M Status) := .pure a
  have hpriority := Prog.Maps.bind (setTxLine_maps true) fun _ => hret .ok
  have hread (priority : BitVec 8) :=
    Prog.Maps.bind (.of_moves (txLinePriority_tx priority)) fun _ => hpriority
  cases h with
  | busy => exact ⟨_, txArm_maps, fun _ => ⟨rfl, rfl, nofun⟩⟩
  | txqeie =>
    have h := Prog.Maps.bind setTxie_maps fun _ => .bind irqTxLineEnable_maps fun _ => hret .ok
    exact ⟨_, h, fun _ => ⟨rfl, rfl, fun _ => rfl⟩⟩
  | txie =>
    have h := Prog.Maps.bind irqTxLineEnable_maps fun _ => hret .ok
    exact ⟨_, h, fun _ => ⟨rfl, rfl, fun _ => rfl⟩⟩
  | flag => exact ⟨_, .get_bind fun c => hread _, fun _ => ⟨rfl, rfl, fun _ => rfl⟩⟩
  | read priority => exact ⟨_, hread priority, fun _ => ⟨rfl, rfl, fun _ => rfl⟩⟩
  | priority => exact ⟨_, hpriority, fun _ => ⟨rfl, rfl, fun _ => rfl⟩⟩

theorem Arming.finishes (h : Arming q i p) (c : Chan) :
    ∃ e, p.exec c = .ok (.ok, e) ∧ (txSide e).line = true ∧ (txSide e).busy = (txSide c).busy ∧
      (q = true → (txSide e).txqeie = (txSide c).txqeie) := by
  obtain ⟨f, hf, hv⟩ := h.maps
  have hexec : ∃ e, p.exec c = .ok (.ok, e) := by cases h <;> exact ⟨_, rfl⟩
  obtain ⟨e, he⟩ := hexec
  have hside : txSide e = f (txSide c) := runs_maps hf (.of_exec he)
  refine ⟨e, he, ?_⟩
  rw [hside]
  exact hv (txSide c)

inductive Armed : Type
  | whole | part | none
  deriving DecidableEq

def Armed.damage : Armed → Armed
  | .none => .none
  | _ => .part

/-- What a call leaves of an arming in which `TXQEIE` is stored, or not yet. -/
def Armed.after (q : Bool) (m : Armed) (k : HalCall × Status) : Armed :=
  if startsTx k then .whole
  else if endsTx k then .none
  else if forgetsTx k || q && rewritesTxqcon k then m.damage
  else m

def Armed.handled (q : Bool) (m : Armed) (txDone : Bool) (calls : List (HalCall × Status)) : Armed :=
  calls.foldl (Armed.after q) (if txDone then .none else m)

theorem Armed.damage_ne_whole (m : Armed) : m.damage ≠ .whole := by cases m <;> decide

theorem stands_after {m : Armed} {v : TxSide} (h : m = .whole → v.Stands q i)
    (k : HalCall × Status) : m.after q k = .whole → (v.after k).Stands q i := by
  rw [Armed.after, TxSide.after]
  split
  next => exact fun _ => ⟨rfl, fun _ => rfl, fun _ => rfl⟩
  split
  next => nofun
  cases hforget : forgetsTx k with
  | true => exact fun hm => absurd hm m.damage_ne_whole
  | false =>
    cases hrewrite : rewritesTxqcon k with
    | false => simpa [hforget, hrewrite] using h
    | true =>
      cases q with
      | true => exact fun hm => absurd hm m.damage_ne_whole
      | false => exact fun hm => ⟨(h hm).busy, nofun, (h hm).txie⟩

theorem falls_after {m : Armed} {v : TxSide}
    (h : m ≠ .whole → ¬(v.busy = true ∧ (q = true → v.txqeie = true))) (k : HalCall × Status) :
    m.after q k ≠ .whole → ¬((v.after k).busy = true ∧ (q = true → (v.after k).txqeie = true)) := by
  rw [Armed.after, TxSide.after]
  split
  next => exact fun hm => absurd rfl hm
  split
  next => nofun
  cases hforget : forgetsTx k with
  | true => nofun
  | false =>
    cases hrewrite : rewritesTxqcon k with
    | false => simpa [hforget, hrewrite] using h
    | true =>
      cases q with
      | true => exact fun _ hv => Bool.false_ne_true (hv.2 rfl)
      | false => exact fun hm hv => h hm ⟨hv.1, nofun⟩

/-- Once the line is enabled: armed, or not at all, or for no transmission that can be reported. -/
def Armed.Shows : Armed → TxSide → Prop
  | .whole, v => v = .on
  | .none, v => v = .off
  | .part, v => v.line = true ∧ ¬(v.busy = true ∧ v.txqeie = true)

theorem Armed.Shows.after {m : Armed} {v : TxSide} (h : m.Shows v) (k : HalCall × Status) :
    (m.after true k).Shows (v.after k) := by
  rw [Armed.after, TxSide.after]
  split
  next => exact rfl
  split
  next => exact rfl
  cases hforget : forgetsTx k with
  | true =>
    cases m with
    | whole =>
      cases h
      exact ⟨rfl, nofun⟩
    | part => exact ⟨h.1, nofun⟩
    | none =>
      cases h
      rfl
  | false =>
    cases hrewrite : rewritesTxqcon k with
    | false => exact h
    | true =>
      cases m with
      | whole =>
        cases h
        exact ⟨rfl, nofun⟩
      | part => exact ⟨h.1, nofun⟩
      | none =>
        cases h
        rfl

theorem handled_keeps {R : Armed → TxSide → Prop}
    (hR : ∀ m v k, R m v → R (m.after q k) (v.after k)) {txDone : Bool} {m : Armed} {v : TxSide}
    (h : R (if txDone then .none else m) (if txDone then .off else v))
    (calls : List (HalCall × Status)) :
    R (Armed.handled q m txDone calls) (calls.foldl TxSide.after (if txDone then .off else v)) := by
  rw [Armed.handled]
  generalize (if txDone then Armed.none else m) = m' at h ⊢
  generalize (if txDone then TxSide.off else v) = v' at h ⊢
  induction calls generalizing m' v' with
  | nil => exact h
  | cons k calls ih => exact ih _ _ (hR _ _ k h)

/-! ### Runs that spare the arming -/

/-- A handler that preempts while the line is being armed, with the calls of its callback, leaves
what has been stored; one that preempts after that does not leave the line enabled for a part. -/
def Spared : M Status × Chan → TxLabel → Prop
  | (p, c), .handler txDone calls =>
    (∀ q i, Arming q i p → Armed.handled q .whole txDone calls = .whole) ∧
      (p = .ret .ok →
        Armed.handled true (if txIsBusy c then .whole else .none) txDone calls ≠ .part)
  | _, _ => True

/-- Where a `tx_start` is that was spared: before its store to `g_tx_busy`, on its way to enable the
line, or at its end. -/
inductive Stage : M Status × Chan → Prop
  | queueing {q : M Status} {c : Chan} : Stage (q >>= txStarted, c)
  | arming {q i : Bool} {p : M Status} {c : Chan} : Arming q i p → (txSide c).Stands q i → Stage (p, c)
  | done {c : Chan} : txSide c = .on ∨ txSide c = .off → Stage (.ret .ok, c)

theorem Stage.of_ret (h : Stage (.ret .ok, c)) : txSide c = .on ∨ txSide c = .off := by
  generalize hx : (Prog.ret Status.ok, c) = x at h
  cases h with
  | @queueing q =>
    obtain ⟨hp, -⟩ := Prod.mk.inj hx
    cases q with
    | ret st => cases st <;> cases hp
    | fail e => cases hp
    | act u n => cases hp
  | arming harm =>
    cases hx
    exact absurd harm Arming.not_ret
  | done hc =>
    cases hx
    exact hc

theorem Stage.congr (h : Stage (p, c)) (hd : SameTx c d) : Stage (p, d) := by
  generalize hx : (p, c) = x at h
  cases h with
  | queueing =>
    cases hx
    exact .queueing
  | arming harm hc =>
    cases hx
    exact .arming harm (hd ▸ hc)
  | done hc =>
    cases hx
    exact .done (hd ▸ hc)

theorem shows_of_done (hc : txSide c = .on ∨ txSide c = .off) (txDone : Bool) :
    Armed.Shows (if txDone then .none else if txIsBusy c then .whole else .none)
      (if txDone then .off else txSide c) := by
  cases txDone with
  | true => rfl
  | false =>
    obtain hc | hc := hc
    · have hb : txIsBusy c = true := congrArg TxSide.busy hc
      rw [hb]
      exact hc
    · have hb : txIsBusy c = false := congrArg TxSide.busy hc
      rw [hb]
      exact hc

theorem Stage.handled {txDone : Bool} {calls : List (HalCall × Status)} (h : Stage (p, c))
    (hl : Spared (p, c) (.handler txDone calls))
    (hd : txSide d = calls.foldl TxSide.after (if txDone then .off else txSide c)) : Stage (p, d) := by
  generalize hx : (p, c) = x at h
  cases h with
  | queueing =>
    cases hx
    exact .queueing
  | @arming q i _ _ harm hc =>
    cases hx
    refine .arming harm ?_
    rw [hd]
    refine handled_keeps (R := fun m v => m = .whole → v.Stands q i) (fun m v k h => stands_after h k)
      ?_ calls (hl.1 q i harm)
    cases txDone with
    | true => nofun
    | false => exact fun _ => hc
  | done hc =>
    cases hx
    have hshows := handled_keeps (R := Armed.Shows) (fun _ _ k h => h.after k)
      (shows_of_done hc txDone) calls
    rw [← hd] at hshows
    have hpart := hl.2 rfl
    cases hm : Armed.handled true (if txIsBusy c then .whole else .none) txDone calls with
    | whole =>
      rw [hm] at hshows
      exact .done (.inl hshows)
    | none =>
      rw [hm] at hshows
      exact .done (.inr hshows)
    | part => exact absurd hm hpart

theorem Stage.own {u : Chan → Chan} {n : Chan → M Status} (h : Stage (.act u n, c)) :
    Stage (n c, u c) := by
  generalize hx : (Prog.act u n, c) = x at h
  cases h with
  | @queueing q =>
    obtain ⟨hp, rfl⟩ := Prod.mk.inj hx
    cases q with
    | ret st =>
      cases st with
      | ok =>
        cases hp
        exact .arming .busy ⟨rfl, nofun, nofun⟩
      | _ => cases hp
    | fail e => cases hp
    | act u' n' =>
      cases hp
      exact .queueing
  | arming harm hc =>
    cases hx
    -- The next store of the arming, or the last one, after which everything is on.
    obtain ⟨q', i', harm', hc'⟩ | ⟨hret, hon⟩ := harm.own hc
    · exact .arming harm' hc'
    · rw [hret]
      exact .done (.inl hon)
  | done => cases hx

theorem Stage.step (h : Stage (p, c)) (hl : Spared (p, c) l) (hst : TxStep (p, c) l (p', d)) :
    Stage (p', d) := by
  cases l with
  | own =>
    cases hst
    exact h.own
  | hardware =>
    cases hst with
    | hardware hw => exact h.congr hw.tx
  | handler txDone calls =>
    obtain ⟨rfl, hd⟩ := hst.handler_side
    exact h.handled hl hd

theorem reach_stage {frame : Option Frame} {room : Poll} {y : M Status × Chan}
    (h : Reach TxStep Spared (txStart frame room, c) y) : Stage y := by
  refine h.invariant ?_ fun _ _ _ hs hl hst => hs.step hl hst
  rw [txStart_eq]
  exact .queueing

/-- The line is enabled only for a transmission that is outstanding, and such a one can still be
reported. -/
structure TxSafe (c : Chan) : Prop where
  busy : c.irq.tx.enable = true → txIsBusy c = true
  armed : txIsBusy c = true → c.regs .txqcon &&& txqconTxqeie ≠ 0 ∧ c.regs .int &&& intTxie ≠ 0

theorem txSafe_iff : TxSafe c ↔ (c.irq.tx.enable = true → txIsBusy c = true) ∧
    (txIsBusy c = true → c.regs .txqcon &&& txqconTxqeie ≠ 0 ∧ c.regs .int &&& intTxie ≠ 0) :=
  ⟨fun h => ⟨h.busy, h.armed⟩, fun h => ⟨h.1, h.2⟩⟩

instance (c : Chan) : Decidable (TxSafe c) := decidable_of_iff _ txSafe_iff.symm

theorem txSafe_of_side (h : txSide c = .on ∨ txSide c = .off) : TxSafe c := by
  have hbusy {b : Bool} (hb : txIsBusy c = true) (h : (txSide c).busy = b) : b = true := h.symm.trans hb
  obtain h | h := h
  · exact ⟨fun _ => congrArg TxSide.busy h, fun _ =>
      ⟨of_decide_eq_true (congrArg TxSide.txqeie h), of_decide_eq_true (congrArg TxSide.txie h)⟩⟩
  · refine ⟨fun hline => ?_, fun hb => ?_⟩
    · exact absurd ((congrArg TxSide.line h).symm.trans hline) (by decide)
    · exact absurd ((congrArg TxSide.busy h).symm.trans hb) (by decide)

theorem not_txSafe (hline : (txSide c).line = true)
    (h : ¬((txSide c).busy = true ∧ (txSide c).txqeie = true)) : ¬TxSafe c := by
  intro hsafe
  have hb := hsafe.busy hline
  exact h ⟨hb, decide_eq_true (hsafe.armed hb).1⟩

theorem reach_own_bind {α : Type} {q : M α} {k : α → M Status} {a : α} (h : q.exec c = .ok (a, d)) :
    Reach TxStep (fun _ l => l = .own) (q >>= k, c) (k a, d) := by
  induction q generalizing c with
  | ret b =>
    cases h
    exact .refl
  | fail e => cases h
  | act u n ih => exact .head ⟨.own, rfl, .own⟩ (ih c h)

theorem reach_own {a : Status} (h : p.exec c = .ok (a, d)) :
    Reach TxStep (fun _ l => l = .own) (p, c) (.ret a, d) := by
  have hrun : Reach TxStep (fun _ l => l = .own) (p >>= pure, c) (pure a, d) := reach_own_bind h
  rwa [Prog.bind_pure] at hrun

theorem Stage.strands (h : Stage (p, c)) (hst : TxStep (p, c) l (p', d)) (hl : ¬Spared (p, c) l) :
    ∃ e, Reach TxStep (fun _ l => l = .own) (p', d) (.ret .ok, e) ∧ ¬TxSafe e := by
  cases l with
  | own => exact absurd trivial hl
  | hardware => exact absurd trivial hl
  | handler txDone calls =>
    obtain ⟨rfl, hd⟩ := hst.handler_side
    -- The handler undid a store of the arming, or it left the line enabled for a part at the end.
    obtain harm | hret := Classical.not_and_iff_not_or_not.mp hl
    · obtain ⟨q, harm⟩ := Classical.not_forall.mp harm
      obtain ⟨i, harm⟩ := Classical.not_forall.mp harm
      obtain ⟨harm, hm⟩ := Classical.not_imp.mp harm
      obtain ⟨e, hexec, hline, hbusy, htxqeie⟩ := harm.finishes d
      refine ⟨e, reach_own hexec, not_txSafe hline fun he => ?_⟩
      have hwhole : (if txDone then Armed.none else .whole) ≠ .whole →
          ¬((if txDone then .off else txSide c).busy = true ∧
            (q = true → (if txDone then .off else txSide c).txqeie = true)) := by
        cases txDone with
        | true => nofun
        | false => exact fun h => absurd rfl h
      have hfalls := handled_keeps (q := q)
        (R := fun m v => m ≠ .whole → ¬(v.busy = true ∧ (q = true → v.txqeie = true)))
        (fun m v k h => falls_after h k) hwhole calls hm
      rw [← hd] at hfalls
      exact hfalls ⟨hbusy ▸ he.1, fun hq => htxqeie hq ▸ he.2⟩
    · obtain ⟨rfl, hpart⟩ := Classical.not_imp.mp hret
      have hshows := handled_keeps (R := Armed.Shows) (fun _ _ k h => h.after k)
        (shows_of_done h.of_ret txDone) calls
      rw [← hd, not_not.mp hpart] at hshows
      exact ⟨d, .refl, not_txSafe hshows.1 hshows.2⟩

end NoraCanfd

end CanfdDriver
