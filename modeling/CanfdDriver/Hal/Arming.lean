import CanfdDriver.Hal.Switches

namespace CanfdDriver

open Lib NoraCanfd

namespace NoraCanfd

variable {c d : Chan} {l : HalLabel} {st : Status}

def Enables : HalLabel → Prop
  | .call (.isrEnable _) st => st = .ok
  | _ => False

structure Disarmed (c : Chan) : Prop where
  rxLine : c.irq.rx.enable = false
  txLine : c.irq.tx.enable = false
  genLine : c.irq.gen.enable = false
  int : c.regs .int &&& intEnables = 0
  fifocon1 : c.regs .fifocon1 &&& (fifoconTfnrfnie ||| fifoconRxovie) = 0
  txqcon : c.regs .txqcon &&& txqconTxqeie = 0
  txBusy : txIsBusy c = false
  txStart : ∀ frame room, ∃ st, st ≠ .ok ∧ (txStart frame room).exec c = .ok (st, c)

structure Switches.Dark (v : Switches) : Prop where
  isrEnabled : v.isrEnabled = false
  txBusy : v.txBusy = false
  rxLine : v.rxLine = false
  txLine : v.txLine = false
  genLine : v.genLine = false
  txie : v.txie = false
  int : v.int = 0
  fifocon1 : v.fifocon1 = 0
  txqeie : v.txqeie = false

theorem Reset.dark (h : Reset c) : c.switches.Dark where
  isrEnabled := h.isrEnabled
  txBusy := h.txBusy
  rxLine := h.rxLine
  txLine := h.txLine
  genLine := h.genLine
  txie := by
    have hsub : intEnables &&& intTxie = intTxie := by decide
    refine decide_eq_false (not_not.mpr ?_)
    rw [← hsub, ← BitVec.and_assoc, h.int]
    exact BitVec.zero_and
  int := by
    have hsub : intEnables &&& intOthers = intOthers := by decide
    change c.regs .int &&& intOthers = 0
    rw [← hsub, ← BitVec.and_assoc, h.int]
    exact BitVec.zero_and
  fifocon1 := h.fifocon1
  txqeie := decide_eq_false (not_not.mpr h.txqcon)

namespace Switches.Dark

theorem disable (v : Switches) : (v.act .disable).Dark := ⟨rfl, rfl, rfl, rfl, rfl, rfl, rfl, rfl, rfl⟩

theorem acts {a : Action} (h : c.switches.Dark) (ha : Acts c l a) (hne : a ≠ .enable) :
    (c.switches.act a).Dark := by
  cases ha with
  | stay => exact h
  | unset | off | down => exact ⟨h.1, h.2, h.3, h.4, h.5, h.6, h.7, h.8, h.9⟩
  | strip | up => exact ⟨h.1, h.2, h.3, h.4, h.5, h.6, h.7, rfl, rfl⟩
  | enable => exact absurd rfl hne
  | disable => exact .disable _
  | arm he => exact absurd (h.isrEnabled.symm.trans he) (by decide)
  | abort | done => exact ⟨h.1, rfl, h.3, rfl, h.5, rfl, h.7, h.8, rfl⟩

theorem run {allowed : Chan → HalLabel → Prop} {start : Chan} (h0 : start.switches.Dark)
    (hallowed : ∀ s l, allowed s l → ¬Enables l) (h : HalReach allowed start c) :
    c.switches.Dark := by
  refine h.invariant (I := fun c => c.switches.Dark) h0 fun s l t hs ha hst => ?_
  obtain ⟨a, hact, ht⟩ := hst.acts
  rw [ht]
  refine hs.acts hact fun he => hallowed s l ha ?_
  subst he
  cases hact
  rfl

theorem disarmed (h : c.switches.Dark) : Disarmed c where
  rxLine := h.rxLine
  txLine := h.txLine
  genLine := h.genLine
  int := by
    have htx : c.regs .int &&& intTxie = 0 := not_not.mp (of_decide_eq_false h.txie)
    have hrest : c.regs .int &&& intOthers = 0 := h.int
    have hall : intEnables = intTxie ||| intOthers := by decide
    have hor : c.regs .int &&& (intTxie ||| intOthers) =
        (c.regs .int &&& intTxie) ||| (c.regs .int &&& intOthers) := by
      ext i hi
      simp only [BitVec.getElem_and, BitVec.getElem_or, Bool.and_or_distrib_left]
    rw [hall, hor, htx, hrest]
    rfl
  fifocon1 := h.fifocon1
  txqcon := not_not.mp (of_decide_eq_false h.txqeie)
  txBusy := h.txBusy
  txStart frame room := by
    cases hp : c.present with
    | false => exact ⟨_, by decide, exec_txStart_absent hp frame room⟩
    | true => exact ⟨_, by decide, exec_txStart_disabled hp h.isrEnabled frame room⟩

end Switches.Dark

theorem absent_dark {start : Chan} (h0 : Reset start) (h : HalReach (fun _ _ => True) start c)
    (hp : c.present = false) : c.switches.Dark := by
  refine h.invariant (I := fun c => c.present = false → c.switches.Dark) (fun _ => h0.dark) ?_ hp
  intro s l t hs _ hst hpt
  obtain ⟨a, hact, ht⟩ := hst.acts
  have hps : s.present = false := by
    have hpres := congrArg Switches.present ht
    cases a <;> exact hpres.symm.trans hpt
  rw [ht]
  refine (hs hps).acts hact fun he => ?_
  subst he
  cases hact with
  | enable hcan => exact absurd (hps.symm.trans hcan.present) (by decide)

/-- While the event layer is not enabled, nothing is armed: neither after reset nor after any
`isr_disable`, whatever is called until `isr_enable` succeeds. -/
theorem disable_stands {start : Chan} (h0 : Reset start) :
    (∀ c, HalReach (fun _ l => ¬Enables l) start c → Disarmed c) ∧
      ∀ c st d e, HalReach (fun _ _ => True) start c → isrDisable.exec c = .ok (st, d) →
        HalReach (fun _ l => ¬Enables l) d e → Disarmed e := by
  refine ⟨fun c h => (h0.dark.run (fun _ _ => id) h).disarmed, ?_⟩
  intro c st d e hc hdis he
  refine (Switches.Dark.run ?_ (fun _ _ => id) he).disarmed
  cases hp : c.present with
  | false =>
    rw [isrDisable_absent hp] at hdis
    cases hdis
    exact absent_dark h0 hc hp
  | true =>
    rw [exec_isrDisable hp] at hdis
    cases hdis
    rw [Chan.switches_isrOff]
    exact .disable _

theorem disable_stands_example :
    ∃ c d, HalReach (fun _ _ => True) resetChan c ∧ c.irq.tx.enable = true ∧
      isrDisable.exec c = .ok (.ok, d) ∧ Disarmed d := by
  have hrun : ∃ c, HalReach (fun _ _ => True) resetChan c ∧ (c.irq.tx.enable && c.present) = true :=
    Reach.of_play (fireCall_step (fun _ _ => true) fun _ _ _ _ => trivial) sendAsync _
      (by decide +kernel)
  obtain ⟨c, hc, hp⟩ := hrun
  rw [Bool.and_eq_true] at hp
  have hdis : isrDisable.exec c = .ok (.ok, c.isrOff) := exec_isrDisable hp.2
  exact ⟨c, _, hc, hp.1, hdis, (disable_stands resetChan_reset).2 c _ _ _ hc hdis .refl⟩

/-- The busy flag, the CPU line and the two enables of the transmit side agree. -/
structure TxAgrees (c : Chan) : Prop where
  line : txIsBusy c = true ↔ c.irq.tx.enable = true
  txqeie : txIsBusy c = true ↔ c.regs .txqcon &&& txqconTxqeie ≠ 0
  txie : txIsBusy c = true ↔ c.regs .int &&& intTxie ≠ 0

/-- A handler run that finds the transmit queue empty reports it and ends the transmission. -/
def Completes (c : Chan) : Prop :=
  txIsBusy c = true → TxDone c → ∀ r d, irqEvents.exec c = .ok (r, d) →
    txIsBusy d = false ∧ TxAgrees d ∧
      ∀ f, c.isr.cb = some f → ∃ rep, r = some rep ∧ rep.callback = f ∧
        rep.events &&& eventTxComplete ≠ 0

/-- The event layer is not enabled again, and the control registers are not rewritten, while a
`tx_start` is outstanding. -/
def Undisturbed (c : Chan) : HalLabel → Prop
  | .call (.isrEnable priority) _ => CanEnable c priority → txIsBusy c = false
  | .call (.init (some cfg) toConfig _) _ => Configures c cfg toConfig → txIsBusy c = false
  | _ => True

def Switches.TxAgrees (v : Switches) : Prop :=
  v.txLine = v.txBusy ∧ v.txqeie = v.txBusy ∧ v.txie = v.txBusy

theorem txAgrees_iff : TxAgrees c ↔ c.switches.TxAgrees := by
  have hiff (b : Bool) (p : Prop) [Decidable p] : (b = true ↔ p) ↔ decide p = b := by
    cases b <;> simp
  have hbool (a b : Bool) : (a = true ↔ b = true) ↔ b = a := by
    cases a <;> cases b <;> decide
  constructor
  · exact fun h => ⟨(hbool _ _).mp h.line, (hiff _ _).mp h.txqeie, (hiff _ _).mp h.txie⟩
  · exact fun h => ⟨(hbool _ _).mpr h.1, (hiff _ _).mpr h.2.1, (hiff _ _).mpr h.2.2⟩

theorem Switches.TxAgrees.acts {a : Action} (h : c.switches.TxAgrees) (ha : Acts c l a)
    (hl : Undisturbed c l) : (c.switches.act a).TxAgrees := by
  have hidle (hb : txIsBusy c = false) : c.switches.txLine = false ∧ c.switches.txqeie = false ∧
      c.switches.txie = false := ⟨h.1.trans hb, h.2.1.trans hb, h.2.2.trans hb⟩
  cases ha with
  | stay | unset | off | down => exact h
  | strip hconf | up hconf =>
    have hb := hl hconf
    exact ⟨h.1, hb.symm, h.2.2⟩
  | enable hcan => exact hidle (hl hcan)
  | disable | arm | abort | done => exact ⟨rfl, rfl, rfl⟩

theorem isrEnable_disagrees {priority : BitVec 8} (h : TxAgrees c) (hcan : CanEnable c priority)
    (hb : txIsBusy c = true) (hrun : (isrEnable priority).exec c = .ok (st, d)) : ¬TxAgrees d := by
  rw [exec_isrEnable priority hcan.present, if_neg hcan.priority, if_neg hcan.mode] at hrun
  cases hrun
  intro hd
  have hline : txIsBusy c = true ↔ false = true := h.line.trans hd.line.symm
  exact Bool.false_ne_true (hline.mp hb)

theorem Configures.not_refused {cfg : Config} {toConfig : Poll} (h : Configures c cfg toConfig) :
    ¬InitRefused c (some cfg) st := by
  obtain ⟨t, ht⟩ := h.timing
  intro hr
  cases hr with
  | argument hcfg => exact hcfg h.accepted
  | absent _ hp => exact absurd (h.present.symm.trans hp) (by decide)
  | timing _ _ hnone => cases ht.symm.trans hnone

theorem init_disagrees {cfg : Config} {toConfig toMode : Poll} (hconf : Configures c cfg toConfig)
    (hb : txIsBusy c = true) (hrun : (init (some cfg) toConfig toMode).exec c = .ok (st, d)) :
    ¬TxAgrees d := by
  rw [txAgrees_iff]
  intro hd
  have hgranted : requestOutcome cfg.node opmodeConfig toConfig = .ok .ok := hconf.granted
  rcases init_cases hrun with ⟨hr, -⟩ | ⟨cfg', t, hcfg, -, -, -, hup⟩
  · exact hconf.not_refused hr
  · cases hcfg
    cases hup with
    | configTimeout ht => cases hgranted.symm.trans ht
    | modeTimeout =>
      rw [Chan.switches_strip] at hd
      exact Bool.false_ne_true (hd.2.1.trans hb)
    | live =>
      rw [Chan.switches_live] at hd
      exact Bool.false_ne_true (hd.2.1.trans hb)

/-- As long as no step disturbs an outstanding transmission, the transmit side agrees and what
is outstanding can be completed; a step that disturbs one breaks the agreement. -/
theorem tx_arming_agrees {start : Chan} (h0 : Reset start) :
    (∀ c, HalReach Undisturbed start c → TxAgrees c ∧ Completes c) ∧
      ∀ c l d, TxAgrees c → HalStep c l d → ¬Undisturbed c l → ¬TxAgrees d := by
  have hagrees : ∀ c, HalReach Undisturbed start c → c.switches.TxAgrees := by
    intro c h
    refine h.invariant (I := fun c => c.switches.TxAgrees) ?_ fun s l t hs ha hst => ?_
    · have hdark := h0.dark
      exact ⟨hdark.txLine.trans hdark.txBusy.symm, hdark.txqeie.trans hdark.txBusy.symm,
        hdark.txie.trans hdark.txBusy.symm⟩
    · obtain ⟨a, hact, ht⟩ := hst.acts
      rw [ht]
      exact hs.acts hact ha
  constructor
  · intro c h
    refine ⟨txAgrees_iff.mpr (hagrees c h), fun hb hdone r d hrun => ?_⟩
    cases hp : c.present with
    | false =>
      have hdark := absent_dark h0 (h.mono fun _ _ _ => trivial) hp
      exact absurd (hdark.txBusy.symm.trans hb) (by decide)
    | true =>
      have hserves := irqEvents_serves hp hrun
      have hd : d.switches = c.switches.act .disarm := by rw [hserves.switches, if_pos hdone]
      refine ⟨congrArg Switches.txBusy hd, ?_, hserves.reports hdone⟩
      rw [txAgrees_iff, hd]
      exact ⟨rfl, rfl, rfl⟩
  · intro c l d h hst hl
    cases hst with
    | @call call st _ hrun =>
      cases call with
      | isrEnable priority =>
        obtain ⟨hcan, hb⟩ := Classical.not_imp.mp hl
        exact isrEnable_disagrees h hcan (Bool.not_eq_false _ ▸ hb) hrun
      | init config toConfig toMode =>
        cases config with
        | none => exact absurd trivial hl
        | some cfg =>
          obtain ⟨hconf, hb⟩ := Classical.not_imp.mp hl
          exact init_disagrees hconf (Bool.not_eq_false _ ▸ hb) hrun
      | _ => exact absurd trivial hl
    | _ => exact absurd trivial hl

theorem tx_arming_agrees_example :
    ∃ c, HalReach Undisturbed resetChan c ∧ txIsBusy c = true ∧ c.irq.tx.enable = true := by
  have hok : ∀ (c : Chan) (call : HalCall) (st : Status),
      (match call with
        | .isrEnable _ | .init _ _ _ => !txIsBusy c
        | _ => true) = true → Undisturbed c (.call call st) := by
    intro c call st h
    cases call with
    | isrEnable => exact fun _ => by simpa using h
    | init config =>
      cases config with
      | none => trivial
      | some cfg => exact fun _ => by simpa using h
    | _ => trivial
  have hrun : ∃ c, HalReach Undisturbed resetChan c ∧ txIsBusy c = true :=
    Reach.of_play (fireCall_step _ hok) sendAsync _ (by decide +kernel)
  obtain ⟨c, hc, hb⟩ := hrun
  exact ⟨c, hc, hb, ((tx_arming_agrees resetChan_reset).1 c hc).1.line.mp hb⟩

/-- A second `isr_enable` clears the busy flag and leaves the transmit line armed. -/
theorem tx_line_armed_when_idle :
    ∃ start c, Reset start ∧ HalReach (fun _ _ => True) start c ∧ ¬TxAgrees c := by
  have hrun : ∃ c, HalReach (fun _ _ => True) resetChan c ∧ (c.irq.tx.enable && !txIsBusy c) = true :=
    Reach.of_play (fireCall_step (fun _ _ => true) fun _ _ _ _ => trivial)
      (sendAsync ++ [.isrEnable 4]) _ (by decide +kernel)
  obtain ⟨c, hc, hp⟩ := hrun
  rw [Bool.and_eq_true, Bool.not_eq_true'] at hp
  refine ⟨resetChan, c, resetChan_reset, hc, fun h => ?_⟩
  exact Bool.false_ne_true (hp.2.symm.trans (h.line.mpr hp.1))

def Switches.Lives (v : Switches) : Prop :=
  v.initialized = decide (v.mode ≠ .none) ∧ v.on = v.initialized

theorem Switches.Lives.acts {a : Action} (h : c.switches.Lives) (ha : Acts c l a) :
    (c.switches.act a).Lives := by
  cases ha with
  | stay | enable | disable | arm | abort | done => exact h
  | unset hm =>
    have hinit : c.switches.initialized = false := h.1.trans (decide_eq_false (not_not.mpr hm))
    exact ⟨(decide_eq_false (not_not.mpr hm)).symm, h.2.trans hinit⟩
  | off | down | strip => exact ⟨rfl, rfl⟩
  | up hconf => exact ⟨(decide_eq_true hconf.accepted.mode).symm, rfl⟩

theorem run_lives {start : Chan} {allowed : Chan → HalLabel → Prop} (h0 : Reset start)
    (h : HalReach allowed start c) : c.switches.Lives := by
  refine h.invariant (I := fun c => c.switches.Lives) ?_ fun s l t hs _ hst => ?_
  · have hmode : decide (start.mode ≠ .none) = false := decide_eq_false (not_not.mpr h0.mode)
    have hon : start.switches.on = false := decide_eq_false (not_not.mpr h0.on)
    exact ⟨h0.initialized.trans hmode.symm, hon.trans h0.initialized.symm⟩
  · obtain ⟨a, hact, ht⟩ := hst.acts
    rw [ht]
    exact hs.acts hact

/-- The three records of the life cycle agree in every state; a refused initialisation changes
nothing, and one that fails later leaves the instance uninitialized and off. -/
theorem lifecycle_agrees {start c : Chan} (h0 : Reset start)
    (h : HalReach (fun _ _ => True) start c) :
    (c.node.initialized = true ↔ c.mode ≠ .none) ∧
      (isInitialized c = true ↔ c.mode ≠ .none) ∧
      (c.node.initialized = true ↔ c.regs .con &&& conOn ≠ 0) ∧
      (∀ config toConfig toMode st, InitRefused c config st →
        (init config toConfig toMode).exec c = .ok (st, c)) ∧
      ∀ config toConfig toMode st d, (init config toConfig toMode).exec c = .ok (st, d) →
        st ≠ .ok → ¬InitRefused c config st →
        st = .timeout ∧ d.node.initialized = false ∧ d.mode = .none ∧ d.regs .con &&& conOn = 0 := by
  obtain ⟨hmode, hon⟩ := run_lives h0 h
  have hlive : c.node.initialized = true ↔ c.mode ≠ .none := by
    change c.switches.initialized = true ↔ _
    rw [hmode]
    exact decide_eq_true_iff
  refine ⟨hlive, decide_eq_true_iff, ?_, fun _ _ _ _ hr => exec_init_refused hr _ _, ?_⟩
  · change c.switches.initialized = true ↔ _
    rw [← hon]
    exact decide_eq_true_iff
  · intro config toConfig toMode st d hrun hst hnot
    have hdown {e : Chan} {a : Action} (he : e.switches = c.switches.act a)
        (ha : (c.switches.act a).on = false) : e.regs .con &&& conOn = 0 := by
      have hoff := (congrArg Switches.on he).trans ha
      exact not_not.mp (of_decide_eq_false hoff)
    rcases init_cases hrun with ⟨hr, -⟩ | ⟨cfg, t, -, -, -, -, hup⟩
    · exact absurd hr hnot
    · cases hup with
      | configTimeout => exact ⟨rfl, rfl, rfl, hdown (Chan.switches_down cfg) rfl⟩
      | modeTimeout => exact ⟨rfl, rfl, rfl, hdown (Chan.switches_strip cfg t) rfl⟩
      | live => exact absurd rfl hst

theorem lifecycle_agrees_example :
    ∃ c, HalReach (fun _ _ => True) resetChan c ∧ c.node.initialized = true ∧
      c.mode ≠ .none ∧ c.regs .con &&& conOn ≠ 0 := by
  have hrun : ∃ c, HalReach (fun _ _ => True) resetChan c ∧ c.node.initialized = true :=
    Reach.of_play (fireCall_step (fun _ _ => true) fun _ _ _ _ => trivial) sendAsync _
      (by decide +kernel)
  obtain ⟨c, hc, hi⟩ := hrun
  have h := lifecycle_agrees resetChan_reset hc
  exact ⟨c, hc, hi, h.1.mp hi, h.2.2.1.mp hi⟩

end NoraCanfd

end CanfdDriver
