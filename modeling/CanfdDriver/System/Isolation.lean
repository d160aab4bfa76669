import CanfdDriver.System.Mirror
import CanfdDriver.System.Region

namespace CanfdDriver

open Lib NoraCanfd Cmsis

namespace SamePart

variable {rams : MsgRams} {i : Inst} {m n : System}

theorem refl (rams : MsgRams) (i : Inst) (m : System) : SamePart rams i m m :=
  ⟨rfl, rfl, rfl, rfl, rfl, rfl, rfl, rfl, rfl, rfl, fun _ => rfl, rfl, rfl, rfl, rfl, fun _ _ => rfl,
    rfl, rfl⟩

theorem symm (h : SamePart rams i m n) : SamePart rams i n m where
  present := h.present.symm
  mdDefined := h.mdDefined.symm
  ctx := h.ctx.symm
  node := h.node.symm
  mode := h.mode.symm
  cb := h.cb.symm
  ud := h.ud.symm
  txBusy := h.txBusy.symm
  irqPriority := h.irqPriority.symm
  isrEnabled := h.isrEnabled.symm
  sfr r := (h.sfr r).symm
  rx := h.rx.symm
  tx := h.tx.symm
  gen := h.gen.symm
  md := h.md.symm
  ram a ha := (h.ram a ha).symm
  rxFifo := h.rxFifo.symm
  trace := h.trace.symm

theorem trans {l : System} (h : SamePart rams i m n) (h' : SamePart rams i n l) :
    SamePart rams i m l where
  present := h'.present.trans h.present
  mdDefined := h'.mdDefined.trans h.mdDefined
  ctx := h'.ctx.trans h.ctx
  node := h'.node.trans h.node
  mode := h'.mode.trans h.mode
  cb := h'.cb.trans h.cb
  ud := h'.ud.trans h.ud
  txBusy := h'.txBusy.trans h.txBusy
  irqPriority := h'.irqPriority.trans h.irqPriority
  isrEnabled := h'.isrEnabled.trans h.isrEnabled
  sfr r := (h'.sfr r).trans (h.sfr r)
  rx := h'.rx.trans h.rx
  tx := h'.tx.trans h.tx
  gen := h'.gen.trans h.gen
  md := h'.md.trans h.md
  ram a ha := (h'.ram a ha).trans (h.ram a ha)
  rxFifo := h'.rxFifo.trans h.rxFifo
  trace := h'.trace.trans h.trace

instance : Std.Refl (SamePart rams i) := ⟨refl rams i⟩

instance : IsTrans System (SamePart rams i) := ⟨fun _ _ _ => trans⟩

end SamePart

theorem NoraCanfd.Inst.other_ne (i : Inst) : i.other ≠ i := by cases i <;> decide

theorem NoraCanfd.Inst.other_index_ne (i : Inst) : i.other.index ≠ i.index := by
  cases i <;> decide

namespace System

variable {rams : MsgRams} {i : Inst} {m n : System} {c : Chan} {α : Type}

theorem chan_sound (h : m.ud i = none ∨ m.ud i = some i.index) : (chan i).Sound m := by
  apply System.ext
  case ud =>
    refine (congrArg (Function.update m.ud i) ?_).trans (Function.update_eq_self i m.ud)
    change ((m.ud i).map fun _ => UserData.ctx).map (fun _ => i.index) = m.ud i
    obtain hud | hud := h <;> rw [hud] <;> rfl
  case sfr =>
    funext x
    change storeRegs (canfdDevices i) (fun r => m.sfr (canfdDevices i r)) m.sfr x = m.sfr x
    obtain ⟨r, rfl⟩ | ⟨r, rfl⟩ := i.sfr_cases x
    · rw [storeRegs_self, canfdDevices_eq]
    · rw [storeRegs_other]
  case line =>
    funext x
    cases i <;> cases x <;> rfl
  case mdDefined => rfl
  case md => rfl
  case ram => rfl
  all_goals exact Function.update_eq_self _ _

theorem samePart_put (hram : ∀ a, ¬rams.region i a → c.ram a = m.ram a) :
    SamePart rams i.other m ((chan i).put c m) where
  present := Function.update_of_ne i.other_ne _ _
  mdDefined := rfl
  ctx := Function.update_of_ne i.other_index_ne _ _
  node := Function.update_of_ne i.other_ne _ _
  mode := Function.update_of_ne i.other_ne _ _
  cb := Function.update_of_ne i.other_ne _ _
  ud := Function.update_of_ne i.other_ne _ _
  txBusy := Function.update_of_ne i.other_ne _ _
  irqPriority := Function.update_of_ne i.other_ne _ _
  isrEnabled := Function.update_of_ne i.other_ne _ _
  sfr r := storeRegs_other i _ _ r
  rx := by cases i <;> rfl
  tx := by cases i <;> rfl
  gen := by cases i <;> rfl
  md := rfl
  ram a ha := hram a (rams.not_other i a ha)
  rxFifo := Function.update_of_ne i.other_ne _ _
  trace := Function.update_of_ne i.other_ne _ _

theorem get_eq_outside (h : SamePart rams i m n) :
    (chan i).get n = outside (rams.region i) n.ram ((chan i).get m) := by
  apply Chan.ext
  case present => exact h.present
  case ctx => exact h.ctx
  case node => exact h.node
  case mode => exact h.mode
  case isr =>
    change IsrState.mk _ _ _ _ _ = IsrState.mk _ _ _ _ _
    rw [h.cb, h.ud, h.txBusy, h.irqPriority, h.isrEnabled]
  case irq =>
    change CpuIrq.mk _ _ _ = CpuIrq.mk _ _ _
    rw [h.rx, h.tx, h.gen]
  case regs =>
    funext r
    change n.sfr (canfdDevices i r) = m.sfr (canfdDevices i r)
    rw [canfdDevices_eq]
    exact h.sfr r
  case ram =>
    funext a
    by_cases ha : rams.region i a
    · exact (h.ram a ha).trans (outside_ram_of ha ((chan i).get m)).symm
    · exact (outside_ram_of_not ha ((chan i).get m)).symm
  case rxFifo => exact h.rxFifo
  case trace => exact h.trace

theorem samePart_put_put (h : SamePart rams i m n) (r : BitVec 32 → BitVec 32) (c : Chan) :
    SamePart rams i ((chan i).put c m) ((chan i).put (outside (rams.region i) r c) n) where
  present := by rw [put_present, put_present]; rfl
  mdDefined := h.mdDefined
  ctx := by rw [put_ctx, put_ctx]; rfl
  node := by rw [put_node, put_node]; rfl
  mode := by rw [put_mode, put_mode]; rfl
  cb := by rw [put_cb, put_cb]; rfl
  ud := by rw [put_ud, put_ud]; rfl
  txBusy := by rw [put_txBusy, put_txBusy]; rfl
  irqPriority := by rw [put_irqPriority, put_irqPriority]; rfl
  isrEnabled := by rw [put_isrEnabled, put_isrEnabled]; rfl
  sfr r := (storeRegs_self i _ _ r).trans (storeRegs_self i _ _ r).symm
  rx := by cases i <;> rfl
  tx := by cases i <;> rfl
  gen := by cases i <;> rfl
  md := h.md
  ram a ha := outside_ram_of ha c
  rxFifo := by rw [put_rxFifo, put_rxFifo]; rfl
  trace := by rw [put_trace, put_trace]; rfl

/-- The user data of each instance is none, or its own context; its memory is its own. -/
structure Wired (rams : MsgRams) (m : System) : Prop where
  ud : ∀ i, m.ud i = none ∨ m.ud i = some i.index
  home : ∀ i, Homed (rams.region i) ((chan i).get m)

theorem Inst.eq_or_other (i j : Inst) : j = i ∨ j = i.other := by cases i <;> cases j <;> decide

theorem homed_samePart {W : BitVec 32 → Prop} (h : SamePart rams i m n)
    (hm : Homed W ((chan i).get m)) : Homed W ((chan i).get n) := by
  rw [get_eq_outside h]
  exact ⟨hm.ctx, hm.fifoba⟩

theorem Wired.other {rams' : MsgRams} (h : Wired rams m) (hother : SamePart rams' i.other m n)
    (hud : n.ud i = none ∨ n.ud i = some i.index) (hhome : Homed (rams.region i) ((chan i).get n)) :
    Wired rams n where
  ud j := by
    obtain rfl | rfl := Inst.eq_or_other i j
    · exact hud
    · exact hother.ud ▸ h.ud _
  home j := by
    obtain rfl | rfl := Inst.eq_or_other i j
    · exact hhome
    · exact homed_samePart hother (h.home _)

def wholeRam (i : Inst) : MsgRams where
  region j _ := j = i
  disjoint _ h h' := by rw [← h] at h'; cases h'

theorem Wired.put (h : Wired rams m) (hc : Homed (rams.region i) c) :
    Wired rams ((chan i).put c m) := by
  have hother : SamePart (wholeRam i) i.other m ((chan i).put c m) :=
    samePart_put fun _ ha => absurd rfl ha
  refine h.other hother ?_ (((chan i).get_put c m).symm ▸ hc)
  rw [put_ud]
  cases c.isr.ud with
  | none => exact .inl rfl
  | some ud => exact .inr rfl

def Alike (rams : MsgRams) (i : Inst) :
    Except Stop (α × System) → Except Stop (α × System) → Prop
  | .error e, .error e' => e = e'
  | .ok (a, m), .ok (b, n) => a = b ∧ SamePart rams i m n
  | _, _ => False

def QueuesShownAt (i : Inst) (m : System) : Prop := QueuesShown ((chan i).get m)

theorem QueuesShownAt.samePart (h : QueuesShownAt i m) (hmn : SamePart rams i m n) :
    QueuesShownAt i n := by
  rw [QueuesShownAt, get_eq_outside hmn]
  exact ⟨h.txqua, h.fifoua1⟩

/-- The program is about the instance alone; it keeps the wiring if its caller owns what it
passes. -/
structure Isolated (rams : MsgRams) (i : Inst) (own : Prop) (p : S α) : Prop where
  /-- Whatever point the program has come to, the other instance is as it was. -/
  frame : ∀ m t, Wired rams m → QueuesShownAt i m → p.Passes m t → SamePart rams i.other m t
  /-- Whatever the other instance is like, the program does the same. -/
  passes : ∀ m n t, Wired rams m → Wired rams n → QueuesShownAt i m → SamePart rams i m n →
    p.Passes m t → ∃ t', p.Passes n t' ∧ SamePart rams i t t'
  alike : ∀ m n, Wired rams m → Wired rams n → QueuesShownAt i m → SamePart rams i m n →
    Alike rams i (p.exec m) (p.exec n)
  wired : own → ∀ m a t, Wired rams m → p.exec m = .ok (a, t) → Wired rams t

variable {own : Prop}

theorem isolated_of_mirrors {p : S α} {q : M α} (hpq : (chan i).Mirrors p q)
    (hq : ∀ c, Homed (rams.region i) c → QueuesShown c → Confined (rams.region i) q c)
    (hhome : own → q.Yields fun c d => Homed (rams.region i) c → Homed (rams.region i) d) :
    Isolated rams i own p where
  frame m t hm hshown hpass := by
    obtain ⟨d, hd, rfl⟩ := (hpq m).passes hpass (chan_sound (hm.ud i)).symm
    -- The run in lockstep with itself: what it leaves outside the region is what was there.
    obtain ⟨R, hstart, hR, hlock⟩ := hq _ (hm.home i) hshown m.ram
    have hself : outside (rams.region i) m.ram ((chan i).get m) = (chan i).get m := outside_self _
    rw [hself] at hstart
    obtain ⟨d', -, hdd'⟩ := hlock.passes hd hstart
    refine samePart_put fun a ha => ?_
    rw [hR _ _ hdd']
    exact outside_ram_of_not ha d'
  passes m n t hm hn hshown hmn hpass := by
    obtain ⟨d, hd, rfl⟩ := (hpq m).passes hpass (chan_sound (hm.ud i)).symm
    obtain ⟨R, hstart, hR, hlock⟩ := hq _ (hn.home i) (hshown.samePart hmn) m.ram
    -- Seen through the instance, the two systems differ only in the memory outside its region.
    rw [← get_eq_outside hmn.symm] at hstart
    obtain ⟨d', hd', hdd'⟩ := hlock.passes hd hstart
    refine ⟨(chan i).put d' n, hpq.passes_put hd' (chan_sound (hn.ud i)), ?_⟩
    rw [hR _ _ hdd']
    exact (samePart_put_put hmn.symm _ d').symm
  alike m n hm hn hshown hmn := by
    obtain ⟨R, hstart, hR, hlock⟩ := hq _ (hn.home i) (hshown.samePart hmn) m.ram
    rw [← get_eq_outside hmn.symm] at hstart
    rw [hpq.exec (chan_sound (hm.ud i)), hpq.exec (chan_sound (hn.ud i))]
    obtain ⟨e, hm', hn'⟩ | ⟨a, d, d', hm', hn', hdd'⟩ := hlock.exec hstart
    · rw [hm', hn']
      exact rfl
    · rw [hm', hn', hR _ _ hdd']
      exact ⟨rfl, (samePart_put_put hmn.symm _ d').symm⟩
  wired hown m a t hm h := by
    rw [hpq.exec (chan_sound (hm.ud i))] at h
    cases hd : q.exec ((chan i).get m) with
    | error e =>
      rw [hd] at h
      cases h
    | ok x =>
      rw [hd] at h
      cases h
      exact hm.put (hhome hown _ _ _ hd (hm.home i))

theorem isolated_of_blind {p : S α} {q : M α} (hpq : (chan i).Mirrors p q)
    (hq : ∀ r, Prog.Blind (outside (rams.region i) r) q) (hhome : q.Yields HomeStep) :
    Isolated rams i own p :=
  isolated_of_mirrors hpq (fun c _ _ => confined_of_blind hq c) fun _ _ _ _ h hc =>
    hc.step (hhome _ _ _ h)

theorem isolated_of_inStep {p : S α} {q : M α} (hpq : (chan i).Mirrors p q)
    (hq : ∀ r up, Prog.Lockstep (InStep (rams.region i) r up) q q) (hhome : q.Yields HomeStep) :
    Isolated rams i own p :=
  isolated_of_mirrors hpq (fun _ hc hshown => confined_of_inStep hq hc hshown) fun _ _ _ _ h hc =>
    hc.step (hhome _ _ _ h)

theorem isolated_of_local {p : S α} (hother : p.Moves (SamePart rams i.other))
    (hlock : Prog.Lockstep (SamePart rams i) p p) (hwired : own → p.Preserves (Wired rams)) :
    Isolated rams i own p where
  frame _ _ _ _ h := hother.passes h
  passes _ _ _ _ _ _ hmn h := hlock.passes h hmn
  alike m n _ _ _ hmn := by
    obtain ⟨e, hm, hn⟩ | ⟨a, m', n', hm, hn, h⟩ := hlock.exec hmn
    · rw [hm, hn]
      exact rfl
    · rw [hm, hn]
      exact ⟨rfl, h⟩
  wired hown _ _ _ hm h := (hwired hown).exec h hm

theorem moduleEnable_eq (i : Inst) (enable : Bool) :
    moduleEnable i enable = (do
      let dev ← getDevice i
      if dev.isNone then return .notPresent
      else
        let m ← .get
        if m.mdDefined i then do
          setMd i.md (!enable)
          return .ok
        else return .unsupported) := by
  cases i <;> rfl

theorem Inst.other_md_ne (i : Inst) : i.other.md ≠ i.md := by cases i <;> decide

theorem setMd_other (b : Bool) : (setMd i.md b).Moves (SamePart rams i.other) := by
  refine .modify fun m => { SamePart.refl rams i.other m with md := ?_ }
  exact Function.update_of_ne (Inst.other_md_ne i) _ _

theorem setMd_lockstep (b : Bool) :
    Prog.Lockstep (SamePart rams i) (setMd i.md b) (setMd i.md b) := by
  refine .modify fun m n h => { h with md := ?_ }
  simp only [Function.update_self]

theorem moduleEnable_isolated (enable : Bool) : Isolated rams i own (moduleEnable i enable) := by
  rw [moduleEnable_eq]
  refine isolated_of_local ?_ ?_ fun _ => ?_
  · refine .bind (.bind .get fun _ => .pure _) fun _ => .ite (.pure _) (.bind .get fun _ => ?_)
    exact .ite (.bind (setMd_other _) fun _ => .pure _) (.pure _)
  · refine .bind (.get_bind fun m n h => ?_) fun _ => .ite Iff.rfl (.pure _) ?_
    · rw [h.present]
      exact .pure _
    · refine .get_bind fun m n h => ?_
      rw [h.mdDefined]
      exact .ite Iff.rfl (.bind (setMd_lockstep _) fun _ => .pure _) (.pure _)
  · refine .bind (.bind .get fun _ => .pure _) fun _ => .ite (fun _ => .pure _) fun _ => ?_
    refine .bind .get fun _ => .ite (fun _ => ?_) fun _ => .pure _
    exact .bind (.modify fun _ h => ⟨h.ud, h.home⟩) fun _ => .pure _

theorem isrSetCallback_isolated (callback : Option EventCallback) {userData : Option (Fin 2)}
    (hown : own → userData = none ∨ userData = some i.index) :
    Isolated rams i own (isrSetCallback i callback userData) := by
  refine isolated_of_local ?_ ?_ fun h => ?_
  · refine .bind (.modify fun m => { SamePart.refl rams i.other m with cb := ?_ }) fun _ =>
      .bind (.modify fun m => { SamePart.refl rams i.other m with ud := ?_ }) fun _ => .pure _
    · exact Function.update_of_ne i.other_ne _ _
    · exact Function.update_of_ne i.other_ne _ _
  · refine .bind (.modify fun m n h => { h with cb := ?_ }) fun _ =>
      .bind (.modify fun m n h => { h with ud := ?_ }) fun _ => .pure _
    · simp only [Function.update_self]
    · simp only [Function.update_self]
  · refine .bind (.modify fun m hm => ⟨hm.ud, fun j => ⟨(hm.home j).ctx, (hm.home j).fifoba⟩⟩) fun _ =>
      .bind (.modify fun m hm => ⟨fun j => ?_, fun j => ⟨(hm.home j).ctx, (hm.home j).fifoba⟩⟩)
        fun _ => .pure _
    change Function.update m.ud i userData j = none ∨ Function.update m.ud i userData j = some j.index
    obtain rfl | rfl := Inst.eq_or_other i j
    · rw [Function.update_self]
      exact hown h
    · rw [Function.update_of_ne (Inst.other_ne i)]
      exact hm.ud _

end System

end CanfdDriver
