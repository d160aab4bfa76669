import CanfdDriver.Hal.Effects
import CanfdDriver.Cmsis.Thread
import CanfdDriver.Cmsis.Traffic

namespace CanfdDriver

open Lib NoraCanfd Cmsis

structure Passes (c d : Chan) : Prop where
  traffic : Traffic c d
  beside : Beside c d

namespace Passes

variable {c d e : Chan}

theorem trans (h : Passes c d) (h' : Passes d e) : Passes c e :=
  ⟨h.traffic.trans h'.traffic, h.beside.trans h'.beside⟩

theorem ud (h : Passes c d) : d.isr.ud = c.isr.ud := by
  have hud := congrArg IsrState.ud h.traffic.isr
  exact hud

end Passes

namespace NoraCanfd

variable {c d : Chan}

theorem passes {α : Type} {p : M α} (ht : p.Moves Traffic) (hb : p.Moves Beside) {a : α}
    (h : p.exec c = .ok (a, d)) : Passes c d := ⟨ht.exec h, hb.exec h⟩

theorem irqLineClear_beside : irqLineClear.Moves Beside :=
  .bind (onRx_beside _) fun _ => .bind (onTx_beside _) fun _ => onGen_beside _

theorem evt_and (p : Prop) [Decidable p] (bit m : BitVec 32) : evt p bit &&& m = evt p (bit &&& m) := by
  rw [evt, evt]
  split <;> simp

theorem evt_rx (p q r s t u : Prop) [Decidable p] [Decidable q] [Decidable r] [Decidable s]
    [Decidable t] [Decidable u] :
    (evt p eventRxAvailable ||| evt q eventRxOverflow ||| evt r eventTxComplete
      ||| evt s eventBusError ||| evt t eventInvalidMsg ||| evt u eventBusOff)
        &&& eventRxAvailable ≠ 0 ↔ p := by
  have hzero (q : Prop) [Decidable q] : evt q 0 = 0 := by
    rw [evt, ite_self]
  have hor : ∀ x y : BitVec 32, (x ||| y) &&& eventRxAvailable =
      (x &&& eventRxAvailable) ||| (y &&& eventRxAvailable) := by
    intro x y
    ext i hi
    simp only [BitVec.getElem_and, BitVec.getElem_or, Bool.and_or_distrib_right]
  have hov : eventRxOverflow &&& eventRxAvailable = 0 := by decide
  have htx : eventTxComplete &&& eventRxAvailable = 0 := by decide
  have herr : eventBusError &&& eventRxAvailable = 0 := by decide
  have hinv : eventInvalidMsg &&& eventRxAvailable = 0 := by decide
  have hoff : eventBusOff &&& eventRxAvailable = 0 := by decide
  simp only [hor, evt_and, hov, htx, herr, hinv, hoff, hzero, BitVec.and_self]
  rw [evt]
  split
  next hp => exact iff_of_true (by decide) hp
  next hp => exact iff_of_false (by decide) hp

structure CallsBack (callback : EventCallback → BitVec 32 → Option UserData → M Unit)
    (c : Chan) (f : EventCallback) (events : BitVec 32) (s t : Chan) : Prop where
  present : c.present = true
  cb : c.isr.cb = some f
  rx : events &&& eventRxAvailable ≠ 0 ↔ c.regs .int &&& intRxif ≠ 0
  before : Passes c s
  exec : (callback f events c.isr.ud).exec s = .ok ((), t)

/-- What a run of the handler does. -/
theorem irqHandler_cases {callback : EventCallback → BitVec 32 → Option UserData → M Unit}
    (h : (irqHandler callback).exec c = .ok ((), d)) :
    (Passes c d ∧ (c.present = true → c.isr.cb ≠ none → c.regs .int &&& intRxif = 0)) ∨
      ∃ f events s t, CallsBack callback c f events s t ∧ Passes t d := by
  rw [irqHandler, Prog.exec_bind_of_ok exec_getRegs] at h
  cases hpresent : c.present with
  | false =>
    have hst : (if c.present then Status.ok else .notPresent) ≠ .ok := by simp [hpresent]
    rw [if_pos hst] at h
    refine .inl ⟨passes irqLineClear_moves irqLineClear_beside h, fun hp => ?_⟩
    cases hp
  | true =>
    have hst : ¬(if c.present then Status.ok else .notPresent) ≠ .ok := by simp [hpresent]
    rw [if_neg hst, Prog.exec_bind_of_ok (Prog.exec_get c)] at h
    obtain ⟨_, s1, h1, hrest1⟩ := Prog.exec_bind_eq_ok.mp h
    have hp1 := passes (.ite (regClear_moves (by decide)) (.pure _))
      (.ite (regClear_beside _ _) (.pure _)) h1
    rw [Prog.exec_bind_of_ok (Prog.exec_get s1)] at hrest1
    obtain ⟨_, s2, h2, hrest2⟩ := Prog.exec_bind_eq_ok.mp hrest1
    have hp2 := hp1.trans (passes (.ite txDisarm_moves (.pure _)) (.ite txDisarm_beside (.pure _)) h2)
    obtain ⟨_, s, h3, hrest3⟩ := Prog.exec_bind_eq_ok.mp hrest2
    have hp3 := hp2.trans (passes (regClear_moves (by decide)) (regClear_beside _ _) h3)
    rw [Prog.exec_bind_of_ok (Prog.exec_get s), Prog.exec_bind_of_ok (Prog.exec_get s)] at hrest3
    obtain ⟨_, t, hcall, hclear⟩ := Prog.exec_bind_eq_ok.mp hrest3
    have hlast := passes irqLineClear_moves irqLineClear_beside hclear
    -- No store before the callback touches the registration.
    rw [hp3.beside.cb, hp3.ud] at hcall
    cases hcb : c.isr.cb with
    | none =>
      rw [hcb] at hcall
      cases hcall
      exact .inl ⟨hp3.trans hlast, fun _ hne => absurd rfl hne⟩
    | some f =>
      rw [hcb] at hcall
      simp only [Prog.exec_ite] at hcall
      split at hcall
      next => exact .inr ⟨f, _, s, t, ⟨hpresent, hcb, evt_rx .., hp3, hcall⟩, hlast⟩
      next hev =>
        cases hcall
        refine .inl ⟨hp3.trans hlast, fun _ _ => ?_⟩
        have hzero : 0 &&& eventRxAvailable = 0 := by decide
        have hbit := (congrArg (· &&& eventRxAvailable) (not_not.mp hev)).trans hzero
        exact not_not.mp (mt (evt_rx ..).mpr (not_not.mpr hbit))

end NoraCanfd

end CanfdDriver
