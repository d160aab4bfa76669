import CanfdDriver.Cmsis.Delivery
import CanfdDriver.Cmsis.Failure

namespace CanfdDriver

open Lib NoraCanfd Cmsis

variable {c d : Chan} {env : Env} {call : Call} {r : Int}

structure ClassicObject (obj : Obj) : Prop where
  fdf : obj 1 &&& objctrlFdf = 0
  brs : obj 1 &&& objctrlBrs = 0
  dlc : ctrlDlc (obj 1) ≤ 8

/-- Every message that is accepted is written as the object of a classic frame. -/
def SendsClassic (c : Chan) : Prop :=
  ∀ objIdx info data size env r d,
    (canMessageSend objIdx info data size env).exec c = .ok (r, d) → 0 ≤ r →
    ∃ obj n, 2 ≤ n ∧ d.trace = c.trace ++ objWrites (c.regs .txqua) obj n ++ [.uinc, .txreq] ∧
      ClassicObject obj

/-- `SET_FD_MODE` of an instance in classic mode does not enable FD without finding a timing. -/
def FdModeFound (c : Chan) : Label → Prop
  | .call _ (.canControl code arg) _ => c.ctx.powered = true → c.mode = .normalClassic →
      code &&& controlMsk = setFdModeCode → arg = fdModeEnable → ctxTiming c.ctx ≠ .ok none
  | _ => True

theorem classicObject_sent {f : Frame} (hfd : f.fd = false) (hlen : f.len ≤ 8) :
    ClassicObject (sentObj f) := by
  have hpayload : f.len ≤ payloadBytes := Nat.le_trans hlen (by decide)
  have hctrl := buildCtrl_fields f (lenToDlc_lt f.len hpayload)
  refine ⟨?_, ?_, ?_⟩
  · exact not_not.mp (of_decide_eq_false (hctrl.fdf.trans hfd))
  · have hoff : (f.fd && f.brs) = false := by rw [hfd, Bool.false_and]
    exact not_not.mp (of_decide_eq_false (hctrl.brs.trans hoff))
  · have hcode : ctrlDlc (sentObj f 1) = lenToDlc f.len := hctrl.dlc
    rw [hcode, lenToDlc, if_pos hlen]
    exact hlen

theorem two_le_sentCount (f : Frame) : 2 ≤ sentCount f := Nat.le_add_right 2 _

theorem sendsClassic_of_fdMode (hf : c.ctx.powered = true → c.ctx.fdMode = 0) : SendsClassic c := by
  intro objIdx info data size env r d hsend hr
  obtain ⟨i, -, hpow, hchecks, htransmit⟩ := canMessageSend_sent hsend hr
  obtain ⟨hedl, hsize⟩ := hchecks (hf hpow)
  obtain ⟨-, -, htrace⟩ := transmit_ok htransmit
  exact ⟨_, _, two_le_sentCount _, htrace, classicObject_sent hedl hsize⟩

theorem ctrl_of_objWrites {addr : BitVec 32} {obj obj' : Obj} {n n' : Nat} {l l' : List Obs}
    (hn : 2 ≤ n) (hn' : 2 ≤ n') (h : objWrites addr obj n ++ l = objWrites addr obj' n' ++ l') :
    obj 1 = obj' 1 := by
  obtain ⟨k, rfl⟩ := Nat.exists_eq_add_of_le hn
  obtain ⟨k', rfl⟩ := Nat.exists_eq_add_of_le hn'
  simp only [objWrites_add_two, List.cons_append, List.cons.injEq, Obs.ramWrite.injEq] at h
  exact h.2.1.2

def ClassicFlag (c : Chan) : Prop := c.ctx.powered = true → c.mode = .normalClassic → c.ctx.fdMode = 0

theorem ClassicFlag.congr (h : ClassicFlag c) (hp : d.ctx.powered = c.ctx.powered)
    (hm : d.mode = c.mode) (hf : d.ctx.fdMode = c.ctx.fdMode) : ClassicFlag d := by
  rw [ClassicFlag, hp, hm, hf]
  exact h

theorem ClassicFlag.traffic (h : ClassicFlag c) (htr : Traffic c d) : ClassicFlag d := by
  obtain ⟨rx, hrx⟩ := htr.ctx
  exact h.congr (by rw [hrx]) htr.mode (by rw [hrx])

theorem Cmsis.ApplyInit.halMode {mode : Mode} (h : ApplyInit c mode env r d) :
    (d.mode = c.mode ∧ (c.present = false ∨ mode = .none ∨ ctxTiming c.ctx = .ok none)) ∨
      d.mode = .none ∨ d.mode = mode := by
  cases h with
  | absent hp => exact .inl ⟨rfl, .inl hp⟩
  | refused _ hbad => exact .inl ⟨rfl, .inr hbad⟩
  | timeout _ _ hb => cases hb <;> exact .inr (.inl rfl)
  | badPriority => exact .inr (.inl rfl)
  | applied => exact .inr (.inr rfl)

theorem ClassicFlag.entered {x : Context} {mode : Mode} (ha : ModeAgrees { x with mode := mode })
    (hf : d.ctx.fdMode = x.fdMode) (hm : d.mode = .none ∨ d.mode = mode) : ClassicFlag d := by
  intro _ hclassic
  rw [hf]
  rcases hm with hm | hm
  · cases hm.symm.trans hclassic
  · exact ha.normalClassic (hm.symm.trans hclassic)

structure ClassicInv (c : Chan) : Prop where
  poweredUp : PoweredUp c
  mode : c.ctx.mode ≠ .none
  flag : ClassicFlag c

theorem ClassicInv.outcome (h : ClassicInv c) (ha : FdModeFound c (.call env call r))
    (hout : Outcome env c call r d) : ClassicFlag d := by
  cases hout with
  | traffic htr => exact h.flag.traffic htr
  | opened | closed | off => exact fun hp => absurd hp Bool.false_ne_true
  | closedPowered => exact h.flag
  | full _ _ happ =>
    obtain ⟨t, -, -, -, -, rfl⟩ := happ.ok
    exact .entered (canNormalModeForCtx_agrees c.ctx) rfl (.inr rfl)
  | fullFailed _ hp happ => exact fun hp' => unpowered_elim (happ.powered.trans hp) hp'
  | rateCached => exact h.flag.congr (cacheRate_powered ..) rfl (cacheRate_fdMode ..)
  | @rate select bitrate bitSegments _ _ _ hp hx hr =>
    subst hx
    have hctx := hr.ctx
    have hmode : d.mode = c.mode := by
      cases hr with
      | retime _ _ hr =>
        cases hr with
        | configTimeout => rfl
        | modeTimeout | retimed => exact Chan.retimed_mode _ _
      | _ => rfl
    exact h.flag.congr (by rw [hctx]; exact cacheRate_powered ..) hmode
      (by rw [hctx]; exact cacheRate_fdMode ..)
  | mode _ _ ht _ happ =>
    rcases happ.halMode with ⟨hm, -⟩ | hm
    · exact h.flag.congr happ.powered hm happ.fdMode
    · exact .entered (setModeTarget_agrees ht) happ.fdMode hm
  | fdCached hp => exact fun hp' => unpowered_elim hp hp'
  | @fd code arg _ _ _ hp hcode harg happ =>
    rcases happ.halMode with ⟨hm, hwhy⟩ | hm
    · intro _ hclassic
      rw [happ.fdMode]
      rcases harg with rfl | rfl
      · rfl
      · have htime : ctxTiming (cacheFdMode c.ctx fdModeEnable) = ctxTiming c.ctx :=
          ctxTiming_congr rfl rfl rfl rfl
        rcases hwhy with habs | hnone | ht
        · exact absurd (habs.symm.trans (h.poweredUp hp).1) Bool.false_ne_true
        · exact absurd hnone (fdModeTarget_ne_none (x := cacheFdMode c.ctx fdModeEnable) h.mode)
        · exact absurd (htime.symm.trans ht) (ha hp (hm.symm.trans hclassic) hcode rfl)
    · exact .entered (fdModeTarget_agrees _) happ.fdMode hm

theorem run_classicInv {dev : Device} (h : Reach Step FdModeFound dev.boot c) : ClassicInv c := by
  refine run_invariant h ⟨.of_unpowered rfl, Mode.noConfusion, fun hp => ?_⟩ ?_ ?_
  · exact absurd hp Bool.false_ne_true
  · exact fun c d hc htr => ⟨hc.poweredUp.traffic htr, htr.mode_ne_none hc.mode, hc.flag.traffic htr⟩
  · intro c env call r d hc ha hout
    exact ⟨hc.poweredUp.outcome hout, hout.mode_ne_none hc.mode, hc.outcome ha hout⟩

theorem flag_of_not_found {l : Label} (hup : PoweredUp c) (hm : c.ctx.mode ≠ .none)
    (hst : Step c l d) (hl : ¬FdModeFound c l) :
    d.ctx.powered = true ∧ d.mode = .normalClassic ∧ d.ctx.fdMode = 1 := by
  cases hst with
  | @call env call r _ hrun =>
    cases call with
    | canControl code arg =>
      obtain ⟨hpow, hl⟩ := Classical.not_imp.mp hl
      obtain ⟨hclassic, hl⟩ := Classical.not_imp.mp hl
      obtain ⟨hcode, hl⟩ := Classical.not_imp.mp hl
      obtain ⟨rfl, ht⟩ := Classical.not_imp.mp hl
      obtain ⟨hp, hi, -⟩ := hup hpow
      have hre : Reapplies c (.canControl code fdModeEnable) _ _ := .fdMode hi hpow hcode (.inr rfl)
      have htx : ctxTiming (cacheFdMode c.ctx fdModeEnable) = .ok none :=
        (ctxTiming_congr rfl rfl rfl rfl).trans (not_not.mp ht)
      have happ : (canApplyInit (fdModeTarget (cacheFdMode c.ctx fdModeEnable)) env).exec
          (c.setCtx (cacheFdMode c.ctx fdModeEnable)) = _ :=
        exec_canApplyInit hp (hre.mode_ne_none hm)
      rw [Chan.setCtx_ctx, htx, ← exec_reapplies hre] at happ
      cases happ.symm.trans hrun
      exact ⟨hpow, hclassic, rfl⟩
    | _ => exact absurd trivial hl
  | _ => exact absurd trivial hl

/-- While the HAL is in classic mode only classic frames are sent, as long as no `SET_FD_MODE`
that enables FD on an instance in that mode fails for want of a timing; one that does leaves the
instance in classic mode with its FD flag on. -/
theorem classic_mode_sends_classic (dev : Device) :
    (∀ c, Reach Step FdModeFound dev.boot c → c.mode = .normalClassic → SendsClassic c) ∧
      ∀ c l d, Reach Step (fun _ _ => True) dev.boot c → Step c l d → ¬FdModeFound c l →
        d.ctx.powered = true ∧ d.mode = .normalClassic ∧ d.ctx.fdMode = 1 := by
  constructor
  · intro c hc hclassic
    exact sendsClassic_of_fdMode fun hpow => (run_classicInv hc).flag hpow hclassic
  · intro c l d hc hst hl
    exact flag_of_not_found (run_poweredUp hc) (run_mode_ne_none hc) hst hl

def Cmsis.Call.isControl : Call → Bool
  | .canControl _ _ => true
  | _ => false

def classicUp : List (Env × Call) :=
  [(granting .normalClassic, .canInitialize none (some 1)),
    (granting .normalClassic, .canControl setFdModeCode fdModeDisable),
    (granting .normalClassic, .canPowerControl .full)]

theorem classic_mode_sends_classic_example :
    ∃ c d, Reach Step FdModeFound exampleDevice.boot c ∧ c.mode = .normalClassic ∧
      (canMessageSend objTx (some ⟨0x123, false, false, true, false, 8⟩) (some fun _ => 0xA5) 8
        (granting .normalClassic)).exec c = .ok (8, d) ∧
      ∃ obj n, 2 ≤ n ∧ d.trace = c.trace ++ objWrites (c.regs .txqua) obj n ++ [.uinc, .txreq] ∧
        ClassicObject obj := by
  have hrun : ∃ c, Reach Step FdModeFound exampleDevice.boot c ∧ (decide (c.mode = .normalClassic) &&
      (canMessageSend objTx (some ⟨0x123, false, false, true, false, 8⟩) (some fun _ => 0xA5) 8
        (granting .normalClassic)).ends c fun r _ => r == 8) = true := by
    refine reach_of_replay (fun c _ call _ => !call.isControl || !c.ctx.powered) classicUp _ ?_
      (by decide +kernel)
    intro c env call r h
    cases call with
    | canControl code arg =>
      have hoff : (!c.ctx.powered) = true := h
      exact fun hpow => absurd hoff (by simp [hpow])
    | _ => trivial
  obtain ⟨c, hc, hp⟩ := hrun
  rw [Bool.and_eq_true, decide_eq_true_eq, Prog.ends_iff] at hp
  obtain ⟨hclassic, r, d, hexec, hr⟩ := hp
  obtain rfl := beq_iff_eq.mp hr
  exact ⟨c, d, hc, hclassic, hexec, (classic_mode_sends_classic exampleDevice).1 c hc hclassic
    _ _ _ _ _ _ d hexec (by decide)⟩

/-- After a failed `SET_FD_MODE` an FD frame with bit-rate switch is queued in classic mode. -/
theorem fd_frame_in_classic_mode :
    ∃ c, Reach Step (fun _ _ => True) exampleDevice.boot c ∧ c.mode = .normalClassic ∧
      ¬SendsClassic c := by
  have hrun : ∃ c, Reach Step (fun _ _ => True) exampleDevice.boot c ∧
      (decide (c.mode = .normalClassic) &&
      (canMessageSend objTx (some ⟨0x123, false, true, true, false, 9⟩) (some fun _ => 0xA5) 12
        (granting .normalClassic)).ends c fun r _ => r == 12) = true :=
    reach_of_replay (fun _ _ _ _ => true)
      (classicUp ++ [(granting .normalClassic, .canSetBitrate .nominal 7 0),
        (granting .normalFd, .canControl setFdModeCode fdModeEnable)]) _
      (fun _ _ _ _ _ => trivial) (by decide +kernel)
  obtain ⟨c, hc, hp⟩ := hrun
  rw [Bool.and_eq_true, decide_eq_true_eq, Prog.ends_iff] at hp
  obtain ⟨hclassic, r, d, hexec, hr⟩ := hp
  obtain rfl := beq_iff_eq.mp hr
  refine ⟨c, hc, hclassic, fun hsends => ?_⟩
  obtain ⟨obj, n, hn, htrace, hobj⟩ := hsends _ _ _ _ _ _ d hexec (by decide)
  obtain ⟨i, hi, -, -, htransmit⟩ := canMessageSend_sent hexec (by decide)
  cases hi
  obtain ⟨-, -, htrace'⟩ := transmit_ok htransmit
  have hwrites := htrace.symm.trans htrace'
  rw [List.append_assoc, List.append_assoc, List.append_cancel_left_eq] at hwrites
  have hfdf := hobj.fdf
  rw [ctrl_of_objWrites hn (two_le_sentCount _) hwrites] at hfdf
  exact absurd hfdf (by decide)

end CanfdDriver
