import CanfdDriver.Cmsis.Configuration
import CanfdDriver.Cmsis.Delivery
import CanfdDriver.Hal.Polling

namespace CanfdDriver

open Lib NoraCanfd Cmsis

variable {c d : Chan} {objIdx : BitVec 32} {info : Option MsgInfo} {data : Option (Nat → BitVec 8)}
  {size : Nat} {env : Env} {r : Int}

def RoomInTime (n : NodeState) (room : Poll) : Prop :=
  ShownInTime n (fun v => v &&& fifostaTfnrfnif ≠ 0) (if n.getMs then room.start else 0) room.samples

theorem roomResult_ok_iff {n : NodeState} {room : Poll} :
    roomResult n room = .ok .ok ↔ RoomInTime n room := pollResult_ok_iff

/-- The messages that are accepted. -/
structure SendAccepted (c : Chan) (objIdx : BitVec 32) (info : Option MsgInfo)
    (data : Option (Nat → BitVec 8)) (size : Nat) (env : Env) : Prop where
  powered : c.ctx.powered = true
  object : objIdx = objTx
  length : size ≤ 64
  payload : 0 < size → data.isSome = true
  message : ∃ i, info = some i ∧ i.rtr = false ∧ (c.ctx.fdMode ≠ 0 ∨ i.edl = false) ∧
    (i.edl = true ∨ size ≤ 8)
  initialized : c.node.initialized = true
  room : RoomInTime c.node env.room

namespace Cmsis

structure WrapperTakes (c : Chan) (objIdx : BitVec 32) (i : MsgInfo) (data : Option (Nat → BitVec 8))
    (size : Nat) : Prop where
  powered : c.ctx.powered = true
  args : ¬(objIdx ≠ objTx ∨ size > 64 ∨ (0 < size ∧ data.isNone))
  rtr : i.rtr = false
  fdMode : ¬(c.ctx.fdMode = 0 ∧ (i.edl ∨ size > 8))

theorem exec_canMessageSend {i : MsgInfo} (h : WrapperTakes c objIdx i data size) :
    (canMessageSend objIdx (some i) data size env).exec c =
      match (transmit (some (messageFrame i data size env)) env.room).exec c with
      | .ok (st, d) => .ok (if st = .ok then (size : Int) else canHalToArm st, d)
      | .error e => .error e := by
  rw [canMessageSend, Prog.exec_bind_of_ok (Prog.exec_get c), h.powered, Bool.not_true,
    if_neg Bool.false_ne_true, if_neg h.args, h.rtr, if_neg Bool.false_ne_true,
    Prog.exec_bind_of_ok (Prog.exec_get c), if_neg h.fdMode, Prog.exec_bind]
  cases (transmit (some (messageFrame i data size env)) env.room).exec c with
  | error e => rfl
  | ok p =>
    simp only [Prog.exec_ite, Prog.exec_pure, ne_eq, ite_not]
    split <;> rfl

theorem canMessageSend_refused (h : ∀ i, info = some i → ¬WrapperTakes c objIdx i data size) :
    ∃ code, code < 0 ∧ (canMessageSend objIdx info data size env).exec c = .ok (code, c) := by
  cases info with
  | none =>
    rw [canMessageSend, Prog.exec_bind_of_ok (Prog.exec_get c)]
    simp only [Prog.exec_ite]
    split
    next => exact ⟨armDriverError, by decide, rfl⟩
    next => exact ⟨armDriverErrorParameter, by decide, rfl⟩
  | some i =>
    rw [canMessageSend, Prog.exec_bind_of_ok (Prog.exec_get c)]
    simp only [Prog.exec_ite, Prog.exec_bind_of_ok (Prog.exec_get c)]
    split
    next => exact ⟨armDriverError, by decide, rfl⟩
    next hpow =>
      split
      next => exact ⟨armDriverErrorParameter, by decide, rfl⟩
      next hargs =>
        split
        next => exact ⟨armDriverErrorUnsupported, by decide, rfl⟩
        next hrtr =>
          split
          next => exact ⟨armDriverErrorUnsupported, by decide, rfl⟩
          next hfd =>
            exact absurd ⟨by simpa using hpow, hargs, by simpa using hrtr, hfd⟩ (h i rfl)

end Cmsis

theorem sendAccepted_iff : SendAccepted c objIdx info data size env ↔
    ∃ i, info = some i ∧ WrapperTakes c objIdx i data size ∧ Sendable c (messageFrame i data size env) ∧
      roomResult c.node env.room = .ok .ok := by
  have hnone : data.isNone = !data.isSome := by cases data <;> rfl
  constructor
  · rintro ⟨hpow, rfl, hlen, hdata, ⟨i, rfl, hrtr, hfd, hclassic⟩, hi, hroom⟩
    refine ⟨i, rfl, ⟨hpow, ?_, hrtr, ?_⟩, ⟨hlen, fun hoff => ?_, hi⟩, roomResult_ok_iff.mpr hroom⟩
    · rintro (hobj | hbig | ⟨hpos, hmissing⟩)
      · exact hobj rfl
      · exact Nat.not_lt.mpr hlen hbig
      · rw [hnone, hdata hpos] at hmissing
        exact Bool.false_ne_true hmissing
    · rintro ⟨hzero, hfdFrame⟩
      have hedl := hfd.resolve_left (not_not.mpr hzero)
      have hle := hclassic.resolve_left (by simp [hedl])
      rcases hfdFrame with h | h
      · exact Bool.false_ne_true (hedl.symm.trans h)
      · exact Nat.not_lt.mpr hle h
    · have hedl : i.edl = false := hoff
      exact hclassic.resolve_left (by simp [hedl])
  · rintro ⟨i, rfl, ⟨hpow, hargs, hrtr, hfd⟩, ⟨hlen, hclassic, hi⟩, hroom⟩
    rw [not_or, not_or, not_not, not_and] at hargs
    refine ⟨hpow, hargs.1, hlen, fun hpos => ?_, ⟨i, rfl, hrtr, ?_, ?_⟩, hi, roomResult_ok_iff.mp hroom⟩
    · cases data with
      | none => exact absurd rfl (hargs.2.2 hpos)
      | some _ => rfl
    · rw [not_and, not_or] at hfd
      by_cases hzero : c.ctx.fdMode = 0
      · exact .inr (by simpa using (hfd hzero).1)
      · exact .inl hzero
    · cases hedl : i.edl with
      | true => exact .inl rfl
      | false => exact .inr (hclassic hedl)

theorem exec_canMessageSend_accepted {i : MsgInfo}
    (h : SendAccepted c objIdx (some i) data size env) :
    (canMessageSend objIdx (some i) data size env).exec c =
      .ok ((size : Int), queued c (messageFrame i data size env)) := by
  obtain ⟨_, hi, htakes, hsendable, hok⟩ := sendAccepted_iff.mp h
  cases hi
  rw [exec_canMessageSend htakes, exec_transmit hsendable, hok]
  rfl

theorem canMessageSend_cases (h : (canMessageSend objIdx info data size env).exec c = .ok (r, d)) :
    (SendAccepted c objIdx info data size env ∧ r = size ∧
        ∃ i, info = some i ∧ d = queued c (messageFrame i data size env)) ∨
      (¬SendAccepted c objIdx info data size env ∧ r < 0 ∧ d = c) := by
  by_cases hpass : ∃ i, info = some i ∧ WrapperTakes c objIdx i data size
  · obtain ⟨i, rfl, hp⟩ := hpass
    rw [exec_canMessageSend hp] at h
    by_cases hs : Sendable c (messageFrame i data size env)
    · rw [exec_transmit hs] at h
      cases hroom : roomResult c.node env.room with
      | error e =>
        rw [hroom] at h
        cases h
      | ok st =>
        rw [hroom] at h
        by_cases hst : st = .ok
        · subst hst
          cases h
          exact .inl ⟨sendAccepted_iff.mpr ⟨i, rfl, hp, hs, hroom⟩, rfl, i, rfl, rfl⟩
        · simp only [Except.map, if_neg hst] at h
          cases h
          refine .inr ⟨fun hacc => ?_, canHalToArm_neg.mpr hst, rfl⟩
          obtain ⟨-, -, -, -, hok⟩ := sendAccepted_iff.mp hacc
          exact hst (Except.ok.inj (hroom.symm.trans hok))
    · obtain ⟨st, hst, hexec⟩ := transmit_refused hs env.room
      rw [hexec] at h
      simp only [if_neg hst] at h
      cases h
      refine .inr ⟨fun hacc => ?_, canHalToArm_neg.mpr hst, rfl⟩
      obtain ⟨i', hi, -, hs', -⟩ := sendAccepted_iff.mp hacc
      cases hi
      exact hs hs'
  · obtain ⟨code, hneg, hexec⟩ := @canMessageSend_refused c objIdx info data size env
      fun i hi hp => hpass ⟨i, hi, hp⟩
    cases hexec.symm.trans h
    refine .inr ⟨fun hacc => ?_, hneg, rfl⟩
    obtain ⟨i, hi, hp, -⟩ := sendAccepted_iff.mp hacc
    exact hpass ⟨i, hi, hp⟩

/-- `MessageSend` is all or nothing: it returns a non-negative value exactly for the accepted
messages, and then one object is queued for the whole message; otherwise nothing has changed. -/
theorem messageSend_all_or_nothing :
    (∀ c d objIdx info data size env r,
      (canMessageSend objIdx info data size env).exec c = .ok (r, d) →
      (0 ≤ r ↔ SendAccepted c objIdx info data size env) ∧
      (0 ≤ r → r = size ∧ ∃ i, info = some i ∧ d = queued c (messageFrame i data size env) ∧
        d.trace = c.trace ++ objWrites (c.regs .txqua) (sentObj (messageFrame i data size env))
          (sentCount (messageFrame i data size env)) ++ [.uinc, .txreq]) ∧
      (r < 0 → d = c)) ∧
    ∀ (dev : Device) c, dev.fdMode ≤ 1 → Reach Step (fun _ _ => True) dev.boot c →
      (c.ctx.fdMode ≠ 0 ↔ c.ctx.fdMode = 1) := by
  constructor
  · intro c d objIdx info data size env r h
    rcases canMessageSend_cases h with ⟨hacc, rfl, i, hi, rfl⟩ | ⟨hacc, hneg, rfl⟩
    · have hnonneg := Int.natCast_nonneg size
      exact ⟨iff_of_true hnonneg hacc, fun _ => ⟨rfl, i, hi, rfl, queued_trace _⟩,
        fun hneg => absurd hnonneg (Int.not_le.mpr hneg)⟩
    · exact ⟨iff_of_false (Int.not_le.mpr hneg) hacc, fun h0 => absurd h0 (Int.not_le.mpr hneg),
        fun _ => rfl⟩
  · intro dev c hdev hc
    have hle : c.ctx.fdMode ≤ 1 := by
      rcases run_fdMode hc with hf | hf | hf
      · exact hf ▸ hdev
      · rw [hf]
        decide
      · exact hf ▸ BitVec.le_refl 1
    have hnat : c.ctx.fdMode.toNat ≤ 1 := hle
    bv_omega

theorem messageSend_all_or_nothing_example :
    ∃ c d, Reach Step (fun _ _ => True) exampleDevice.boot c ∧ c.ctx.fdMode = 1 ∧
      d = queued c (messageFrame ⟨0x123, false, true, true, false, 9⟩ (some fun _ => 0xA5) 9
        (granting .normalFd)) ∧
      (canMessageSend objTx (some ⟨0x123, false, false, true, false, 9⟩) (some fun _ => 0xA5) 9
        (granting .normalFd)).exec c = .ok (armDriverErrorParameter, c) := by
  have hrun : ∃ c, Reach Step (fun _ _ => True) exampleDevice.boot c ∧
      (decide (c.ctx.fdMode ≠ 0) &&
        ((canMessageSend objTx (some ⟨0x123, false, true, true, false, 9⟩) (some fun _ => 0xA5) 9
          (granting .normalFd)).ends c (fun r _ => r == 9) &&
        (canMessageSend objTx (some ⟨0x123, false, false, true, false, 9⟩) (some fun _ => 0xA5) 9
          (granting .normalFd)).ends c fun r _ => r == armDriverErrorParameter)) = true :=
    reach_of_replay (fun _ _ _ _ => true) powerUp _ (fun _ _ _ _ _ => trivial) (by decide +kernel)
  obtain ⟨c, hc, hp⟩ := hrun
  rw [Bool.and_eq_true, Bool.and_eq_true, Prog.ends_iff, Prog.ends_iff, decide_eq_true_eq] at hp
  obtain ⟨hfd, ⟨r, d, htaken, hr⟩, r', e, hrefused, hr'⟩ := hp
  obtain rfl := beq_iff_eq.mp hr
  obtain rfl := beq_iff_eq.mp hr'
  obtain ⟨-, hqueued, -⟩ := messageSend_all_or_nothing.1 c d _ _ _ _ _ _ htaken
  obtain ⟨-, -, hsame⟩ := messageSend_all_or_nothing.1 c e _ _ _ _ _ _ hrefused
  obtain ⟨-, i, hi, hd, -⟩ := hqueued (by decide)
  cases hi
  obtain rfl := hsame (by decide)
  exact ⟨e, d, hc, (messageSend_all_or_nothing.2 exampleDevice e (by decide) hc).mp hfd, hd, hrefused⟩

end CanfdDriver
