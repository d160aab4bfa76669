import CanfdDriver.Cmsis.Requests
import CanfdDriver.Hal.Discipline

namespace CanfdDriver

open Lib NoraCanfd Cmsis

theorem Traffic.setup {c d : Chan} (h : Traffic c d) : SameSetup c d := by
  obtain ⟨rx, hrx⟩ := h.ctx
  apply Setup.ext
  case timeoutMs =>
    change d.ctx.timeoutMs = c.ctx.timeoutMs
    rw [hrx]
  case node => exact h.node
  case mode => exact h.mode
  case reqop => exact h.regs_and (by decide)
  case config =>
    funext r
    exact h.regs_and (by cases r <;> decide)

def Cmsis.Env.Expires (T : BitVec 32) (env : Env) : Prop :=
  env.toConfig.Expires T ∧ env.toMode.Expires T ∧ env.toOff.Expires T ∧ env.room.Expires T

/-- Where a call may get stuck: at the division, or in a loop whose script ends too early. -/
def Cmsis.Env.Stuck (T : BitVec 32) (env : Env) (e : Stop) : Prop :=
  e = .divByZero ∨ e = .polling ∧ ¬env.Expires T

namespace Cmsis

variable {c : Chan} {T : BitVec 32} {env : Env}

/-- What a call promises: its actions guard the configuration, and its end finds the timeout in
place. -/
abbrev Sound {α : Type} (T : BitVec 32) (env : Env) (p : M α) (c : Chan) : Prop :=
  p.Meets SameSetup (Guards env.toConfig) (env.Stuck T) (fun _ d => d.setup.Timed T) c

theorem Stuck.toConfig (h : ¬env.toConfig.Expires T) : env.Stuck T .polling :=
  .inr ⟨rfl, fun he => h he.1⟩

theorem Stuck.toMode (h : ¬env.toMode.Expires T) : env.Stuck T .polling :=
  .inr ⟨rfl, fun he => h he.2.1⟩

theorem Stuck.toOff (h : ¬env.toOff.Expires T) : env.Stuck T .polling :=
  .inr ⟨rfl, fun he => h he.2.2.1⟩

theorem Stuck.room (h : ¬env.room.Expires T) : env.Stuck T .polling :=
  .inr ⟨rfl, fun he => h he.2.2.2⟩

theorem sound_pure {α : Type} (a : α) (hc : c.setup.Timed T) : Sound T env (pure a) c :=
  .pure fun _ hd => (SameRecords.of_setup hd).timed hc

theorem sound_get {α : Type} {k : Chan → M α} (hc : c.setup.Timed T)
    (hk : ∀ d, d.setup.Timed T → Sound T env (k d) d) : Sound T env (Prog.get >>= k) c :=
  .get_bind fun d hd => hk d ((SameRecords.of_setup hd).timed hc)

theorem sound_within {α : Type} {p : M α} (hp : p.Within SameSetup (env.Stuck T))
    (hc : c.setup.Timed T) : Sound T env p c :=
  .mono (setup_meets hp) fun _ _ hd => (SameRecords.of_setup hd).timed hc

theorem sound_bind {α β : Type} {p : M α} {k : α → M β} (hp : Sound T env p c)
    (hk : ∀ a d, d.setup.Timed T → Sound T env (k a) d) : Sound T env (p >>= k) c :=
  .seq hp hk

theorem onCtx_setup {f : Context → Context} (hf : ∀ x, (f x).timeoutMs = x.timeoutMs) :
    (onCtx f).Within SameSetup (env.Stuck T) := by
  refine .modify fun d => ?_
  apply Setup.ext
  case timeoutMs => exact hf d.ctx
  all_goals rfl

theorem deinit_sound (hc : c.setup.Timed T) : Sound T env (deinit env.toOff) c :=
  deinit_meets Stuck.toOff hc

theorem armEvents_sound (mode : Mode) (hc : c.setup.Timed T) :
    Sound T env (armEvents mode env) c := by
  refine sound_bind (sound_within (isrSetCallback_setup _ _) hc) fun _ _ hc => ?_
  refine sound_get hc fun d hc => sound_bind (sound_within (isrEnable_setup _) hc) fun st e hc => ?_
  refine .ite (fun _ => ?_) fun _ => ?_
  · refine sound_bind (sound_within (isrSetCallback_setup _ _) hc) fun _ _ hc => ?_
    exact sound_bind (deinit_sound hc) fun _ _ hc => sound_pure _ hc
  · exact sound_bind (sound_within (onCtx_setup fun _ => rfl) hc) fun _ _ hc => sound_pure _ hc

theorem canApplyInit_sound (mode : Mode) (hc : c.setup.Timed T) :
    Sound T env (canApplyInit mode env) c := by
  refine sound_bind (sound_within isrDisable_setup hc) fun _ _ hc => ?_
  refine sound_bind (sound_within (isrSetCallback_setup _ _) hc) fun _ _ hc => ?_
  refine sound_get hc fun d hc => ?_
  refine sound_bind (init_meets (.inl rfl) Stuck.toConfig Stuck.toMode rfl hc.timeoutMs hc)
    fun st e hc => ?_
  exact .ite (fun _ => sound_pure _ hc) fun _ => armEvents_sound mode hc

theorem canInitialize_sound (cbUnit cbObject : Option Callback) (hc : c.setup.Timed T) :
    Sound T env (canInitialize cbUnit cbObject) c := by
  refine sound_within (.bind .get fun _ => .ite (.pure _) ?_) hc
  refine .bind (onCtx_setup fun _ => rfl) fun _ => .bind (onCtx_setup fun _ => rfl) fun _ => ?_
  exact .bind (onCtx_setup fun _ => rfl) fun _ => .bind (onCtx_setup fun _ => rfl) fun _ => .pure _

theorem powerFull_sound (hc : c.setup.Timed T) : Sound T env (powerFull env) c := by
  refine sound_get hc fun d hc => .ite (fun _ => sound_pure _ hc) fun _ => ?_
  refine sound_bind (sound_within (onCtx_setup fun _ => rfl) hc) fun _ _ hc => ?_
  refine sound_bind (sound_within (onCtx_setup fun _ => rfl) hc) fun _ _ hc => ?_
  refine sound_get hc fun e hc => sound_bind (canApplyInit_sound _ hc) fun rc _ hc => ?_
  refine .ite (fun _ => sound_pure _ hc) fun _ => ?_
  exact sound_bind (sound_within (onCtx_setup fun _ => rfl) hc) fun _ _ hc => sound_pure _ hc

theorem powerOff_sound (hc : c.setup.Timed T) : Sound T env (powerOff env) c := by
  refine sound_get hc fun d hc => sound_bind (.ite (fun _ => ?_) fun _ => sound_pure _ hc) fun _ _ hc => ?_
  · refine sound_bind (sound_within isrDisable_setup hc) fun _ _ hc => ?_
    refine sound_bind (sound_within (isrSetCallback_setup _ _) hc) fun _ _ hc => ?_
    exact sound_bind (deinit_sound hc) fun _ _ hc => sound_pure _ hc
  · exact sound_bind (sound_within (onCtx_setup fun _ => rfl) hc) fun _ _ hc => sound_pure _ hc

theorem canPowerControl_sound (state : PowerState) (hc : c.setup.Timed T) :
    Sound T env (canPowerControl state env) c := by
  refine sound_get hc fun d hc => .ite (fun _ => sound_pure _ hc) fun _ => ?_
  cases state with
  | full => exact powerFull_sound hc
  | off => exact powerOff_sound hc
  | low => exact sound_pure _ hc
  | other => exact sound_pure _ hc

theorem canUnInitialize_sound (hc : c.setup.Timed T) : Sound T env (canUnInitialize env) c := by
  refine sound_get hc fun d hc => sound_bind (.ite (fun _ => ?_) fun _ => sound_pure _ hc) fun _ _ hc => ?_
  · exact sound_bind (canPowerControl_sound .off hc) fun _ _ hc => sound_pure _ hc
  · refine sound_within (.bind (onCtx_setup fun _ => rfl) fun _ => ?_) hc
    exact .bind (onCtx_setup fun _ => rfl) fun _ => .bind (onCtx_setup fun _ => rfl) fun _ => .pure _

theorem applyBitrate_sound (hc : c.setup.Timed T) : Sound T env (applyBitrate env) c := by
  refine sound_get hc fun d hc => .ite (fun _ => sound_pure _ hc) fun _ => sound_get hc fun e hc => ?_
  refine sound_bind (setBitrate_meets (.inl rfl) Stuck.toConfig Stuck.toMode _ _ _ _ hc) fun _ _ hc => ?_
  exact sound_pure _ hc

theorem canSetBitrate_sound (select : BitrateSelect) (bitrate bitSegments : BitVec 32)
    (hc : c.setup.Timed T) : Sound T env (canSetBitrate select bitrate bitSegments env) c := by
  refine .ite (fun _ => sound_pure _ hc) fun _ => sound_bind ?_ fun _ d hc => ?_
  · cases segmentSamplePct bitSegments with
    | none => exact sound_pure _ hc
    | some pct => exact sound_within (onCtx_setup fun _ => rfl) hc
  · cases select with
    | nominal =>
      exact sound_bind (sound_within (onCtx_setup fun _ => rfl) hc) fun _ _ => applyBitrate_sound
    | fdData =>
      exact sound_bind (sound_within (onCtx_setup fun _ => rfl) hc) fun _ _ => applyBitrate_sound
    | other => exact sound_pure _ hc

theorem canSetMode_sound (mode : ArmMode) (hc : c.setup.Timed T) :
    Sound T env (canSetMode mode env) c := by
  refine sound_get hc fun d hc => .ite (fun _ => sound_pure _ hc) fun _ => ?_
  refine .ite (fun _ => sound_pure _ hc) fun _ => ?_
  cases canMapMode mode with
  | none => exact sound_pure _ hc
  | some mapped =>
    refine sound_get hc fun e hc => sound_get hc fun f hc => .ite (fun _ => sound_pure _ hc) fun _ => ?_
    exact .ite (fun _ => sound_pure _ hc) fun _ => canApplyInit_sound _ hc

theorem setFdMode_sound (arg : BitVec 32) (hc : c.setup.Timed T) :
    Sound T env (setFdMode arg env) c := by
  refine .ite (fun _ => sound_pure _ hc) fun _ => ?_
  refine sound_bind (sound_within (onCtx_setup fun _ => rfl) hc) fun _ _ hc => ?_
  refine sound_get hc fun d hc => .ite (fun _ => ?_) fun _ => sound_pure _ hc
  exact sound_get hc fun e hc => canApplyInit_sound _ hc

theorem canControl_sound (code arg : BitVec 32) (hc : c.setup.Timed T) :
    Sound T env (canControl code arg env) c := by
  refine sound_get hc fun d hc => .ite (fun _ => sound_pure _ hc) fun _ => ?_
  refine .ite (fun _ => setFdMode_sound arg hc) fun _ => .ite (fun _ => ?_) fun _ => sound_pure _ hc
  refine sound_within (.bind .get fun _ => .ite (.pure _) (.ite (.pure _) ?_)) hc
  exact .bind txAbort_setup fun _ => .pure _

theorem canMessageSend_sound (objIdx : BitVec 32) (info : Option MsgInfo)
    (data : Option (Nat → BitVec 8)) (size : Nat) (hc : c.setup.Timed T) :
    Sound T env (canMessageSend objIdx info data size env) c := by
  refine sound_get hc fun d hc => .ite (fun _ => sound_pure _ hc) fun _ => ?_
  cases info with
  | none => exact sound_pure _ hc
  | some info =>
    refine .ite (fun _ => sound_pure _ hc) fun _ => .ite (fun _ => sound_pure _ hc) fun _ => ?_
    refine sound_get hc fun e hc => .ite (fun _ => sound_pure _ hc) fun _ => ?_
    refine .seq (transmit_meets _ Stuck.room hc) fun st f hf => ?_
    have hc := (SameRecords.of_setup hf).timed hc
    exact .ite (fun _ => sound_pure _ hc) fun _ => sound_pure _ hc

theorem canMessageRead_sound (args : ReadArgs) (hc : c.setup.Timed T) :
    Sound T env (canMessageRead args >>= fun r => pure r.code) c := by
  refine sound_within (.bind (.bind .get fun _ => .ite (.pure _) (.ite (.pure _) ?_)) fun _ => .pure _) hc
  refine .bind .get fun _ => .bind .get fun _ => .ite (.pure _) (.bind .get fun _ => ?_)
  exact .bind (.modify fun _ => rfl) fun _ => .pure _

theorem call_sound (env : Env) (call : Call) (hc : c.setup.Timed T) :
    Sound T env (call.run env) c := by
  cases call with
  | canInitialize cbUnit cbObject => exact canInitialize_sound cbUnit cbObject hc
  | canUnInitialize => exact canUnInitialize_sound hc
  | canPowerControl state => exact canPowerControl_sound state hc
  | canSetBitrate select bitrate bitSegments => exact canSetBitrate_sound select bitrate bitSegments hc
  | canSetMode mode => exact canSetMode_sound mode hc
  | canControl code arg => exact canControl_sound code arg hc
  | canMessageSend objIdx info data size => exact canMessageSend_sound objIdx info data size hc
  | canMessageRead args => exact canMessageRead_sound args hc

end Cmsis

variable {dev : Device} {b b' : Bench}

theorem app_promises (h : AppRun (.idle dev.boot) b) :
    b.Promises SameSetup (fun k => Guards k.1.toConfig) (fun k => k.1.Stuck dev.timeoutMs)
      (fun _ c => c.setup.Timed dev.timeoutMs) := by
  have hboot : dev.boot.setup.Timed dev.timeoutMs :=
    ⟨rfl, fun hlive => (hlive.elim (fun h => absurd rfl h) fun h => by cases h)⟩
  exact h.promises (fun _ _ hst => hst.traffic.setup) hboot (fun _ k _ hs => call_sound k.1 k.2 hs)
    fun _ _ _ hs hst => (SameRecords.of_setup hst).timed hs

/-- Wherever it is interrupted, the driver changes a configuration bit only in a call that has read
Configuration mode before its deadline, and while `CON` still requests this mode. -/
theorem configured_in_configuration_mode (h : AppRun (.idle dev.boot) b)
    (hs : Thread.Step (fun k : Env × Call => k.2.run k.1) Interrupts b b')
    (hne : ∃ r, b'.state.regs r &&& configBits r ≠ b.state.regs r &&& configBits r) :
    ∃ env call p, b.rest = some ((env, call), p) ∧
      b.state.regs .con &&& conReqopMask = opmodeConfig.setWidth 32 <<< conReqopPos ∧
      Granted b.state.node opmodeConfig env.toConfig := by
  obtain ⟨r, hne⟩ := hne
  have hkeep {d : Chan} (hd : d.setup.config = b.state.setup.config) :
      d.regs r &&& configBits r = b.state.regs r &&& configBits r := congrFun hd r
  rcases (app_promises h).guarantee hs with henv | hsame | ⟨⟨env, call⟩, p, hrest, hguard⟩
  · exact absurd (hkeep (congrArg Setup.config henv.traffic.setup)) hne
  · exact absurd (hkeep (congrArg (·.setup.config) hsame)) hne
  · obtain ⟨hreq, hgrant⟩ := hguard.resolve_left fun hd => hne (hkeep hd)
    exact ⟨env, call, p, hrest, hreq, hgrant⟩

def writesTiming (b : Bench) : Bool :=
  match b.rest with
  | some (_, .act u _) =>
    (u b.state).regs .nbtcfg &&& configBits .nbtcfg ≠ b.state.regs .nbtcfg &&& configBits .nbtcfg
  | _ => false

def upToTiming : List BenchMove := enterUp 33

theorem configured_in_configuration_mode_example :
    ∃ b, AppRun (.idle exampleDevice.boot) b ∧ writesTiming b = true ∧
      ∃ env call p, b.rest = some ((env, call), p) ∧
        b.state.regs .con &&& conReqopMask = opmodeConfig.setWidth 32 <<< conReqopPos ∧
        Granted b.state.node opmodeConfig env.toConfig := by
  have hrun : ∃ b, AppRun (.idle exampleDevice.boot) b ∧ writesTiming b = true :=
    AppRun.of_play upToTiming _ (by decide +kernel)
  obtain ⟨b, hb, hw⟩ := hrun
  refine ⟨b, hb, hw, ?_⟩
  rw [writesTiming] at hw
  split at hw
  next k u n hrest =>
    exact configured_in_configuration_mode hb (.act hrest) ⟨.nbtcfg, by simpa using hw⟩
  next => cases hw

inductive Cmsis.Wait : Type
  | toConfig | toMode | toOff | room

/-- What a call finds when its loops sample `value` and read the clock, for `m` rounds each. -/
def Cmsis.scripts (clock : Wait → Clock) (value : Wait → Nat → BitVec 32)
    (buffer : Nat → BitVec 8) (m : Nat) : Env where
  toConfig := pollsOf (value .toConfig) (clock .toConfig) m
  toMode := pollsOf (value .toMode) (clock .toMode) m
  toOff := pollsOf (value .toOff) (clock .toOff) m
  room := pollsOf (value .room) (clock .room) m
  buffer := buffer

theorem pollsOf_expires {T : BitVec 32} (hT : T ≠ 0) {clock : Clock}
    (hsteps : clock.Steps 32 T.toNat) :
    ∃ n, ∀ m, n ≤ m → ∀ value, (pollsOf value clock m).Expires T := by
  have hpos : 0 < T.toNat := Nat.pos_of_ne_zero fun h0 => hT (BitVec.eq_of_toNat_eq h0)
  obtain ⟨last, hbefore, hpast⟩ := clock.exists_deadline hpos
  refine ⟨last + 1, fun m hm value => ⟨hT, ⟨value last, clock.reading 32 (last + 1)⟩, ?_, ?_⟩⟩
  · exact List.mem_map.mpr ⟨last, List.mem_range.mpr hm, rfl⟩
  · rw [BitVec.le_def]
    exact (Clock.expired_iff hsteps hpos T.isLt.le hbefore le_rfl).mpr hpast

/-- No call hangs.  How many rounds its loops need at most depends on the clocks alone: with as
many or more, whatever the loops sample and wherever the call was interrupted, the rest of it
returns, or traps in a division by zero. -/
theorem calls_return (hT : dev.timeoutMs ≠ 0) (clock : Wait → Clock)
    (hsteps : ∀ w, (clock w).Steps 32 dev.timeoutMs.toNat) :
    ∃ n, ∀ m, n ≤ m → ∀ value buffer call p (b : Bench),
      AppRun (.idle dev.boot) b → b.rest = some ((scripts clock value buffer m, call), p) →
        (∃ r d, p.exec b.state = .ok (r, d)) ∨ p.exec b.state = .error .divByZero := by
  have hlong (w : Wait) := pollsOf_expires hT (hsteps w)
  choose n hn using hlong
  refine ⟨max (max (n .toConfig) (n .toMode)) (max (n .toOff) (n .room)), ?_⟩
  intro m hm value buffer call p b h hrest
  simp only [Nat.max_le] at hm
  have hexpires : (scripts clock value buffer m).Expires dev.timeoutMs :=
    ⟨hn _ _ hm.1.1 _, hn _ _ hm.1.2 _, hn _ _ hm.2.1 _, hn _ _ hm.2.2 _⟩
  cases hexec : p.exec b.state with
  | ok q => exact .inl ⟨q.1, q.2, rfl⟩
  | error e =>
    obtain rfl | ⟨-, hshort⟩ := (app_promises h).failure hrest hexec
    · exact .inr rfl
    · exact absurd hexpires hshort

theorem calls_return_example :
    ∃ m b p, AppRun (.idle exampleDevice.boot) b ∧ b.state.ctx.initialized = true ∧
      b.rest = some ((scripts (fun _ => wrappingClock) (fun _ _ => 0) (fun _ => 0) m,
        .canPowerControl .full), p) ∧
      ((∃ r d, p.exec b.state = .ok (r, d)) ∨ p.exec b.state = .error .divByZero) := by
  have hrun : ∃ b, AppRun (.idle exampleDevice.boot) b ∧
      (b.state.ctx.initialized && b.rest.isNone) = true :=
    AppRun.of_play (Thread.undisturbed (granting .normalFd, .canInitialize none (some 1)) 5
      armDriverOk) _ (by decide +kernel)
  have hsteps : wrappingClock.Steps 32 exampleDevice.timeoutMs.toNat := by
    intro k
    change 2 ^ 32 - 1 + (k + 1) ≤ 2 ^ 32 - 1 + k + (2 ^ 32 - 10)
    omega
  obtain ⟨b, hb, hp⟩ := hrun
  rw [Bool.and_eq_true, Option.isNone_iff_eq_none] at hp
  obtain ⟨hinit, hrest⟩ := hp
  obtain ⟨n, hn⟩ := @calls_return exampleDevice (by decide) (fun _ => wrappingClock)
    fun _ => hsteps
  exact ⟨n, _, _, hb.tail (.enter _ hrest), hinit, rfl,
    hn n le_rfl _ _ _ _ _ (hb.tail (.enter _ hrest)) rfl⟩

end CanfdDriver
