import CanfdDriver.Cmsis.Effects
import CanfdDriver.Lib.Reach

/-! Runs of one instance: completed wrapper calls, runs of the interrupt handler
and hardware changes, in any order from reset. -/

namespace CanfdDriver

open Lib NoraCanfd Cmsis

/-- What the device configuration, the part and its reset fix for an instance. -/
structure Device : Type where
  present : Bool
  enabled : Bool
  msgRam : MsgRam
  canClkHz : BitVec 32
  nominalBps : BitVec 32
  dataBps : BitVec 32
  samplePct : BitVec 8
  fdMode : BitVec 8
  irqPriority : BitVec 8
  timeoutMs : BitVec 32
  regs : Reg → BitVec 32
  linePriority : BitVec 3
  ram : BitVec 32 → BitVec 32
  int_off : regs .int &&& intEnables = 0
  fifocon1_off : regs .fifocon1 &&& (fifoconTfnrfnie ||| fifoconRxovie) = 0
  txqcon_off : regs .txqcon &&& txqconTxqeie = 0

def zeroFrame : Frame := ⟨0, false, false, false, 0, fun _ => 0⟩

def Device.boot (dev : Device) : Chan where
  present := dev.present
  ctx :=
    { msgRam := dev.msgRam
      cbUnit := none
      cbObject := none
      canClkHz := dev.canClkHz
      nominalBps := dev.nominalBps
      dataBps := dev.dataBps
      samplePct := dev.samplePct
      fdMode := dev.fdMode
      irqPriority := dev.irqPriority
      timeoutMs := dev.timeoutMs
      enabled := dev.enabled
      initialized := false
      powered := false
      mode := .normalFd
      rx := .empty zeroFrame }
  node := ⟨false, false, 0⟩
  mode := .none
  isr := ⟨none, none, false, 0, false⟩
  irq :=
    { rx := ⟨false, false, dev.linePriority⟩
      tx := ⟨false, false, dev.linePriority⟩
      gen := ⟨false, false, dev.linePriority⟩ }
  regs := dev.regs
  ram := dev.ram
  rxFifo := []
  trace := []

inductive Label : Type
  /-- A completed call and the value it returns. -/
  | call (env : Env) (call : Call) (result : Int)
  | handler (app : App) (buffer : Frame)
  | hardware (hw : Hw)

inductive Step (c : Chan) : Label → Chan → Prop
  | call {env : Env} {call : Call} {r : Int} {d : Chan} :
      (call.run env).exec c = .ok (r, d) → Step c (.call env call r) d
  | handler {app : App} {f : Frame} {d : Chan} :
      (handler app f).exec c = .ok ((), d) → Step c (.handler app f) d
  | hardware {hw : Hw} : Step c (.hardware hw) (c.sense hw)

theorem Step.outcome {c d : Chan} {l : Label} (h : Step c l d) :
    Traffic c d ∨ ∃ env call r, l = .call env call r ∧ Outcome env c call r d := by
  cases h with
  | call h => exact .inr ⟨_, _, _, rfl, call_outcome h⟩
  | handler h => exact .inl ((handler_moves _ _).exec h)
  | hardware => exact .inl (.sense _)

theorem run_invariant {I : Chan → Prop} {allowed : Chan → Label → Prop} {start c : Chan}
    (h : Reach Step allowed start c) (h0 : I start) (htraffic : ∀ c d, I c → Traffic c d → I d)
    (hcall : ∀ c env call r d, I c → allowed c (.call env call r) → Outcome env c call r d → I d) :
    I c := by
  refine h.invariant h0 fun s l t hs ha hst => ?_
  rcases hst.outcome with htr | ⟨env, call, r, rfl, hout⟩
  · exact htraffic s t hs htr
  · exact hcall s env call r t hs ha hout

def Chan.carryOut (ok : Chan → Env → Call → Int → Bool) (c : Chan) : Env × Call → Option Chan
  | (env, call) => match (call.run env).exec c with
    | .ok (r, d) => if ok c env call r then some d else none
    | .error _ => none

theorem Chan.carryOut_eq_some {ok : Chan → Env → Call → Int → Bool} {c d : Chan} {env : Env}
    {call : Call} (h : c.carryOut ok (env, call) = some d) :
    ∃ r, (call.run env).exec c = .ok (r, d) ∧ ok c env call r = true := by
  simp only [carryOut] at h
  split at h
  next r e he =>
    split at h
    next hok =>
      cases h
      exact ⟨r, he, hok⟩
    next => cases h
  next => cases h

abbrev replay (ok : Chan → Env → Call → Int → Bool) : List (Env × Call) → Chan → Option Chan :=
  play (Chan.carryOut ok)

theorem reach_of_replay {allowed : Chan → Label → Prop} (ok : Chan → Env → Call → Int → Bool)
    (calls : List (Env × Call)) (p : Chan → Bool) {start : Chan}
    (hok : ∀ s env call r, ok s env call r = true → allowed s (.call env call r))
    (h : (replay ok calls start).map p = some true) :
    ∃ c, Reach Step allowed start c ∧ p c = true := by
  refine Reach.of_play (fun c k d hd => ?_) calls p h
  obtain ⟨r, hexec, hr⟩ := Chan.carryOut_eq_some hd
  exact ⟨_, hok c k.1 k.2 r hr, .call hexec⟩

/-- The example device configuration, on a part whose registers reset to zero. -/
def exampleDevice : Device where
  present := true
  enabled := true
  msgRam := exampleRam
  canClkHz := 20000000
  nominalBps := 500000
  dataBps := 2000000
  samplePct := 80
  fdMode := 1
  irqPriority := 4
  timeoutMs := 10
  regs := fun _ => 0
  linePriority := 4
  ram := fun _ => 0
  int_off := by decide
  fifocon1_off := by decide
  txqcon_off := by decide

def grant (reqop : BitVec 8) : Poll := ⟨0, [⟨reqop.setWidth 32 <<< conOpmodPos, 0⟩]⟩

def granting (mode : Mode) : Env :=
  ⟨grant opmodeConfig, grant (modeToReqop mode), grant opmodeConfig,
    ⟨0, [⟨fifostaTfnrfnif, 0⟩]⟩, fun _ => 0⟩

def powerUp : List (Env × Call) :=
  [(granting .normalFd, .canInitialize none (some 1)),
    (granting .normalFd, .canPowerControl .full)]

def conReserved : BitVec 32 :=
  ~~~(hwBits .con ||| conOn ||| conReqopMask ||| conClksel ||| conIsocrcen ||| conBrsdis
    ||| conStef ||| conTxqen)

def intReserved : BitVec 32 := ~~~(hwBits .int ||| intEnables)

structure Fixed : Type where
  present : Bool
  enabled : Bool
  msgRam : MsgRam
  canClkHz : BitVec 32
  irqPriority : BitVec 8
  timeoutMs : BitVec 32
  con : BitVec 32
  int : BitVec 32
  txPriority : BitVec 3

def Chan.fixed (c : Chan) : Fixed where
  present := c.present
  enabled := c.ctx.enabled
  msgRam := c.ctx.msgRam
  canClkHz := c.ctx.canClkHz
  irqPriority := c.ctx.irqPriority
  timeoutMs := c.ctx.timeoutMs
  con := c.regs .con &&& conReserved
  int := c.regs .int &&& intReserved
  txPriority := c.irq.tx.priority

namespace Chan

variable {c d : Chan}

theorem fixed_setCtx {x : Context} (he : x.enabled = c.ctx.enabled) (hm : x.msgRam = c.ctx.msgRam)
    (hc : x.canClkHz = c.ctx.canClkHz) (hp : x.irqPriority = c.ctx.irqPriority)
    (ht : x.timeoutMs = c.ctx.timeoutMs) : (c.setCtx x).fixed = c.fixed := by
  simp only [fixed, setCtx, he, hm, hc, hp, ht]

theorem fixed_writeCon {m : MaskedWrite 32} (hm : conReserved &&& m.mask = 0) :
    (c.writeCon m).fixed = c.fixed := by
  have hcon : (c.writeCon m).regs .con &&& conReserved = c.regs .con &&& conReserved := by
    simp only [writeCon, setReg, Function.update_self]
    exact MaskedWrite.apply_and_of_disjoint hm _
  have hint : (c.writeCon m).regs .int = c.regs .int := rfl
  simp only [fixed, hcon, hint, writeCon_ctx, writeCon_present, writeCon_irq]

theorem fixed_setReg {r : Reg} {v : BitVec 32} (hc : Reg.con ≠ r) (hi : Reg.int ≠ r) :
    (c.setReg r v).fixed = c.fixed := by
  simp only [fixed, setReg, Function.update_of_ne hc, Function.update_of_ne hi]

@[simp] theorem fixed_setNode (n : NodeState) : (c.setNode n).fixed = c.fixed := rfl

@[simp] theorem fixed_setMode (m : Mode) : (c.setMode m).fixed = c.fixed := rfl

@[simp] theorem fixed_setCallback (cb : Option EventCallback) (ud : Option UserData) :
    (c.setCallback cb ud).fixed = c.fixed := rfl

@[simp] theorem fixed_programmed (cfg : Config) (t : BitTiming) :
    (c.programmed cfg t).fixed = c.fixed := rfl

@[simp] theorem fixed_isrOff : c.isrOff.fixed = c.fixed := by
  have hint : c.isrOff.regs .int &&& intReserved = c.regs .int &&& intReserved := by
    change c.regs .int &&& ~~~intEnables &&& intReserved = _
    exact MaskedWrite.and_not_and_of_disjoint (by decide) _
  simp only [fixed, hint]
  rfl

@[simp] theorem fixed_isrOn (priority : BitVec 8) : (c.isrOn priority).fixed = c.fixed := by
  have hint : (c.isrOn priority).regs .int &&& intReserved = c.regs .int &&& intReserved := by
    change (c.regs .int ||| (intRxie ||| intRxovie)) &&& intReserved = _
    exact MaskedWrite.or_and_of_disjoint (by decide) _
  simp only [fixed, hint]
  rfl

@[simp] theorem fixed_quiet : c.quiet.fixed = c.fixed := by
  rw [quiet, fixed_setCallback, fixed_isrOff]

@[simp] theorem fixed_powerDown : c.powerDown.fixed = c.fixed := fixed_writeCon (by decide)

@[simp] theorem fixed_request (reqop : BitVec 8) :
    (c.writeCon (reqopWrite reqop)).fixed = c.fixed :=
  fixed_writeCon (by
    change conReserved &&& conReqopMask = 0
    decide)

@[simp] theorem fixed_entered (cfg : Config) : (c.entered cfg).fixed = c.fixed := by
  rw [entered, fixed_writeCon (by decide), fixed_setMode, fixed_setNode]

@[simp] theorem fixed_configured (cfg : Config) (t : BitTiming) :
    (c.configured cfg t).fixed = c.fixed := by
  have hmask : conReserved &&&
      ((configureCon cfg.brs).andThen (reqopWrite (modeToReqop cfg.mode))).mask = 0 := by
    change conReserved &&& ((configureCon cfg.brs).mask ||| conReqopMask) = 0
    cases cfg.brs <;> decide
  rw [configured, fixed_writeCon hmask, fixed_programmed, fixed_entered]

@[simp] theorem fixed_live (cfg : Config) (t : BitTiming) : (c.live cfg t).fixed = c.fixed := by
  rw [live, fixed_setNode, fixed_setMode, fixed_configured]

@[simp] theorem fixed_off : c.off.fixed = c.fixed := by
  rw [off, fixed_setMode, fixed_setNode, fixed_powerDown, fixed_request]

@[simp] theorem fixed_retimed (t : BitTiming) : (c.retimed t).fixed = c.fixed := by
  rw [retimed, fixed_request, fixed_setReg, fixed_setReg, fixed_setReg, fixed_request] <;> decide

theorem fixed_applied (mode : Mode) (t : BitTiming) : (c.applied mode t).fixed = c.fixed := by
  have hset : (c.applied mode t).fixed = _ := fixed_setCtx rfl rfl rfl rfl rfl
  rw [hset, fixed_isrOn, fixed_setCallback, fixed_live, fixed_quiet]

end Chan

theorem Traffic.fixed {c d : Chan} (h : Traffic c d) : d.fixed = c.fixed := by
  obtain ⟨rx, hctx⟩ := h.ctx
  have hcon : keptBits .con &&& conReserved = conReserved := by decide
  have hint : keptBits .int &&& intReserved = intReserved := by decide
  simp only [Chan.fixed, h.present, hctx, h.regs_and hcon, h.regs_and hint, h.txPriority]

theorem NoraCanfd.BringUp.fixed {c d : Chan} {cfg : Config} {t : BitTiming} {toConfig toMode : Poll} {st : Status}
    (h : BringUp c cfg t toConfig toMode st d) : d.fixed = c.fixed := by
  cases h <;> simp

theorem NoraCanfd.Retime.fixed {c d : Chan} {t : BitTiming} {toConfig toMode : Poll} {st : Status}
    (h : Retime c t toConfig toMode st d) : d.fixed = c.fixed := by
  cases h <;> simp

namespace Cmsis

variable {c d : Chan} {env : Env} {r : Int}

theorem ApplyInit.fixed {mode : Mode} (h : ApplyInit c mode env r d) : d.fixed = c.fixed := by
  cases h with
  | timeout _ _ hb => exact hb.fixed.trans Chan.fixed_quiet
  | applied => exact Chan.fixed_applied ..
  | _ => simp

theorem Teardown.fixed {toOff : Poll} (h : Teardown c toOff d) : d.fixed = c.fixed := by
  cases h <;> simp

theorem Teardown.ctx {toOff : Poll} (h : Teardown c toOff d) : d.ctx = c.ctx := by
  cases h <;> rfl

theorem cacheRate_fixed (select : BitrateSelect) (bitrate segs : BitVec 32) :
    (c.setCtx (cacheRate c.ctx select bitrate segs)).fixed = c.fixed := by
  cases hs : segmentSamplePct segs <;> cases select <;> simp only [cacheRate, hs] <;> rfl

theorem Outcome.fixed {call : Call} (h : Outcome env c call r d) : d.fixed = c.fixed := by
  cases h with
  | traffic h => exact h.fixed
  | closed _ h => rw [← h.fixed, Chan.fixed_setCtx] <;> rw [h.ctx]
  | off _ h => rw [← h.fixed, Chan.fixed_setCtx] <;> rw [h.ctx]
  | full _ _ h =>
    have happ := h.fixed.trans (Chan.fixed_setCtx rfl rfl rfl rfl rfl)
    rw [← happ, Chan.fixed_setCtx] <;> rfl
  | fullFailed _ _ h =>
    exact h.fixed.trans (Chan.fixed_setCtx rfl rfl rfl rfl rfl)
  | rateCached => exact cacheRate_fixed ..
  | rate _ hx h =>
    subst hx
    cases h with
    | retime _ _ h => exact h.fixed.trans (cacheRate_fixed ..)
    | _ => exact cacheRate_fixed ..
  | mode _ _ _ _ h => exact h.fixed
  | fd _ _ _ _ h => exact h.fixed.trans (Chan.fixed_setCtx rfl rfl rfl rfl rfl)
  | opened | closedPowered | fdCached => rfl

end Cmsis

theorem run_fixed {allowed : Chan → Label → Prop} {start c : Chan}
    (h : Reach Step allowed start c) : c.fixed = start.fixed :=
  run_invariant (I := fun c => c.fixed = start.fixed) h rfl
    (fun _ _ hc htr => htr.fixed.trans hc)
    fun _ _ _ _ _ hc _ hout => hout.fixed.trans hc

end CanfdDriver
