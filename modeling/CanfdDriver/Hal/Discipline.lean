import CanfdDriver.Hal.BitTiming
import CanfdDriver.Hal.Polling
import CanfdDriver.Lib.Rely

namespace CanfdDriver

open Lib NoraCanfd

namespace NoraCanfd

def eventBits : Reg → BitVec 32
  | .con => conOn
  | .txqcon => txqconTxqeie
  | .fifocon1 => fifoconTfnrfnie ||| fifoconRxovie
  | .int => BitVec.allOnes 32
  | _ => 0

def requestBits : Reg → BitVec 32
  | .con => conReqopMask
  | _ => 0

/-- The bits of the configuration: all that neither the hardware nor the driver changes freely. -/
def configBits (r : Reg) : BitVec 32 := ~~~(hwBits r ||| eventBits r ||| requestBits r)

def setupBits (r : Reg) : BitVec 32 := configBits r ||| requestBits r

@[ext] structure Setup : Type where
  timeoutMs : BitVec 32
  node : NodeState
  mode : Mode
  reqop : BitVec 32
  config : Reg → BitVec 32

def reqopField (reqop : BitVec 8) : BitVec 32 := (reqop.setWidth 32 <<< conReqopPos) &&& conReqopMask

end NoraCanfd

namespace Chan

variable {c d : Chan}

def setup (c : Chan) : Setup where
  timeoutMs := c.ctx.timeoutMs
  node := c.node
  mode := c.mode
  reqop := c.regs .con &&& conReqopMask
  config r := c.regs r &&& configBits r

theorem setup_setReg {r : Reg} {v : BitVec 32} (h : v &&& setupBits r = c.regs r &&& setupBits r) :
    (c.setReg r v).setup = c.setup := by
  have hsub {b : BitVec 32} (hb : setupBits r &&& b = b) : v &&& b = c.regs r &&& b := by
    rw [← hb, ← BitVec.and_assoc, h, BitVec.and_assoc]
  apply Setup.ext
  case reqop =>
    change Function.update c.regs r v .con &&& conReqopMask = c.regs .con &&& conReqopMask
    obtain rfl | hne := eq_or_ne r .con
    · rw [Function.update_self]
      exact hsub (by decide)
    · rw [Function.update_of_ne hne.symm]
  case config =>
    funext s
    change Function.update c.regs r v s &&& configBits s = c.regs s &&& configBits s
    obtain rfl | hne := eq_or_ne s r
    · rw [Function.update_self]
      exact hsub (by cases s <;> decide)
    · rw [Function.update_of_ne hne]
  all_goals rfl

theorem setup_request (reqop : BitVec 8) :
    (c.writeCon (reqopWrite reqop)).setup = { c.setup with reqop := reqopField reqop } := by
  apply Setup.ext
  case reqop =>
    change Function.update c.regs .con _ .con &&& conReqopMask = reqopField reqop
    rw [Function.update_self]
    exact reqopWrite_and reqop _
  case config =>
    funext r
    change Function.update c.regs .con _ r &&& configBits r = c.regs r &&& configBits r
    obtain rfl | hne := eq_or_ne r .con
    · rw [Function.update_self]
      exact reqopWrite_and_of_disjoint (b := configBits .con) (by decide) reqop _
    · rw [Function.update_of_ne hne]
  all_goals rfl

end Chan

/-- Everything that the interrupt handler and the hardware leave alone. -/
def SameSetup (c d : Chan) : Prop := d.setup = c.setup

instance : Std.Refl SameSetup := ⟨fun _ => rfl⟩

instance : IsTrans Chan SameSetup := ⟨fun _ _ _ h h' => h'.trans h⟩

def Poll.Expires (T : BitVec 32) (p : Poll) : Prop := T ≠ 0 ∧ ∃ x ∈ p.samples, T ≤ x.tick - p.start

namespace NoraCanfd

/-- The configuration changes only while Configuration mode is requested and has been shown, before
the deadline, in the script of the call that changes it. -/
def Guards (toConfig : Poll) (c d : Chan) : Prop :=
  d.setup.config = c.setup.config ∨
    c.setup.reqop = reqopField opmodeConfig ∧ Granted c.node opmodeConfig toConfig

instance (toConfig : Poll) : Std.Refl (Guards toConfig) := ⟨fun _ => .inl rfl⟩

structure Setup.Clocked (T : BitVec 32) (v : Setup) : Prop where
  getMs : v.node.getMs = true
  timeoutMs : v.node.timeoutMs = T

structure Setup.Timed (T : BitVec 32) (v : Setup) : Prop where
  timeoutMs : v.timeoutMs = T
  live : v.mode ≠ .none ∨ v.node.initialized = true → v.Clocked T

variable {c : Chan} {G : Chan → Chan → Prop} {F : Stop → Prop} {T : BitVec 32} {p toConfig toMode : Poll}

theorem pollResult_returns {n : NodeState} {done : BitVec 32 → Bool} {start : BitVec 32}
    {xs : List Sample} {x : Sample} (hx : x ∈ xs) (he : n.expired start x.tick = true) :
    pollResult n done start xs ≠ .error .polling := by
  induction xs with
  | nil => cases hx
  | cons y ys ih =>
    rw [pollResult]
    split
    next => exact fun h => by cases h
    next =>
      rcases List.mem_cons.mp hx with rfl | hx
      · rw [if_pos he]
        exact fun h => by cases h
      · split
        next => exact fun h => by cases h
        next => exact ih hx

theorem expires_returns (hp : p.Expires T) {n : NodeState} {done : BitVec 32 → Bool}
    (hms : n.getMs = true) (hn : n.timeoutMs = T) :
    pollResult n done (if n.getMs then p.start else 0) p.samples ≠ .error .polling := by
  obtain ⟨hT, x, hx, hle⟩ := hp
  refine pollResult_returns hx ((expired_iff_elapsed hms (hn ▸ hT)).mpr ?_)
  rw [hms, if_pos rfl, hn]
  exact hle

theorem pollUntil_meets [Std.Refl G] {done : BitVec 32 → Bool} {start : BitVec 32}
    (xs : List Sample) (hF : pollResult c.node done start xs = .error .polling → F .polling) :
    (pollUntil done start xs).Meets SameSetup G F
      (fun st t => pollResult c.node done start xs = .ok st ∧ SameSetup c t) c := by
  induction xs generalizing c with
  | nil => exact hF rfl
  | cons x xs ih =>
    rw [pollResult] at hF ⊢
    rw [pollUntil]
    split
    next => exact .pure fun t ht => ⟨rfl, ht⟩
    next hd =>
      refine .get_bind fun t ht => ?_
      have hn : t.node = c.node := congrArg Setup.node ht
      rw [hn]
      rw [if_neg hd] at hF
      split
      next => exact .pure fun s hs => ⟨rfl, hs.trans ht⟩
      next he =>
        rw [if_neg he, ← hn] at hF
        refine (ih hF).mono fun st s hs => ?_
        exact ⟨hn ▸ hs.1, hs.2.trans ht⟩

theorem waitFlag_meets [Std.Refl G] (mask : BitVec 32) (hc : c.setup.Clocked T)
    (hF : ¬p.Expires T → F .polling) :
    (waitFlag mask p).Meets SameSetup G F (fun _ t => SameSetup c t) c := by
  rw [waitFlag, startTick, Prog.bind_assoc]
  refine .get_bind fun t ht => ?_
  have hnode : t.node = c.node := congrArg Setup.node ht
  refine Prog.Meets.mono (pollUntil_meets _ fun hpoll => hF fun hp => ?_) fun _ s hs => hs.2.trans ht
  exact expires_returns hp (hnode ▸ hc.getMs) (hnode ▸ hc.timeoutMs) hpoll

theorem requestMode_meets (reqop : BitVec 8) (hc : c.setup.Clocked T)
    (hF : ¬p.Expires T → F .polling) :
    (requestMode reqop p).Meets SameSetup (Guards toConfig) F (fun st t =>
      requestOutcome c.node reqop p = .ok st ∧
        t.setup = { c.setup with reqop := reqopField reqop }) c := by
  rw [requestMode, startTick, Prog.bind_assoc]
  refine .get_bind fun t ht => .modify_bind fun s hs => ?_
  have hset : (s.writeCon (reqopWrite reqop)).setup = { c.setup with reqop := reqopField reqop } := by
    rw [Chan.setup_request, hs.trans ht]
  have hnode : t.node = c.node := congrArg Setup.node ht
  have hnode' : s.node = c.node := congrArg Setup.node (hs.trans ht)
  change Guards toConfig s (s.writeCon (reqopWrite reqop)) ∧
    Prog.Meets _ _ _ (pollUntil _ (if t.node.getMs then p.start else 0) p.samples) _
      (s.writeCon (reqopWrite reqop))
  refine ⟨.inl ?_, ?_⟩
  · rw [Chan.setup_request]
  · rw [hnode]
    refine Prog.Meets.mono (pollUntil_meets _ fun hpoll => hF fun hp => ?_) fun st r hr => ?_
    · rw [Chan.writeCon_node, hnode'] at hpoll
      exact expires_returns hp hc.getMs hc.timeoutMs hpoll
    · rw [Chan.writeCon_node, hnode'] at hr
      exact ⟨hr.1, hr.2.trans hset⟩

variable {r : Reg} {m : BitVec 32}

theorem regSet_setup (h : setupBits r &&& m = 0) : (regSet r m).Within SameSetup F :=
  .modify fun _ => Chan.setup_setReg (MaskedWrite.or_and_of_disjoint h _)

theorem regClear_setup (h : setupBits r &&& m = 0) : (regClear r m).Within SameSetup F :=
  .modify fun _ => Chan.setup_setReg (MaskedWrite.and_not_and_of_disjoint h _)

structure SameNode (c d : Chan) : Prop where
  timeoutMs : d.ctx.timeoutMs = c.ctx.timeoutMs
  node : d.node = c.node
  mode : d.mode = c.mode

structure SameRecords (c d : Chan) : Prop extends SameNode c d where
  reqop : d.setup.reqop = c.setup.reqop

theorem SameNode.trans {d e : Chan} (h : SameNode c d) (h' : SameNode d e) : SameNode c e :=
  ⟨h'.timeoutMs.trans h.timeoutMs, h'.node.trans h.node, h'.mode.trans h.mode⟩

theorem SameRecords.trans {d e : Chan} (h : SameRecords c d) (h' : SameRecords d e) :
    SameRecords c e := ⟨h.toSameNode.trans h'.toSameNode, h'.reqop.trans h.reqop⟩

theorem SameRecords.of_setup {d : Chan} (h : SameSetup c d) : SameRecords c d :=
  ⟨⟨congrArg Setup.timeoutMs h, congrArg Setup.node h, congrArg Setup.mode h⟩,
    congrArg Setup.reqop h⟩

theorem SameNode.clocked {d : Chan} (h : SameNode c d) (hc : c.setup.Clocked T) :
    d.setup.Clocked T :=
  ⟨(congrArg NodeState.getMs h.node).trans hc.getMs,
    (congrArg NodeState.timeoutMs h.node).trans hc.timeoutMs⟩

theorem SameNode.timed {d : Chan} (h : SameNode c d) (hc : c.setup.Timed T) : d.setup.Timed T where
  timeoutMs := h.timeoutMs.trans hc.timeoutMs
  live hlive := by
    change d.mode ≠ .none ∨ d.node.initialized = true at hlive
    rw [h.mode, h.node] at hlive
    exact h.clocked (hc.live hlive)

theorem SameNode.of_request {d : Chan} {reqop : BitVec 32}
    (h : d.setup = { c.setup with reqop := reqop }) : SameNode c d :=
  ⟨congrArg Setup.timeoutMs h, congrArg Setup.node h, congrArg Setup.mode h⟩

theorem records_meets {q : M Unit} (hq : q.Within SameRecords F)
    (hreq : c.setup.reqop = reqopField opmodeConfig) (hg : Granted c.node opmodeConfig toConfig) :
    q.Meets SameSetup (Guards toConfig) F (fun _ => SameRecords c) c :=
  .of_within hq (fun _ _ h h' => h.trans (.of_setup h')) (fun _ _ h h' => h.trans h')
    (fun _ _ h _ => .inr ⟨h.reqop.trans hreq, h.node ▸ hg⟩) (.of_setup rfl)

theorem getRegs_within {S : Chan → Chan → Prop} [Std.Refl S] : getRegs.Within S F :=
  .bind .get fun _ => .pure _

theorem setup_meets {α : Type} {q : M α} (hq : q.Within SameSetup F) :
    q.Meets SameSetup (Guards toConfig) F (fun _ => SameSetup c) c :=
  .of_within hq (fun _ _ h h' => h'.trans h) (fun _ _ h h' => h'.trans h)
    (fun _ _ _ h => .inl (congrArg Setup.config h)) rfl

theorem regWrite_records (hr : r ≠ .con) (v : BitVec 32) : (regWrite r v).Within SameRecords F :=
  .modify fun c => ⟨⟨rfl, rfl, rfl⟩, by
    change Function.update c.regs r v .con &&& conReqopMask = c.regs .con &&& conReqopMask
    rw [Function.update_of_ne hr.symm]⟩

theorem conClear_records (h : conReqopMask &&& m = 0) : (regClear .con m).Within SameRecords F :=
  .modify fun _ => ⟨⟨rfl, rfl, rfl⟩, MaskedWrite.and_not_and_of_disjoint h _⟩

theorem conSet_records (h : conReqopMask &&& m = 0) : (regSet .con m).Within SameRecords F :=
  .modify fun _ => ⟨⟨rfl, rfl, rfl⟩, MaskedWrite.or_and_of_disjoint h _⟩

theorem writeBitTiming_records (t : BitTiming) : (writeBitTiming t).Within SameRecords F :=
  .bind (regWrite_records (by decide) _) fun _ =>
  .bind (regWrite_records (by decide) _) fun _ => regWrite_records (by decide) _

theorem configure_records (cfg : Config) (t : BitTiming) :
    (configure cfg t).Within SameRecords F := by
  refine .bind (conClear_records (by decide)) fun _ => .bind (conSet_records (by decide)) fun _ => ?_
  refine .bind (.ite (conClear_records (by decide)) (conSet_records (by decide))) fun _ => ?_
  refine .bind (conClear_records (by decide)) fun _ => .bind (conSet_records (by decide)) fun _ => ?_
  refine .bind (writeBitTiming_records t) fun _ => .bind (regWrite_records (by decide) _) fun _ => ?_
  refine .bind (regWrite_records (by decide) _) fun _ => .bind (regWrite_records (by decide) _) fun _ => ?_
  refine .bind (regWrite_records (by decide) _) fun _ => .bind (regWrite_records (by decide) _) fun _ => ?_
  exact regWrite_records (by decide) _

section

variable (hdiv : F .divByZero) (hconf : ¬toConfig.Expires T → F .polling)
  (hmode : ¬toMode.Expires T → F .polling)

include hdiv in
theorem solved_within {canClkHz nominalBps dataBps : BitVec 32} {samplePct : BitVec 8} :
    (solved (calcBitTiming canClkHz nominalBps dataBps samplePct)).Within SameSetup F := by
  cases h : calcBitTiming canClkHz nominalBps dataBps samplePct with
  | error e =>
    obtain rfl := (calcBitTiming_traps.mp h).1
    exact .fail hdiv
  | ok t => exact .pure t

include hconf hmode in
theorem retime_meets (t : BitTiming) (hc : c.setup.Clocked T) :
    (retime t toConfig toMode).Meets SameSetup (Guards toConfig) F (fun _ => SameNode c) c := by
  rw [retime]
  refine .get_bind fun d hd => ?_
  have hcd := (SameRecords.of_setup hd).toSameNode
  refine .seq (requestMode_meets opmodeConfig (hcd.clocked hc) hconf) fun st e he => ?_
  obtain ⟨hgrant, he⟩ := he
  have hde := SameNode.of_request he
  split
  next => exact .pure fun f hf => (hcd.trans hde).trans (SameRecords.of_setup hf).toSameNode
  next hst =>
    rw [not_not.mp hst, ← hde.node] at hgrant
    refine .seq (records_meets (writeBitTiming_records t) (congrArg Setup.reqop he) hgrant)
      fun _ f hf => ?_
    have hcf := (hcd.trans hde).trans hf.toSameNode
    refine .mono (requestMode_meets _ (hcf.clocked hc) hmode) fun _ g hg => ?_
    exact hcf.trans (.of_request hg.2)

include hdiv hconf hmode in
theorem setBitrate_meets (canClkHz nominalBps dataBps : BitVec 32) (samplePct : BitVec 8)
    (hc : c.setup.Timed T) :
    (setBitrate canClkHz nominalBps dataBps samplePct toConfig toMode).Meets SameSetup
      (Guards toConfig) F (fun _ d => d.setup.Timed T) c := by
  have hkeep {d : Chan} (h : SameSetup c d) : d.setup.Timed T :=
    (SameRecords.of_setup h).timed hc
  rw [setBitrate]
  split
  next => exact .pure fun _ => hkeep
  next =>
    refine .seq (setup_meets getRegs_within) fun st d hd => ?_
    split
    next => exact .pure fun _ he => hkeep (he.trans hd)
    next =>
      refine .get_bind fun e he => ?_
      have hce : SameSetup c e := he.trans hd
      split
      next => exact .pure fun _ hf => hkeep (hf.trans hce)
      next hinit =>
        have hinit : e.node.initialized = true := by simpa using hinit
        refine .seq (setup_meets (solved_within hdiv)) fun t f hf => ?_
        have hcf : SameSetup c f := hf.trans hce
        cases t with
        | none => exact .pure fun _ hg => hkeep (hg.trans hcf)
        | some t =>
          have hlive : f.node.initialized = true := (congrArg (·.node.initialized) hf).trans hinit
          refine .mono (retime_meets hconf hmode t ((hkeep hcf).live (.inr hlive))) fun _ g hg => ?_
          exact hg.timed (hkeep hcf)

theorem node_bind {α : Type} {f : Chan → Chan} {k : Unit → M α} {Q : α → Chan → Prop}
    (hf : ∀ d, (f d).setup.config = d.setup.config)
    (h : ∀ d, SameSetup c d → (k ()).Meets SameSetup (Guards toConfig) F Q (f d)) :
    (Prog.modify f >>= k).Meets SameSetup (Guards toConfig) F Q c :=
  .modify_bind fun d hd => ⟨.inl (hf d), h d hd⟩

include hconf hmode in
theorem bringUp_meets (cfg : Config) (t : BitTiming) (hms : cfg.getMs = true)
    (hT : cfg.timeoutMs = T) (hc : c.ctx.timeoutMs = T) :
    (bringUp cfg t toConfig toMode).Meets SameSetup (Guards toConfig) F
      (fun _ d => d.setup.Timed T) c := by
  have hoff : (regClear .con conOn).Within SameSetup F := regClear_setup (by decide)
  have hfail {st : Status} {d : Chan} (hd : d.setup.Timed T) :
      (do regClear .con conOn; return st : M Status).Meets SameSetup (Guards toConfig) F
        (fun _ e => e.setup.Timed T) d :=
    .seq (setup_meets hoff) fun _ e he => .pure fun f hf =>
      ((SameRecords.of_setup he).toSameNode.trans (SameRecords.of_setup hf).toSameNode).timed hd
  rw [bringUp]
  refine node_bind (fun _ => rfl) fun d1 h1 => node_bind (fun _ => rfl) fun d2 h2 => ?_
  refine node_bind (fun _ => rfl) fun d3 h3 => node_bind (fun _ => rfl) fun d4 h4 => ?_
  refine .seq (setup_meets (regSet_setup (by decide))) fun _ d hd => ?_
  -- Before the first poll the node has its clock and its deadline, and is not live.
  have hset : d.setup =
      { c.setup with node := ⟨false, cfg.getMs, cfg.timeoutMs⟩, mode := .none } := by
    have e2 : d2.setup = { d1.setup with node := { d1.setup.node with getMs := cfg.getMs } } := h2
    have e3 : d3.setup =
        { d2.setup with node := { d2.setup.node with timeoutMs := cfg.timeoutMs } } := h3
    have e4 : d4.setup = { d3.setup with node := { d3.setup.node with initialized := false } } := h4
    have e5 : d.setup = { d4.setup with mode := .none } := hd
    rw [e5, e4, e3, e2, h1]
  have hclock : d.setup.Clocked T := by
    rw [hset]
    exact ⟨hms, hT⟩
  have htimed : d.setup.Timed T := by
    refine ⟨?_, fun _ => hclock⟩
    rw [hset]
    exact hc
  refine .seq (requestMode_meets opmodeConfig hclock hconf) fun st e he => ?_
  obtain ⟨hgrant, he⟩ := he
  have hde := SameNode.of_request he
  split
  next => exact hfail (hde.timed htimed)
  next hst =>
    rw [not_not.mp hst, ← hde.node] at hgrant
    refine .seq (records_meets (configure_records cfg t) (congrArg Setup.reqop he) hgrant)
      fun _ f hf => ?_
    have hdf := hde.trans hf.toSameNode
    refine .seq (requestMode_meets _ (hdf.clocked hclock) hmode) fun st' g hg => ?_
    have hdg := hdf.trans (.of_request hg.2)
    split
    next => exact hfail (hdg.timed htimed)
    next =>
      refine node_bind (fun _ => rfl) fun g1 h1 => node_bind (fun _ => rfl) fun g2 h2 => ?_
      refine .pure fun g3 h3 => ?_
      have e2 : g2.setup = { g1.setup with mode := cfg.mode } := h2
      have e3 : g3.setup = { g2.setup with node := { g2.setup.node with initialized := true } } := h3
      have hg1 := hdg.trans (SameRecords.of_setup h1).toSameNode
      rw [e3, e2]
      have hclock := hg1.clocked hclock
      exact ⟨(hg1.timed htimed).timeoutMs, fun _ => ⟨hclock.getMs, hclock.timeoutMs⟩⟩

include hdiv hconf hmode in
theorem init_meets {cfg : Config} (hms : cfg.getMs = true) (hT : cfg.timeoutMs = T)
    (hc : c.setup.Timed T) :
    (init (some cfg) toConfig toMode).Meets SameSetup (Guards toConfig) F
      (fun _ d => d.setup.Timed T) c := by
  have hkeep {d : Chan} (h : SameSetup c d) : d.setup.Timed T :=
    (SameRecords.of_setup h).timed hc
  have hrefuse (st : Status) {d : Chan} (h : SameSetup c d) : (pure st : M Status).Meets SameSetup
      (Guards toConfig) F (fun _ d => d.setup.Timed T) d := .pure fun _ hd => hkeep (hd.trans h)
  refine .ite (fun _ => hrefuse _ rfl) fun _ => .ite (fun _ => hrefuse _ rfl) fun _ => ?_
  refine .ite (fun _ => hrefuse _ rfl) fun _ => .ite (fun _ => hrefuse _ rfl) fun _ => ?_
  refine .seq (setup_meets getRegs_within) fun st d hd => .ite (fun _ => hrefuse _ hd) fun _ => ?_
  refine .seq (setup_meets (solved_within hdiv)) fun t e he => ?_
  have hce : SameSetup c e := he.trans hd
  cases t with
  | none => exact hrefuse _ hce
  | some t => exact bringUp_meets hconf hmode cfg t hms hT (hkeep hce).timeoutMs

theorem deinit_meets {toOff : Poll} (hoff : ¬toOff.Expires T → F .polling) (hc : c.setup.Timed T) :
    (deinit toOff).Meets SameSetup (Guards toConfig) F (fun _ d => d.setup.Timed T) c := by
  rw [deinit]
  refine .seq (setup_meets getRegs_within) fun st d hd => ?_
  have hcd : d.setup.Timed T := (SameRecords.of_setup hd).timed hc
  split
  next => exact .pure fun _ he => (SameRecords.of_setup he).timed hcd
  next =>
    refine .get_bind fun e he => ?_
    have hce := (SameRecords.of_setup he).timed hcd
    split
    next =>
      refine node_bind (fun _ => rfl) fun f hf => .pure fun g hg => ?_
      have hcf := (SameRecords.of_setup hf).timed hce
      have hset : g.setup = { f.setup with node := { f.setup.node with initialized := false } } := hg
      rw [hset]
      refine ⟨hcf.timeoutMs, fun hlive => ?_⟩
      have hclock := hcf.live (hlive.imp_right fun h => by cases h)
      exact ⟨hclock.getMs, hclock.timeoutMs⟩
    next hinit =>
      have hmode : e.mode ≠ .none := by simpa [isInitialized] using hinit
      have hclock := hce.live (.inl hmode)
      refine .seq (requestMode_meets opmodeConfig hclock hoff) fun _ f hf => ?_
      have hef := SameNode.of_request hf.2
      refine .seq (setup_meets (regClear_setup (by decide))) fun _ g hg => ?_
      have heg := hef.trans (SameRecords.of_setup hg).toSameNode
      refine node_bind (fun _ => rfl) fun g1 h1 => node_bind (fun _ => rfl) fun g2 h2 => ?_
      refine .pure fun g3 h3 => ?_
      have e2 : g2.setup = { g1.setup with node := { g1.setup.node with initialized := false } } := h2
      have e3 : g3.setup = { g2.setup with mode := .none } := h3
      have hg1 := heg.trans (SameRecords.of_setup h1).toSameNode
      rw [e3, e2]
      have hclock := hg1.clocked hclock
      exact ⟨(hg1.timed hce).timeoutMs, fun _ => ⟨hclock.getMs, hclock.timeoutMs⟩⟩

end

theorem onRx_setup (f : Line → Line) : (onRx f).Within SameSetup F := .modify fun _ => rfl

theorem onTx_setup (f : Line → Line) : (onTx f).Within SameSetup F := .modify fun _ => rfl

theorem onGen_setup (f : Line → Line) : (onGen f).Within SameSetup F := .modify fun _ => rfl

theorem setTxBusy_setup (b : Bool) : (setTxBusy b).Within SameSetup F := .modify fun _ => rfl

theorem setIsrEnabled_setup (b : Bool) : (setIsrEnabled b).Within SameSetup F :=
  .modify fun _ => rfl

theorem isrSetCallback_setup (cb : Option EventCallback) (ud : Option UserData) :
    (isrSetCallback cb ud).Within SameSetup F :=
  .bind (.modify fun _ => rfl) fun _ => .bind (.modify fun _ => rfl) fun _ => .pure _

theorem irqLineEnable_setup (priority : BitVec 8) : (irqLineEnable priority).Within SameSetup F := by
  refine .bind (.modify fun _ => rfl) fun _ => .bind (onRx_setup _) fun _ => ?_
  refine .bind (onRx_setup _) fun _ => .bind (onRx_setup _) fun _ => ?_
  exact .bind (onGen_setup _) fun _ => .bind (onGen_setup _) fun _ => onGen_setup _

theorem irqLineDisable_setup : irqLineDisable.Within SameSetup F := by
  refine .bind (onRx_setup _) fun _ => .bind (onRx_setup _) fun _ => .bind (onTx_setup _) fun _ => ?_
  exact .bind (onTx_setup _) fun _ => .bind (onGen_setup _) fun _ => onGen_setup _

theorem isrEnable_setup (priority : BitVec 8) : (isrEnable priority).Within SameSetup F := by
  refine .ite (.pure _) (.bind getRegs_within fun _ => .ite (.pure _) (.bind .get fun _ => ?_))
  refine .ite (.pure _) (.bind (regSet_setup (by decide)) fun _ => ?_)
  refine .bind (regSet_setup (by decide)) fun _ => .bind (setTxBusy_setup _) fun _ => ?_
  exact .bind (irqLineEnable_setup _) fun _ => .bind (setIsrEnabled_setup _) fun _ => .pure _

theorem isrDisable_setup : isrDisable.Within SameSetup F := by
  refine .bind getRegs_within fun _ => .ite (.pure _) (.bind (setIsrEnabled_setup _) fun _ => ?_)
  refine .bind irqLineDisable_setup fun _ => .bind (regClear_setup (by decide)) fun _ => ?_
  refine .bind (regClear_setup (by decide)) fun _ => .bind (regClear_setup (by decide)) fun _ => ?_
  exact .bind (setTxBusy_setup _) fun _ => .pure _

theorem txAbort_setup : txAbort.Within SameSetup F := by
  refine .bind getRegs_within fun _ => .ite (.pure _) (.bind ?_ fun _ => .pure _)
  refine .bind (regClear_setup (by decide)) fun _ => .bind (regClear_setup (by decide)) fun _ => ?_
  exact .bind (.bind (onTx_setup _) fun _ => onTx_setup _) fun _ => setTxBusy_setup _

theorem writePayload_setup (obj : BitVec 32) (f : Frame) (n : Nat) :
    (writePayload obj f n).Within SameSetup F := by
  induction n with
  | zero => exact .pure ()
  | succ n ih => exact .bind ih fun _ => .modify fun _ => rfl

theorem transmit_meets (frame : Option Frame) {room : Poll} (hroom : ¬room.Expires T → F .polling)
    (hc : c.setup.Timed T) :
    (transmit frame room).Meets SameSetup (Guards toConfig) F (fun _ => SameSetup c) c := by
  have hrefuse (st : Status) {d : Chan} (h : SameSetup c d) : (pure st : M Status).Meets SameSetup
      (Guards toConfig) F (fun _ => SameSetup c) d := .pure fun _ hd => hd.trans h
  cases frame with
  | none => exact hrefuse _ rfl
  | some f =>
    refine .ite (fun _ => hrefuse _ rfl) fun _ => .ite (fun _ => hrefuse _ rfl) fun _ => ?_
    refine .get_bind fun d hd => .ite (fun _ => hrefuse _ hd) fun hinit => ?_
    have hinit : d.node.initialized = true := by simpa using hinit
    have hclock := ((SameRecords.of_setup hd).timed hc).live (.inr hinit)
    refine .seq (waitFlag_meets _ hclock hroom) fun st e he => ?_
    have hce : SameSetup c e := he.trans hd
    refine .ite (fun _ => hrefuse _ hce) fun _ => ?_
    have htxreq (g : Chan) :
        SameSetup g ((g.setReg .txqcon (g.regs .txqcon ||| fifoconTxreq)).log .txreq) := by
      have hmask : setupBits .txqcon &&& fifoconTxreq = 0 := by decide
      exact Chan.setup_setReg (c := g) (MaskedWrite.or_and_of_disjoint hmask _)
    refine Prog.Meets.mono (setup_meets ?_) fun _ g hg => hg.trans hce
    refine .bind .get fun g => .bind (.modify fun _ => rfl) fun _ => ?_
    refine .bind (.modify fun _ => rfl) fun _ => .bind (writePayload_setup _ _ _) fun _ => ?_
    exact .bind (.modify fun _ => rfl) fun _ => .bind (.modify htxreq) fun _ => .pure _

end NoraCanfd

end CanfdDriver
