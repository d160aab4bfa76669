import CanfdDriver.Bus.Network
import CanfdDriver.Cmsis.Restart

namespace CanfdDriver

open Lib NoraCanfd Cmsis

structure Message.Valid (m : Message) : Prop extends m.Fits where
  rtr : m.info.rtr = false
  payload : 0 < m.size → m.data.isSome = true

theorem Message.Valid.accepted {m : Message} {c : Chan} {env : Env} (hm : m.Valid) (hc : Online c)
    (hroom : RoomInTime c.node env.room) :
    SendAccepted c objTx (some m.info) m.data m.size env :=
  ⟨hc.powered, rfl, hm.size, hm.payload, ⟨_, rfl, hm.rtr, .inl hc.fdMode, hm.classic⟩,
    hc.initialized, hroom⟩

def flagged (fifo : List Obj) : Hw := { exampleArrival with rxFifo := fifo }

namespace Node

abbrev Run : Node → Node → Prop := Relation.ReflTransGen Step

variable {x : Node} {d : Chan}

theorem run_of_replay {calls : List (Env × Call)} (hcalls : ∀ k ∈ calls, ∀ r, ¬Accepts k.2 r)
    (h : replay returnsOk calls x.chan = some d) : x.Run { x with chan := d } := by
  induction calls generalizing x with
  | nil =>
    cases h
    exact .refl
  | cons k rest ih =>
    obtain ⟨env, call⟩ := k
    obtain ⟨e, he, hrest⟩ := Option.bind_eq_some_iff.mp h
    obtain ⟨r, hexec, -⟩ := Chan.carryOut_eq_some he
    have hno : ¬Accepts call r := hcalls _ (List.mem_cons_self ..) r
    have hstep : x.Step (x.called call r e) := .call (fun ha => absurd ha hno) hexec
    rw [called_of_not hno] at hstep
    exact .head hstep (ih (fun k hk => hcalls k (List.mem_cons_of_mem _ hk)) hrest)

theorem comes_up {dev : Device} (hdev : dev.Usable) (hfix : x.chan.fixed = dev.boot.fixed) :
    ∃ d, x.Run { x with chan := d, pending := [] } ∧ Online d ∧ d.queue = [] ∧ d.rxFifo = [] := by
  obtain ⟨nominalBps, dataBps, samplePct, t, ht⟩ := hdev.timing
  have hpresent : x.chan.present = dev.present := congrArg Fixed.present hfix
  have henabled : x.chan.ctx.enabled = dev.enabled := congrArg Fixed.enabled hfix
  have hprio : x.chan.ctx.irqPriority = dev.irqPriority := congrArg Fixed.irqPriority hfix
  have hclk : x.chan.ctx.canClkHz = dev.canClkHz := congrArg Fixed.canClkHz hfix
  have hconfig : Granted (ctxNode x.chan.ctx) opmodeConfig (granting .normalFd).toConfig := rfl
  have hmode : Granted (ctxNode x.chan.ctx) opmodeNormalFd (granting .normalFd).toMode := rfl
  obtain ⟨d, hd, honline, hqueue⟩ := restart_online (hpresent.trans hdev.present)
    (henabled.trans hdev.enabled) (hprio ▸ hdev.priority) (hclk ▸ ht) hconfig hmode
  have hcalls : ∀ k ∈ restart (granting .normalFd) nominalBps dataBps samplePct,
      ∀ r, ¬Accepts k.2 r := by
    rintro k hk r ⟨-, objIdx, info, data, size, hsend⟩
    simp only [restart, List.mem_cons, List.not_mem_nil, or_false] at hk
    rcases hk with rfl | rfl | rfl | rfl | rfl <;> cases hsend
  have hup := run_of_replay hcalls hd
  have hclear : Step { x with chan := d } { x with chan := d.sense (flagged []) } :=
    .hardware (List.nil_sublist _)
  have hdrop : Step { x with chan := d.sense (flagged []) }
      { x with chan := d.sense (flagged []), pending := [] } := .withdraw (List.nil_sublist _)
  exact ⟨_, (hup.tail hclear).tail hdrop, honline.traffic (.sense _), hqueue, rfl⟩

theorem sends {m : Message} (hx : Online x.chan) (hp : x.pending = []) (hm : m.Valid) :
    ∃ c addr, x.Step ⟨c, [(addr, m.content)], x.accepted ++ [m]⟩ ∧ Online c ∧
      Carries (ramObj c addr) m.content := by
  let env := granting .normalFd
  let c := queued x.chan (messageFrame m.info m.data m.size env)
  have hsend : (canMessageSend objTx (some m.info) m.data m.size env).exec x.chan =
      .ok ((m.size : Int), c) :=
    exec_canMessageSend_accepted (hm.accepted hx (roomResult_ok_iff.mp rfl))
  have hstep : x.Step (x.called (.canMessageSend objTx (some m.info) m.data m.size) m.size c) :=
    .call (fun _ e he => absurd (hp ▸ he) List.not_mem_nil) hsend
  rw [called_accepted, hp] at hstep
  have hlen : (messageFrame m.info m.data m.size env).len ≤ payloadBytes := hm.size
  exact ⟨c, x.chan.regs .txqua, hstep, hx.traffic ((canMessageSend_moves _ _ _ _ _).exec hsend),
    messageFrame_carried m env ▸ (queued_carries hlen).1⟩

theorem Step.accepted {y : Node} {m : Message} (h : x.Step y) (hm : m ∈ y.accepted) :
    m ∈ x.accepted ∨ x.chan.ctx.powered = true := by
  cases h with
  | @call env call r d hfree hexec =>
    by_cases hacc : Accepts call r
    · obtain ⟨hr, objIdx, info, data, size, rfl⟩ := hacc
      rcases canMessageSend_cases hexec with ⟨hsend, -⟩ | ⟨-, hneg, -⟩
      · exact .inr hsend.powered
      · exact absurd hr (Int.not_le.mpr hneg)
    · rw [called_of_not hacc] at hm
      exact .inl hm
  | handler | hardware | withdraw => exact .inl hm

theorem takes_in {obj : Obj} {args : ReadArgs} (hx : Online x.chan) (hq : x.chan.queue = [])
    (hfifo : x.chan.rxFifo = [obj]) (hargs : args.bad = false) :
    ∃ c d g, x.Run { x with chan := c } ∧
      (canMessageRead args).exec c = .ok (deliver (parseObj obj g) args, d) ∧ Online d ∧
      d.queue = [] ∧ d.rxFifo = [] := by
  let b := x.chan.sense (flagged [obj])
  have hflag : b.regs .int &&& intRxif ≠ 0 := by
    have hbit : intRxif &&& hwBits .int = intRxif := by decide
    have hread : b.regs .int &&& intRxif = (exampleArrival.regs .int &&& hwBits .int) &&& intRxif :=
      MaskedWrite.apply_and_of_sub hbit _
    rw [hread]
    decide
  have honline : Online b := hx.traffic (.sense _)
  obtain ⟨c, hexec, hqueue, hrest⟩ := handler_takes (f := zeroFrame) honline hflag hq rfl
  have hc : Online c := honline.traffic ((handler_moves _ _).exec hexec)
  obtain ⟨d, hread, hempty, -⟩ := exec_canMessageRead_cons hc.powered hargs hqueue
  have hflagged : x.Step { x with chan := b } := .hardware (by rw [hfifo]; exact .refl _)
  have hrun : x.Run { x with chan := c } := .tail (.single hflagged) (.handler hexec)
  have hfifo' : d.rxFifo = c.rxFifo := (canMessageRead_fifo args).exec hread
  exact ⟨c, d, zeroFrame, hrun, hread, hc.traffic ((canMessageRead_moves args).exec hread), hempty,
    hfifo'.trans hrest⟩

end Node

namespace Network

variable {ι : Type} {n t : Network ι} {i j : ι}

/-- Node `i` may send, and node `j` has read all that it has got. -/
structure Linked (i j : ι) (n : Network ι) : Prop where
  sender : Online (n.node i).chan
  receiver : Online (n.node j).chan
  pending : (n.node i).pending = []
  queue : (n.node j).chan.queue = []
  rxFifo : (n.node j).chan.rxFifo = []

theorem Linked.of_nodes {x y : Node} (hi : t.node i = x) (hj : t.node j = y) (hx : Online x.chan)
    (hy : Online y.chan) (hpending : x.pending = []) (hqueue : y.chan.queue = [])
    (hfifo : y.chan.rxFifo = []) : Linked i j t := by
  subst hi hj
  exact ⟨hx, hy, hpending, hqueue, hfifo⟩

def Aloof (i j : ι) (n t : Network ι) : Prop := ∀ k, k ≠ i → k ≠ j → t.node k = n.node k

theorem Aloof.trans {u : Network ι} (h : Aloof i j n t) (h' : Aloof i j t u) : Aloof i j n u :=
  fun k hi hj => (h' k hi hj).trans (h k hi hj)

variable [DecidableEq ι] {dev : ι → Device}

theorem broadcast_node_self (n : Network ι) (i : ι) (addr : BitVec 32)
    (pending : List (BitVec 32 × Content)) (heard : ι → Option Obj) :
    (n.broadcast i addr pending heard).node i =
      ({ n.node i with pending := pending } : Node).hears (heard i) :=
  congrArg (Node.hears · (heard i)) (put_node_self n i _)

theorem broadcast_node_of_ne (h : j ≠ i) (n : Network ι) (addr : BitVec 32)
    (pending : List (BitVec 32 × Content)) (heard : ι → Option Obj) :
    (n.broadcast i addr pending heard).node j = (n.node j).hears (heard j) :=
  congrArg (Node.hears · (heard j)) (put_node_of_ne h n _)

theorem hears_reach {start : Chan} {x : Node}
    (h : Reach CanfdDriver.Step (fun _ _ => True) start x.chan) (o : Option Obj) :
    Reach CanfdDriver.Step (fun _ _ => True) start (x.hears o).chan := by
  cases o with
  | none => exact h
  | some o =>
    let c := x.chan
    let hw : Hw := ⟨c.regs, c.rxFifo ++ [o], c.irq.rx.flag, c.irq.tx.flag, c.irq.gen.flag⟩
    have hsense : c.sense hw = c.setRxFifo (c.rxFifo ++ [o]) := by
      have hregs : (c.sense hw).regs = c.regs := funext fun r => MaskedWrite.field_apply_self _ _
      exact Chan.ext rfl rfl rfl rfl rfl rfl hregs rfl rfl rfl
    rw [Node.hears, ← hsense]
    exact h.tail trivial .hardware

theorem node_reach (h : Run (boot dev) n) (i : ι) :
    Reach CanfdDriver.Step (fun _ _ => True) (dev i).boot (n.node i).chan := by
  induction h generalizing i with
  | refl => exact .refl
  | tail _ hstep ih =>
    cases hstep with
    | @node k x hx =>
      obtain rfl | hne := eq_or_ne i k
      · rw [put_node_self]
        cases hx with
        | call _ hexec =>
          rw [Node.called_chan]
          exact (ih i).tail trivial (.call hexec)
        | handler hexec => exact (ih i).tail trivial (.handler hexec)
        | hardware => exact (ih i).tail trivial .hardware
        | withdraw => exact ih i
      · rw [put_node_of_ne hne]
        exact ih i
    | @broadcast k addr m before after heard _ _ =>
      obtain rfl | hne := eq_or_ne i k
      · rw [broadcast_node_self]
        refine hears_reach ?_ (heard i)
        exact ih i
      · rw [broadcast_node_of_ne hne]
        exact hears_reach (ih i) (heard i)

theorem run_put {x : Node} (h : (n.node i).Run x) : Run n (n.put i x) := by
  induction h with
  | refl =>
    have hself : n.put i (n.node i) = n := by
      rw [put, Function.update_eq_self]
    rw [hself]
  | @tail y z _ hstep ih =>
    have hput : (n.put i y).put i z = n.put i z := by
      simp only [put, Function.update_idem]
    have hlast : Step (n.put i y) ((n.put i y).put i z) := .node (by rwa [put_node_self])
    rw [hput] at hlast
    exact ih.tail hlast

theorem run_linked (h : Run (boot dev) n) (hne : i ≠ j) (hi : (dev i).Usable) (hj : (dev j).Usable) :
    ∃ t, Run n t ∧ Aloof i j n t ∧ Linked i j t ∧ (t.node i).accepted = (n.node i).accepted := by
  have hfix (k : ι) : (n.node k).chan.fixed = (dev k).boot.fixed :=
    CanfdDriver.run_fixed (node_reach h k)
  obtain ⟨c, hc, hsender, -, -⟩ := Node.comes_up hi (hfix i)
  obtain ⟨d, hd, hreceiver, hqueue, hfifo⟩ := Node.comes_up hj (hfix j)
  let x : Node := { n.node i with chan := c, pending := [] }
  let y : Node := { n.node j with chan := d, pending := [] }
  have hy : ((n.put i x).node j).Run y := (put_node_of_ne hne.symm n x).symm ▸ hd
  have hx : ((n.put i x).put j y).node i = x :=
    (put_node_of_ne hne (n.put i x) y).trans (put_node_self n i x)
  refine ⟨(n.put i x).put j y, (run_put hc).trans (run_put hy), fun k hki hkj => ?_, ?_, ?_⟩
  · rw [put_node_of_ne hkj, put_node_of_ne hki]
  · exact .of_nodes hx (put_node_self ..) hsender hreceiver rfl hqueue hfifo
  · rw [hx]

theorem run_heard (h : Linked i j n) (hne : i ≠ j) {m : Message} (hm : m.Valid) :
    ∃ t c obj, Run n t ∧ Aloof i j n t ∧ t.node i = ⟨c, [], (n.node i).accepted ++ [m]⟩ ∧
      Online c ∧ t.node j = (n.node j).hears (some obj) ∧ Carries obj m.content := by
  obtain ⟨c, addr, hsend, honline, hcarries⟩ := Node.sends h.sender h.pending hm
  let x : Node := ⟨c, [(addr, m.content)], (n.node i).accepted ++ [m]⟩
  let heard : ι → Option Obj := fun k => if k = j then some (ramObj c addr) else none
  have hself : (n.put i x).node i = x := put_node_self n i x
  have hbroadcast : Step (n.put i x) ((n.put i x).broadcast i addr ([] ++ []) heard) := by
    refine .broadcast (m := m.content) (by rw [hself]; rfl) fun k o ho => ?_
    obtain ⟨-, ho⟩ := Option.ite_none_right_eq_some.mp ho
    cases ho
    rw [hself]
    exact .refl _
  refine ⟨_, c, ramObj c addr, .tail (.single (.node hsend)) hbroadcast, fun k hki hkj => ?_, ?_,
    honline, ?_, hcarries⟩
  · rw [broadcast_node_of_ne hki, put_node_of_ne hki]
    exact congrArg (n.node k).hears (if_neg hkj)
  · rw [broadcast_node_self, hself]
    exact congrArg (Node.hears _) (if_neg hne)
  · rw [broadcast_node_of_ne hne.symm, put_node_of_ne hne.symm]
    exact congrArg (n.node j).hears (if_pos rfl)

theorem run_delivered (h : Linked i j n) (hne : i ≠ j) {m : Message} (hm : m.Valid) {args : ReadArgs}
    (hargs : args.bad = false) :
    ∃ t r d, Run n t ∧ (canMessageRead args).exec (t.node j).chan = .ok (r, d) ∧ m.Arrives args r ∧
      Aloof i j n (t.put j { t.node j with chan := d }) ∧
      Linked i j (t.put j { t.node j with chan := d }) ∧
      ((t.put j { t.node j with chan := d }).node i).accepted = (n.node i).accepted ++ [m] := by
  obtain ⟨t, c, obj, hrun, haloof, hi, honline, hj, hcarries⟩ := run_heard h hne hm
  have hfifo : (t.node j).chan.rxFifo = [obj] := by
    rw [hj]
    exact congrArg (· ++ [obj]) h.rxFifo
  have hreceiver : Online (t.node j).chan := by
    rw [hj]
    exact ⟨h.receiver.present, h.receiver.powered, h.receiver.fdMode, h.receiver.initialized,
      h.receiver.cb, h.receiver.ud⟩
  have hqueue : (t.node j).chan.queue = [] := by
    rw [hj]
    exact h.queue
  obtain ⟨e, d, g, htaken, hread, hd, hempty, hrest⟩ := Node.takes_in hreceiver hqueue hfifo hargs
  let y : Node := { t.node j with chan := e }
  let u := t.put j y
  have hy : u.node j = y := put_node_self t j y
  have hcontent : (parseObj obj g).content = m.content :=
    (content_parseObj obj g).trans hcarries.content
  have hsame : (u.put j { u.node j with chan := d }).node i = t.node i := by
    rw [put_node_of_ne hne, put_node_of_ne hne]
  have hsender := hsame.trans hi
  refine ⟨u, _, d, hrun.trans (run_put htaken), ?_, Message.arrives hm.toFits hcontent args,
    fun k hki hkj => ?_, ?_, congrArg Node.accepted hsender⟩
  · rw [hy]
    exact hread
  · rw [put_node_of_ne hkj, put_node_of_ne hkj, haloof k hki hkj]
  · exact .of_nodes hsender (put_node_self ..) honline hd rfl hempty hrest

/-- In a run from `n` to `t` these reads at node `j` return these messages, in this order. -/
inductive Receives (j : ι) : List (Message × ReadArgs) → Network ι → Network ι → Prop
  | nil {s t : Network ι} : Run s t → Receives j [] s t
  | cons {s t u : Network ι} {m : Message} {args : ReadArgs} {rest : List (Message × ReadArgs)}
      {r : ReadResult} {d : Chan} : Run s t →
      (canMessageRead args).exec (t.node j).chan = .ok (r, d) → m.Arrives args r →
      Receives j rest (t.put j { t.node j with chan := d }) u → Receives j ((m, args) :: rest) s u

theorem read_step {args : ReadArgs} {r : ReadResult} {d : Chan}
    (h : (canMessageRead args).exec (n.node j).chan = .ok (r, d)) :
    Step n (n.put j { n.node j with chan := d }) := by
  have hcall : ((Call.canMessageRead args).run (granting .normalFd)).exec (n.node j).chan =
      .ok (r.code, d) := Prog.exec_bind_of_ok h
  exact .node (.call (fun ⟨_, _, _, _, _, hsend⟩ => nomatch hsend) hcall)

theorem Receives.of_run {s : Network ι} {ms : List (Message × ReadArgs)} (hrun : Run n s)
    (h : Receives j ms s t) : Receives j ms n t := by
  cases h with
  | nil hrest => exact .nil (hrun.trans hrest)
  | cons hrest hread harrives htail => exact .cons (hrun.trans hrest) hread harrives htail

theorem Receives.run {ms : List (Message × ReadArgs)} (h : Receives j ms n t) : Run n t := by
  induction h with
  | nil hrun => exact hrun
  | cons hrun hread _ _ ih => exact (hrun.tail (read_step hread)).trans ih

theorem run_receives (h : Linked i j n) (hne : i ≠ j) {ms : List (Message × ReadArgs)}
    (hms : ∀ p ∈ ms, p.1.Valid ∧ p.2.bad = false) : ∃ t, Receives j ms n t ∧ Aloof i j n t ∧
      (t.node i).accepted = (n.node i).accepted ++ ms.map Prod.fst := by
  induction ms generalizing n with
  | nil => exact ⟨n, .nil .refl, fun _ _ _ => rfl, (List.append_nil _).symm⟩
  | cons p rest ih =>
    obtain ⟨m, args⟩ := p
    obtain ⟨hm, hargs⟩ := hms _ (List.mem_cons_self ..)
    obtain ⟨t, r, d, hrun, hread, harrives, haloof, hlinked, hsent⟩ := run_delivered h hne hm hargs
    obtain ⟨u, hreceives, hrest, hall⟩ := ih hlinked fun p hp => hms p (List.mem_cons_of_mem _ hp)
    refine ⟨u, .cons hrun hread harrives hreceives, haloof.trans hrest, ?_⟩
    rw [hall, hsent, List.append_assoc]
    rfl

theorem run_accepted (h : Run (boot dev) n) {m : Message} (hm : m ∈ (n.node i).accepted) :
    (dev i).Usable := by
  induction h with
  | refl => cases hm
  | @tail s t hrun hstep ih =>
    cases hstep with
    | @node k x hx =>
      obtain rfl | hne := eq_or_ne i k
      · rw [put_node_self] at hm
        obtain hold | hpow := hx.accepted hm
        · exact ih hold
        · exact run_usable (node_reach hrun i) hpow
      · rw [put_node_of_ne hne] at hm
        exact ih hm
    | @broadcast k addr m before after heard _ _ =>
      obtain rfl | hne := eq_or_ne i k
      · rw [broadcast_node_self, Node.hears_accepted] at hm
        exact ih hm
      · rw [broadcast_node_of_ne hne, Node.hears_accepted] at hm
        exact ih hm

end Network

/-- From any reachable state of the bus two nodes whose devices are usable get any messages
through, while no other node has to do anything; a node whose device is not usable neither sends
nor reads any. -/
theorem no_dead_ends {ι : Type} [DecidableEq ι] (dev : ι → Device) {n : Network ι}
    (h : Network.Run (.boot dev) n) :
    (∀ i j ms, i ≠ j → (dev i).Usable → (dev j).Usable → (∀ p ∈ ms, p.1.Valid ∧ p.2.bad = false) →
      ∃ t, Network.Run n t ∧ Network.Receives j ms n t ∧
        (t.node i).accepted = (n.node i).accepted ++ ms.map Prod.fst ∧
        ∀ k, k ≠ i → k ≠ j → t.node k = n.node k) ∧
      ∀ i, ¬(dev i).Usable → (n.node i).accepted = [] ∧ ∀ args r d,
        (canMessageRead args).exec (n.node i).chan = .ok (r, d) → r.code < 0 := by
  refine ⟨fun i j ms hne hi hj hms => ?_, fun i hi => ⟨?_, fun args r d hread => ?_⟩⟩
  · obtain ⟨s, hrun, haloof, hlinked, hsame⟩ := Network.run_linked h hne hi hj
    obtain ⟨t, hreceives, hrest, hall⟩ := Network.run_receives hlinked hne hms
    rw [hsame] at hall
    exact ⟨t, hrun.trans hreceives.run, hreceives.of_run hrun, hall, haloof.trans hrest⟩
  · exact List.eq_nil_iff_forall_not_mem.mpr fun m hm => hi (Network.run_accepted h hm)
  · by_contra hr
    obtain ⟨hpow, -⟩ := canMessageRead_ok hread (Int.not_lt.mp hr)
    exact hi (run_usable (Network.node_reach h i) hpow)

theorem exampleDevice_usable : exampleDevice.Usable where
  present := rfl
  enabled := rfl
  priority := by decide
  timing := by
    have ht : calcBitTiming 20000000 500000 2000000 80 =
        .ok (some ⟨0x001E0707, 0x00060101, 0x20700⟩) := by decide +kernel
    exact ⟨_, _, _, _, ht⟩

def exampleBus : Option Bool → Device
  | some _ => exampleDevice
  | none => { exampleDevice with enabled := false }

def breakdown : List (Network.Command (Option Bool)) :=
  (powerUp.map fun q => .call (some true) q.1 q.2) ++
    [.call (some true) (granting .normalFd) (.canSetBitrate .nominal 7 0),
      .call (some true) (granting .listenOnly) (.canSetMode .monitor)]

def exampleMessages : List (Message × ReadArgs) :=
  [(⟨⟨0x80000123, false, true, true, false, 9⟩, some fun _ => 0xA5, 9⟩,
      ⟨objRx, true, some fun _ => 0, 64⟩),
    (⟨⟨0x321, false, false, false, false, 1⟩, some fun _ => 0x5A, 1⟩,
      ⟨objRx, true, some fun _ => 0, 8⟩)]

theorem no_dead_ends_example : ∃ n t : Network (Option Bool), Network.Run (.boot exampleBus) n ∧
    (n.node (some true)).chan.ctx.powered = true ∧ (n.node (some true)).chan.isr.isrEnabled = false ∧
    Network.Run n t ∧ Network.Receives (some false) exampleMessages n t ∧
    (t.node none).accepted = [] := by
  obtain ⟨n, hrun, hp⟩ := Network.run_of_play exampleBus breakdown
    (fun n => (n.node (some true)).chan.ctx.powered && !(n.node (some true)).chan.isr.isrEnabled)
    (by decide +kernel)
  simp only [Bool.and_eq_true, Bool.not_eq_true'] at hp
  have hms : ∀ p ∈ exampleMessages, p.1.Valid ∧ p.2.bad = false := by
    intro p hp
    simp only [exampleMessages, List.mem_cons, List.not_mem_nil, or_false] at hp
    rcases hp with rfl | rfl
    · exact ⟨⟨⟨by decide, .inl rfl⟩, rfl, fun _ => rfl⟩, rfl⟩
    · exact ⟨⟨⟨by decide, .inr (by decide)⟩, rfl, fun _ => rfl⟩, rfl⟩
  obtain ⟨t, ht, hreceives, -⟩ := (no_dead_ends exampleBus hrun).1 (some true) (some false) _
    (by decide) exampleDevice_usable exampleDevice_usable hms
  have hnone : ¬(exampleBus none).Usable := fun h => Bool.false_ne_true h.enabled
  exact ⟨n, t, hrun, hp.1, hp.2, ht, hreceives,
    ((no_dead_ends exampleBus (hrun.trans ht)).2 none hnone).1⟩

end CanfdDriver
