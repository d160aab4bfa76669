import CanfdDriver.Bus.Node
import CanfdDriver.Lib.Medium

/-! Instances on one bus: each runs its calls and its handler as it likes, and
the controllers send what is in their transmit queues to whoever hears it. -/

namespace CanfdDriver

open Lib NoraCanfd Cmsis

inductive Node.Step (x : Node) : Node → Prop
  /-- The controller lets `TXQUA` point at a free object. -/
  | call {env : Env} {call : Call} {r : Int} {d : Chan} : (Accepts call r → x.Free) →
      (call.run env).exec x.chan = .ok (r, d) → Step x (x.called call r d)
  | handler {app : App} {f : Frame} {d : Chan} :
      (handler app f).exec x.chan = .ok ((), d) → Step x { x with chan := d }
  /-- The controller may lose objects that it has received, but makes up none. -/
  | hardware {hw : Hw} : hw.rxFifo.Sublist x.chan.rxFifo → Step x { x with chan := x.chan.sense hw }
  /-- A controller that leaves the bus may drop what it has not sent. -/
  | withdraw {pending : List (BitVec 32 × Content)} : pending.Sublist x.pending →
      Step x { x with pending := pending }

def Node.hears (x : Node) : Option Obj → Node
  | none => x
  | some o => { x with chan := x.chan.setRxFifo (x.chan.rxFifo ++ [o]) }

namespace Node

variable {x : Node}

@[simp] theorem hears_accepted (x : Node) (o : Option Obj) : (x.hears o).accepted = x.accepted := by
  cases o <;> rfl

@[simp] theorem hears_pending (x : Node) (o : Option Obj) : (x.hears o).pending = x.pending := by
  cases o <;> rfl

theorem hears_held (x : Node) (o : Option Obj) :
    (x.hears o).chan.held = x.chan.held ++ o.toList.map objContent := by
  cases o with
  | none => exact (List.append_nil _).symm
  | some o =>
    have hmap : (x.chan.rxFifo ++ [o]).map objContent = x.chan.rxFifo.map objContent ++ [objContent o] :=
      List.map_append
    change _ ++ (x.chan.rxFifo ++ [o]).map objContent = _
    rw [hmap, ← List.append_assoc]
    rfl

theorem Intact.hears (h : x.Intact) (o : Option Obj) : (x.hears o).Intact := by
  cases o with
  | none => exact h
  | some o => exact h.of_ram rfl

end Node

structure Network (ι : Type) : Type where
  node : ι → Node
  sent : List (ι × Obj)

namespace Network

variable {ι : Type} [DecidableEq ι] {n t : Network ι}

def put (n : Network ι) (i : ι) (x : Node) : Network ι :=
  { n with node := Function.update n.node i x }

@[simp] theorem put_node_self (n : Network ι) (i : ι) (x : Node) : (n.put i x).node i = x :=
  Function.update_self ..

theorem put_node_of_ne {i j : ι} (h : j ≠ i) (n : Network ι) (x : Node) :
    (n.put i x).node j = n.node j := Function.update_of_ne h ..

def broadcast (n : Network ι) (i : ι) (addr : BitVec 32) (pending : List (BitVec 32 × Content))
    (heard : ι → Option Obj) : Network ι where
  node j := ((n.put i { n.node i with pending := pending }).node j).hears (heard j)
  sent := n.sent ++ [(i, ramObj (n.node i).chan addr)]

inductive Step (n : Network ι) : Network ι → Prop
  | node {i : ι} {x : Node} : (n.node i).Step x → Step n (n.put i x)
  /-- Whoever hears an object gets the frame of it that was sent. -/
  | broadcast {i : ι} {addr : BitVec 32} {m : Content} {before after : List (BitVec 32 × Content)}
      {heard : ι → Option Obj} : (n.node i).pending = before ++ (addr, m) :: after →
      (∀ j o, heard j = some o → Relayed (ramObj (n.node i).chan addr) o) →
      Step n (n.broadcast i addr (before ++ after) heard)

abbrev Run : Network ι → Network ι → Prop := Relation.ReflTransGen Step

def boot (dev : ι → Device) : Network ι := ⟨fun i => ⟨(dev i).boot, [], []⟩, []⟩

/-- The messages of a network. -/
def medium (n : Network ι) : Medium ι Content where
  offered i := (n.node i).accepted.map Message.content
  waiting i := (n.node i).pending.map Prod.snd
  sent := n.sent.map fun p => (p.1, objContent p.2)
  held j := (n.node j).chan.held

theorem medium_put (n : Network ι) (i : ι) (x : Node) : (n.put i x).medium =
    { offered := Function.update n.medium.offered i (x.accepted.map Message.content)
      waiting := Function.update n.medium.waiting i (x.pending.map Prod.snd)
      sent := n.medium.sent
      held := Function.update n.medium.held i x.chan.held } := by
  have hupdate {β : Type} (f : Node → β) :
      (fun j => f ((n.put i x).node j)) = Function.update (fun j => f (n.node j)) i (f x) :=
    funext fun j => (Function.apply_update (fun _ => f) n.node i x j)
  simp only [medium]
  rw [hupdate fun y => y.accepted.map Message.content, hupdate fun y => y.pending.map Prod.snd,
    hupdate fun y => y.chan.held]
  rfl

theorem takes_run {i : ι} {x : Node} (h : (n.node i).Takes x) :
    Medium.Run n.medium (n.put i x).medium := by
  rw [medium_put]
  cases h with
  | nothing hd =>
    have hoffered : Function.update n.medium.offered i (n.medium.offered i) = n.medium.offered :=
      Function.update_eq_self i _
    have hwaiting : Function.update n.medium.waiting i (n.medium.waiting i) = n.medium.waiting :=
      Function.update_eq_self i _
    have hlose := Medium.Step.lose_at (s := n.medium) hd
    rw [← hoffered, ← hwaiting] at hlose
    exact .single hlose
  | message m hd =>
    refine .tail (.single (.offer i m.content)) ?_
    have hlose := Medium.Step.lose_at (i := i) (s := { n.medium with
      offered := Function.update n.medium.offered i (n.medium.offered i ++ [m.content])
      waiting := Function.update n.medium.waiting i (n.medium.waiting i ++ [m.content]) }) hd
    simp only [List.map_append, List.map_cons, List.map_nil]
    exact hlose

theorem medium_withdraw (n : Network ι) (i : ι) (pending : List (BitVec 32 × Content)) :
    (n.put i { n.node i with pending := pending }).medium =
      { n.medium with waiting := Function.update n.medium.waiting i (pending.map Prod.snd) } := by
  have hoffered : Function.update n.medium.offered i (n.medium.offered i) = n.medium.offered :=
    Function.update_eq_self i _
  have hheld : Function.update n.medium.held i (n.medium.held i) = n.medium.held :=
    Function.update_eq_self i _
  rw [medium_put]
  exact Medium.mk.injEq .. |>.mpr ⟨hoffered, rfl, rfl, hheld⟩

theorem medium_broadcast (n : Network ι) (i : ι) (addr : BitVec 32)
    (pending : List (BitVec 32 × Content)) (heard : ι → Option Obj) :
    (n.broadcast i addr pending heard).medium =
      { n.medium with
        waiting := Function.update n.medium.waiting i (pending.map Prod.snd)
        sent := n.medium.sent ++ [(i, objContent (ramObj (n.node i).chan addr))]
        held := fun j => n.medium.held j ++ (heard j).toList.map objContent } := by
  have hput := medium_withdraw n i pending
  simp only [medium, Medium.mk.injEq] at hput
  obtain ⟨hoffered, hwaiting, -, hheld⟩ := hput
  simp only [medium, broadcast, Node.hears_accepted, Node.hears_pending, Node.hears_held,
    List.map_append, List.map_cons, List.map_nil, Medium.mk.injEq, true_and]
  exact ⟨hoffered, hwaiting, funext fun j => congrArg (· ++ _) (congrFun hheld j)⟩

theorem broadcast_run {i : ι} {addr : BitVec 32} {m : Content}
    {before after : List (BitVec 32 × Content)} {heard : ι → Option Obj}
    (hi : (n.node i).Intact) (hp : (n.node i).pending = before ++ (addr, m) :: after)
    (hheard : ∀ j o, heard j = some o → Relayed (ramObj (n.node i).chan addr) o) :
    Medium.Run n.medium (n.broadcast i addr (before ++ after) heard).medium := by
  have hm : Carries (ramObj (n.node i).chan addr) m := hi.pending (addr, m) (by simp [hp])
  have hwaiting : n.medium.waiting i = before.map Prod.snd ++ m :: after.map Prod.snd := by
    simp [medium, hp]
  have hhears : (fun j => n.medium.held j ++ (heard j).toList.map objContent) =
      fun j => if (heard j).isSome then n.medium.held j ++ [m] else n.medium.held j := by
    funext j
    cases hj : heard j with
    | none => exact List.append_nil _
    | some o =>
      have ho : objContent o = m := (hheard j o hj).content hm
      simp only [Option.toList_some, List.map_cons, List.map_nil, ho, Option.isSome_some, if_true]
  rw [medium_broadcast, hhears, hm.content, List.map_append]
  exact .single (.send (fun j => (heard j).isSome) hwaiting)

def Intact (n : Network ι) : Prop := ∀ i, (n.node i).Intact

theorem intact_put {i : ι} {x : Node} (h : n.Intact) (hx : x.Intact) : (n.put i x).Intact := by
  intro j
  obtain rfl | hne := eq_or_ne j i
  · rw [put_node_self]
    exact hx
  · rw [put_node_of_ne hne]
    exact h j

theorem node_run {i : ι} {x : Node} (h : n.Intact) (hx : (n.node i).Step x) :
    Medium.Run n.medium (n.put i x).medium ∧ x.Intact := by
  cases hx with
  | call hfree hexec =>
    obtain ⟨htakes, hintact⟩ := Node.called_takes (h i) hfree hexec
    exact ⟨takes_run htakes, hintact⟩
  | handler hexec =>
    exact ⟨takes_run (.nothing (handler_shrinks _ _ _ _ _ hexec)),
      (h i).of_ram (handler_ram hexec)⟩
  | @hardware hw hfifo =>
    have hshrinks : Shrinks (n.node i).chan ((n.node i).chan.sense hw) :=
      (hfifo.map objContent).append_left _
    exact ⟨takes_run (.nothing hshrinks), (h i).of_ram rfl⟩
  | withdraw hp =>
    rw [medium_withdraw]
    exact ⟨.single (.withdraw_at (hp.map Prod.snd)),
      fun e he => (h i).pending e (hp.subset he), (h i).accepted⟩

theorem step_run (h : n.Intact) (hstep : Step n t) : Medium.Run n.medium t.medium ∧ t.Intact := by
  cases hstep with
  | node hx =>
    obtain ⟨hrun, hintact⟩ := node_run h hx
    exact ⟨hrun, intact_put h hintact⟩
  | @broadcast i addr m before after heard hp hheard =>
    have hsub : (before ++ after).Sublist (n.node i).pending :=
      hp ▸ (List.sublist_cons_self _ after).append_left before
    have hput : (n.put i { n.node i with pending := before ++ after }).Intact :=
      intact_put h ⟨fun e he => (h i).pending e (hsub.subset he), (h i).accepted⟩
    exact ⟨broadcast_run (h i) hp hheard, fun j => (hput j).hears (heard j)⟩

theorem run_medium (h : Run n t) (hn : n.Intact) : Medium.Run n.medium t.medium ∧ t.Intact := by
  induction h with
  | refl => exact ⟨.refl, hn⟩
  | tail _ hstep ih =>
    obtain ⟨hrun, hintact⟩ := step_run ih.2 hstep
    exact ⟨ih.1.trans hrun, hintact⟩

theorem run_sound {dev : ι → Device} (h : Run (boot dev) n) : n.medium.Sound ∧ n.Intact := by
  have hboot : (boot dev).Intact := fun i =>
    ⟨fun _ he => absurd he List.not_mem_nil, fun _ hm => absurd hm List.not_mem_nil⟩
  have hempty : (boot dev).medium = Medium.empty := rfl
  obtain ⟨hrun, hintact⟩ := run_medium h hboot
  exact ⟨hrun.sound (hempty ▸ Medium.sound_empty), hintact⟩

inductive Command (ι : Type) : Type
  | call (i : ι) (env : Env) (call : Call)
  | handler (i : ι)
  | flag (i : ι)
  | send (i : ι)

def fire (n : Network ι) : Command ι → Option (Network ι)
  | .call i env call => match (call.run env).exec (n.node i).chan with
    | .ok (r, d) => if (n.node i).pending.isEmpty then some (n.put i ((n.node i).called call r d)) else none
    | .error _ => none
  | .handler i => match (handler (fun _ => []) zeroFrame).exec (n.node i).chan with
    | .ok ((), d) => some (n.put i { n.node i with chan := d })
    | .error _ => none
  | .flag i =>
    let hw := { exampleArrival with rxFifo := (n.node i).chan.rxFifo }
    some (n.put i { n.node i with chan := (n.node i).chan.sense hw })
  | .send i => match (n.node i).pending with
    | (addr, _) :: after => some (n.broadcast i addr after fun _ => some (ramObj (n.node i).chan addr))
    | [] => none

theorem fire_step {e : Command ι} (h : n.fire e = some t) : Step n t := by
  cases e with
  | call i env call =>
    simp only [fire] at h
    split at h
    next r d hexec =>
      split at h
      next hempty =>
        cases h
        have hnil := List.isEmpty_iff.mp hempty
        exact .node (.call (fun _ e he => absurd (hnil ▸ he) List.not_mem_nil) hexec)
      next => cases h
    next => cases h
  | handler i =>
    simp only [fire] at h
    split at h
    next hexec =>
      cases h
      exact .node (.handler hexec)
    next => cases h
  | flag i =>
    cases h
    exact .node (.hardware (List.Sublist.refl _))
  | send i =>
    simp only [fire] at h
    split at h
    next addr m after hp =>
      cases h
      have hheard : ∀ j o, (fun _ : ι => some (ramObj (n.node i).chan addr)) j = some o →
          Relayed (ramObj (n.node i).chan addr) o := fun _ o ho => by
        cases ho
        exact .refl _
      rw [← List.nil_append after]
      exact .broadcast hp hheard
    next => cases h

theorem run_of_play (dev : ι → Device) (es : List (Command ι)) (p : Network ι → Bool)
    (h : (play fire es (boot dev)).map p = some true) : ∃ n, Run (boot dev) n ∧ p n = true :=
  Lib.run_of_play (fun _ _ _ => fire_step) es p h

end Network

variable {ι : Type} [DecidableEq ι]

/-- What any node has got of the bus went over it, in that order; and what went over it for a
node, or still waits there, was accepted there, each message at most once. -/
theorem bus_integrity (dev : ι → Device) {n : Network ι} (h : Network.Run (.boot dev) n) :
    (∀ j, (n.node j).chan.held.Sublist (n.sent.map fun p => objContent p.2)) ∧
      ∀ i, (((n.sent.filter fun p => p.1 = i).map fun p => objContent p.2) ++
        (n.node i).pending.map Prod.snd).Subperm ((n.node i).accepted.map Message.content) := by
  obtain ⟨hsound, -⟩ := Network.run_sound h
  refine ⟨fun j => ?_, fun i => ?_⟩
  · have hheld := hsound.held j
    simpa [Network.medium, Function.comp_def] using hheld
  · have hsent := hsound.sent i
    simpa [Network.medium, Medium.sentBy, Function.comp_def, List.filter_map] using hsent

def Network.exchange : List (Network.Command Bool) :=
  (powerUp.map fun q => .call false q.1 q.2) ++ (powerUp.map fun q => .call true q.1 q.2) ++
    [.call true (granting .normalFd) (.canMessageSend objTx
        (some ⟨0x80000123, false, true, true, false, 9⟩) (some fun _ => 0xA5) 9),
      .send true, .flag false, .handler false]

theorem bus_integrity_example : ∃ n : Network Bool, Network.Run (.boot fun _ => exampleDevice) n ∧
    n.sent.length = 1 ∧ (n.node false).chan.held.Sublist (n.sent.map fun p => objContent p.2) ∧
    (n.node false).chan.held.length = 1 := by
  obtain ⟨n, hrun, hp⟩ := Network.run_of_play (fun _ => exampleDevice) Network.exchange
    (fun n => decide (n.sent.length = 1) && decide ((n.node false).chan.held.length = 1))
    (by decide +kernel)
  simp only [Bool.and_eq_true, decide_eq_true_eq] at hp
  exact ⟨n, hrun, hp.1, (bus_integrity (fun _ => exampleDevice) hrun).1 false, hp.2⟩

/-- Whatever a `MessageRead` hands out at any node is a message that was accepted at some node. -/
theorem messages_arrive (dev : ι → Device) {n : Network ι} (h : Network.Run (.boot dev) n) {j : ι}
    {args : ReadArgs} {r : ReadResult} {d : Chan}
    (hread : (canMessageRead args).exec (n.node j).chan = .ok (r, d)) (hr : 0 ≤ r.code) :
    ∃ i, ∃ m ∈ (n.node i).accepted, m.Arrives args r := by
  obtain ⟨hsound, hintact⟩ := Network.run_sound h
  obtain ⟨-, -, f, fs, hq, rfl⟩ := canMessageRead_ok hread hr
  have hheld : f.content ∈ n.medium.held j := by
    have hqueue : f ∈ (n.node j).chan.handed ++ (n.node j).chan.queue := by simp [hq]
    exact List.mem_append_left _ (List.mem_map_of_mem hqueue)
  obtain ⟨⟨i, m⟩, hsent, hm⟩ := List.mem_map.mp ((hsound.held j).subset hheld)
  have hby : m ∈ Medium.sentBy i n.medium.sent ++ n.medium.waiting i :=
    List.mem_append_left _ (List.mem_map.mpr ⟨(i, m), by simp [hsent], rfl⟩)
  obtain ⟨msg, hmsg, heq⟩ := List.mem_map.mp ((hsound.sent i).subset hby)
  exact ⟨i, msg, hmsg, Message.arrives ((hintact i).accepted msg hmsg) (hm.symm.trans heq.symm) args⟩

theorem messages_arrive_example : ∃ (n : Network Bool) (args : ReadArgs) (r : ReadResult) (d : Chan),
    Network.Run (.boot fun _ => exampleDevice) n ∧
      (canMessageRead args).exec (n.node false).chan = .ok (r, d) ∧ r.code = 12 ∧
      ∃ i, ∃ m ∈ (n.node i).accepted, m.Arrives args r := by
  obtain ⟨n, hrun, hp⟩ := Network.run_of_play (fun _ => exampleDevice) Network.exchange
    (fun n => (canMessageRead ⟨objRx, true, some fun _ => 0, 64⟩).ends (n.node false).chan
      fun r _ => decide (r.code = 12)) (by decide +kernel)
  obtain ⟨r, d, hread, hr⟩ := Prog.ends_iff.mp hp
  have hcode := of_decide_eq_true hr
  exact ⟨n, _, r, d, hrun, hread, hcode,
    messages_arrive (fun _ => exampleDevice) hrun hread (by rw [hcode]; decide)⟩

end CanfdDriver
