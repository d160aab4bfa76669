import CanfdDriver.Bus.Held
import CanfdDriver.Cmsis.Sending
import CanfdDriver.System.MessageRam

/-! A node of the bus: an instance with the objects that its controller has
queued in the message RAM, each as it was when its message was accepted. -/

namespace CanfdDriver

open Lib NoraCanfd Cmsis

section

variable {c d : Chan} {α : Type} {a : α}

theorem ram_of_blind {q : M α} (h : ∀ r, Prog.Blind (outside (fun _ => False) r) q)
    (hexec : q.exec c = .ok (a, d)) : d.ram = c.ram := by
  have hself : c = outside (fun _ => False) c.ram c := (outside_self c).symm
  obtain ⟨e, he, -⟩ | ⟨b, s, t, hs, -, rfl⟩ := (h c.ram).exec hself
  · cases he.symm.trans hexec
  · cases hs.symm.trans hexec
    exact funext fun x => outside_ram_of_not (fun hx => hx) t

theorem Cmsis.handler_ram {app : App} {f : Frame} (h : (handler app f).exec c = .ok ((), d)) :
    d.ram = c.ram := ram_of_blind (fun _ => handler_blind app f) h

theorem Cmsis.call_ram {env : Env} {call : Call} {r : Int}
    (hsend : ∀ objIdx info data size, call ≠ .canMessageSend objIdx info data size)
    (h : (call.run env).exec c = .ok (r, d)) : d.ram = c.ram := by
  refine ram_of_blind (fun _ => ?_) h
  cases call with
  | canInitialize => exact canInitialize_blind _ _
  | canUnInitialize => exact canUnInitialize_blind
  | canPowerControl => exact canPowerControl_blind _
  | canSetBitrate => exact canSetBitrate_blind _ _ _
  | canSetMode => exact canSetMode_blind _
  | canControl => exact canControl_blind _ _
  | canMessageSend => exact absurd rfl (hsend _ _ _ _)
  | canMessageRead => exact .bind (canMessageRead_blind _) fun _ => .pure _

end

namespace NoraCanfd

variable {c : Chan}

theorem stored_ram (addr : BitVec 32) (obj : Obj) {n : Nat} (hn : n ≤ 18) :
    (∀ k, k < n → (stored c addr obj n).ram (objAddr addr k) = obj k) ∧
      ∀ a, (∀ k, k < n → a ≠ objAddr addr k) → (stored c addr obj n).ram a = c.ram a := by
  induction n with
  | zero => exact ⟨fun k hk => absurd hk (Nat.not_lt_zero k), fun _ _ => rfl⟩
  | succ n ih =>
    obtain ⟨hin, hout⟩ := ih (by omega)
    refine ⟨fun k hk => ?_, fun a ha => ?_⟩
    · rw [stored, Chan.writeRam_ram]
      obtain rfl | hlt := Nat.eq_or_lt_of_le (Nat.le_of_lt_succ hk)
      · exact Function.update_self _ _ _
      · have hne : objAddr addr k ≠ objAddr addr n := fun h =>
          Nat.ne_of_lt hlt (objAddr_inj (by change k < 144; omega) (by change n < 144; omega) h)
        rw [Function.update_of_ne hne]
        exact hin k hlt
    · rw [stored, Chan.writeRam_ram, Function.update_of_ne (ha n (Nat.lt_succ_self n))]
      exact hout a fun k hk => ha k (Nat.lt_succ_of_lt hk)

/-- The two objects have no word in common. -/
def Apart (addr addr' : BitVec 32) : Prop :=
  ∀ k l, k < 18 → l < 18 → objAddr addr k ≠ objAddr addr' l

theorem queued_carries {f : Frame} (hlen : f.len ≤ payloadBytes) :
    Carries (ramObj (queued c f) (c.regs .txqua)) f.carried ∧
      ∀ addr m, Apart addr (c.regs .txqua) → Carries (ramObj c addr) m →
        Carries (ramObj (queued c f) addr) m := by
  have hn := sentCount_le hlen
  obtain ⟨hin, hout⟩ := stored_ram (c := c) (c.regs .txqua) (sentObj f) hn
  refine ⟨carries_sent hlen hin, fun addr m hapart hm => hm.of_words fun k hk => ?_⟩
  exact hout _ fun l hl => hapart k l hk (Nat.lt_of_lt_of_le hl hn)

end NoraCanfd

structure Message : Type where
  info : MsgInfo
  data : Option (Nat → BitVec 8)
  size : Nat

def Message.content (m : Message) : Content :=
  (sendFrame m.info (m.data.getD fun _ => 0) m.size fun _ => 0).carried

theorem messageFrame_carried (m : Message) (env : Env) :
    (messageFrame m.info m.data m.size env).carried = m.content := by
  have hpad (buffer : Nat → BitVec 8) :
      (sendFrame m.info (m.data.getD fun _ => 0) m.size buffer).padded =
        fun i => if i < m.size then (m.data.getD fun _ => 0) i else 0 :=
    funext fun i => padded_sendFrame _ _ _ i
  rw [Message.content, Frame.carried, Frame.carried, hpad, hpad]
  rfl

def Message.len (m : Message) : Nat := dlcToLen (lenToDlc m.size)

def Message.padded (m : Message) (i : Nat) : BitVec 8 :=
  if i < m.size then m.data.getD (fun _ => 0) i else 0

structure Message.Fits (m : Message) : Prop where
  size : m.size ≤ payloadBytes
  classic : m.info.edl = true ∨ m.size ≤ 8

theorem Message.Fits.busLen {m : Message} (h : m.Fits) : busLen m.info.edl m.len = m.len := by
  have hcodes : ∀ n, n ≤ 8 → dlcToLen (lenToDlc n) = n := by decide
  obtain hfd | hsize := h.classic
  · rw [NoraCanfd.busLen, if_pos hfd]
  · rw [NoraCanfd.busLen, Message.len, hcodes _ hsize, Nat.min_eq_right hsize, ite_self]

/-- `r` hands out the message `m` as far as the buffer has room. -/
structure Message.Arrives (m : Message) (args : ReadArgs) (r : ReadResult) : Prop where
  code : r.code = min m.len args.size
  info : ∃ dlc : BitVec 4, dlcToLen dlc.toNat = m.len ∧ r.info = some
    { id := canonicalId m.info.id, rtr := false, edl := m.info.edl, brs := m.info.edl && m.info.brs,
      esi := false, dlc := dlc }
  data : ∀ out, r.data = some out →
    ∀ i, i < m.len → i < args.size → out i = m.padded i

theorem Message.arrives {m : Message} {f : Frame} (hm : m.Fits)
    (h : f.content = m.content) (args : ReadArgs) : m.Arrives args (deliver f args) := by
  let sent : Frame := sendFrame m.info (m.data.getD fun _ => 0) m.size fun _ => 0
  let g : Frame := sent.echoed f
  have hg : f.content = g.content := h.trans (content_echoed _ f).symm
  have hinfo : frameInfo f = frameInfo g := by
    simp only [frameInfo, show f.id = g.id from congrArg Content.id hg,
      show f.extended = g.extended from congrArg Content.extended hg,
      show f.fd = g.fd from congrArg Content.fd hg, show f.brs = g.brs from congrArg Content.brs hg,
      show f.len = g.len from congrArg Content.len hg]
  have hlen : f.len = m.len := congrArg Content.len hg
  have hecho : Echo m.info _ m.size m.len _ :=
    deliver_echoed hm.size (m.data.getD fun _ => 0) (fun _ => 0) (fun _ => 0) f
  obtain ⟨dlc, hdlc, hout⟩ := hecho.info
  refine ⟨?_, ⟨dlc, hdlc, (congrArg some hinfo).trans hout⟩, fun out hdata i hi hsize => ?_⟩
  · simp only [deliver, hlen, Nat.min_def]
    grind
  · obtain ⟨dst, -, rfl⟩ := Option.map_eq_some_iff.mp hdata
    have hfd : f.fd = m.info.edl := congrArg Content.fd hg
    have hpayload : f.data i = g.data i := by
      refine data_of_content hg ?_
      rw [hfd, hlen, hm.busLen]
      exact hi
    have hn : i < if f.len < args.size then f.len else args.size := by
      split <;> omega
    rw [copyBytes_apply, if_pos hn, hpayload]
    exact (if_pos hi).trans (padded_sendFrame m.info _ _ i)

structure Node : Type where
  chan : Chan
  /-- The objects in the transmit queue: where they are, and what they were queued for. -/
  pending : List (BitVec 32 × Content)
  accepted : List Message

namespace Node

def called (x : Node) (call : Call) (r : Int) (d : Chan) : Node :=
  match call with
  | .canMessageSend _ (some info) data size =>
    if 0 ≤ r then
      let m : Message := ⟨info, data, size⟩
      ⟨d, x.pending ++ [(x.chan.regs .txqua, m.content)], x.accepted ++ [m]⟩
    else { x with chan := d }
  | _ => { x with chan := d }

def Free (x : Node) : Prop := ∀ e ∈ x.pending, Apart e.1 (x.chan.regs .txqua)

structure Intact (x : Node) : Prop where
  pending : ∀ e ∈ x.pending, Carries (ramObj x.chan e.1) e.2
  accepted : ∀ m ∈ x.accepted, m.Fits

variable {x y : Node}

theorem Intact.of_ram (h : x.Intact) {d : Chan} (hram : d.ram = x.chan.ram) :
    Node.Intact { x with chan := d } := by
  refine ⟨fun e he => (h.pending e he).of_words fun k _ => ?_, h.accepted⟩
  rw [ramObj, hram]
  rfl

/-- A node may lose some of what it holds, and have one more message to send. -/
inductive Takes (x : Node) : Node → Prop
  | nothing {d : Chan} : Shrinks x.chan d → Takes x { x with chan := d }
  | message {d : Chan} {addr : BitVec 32} (m : Message) : Shrinks x.chan d →
      Takes x ⟨d, x.pending ++ [(addr, m.content)], x.accepted ++ [m]⟩

def Accepts (call : Call) (r : Int) : Prop :=
  0 ≤ r ∧ ∃ objIdx info data size, call = .canMessageSend objIdx info data size

variable {env : Env} {call : Call} {r : Int} {d : Chan}

theorem called_of_not (h : ¬Accepts call r) : x.called call r d = { x with chan := d } := by
  cases call with
  | canMessageSend objIdx info data size =>
    cases info with
    | none => rfl
    | some info => exact if_neg fun hr => h ⟨hr, _, _, _, _, rfl⟩
  | _ => rfl

theorem called_chan (x : Node) (call : Call) (r : Int) (d : Chan) : (x.called call r d).chan = d := by
  by_cases h : Accepts call r
  · obtain ⟨hr, objIdx, info, data, size, rfl⟩ := h
    cases info with
    | none => rfl
    | some info => simp only [called, if_pos hr]
  · rw [called_of_not h]

theorem called_accepted (objIdx : BitVec 32) (i : MsgInfo) (data : Option (Nat → BitVec 8))
    (size : Nat) : x.called (.canMessageSend objIdx (some i) data size) size d =
      ⟨d, x.pending ++ [(x.chan.regs .txqua, (Message.mk i data size).content)],
        x.accepted ++ [⟨i, data, size⟩]⟩ := by
  simp only [called, Int.natCast_nonneg, if_true]

theorem called_takes (hx : x.Intact) (hfree : Accepts call r → x.Free)
    (h : (call.run env).exec x.chan = .ok (r, d)) :
    x.Takes (x.called call r d) ∧ (x.called call r d).Intact := by
  have hshrinks : Shrinks x.chan d := call_shrinks call _ _ _ h
  by_cases hsend : ∃ objIdx info data size, call = .canMessageSend objIdx info data size
  · obtain ⟨objIdx, info, data, size, rfl⟩ := hsend
    rcases canMessageSend_cases h with ⟨hacc, rfl, i, rfl, rfl⟩ | ⟨-, hneg, rfl⟩
    · rw [called_accepted]
      have hlen : (messageFrame i data size env).len ≤ payloadBytes := hacc.length
      obtain ⟨hnew, hold⟩ := queued_carries (c := x.chan) hlen
      refine ⟨.message ⟨i, data, size⟩ hshrinks, fun e he => ?_, fun m hm => ?_⟩
      · obtain he | rfl := List.mem_append.mp he |>.imp_right List.mem_singleton.mp
        · have hapart := hfree ⟨Int.natCast_nonneg size, _, _, _, _, rfl⟩ e he
          exact hold e.1 e.2 hapart (hx.pending e he)
        · exact messageFrame_carried ⟨i, data, size⟩ env ▸ hnew
      · obtain hm | rfl := List.mem_append.mp hm |>.imp_right List.mem_singleton.mp
        · exact hx.accepted m hm
        · obtain ⟨_, hi, -, -, hclassic⟩ := hacc.message
          cases hi
          exact ⟨hacc.length, hclassic⟩
    · rw [called_of_not fun hacc => Int.not_le.mpr hneg hacc.1]
      exact ⟨.nothing hshrinks, hx⟩
  · have hnone : ∀ objIdx info data size, call ≠ .canMessageSend objIdx info data size :=
      fun objIdx info data size hc => hsend ⟨objIdx, info, data, size, hc⟩
    rw [called_of_not fun hacc => hsend hacc.2]
    exact ⟨.nothing hshrinks, hx.of_ram (call_ram hnone h)⟩

end Node

end CanfdDriver
