import CanfdDriver.Hal.Effects
import CanfdDriver.Lib.Bytes

namespace CanfdDriver.NoraCanfd

open Lib

/-! ### Length codes -/

theorem dlcToLen_le : ∀ dlc, dlc < 16 → dlcToLen dlc ≤ payloadBytes := by decide

theorem lenToDlc_lt : ∀ len, len ≤ payloadBytes → lenToDlc len < 16 := by decide

theorem le_dlcToLen_lenToDlc : ∀ len, len ≤ payloadBytes → len ≤ dlcToLen (lenToDlc len) := by decide

def FdLength (n : Nat) : Prop := ∃ dlc, dlc < 16 ∧ n = dlcToLen dlc

theorem dlcToLen_lenToDlc_least {len : Nat} (h : len ≤ payloadBytes) :
    IsLeast {n | len ≤ n ∧ FdLength n} (dlcToLen (lenToDlc len)) := by
  have hleast : ∀ len, len ≤ payloadBytes → ∀ dlc, dlc < 16 → len ≤ dlcToLen dlc →
      dlcToLen (lenToDlc len) ≤ dlcToLen dlc := by decide
  refine ⟨⟨le_dlcToLen_lenToDlc len h, _, lenToDlc_lt len h, rfl⟩, ?_⟩
  rintro _ ⟨hn, dlc, hdlc, rfl⟩
  exact hleast len h dlc hdlc hn

theorem wordCount_dlcToLen_le : ∀ dlc, dlc < 16 → wordCount (dlcToLen dlc) ≤ 16 := by decide

theorem le_four_mul_wordCount (len : Nat) : len ≤ 4 * wordCount len := by
  rw [wordCount]
  omega

theorem getLsbD_lowBits {m : BitVec 32} {n : Nat} (hm : m = (BitVec.allOnes n).setWidth 32)
    (hn : n ≤ 32) (i : Nat) : m.getLsbD i = decide (i < n) := by
  rw [hm, BitVec.getLsbD_setWidth, BitVec.getLsbD_allOnes]
  by_cases hi : i < n
  · simp [hi, Nat.lt_of_lt_of_le hi hn]
  · simp [hi]

theorem getLsbD_sidMask (i : Nat) : objidSidMask.getLsbD i = decide (i < 11) :=
  getLsbD_lowBits (by decide) (by decide) i

theorem getLsbD_eidMask (i : Nat) : objidEidMask.getLsbD i = decide (i < 18) :=
  getLsbD_lowBits (by decide) (by decide) i

theorem getLsbD_idMask (i : Nat) : (0x1FFFFFFF#32).getLsbD i = decide (i < 29) :=
  getLsbD_lowBits (by decide) (by decide) i

/-- An identifier as its format carries it. -/
def reducedId (extended : Bool) (id : BitVec 32) : BitVec 32 :=
  if extended then id &&& 0x1FFFFFFF else id &&& 0x7FF

theorem sid_of_split (id : BitVec 32) :
    (((id >>> 18) &&& objidSidMask) ||| ((id &&& objidEidMask) <<< 11)) &&& objidSidMask =
      (id >>> 18) &&& objidSidMask := by
  apply BitVec.eq_of_getLsbD_eq
  intro i hi
  simp only [BitVec.getLsbD_and, BitVec.getLsbD_or, BitVec.getLsbD_shiftLeft,
    BitVec.getLsbD_ushiftRight, getLsbD_sidMask, getLsbD_eidMask]
  grind

theorem eid_of_split (id : BitVec 32) :
    ((((id >>> 18) &&& objidSidMask) ||| ((id &&& objidEidMask) <<< 11)) >>> 11) &&& objidEidMask =
      id &&& objidEidMask := by
  apply BitVec.eq_of_getLsbD_eq
  intro i hi
  simp only [BitVec.getLsbD_and, BitVec.getLsbD_or, BitVec.getLsbD_shiftLeft,
    BitVec.getLsbD_ushiftRight, getLsbD_sidMask, getLsbD_eidMask]
  grind

theorem join_of_split (id : BitVec 32) :
    (((id >>> 18) &&& objidSidMask) <<< 18) ||| (id &&& objidEidMask) = id &&& 0x1FFFFFFF := by
  apply BitVec.eq_of_getLsbD_eq
  intro i hi
  simp only [BitVec.getLsbD_and, BitVec.getLsbD_or, BitVec.getLsbD_shiftLeft,
    BitVec.getLsbD_ushiftRight, getLsbD_sidMask, getLsbD_eidMask, BitVec.ofNat_eq_ofNat,
    getLsbD_idMask]
  obtain hlow | hhigh := Nat.lt_or_ge i 18
  · simp [hlow, show i < 29 by omega]
  · have hback : 18 + (i - 18) = i := by omega
    simp only [hback]
    grind

theorem parseIdWord_buildIdWord (f g : Frame) :
    parseIdWord (buildIdWord f) f.extended g =
      { g with extended := f.extended, id := reducedId f.extended f.id } := by
  have hid : (parseIdWord (buildIdWord f) f.extended g).id = reducedId f.extended f.id := by
    cases hx : f.extended with
    | false =>
      simp only [parseIdWord, buildIdWord, hx, reducedId, Bool.false_eq_true, if_false, objidSidPos,
        BitVec.shiftLeft_zero, BitVec.ushiftRight_zero, BitVec.and_assoc, BitVec.and_self]
      rfl
    | true =>
      simp only [parseIdWord, buildIdWord, hx, reducedId, if_true, objidSidPos, objidEidPos,
        BitVec.shiftLeft_zero, BitVec.ushiftRight_zero]
      rw [sid_of_split, eid_of_split, join_of_split]
  rw [← hid]
  rfl

def ctrlDlc (ctrl : BitVec 32) : Nat := (ctrl &&& objctrlDlcMask).toNat

theorem ctrlDlc_lt (ctrl : BitVec 32) : ctrlDlc ctrl < 16 := by
  have h : ctrlDlc ctrl ≤ 15 := by
    rw [ctrlDlc, BitVec.toNat_and]
    exact Nat.and_le_right
  omega

structure CtrlOf (f : Frame) (dlc : Nat) (ctrl : BitVec 32) : Prop where
  dlc : ctrlDlc ctrl = dlc
  ide : decide (ctrl &&& objctrlIde ≠ 0) = f.extended
  fdf : decide (ctrl &&& objctrlFdf ≠ 0) = f.fd
  brs : decide (ctrl &&& objctrlBrs ≠ 0) = (f.fd && f.brs)

theorem buildCtrl_fields (f : Frame) {dlc : Nat} (h : dlc < 16) :
    CtrlOf f dlc (buildCtrl f dlc) := by
  have hbits : ∀ dlc, dlc < 16 → ∀ extended fd brs : Bool,
      let ctrl : BitVec 32 := (BitVec.ofNat 32 dlc &&& objctrlDlcMask)
        ||| (if extended then objctrlIde else 0) ||| (if fd then objctrlFdf else 0)
        ||| (if fd && brs then objctrlBrs else 0)
      ctrlDlc ctrl = dlc ∧ decide (ctrl &&& objctrlIde ≠ 0) = extended ∧
        decide (ctrl &&& objctrlFdf ≠ 0) = fd ∧
        decide (ctrl &&& objctrlBrs ≠ 0) = (fd && brs) := by decide
  obtain ⟨hd, hi, hf, hb⟩ := hbits dlc h f.extended f.fd f.brs
  exact ⟨hd, hi, hf, hb⟩

/-! ### The payload -/

def objByte (obj : Obj) (i : Nat) : BitVec 8 := byteAt (obj (2 + i / 4)) (i % 4)

def Frame.padded (f : Frame) (i : Nat) : BitVec 8 := if i < f.len then f.data i else 0

theorem padded_shiftLeft (f : Frame) (i k : Nat) :
    (if i < f.len then (f.data i).setWidth 32 <<< k else 0) = (f.padded i).setWidth 32 <<< k := by
  rw [Frame.padded]
  split <;> simp

theorem packWord_eq (f : Frame) (n : Nat) :
    packWord f n = packBytes 32 (fun k => f.padded (n * 4 + k)) 4 := by
  have h0 := padded_shiftLeft f (n * 4 + 0) 0
  rw [BitVec.shiftLeft_zero] at h0
  simp only [packWord, h0, padded_shiftLeft, packBytes]
  rw [show (0 : BitVec 32) = 0#32 from rfl, BitVec.zero_or]

theorem byteAt_packWord (f : Frame) (i : Nat) : byteAt (packWord f (i / 4)) (i % 4) = f.padded i := by
  rw [packWord_eq, byteAt_packBytes _ (by decide) (Nat.mod_lt i (by decide)), Nat.div_add_mod']

theorem storeByte_apply (len : Nat) (data : Nat → BitVec 8) (word : BitVec 32) (n k i : Nat) :
    storeByte len data (n * 4 + k) (word >>> (8 * k)) i =
      if i = n * 4 + k ∧ i < len then byteAt word k else data i := by
  have hbyte : ((word >>> (8 * k)) &&& 0xFF).setWidth 8 = byteAt word k := by
    apply BitVec.eq_of_getLsbD_eq
    intro j hj
    have hmask := getLsbD_lowBits (m := 0xFF) (n := 8) (by decide) (by decide) j
    rw [byteAt, BitVec.getLsbD_setWidth, BitVec.getLsbD_and, hmask, BitVec.getLsbD_setWidth]
    simp [hj]
  rw [storeByte, hbyte]
  by_cases hk : n * 4 + k < len
  · rw [if_pos hk, Function.update_apply]
    by_cases hi : i = n * 4 + k
    · rw [if_pos hi, if_pos ⟨hi, hi ▸ hk⟩]
    · rw [if_neg hi, if_neg fun h => hi h.1]
  · have hout : ¬(i = n * 4 + k ∧ i < len) := fun h => hk (h.1 ▸ h.2)
    rw [if_neg hk, if_neg hout]

theorem unpackWord_apply (len : Nat) (data : Nat → BitVec 8) (n : Nat) (word : BitVec 32) (i : Nat) :
    unpackWord len data n word i =
      if i / 4 = n ∧ i < len then byteAt word (i % 4) else data i := by
  have h0 := storeByte_apply len data word n 0
  have h1 (data : Nat → BitVec 8) := storeByte_apply len data word n 1
  have h2 (data : Nat → BitVec 8) := storeByte_apply len data word n 2
  have h3 (data : Nat → BitVec 8) := storeByte_apply len data word n 3
  rw [Nat.mul_zero, BitVec.ushiftRight_zero] at h0
  simp only [Nat.mul_one, Nat.reduceMul] at h1 h2 h3
  simp only [unpackWord, h0, h1, h2, h3]
  by_cases hn : i / 4 = n
  · obtain rfl | rfl | rfl | rfl :
        i = n * 4 + 0 ∨ i = n * 4 + 1 ∨ i = n * 4 + 2 ∨ i = n * 4 + 3 := by omega
    all_goals simp [Nat.mul_add_div, Nat.mul_comm n 4]
  · have hk : ∀ k, k < 4 → i ≠ n * 4 + k := by omega
    simp only [hn, hk 0, hk 1, hk 2, hk 3, Nat.reduceLT, false_and, if_false]

theorem readPayload_apply (obj : Obj) (len : Nat) (data : Nat → BitVec 8) (n i : Nat) :
    readPayload obj len data n i = if i < 4 * n ∧ i < len then objByte obj i else data i := by
  induction n with
  | zero => simp [readPayload]
  | succ n ih =>
    rw [readPayload, unpackWord_apply, ih]
    by_cases hn : i / 4 = n
    · subst hn
      have hi : i < 4 * (i / 4 + 1) := by omega
      have hi' : ¬i < 4 * (i / 4) := by omega
      simp only [hi, hi', objByte, true_and, false_and, if_false]
    · have hi : i < 4 * (n + 1) ↔ i < 4 * n := by omega
      simp only [hn, hi, false_and, if_false]

theorem parseObj_len (obj : Obj) (g : Frame) : (parseObj obj g).len = dlcToLen (ctrlDlc (obj 1)) :=
  Nat.min_eq_left (dlcToLen_le _ (ctrlDlc_lt _))

theorem parseObj_data (obj : Obj) (g : Frame) (i : Nat) :
    (parseObj obj g).data i = if i < (parseObj obj g).len then objByte obj i else g.data i := by
  change readPayload obj _ g.data (wordCount _) i = _
  rw [readPayload_apply]
  have hi : i < 4 * wordCount (parseObj obj g).len ∧ i < (parseObj obj g).len ↔
      i < (parseObj obj g).len :=
    and_iff_right_of_imp fun h => Nat.lt_of_lt_of_le h (le_four_mul_wordCount _)
  exact if_congr hi rfl rfl

theorem parseObj_congr {obj obj' : Obj} (h0 : obj' 0 = obj 0) (h1 : obj' 1 = obj 1) (g : Frame)
    (hb : ∀ i, i < dlcToLen (ctrlDlc (obj 1)) → objByte obj' i = objByte obj i) :
    parseObj obj' g = parseObj obj g := by
  have hlen : (parseObj obj' g).len = (parseObj obj g).len := by
    rw [parseObj_len, parseObj_len, h1]
  have hdata : (parseObj obj' g).data = (parseObj obj g).data := by
    funext i
    rw [parseObj_data, parseObj_data, hlen]
    split
    next hi => exact hb i (parseObj_len obj g ▸ hi)
    next => rfl
  apply Frame.ext
  case len => exact hlen
  case data => exact hdata
  all_goals simp only [parseObj, h0, h1]

theorem parseObj_words {obj obj' : Obj} (h : ∀ i, i < 18 → obj' i = obj i) (g : Frame) :
    parseObj obj' g = parseObj obj g := by
  refine parseObj_congr (h 0 (by decide)) (h 1 (by decide)) g fun i hi => ?_
  have hlen := dlcToLen_le _ (ctrlDlc_lt (obj 1))
  have hi : 2 + i / 4 < 18 := by
    rw [payloadBytes] at hlen
    omega
  rw [objByte, objByte, h _ hi]

/-! ### Sent and received -/

def Frame.sentLen (f : Frame) : Nat := dlcToLen (lenToDlc f.len)

/-- The object that `nora_canfd_transmit` writes. -/
def sentObj (f : Frame) : Obj
  | 0 => buildIdWord f
  | 1 => buildCtrl f (lenToDlc f.len)
  | w + 2 => packWord f w

theorem sentObj_add_two (f : Frame) (n : Nat) : sentObj f (2 + n) = packWord f n := by
  rw [Nat.add_comm]
  rfl

def sentCount (f : Frame) : Nat := 2 + wordCount f.sentLen

def Frame.echoed (f g : Frame) : Frame where
  id := reducedId f.extended f.id
  extended := f.extended
  fd := f.fd
  brs := f.fd && f.brs
  len := f.sentLen
  data i := if i < f.sentLen then f.padded i else g.data i

theorem objByte_sentObj (f : Frame) (i : Nat) : objByte (sentObj f) i = f.padded i := by
  rw [objByte, Nat.add_comm 2]
  exact byteAt_packWord f i

theorem parseObj_sentObj {f : Frame} (h : f.len ≤ payloadBytes) (g : Frame) :
    parseObj (sentObj f) g = f.echoed g := by
  have hctrl := buildCtrl_fields f (lenToDlc_lt f.len h)
  have hlen : (parseObj (sentObj f) g).len = f.sentLen := by
    rw [parseObj_len]
    exact congrArg dlcToLen hctrl.dlc
  have hdata : (parseObj (sentObj f) g).data = (f.echoed g).data := by
    funext i
    rw [parseObj_data, hlen, objByte_sentObj]
    rfl
  have hide : decide (sentObj f 1 &&& objctrlIde ≠ 0) = f.extended := hctrl.ide
  have hid : parseIdWord (sentObj f 0) (decide (sentObj f 1 &&& objctrlIde ≠ 0)) g =
      { g with extended := f.extended, id := reducedId f.extended f.id } := by
    rw [hide]
    exact parseIdWord_buildIdWord f g
  have hid' := congrArg Frame.id hid
  have hext := congrArg Frame.extended hid
  apply Frame.ext
  case id => exact hid'
  case extended => exact hext
  case fd => exact hctrl.fdf
  case brs => exact hctrl.brs
  case len => exact hlen
  case data => exact hdata

theorem sentCount_le {f : Frame} (h : f.len ≤ payloadBytes) : sentCount f ≤ 18 :=
  Nat.add_le_add_left (wordCount_dlcToLen_le _ (lenToDlc_lt f.len h)) 2

theorem parseObj_sent {f : Frame} (h : f.len ≤ payloadBytes) {obj : Obj}
    (hobj : ∀ i, i < sentCount f → obj i = sentObj f i) (g : Frame) :
    parseObj obj g = f.echoed g := by
  have hctrl := buildCtrl_fields f (lenToDlc_lt f.len h)
  rw [← parseObj_sentObj h g]
  have htwo : 2 ≤ sentCount f := Nat.le_add_right 2 _
  refine parseObj_congr (hobj 0 (by omega)) (hobj 1 (by omega)) g fun i hi => ?_
  have hlen : dlcToLen (ctrlDlc (sentObj f 1)) = f.sentLen := congrArg dlcToLen hctrl.dlc
  have hword : 2 + i / 4 < sentCount f := by
    rw [hlen] at hi
    rw [sentCount, wordCount]
    omega
  rw [objByte, objByte, hobj _ hword]

/-! ### Transmission -/

def objWrites (addr : BitVec 32) (obj : Obj) (n : Nat) : List Obs :=
  (List.range n).map fun i => .ramWrite (objAddr addr i) (obj i)

variable {c d : Chan}

theorem objWrites_add_two (addr : BitVec 32) (obj : Obj) (n : Nat) :
    objWrites addr obj (2 + n) = .ramWrite (objAddr addr 0) (obj 0) ::
      .ramWrite (objAddr addr 1) (obj 1) ::
      (List.range n).map fun w => .ramWrite (objAddr addr (2 + w)) (obj (2 + w)) := by
  rw [objWrites, List.range_add, List.map_append, List.map_map]
  rfl

@[simp] theorem exec_writeObj (addr : BitVec 32) (i : Nat) (word : BitVec 32) :
    (writeObj addr i word).exec c = .ok ((), c.writeRam (objAddr addr i) word) := rfl

def stored (c : Chan) (addr : BitVec 32) (obj : Obj) : Nat → Chan
  | 0 => c
  | n + 1 => (stored c addr obj n).writeRam (objAddr addr n) (obj n)

@[simp] theorem stored_regs (addr : BitVec 32) (obj : Obj) (n : Nat) :
    (stored c addr obj n).regs = c.regs := by
  induction n with
  | zero => rfl
  | succ n ih => exact ih

theorem stored_trace (addr : BitVec 32) (obj : Obj) (n : Nat) :
    (stored c addr obj n).trace = c.trace ++ objWrites addr obj n := by
  induction n with
  | zero => exact (List.append_nil c.trace).symm
  | succ n ih =>
    have hlast : objWrites addr obj (n + 1) = objWrites addr obj n ++ [.ramWrite (objAddr addr n) (obj n)] := by
      rw [objWrites, List.range_succ, List.map_append]
      rfl
    rw [stored, Chan.writeRam_trace, ih, hlast, List.append_assoc]

/-- One object in the queue: its words at `TXQUA`, and the request to send it. -/
def queued (c : Chan) (f : Frame) : Chan :=
  (((stored c (c.regs .txqua) (sentObj f) (sentCount f)).log .uinc).setReg .txqcon
    (c.regs .txqcon ||| fifoconTxreq)).log .txreq

theorem queued_trace (f : Frame) : (queued c f).trace =
    c.trace ++ objWrites (c.regs .txqua) (sentObj f) (sentCount f) ++ [.uinc, .txreq] := by
  rw [queued, Chan.log_trace, Chan.setReg_trace, Chan.log_trace, stored_trace, List.append_assoc _ [_]]
  rfl

theorem exec_writePayload (addr : BitVec 32) (f : Frame) (n : Nat) :
    (writePayload addr f n).exec
        ((c.writeRam (objAddr addr 0) (buildIdWord f)).writeRam (objAddr addr 1)
          (buildCtrl f (lenToDlc f.len))) =
      .ok ((), stored c addr (sentObj f) (2 + n)) := by
  induction n with
  | zero => rfl
  | succ n ih =>
    rw [writePayload, Prog.exec_bind_of_ok ih, exec_writeObj, ← Nat.add_assoc, stored, sentObj_add_two]

def roomResult (n : NodeState) (room : Poll) : Except Stop Status :=
  pollResult n (fun v => v &&& fifostaTfnrfnif ≠ 0) (if n.getMs then room.start else 0) room.samples

theorem exec_waitRoom (room : Poll) :
    (waitFlag fifostaTfnrfnif room).exec c = (roomResult c.node room).map (·, c) := by
  simp only [waitFlag, startTick, Prog.exec_bind, Prog.exec_get, Prog.exec_pure, exec_pollUntil]
  rfl

structure Sendable (c : Chan) (f : Frame) : Prop where
  len : f.len ≤ payloadBytes
  classic : f.fd = false → f.len ≤ 8
  initialized : c.node.initialized = true

theorem exec_transmit {f : Frame} (h : Sendable c f) (room : Poll) :
    (transmit (some f) room).exec c =
      (roomResult c.node room).map fun st => (st, if st = .ok then queued c f else c) := by
  have hclassic : ¬(!f.fd && decide (f.len > 8)) = true := by
    rw [Bool.and_eq_true, Bool.not_eq_true', decide_eq_true_eq]
    exact fun hbad => Nat.not_le.mpr hbad.2 (h.classic hbad.1)
  rw [transmit, if_neg (Nat.not_lt.mpr h.len), if_neg hclassic, Prog.exec_bind_of_ok (Prog.exec_get c),
    h.initialized, if_neg (by decide), Prog.exec_bind, exec_waitRoom]
  cases roomResult c.node room with
  | error e => rfl
  | ok st =>
    simp only [Except.map, Prog.exec_ite, ne_eq, ite_not]
    split
    next hst =>
      rw [Prog.exec_bind_of_ok (Prog.exec_get c), Prog.exec_bind_of_ok (exec_writeObj ..),
        Prog.exec_bind_of_ok (exec_writeObj ..), Prog.exec_bind_of_ok (exec_writePayload _ f _)]
      simp only [Prog.exec_bind, Prog.exec_modify, Prog.exec_pure, hst, Chan.log_regs, stored_regs]
      rfl
    next => rfl

theorem transmit_refused {f : Frame} (h : ¬Sendable c f) (room : Poll) :
    ∃ st, st ≠ .ok ∧ (transmit (some f) room).exec c = .ok (st, c) := by
  simp only [transmit, Prog.exec_ite, Prog.exec_bind_of_ok (Prog.exec_get c)]
  split
  next => exact ⟨.invalidArg, by decide, rfl⟩
  next hlen =>
    split
    next => exact ⟨.invalidArg, by decide, rfl⟩
    next hclassic =>
      split
      next => exact ⟨.notInitialized, by decide, rfl⟩
      next hi =>
        refine absurd ⟨Nat.not_lt.mp hlen, fun hfd => ?_, by simpa using hi⟩ h
        simpa [hfd] using hclassic

theorem transmit_ok {f : Frame} {room : Poll} (h : (transmit (some f) room).exec c = .ok (.ok, d)) :
    f.len ≤ payloadBytes ∧ c.node.initialized = true ∧
      d.trace = c.trace ++ objWrites (c.regs .txqua) (sentObj f) (sentCount f) ++ [.uinc, .txreq] := by
  by_cases hs : Sendable c f
  · rw [exec_transmit hs] at h
    cases hr : roomResult c.node room with
    | error e =>
      rw [hr] at h
      cases h
    | ok st =>
      rw [hr] at h
      cases h
      exact ⟨hs.len, hs.initialized, queued_trace f⟩
  · obtain ⟨st, hst, hexec⟩ := transmit_refused hs room
    rw [hexec] at h
    cases h
    exact absurd rfl hst

theorem transmit_congr {f : Frame} {data : Nat → BitVec 8}
    (h : ∀ i, i < f.len → data i = f.data i) (room : Poll) :
    transmit (some { f with data := data }) room = transmit (some f) room := by
  have hpad : Frame.padded { f with data := data } = f.padded := by
    funext i
    simp only [Frame.padded]
    split
    next hi => exact h i hi
    next => rfl
  have hpack : packWord { f with data := data } = packWord f := by
    funext n
    rw [packWord_eq, packWord_eq, hpad]
  have hpayload (addr : BitVec 32) (n : Nat) :
      writePayload addr { f with data := data } n = writePayload addr f n := by
    induction n with
    | zero => rfl
    | succ n ih => rw [writePayload, writePayload, ih, hpack]
  simp only [transmit, hpayload]
  rfl

/-- The payload length of the frame that a control word describes: none for a remote frame, and
at most 8 bytes for a classic one. -/
def carriedLen (ctrl : BitVec 32) : Nat :=
  if ctrl &&& objctrlRtr ≠ 0 then 0
  else if ctrl &&& objctrlFdf ≠ 0 then dlcToLen (ctrlDlc ctrl)
  else min 8 (ctrlDlc ctrl)

/-- A remote frame with length code 0, a classic frame with one up to 8, or an FD data frame. -/
structure PlainDlc (ctrl : BitVec 32) : Prop where
  remote : ctrl &&& objctrlRtr ≠ 0 → ctrlDlc ctrl = 0
  classic : ctrl &&& objctrlRtr = 0 → ctrl &&& objctrlFdf = 0 → ctrlDlc ctrl ≤ 8

theorem dlcToLen_eq_carriedLen_iff (ctrl : BitVec 32) :
    dlcToLen (ctrlDlc ctrl) = carriedLen ctrl ↔ PlainDlc ctrl := by
  have hremote : ∀ dlc, dlc < 16 → (dlcToLen dlc = 0 ↔ dlc = 0) := by decide
  have hclassic : ∀ dlc, dlc < 16 → (dlcToLen dlc = min 8 dlc ↔ dlc ≤ 8) := by decide
  have hlt := ctrlDlc_lt ctrl
  rw [carriedLen]
  split
  next hr =>
    rw [hremote _ hlt]
    exact ⟨fun h => ⟨fun _ => h, fun h0 => absurd h0 hr⟩, fun h => h.remote hr⟩
  next hr =>
    have hr : ctrl &&& objctrlRtr = 0 := not_not.mp hr
    split
    next hf => exact iff_of_true rfl ⟨fun h => absurd hr h, fun _ h0 => absurd h0 hf⟩
    next hf =>
      rw [hclassic _ hlt]
      exact ⟨fun h => ⟨fun h' => absurd hr h', fun _ _ => h⟩, fun h => h.classic hr (not_not.mp hf)⟩

end CanfdDriver.NoraCanfd
