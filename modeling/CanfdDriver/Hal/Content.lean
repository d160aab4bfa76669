import CanfdDriver.Hal.Object

namespace CanfdDriver.NoraCanfd

structure Content : Type where
  id : BitVec 32
  extended : Bool
  fd : Bool
  brs : Bool
  len : Nat
  payload : List (BitVec 8)
  deriving DecidableEq

/-- A classic frame carries at most 8 bytes, whatever its length code. -/
def busLen (fd : Bool) (len : Nat) : Nat := if fd then len else min 8 len

theorem busLen_le (fd : Bool) (len : Nat) : busLen fd len ≤ len := by
  rw [busLen]
  split
  next => exact Nat.le_refl len
  next => exact Nat.min_le_right 8 len

/-- The bytes of a frame past those that it carries are not part of it. -/
def Frame.content (f : Frame) : Content where
  id := f.id
  extended := f.extended
  fd := f.fd
  brs := f.brs
  len := f.len
  payload := (List.range (busLen f.fd f.len)).map f.data

def objContent (obj : Obj) : Content := (parseObj obj ⟨0, false, false, false, 0, fun _ => 0⟩).content

/-- What is sent of a frame: its identifier as its format carries it, and its bytes filled up with
zeros to the next length that there is a code for. -/
def Frame.carried (f : Frame) : Content where
  id := reducedId f.extended f.id
  extended := f.extended
  fd := f.fd
  brs := f.fd && f.brs
  len := f.sentLen
  payload := (List.range (busLen f.fd f.sentLen)).map f.padded

theorem content_congr {f g : Frame} (hid : g.id = f.id) (hext : g.extended = f.extended)
    (hfd : g.fd = f.fd) (hbrs : g.brs = f.brs) (hlen : g.len = f.len)
    (hdata : ∀ i, i < busLen f.fd f.len → g.data i = f.data i) : g.content = f.content := by
  have hpayload : (List.range (busLen f.fd f.len)).map g.data =
      (List.range (busLen f.fd f.len)).map f.data :=
    List.map_congr_left fun i hi => hdata i (List.mem_range.mp hi)
  rw [Frame.content, Frame.content, hid, hext, hfd, hbrs, hlen, hpayload]

theorem data_of_content {f g : Frame} (h : f.content = g.content) {i : Nat}
    (hi : i < busLen f.fd f.len) : f.data i = g.data i := by
  have hfd : f.fd = g.fd := congrArg Content.fd h
  have hlen : f.len = g.len := congrArg Content.len h
  have hpayload : (List.range (busLen f.fd f.len)).map f.data =
      (List.range (busLen f.fd f.len)).map g.data := by
    have hp := congrArg Content.payload h
    rw [Frame.content, Frame.content, ← hfd, ← hlen] at hp
    exact hp
  exact List.map_inj_left.mp hpayload i (List.mem_range.mpr hi)

theorem content_parseObj (obj : Obj) (g : Frame) : (parseObj obj g).content = objContent obj := by
  refine content_congr rfl rfl rfl rfl ?_ fun i hi => ?_
  · rw [parseObj_len, parseObj_len]
  · have hlt := Nat.lt_of_lt_of_le hi (busLen_le _ _)
    rw [parseObj_len] at hlt
    rw [parseObj_data, parseObj_data, parseObj_len, parseObj_len, if_pos hlt, if_pos hlt]

theorem content_echoed (f g : Frame) : (f.echoed g).content = f.carried := by
  have hpayload : (List.range (busLen f.fd f.sentLen)).map (f.echoed g).data =
      (List.range (busLen f.fd f.sentLen)).map f.padded :=
    List.map_congr_left fun i hi =>
      if_pos (Nat.lt_of_lt_of_le (List.mem_range.mp hi) (busLen_le _ _))
  rw [Frame.carried, ← hpayload]
  rfl

theorem objContent_words {obj obj' : Obj} (h : ∀ k, k < 18 → obj' k = obj k) :
    objContent obj' = objContent obj := congrArg Frame.content (parseObj_words h _)

structure Carries (obj : Obj) (m : Content) : Prop where
  rtr : obj 1 &&& objctrlRtr = 0
  content : objContent obj = m

theorem Carries.of_words {obj obj' : Obj} {m : Content} (h : Carries obj m)
    (hobj : ∀ k, k < 18 → obj' k = obj k) : Carries obj' m :=
  ⟨hobj 1 (by decide) ▸ h.rtr, (objContent_words hobj).trans h.content⟩

theorem buildCtrl_rtr (f : Frame) {dlc : Nat} (h : dlc < 16) :
    buildCtrl f dlc &&& objctrlRtr = 0 := by
  have hbits : ∀ dlc, dlc < 16 → ∀ extended fd brs : Bool,
      ((BitVec.ofNat 32 dlc &&& objctrlDlcMask) ||| (if extended then objctrlIde else 0)
        ||| (if fd then objctrlFdf else 0) ||| (if fd && brs then objctrlBrs else 0))
        &&& objctrlRtr = 0 := by decide
  exact hbits dlc h f.extended f.fd f.brs

theorem carries_sent {f : Frame} (h : f.len ≤ payloadBytes) {obj : Obj}
    (hobj : ∀ i, i < sentCount f → obj i = sentObj f i) : Carries obj f.carried := by
  refine ⟨?_, ?_⟩
  · rw [hobj 1 (Nat.lt_of_lt_of_le Nat.one_lt_two (Nat.le_add_right 2 _))]
    exact buildCtrl_rtr f (lenToDlc_lt f.len h)
  · rw [objContent, parseObj_sent h hobj, content_echoed]

def ctrlFields : BitVec 32 :=
  objctrlDlcMask ||| objctrlIde ||| objctrlRtr ||| objctrlBrs ||| objctrlFdf

def idFields (ctrl : BitVec 32) : BitVec 32 :=
  if ctrl &&& objctrlIde ≠ 0 then objidEidMask <<< objidEidPos ||| objidSidMask <<< objidSidPos
  else objidSidMask <<< objidSidPos

/-- `obj'` is how a controller presents the frame that another one sent from `obj`: the rest of
the two words and what is past the payload are its own. -/
structure Relayed (obj obj' : Obj) : Prop where
  id : obj' 0 &&& idFields (obj 1) = obj 0 &&& idFields (obj 1)
  ctrl : obj' 1 &&& ctrlFields = obj 1 &&& ctrlFields
  payload : ∀ i, i < carriedLen (obj 1) → objByte obj' i = objByte obj i

theorem Relayed.refl (obj : Obj) : Relayed obj obj := ⟨rfl, rfl, fun _ _ => rfl⟩

theorem and_of_and {v w m b : BitVec 32} (h : v &&& m = w &&& m) (hb : m &&& b = b) :
    v &&& b = w &&& b := by
  rw [← hb, ← BitVec.and_assoc, h, BitVec.and_assoc]

theorem shift_and_of_and {v w m : BitVec 32} {k : Nat} (h : v &&& m <<< k = w &&& m <<< k)
    (hm : m <<< k >>> k = m) : v >>> k &&& m = w >>> k &&& m := by
  rw [← hm, ← BitVec.ushiftRight_and_distrib, ← BitVec.ushiftRight_and_distrib, h]

theorem parseIdWord_congr {v w ctrl : BitVec 32} (h : v &&& idFields ctrl = w &&& idFields ctrl)
    (f : Frame) : parseIdWord v (ctrl &&& objctrlIde ≠ 0) f = parseIdWord w (ctrl &&& objctrlIde ≠ 0) f := by
  by_cases hide : ctrl &&& objctrlIde ≠ 0
  · rw [idFields, if_pos hide] at h
    have hsid := shift_and_of_and (m := objidSidMask) (k := objidSidPos) (and_of_and h (by decide))
      (by decide)
    have heid := shift_and_of_and (m := objidEidMask) (k := objidEidPos) (and_of_and h (by decide))
      (by decide)
    simp only [parseIdWord, hsid, heid]
  · rw [idFields, if_neg hide] at h
    have hsid := shift_and_of_and (m := objidSidMask) (k := objidSidPos) h (by decide)
    simp only [parseIdWord, hsid, hide, decide_false, Bool.false_eq_true, if_false]

theorem carriedLen_eq_busLen {ctrl : BitVec 32} (h : ctrl &&& objctrlRtr = 0) :
    carriedLen ctrl = busLen (ctrl &&& objctrlFdf ≠ 0) (dlcToLen (ctrlDlc ctrl)) := by
  have hcodes : ∀ dlc, dlc < 16 → min 8 dlc = min 8 (dlcToLen dlc) := by decide
  rw [carriedLen, if_neg (not_not.mpr h), busLen]
  by_cases hfdf : ctrl &&& objctrlFdf ≠ 0
  · rw [if_pos hfdf, decide_eq_true hfdf, if_pos rfl]
  · rw [if_neg hfdf, decide_eq_false hfdf, if_neg Bool.false_ne_true]
    exact hcodes _ (ctrlDlc_lt ctrl)

theorem Relayed.content {obj obj' : Obj} {m : Content} (h : Relayed obj obj') (hobj : Carries obj m) :
    objContent obj' = m := by
  refine Eq.trans ?_ hobj.content
  have hdlc : ctrlDlc (obj' 1) = ctrlDlc (obj 1) :=
    congrArg BitVec.toNat (and_of_and h.ctrl (by decide))
  have hide : obj' 1 &&& objctrlIde = obj 1 &&& objctrlIde := and_of_and h.ctrl (by decide)
  have hfdf : obj' 1 &&& objctrlFdf = obj 1 &&& objctrlFdf := and_of_and h.ctrl (by decide)
  have hbrs : obj' 1 &&& objctrlBrs = obj 1 &&& objctrlBrs := and_of_and h.ctrl (by decide)
  refine content_congr ?_ ?_ ?_ ?_ ?_ fun i hi => ?_
  · simp only [parseObj, hide, parseIdWord_congr h.id]
  · simp only [parseObj, hide, parseIdWord_congr h.id]
  · simp only [parseObj, hfdf]
  · simp only [parseObj, hbrs]
  · rw [parseObj_len, parseObj_len, hdlc]
  · have hlt := Nat.lt_of_lt_of_le hi (busLen_le _ _)
    rw [parseObj_len] at hi hlt
    rw [parseObj_data, parseObj_data, parseObj_len, parseObj_len, hdlc, if_pos hlt, if_pos hlt]
    exact h.payload i (carriedLen_eq_busLen hobj.rtr ▸ hi)

end CanfdDriver.NoraCanfd
