import CanfdDriver.Bus.Network

namespace CanfdDriver

open Lib NoraCanfd Cmsis

/-- A data frame as a controller sends it: without FD format there is no bit-rate switch, and a
length code is a length. -/
structure Plain (obj : Obj) : Prop where
  rtr : obj 1 &&& objctrlRtr = 0
  classic : obj 1 &&& objctrlFdf = 0 → obj 1 &&& objctrlBrs = 0 ∧ ctrlDlc (obj 1) ≤ 8

/-- A node takes in the object `obj`, reads its frame with room for all of it and sends on what it
read; `obj'` is how a controller presents the object that this leaves in the queue. -/
inductive Forwards (obj obj' : Obj) : Prop
  | intro {buffer f : Frame} {args : ReadArgs} {r : ReadResult} {c d : Chan} {env : Env} {n : Int} :
      Builds obj buffer f → HandsOut f args r → 64 ≤ args.size →
      (canMessageSend objTx r.info r.data r.code.toNat env).exec c = .ok (n, d) → 0 ≤ n →
      Relayed (ramObj d (c.regs .txqua)) obj' → Forwards obj obj'

namespace NoraCanfd

theorem parseObj_reduced (obj : Obj) (g : Frame) :
    reducedId (parseObj obj g).extended (parseObj obj g).id = (parseObj obj g).id := by
  simp only [parseObj, parseIdWord, reducedId]
  by_cases hide : obj 1 &&& objctrlIde ≠ 0
  · simp only [decide_eq_true hide, if_true]
    apply BitVec.eq_of_getLsbD_eq
    intro i hi
    simp only [BitVec.getLsbD_and, BitVec.getLsbD_or, BitVec.getLsbD_shiftLeft,
      BitVec.ofNat_eq_ofNat, getLsbD_idMask, getLsbD_sidMask, getLsbD_eidMask]
    grind
  · simp only [decide_eq_false hide, Bool.false_eq_true, if_false]
    rw [BitVec.and_assoc]
    rfl

theorem objContent_fd (obj : Obj) : (objContent obj).fd = decide (obj 1 &&& objctrlFdf ≠ 0) := rfl

theorem objContent_brs (obj : Obj) : (objContent obj).brs = decide (obj 1 &&& objctrlBrs ≠ 0) := rfl

theorem objContent_len (obj : Obj) : (objContent obj).len = dlcToLen (ctrlDlc (obj 1)) :=
  parseObj_len obj ⟨0, false, false, false, 0, fun _ => 0⟩

theorem plain_iff {obj : Obj} : Plain obj ↔ obj 1 &&& objctrlRtr = 0 ∧
    ((objContent obj).fd = false → (objContent obj).brs = false ∧ (objContent obj).len ≤ 8) := by
  have hcodes : ∀ dlc, dlc < 16 → (dlcToLen dlc ≤ 8 ↔ dlc ≤ 8) := by decide
  rw [objContent_fd, objContent_brs, objContent_len, hcodes _ (ctrlDlc_lt _), decide_eq_false_iff_not,
    decide_eq_false_iff_not, not_not, not_not]
  exact ⟨fun h => ⟨h.rtr, h.classic⟩, fun h => ⟨h.1, h.2⟩⟩

end NoraCanfd

def passed (f : Frame) (out : Nat → BitVec 8) : Message := ⟨frameInfo f, some out, f.len⟩

variable {f : Frame} {out : Nat → BitVec 8}

theorem passed_extended (f : Frame) : decide ((frameInfo f).id &&& idIdeMsk ≠ 0) = f.extended := by
  cases hx : f.extended with
  | true =>
    simp only [frameInfo, hx, if_true]
    rw [MaskedWrite.or_and_of_sub (by decide)]
    decide
  | false =>
    simp only [frameInfo, hx, Bool.false_eq_true, if_false, BitVec.and_assoc]
    rw [show (0x7FF : BitVec 32) &&& idIdeMsk = 0#32 from by decide, BitVec.and_zero]
    decide

theorem passed_id (f : Frame) : reducedId f.extended
    (if f.extended then (frameInfo f).id &&& 0x1FFFFFFF else (frameInfo f).id &&& 0x7FF) =
      reducedId f.extended f.id := by
  cases hx : f.extended with
  | true =>
    simp only [frameInfo, hx, if_true, reducedId]
    rw [MaskedWrite.or_and_of_disjoint (by decide), BitVec.and_assoc, BitVec.and_assoc]
    rfl
  | false =>
    simp only [frameInfo, hx, Bool.false_eq_true, if_false, reducedId]
    rw [BitVec.and_assoc, BitVec.and_assoc]
    rfl

theorem passed_content (hid : reducedId f.extended f.id = f.id) (hlen : FdLength f.len)
    (hclassic : f.fd = false → f.brs = false) (hout : ∀ i, i < f.len → out i = f.data i) :
    (passed f out).content = f.content := by
  have hcodes : ∀ dlc, dlc < 16 → dlcToLen (lenToDlc (dlcToLen dlc)) = dlcToLen dlc := by decide
  let s : Frame := sendFrame (frameInfo f) out f.len fun _ => 0
  have hext : s.extended = f.extended := passed_extended f
  have hsid : reducedId s.extended s.id = f.id := by
    change reducedId s.extended (if s.extended then _ else _) = _
    rw [hext]
    exact (passed_id f).trans hid
  have hbrs : (f.fd && f.brs) = f.brs := by
    cases hfd : f.fd with
    | true => rfl
    | false => rw [hclassic hfd, Bool.and_false]
  have hsent : s.sentLen = f.len := by
    obtain ⟨dlc, hdlc, hlen⟩ := hlen
    change dlcToLen (lenToDlc f.len) = f.len
    rw [hlen, hcodes dlc hdlc]
  have hpayload : (List.range (busLen f.fd f.len)).map s.padded =
      (List.range (busLen f.fd f.len)).map f.data := by
    refine List.map_congr_left fun i hi => ?_
    have hi := Nat.lt_of_lt_of_le (List.mem_range.mp hi) (busLen_le _ _)
    rw [padded_sendFrame, if_pos hi, hout i hi]
  change s.carried = f.content
  rw [Frame.carried, Frame.content, hsid, hext, hsent, show s.fd = f.fd from rfl,
    show s.brs = f.brs from rfl, hbrs, hpayload]

theorem handsOut_passed {args : ReadArgs} {r : ReadResult} (h : HandsOut f args r)
    (hlen : f.len ≤ 64) (hsize : 64 ≤ args.size) :
    ∃ out, (∀ i, i < f.len → out i = f.data i) ∧ r.info = some (passed f out).info ∧
      r.data = (passed f out).data ∧ r.code = (passed f out).size := by
  obtain ⟨c, d, hq, hread, hr⟩ := h
  obtain ⟨-, hbad, g, fs, hg, rfl⟩ := canMessageRead_ok hread hr
  rw [hg, List.head?_cons, Option.some.injEq] at hq
  subst hq
  have hn : (if g.len < args.size then g.len else args.size) = g.len := by
    split <;> omega
  have hdata : args.data ≠ none := by
    intro hnone
    have hpos : 0 < args.size := by omega
    simp [ReadArgs.bad, hnone, hpos] at hbad
  obtain ⟨dst, hdst⟩ := Option.ne_none_iff_exists'.mp hdata
  refine ⟨copyBytes g.data dst g.len, fun i hi => ?_, rfl, ?_, ?_⟩
  · rw [copyBytes_apply, if_pos hi]
  · simp only [deliver, hn, hdst, Option.map_some, passed]
  · simp only [deliver, hn, passed]

theorem Forwards.content {obj obj' : Obj} (h : Forwards obj obj') (hp : Plain obj) :
    Plain obj' ∧ objContent obj' = objContent obj := by
  obtain @⟨buffer, f, args, r, c, d, env, n, hbuilds, hhands, hsize, hsend, hn, hrelayed⟩ := h
  obtain rfl := builds_iff.mp hbuilds
  have hcontent : (parseObj obj buffer).content = objContent obj := content_parseObj obj buffer
  have hlen : FdLength (parseObj obj buffer).len := ⟨_, ctrlDlc_lt _, parseObj_len obj buffer⟩
  have hlen64 : (parseObj obj buffer).len ≤ 64 := by
    rw [parseObj_len]
    exact dlcToLen_le _ (ctrlDlc_lt _)
  obtain ⟨out, hout, hinfo, hdata, hcode⟩ := handsOut_passed hhands hlen64 hsize
  have hclassic := (plain_iff.mp hp).2
  rw [← hcontent] at hclassic
  have hpassed := passed_content (parseObj_reduced obj buffer) hlen (fun h => (hclassic h).1) hout
  rw [hinfo, hdata, hcode, Int.toNat_natCast] at hsend
  rcases canMessageSend_cases hsend with ⟨hacc, -, i, hi, rfl⟩ | ⟨-, hneg, -⟩
  · cases hi
    let m := passed (parseObj obj buffer) out
    have hcarries := (queued_carries (c := c) (f := messageFrame m.info m.data m.size env) hlen64).1
    rw [messageFrame_carried m env, hpassed, hcontent] at hcarries
    have hsame := hrelayed.content hcarries
    refine ⟨plain_iff.mpr ⟨?_, ?_⟩, hsame⟩
    · rw [and_of_and hrelayed.ctrl (by decide)]
      exact hcarries.rtr
    · rw [hsame]
      exact (plain_iff.mp hp).2
  · exact absurd hn (Int.not_le.mpr hneg)

/-- Through any number of nodes a data frame stays what it is; and a powered node in FD mode that
has room in its queue refuses none. -/
theorem forwarded_unchanged :
    (∀ obj obj', Relation.ReflTransGen Forwards obj obj' → Plain obj →
      Plain obj' ∧ objContent obj' = objContent obj) ∧
    ∀ obj buffer f args r c env, Plain obj → Builds obj buffer f → HandsOut f args r →
      64 ≤ args.size → c.ctx.powered = true → c.ctx.fdMode ≠ 0 → c.node.initialized = true →
      RoomInTime c.node env.room →
      ∃ d, (canMessageSend objTx r.info r.data r.code.toNat env).exec c = .ok (r.code, d) := by
  refine ⟨fun obj obj' h hp => ?_, fun obj buffer f args r c env hp hbuilds hhands hsize hpow hfd hi hroom => ?_⟩
  · induction h with
    | refl => exact ⟨hp, rfl⟩
    | tail _ hs ih =>
      obtain ⟨hplain, hcontent⟩ := hs.content ih.1
      exact ⟨hplain, hcontent.trans ih.2⟩
  · obtain rfl := builds_iff.mp hbuilds
    have hlen64 : (parseObj obj buffer).len ≤ 64 := by
      rw [parseObj_len]
      exact dlcToLen_le _ (ctrlDlc_lt _)
    obtain ⟨out, -, hinfo, hdata, hcode⟩ := handsOut_passed hhands hlen64 hsize
    have hclassic := (plain_iff.mp hp).2
    rw [← content_parseObj obj buffer] at hclassic
    have hacc : SendAccepted c objTx (some (passed (parseObj obj buffer) out).info) (some out)
        (parseObj obj buffer).len env := by
      refine ⟨hpow, rfl, hlen64, fun _ => rfl, ⟨_, rfl, rfl, .inl hfd, ?_⟩, hi, hroom⟩
      cases hedl : (parseObj obj buffer).fd with
      | true => exact .inl hedl
      | false => exact .inr (hclassic hedl).2
    rw [hinfo, hdata, hcode, Int.toNat_natCast]
    exact ⟨_, exec_canMessageSend_accepted hacc⟩

def exampleObj : Obj
  | 0 => 0x123
  | 1 => objctrlFdf ||| objctrlBrs ||| 9
  | _ => 0xA5A5A5A5

def holding (f : Frame) : Chan :=
  let c := exampleDevice.boot.setNode ⟨true, false, 0⟩
  c.setCtx { c.ctx with powered := true, rx := c.ctx.rx.push f }

theorem forwarded_unchanged_example :
    ∃ obj', Relation.ReflTransGen Forwards exampleObj obj' ∧ Plain exampleObj ∧
      (objContent exampleObj).len = 12 ∧ Plain obj' ∧ objContent obj' = objContent exampleObj := by
  let f := parseObj exampleObj zeroFrame
  let args : ReadArgs := ⟨objRx, true, some fun _ => 0, 64⟩
  have hplain : Plain exampleObj := ⟨by decide, fun h => absurd h (by decide)⟩
  have hbuilds : Builds exampleObj zeroFrame f := builds_iff.mpr rfl
  have hhands : HandsOut f args (deliver f args) := by
    have hq : (holding f).queue = [f] := rfl
    have hargs : args.bad = false := rfl
    obtain ⟨d, hread, -⟩ := exec_canMessageRead_cons (c := holding f) rfl hargs hq
    exact ⟨holding f, d, by rw [hq]; rfl, hread, Int.natCast_nonneg _⟩
  have hroom : RoomInTime (holding f).node (granting .normalFd).room :=
    roomResult_ok_iff.mp rfl
  obtain ⟨d, hd⟩ := forwarded_unchanged.2 exampleObj zeroFrame f args _ (holding f)
    (granting .normalFd) hplain hbuilds hhands (by decide) rfl (by decide) rfl hroom
  have hforwards : Forwards exampleObj (ramObj d ((holding f).regs .txqua)) :=
    .intro hbuilds hhands (by decide) hd (Int.natCast_nonneg _) (.refl _)
  have hrun := Relation.ReflTransGen.single hforwards
  exact ⟨_, hrun, hplain, by decide, forwarded_unchanged.1 _ _ hrun hplain⟩

end CanfdDriver
