import CanfdDriver.Hal.Object
import CanfdDriver.Cmsis.Queue

namespace CanfdDriver

open Lib NoraCanfd Cmsis

namespace Cmsis

theorem copyBytes_apply (src dst : Nat → BitVec 8) (n i : Nat) :
    copyBytes src dst n i = if i < n then src i else dst i := by
  induction n with
  | zero => rfl
  | succ n ih =>
    rw [copyBytes, Function.update_apply, ih]
    by_cases hi : i = n
    · simp [hi]
    · have hlt : i < n + 1 ↔ i < n := by omega
      simp only [hi, hlt, if_false]

theorem deliver_congr {f f' : Frame} (hhead : frameInfo f' = frameInfo f) (hlen : f'.len = f.len)
    (hdata : ∀ i, i < f.len → f'.data i = f.data i) (args : ReadArgs) :
    deliver f' args = deliver f args := by
  have hcopy (n : Nat) (hn : n ≤ f.len) (dst : Nat → BitVec 8) :
      copyBytes f'.data dst n = copyBytes f.data dst n := by
    funext i
    rw [copyBytes_apply, copyBytes_apply]
    split
    next hi => exact hdata i (Nat.lt_of_lt_of_le hi hn)
    next => rfl
  have hn : (if f.len < args.size then f.len else args.size) ≤ f.len := by
    split <;> omega
  rw [deliver, deliver, hlen, hhead]
  simp only [hcopy _ hn]

variable {c d : Chan} {args : ReadArgs} {r : ReadResult}

theorem canMessageRead_ok (h : (canMessageRead args).exec c = .ok (r, d)) (hr : 0 ≤ r.code) :
    c.ctx.powered = true ∧ args.bad = false ∧ ∃ f fs, c.queue = f :: fs ∧ r = deliver f args := by
  have hrefuse {code : Int} (hcode : code < 0)
      (hx : Except.ok (refuseRead args code, c) = (.ok (r, d) : Except Stop (ReadResult × Chan))) :
      False := by
    cases hx
    exact absurd hr (Int.not_le.mpr hcode)
  rw [exec_canMessageRead] at h
  split at h
  next => exact (hrefuse (by decide) h).elim
  next hpow =>
    split at h
    next => exact (hrefuse (by decide) h).elim
    next hbad =>
      split at h
      next => exact (hrefuse (by decide) h).elim
      next hne =>
        cases h
        exact ⟨by simpa using hpow, by simpa using hbad, _, _, Ring.toList_eq_cons hne, rfl⟩

theorem exec_canMessageRead_cons {f : Frame} {fs : List Frame} (hpow : c.ctx.powered = true)
    (hargs : args.bad = false) (hq : c.queue = f :: fs) :
    ∃ d, (canMessageRead args).exec c = .ok (deliver f args, d) ∧ d.queue = fs ∧
      d.ctx.powered = true := by
  have hne : c.ctx.rx.tail ≠ c.ctx.rx.head := by
    intro h
    rw [Chan.queue, Ring.toList_eq_nil.mpr h] at hq
    cases hq
  rw [Chan.queue, Ring.toList_eq_cons hne] at hq
  obtain ⟨hfront, htail⟩ := List.cons.inj hq
  refine ⟨taken c, ?_, htail, hpow⟩
  rw [exec_canMessageRead, if_neg (by simp [hpow]), if_neg (by simp [hargs]), if_neg hne, hfront]

end Cmsis

/-- `f` is what `nora_canfd_receive` can build in `buffer` from the object at its FIFO. -/
def Builds (obj : Obj) (buffer f : Frame) : Prop :=
  ∃ (c d : Chan) (os : List Obj) (p : Poll) (arriving : Obj), c.rxFifo = obj :: os ∧
    (receive (some buffer) p arriving).exec c = .ok ((.ok, some f), d)

theorem builds_iff {obj : Obj} {buffer f : Frame} : Builds obj buffer f ↔ f = parseObj obj buffer := by
  constructor
  · rintro ⟨c, d, os, p, arriving, hq, h⟩
    cases hi : c.node.initialized with
    | false =>
      rw [receive, receiveFrom, Prog.exec_bind_of_ok (Prog.exec_get c), if_pos (by simp [hi])] at h
      cases h
    | true =>
      rw [exec_receive hi hq] at h
      cases h
      rfl
  · rintro rfl
    have hi : ((exampleDevice.boot.setNode ⟨true, false, 0⟩).setRxFifo [obj]).node.initialized = true :=
      rfl
    exact ⟨_, _, [], ⟨0, []⟩, obj, rfl, exec_receive hi rfl buffer _ _⟩

/-- `r` is what a `MessageRead` that finds `f` at the tail of the ring can hand out. -/
def HandsOut (f : Frame) (args : ReadArgs) (r : ReadResult) : Prop :=
  ∃ c d, c.queue.head? = some f ∧ (canMessageRead args).exec c = .ok (r, d) ∧ 0 ≤ r.code

theorem HandsOut.eq {f : Frame} {args : ReadArgs} {r : ReadResult} (h : HandsOut f args r) :
    r = deliver f args := by
  obtain ⟨c, d, hq, hread, hr⟩ := h
  obtain ⟨-, -, g, fs, hg, rfl⟩ := canMessageRead_ok hread hr
  rw [hg, List.head?_cons, Option.some.injEq] at hq
  rw [hq]

structure SamePayload (obj obj' : Obj) : Prop where
  id : obj' 0 = obj 0
  ctrl : obj' 1 = obj 1
  payload : ∀ i, i < carriedLen (obj 1) → objByte obj' i = objByte obj i

/-- Only received payload bytes of an object are ever delivered. -/
structure PayloadOnly (obj : Obj) : Prop where
  len : ∀ buffer f, Builds obj buffer f → f.len = carriedLen (obj 1)
  classic : ∀ buffer f, Builds obj buffer f → f.fd = false → f.len ≤ 8
  code : ∀ buffer f args r, Builds obj buffer f → HandsOut f args r →
    r.code = min (carriedLen (obj 1)) args.size
  frame : ∀ obj' buffer f f', SamePayload obj obj' → Builds obj buffer f → Builds obj' buffer f' →
    f' = f
  result : ∀ obj' buffer buffer' f f' args r r', SamePayload obj obj' → Builds obj buffer f →
    Builds obj' buffer' f' → HandsOut f args r → HandsOut f' args r' → r' = r

theorem carriedLen_classic_le {ctrl : BitVec 32} (h : ctrl &&& objctrlFdf = 0) :
    carriedLen ctrl ≤ 8 := by
  rw [carriedLen]
  split
  next => exact Nat.zero_le _
  next => rw [if_neg (not_not.mpr h)]; exact Nat.min_le_left ..

/-- The length is the one the frame carried exactly when its length code is a plain one. -/
theorem payload_only_iff (obj : Obj) : PayloadOnly obj ↔ PlainDlc (obj 1) := by
  rw [← dlcToLen_eq_carriedLen_iff]
  constructor
  · intro h
    rw [← h.len zeroFrame _ (builds_iff.mpr rfl), parseObj_len]
  · intro hlen
    have hsame {obj' : Obj} (h : SamePayload obj obj') (g : Frame) :
        parseObj obj' g = parseObj obj g :=
      parseObj_congr h.id h.ctrl g fun i hi => h.payload i (hlen ▸ hi)
    refine ⟨?_, ?_, ?_, ?_, ?_⟩
    · intro buffer f hf
      rw [builds_iff.mp hf, parseObj_len, hlen]
    · intro buffer f hf hfd
      obtain rfl := builds_iff.mp hf
      rw [parseObj_len, hlen]
      exact carriedLen_classic_le (not_not.mp (of_decide_eq_false hfd))
    · intro buffer f args r hf hr
      obtain rfl := builds_iff.mp hf
      rw [hr.eq, deliver, parseObj_len, hlen]
      simp only [Nat.min_def]
      grind
    · intro obj' buffer f f' h hf hf'
      rw [builds_iff.mp hf, builds_iff.mp hf', hsame h]
    · intro obj' buffer buffer' f f' args r r' h hf hf' hr hr'
      rw [hr.eq, hr'.eq, builds_iff.mp hf, builds_iff.mp hf', hsame h]
      have hinfo : frameInfo (parseObj obj buffer') = frameInfo (parseObj obj buffer) := rfl
      refine deliver_congr hinfo ?_ (fun i hi => ?_) args
      · rw [parseObj_len, parseObj_len]
      · rw [parseObj_data, parseObj_data, parseObj_len, parseObj_len, if_pos, if_pos] <;>
          exact parseObj_len obj buffer ▸ hi

/-- A classic frame with length code 15 is delivered with 64 bytes, and a remote frame with
length code 8 with 8. -/
theorem foreign_lengths_delivered :
    ¬PayloadOnly (fun i => if i = 1 then 15 else 0) ∧
      ¬PayloadOnly (fun i => if i = 1 then objctrlRtr ||| 8 else 0) := by
  constructor
  · intro h
    have hlen := h.len zeroFrame _ (builds_iff.mpr rfl)
    rw [parseObj_len] at hlen
    revert hlen
    decide
  · intro h
    have hlen := h.len zeroFrame _ (builds_iff.mpr rfl)
    rw [parseObj_len] at hlen
    revert hlen
    decide

namespace Cmsis

variable {c d : Chan} {info : MsgInfo} {data : Option (Nat → BitVec 8)} {size : Nat} {env : Env}

abbrev messageFrame (info : MsgInfo) (data : Option (Nat → BitVec 8)) (size : Nat) (env : Env) :
    Frame := sendFrame info (data.getD fun _ => 0) size env.buffer

theorem canMessageSend_sent {objIdx : BitVec 32} {info : Option MsgInfo} {r : Int}
    (h : (canMessageSend objIdx info data size env).exec c = .ok (r, d)) (hr : 0 ≤ r) :
    ∃ i, info = some i ∧ c.ctx.powered = true ∧ (c.ctx.fdMode = 0 → i.edl = false ∧ size ≤ 8) ∧
      (transmit (some (messageFrame i data size env)) env.room).exec c = .ok (.ok, d) := by
  have hneg {code : Int} {e : Chan} (hcode : code < 0)
      (hx : Except.ok (code, e) = (.ok (r, d) : Except Stop (Int × Chan))) : False := by
    cases hx
    exact absurd hr (Int.not_le.mpr hcode)
  cases info with
  | none =>
    rw [canMessageSend, Prog.exec_bind_of_ok (Prog.exec_get c)] at h
    simp only [Prog.exec_ite, Prog.exec_pure] at h
    split at h
    all_goals exact (hneg (by decide) h).elim
  | some i =>
    rw [canMessageSend, Prog.exec_bind_of_ok (Prog.exec_get c)] at h
    simp only [Prog.exec_ite, Prog.exec_pure, Prog.exec_bind_of_ok (Prog.exec_get c)] at h
    split at h
    next => exact (hneg (by decide) h).elim
    next hpow =>
      refine ⟨i, rfl, by simpa using hpow, ?_⟩
      split at h
      next => exact (hneg (by decide) h).elim
      next =>
        split at h
        next => exact (hneg (by decide) h).elim
        next =>
          split at h
          next => exact (hneg (by decide) h).elim
          next hfd =>
            obtain ⟨st, e, hsend, hrest⟩ := Prog.exec_bind_eq_ok.mp h
            refine ⟨fun hzero => ?_, ?_⟩
            · rw [not_and, not_or] at hfd
              obtain ⟨hedl, hsize⟩ := hfd hzero
              exact ⟨by simpa using hedl, Nat.not_lt.mp hsize⟩
            · by_cases hst : st = .ok
              · subst hst
                rw [if_neg (not_not.mpr rfl)] at hrest
                cases hrest
                exact hsend
              · rw [if_pos hst] at hrest
                exact (hneg (canHalToArm_neg.mpr hst) hrest).elim

theorem canMessageSend_buffer (buffer : Nat → BitVec 8) :
    canMessageSend objTx (some info) data size { env with buffer := buffer } =
      canMessageSend objTx (some info) data size env := by
  have hframe : messageFrame info data size { env with buffer := buffer } =
      { messageFrame info data size env with
        data := copyBytes (data.getD fun _ => 0) buffer size } := rfl
  have hbytes (i : Nat) (hi : i < (messageFrame info data size env).len) :
      copyBytes (data.getD fun _ => 0) buffer size i = (messageFrame info data size env).data i := by
    change i < size at hi
    change _ = copyBytes _ _ size i
    rw [copyBytes_apply, copyBytes_apply, if_pos hi, if_pos hi]
  have hsend := transmit_congr hbytes env.room
  rw [← hframe] at hsend
  simp only [canMessageSend, hsend]

end Cmsis

theorem NoraCanfd.parseAll_append (f : Frame) (before : List Obj) (obj : Obj) (after : List Obj) :
    ∃ g, parseAll f (before ++ obj :: after) =
      parseAll f before ++ parseObj obj g :: parseAll (parseObj obj g) after := by
  induction before generalizing f with
  | nil => exact ⟨f, rfl⟩
  | cons o os ih =>
    obtain ⟨g, hg⟩ := ih (parseObj o f)
    exact ⟨g, by rw [List.cons_append, parseAll, hg, parseAll, List.cons_append]⟩

theorem NoraCanfd.length_parseAll (f : Frame) (os : List Obj) : (parseAll f os).length = os.length := by
  induction os generalizing f with
  | nil => rfl
  | cons o os ih => rw [parseAll, List.length_cons, List.length_cons, ih]

theorem Cmsis.exec_runReads {c : Chan} {reads : List ReadArgs} {fs gs : List Frame}
    (hpow : c.ctx.powered = true) (hargs : ∀ a ∈ reads, a.bad = false)
    (hq : c.queue = fs ++ gs) (hlen : fs.length = reads.length) :
    ∃ d, (runReads reads).exec c = .ok ((), d) ∧ d.queue = gs ∧ d.ctx.powered = true := by
  induction reads generalizing c fs with
  | nil =>
    obtain rfl := List.length_eq_zero_iff.mp hlen
    exact ⟨c, rfl, hq, hpow⟩
  | cons a reads ih =>
    cases fs with
    | nil => cases hlen
    | cons f fs =>
      obtain ⟨d, hd, hdq, hdp⟩ := exec_canMessageRead_cons hpow (hargs a (List.mem_cons_self ..)) hq
      obtain ⟨e, he, heq⟩ := ih hdp (fun b hb => hargs b (List.mem_cons_of_mem _ hb)) hdq
        (Nat.succ.inj hlen)
      exact ⟨e, (Prog.exec_bind_of_ok hd).trans he, heq⟩

def Cmsis.canonicalId (id : BitVec 32) : BitVec 32 :=
  if id &&& idIdeMsk ≠ 0 then (id &&& 0x1FFFFFFF) ||| idIdeMsk else id &&& 0x7FF

structure Cmsis.Echo (info : MsgInfo) (bytes : Nat → BitVec 8) (size len : Nat) (r : ReadResult) :
    Prop where
  code : r.code = len
  info : ∃ dlc : BitVec 4, dlcToLen dlc.toNat = len ∧ r.info = some
    { id := canonicalId info.id, rtr := false, edl := info.edl, brs := info.edl && info.brs,
      esi := false, dlc := dlc }
  data : ∃ out, r.data = some out ∧ (∀ i, i < size → out i = bytes i) ∧
    ∀ i, size ≤ i → i < len → out i = 0

namespace Cmsis

variable {c d e : Chan} {info : MsgInfo} {data : Option (Nat → BitVec 8)} {size : Nat} {env : Env}

theorem readDlc_dlcToLen : ∀ dlc, dlc < 16 → readDlc (dlcToLen dlc) = dlc := by decide

theorem frameInfo_id (info : MsgInfo) (bytes buffer : Nat → BitVec 8) (size : Nat) (g : Frame) :
    (frameInfo ((sendFrame info bytes size buffer).echoed g)).id = canonicalId info.id := by
  simp only [frameInfo, Frame.echoed, sendFrame, reducedId, canonicalId]
  by_cases h : info.id &&& idIdeMsk ≠ 0
  · simp only [decide_eq_true h, if_pos h, if_true, BitVec.and_assoc, BitVec.and_self]
  · simp only [decide_eq_false h, if_neg h, Bool.false_eq_true, if_false, BitVec.and_assoc,
      BitVec.and_self]

theorem padded_sendFrame (info : MsgInfo) (bytes buffer : Nat → BitVec 8) (i : Nat) :
    (sendFrame info bytes size buffer).padded i = if i < size then bytes i else 0 := by
  change (if i < size then copyBytes bytes buffer size i else 0) = _
  rw [copyBytes_apply]
  split <;> rfl

theorem deliver_echoed (hsize : size ≤ payloadBytes) (bytes buffer dst : Nat → BitVec 8) (g : Frame) :
    Echo info bytes size (dlcToLen (lenToDlc size))
      (deliver ((sendFrame info bytes size buffer).echoed g) ⟨objRx, true, some dst, 64⟩) := by
  have hlt := lenToDlc_lt size hsize
  have hle : dlcToLen (lenToDlc size) ≤ 64 := dlcToLen_le _ hlt
  have hn : (if dlcToLen (lenToDlc size) < 64 then dlcToLen (lenToDlc size) else 64) =
      dlcToLen (lenToDlc size) := by
    split <;> omega
  refine ⟨congrArg Nat.cast hn, ⟨BitVec.ofNat 4 (lenToDlc size), ?_, ?_⟩, ?_⟩
  · rw [BitVec.toNat_ofNat, Nat.mod_eq_of_lt hlt]
  · have hdlc : readDlc (dlcToLen (lenToDlc size)) = lenToDlc size := readDlc_dlcToLen _ hlt
    have hid := frameInfo_id info bytes buffer size g
    simp only [deliver, frameInfo, Option.some.injEq, MsgInfo.mk.injEq, true_and]
    exact ⟨hid, rfl, rfl, congrArg (BitVec.ofNat 4) hdlc⟩
  · have hout (i : Nat) (hi : i < dlcToLen (lenToDlc size)) :
        copyBytes ((sendFrame info bytes size buffer).echoed g).data dst
          (if dlcToLen (lenToDlc size) < 64 then dlcToLen (lenToDlc size) else 64) i =
        if i < size then bytes i else 0 := by
      rw [hn, copyBytes_apply, if_pos hi, ← padded_sendFrame info bytes buffer]
      exact if_pos hi
    refine ⟨_, rfl, fun i hi => ?_, fun i hi hlen => ?_⟩
    · exact (hout i (Nat.lt_of_lt_of_le hi (le_dlcToLen_lenToDlc size hsize))).trans (if_pos hi)
    · exact (hout i hlen).trans (if_neg (Nat.not_lt.mpr hi))

end Cmsis

theorem drained_queue {e : Chan} {obj : Obj} {before after : List Obj}
    (hq : e.rxFifo = before ++ obj :: after) (hroom : e.queue.length + before.length < 7)
    (f : Frame) :
    ∃ fs g gs, (e.drained f).queue = fs ++ parseObj obj g :: gs ∧
      fs.length = e.queue.length + before.length := by
  obtain ⟨g, hg⟩ := parseAll_append f before obj after
  have hstored : e.stored f = (parseAll f e.rxFifo).take (7 - e.queue.length) := by
    rw [Chan.stored, room_eq]
  have hmoved := (drained_moved e f).queue
  obtain ⟨k, hk⟩ : ∃ k, 7 - e.queue.length = before.length + (k + 1) :=
    ⟨7 - e.queue.length - before.length - 1, by omega⟩
  rw [List.nil_append, hstored, hq, hg, hk, ← length_parseAll f before, List.take_length_add_append,
    List.take_succ_cons, ← List.append_assoc] at hmoved
  refine ⟨_, g, _, hmoved.symm, ?_⟩
  rw [List.length_append, length_parseAll]

/-- `MessageRead` undoes `MessageSend` when the hardware loops the object back: whatever traffic
has gone by since, once the frames before it are read, the message comes out. -/
theorem messageRead_undoes_messageSend :
    (∀ obj obj' buffer f, (∀ i, i < 18 → obj' i = obj i) →
      (Builds obj' buffer f ↔ Builds obj buffer f)) ∧
    ∀ c d info data size env,
      (canMessageSend objTx (some info) data size env).exec c = .ok ((size : Int), d) →
      ∃ n sent, n ≤ 18 ∧
        d.trace = c.trace ++ objWrites (c.regs .txqua) sent n ++ [.uinc, .txreq] ∧
        (∀ buffer, (canMessageSend objTx (some info) data size { env with buffer := buffer }).exec c =
          .ok ((size : Int), d)) ∧
        ∀ e obj before after f, Traffic d e → (∀ i, i < n → obj i = sent i) →
          e.rxFifo = before ++ obj :: after → e.queue.length + before.length < 7 →
          ∃ b g, (drain (e.rxFifo.length + 1) f false false).exec e = .ok (b, g) ∧
            ∀ reads dst, reads.length = e.queue.length + before.length →
              (∀ a ∈ reads, ReadArgs.bad a = false) →
              ∃ g' len r h, (runReads reads).exec g = .ok ((), g') ∧
                (canMessageRead ⟨objRx, true, some dst, 64⟩).exec g' = .ok (r, h) ∧
                IsLeast {n | size ≤ n ∧ FdLength n} len ∧
                Echo info (data.getD fun _ => 0) size len r := by
  refine ⟨fun obj obj' buffer f hobj => ?_, fun c d info data size env hsend => ?_⟩
  · rw [builds_iff, builds_iff, parseObj_words hobj]
  obtain ⟨i, hi, hpow, -, htransmit⟩ := canMessageSend_sent hsend (Int.natCast_nonneg _)
  cases hi
  obtain ⟨hlen, hinit, htrace⟩ := transmit_ok htransmit
  refine ⟨_, _, sentCount_le hlen, htrace, fun buffer => ?_, ?_⟩
  · rw [canMessageSend_buffer]
    exact hsend
  intro e obj before after f htr hobj hq hroom
  have htr' : Traffic c e := ((canMessageSend_moves objTx (some info) data size env).exec hsend).trans htr
  have hi : e.node.initialized = true := htr'.node ▸ hinit
  have hpow' : e.ctx.powered = true := by
    obtain ⟨rx, hrx⟩ := htr'.ctx
    rw [hrx]
    exact hpow
  refine ⟨_, _, (drained_drains hi f).exec, fun reads dst hreads hargs => ?_⟩
  -- The ring now holds the frames before the object, its frame, and those after it.
  obtain ⟨fs, g, gs, hqueue, hfs⟩ := drained_queue hq hroom f
  obtain ⟨g', hg', hq', hp'⟩ := exec_runReads (c := e.drained f) hpow' hargs hqueue
    (hfs.trans hreads.symm)
  rw [parseObj_sent hlen hobj g] at hq'
  have hargs' : ReadArgs.bad ⟨objRx, true, some dst, 64⟩ = false := rfl
  obtain ⟨h, hread, -, -⟩ := exec_canMessageRead_cons hp' hargs' hq'
  exact ⟨g', _, _, h, hg', hread, dlcToLen_lenToDlc_least hlen,
    deliver_echoed hlen _ _ dst g⟩

theorem messageRead_undoes_messageSend_example :
    ∃ c d e b g r h, Reach Step (fun _ _ => True) exampleDevice.boot c ∧
      (canMessageSend objTx (some ⟨0x80000123, false, true, true, false, 9⟩) (some fun _ => 0xA5) 9
        (granting .normalFd)).exec c = .ok (9, d) ∧ Traffic d e ∧
      (drain (e.rxFifo.length + 1) zeroFrame false false).exec e = .ok (b, g) ∧
      (canMessageRead ⟨objRx, true, some fun _ => 0, 64⟩).exec g = .ok (r, h) ∧
      Echo ⟨0x80000123, false, true, true, false, 9⟩ (fun _ => 0xA5) 9 12 r := by
  have hrun : ∃ c, Reach Step (fun _ _ => True) exampleDevice.boot c ∧
      (canMessageSend objTx (some ⟨0x80000123, false, true, true, false, 9⟩) (some fun _ => 0xA5) 9
        (granting .normalFd)).ends c (fun r d => r == 9 && d.queue.length == 0) = true :=
    reach_of_replay (fun _ _ _ _ => true) powerUp _ (fun _ _ _ _ _ => trivial) (by decide +kernel)
  obtain ⟨c, hc, hp⟩ := hrun
  obtain ⟨r, d, hsend, hp⟩ := Prog.ends_iff.mp hp
  simp only [Bool.and_eq_true, beq_iff_eq] at hp
  obtain ⟨rfl, hempty⟩ := hp
  obtain ⟨n, sent, -, -, -, hloop⟩ := messageRead_undoes_messageSend.2 c d _ _ 9 _ hsend
  have htr : Traffic d (d.sense ⟨d.regs, [sent], true, false, false⟩) := .sense _
  obtain ⟨b, g, hdrain, hread⟩ := hloop _ sent [] [] zeroFrame htr (fun _ _ => rfl) rfl
    (by simp [Chan.queue] at hempty ⊢; omega)
  obtain ⟨g', len, r, h, hg', hr, hlen, hecho⟩ := hread [] (fun _ => 0)
    (by simpa [Chan.queue] using hempty.symm) (by simp)
  cases hg'
  obtain rfl := hlen.unique (dlcToLen_lenToDlc_least (by decide))
  exact ⟨c, d, _, b, g, r, h, hc, hsend, htr, hdrain, hr, hecho⟩

end CanfdDriver
