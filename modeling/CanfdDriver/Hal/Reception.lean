import CanfdDriver.Hal.Object
import CanfdDriver.Lib.Lockstep

/-! Reception through the message RAM: `nora_canfd_receive` finds the oldest object
that waits at the address that `FIFOUA1` shows. -/

namespace CanfdDriver

open Lib

namespace NoraCanfd

theorem objAddr_objAddr (addr : BitVec 32) (n k : Nat) :
    objAddr (objAddr addr n) k = objAddr addr (n + k) := by
  rw [objAddr, objAddr, objAddr, BitVec.ofNat_add, BitVec.add_assoc, BitVec.mul_add]

theorem objAddr_inj {addr : BitVec 32} {k l : Nat} (hk : k < msgRamBytes / 4)
    (hl : l < msgRamBytes / 4) (h : objAddr addr k = objAddr addr l) : k = l := by
  change k < 144 at hk
  change l < 144 at hl
  simp only [objAddr] at h
  bv_omega

theorem rxSlot_inj {fifoba : BitVec 32} {k l : Nat} (hk : k < rxDepth) (hl : l < rxDepth)
    (h : rxSlot fifoba k = rxSlot fifoba l) : k = l := by
  change k < 4 at hk
  change l < 4 at hl
  have hwords : objWords * (txqDepth + k) = objWords * (txqDepth + l) := by
    refine objAddr_inj ?_ ?_ h
    · change 18 * (4 + k) < 144
      omega
    · change 18 * (4 + l) < 144
      omega
  change 18 * (4 + k) = 18 * (4 + l) at hwords
  omega

theorem nextSlot_rxSlot (fifoba : BitVec 32) {slot : Nat} (h : slot < rxDepth) :
    nextSlot fifoba (rxSlot fifoba slot) = rxSlot fifoba ((slot + 1) % rxDepth) := by
  rw [nextSlot]
  split
  next hlast =>
    rw [rxSlot_inj h (by decide) hlast]
    rfl
  next hlast =>
    change slot < 4 at h
    have hlt : slot + 1 < 4 := by
      obtain hlt | heq := Nat.lt_or_eq_of_le (Nat.succ_le_of_lt h)
      · exact hlt
      · exact absurd (congrArg (rxSlot fifoba) (Nat.succ.inj heq : slot = 3)) hlast
    rw [rxSlot, objAddr_objAddr, rxSlot, show rxDepth = 4 from rfl, Nat.mod_eq_of_lt hlt]
    rfl

variable {addr : BitVec 32} {obj : Obj} {ram : BitVec 32 → BitVec 32}

theorem placeObj_of_ne {n : Nat} {a : BitVec 32} (h : ∀ k, k < n → a ≠ objAddr addr k) :
    placeObj addr obj ram n a = ram a := by
  induction n with
  | zero => rfl
  | succ n ih =>
    rw [placeObj, Function.update_of_ne (h n (Nat.lt_succ_self n))]
    exact ih fun k hk => h k (Nat.lt_succ_of_lt hk)

theorem placeObj_at {n k : Nat} (hn : n ≤ objWords) (hk : k < n) :
    placeObj addr obj ram n (objAddr addr k) = obj k := by
  change n ≤ 18 at hn
  induction n with
  | zero => exact absurd hk (Nat.not_lt_zero k)
  | succ n ih =>
    rw [placeObj]
    obtain rfl | hlt := Nat.eq_or_lt_of_le (Nat.le_of_lt_succ hk)
    · exact Function.update_self ..
    · have hne : objAddr addr k ≠ objAddr addr n := fun h =>
        Nat.ne_of_lt hlt (objAddr_inj (by change k < 144; omega) (by change n < 144; omega) h)
      rw [Function.update_of_ne hne]
      exact ih hlt (by omega)

/-- `FIFOUA1` shows a slot of FIFO 1. -/
def ShowsSlot (c : Chan) (slot : Nat) : Prop :=
  slot < rxDepth ∧ c.regs .fifoua1 = rxSlot (c.regs .fifoba) slot

/-- From the slot that `FIFOUA1` shows on, the memory holds the objects that wait. -/
def Presents (c : Chan) : Prop :=
  ∃ slot, ShowsSlot c slot ∧ ∀ j o, c.rxFifo[j]? = some o → ∀ n, n < objWords →
    ramObj c (rxSlot (c.regs .fifoba) ((slot + j) % rxDepth)) n = o n

variable {c d : Chan}

structure KeepsFifo (c d : Chan) : Prop where
  fifoba : d.regs .fifoba = c.regs .fifoba
  fifoua1 : d.regs .fifoua1 = c.regs .fifoua1
  ram : d.ram = c.ram
  rxFifo : d.rxFifo = c.rxFifo

theorem Presents.keeps (h : Presents c) (hcd : KeepsFifo c d) : Presents d := by
  obtain ⟨slot, hslot, hobj⟩ := h
  refine ⟨slot, ?_, ?_⟩
  · rwa [ShowsSlot, hcd.fifoba, hcd.fifoua1]
  · simp only [ramObj, hcd.fifoba, hcd.ram, hcd.rxFifo]
    exact hobj

theorem Presents.oldest {o : Obj} {os : List Obj} (h : Presents c) (hq : c.rxFifo = o :: os) {n : Nat}
    (hn : n < objWords) : ramPort.obj c n = o n := by
  obtain ⟨slot, ⟨hslot, hua⟩, hobj⟩ := h
  have h0 := hobj 0 o (by rw [hq]; rfl) n hn
  rw [Nat.add_zero, Nat.mod_eq_of_lt hslot, ← hua] at h0
  exact h0

theorem Presents.arrive (h : Presents c) (o : Obj) : Presents (ramPort.arrive o c) := by
  obtain ⟨slot, ⟨hslot, hua⟩, -⟩ := h
  refine ⟨slot, ⟨hslot, hua⟩, fun j o' hj n hn => ?_⟩
  obtain ⟨rfl, rfl⟩ : j = 0 ∧ o = o' := by
    cases j with
    | zero => exact ⟨rfl, Option.some.inj hj⟩
    | succ j => cases hj
  rw [Nat.add_zero, Nat.mod_eq_of_lt hslot]
  change placeObj (c.regs .fifoua1) o c.ram objWords (objAddr (rxSlot (c.regs .fifoba) slot) n) = o n
  rw [← hua]
  exact placeObj_at le_rfl hn

theorem ShowsSlot.release {slot : Nat} (h : ShowsSlot c slot) :
    ShowsSlot (ramPort.release c) ((slot + 1) % rxDepth) := by
  obtain ⟨hslot, hua⟩ := h
  refine ⟨Nat.mod_lt _ (by decide), ?_⟩
  change nextSlot (c.regs .fifoba) (c.regs .fifoua1) = _
  rw [hua]
  exact nextSlot_rxSlot _ hslot

theorem Presents.release (h : Presents c) : Presents (ramPort.release c) := by
  obtain ⟨slot, hslot, hobj⟩ := h
  refine ⟨_, hslot.release, fun j o hj n hn => ?_⟩
  have hnext : c.rxFifo[j + 1]? = some o := by rwa [← List.getElem?_tail]
  rw [Nat.mod_add_mod, Nat.add_assoc, Nat.add_comm 1 j]
  exact hobj (j + 1) o hnext n hn

/-- The memory and the slot that is shown replaced. -/
def veil (ram : BitVec 32 → BitVec 32) (ua : BitVec 32) (c : Chan) : Chan :=
  { c with ram := ram, regs := Function.update c.regs .fifoua1 ua }

def Presented (ram : BitVec 32 → BitVec 32) (ua : BitVec 32) (s t : Chan) : Prop :=
  s = veil ram ua t ∧ Presents t

variable {ua : BitVec 32} {α : Type}

theorem Presents.self (h : Presents c) : Presented c.ram (c.regs .fifoua1) c c := by
  refine ⟨?_, h⟩
  rw [veil, Function.update_eq_self]

theorem modify_presented {u : Chan → Chan} (hu : ∀ c, u (veil ram ua c) = veil ram ua (u c))
    (hk : ∀ c, KeepsFifo c (u c)) :
    Prog.Lockstep (Presented ram ua) (.modify u : M Unit) (.modify u) := by
  refine .modify fun s t hst => ?_
  obtain ⟨rfl, ht⟩ := hst
  exact ⟨hu t, ht.keeps (hk t)⟩

theorem get_presented {k : Chan → M α} (hk : ∀ c, k (veil ram ua c) = k c)
    (h : ∀ c, Prog.Lockstep (Presented ram ua) (k c) (k c)) :
    Prog.Lockstep (Presented ram ua) (.get >>= k) (.get >>= k) := by
  refine .get_bind fun s t hst => ?_
  rw [hst.1, hk]
  exact h t

theorem pollUntil_presented (done : BitVec 32 → Bool) (start : BitVec 32) (xs : List Sample) :
    Prog.Lockstep (Presented ram ua) (pollUntil done start xs) (pollUntil done start xs) := by
  induction xs with
  | nil => exact .fail _
  | cons x xs ih =>
    exact .ite Iff.rfl (.pure _) (get_presented (fun _ => rfl) fun _ => .ite Iff.rfl (.pure _) ih)

theorem waitFlag_presented (mask : BitVec 32) (p : Poll) :
    Prog.Lockstep (Presented ram ua) (waitFlag mask p) (waitFlag mask p) :=
  .bind (get_presented (fun _ => rfl) fun _ => .pure _) fun _ => pollUntil_presented _ _ _

theorem rxAvailable_presented : Prog.Lockstep (Presented ram ua) rxAvailable rxAvailable :=
  get_presented (fun _ => rfl) fun _ => .ite Iff.rfl (.pure _) <|
    get_presented (fun _ => rfl) fun _ => .pure _

theorem Presented.oldest {s t : Chan} {o : Obj} {os : List Obj} (h : Presented ram ua s t)
    (hq : s.rxFifo = o :: os) (f : Frame) :
    parseObj (fifoPort.obj s) f = parseObj (ramPort.obj t) f := by
  obtain ⟨rfl, ht⟩ := h
  have hobj : fifoPort.obj (veil ram ua t) = o := congrArg (List.headD · fun _ => 0) hq
  rw [hobj]
  exact parseObj_words (fun n hn => (ht.oldest hq hn).symm) f

theorem Presented.release {s t : Chan} (h : Presented ram ua s t) :
    Presented ram ua (fifoPort.release s) (ramPort.release t) := by
  obtain ⟨rfl, ht⟩ := h
  refine ⟨?_, ht.release⟩
  apply Chan.ext
  case regs => exact (Function.update_idem ..).symm
  all_goals rfl

/-- With its objects in the memory, `nora_canfd_receive` gets what waits in the FIFO. -/
theorem receive_refines {s t : Chan} (h : Presented ram ua s t) (frame : Option Frame) (p : Poll)
    (arriving : Obj) : Prog.EndAlike (Presented ram ua) (receive frame p arriving) s
      (receiveFrom ramPort frame p arriving) t := by
  cases frame with
  | none => exact .pure _ h
  | some f =>
    have hnode : s.node = t.node := by rw [h.1]; rfl
    have hwait : frameWait s p = frameWait t p := by rw [h.1]; rfl
    refine .get_bind (.ite (by rw [hnode]) (.pure _ h) (.get_bind ?_))
    rw [hwait]
    refine .bind (.of_lockstep (waitFlag_presented _ _) h) fun st s t h => ?_
    refine .ite Iff.rfl (.pure _ h) (.bind (T := fun s t => Presented ram ua s t ∧ s.rxFifo ≠ [])
      (.modify ?_) fun _ s t h => ?_)
    · have hfifo : s.rxFifo = t.rxFifo := by rw [h.1]; rfl
      rw [hfifo]
      split
      next =>
        obtain ⟨rfl, ht⟩ := h
        exact ⟨⟨rfl, ht.arrive arriving⟩, List.cons_ne_nil _ _⟩
      next hne => exact ⟨h, fun hq => hne (by rw [← hfifo, hq]; rfl)⟩
    · obtain ⟨h, hne⟩ := h
      obtain ⟨o, os, hq⟩ := List.exists_cons_of_ne_nil hne
      refine .get_bind ?_
      rw [h.oldest hq f]
      exact .bind (.modify h.release) fun _ _ _ h => .pure _ h

end NoraCanfd

end CanfdDriver
