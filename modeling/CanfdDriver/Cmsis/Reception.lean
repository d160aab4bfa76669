import CanfdDriver.Cmsis.Driver
import CanfdDriver.Hal.Reception
import CanfdDriver.Hal.Run

namespace CanfdDriver

open Lib NoraCanfd Cmsis

namespace NoraCanfd

variable {ram : BitVec 32 → BitVec 32} {ua : BitVec 32}

theorem setReg_veil {x : Reg} (hx : x ≠ .fifoua1) (f : BitVec 32 → BitVec 32) (c : Chan) :
    (veil ram ua c).setReg x (f ((veil ram ua c).regs x)) = veil ram ua (c.setReg x (f (c.regs x))) := by
  have hread : (veil ram ua c).regs x = c.regs x := Function.update_of_ne hx _ _
  rw [hread]
  exact Chan.ext rfl rfl rfl rfl rfl rfl (Function.update_comm hx.symm _ _ _) rfl rfl rfl

theorem regClear_presented {x : Reg} (hx : x ≠ .fifoua1) (hb : x ≠ .fifoba) (mask : BitVec 32) :
    Prog.Lockstep (Presented ram ua) (regClear x mask) (regClear x mask) :=
  modify_presented (setReg_veil hx (· &&& ~~~mask)) fun _ =>
    ⟨Function.update_of_ne hb.symm _ _, Function.update_of_ne hx.symm _ _, rfl, rfl⟩

theorem onTx_presented (f : Line → Line) :
    Prog.Lockstep (Presented ram ua) (onTx f) (onTx f) :=
  modify_presented (fun _ => rfl) fun _ => ⟨rfl, rfl, rfl, rfl⟩

theorem txDisarm_presented : Prog.Lockstep (Presented ram ua) txDisarm txDisarm := by
  refine .bind (regClear_presented (by decide) (by decide) _) fun _ => ?_
  refine .bind (regClear_presented (by decide) (by decide) _) fun _ => ?_
  exact .bind (.bind (onTx_presented _) fun _ => onTx_presented _) fun _ =>
    modify_presented (fun _ => rfl) fun _ => ⟨rfl, rfl, rfl, rfl⟩

theorem irqDecide_presented : Prog.Lockstep (Presented ram ua) irqDecide irqDecide := by
  refine .bind (get_presented (fun _ => rfl) fun _ => .pure _) fun _ => .ite Iff.rfl (.pure _) ?_
  refine get_presented (fun _ => rfl) fun _ => .bind (.ite Iff.rfl ?_ (.pure _)) fun _ => ?_
  · exact regClear_presented (by decide) (by decide) _
  · exact get_presented (fun _ => rfl) fun _ => .pure _

theorem irqReport_presented (x : Option (BitVec 32 × Bool)) :
    Prog.Lockstep (Presented ram ua) (irqReport x) (irqReport x) := by
  cases x with
  | none => exact .pure _
  | some x =>
    refine .bind (.ite Iff.rfl txDisarm_presented (.pure _)) fun _ => ?_
    refine .bind (regClear_presented (by decide) (by decide) _) fun _ => ?_
    refine get_presented (fun _ => rfl) fun _ => get_presented (fun _ => rfl) fun c => ?_
    cases c.isr.cb with
    | none => exact .pure _
    | some f => exact .ite Iff.rfl (.pure _) (.pure _)

theorem irqLineClear_presented :
    Prog.Lockstep (Presented ram ua) irqLineClear irqLineClear := by
  refine .bind (modify_presented (fun _ => rfl) fun _ => ⟨rfl, rfl, rfl, rfl⟩) fun _ => ?_
  exact .bind (onTx_presented _) fun _ =>
    modify_presented (fun _ => rfl) fun _ => ⟨rfl, rfl, rfl, rfl⟩

end NoraCanfd

namespace Cmsis

variable {ram : BitVec 32 → BitVec 32} {ua : BitVec 32}

theorem canMessageRead_presented (args : ReadArgs) :
    Prog.Lockstep (Presented ram ua) (canMessageRead args) (canMessageRead args) := by
  refine get_presented (fun _ => rfl) fun _ => .ite Iff.rfl (.pure _) (.ite Iff.rfl (.pure _) ?_)
  refine get_presented (fun _ => rfl) fun _ => get_presented (fun _ => rfl) fun _ => ?_
  refine .ite Iff.rfl (.pure _) (get_presented (fun _ => rfl) fun _ => .bind ?_ fun _ => .pure _)
  exact modify_presented (fun _ => rfl) fun _ => ⟨rfl, rfl, rfl, rfl⟩

theorem runReads_presented (reads : List ReadArgs) :
    Prog.Lockstep (Presented ram ua) (runReads reads) (runReads reads) := by
  induction reads with
  | nil => exact .pure _
  | cons args rest ih => exact .bind (canMessageRead_presented args) fun _ => ih

theorem signalObject_presented (app : App) (event : BitVec 32) :
    Prog.Lockstep (Presented ram ua) (signalObject app event) (signalObject app event) := by
  refine get_presented (fun _ => rfl) fun _ => .ite Iff.rfl (.pure _) (.bind ?_ fun _ => ?_)
  · exact modify_presented (fun _ => rfl) fun _ => ⟨rfl, rfl, rfl, rfl⟩
  · exact runReads_presented _

theorem signalUnit_presented (app : App) (event : BitVec 32) :
    Prog.Lockstep (Presented ram ua) (signalUnit app event) (signalUnit app event) := by
  refine get_presented (fun _ => rfl) fun _ => .ite Iff.rfl (.pure _) (.bind ?_ fun _ => ?_)
  · exact modify_presented (fun _ => rfl) fun _ => ⟨rfl, rfl, rfl, rfl⟩
  · exact runReads_presented _

theorem storeFrame_presented (f : Frame) :
    Prog.Lockstep (Presented ram ua) (storeFrame f) (storeFrame f) := by
  refine get_presented (fun _ => rfl) fun _ => .ite Iff.rfl (.bind ?_ fun _ => .pure _)
    (.bind ?_ fun _ => .pure _)
  · exact modify_presented (fun _ => rfl) fun _ => ⟨rfl, rfl, rfl, rfl⟩
  · exact modify_presented (fun _ => rfl) fun _ => ⟨rfl, rfl, rfl, rfl⟩

variable {s t : Chan}

theorem drain_refines (h : Presented ram ua s t) (n : Nat) (f : Frame) (received dropped : Bool) :
    Prog.EndAlike (Presented ram ua) (drain n f received dropped) s
      (drainFrom ramPort n f received dropped) t := by
  induction n generalizing f received dropped s t with
  | zero => exact .fail _
  | succ n ih =>
    refine .bind (.of_lockstep rxAvailable_presented h) fun _ s t h => .ite Iff.rfl (.pure _ h) ?_
    refine .bind (receive_refines h _ _ _) fun x s t h => ?_
    split
    next => exact .bind (.of_lockstep (storeFrame_presented _) h) fun _ _ _ h => ih h _ _ _
    next => exact .pure _ h

theorem canHalEvent_refines (h : Presented ram ua s t) (app : App) (f : Frame) (events : BitVec 32)
    (ud : Option UserData) : Prog.EndAlike (Presented ram ua) (canHalEvent app f events ud) s
      (canHalEventFrom ramPort app f events ud) t := by
  cases ud with
  | none => exact .pure _ h
  | some ud =>
    refine .bind (T := Presented ram ua) (.ite Iff.rfl (.get_bind ?_) (.pure _ h)) fun _ s t h => ?_
    · have hfifo : s.rxFifo = t.rxFifo := by rw [h.1]; rfl
      rw [hfifo]
      refine .bind (drain_refines h _ _ _ _) fun x s t h => .of_lockstep ?_ h
      exact .bind (.ite Iff.rfl (signalObject_presented _ _) (.pure _)) fun _ =>
        .ite Iff.rfl (signalObject_presented _ _) (.pure _)
    · refine .of_lockstep ?_ h
      exact .bind (.ite Iff.rfl (signalObject_presented _ _) (.pure _)) fun _ =>
        .ite Iff.rfl (signalUnit_presented _ _) (.pure _)

theorem handler_refines (h : Presented ram ua s t) (app : App) (f : Frame) :
    Prog.EndAlike (Presented ram ua) (handler app f) s (handlerFrom ramPort app f) t := by
  rw [handler, handlerFrom, handlerFrom, irqHandler_eq, irqHandler_eq, irqEvents]
  refine .bind (.of_lockstep (.bind irqDecide_presented irqReport_presented) h) fun x s t h => ?_
  refine .bind (T := Presented ram ua) ?_ fun _ _ _ h => .of_lockstep irqLineClear_presented h
  cases x with
  | none => exact .pure _ h
  | some x =>
    obtain ⟨cb, events, ud⟩ := x
    cases cb with
    | canHalEvent => exact canHalEvent_refines h _ _ _ _
    | application => exact .pure _ h

/-- Where the memory holds the objects that wait, a run of the handler that reads them there ends as
one that takes them from the FIFO, and the memory holds those that are left. -/
theorem handler_reads_ram {c : Chan} (h : Presents c) (app : App) (f : Frame) :
    Prog.EndAlike (Presented c.ram (c.regs .fifoua1)) (handler app f) c (handlerFrom ramPort app f) c :=
  handler_refines h.self app f

end Cmsis

end CanfdDriver
