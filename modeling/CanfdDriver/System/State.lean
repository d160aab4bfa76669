import CanfdDriver.Cmsis.Driver
import CanfdDriver.Lib.Lockstep

namespace CanfdDriver

open Lib NoraCanfd Cmsis

namespace NoraCanfd

inductive Inst : Type
  | inst1 | inst2
  deriving DecidableEq

def idx1 : Fin 2 := 0
def idx2 : Fin 2 := 1

inductive Sfr : Type
  | c1 (r : Reg)
  | c2 (r : Reg)
  deriving DecidableEq

inductive CpuLine : Type
  | c1rx | c1tx | c1
  | c2rx | c2tx | c2
  deriving DecidableEq

inductive Pmd : Type
  | c1md | c2md
  deriving DecidableEq

end NoraCanfd

@[ext] structure System : Type where
  /-- `C1CON`, `C2CON` are defined. -/
  present : Inst → Bool
  /-- `_C1MD`, `_C2MD` are defined. -/
  mdDefined : Inst → Bool
  ctx : Fin 2 → Context
  node : Inst → NodeState
  mode : Inst → Mode
  cb : Inst → Option EventCallback
  /-- `g_ud`: the wrapper's context that it points at, if it does. -/
  ud : Inst → Option (Fin 2)
  txBusy : Inst → Bool
  irqPriority : Inst → BitVec 8
  isrEnabled : Inst → Bool
  sfr : Sfr → BitVec 32
  line : CpuLine → Line
  md : Pmd → Bool
  ram : BitVec 32 → BitVec 32
  /-- The objects waiting in RX FIFO 1 of each module. -/
  rxFifo : Inst → List Obj
  trace : Inst → List Obs

abbrev S := Prog System Stop

namespace NoraCanfd.Inst

def other : Inst → Inst
  | .inst1 => .inst2
  | .inst2 => .inst1

def index : Inst → Fin 2
  | .inst1 => 0
  | .inst2 => 1

def sfr : Inst → Reg → Sfr
  | .inst1 => .c1
  | .inst2 => .c2

def rx : Inst → CpuLine
  | .inst1 => .c1rx
  | .inst2 => .c2rx

def tx : Inst → CpuLine
  | .inst1 => .c1tx
  | .inst2 => .c2tx

def gen : Inst → CpuLine
  | .inst1 => .c1
  | .inst2 => .c2

def md : Inst → Pmd
  | .inst1 => .c1md
  | .inst2 => .c2md

end NoraCanfd.Inst

/-- The message RAM of each instance, as the addresses of its words. -/
structure MsgRams : Type where
  region : Inst → BitVec 32 → Prop
  disjoint : ∀ a, region .inst1 a → ¬region .inst2 a

theorem MsgRams.not_other (rams : MsgRams) (i : Inst) (a : BitVec 32) (h : rams.region i.other a) :
    ¬rams.region i a := by
  cases i with
  | inst1 => exact fun h' => rams.disjoint a h' h
  | inst2 => exact rams.disjoint a h

/-- The states agree on everything that belongs to the instance. -/
structure SamePart (rams : MsgRams) (i : Inst) (m n : System) : Prop where
  present : n.present i = m.present i
  mdDefined : n.mdDefined i = m.mdDefined i
  ctx : n.ctx i.index = m.ctx i.index
  node : n.node i = m.node i
  mode : n.mode i = m.mode i
  cb : n.cb i = m.cb i
  ud : n.ud i = m.ud i
  txBusy : n.txBusy i = m.txBusy i
  irqPriority : n.irqPriority i = m.irqPriority i
  isrEnabled : n.isrEnabled i = m.isrEnabled i
  sfr : ∀ r, n.sfr (i.sfr r) = m.sfr (i.sfr r)
  rx : n.line i.rx = m.line i.rx
  tx : n.line i.tx = m.line i.tx
  gen : n.line i.gen = m.line i.gen
  md : n.md i.md = m.md i.md
  ram : ∀ a, rams.region i a → n.ram a = m.ram a
  rxFifo : n.rxFifo i = m.rxFifo i
  trace : n.trace i = m.trace i

namespace NoraCanfd

def canfdDevices : Inst → Reg → Sfr
  | .inst1 => fun
    | .con => .c1 .con
    | .nbtcfg => .c1 .nbtcfg
    | .dbtcfg => .c1 .dbtcfg
    | .tdc => .c1 .tdc
    | .fifoba => .c1 .fifoba
    | .txqcon => .c1 .txqcon
    | .txqsta => .c1 .txqsta
    | .txqua => .c1 .txqua
    | .fifocon1 => .c1 .fifocon1
    | .fifosta1 => .c1 .fifosta1
    | .fifoua1 => .c1 .fifoua1
    | .fltcon0 => .c1 .fltcon0
    | .fltobj0 => .c1 .fltobj0
    | .mask0 => .c1 .mask0
    | .int => .c1 .int
    | .trec => .c1 .trec
  | .inst2 => fun
    | .con => .c2 .con
    | .nbtcfg => .c2 .nbtcfg
    | .dbtcfg => .c2 .dbtcfg
    | .tdc => .c2 .tdc
    | .fifoba => .c2 .fifoba
    | .txqcon => .c2 .txqcon
    | .txqsta => .c2 .txqsta
    | .txqua => .c2 .txqua
    | .fifocon1 => .c2 .fifocon1
    | .fifosta1 => .c2 .fifosta1
    | .fifoua1 => .c2 .fifoua1
    | .fltcon0 => .c2 .fltcon0
    | .fltobj0 => .c2 .fltobj0
    | .mask0 => .c2 .mask0
    | .int => .c2 .int
    | .trec => .c2 .trec

def Reg.all : List Reg :=
  [.con, .nbtcfg, .dbtcfg, .tdc, .fifoba, .txqcon, .txqsta, .txqua, .fifocon1, .fifosta1, .fifoua1,
    .fltcon0, .fltobj0, .mask0, .int, .trec]

def storeRegs (table : Reg → Sfr) (regs : Reg → BitVec 32) (sfr : Sfr → BitVec 32) (x : Sfr) :
    BitVec 32 :=
  match Reg.all.find? fun r => table r = x with
  | some r => regs r
  | none => sfr x

theorem Inst.sfr_injective (i : Inst) : Function.Injective i.sfr := by
  cases i with
  | inst1 => exact fun _ _ h => Sfr.c1.inj h
  | inst2 => exact fun _ _ h => Sfr.c2.inj h

theorem Inst.other_sfr_ne (i : Inst) (r r' : Reg) : i.other.sfr r' ≠ i.sfr r := by
  cases i <;> exact fun h => by cases h

theorem Inst.sfr_cases (i : Inst) (x : Sfr) : (∃ r, x = i.sfr r) ∨ ∃ r, x = i.other.sfr r := by
  cases i with
  | inst1 =>
    cases x with
    | c1 r => exact .inl ⟨r, rfl⟩
    | c2 r => exact .inr ⟨r, rfl⟩
  | inst2 =>
    cases x with
    | c1 r => exact .inr ⟨r, rfl⟩
    | c2 r => exact .inl ⟨r, rfl⟩

theorem canfdDevices_eq (i : Inst) (r : Reg) : canfdDevices i r = i.sfr r := by
  cases i <;> cases r <;> rfl

theorem storeRegs_self (i : Inst) (regs : Reg → BitVec 32) (sfr : Sfr → BitVec 32) (r : Reg) :
    storeRegs (canfdDevices i) regs sfr (i.sfr r) = regs r := by
  cases i <;> cases r <;> rfl

theorem storeRegs_other (i : Inst) (regs : Reg → BitVec 32) (sfr : Sfr → BitVec 32) (r : Reg) :
    storeRegs (canfdDevices i) regs sfr (i.other.sfr r) = sfr (i.other.sfr r) := by
  cases i <;> cases r <;> rfl

theorem storeRegs_update (i : Inst) (regs : Reg → BitVec 32) (sfr : Sfr → BitVec 32) (r : Reg)
    (v : BitVec 32) :
    Function.update (storeRegs (canfdDevices i) regs sfr) (canfdDevices i r) v =
      storeRegs (canfdDevices i) (Function.update regs r v) sfr := by
  funext x
  rw [canfdDevices_eq]
  obtain ⟨r', rfl⟩ | ⟨r', rfl⟩ := i.sfr_cases x
  · rw [storeRegs_self, Function.update_apply, Function.update_apply, storeRegs_self]
    simp only [i.sfr_injective.eq_iff]
  · rw [Function.update_of_ne (i.other_sfr_ne r r'), storeRegs_other, storeRegs_other]

theorem storeRegs_storeRegs (table : Reg → Sfr) (regs regs' : Reg → BitVec 32)
    (sfr : Sfr → BitVec 32) :
    storeRegs table regs (storeRegs table regs' sfr) = storeRegs table regs sfr := by
  funext x
  simp only [storeRegs]
  split <;> rfl

/-- What a context and an instance make up as a single channel. -/
def viewChan (k : Fin 2) (i : Inst) (m : System) : Chan where
  present := m.present i
  ctx := m.ctx k
  node := m.node i
  mode := m.mode i
  isr := ⟨m.cb i, (m.ud i).map fun _ => .ctx, m.txBusy i, m.irqPriority i, m.isrEnabled i⟩
  irq := ⟨m.line i.rx, m.line i.tx, m.line i.gen⟩
  regs r := m.sfr (canfdDevices i r)
  ram := m.ram
  rxFifo := m.rxFifo i
  trace := m.trace i

def storeLines (i : Inst) (irq : CpuIrq) (line : CpuLine → Line) : CpuLine → Line :=
  match i with
  | .inst1 => fun
    | .c1rx => irq.rx
    | .c1tx => irq.tx
    | .c1 => irq.gen
    | x => line x
  | .inst2 => fun
    | .c2rx => irq.rx
    | .c2tx => irq.tx
    | .c2 => irq.gen
    | x => line x

def storeChan (k : Fin 2) (i : Inst) (c : Chan) (m : System) : System where
  present := Function.update m.present i c.present
  mdDefined := m.mdDefined
  ctx := Function.update m.ctx k c.ctx
  node := Function.update m.node i c.node
  mode := Function.update m.mode i c.mode
  cb := Function.update m.cb i c.isr.cb
  ud := Function.update m.ud i (c.isr.ud.map fun _ => k)
  txBusy := Function.update m.txBusy i c.isr.txBusy
  irqPriority := Function.update m.irqPriority i c.isr.irqPriority
  isrEnabled := Function.update m.isrEnabled i c.isr.isrEnabled
  sfr := storeRegs (canfdDevices i) c.regs m.sfr
  line := storeLines i c.irq m.line
  md := m.md
  ram := c.ram
  rxFifo := Function.update m.rxFifo i c.rxFifo
  trace := Function.update m.trace i c.trace

theorem viewChan_storeChan (k : Fin 2) (i : Inst) (c : Chan) (m : System) :
    viewChan k i (storeChan k i c m) = c := by
  apply Chan.ext
  case isr =>
    simp only [viewChan, storeChan, Function.update_self, Option.map_map, Function.comp_def]
    exact congrArg (fun ud => { c.isr with ud := ud }) Option.map_id'
  case irq => cases i <;> rfl
  case regs =>
    funext r
    change storeRegs (canfdDevices i) c.regs m.sfr (canfdDevices i r) = c.regs r
    rw [canfdDevices_eq, storeRegs_self]
  all_goals simp only [viewChan, storeChan, Function.update_self]

theorem storeChan_storeChan (k : Fin 2) (i : Inst) (c d : Chan) (m : System) :
    storeChan k i c (storeChan k i d m) = storeChan k i c m := by
  apply System.ext
  case sfr => exact storeRegs_storeRegs _ _ _ _
  case line =>
    funext x
    cases i <;> cases x <;> rfl
  all_goals simp only [storeChan, Function.update_idem]

def channel (k : Fin 2) (i : Inst) : Focus System Chan :=
  ⟨viewChan k i, storeChan k i, viewChan_storeChan k i, storeChan_storeChan k i⟩

end NoraCanfd

end CanfdDriver
