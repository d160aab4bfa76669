import CanfdDriver.Hal.Common
import CanfdDriver.Lib.MaskedWrite
import CanfdDriver.Lib.Prog
import CanfdDriver.Lib.Ring

/-! The state of one CAN instance: the wrapper's context, the static tables of
the HAL at this instance's index, and the hardware. -/

namespace CanfdDriver

open Lib NoraCanfd

namespace NoraCanfd

/-- The payload buffer has 64 bytes; `data` is only used below 64. -/
@[ext] structure Frame : Type where
  id : BitVec 32
  extended : Bool
  fd : Bool
  brs : Bool
  len : Nat
  data : Nat → BitVec 8

abbrev Obj := Nat → BitVec 32

structure NodeState : Type where
  initialized : Bool
  /-- `get_ms` is not `NULL`. -/
  getMs : Bool
  timeoutMs : BitVec 32
  deriving DecidableEq

/-- The function a callback pointer holds: the wrapper's, or an application's
own when the HAL is used without the wrapper. -/
inductive EventCallback : Type
  | canHalEvent | application
  deriving DecidableEq

/-- The context of this very instance is the only user data the wrapper passes. -/
inductive UserData : Type
  | ctx
  deriving DecidableEq

structure IsrState : Type where
  cb : Option EventCallback
  ud : Option UserData
  txBusy : Bool
  irqPriority : BitVec 8
  isrEnabled : Bool
  deriving DecidableEq

structure Line : Type where
  flag : Bool
  enable : Bool
  priority : BitVec 3
  deriving DecidableEq

structure CpuIrq : Type where
  rx : Line
  tx : Line
  gen : Line
  deriving DecidableEq

end NoraCanfd

namespace Cmsis

structure MsgRam : Type where
  addr : BitVec 32
  size : BitVec 16
  addr_ne_zero : addr ≠ 0
  aligned : addr &&& 3 = 0
  size_le : 576 ≤ size.toNat

def exampleRam : MsgRam := ⟨0x4000, 576, by decide, by decide, by decide⟩

abbrev Callback := Nat

structure Context : Type where
  msgRam : MsgRam
  cbUnit : Option Callback
  cbObject : Option Callback
  canClkHz : BitVec 32
  nominalBps : BitVec 32
  dataBps : BitVec 32
  samplePct : BitVec 8
  fdMode : BitVec 8
  irqPriority : BitVec 8
  timeoutMs : BitVec 32
  enabled : Bool
  initialized : Bool
  powered : Bool
  mode : Mode
  /-- `rx_ring`, `rx_head`, `rx_tail`. -/
  rx : Ring 7 Frame

inductive Signal : Type
  | object (objIdx event : BitVec 32)
  | unit (event : BitVec 32)
  deriving DecidableEq

end Cmsis

open Cmsis

/-- What the code does to the world outside its variables and registers.  The
record is ghost state: no function reads it. -/
inductive Obs : Type
  /-- An application callback is invoked; the context is the one it finds. -/
  | signal (s : Signal) (ctx : Context)
  | appended (f : Frame)
  | dropped (f : Frame)
  | handed (f : Frame)
  | ramWrite (addr word : BitVec 32)
  | uinc
  | txreq

@[ext] structure Chan : Type where
  present : Bool
  ctx : Context
  node : NodeState
  mode : Mode
  isr : IsrState
  irq : CpuIrq
  regs : Reg → BitVec 32
  ram : BitVec 32 → BitVec 32
  /-- The objects waiting in RX FIFO 1, oldest first. -/
  rxFifo : List Obj
  trace : List Obs

namespace Chan

@[simps] def setCtx (c : Chan) (x : Context) : Chan := { c with ctx := x }
@[simps] def setNode (c : Chan) (x : NodeState) : Chan := { c with node := x }
@[simps] def setMode (c : Chan) (x : Mode) : Chan := { c with mode := x }
@[simps] def setIsr (c : Chan) (x : IsrState) : Chan := { c with isr := x }
@[simps] def setIrq (c : Chan) (x : CpuIrq) : Chan := { c with irq := x }
@[simps] def log (c : Chan) (o : Obs) : Chan := { c with trace := c.trace ++ [o] }

@[simps] def setReg (c : Chan) (r : Reg) (v : BitVec 32) : Chan :=
  { c with regs := Function.update c.regs r v }

@[simps] def writeRam (c : Chan) (addr word : BitVec 32) : Chan :=
  { c with
    ram := Function.update c.ram addr word
    trace := c.trace ++ [.ramWrite addr word] }

def fifosta1 (c : Chan) : BitVec 32 :=
  if c.rxFifo.isEmpty then c.regs .fifosta1 &&& ~~~fifostaTfnrfnif
  else c.regs .fifosta1 ||| fifostaTfnrfnif

end Chan

/-- The bits that the module itself sets and clears. -/
def hwBits : Reg → BitVec 32
  | .con => conOpmodMask ||| conCanbusy
  | .txqcon => fifoconUinc ||| fifoconTxreq ||| fifoconFreset
  | .fifocon1 => fifoconUinc ||| fifoconFreset
  | .txqsta | .txqua | .fifosta1 | .fifoua1 | .trec => BitVec.allOnes 32
  | .int => 0xFFFF
  | _ => 0

structure Hw : Type where
  regs : Reg → BitVec 32
  rxFifo : List Obj
  rxFlag : Bool
  txFlag : Bool
  genFlag : Bool

@[simps] def Chan.sense (c : Chan) (hw : Hw) : Chan :=
  { c with
    regs := fun r => (MaskedWrite.field (hwBits r) (hw.regs r)).apply (c.regs r)
    rxFifo := hw.rxFifo
    irq :=
      { rx := { c.irq.rx with flag := hw.rxFlag }
        tx := { c.irq.tx with flag := hw.txFlag }
        gen := { c.irq.gen with flag := hw.genFlag } } }

/-- What a polling loop reads: at each round the register, then the tick. -/
structure Sample : Type where
  value : BitVec 32
  tick : BitVec 32

structure Poll : Type where
  start : BitVec 32
  samples : List Sample

abbrev M := Prog Chan Stop

end CanfdDriver
