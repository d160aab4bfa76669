import CanfdDriver.State

/-! The node layer: initialisation, bit-rate change, blocking transmit and
receive.  A polling loop takes the samples it reads as a script. -/

namespace CanfdDriver.NoraCanfd

open Lib

def txqDepth : Nat := 4
def rxDepth : Nat := 4
def payloadBytes : Nat := 64
def plsizeCode : BitVec 32 := plsize64
def objBytes : Nat := objHeaderBytes + payloadBytes
def objWords : Nat := objBytes / 4
def msgRamBytes : Nat := (txqDepth + rxDepth) * objBytes
def defaultSamplePct : BitVec 8 := 80

structure Config : Type where
  canClkHz : BitVec 32
  nominalBps : BitVec 32
  dataBps : BitVec 32
  samplePct : BitVec 8
  brs : Bool
  mode : Mode
  timeoutMs : BitVec 32
  getMs : Bool
  /-- The address of the region; `NULL` is 0. -/
  msgRam : BitVec 32
  msgRamSize : BitVec 16

def regSet (r : Reg) (mask : BitVec 32) : M Unit :=
  .modify fun c => c.setReg r (c.regs r ||| mask)

def regClear (r : Reg) (mask : BitVec 32) : M Unit :=
  .modify fun c => c.setReg r (c.regs r &&& ~~~mask)

def regWriteField (r : Reg) (mask value : BitVec 32) : M Unit :=
  .modify fun c => c.setReg r ((c.regs r &&& ~~~mask) ||| (value &&& mask))

def regWrite (r : Reg) (value : BitVec 32) : M Unit :=
  .modify fun c => c.setReg r value

def getRegs : M Status := do
  let c ← .get
  return if c.present then .ok else .notPresent

def setMode (mode : Mode) : M Unit := .modify fun c => c.setMode mode

def isInitialized (c : Chan) : Bool := c.mode ≠ .none

/-! ### Mode requests and polling -/

def modeToReqop : Mode → BitVec 8
  | .normalFd => opmodeNormalFd
  | .normalClassic => opmodeNormalClassic
  | .internalLoopback => opmodeInternalLoop
  | .externalLoopback => opmodeExternalLoop
  | .listenOnly => opmodeListenOnly
  | .none => opmodeConfig

def opmodGet (con : BitVec 32) : BitVec 8 :=
  ((con &&& conOpmodMask) >>> conOpmodPos).setWidth 8

def NodeState.expired (n : NodeState) (start tick : BitVec 32) : Bool :=
  n.getMs && n.timeoutMs ≠ 0 && n.timeoutMs ≤ tick - start

def pollUntil (done : BitVec 32 → Bool) (start : BitVec 32) : List Sample → M Status
  | [] => .fail .polling
  | x :: xs =>
    if done x.value then return .ok
    else do
      let c ← .get
      if c.node.expired start x.tick then return .timeout
      else pollUntil done start xs

def startTick (p : Poll) : M (BitVec 32) := do
  let c ← .get
  return if c.node.getMs then p.start else 0

def requestMode (reqop : BitVec 8) (p : Poll) : M Status := do
  let start ← startTick p
  regWriteField .con conReqopMask (reqop.setWidth 32 <<< conReqopPos)
  pollUntil (fun con => opmodGet con = reqop) start p.samples

def waitFlag (mask : BitVec 32) (p : Poll) : M Status := do
  let start ← startTick p
  pollUntil (fun v => v &&& mask ≠ 0) start p.samples

/-! ### Initialisation and bit rate -/

def solved (x : Except Stop (Option BitTiming)) : M (Option BitTiming) :=
  match x with
  | .ok t => pure t
  | .error e => .fail e

def effectiveSamplePct (samplePct : BitVec 8) : BitVec 8 :=
  if samplePct ≠ 0 then samplePct else defaultSamplePct

def writeBitTiming (t : BitTiming) : M Unit := do
  regWrite .nbtcfg t.nbtcfg
  regWrite .dbtcfg t.dbtcfg
  regWrite .tdc t.tdc

def txqconWord : BitVec 32 :=
  (plsizeCode <<< fifoconPlsizePos) ||| (BitVec.ofNat 32 (txqDepth - 1) <<< fifoconFsizePos)

def fifocon1Word : BitVec 32 :=
  (plsizeCode <<< fifoconPlsizePos) ||| (BitVec.ofNat 32 (rxDepth - 1) <<< fifoconFsizePos)

def fltcon0Word : BitVec 32 := (1#32 <<< fltcon0F0bpPos) ||| fltcon0Flten0

/-- `nora_canfd_init` between its two mode requests. -/
def configure (cfg : Config) (t : BitTiming) : M Unit := do
  regClear .con conClksel
  regSet .con conIsocrcen
  (if cfg.brs then regClear .con conBrsdis else regSet .con conBrsdis)
  regClear .con conStef
  regSet .con conTxqen
  writeBitTiming t
  regWrite .fifoba cfg.msgRam
  regWrite .txqcon txqconWord
  regWrite .fifocon1 fifocon1Word
  regWrite .fltobj0 0
  regWrite .mask0 0
  regWrite .fltcon0 fltcon0Word

/-- `nora_canfd_init` from the point where its arguments are accepted. -/
def bringUp (cfg : Config) (t : BitTiming) (toConfig toMode : Poll) : M Status := do
  .modify fun c => c.setNode { c.node with getMs := cfg.getMs }
  .modify fun c => c.setNode { c.node with timeoutMs := cfg.timeoutMs }
  .modify fun c => c.setNode { c.node with initialized := false }
  setMode .none
  regSet .con conOn
  let st ← requestMode opmodeConfig toConfig
  if st ≠ .ok then
    regClear .con conOn
    return st
  else
    configure cfg t
    let st ← requestMode (modeToReqop cfg.mode) toMode
    if st ≠ .ok then
      regClear .con conOn
      return st
    else
      setMode cfg.mode
      .modify fun c => c.setNode { c.node with initialized := true }
      return .ok

def init (config : Option Config) (toConfig toMode : Poll) : M Status :=
  match config with
  | none => return .invalidArg
  | some cfg =>
    if cfg.msgRam = 0 then return .invalidArg
    else if cfg.msgRam &&& 3 ≠ 0 then return .invalidArg
    else if cfg.msgRamSize.toNat < msgRamBytes then return .invalidArg
    else if cfg.mode = .none then return .invalidArg
    else do
      let st ← getRegs
      if st ≠ .ok then return st
      else
        let t ← solved (calcBitTiming cfg.canClkHz cfg.nominalBps cfg.dataBps
          (effectiveSamplePct cfg.samplePct))
        match t with
        | none => return .invalidArg
        | some t => bringUp cfg t toConfig toMode

/-- `nora_canfd_set_bitrate` from the point where a timing is found: drop to
configuration mode, write it, restore the operating mode. -/
def retime (t : BitTiming) (toConfig toMode : Poll) : M Status := do
  let c ← .get
  let prevMode := c.mode
  let st ← requestMode opmodeConfig toConfig
  -- A request that times out stays in CON.
  if st ≠ .ok then return st
  else
    writeBitTiming t
    requestMode (modeToReqop prevMode) toMode

def setBitrate (canClkHz nominalBps dataBps : BitVec 32) (samplePct : BitVec 8)
    (toConfig toMode : Poll) : M Status :=
  if canClkHz = 0 ∨ nominalBps = 0 ∨ dataBps = 0 then return .invalidArg
  else do
    let st ← getRegs
    if st ≠ .ok then return st
    else
      let c ← .get
      if !c.node.initialized then return .notInitialized
      else
        let t ← solved (calcBitTiming canClkHz nominalBps dataBps (effectiveSamplePct samplePct))
        match t with
        | none => return .invalidArg
        | some t => retime t toConfig toMode

def deinit (toOff : Poll) : M Status := do
  let st ← getRegs
  if st ≠ .ok then return st
  else
    let c ← .get
    if !isInitialized c then
      .modify fun c => c.setNode { c.node with initialized := false }
      return .ok
    else
      let _ ← requestMode opmodeConfig toOff
      regClear .con conOn
      .modify fun c => c.setNode { c.node with initialized := false }
      setMode .none
      return .ok

/-! ### Message objects -/

def buildIdWord (f : Frame) : BitVec 32 :=
  if f.extended then
    let sid := (f.id >>> 18) &&& objidSidMask
    let eid := f.id &&& objidEidMask
    (sid <<< objidSidPos) ||| (eid <<< objidEidPos)
  else (f.id &&& objidSidMask) <<< objidSidPos

def parseIdWord (w : BitVec 32) (extended : Bool) (f : Frame) : Frame :=
  let sid := (w >>> objidSidPos) &&& objidSidMask
  let eid := (w >>> objidEidPos) &&& objidEidMask
  { f with extended := extended, id := if extended then (sid <<< 18) ||| eid else sid }

def buildCtrl (f : Frame) (dlc : Nat) : BitVec 32 :=
  (BitVec.ofNat 32 dlc &&& objctrlDlcMask)
    ||| (if f.extended then objctrlIde else 0)
    ||| (if f.fd then objctrlFdf else 0)
    ||| (if f.fd && f.brs then objctrlBrs else 0)

def packWord (f : Frame) (w : Nat) : BitVec 32 :=
  let b := w * 4
  (if b + 0 < f.len then (f.data (b + 0)).setWidth 32 else 0)
    ||| (if b + 1 < f.len then (f.data (b + 1)).setWidth 32 <<< 8 else 0)
    ||| (if b + 2 < f.len then (f.data (b + 2)).setWidth 32 <<< 16 else 0)
    ||| (if b + 3 < f.len then (f.data (b + 3)).setWidth 32 <<< 24 else 0)

def storeByte (len : Nat) (data : Nat → BitVec 8) (i : Nat) (byte : BitVec 32) :
    Nat → BitVec 8 :=
  if i < len then Function.update data i ((byte &&& 0xFF).setWidth 8) else data

def unpackWord (len : Nat) (data : Nat → BitVec 8) (w : Nat) (word : BitVec 32) :
    Nat → BitVec 8 :=
  let b := w * 4
  let data := storeByte len data (b + 0) word
  let data := storeByte len data (b + 1) (word >>> 8)
  let data := storeByte len data (b + 2) (word >>> 16)
  storeByte len data (b + 3) (word >>> 24)

def wordCount (len : Nat) : Nat := (len + 3) / 4

def objAddr (obj : BitVec 32) (i : Nat) : BitVec 32 := obj + 4 * BitVec.ofNat 32 i

def writeObj (obj : BitVec 32) (i : Nat) (word : BitVec 32) : M Unit :=
  .modify fun c => c.writeRam (objAddr obj i) word

def writePayload (obj : BitVec 32) (f : Frame) : Nat → M Unit
  | 0 => pure ()
  | n + 1 => do
    writePayload obj f n
    writeObj obj (2 + n) (packWord f n)

def transmit (frame : Option Frame) (room : Poll) : M Status :=
  match frame with
  | none => return .invalidArg
  | some f =>
    if f.len > payloadBytes then return .invalidArg
    else if !f.fd && f.len > 8 then return .invalidArg
    else do
      let c ← .get
      if !c.node.initialized then return .notInitialized
      else
        let st ← waitFlag fifostaTfnrfnif room
        if st ≠ .ok then return st
        else
          let dlc := lenToDlc f.len
          let actualLen := dlcToLen dlc
          let c ← .get
          let obj := c.regs .txqua
          writeObj obj 0 (buildIdWord f)
          writeObj obj 1 (buildCtrl f dlc)
          writePayload obj f (wordCount actualLen)
          -- UINC is self-clearing: setting it leaves the register as it reads.
          .modify fun c => c.log .uinc
          .modify fun c => (c.setReg .txqcon (c.regs .txqcon ||| fifoconTxreq)).log .txreq
          return .ok

def rxAvailable : M Bool := do
  let c ← .get
  if !c.node.initialized then return false
  else
    let c ← .get
    return c.fifosta1 &&& fifostaTfnrfnif ≠ 0

def readPayload (obj : Obj) (len : Nat) (data : Nat → BitVec 8) : Nat → Nat → BitVec 8
  | 0 => data
  | n + 1 => unpackWord len (readPayload obj len data n) n (obj (2 + n))

def parseObj (obj : Obj) (frame : Frame) : Frame :=
  let ctrl := obj 1
  let f := parseIdWord (obj 0) (ctrl &&& objctrlIde ≠ 0) frame
  let len := min (dlcToLen (ctrl &&& objctrlDlcMask).toNat) payloadBytes
  { f with
    fd := ctrl &&& objctrlFdf ≠ 0
    brs := ctrl &&& objctrlBrs ≠ 0
    len := len
    data := readPayload obj len frame.data (wordCount len) }

/-- The script of the wait for a frame: a FIFO that is not empty ends it at once. -/
def frameWait (c : Chan) (p : Poll) : Poll :=
  if c.fifosta1 &&& fifostaTfnrfnif ≠ 0 then ⟨p.start, [⟨c.fifosta1, p.start⟩]⟩ else p

/-- The side of FIFO 1 that software sees: the oldest object, the arrival of one in the empty FIFO,
and what setting `UINC` in `FIFOCON1` gives back. -/
structure RxPort : Type where
  obj : Chan → Obj
  arrive : Obj → Chan → Chan
  release : Chan → Chan

/-- `nora_canfd_receive`, where `arriving` is the object that ends the wait when the FIFO starts out
empty. -/
def receiveFrom (port : RxPort) (frame : Option Frame) (p : Poll) (arriving : Obj) :
    M (Status × Option Frame) :=
  match frame with
  | none => return (.invalidArg, none)
  | some f => do
    let c ← .get
    if !c.node.initialized then return (.notInitialized, some f)
    else
      let c ← .get
      let st ← waitFlag fifostaTfnrfnif (frameWait c p)
      if st ≠ .ok then return (.noMessage, some f)
      else
        .modify fun c => if c.rxFifo.isEmpty then port.arrive arriving c else c
        let c ← .get
        let f := parseObj (port.obj c) f
        .modify port.release
        return (.ok, some f)

def ramObj (c : Chan) (addr : BitVec 32) : Obj := fun k => c.ram (objAddr addr k)

/-- Where the objects of FIFO 1 are: behind those of the transmit queue. -/
def rxSlot (fifoba : BitVec 32) (slot : Nat) : BitVec 32 :=
  objAddr fifoba (objWords * (txqDepth + slot))

def nextSlot (fifoba ua : BitVec 32) : BitVec 32 :=
  if ua = rxSlot fifoba (rxDepth - 1) then rxSlot fifoba 0 else objAddr ua objWords

def placeObj (addr : BitVec 32) (obj : Obj) (ram : BitVec 32 → BitVec 32) : Nat → BitVec 32 → BitVec 32
  | 0 => ram
  | n + 1 => Function.update (placeObj addr obj ram n) (objAddr addr n) (obj n)

def ramPort : RxPort where
  obj c := ramObj c (c.regs .fifoua1)
  arrive o c :=
    { c with rxFifo := [o], ram := placeObj (c.regs .fifoua1) o c.ram objWords }
  release c :=
    { c with
      rxFifo := c.rxFifo.tail
      regs := Function.update c.regs .fifoua1 (nextSlot (c.regs .fifoba) (c.regs .fifoua1)) }

def fifoPort : RxPort where
  obj c := c.rxFifo.headD fun _ => 0
  arrive o c := { c with rxFifo := [o] }
  release c := { c with rxFifo := c.rxFifo.tail }

abbrev receive : Option Frame → Poll → Obj → M (Status × Option Frame) := receiveFrom fifoPort

variable {R : Chan → Chan → Prop} [Std.Refl R]

theorem getRegs_reads : getRegs.Moves R := .bind .get fun _ => .pure _

theorem getRegs_returns : getRegs.Returns fun st => st = .ok ∨ st = .notPresent := by
  refine .bind (.any _) fun c _ => .pure ?_
  split
  next => exact .inl rfl
  next => exact .inr rfl

theorem pollUntil_returns (done : BitVec 32 → Bool) (start : BitVec 32) (xs : List Sample) :
    (pollUntil done start xs).Returns fun st => st = .ok ∨ st = .timeout := by
  induction xs with
  | nil => exact .fail _
  | cons x xs ih =>
    refine .ite (fun _ => .pure (.inl rfl)) fun _ => .bind (.any _) fun c _ => ?_
    exact .ite (fun _ => .pure (.inr rfl)) fun _ => ih

theorem requestMode_returns (reqop : BitVec 8) (p : Poll) :
    (requestMode reqop p).Returns fun st => st = .ok ∨ st = .timeout :=
  .bind (.any _) fun _ _ => .bind (.any _) fun _ _ => pollUntil_returns _ _ _

theorem pollUntil_reads (done : BitVec 32 → Bool) (start : BitVec 32) (xs : List Sample) :
    (pollUntil done start xs).Moves R := by
  induction xs with
  | nil => exact .fail _
  | cons x xs ih => exact .ite (.pure _) (.bind .get fun _ => .ite (.pure _) ih)

theorem waitFlag_reads (mask : BitVec 32) (p : Poll) : (waitFlag mask p).Moves R :=
  .bind (.bind .get fun _ => .pure _) fun _ => pollUntil_reads _ _ _

theorem rxAvailable_reads : rxAvailable.Moves R :=
  .bind .get fun _ => .ite (.pure _) (.bind .get fun _ => .pure _)

theorem receiveFrom_moves {port : RxPort} (harrive : ∀ o c, R c (port.arrive o c))
    (hrelease : ∀ c, R c (port.release c)) (frame : Option Frame) (p : Poll) (arriving : Obj) :
    (receiveFrom port frame p arriving).Moves R := by
  cases frame with
  | none => exact .pure _
  | some f =>
    refine .bind .get fun _ => .ite (.pure _) (.bind .get fun _ => .bind (waitFlag_reads _ _) ?_)
    refine fun _ => .ite (.pure _) (.bind (.modify fun c => ?_) fun _ => ?_)
    · split
      next => exact harrive arriving c
      next => exact Std.Refl.refl c
    · exact .bind .get fun _ => .bind (.modify hrelease) fun _ => .pure _

end CanfdDriver.NoraCanfd
