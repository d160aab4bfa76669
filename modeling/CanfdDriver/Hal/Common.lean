import CanfdDriver.Hal.Reg
import CanfdDriver.Lib.Search

namespace CanfdDriver.NoraCanfd

open Lib

inductive Status : Type
  | ok | invalidArg | notPresent | notInitialized | busy | timeout | bus | noMessage
  | unsupported | sequence
  deriving DecidableEq

inductive Mode : Type
  | none | normalFd | normalClassic | internalLoopback | listenOnly | externalLoopback
  deriving DecidableEq

/-- Why a call does not come back: a division by zero, or a polling loop that
is still polling after the last sample of its script. -/
inductive Stop : Type
  | divByZero | polling
  deriving DecidableEq

structure BtLimits : Type where
  tseg1Min : BitVec 16
  tseg1Max : BitVec 16
  tseg2Min : BitVec 16
  tseg2Max : BitVec 16
  sjwMax : BitVec 16

def nominalLimits : BtLimits := ⟨2, 256, 1, 128, 128⟩
def dataLimits : BtLimits := ⟨1, 32, 1, 16, 16⟩

structure BtPositions : Type where
  sjw : Nat
  tseg2 : Nat
  tseg1 : Nat
  brp : Nat

def nbtcfgPositions : BtPositions :=
  ⟨nbtcfgSjwPos, nbtcfgTseg2Pos, nbtcfgTseg1Pos, nbtcfgBrpPos⟩

def dbtcfgPositions : BtPositions :=
  ⟨dbtcfgSjwPos, dbtcfgTseg2Pos, dbtcfgTseg1Pos, dbtcfgBrpPos⟩

/-- What `solvePhase` hands back through its out-parameters. -/
structure Phase : Type where
  btcfg : BitVec 32
  tseg1Actual : BitVec 16
  brpActual : BitVec 16
  deriving DecidableEq

def assembleBtcfg (pos : BtPositions) (brp : BitVec 32) (tseg1 tseg2 sjw : BitVec 16) :
    BitVec 32 :=
  ((brp - 1) <<< pos.brp)
    ||| ((tseg1.setWidth 32 - 1) <<< pos.tseg1)
    ||| ((tseg2.setWidth 32 - 1) <<< pos.tseg2)
    ||| ((sjw.setWidth 32 - 1) <<< pos.sjw)

def tseg1Of (total : BitVec 32) (samplePct : BitVec 8) : BitVec 16 :=
  (((total * samplePct.setWidth 32 + 50) / 100).setWidth 16) - 1

def tseg2Of (total : BitVec 32) (tseg1 : BitVec 16) : BitVec 16 :=
  (total - 1 - tseg1.setWidth 32).setWidth 16

def tryBrp (fcanHz bps : BitVec 32) (samplePct : BitVec 8) (lim : BtLimits) (pos : BtPositions)
    (i : Nat) : Verdict Stop Phase :=
  let brp : BitVec 32 := BitVec.ofNat 32 i
  if bps * brp = 0 then .fault .divByZero
  else
    let total := fcanHz / (bps * brp)
    if fcanHz % (bps * brp) ≠ 0 then .next
    else if total < 4 then .quit
    else
      let tseg1 := tseg1Of total samplePct
      if tseg1 < lim.tseg1Min ∨ tseg1 > lim.tseg1Max then .next
      else if total < 1 + tseg1.setWidth 32 + lim.tseg2Min.setWidth 32 then .next
      else
        let tseg2 := tseg2Of total tseg1
        if tseg2 < lim.tseg2Min ∨ tseg2 > lim.tseg2Max then .next
        else
          let sjw := if tseg2 < lim.sjwMax then tseg2 else lim.sjwMax
          .found ⟨assembleBtcfg pos brp tseg1 tseg2 sjw, tseg1, brp.setWidth 16⟩

/-- `none` is the `false` of the source. -/
def solvePhase (fcanHz bps : BitVec 32) (samplePct : BitVec 8) (lim : BtLimits)
    (pos : BtPositions) : Except Stop (Option Phase) :=
  if bps = 0 then .ok none
  else scan (tryBrp fcanHz bps samplePct lim pos) 1 256

structure BitTiming : Type where
  nbtcfg : BitVec 32
  dbtcfg : BitVec 32
  tdc : BitVec 32
  deriving DecidableEq

def tdcWord (brp tseg1 : BitVec 16) : BitVec 32 :=
  let tdco := brp.setWidth 32 * tseg1.setWidth 32
  let tdco := if tdco > 0x7F then 0x7F else tdco
  (tdcTdcmodAuto <<< tdcTdcmodPos) ||| (tdco <<< tdcTdcoPos)

/-- `none` stands for `NORA_CANFD_ERR_INVALID_ARG`, the only error returned. -/
def calcBitTiming (fcanHz nominalBps dataBps : BitVec 32) (samplePct : BitVec 8) :
    Except Stop (Option BitTiming) :=
  if samplePct = 0 ∨ samplePct ≥ 100 then .ok none
  else
    match solvePhase fcanHz nominalBps samplePct nominalLimits nbtcfgPositions with
    | .error e => .error e
    | .ok none => .ok none
    | .ok (some n) =>
      match solvePhase fcanHz dataBps samplePct dataLimits dbtcfgPositions with
      | .error e => .error e
      | .ok none => .ok none
      | .ok (some d) => .ok (some ⟨n.btcfg, d.btcfg, tdcWord d.brpActual d.tseg1Actual⟩)

example : calcBitTiming 20000000 500000 2000000 80 = .ok (some ⟨0x001E0707, 0x00060101, 0x20700⟩) := by
  decide +kernel

end CanfdDriver.NoraCanfd
