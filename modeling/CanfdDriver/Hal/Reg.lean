import Mathlib.Tactic

namespace CanfdDriver.NoraCanfd

/-- The register pointer table; one register file per instance. -/
inductive Reg : Type
  | con | nbtcfg | dbtcfg | tdc | fifoba
  | txqcon | txqsta | txqua
  | fifocon1 | fifosta1 | fifoua1
  | fltcon0 | fltobj0 | mask0
  | int | trec
  deriving DecidableEq

def conIsocrcen : BitVec 32 := 1#32 <<< 5
def conClksel : BitVec 32 := 1#32 <<< 7
def conCanbusy : BitVec 32 := 1#32 <<< 11
def conBrsdis : BitVec 32 := 1#32 <<< 12
def conOn : BitVec 32 := 1#32 <<< 15
def conStef : BitVec 32 := 1#32 <<< 19
def conTxqen : BitVec 32 := 1#32 <<< 20
def conOpmodPos : Nat := 21
def conOpmodMask : BitVec 32 := 0x7#32 <<< 21
def conReqopPos : Nat := 24
def conReqopMask : BitVec 32 := 0x7#32 <<< 24

def opmodeNormalFd : BitVec 8 := 0x0
def opmodeInternalLoop : BitVec 8 := 0x2
def opmodeListenOnly : BitVec 8 := 0x3
def opmodeConfig : BitVec 8 := 0x4
def opmodeExternalLoop : BitVec 8 := 0x5
def opmodeNormalClassic : BitVec 8 := 0x6

def nbtcfgSjwPos : Nat := 0
def nbtcfgTseg2Pos : Nat := 8
def nbtcfgTseg1Pos : Nat := 16
def nbtcfgBrpPos : Nat := 24

def dbtcfgSjwPos : Nat := 0
def dbtcfgTseg2Pos : Nat := 8
def dbtcfgTseg1Pos : Nat := 16
def dbtcfgBrpPos : Nat := 24

def tdcTdcoPos : Nat := 8
def tdcTdcmodPos : Nat := 16
def tdcTdcmodAuto : BitVec 32 := 0x2

def fifoconUinc : BitVec 32 := 1#32 <<< 8
def fifoconTxreq : BitVec 32 := 1#32 <<< 9
def fifoconFreset : BitVec 32 := 1#32 <<< 10
def fifoconFsizePos : Nat := 24
def fifoconPlsizePos : Nat := 29

def fifostaTfnrfnif : BitVec 32 := 1#32 <<< 0
def fifostaRxovif : BitVec 32 := 1#32 <<< 3

def fifoconTfnrfnie : BitVec 32 := 1#32 <<< 0
def fifoconRxovie : BitVec 32 := 1#32 <<< 3
def txqconTxqeie : BitVec 32 := 1#32 <<< 2
def txqstaTxqeif : BitVec 32 := 1#32 <<< 2

def fltcon0F0bpPos : Nat := 0
def fltcon0Flten0 : BitVec 32 := 1#32 <<< 7

def intTxif : BitVec 32 := 1#32 <<< 0
def intRxif : BitVec 32 := 1#32 <<< 1
def intRxovif : BitVec 32 := 1#32 <<< 11
def intCerrif : BitVec 32 := 1#32 <<< 13
def intIvmif : BitVec 32 := 1#32 <<< 15
def intTxie : BitVec 32 := 1#32 <<< 16
def intRxie : BitVec 32 := 1#32 <<< 17
def intRxovie : BitVec 32 := 1#32 <<< 27
def intCerrie : BitVec 32 := 1#32 <<< 29
def intIvmie : BitVec 32 := 1#32 <<< 31
def intClrMask : BitVec 32 := intCerrif ||| intIvmif

def trecEwarn : BitVec 32 := 1#32 <<< 16
def trecTxbp : BitVec 32 := 1#32 <<< 20
def trecRxbp : BitVec 32 := 1#32 <<< 19
def trecTxbo : BitVec 32 := 1#32 <<< 21

def plsize64 : BitVec 32 := 0x7

def objHeaderBytes : Nat := 8

def objidSidPos : Nat := 0
def objidSidMask : BitVec 32 := 0x7FF
def objidEidPos : Nat := 11
def objidEidMask : BitVec 32 := 0x3FFFF

def objctrlDlcMask : BitVec 32 := 0xF
def objctrlIde : BitVec 32 := 1#32 <<< 4
def objctrlRtr : BitVec 32 := 1#32 <<< 5
def objctrlBrs : BitVec 32 := 1#32 <<< 6
def objctrlFdf : BitVec 32 := 1#32 <<< 7

def dlcToLen (dlc : Nat) : Nat :=
  [0, 1, 2, 3, 4, 5, 6, 7, 8, 12, 16, 20, 24, 32, 48, 64].getD (dlc &&& 0x0F) 0

def lenToDlc (len : Nat) : Nat :=
  if len ≤ 8 then len
  else if len ≤ 12 then 9
  else if len ≤ 16 then 10
  else if len ≤ 20 then 11
  else if len ≤ 24 then 12
  else if len ≤ 32 then 13
  else if len ≤ 48 then 14
  else 15

end CanfdDriver.NoraCanfd
