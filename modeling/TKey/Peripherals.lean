import Mathlib.Init

namespace TKey.Fpga

/-!
# Peripheral cores

`rom.v`, `timer.v` with `timer_core.v`, `trng.v` and `touch_sense.v`.
-/

section Rom

/-- The register of `rom`. -/
structure Rom where
  readyReg : Bool

/-- `reg_update`. -/
def Rom.clock (_ : Rom) (cs : Bool) : Rom where
  readyReg := cs

end Rom

section Timer

/-- The registers of `timer_core`; `core_ctrl_reg` is `running`. -/
structure TimerCore where
  prescalerReg : BitVec 32
  timerReg : BitVec 32
  running : Bool
  deriving Repr, DecidableEq

/-- `reg_update`, with what `core_ctrl` computes. -/
def TimerCore.clock
    (core : TimerCore)
    (prescalerInit timerInit : BitVec 32)
    (start stop : Bool) : TimerCore :=
  if !core.running then
    if start then
      { prescalerReg := prescalerInit, timerReg := timerInit, running := true }
    else
      core
  else if stop then
    { core with running := false }
  else if core.prescalerReg.extractLsb' 1 31 = 0 then
    if core.timerReg.extractLsb' 1 31 = 0 then
      { core with running := false }
    else
      { core with
        prescalerReg := prescalerInit
        timerReg := core.timerReg - 1 }
  else
    { core with prescalerReg := core.prescalerReg - 1 }

def timerAddrCtrl : BitVec 8 := 0x08
def timerAddrStatus : BitVec 8 := 0x09
def timerAddrPrescaler : BitVec 8 := 0x0a
def timerAddrTimer : BitVec 8 := 0x0b

/-- The registers of `timer`. -/
structure Timer where
  prescalerReg : BitVec 32
  timerReg : BitVec 32
  startReg : Bool
  stopReg : Bool
  core : TimerCore
  deriving Repr, DecidableEq

/-- The ports of a core on the bus. -/
structure CorePorts where
  cs : Bool
  we : Bool
  address : BitVec 8
  writeData : BitVec 32

/-- A write access to an address. -/
def CorePorts.writes (ports : CorePorts) (address : BitVec 8) : Bool :=
  ports.cs && ports.we && ports.address == address

namespace Timer

def reset : Timer where
  prescalerReg := 0
  timerReg := 0
  startReg := false
  stopReg := false
  core := { prescalerReg := 0, timerReg := 0, running := false }

/-- The output port `read_data`. -/
def readData (timer : Timer) (ports : CorePorts) : BitVec 32 :=
  if ports.cs && !ports.we then
    if ports.address = timerAddrStatus then
      (BitVec.ofBool timer.core.running).setWidth 32
    else if ports.address = timerAddrPrescaler then
      timer.prescalerReg
    else if ports.address = timerAddrTimer then
      if !timer.core.running then timer.timerReg else timer.core.timerReg
    else
      0
  else
    0

/-- `reg_update`, with what `api` computes. -/
def clock (timer : Timer) (ports : CorePorts) : Timer where
  startReg := ports.writes timerAddrCtrl && ports.writeData.getLsbD 0
  stopReg := ports.writes timerAddrCtrl && ports.writeData.getLsbD 1
  prescalerReg :=
    if ports.writes timerAddrPrescaler && !timer.core.running then
      ports.writeData
    else
      timer.prescalerReg
  timerReg :=
    if ports.writes timerAddrTimer && !timer.core.running then
      ports.writeData
    else
      timer.timerReg
  core :=
    timer.core.clock timer.prescalerReg timer.timerReg timer.startReg
      timer.stopReg

end Timer

end Timer

section Trng

def trngAddrStatus : BitVec 8 := 0x09
def trngAddrEntropy : BitVec 8 := 0x20

def sampleCycles : BitVec 16 := 0x1000
def skipBits : BitVec 8 := 32

/-- `trng_ctrl_reg`. -/
inductive TrngCtrl where
  | sample1
  | sample2
  | dataReady
  deriving Repr, DecidableEq

/-- The registers of `trng`. -/
structure Trng where
  cycleCtrReg : BitVec 16
  bitCtrReg : BitVec 8
  entropyReg : BitVec 32
  sample1Reg : BitVec 2
  sample2Reg : BitVec 2
  dataReadyReg : Bool
  trngCtrlReg : TrngCtrl
  deriving Repr, DecidableEq

namespace Trng

def reset : Trng where
  cycleCtrReg := 0
  bitCtrReg := 0
  entropyReg := 0
  sample1Reg := 0
  sample2Reg := 0
  dataReadyReg := false
  trngCtrlReg := .sample1

/-- `bit_ctr_rst`: the entropy is read. -/
def bitCtrRst (ports : CorePorts) : Bool :=
  ports.cs && !ports.we && ports.address == trngAddrEntropy

/-- The output port `read_data`. -/
def readData (trng : Trng) (ports : CorePorts) : BitVec 32 :=
  if ports.cs && !ports.we then
    if ports.address = trngAddrStatus then
      (BitVec.ofBool trng.dataReadyReg).setWidth 32
    else if ports.address = trngAddrEntropy then
      trng.entropyReg
    else
      0
  else
    0

/-- `cycle_ctr_done`. -/
def cycleCtrDone (trng : Trng) : Bool :=
  trng.cycleCtrReg == sampleCycles

/-- Whether the oscillators are sampled. -/
def sampleWe (trng : Trng) : Bool :=
  trng.cycleCtrDone && trng.trngCtrlReg != .dataReady

/-- `bit_ctr_inc` and `entropy_we`. -/
def bitCtrInc (trng : Trng) : Bool :=
  trng.trngCtrlReg == .dataReady

/-- The exclusive or of two samples of the oscillators. -/
def xorSample (sample : BitVec 2) : Bool :=
  sample.getLsbD 1 ^^ sample.getLsbD 0

/-- `reg_update`; `xor_f` and `xor_g` come from the oscillators. -/
def clock (trng : Trng) (xorF xorG : Bool) (ports : CorePorts) : Trng where
  cycleCtrReg := if trng.sampleWe then 0 else trng.cycleCtrReg + 1
  bitCtrReg :=
    if bitCtrRst ports then
      0
    else if trng.bitCtrInc then
      trng.bitCtrReg + 1
    else
      trng.bitCtrReg
  dataReadyReg :=
    if bitCtrRst ports then
      false
    else
      (trng.bitCtrInc && trng.bitCtrReg == skipBits) || trng.dataReadyReg
  sample1Reg :=
    if trng.sampleWe then
      trng.sample1Reg.extractLsb' 0 1 ++ BitVec.ofBool xorF
    else
      trng.sample1Reg
  sample2Reg :=
    if trng.sampleWe then
      trng.sample2Reg.extractLsb' 0 1 ++ BitVec.ofBool xorG
    else
      trng.sample2Reg
  entropyReg :=
    if trng.bitCtrInc then
      trng.entropyReg.extractLsb' 0 31 ++
        BitVec.ofBool (xorSample trng.sample1Reg ^^ xorSample trng.sample2Reg)
    else
      trng.entropyReg
  trngCtrlReg :=
    match trng.trngCtrlReg with
    | .sample1 => if trng.cycleCtrDone then .sample2 else .sample1
    | .sample2 => if trng.cycleCtrDone then .dataReady else .sample2
    | .dataReady => .sample1

end Trng

end Trng

section TouchSense

def touchSenseAddrStatus : BitVec 8 := 0x09

/-- `touch_sense_ctrl_reg`. -/
inductive TouchSenseCtrl where
  | idle
  | event
  | wait
  deriving Repr, DecidableEq

/-- The registers of `touch_sense`. -/
structure TouchSense where
  touchEventSample0Reg : Bool
  touchEventSample1Reg : Bool
  touchEventReg : Bool
  touchSenseCtrlReg : TouchSenseCtrl
  deriving Repr, DecidableEq

namespace TouchSense

def reset : TouchSense where
  touchEventSample0Reg := false
  touchEventSample1Reg := false
  touchEventReg := false
  touchSenseCtrlReg := .idle

/-- The output port `read_data`. -/
def readData (touchSense : TouchSense) (ports : CorePorts) : BitVec 32 :=
  if ports.cs && !ports.we && ports.address == touchSenseAddrStatus then
    (BitVec.ofBool touchSense.touchEventReg).setWidth 32
  else
    0

/-- `reg_update`, with what `touch_sense_ctrl` computes. -/
def clock
    (touchSense : TouchSense)
    (touchEvent : Bool)
    (ports : CorePorts) : TouchSense :=
  let sampled :=
    { touchSense with
      touchEventSample0Reg := touchEvent
      touchEventSample1Reg := touchSense.touchEventSample0Reg }
  match touchSense.touchSenseCtrlReg with
  | .idle =>
      if touchSense.touchEventSample1Reg then
        { sampled with touchEventReg := true, touchSenseCtrlReg := .event }
      else
        sampled
  | .event =>
      if ports.writes touchSenseAddrStatus then
        { sampled with touchEventReg := false, touchSenseCtrlReg := .wait }
      else
        sampled
  | .wait =>
      if !touchSense.touchEventSample1Reg then
        { sampled with touchSenseCtrlReg := .idle }
      else
        sampled

end TouchSense

end TouchSense

end TKey.Fpga
