import TKey.ApplicationFpga
import TKey.Peripherals
import TKey.ScrambledRam
import TKey.UartCore

namespace TKey.Fpga

/-!
# The FPGA design with all its cores

`ApplicationFpga` leaves open what some cores answer.  Here those cores are
connected to it, as `application_fpga.v` does.  What comes from outside is what
the CPU puts on the bus, and the pins.
-/

section Inputs

/-- What comes from outside in a clock cycle. -/
structure Pins where
  cpuValid : Bool
  access : Access
  irq31Eoi : Bool
  spiMiso : Bool
  appGpio1 : Bool
  appGpio2 : Bool
  interfaceTx : Bool
  interfaceCh552Cts : Bool
  touchEvent : Bool
  /-- The oscillators of the TRNG, combined. -/
  xorF : Bool
  xorG : Bool

/-- The CPU makes no access. -/
def Pins.quiet (pins : Pins) : Pins :=
  { pins with cpuValid := false }

/-- The CPU makes an access, and all pins are low but those that rest high. -/
def Pins.of (access : Access) : Pins where
  cpuValid := true
  access := access
  irq31Eoi := false
  spiMiso := false
  appGpio1 := false
  appGpio2 := false
  interfaceTx := true
  interfaceCh552Cts := false
  touchEvent := false
  xorF := false
  xorG := false

/-- The cycle as the bus sees it, with what the other cores answer. -/
def Pins.cycle (pins : Pins) (other : OtherCore → Answer) : Cycle where
  cpuValid := pins.cpuValid
  access := pins.access
  irq31Eoi := pins.irq31Eoi
  other := other
  spiMiso := pins.spiMiso
  appGpio1 := pins.appGpio1
  appGpio2 := pins.appGpio2

/-- What is fixed in the bitstream, with the firmware in ROM. -/
structure WholeBitstream extends Bitstream where
  firmware : BitVec 12 → BitVec 32

/-- `rom_address`. -/
def Access.romAddress (access : Access) : BitVec 12 :=
  0#1 ++ access.cpuAddr.extractLsb' 2 11

/-- The ports of `ram`. -/
def Access.ramPorts (access : Access) (tk1 : Tk1) (cs : Bool) : Ram.Ports where
  ramAddrRand := tk1.ramAddrRandReg
  ramDataRand := tk1.ramDataRandReg
  cs := cs
  we := if cs then access.cpuWstrb else 0
  address := 0#1 ++ access.cpuAddr.extractLsb' 2 15
  writeData := access.cpuWdata

/-- The ports of `trng`, `timer` and `touch_sense`. -/
def Access.corePorts (access : Access) (cs : Bool) : CorePorts where
  cs := cs
  we := access.cpuWstrb != 0
  address := access.cpuAddr.extractLsb' 2 8
  writeData := access.cpuWdata

/-- The ports of `uart`. -/
def Pins.uartPorts (pins : Pins) (cs : Bool) : UartCore.Ports where
  rxd := pins.interfaceTx
  ch552Cts := pins.interfaceCh552Cts
  cs := cs
  we := pins.access.cpuWstrb != 0
  address := pins.access.cpuAddr.extractLsb' 2 8
  writeData := pins.access.cpuWdata

end Inputs

section Design

/-- All registers and memories. -/
structure WholeFpga (bram : BlockRam) (spram : Spram) where
  bus : ApplicationFpga bram
  rom : Rom
  ram : Ram spram
  trng : Trng
  timer : Timer
  uart : UartCore
  touchSense : TouchSense

namespace WholeFpga

variable {bram : BlockRam} {spram : Spram}

/-- What is selected in a cycle, which does not depend on any answer. -/
def selected (whole : WholeFpga bram spram) (pins : Pins) : Option Selection :=
  whole.bus.selected (pins.cycle fun _ => { readData := 0, ready := false })

/-- `rom_cs` and so on. -/
def cs (whole : WholeFpga bram spram) (pins : Pins) (core : OtherCore) : Bool :=
  whole.selected pins == some (.other core)

/-- What the other cores answer. -/
def answers
    (bits : WholeBitstream)
    (whole : WholeFpga bram spram)
    (pins : Pins) : OtherCore → Answer
  | .rom =>
      { readData := bits.firmware pins.access.romAddress
        ready := whole.rom.readyReg }
  | .ram =>
      { readData :=
          whole.ram.readData
            (pins.access.ramPorts whole.bus.tk1 (whole.cs pins .ram))
        ready := whole.ram.readyReg }
  | .trng =>
      { readData :=
          whole.trng.readData (pins.access.corePorts (whole.cs pins .trng))
        ready := whole.cs pins .trng }
  | .timer =>
      { readData :=
          whole.timer.readData (pins.access.corePorts (whole.cs pins .timer))
        ready := whole.cs pins .timer }
  | .uart =>
      { readData := whole.uart.readData (pins.uartPorts (whole.cs pins .uart))
        ready := whole.cs pins .uart }
  | .touchSense =>
      { readData :=
          whole.touchSense.readData
            (pins.access.corePorts (whole.cs pins .touchSense))
        ready := whole.cs pins .touchSense }

/-- The cycle as the bus sees it. -/
def cycle
    (bits : WholeBitstream)
    (whole : WholeFpga bram spram)
    (pins : Pins) : Cycle :=
  pins.cycle (whole.answers bits pins)

/-- A clock edge. -/
def clock
    (bits : WholeBitstream)
    (whole : WholeFpga bram spram)
    (pins : Pins) : WholeFpga bram spram where
  bus := whole.bus.clock bits.toBitstream (whole.cycle bits pins)
  rom := whole.rom.clock (whole.cs pins .rom)
  ram :=
    whole.ram.clock
      (pins.access.ramPorts whole.bus.tk1 (whole.cs pins .ram))
  trng :=
    whole.trng.clock pins.xorF pins.xorG
      (pins.access.corePorts (whole.cs pins .trng))
  timer := whole.timer.clock (pins.access.corePorts (whole.cs pins .timer))
  uart := whole.uart.clock (pins.uartPorts (whole.cs pins .uart))
  touchSense :=
    whole.touchSense.clock pins.touchEvent
      (pins.access.corePorts (whole.cs pins .touchSense))

/-- A reset, which keeps the contents of the memories. -/
def reset
    (bits : WholeBitstream)
    (whole : WholeFpga bram spram) : WholeFpga bram spram where
  bus := whole.bus.reset bits.toBitstream
  rom := { readyReg := false }
  ram := { whole.ram with readyReg := false }
  trng := .reset
  timer := .reset
  uart := whole.uart.reset
  touchSense := .reset

/-- The clock cycles after one another. -/
def run
    (bits : WholeBitstream)
    (whole : WholeFpga bram spram)
    (pins : List Pins) : WholeFpga bram spram :=
  pins.foldl (clock bits) whole

/-- All registers and memories are zero, but those that rest high. -/
def blank : WholeFpga .masked .holding where
  bus := .blank
  rom := { readyReg := false }
  ram :=
    { low := fun _ => (fun _ => 0, 0)
      high := fun _ => (fun _ => 0, 0)
      readyReg := false }
  trng := .reset
  timer := .reset
  uart :=
    { rx := .reset
      tx := .reset
      fifo :=
        { fifoMem := fun _ => 0
          inPtrReg := 0
          outPtrReg := 0
          byteCtrReg := 0
          inAckReg := false
          fpgaCtsReg := false }
      ch552CtsReg := 0 }
  touchSense := .reset

end WholeFpga

end Design

end TKey.Fpga
