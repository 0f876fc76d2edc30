import TKey.Tk1Core

namespace TKey.Fpga

/-!
# The bus of the FPGA design

`application_fpga.v` connects the CPU to the cores.  The access of the CPU is
decoded, the selected core answers, and a register passes the answer on in the
next cycle.  `fw_ram.v` and `uds.v` are modelled with the TK1 core.  What the
CPU puts on the bus, when it handles a system call, and what the other cores
answer is arbitrary in every cycle.
-/

section FwRam

/-- The input ports of `SB_RAM40_4K`. -/
structure BlockRamPorts where
  re : Bool
  raddr : BitVec 11
  we : Bool
  waddr : BitVec 11
  wdata : BitVec 16
  mask : BitVec 16

/--
The block RAM `SB_RAM40_4K` of the FPGA, which is not part of the design.  The
design relies on its write enable.
-/
structure BlockRam where
  State : Type
  /-- The stored words. -/
  word : State → BitVec 11 → BitVec 16
  /-- The output port `RDATA`. -/
  rdata : State → BitVec 16
  clock : State → BlockRamPorts → State
  word_clock_of_not_we :
    ∀ state ports,
      ports.we = false → word (clock state ports) = word state

/-- A block RAM whose mask blocks single bits. -/
def BlockRam.masked : BlockRam where
  State := (BitVec 11 → BitVec 16) × BitVec 16
  word state := state.1
  rdata state := state.2
  clock state ports :=
    (if ports.we then
        Function.update state.1 ports.waddr
          ((state.1 ports.waddr &&& ports.mask) |||
            (ports.wdata &&& ~~~ports.mask))
      else
        state.1,
      if ports.re then state.1 ports.raddr else state.2)
  word_clock_of_not_we state ports disabled := by
    simp only [disabled, Bool.false_eq_true, if_false]

/-- Four banks of block RAM, one for each half of a word. -/
structure FwRam (bram : BlockRam) where
  low : BitVec 2 → bram.State
  high : BitVec 2 → bram.State
  readyReg : Bool

namespace FwRam

variable {bram : BlockRam}

/-- The input ports of `fw_ram`. -/
structure Ports where
  appMode : Bool
  cs : Bool
  we : BitVec 4
  address : BitVec 10
  writeData : BitVec 32

/-- `app_mode_cs`. -/
def Ports.appModeCs (ports : Ports) : Bool :=
  ports.cs && !ports.appMode

/-- `bank0` to `bank3`. -/
def Ports.bank (ports : Ports) (index : BitVec 2) : Bool :=
  ports.appModeCs && ports.address.extractLsb' 8 2 == index

/-- The mask of the two bytes that the enables `we0` and `we1` belong to. -/
def mask (we0 we1 : Bool) : BitVec 16 :=
  (BitVec.ofBool !we1).replicate 8 ++ (BitVec.ofBool !we0).replicate 8

/-- The ports of the block RAM with the lower half of the words of a bank. -/
def Ports.lowPorts (ports : Ports) (index : BitVec 2) : BlockRamPorts where
  re := ports.bank index
  raddr := 0#3 ++ ports.address.extractLsb' 0 8
  waddr := 0#3 ++ ports.address.extractLsb' 0 8
  wdata := ports.writeData.extractLsb' 0 16
  we := ports.we != 0 && ports.bank index
  mask := mask (ports.we.getLsbD 0) (ports.we.getLsbD 1)

/-- The ports of the block RAM with the upper half of the words of a bank. -/
def Ports.highPorts (ports : Ports) (index : BitVec 2) : BlockRamPorts where
  re := ports.bank index
  raddr := 0#3 ++ ports.address.extractLsb' 0 8
  waddr := 0#3 ++ ports.address.extractLsb' 0 8
  wdata := ports.writeData.extractLsb' 16 16
  we := ports.we != 0 && ports.bank index
  mask := mask (ports.we.getLsbD 2) (ports.we.getLsbD 3)

/-- `rw_mux`: the output port `read_data`. -/
def readData (fwRam : FwRam bram) (ports : Ports) : BitVec 32 :=
  if ports.appModeCs then
    let index := ports.address.extractLsb' 8 2
    bram.rdata (fwRam.high index) ++ bram.rdata (fwRam.low index)
  else
    0

/-- The block RAMs at a clock edge, and `reg_update`. -/
def clock (fwRam : FwRam bram) (ports : Ports) : FwRam bram where
  low index := bram.clock (fwRam.low index) (ports.lowPorts index)
  high index := bram.clock (fwRam.high index) (ports.highPorts index)
  readyReg := ports.cs

/-- The contents: the stored word at an address. -/
def word (fwRam : FwRam bram) (address : BitVec 10) : BitVec 32 :=
  let index := address.extractLsb' 8 2
  let row : BitVec 11 := 0#3 ++ address.extractLsb' 0 8
  bram.word (fwRam.high index) row ++ bram.word (fwRam.low index) row

end FwRam

end FwRam

section Uds

/-- The word with the given bits, the least significant one first. -/
def ofBits {width : Nat} (bit : Fin width → Bool) : BitVec width :=
  (BitVec.ofBoolListLE (List.ofFn bit)).setWidth width

theorem getLsbD_ofBits
    {width : Nat}
    (bit : Fin width → Bool)
    {index : Nat}
    (inside : index < width) :
    (ofBits bit).getLsbD index = bit ⟨index, inside⟩ := by
  rw [ofBits, BitVec.getLsbD_setWidth, BitVec.getLsbD_ofBoolListLE,
    decide_eq_true inside, Bool.true_and, List.getD_eq_getElem?_getD,
    List.getElem?_ofFn, dif_pos inside, Option.getD_some]

/-- `SB_LUT4`: a multiplexer for 16 bits. -/
def sbLut4 (lutInit : BitVec 16) (i0 i1 i2 i3 : Bool) : Bool :=
  lutInit.getLsbD
    (BitVec.ofBool i3 ++ BitVec.ofBool i2 ++ BitVec.ofBool i1 ++
      BitVec.ofBool i0).toNat

/--
`LUT_INIT` for one bit of the UDS words: the bits of the words above eight
zeros.
-/
def udsLutInit (uds : BitVec 3 → BitVec 32) (bit : Fin 32) : BitVec 16 :=
  ofBits (fun index : Fin 8 => (uds (.ofFin index)).getLsb bit) ++ 0#8

/-- `uds_rom`. -/
def udsRom
    (uds : BitVec 3 → BitVec 32)
    (addr : BitVec 3)
    (re : Bool) : BitVec 32 :=
  ofBits fun bit =>
    sbLut4 (udsLutInit uds bit) (addr.getLsbD 0) (addr.getLsbD 1)
      (addr.getLsbD 2) re

/-- The read enable is the highest bit of the index into the multiplexers. -/
theorem lutIndex (addr : BitVec 3) (re : Bool) :
    (BitVec.ofBool re ++ BitVec.ofBool (addr.getLsbD 2) ++
        BitVec.ofBool (addr.getLsbD 1) ++
        BitVec.ofBool (addr.getLsbD 0)).toNat =
      if re then 8 + addr.toNat else addr.toNat := by
  revert addr re
  decide

/-- Without the read enable the output is zero. -/
theorem udsRom_eq
    (uds : BitVec 3 → BitVec 32)
    (addr : BitVec 3)
    (re : Bool) :
    udsRom uds addr re = if re then uds addr else 0 := by
  apply BitVec.eq_of_getLsbD_eq
  intro bit inside
  rw [udsRom, getLsbD_ofBits _ inside, sbLut4, lutIndex, udsLutInit,
    BitVec.getLsbD_append]
  have short : addr.toNat < 8 := addr.isLt
  cases re with
  | false => simp [short]
  | true =>
      have index : 8 + addr.toNat - 8 = addr.toNat := Nat.add_sub_cancel_left ..
      rw [if_pos rfl, if_neg (by omega), index, getLsbD_ofBits _ short]
      rfl

/-- The registers of `uds`: whether a word was read. -/
structure Uds where
  udsRdReg : BitVec 3 → Bool

namespace Uds

/-- The input ports of `uds`. -/
structure Ports where
  en : Bool
  cs : Bool
  address : BitVec 3

def reset : Uds where
  udsRdReg := fun _ => false

/-- `api`: whether the word is read now. -/
def udsRdWe (uds : Uds) (ports : Ports) : Bool :=
  ports.cs && ports.en && !uds.udsRdReg ports.address

/-- `reg_update`. -/
def clock (uds : Uds) (ports : Ports) : Uds where
  udsRdReg :=
    if uds.udsRdWe ports then
      Function.update uds.udsRdReg ports.address true
    else
      uds.udsRdReg

end Uds

end Uds

section Bus

/-- An access of the CPU. -/
structure Access where
  cpuInstr : Bool
  cpuAddr : BitVec 32
  cpuWdata : BitVec 32
  cpuWstrb : BitVec 4
  deriving Repr, DecidableEq

/-- The cores whose answers are arbitrary. -/
inductive OtherCore where
  | rom
  | ram
  | trng
  | timer
  | uart
  | touchSense
  deriving Repr, DecidableEq

/-- The output ports of a core on the bus. -/
structure Answer where
  readData : BitVec 32
  ready : Bool
  deriving Repr, DecidableEq

/-- What comes from outside in a clock cycle. -/
structure Cycle where
  cpuValid : Bool
  access : Access
  /-- `cpu_eoi[31]`, which is set while a system call is handled. -/
  irq31Eoi : Bool
  other : OtherCore → Answer
  spiMiso : Bool
  appGpio1 : Bool
  appGpio2 : Bool

/-- The CPU makes an access, and the other cores answer nothing. -/
def Cycle.of (access : Access) (irq31Eoi : Bool) : Cycle where
  cpuValid := true
  access := access
  irq31Eoi := irq31Eoi
  other := fun _ => { readData := 0, ready := false }
  spiMiso := false
  appGpio1 := false
  appGpio2 := false

/-- A read access for data. -/
def Access.load (cpuAddr : BitVec 32) : Access where
  cpuInstr := false
  cpuAddr := cpuAddr
  cpuWdata := 0
  cpuWstrb := 0

/-- A write access to a whole word. -/
def Access.store (cpuAddr cpuWdata : BitVec 32) : Access where
  cpuInstr := false
  cpuAddr := cpuAddr
  cpuWdata := cpuWdata
  cpuWstrb := 0xf

/-- The fetch of an instruction. -/
def Access.fetch (cpuAddr : BitVec 32) : Access where
  cpuInstr := true
  cpuAddr := cpuAddr
  cpuWdata := 0
  cpuWstrb := 0

/-- What is fixed in the bitstream of a device. -/
structure Bitstream where
  appSize : BitVec 32
  udi : BitVec 1 → BitVec 32
  uds : BitVec 3 → BitVec 32

/-- The words of the UDS and the UDI are counted through. -/
def Bitstream.counting : Bitstream where
  appSize := 0
  udi word := word.setWidth 32 + 1
  uds word := word.setWidth 32 + 1

/-- What answers an access. -/
inductive Selection where
  | other (core : OtherCore)
  | uds
  | fwRam
  | syscall
  | tk1
  /-- A reserved or unused area, or a forced trap: zero is the answer. -/
  | zero
  deriving Repr, DecidableEq

/-- `area_prefix` and `core_prefix`: the core that an address belongs to. -/
def decodeAddr (cpuAddr : BitVec 32) : Selection :=
  let areaPrefix := cpuAddr.extractLsb' 30 2
  let corePrefix := cpuAddr.extractLsb' 24 6
  if areaPrefix = 0 then
    .other .rom
  else if areaPrefix = 1 then
    .other .ram
  else if areaPrefix = 2 then
    .zero
  else if corePrefix = 0x00 then
    .other .trng
  else if corePrefix = 0x01 then
    .other .timer
  else if corePrefix = 0x02 then
    .uds
  else if corePrefix = 0x03 then
    .other .uart
  else if corePrefix = 0x04 then
    .other .touchSense
  else if corePrefix = 0x10 then
    .fwRam
  else if corePrefix = 0x21 then
    .syscall
  else if corePrefix = 0x3f then
    .tk1
  else
    .zero

/-- The registers of `application_fpga` and of its cores. -/
structure ApplicationFpga (bram : BlockRam) where
  tk1 : Tk1
  fwRam : FwRam bram
  uds : Uds
  muxedRdataReg : BitVec 32
  muxedReadyReg : Bool

namespace ApplicationFpga

variable {bram : BlockRam}

/-- `cpu_mem_ctrl`: what is selected in a cycle, if anything is. -/
def selected (fpga : ApplicationFpga bram) (cycle : Cycle) : Option Selection :=
  if cycle.cpuValid && !fpga.muxedReadyReg then
    if fpga.tk1.forceTrapReg then
      some .zero
    else
      some (decodeAddr cycle.access.cpuAddr)
  else
    none

/-- What is selected is what the address belongs to, or answers zero. -/
theorem selected_cases (fpga : ApplicationFpga bram) (cycle : Cycle) :
    fpga.selected cycle = none ∨
      fpga.selected cycle = some .zero ∨
      fpga.selected cycle = some (decodeAddr cycle.access.cpuAddr) := by
  unfold selected
  split
  · split
    · exact .inr (.inl rfl)
    · exact .inr (.inr rfl)
  · exact .inl rfl

/-- `app_mode`. -/
def appMode (fpga : ApplicationFpga bram) (cycle : Cycle) : Bool :=
  fpga.tk1.appMode cycle.irq31Eoi

def tk1Ports (fpga : ApplicationFpga bram) (cycle : Cycle) : Tk1.Ports where
  cpuAddr := cycle.access.cpuAddr
  cpuInstr := cycle.access.cpuInstr
  cpuValid := cycle.cpuValid
  spiMiso := cycle.spiMiso
  gpio1 := cycle.appGpio1
  gpio2 := cycle.appGpio2
  syscall := cycle.irq31Eoi
  cs := fpga.selected cycle == some .tk1
  we := cycle.access.cpuWstrb != 0
  address := cycle.access.cpuAddr.extractLsb' 2 8
  writeData := cycle.access.cpuWdata

def fwRamPorts (fpga : ApplicationFpga bram) (cycle : Cycle) : FwRam.Ports where
  appMode := fpga.appMode cycle
  cs := fpga.selected cycle == some .fwRam
  we := cycle.access.cpuWstrb
  address := cycle.access.cpuAddr.extractLsb' 2 10
  writeData := cycle.access.cpuWdata

def udsPorts (fpga : ApplicationFpga bram) (cycle : Cycle) : Uds.Ports where
  en := !fpga.tk1.fwStartupDoneReg
  cs := fpga.selected cycle == some .uds
  address := cycle.access.cpuAddr.extractLsb' 2 3

/-- `muxed_rdata_new` and `muxed_ready_new`. -/
def muxedNew
    (bits : Bitstream)
    (fpga : ApplicationFpga bram)
    (cycle : Cycle) : Answer :=
  match fpga.selected cycle with
  | none => { readData := 0, ready := false }
  | some .zero => { readData := 0, ready := true }
  | some .syscall => { readData := 0, ready := true }
  | some (.other core) => cycle.other core
  | some .uds =>
      let ports := fpga.udsPorts cycle
      { readData := udsRom bits.uds ports.address (fpga.uds.udsRdWe ports)
        ready := ports.cs }
  | some .fwRam =>
      { readData := fpga.fwRam.readData (fpga.fwRamPorts cycle)
        ready := fpga.fwRam.readyReg }
  | some .tk1 =>
      let ports := fpga.tk1Ports cycle
      { readData := fpga.tk1.readData bits.udi ports
        ready := ports.cs }

/-- A clock edge. -/
def clock
    (bits : Bitstream)
    (fpga : ApplicationFpga bram)
    (cycle : Cycle) : ApplicationFpga bram where
  tk1 := fpga.tk1.clock (fpga.tk1Ports cycle)
  fwRam := fpga.fwRam.clock (fpga.fwRamPorts cycle)
  uds := fpga.uds.clock (fpga.udsPorts cycle)
  muxedRdataReg := (fpga.muxedNew bits cycle).readData
  muxedReadyReg := (fpga.muxedNew bits cycle).ready

/-- A reset, which keeps the contents of `FW_RAM`. -/
def reset (bits : Bitstream) (fpga : ApplicationFpga bram) : ApplicationFpga bram where
  tk1 := .reset bits.appSize
  fwRam := { fpga.fwRam with readyReg := false }
  uds := .reset
  muxedRdataReg := 0
  muxedReadyReg := false

/-- All registers and memories are zero. -/
def blank : ApplicationFpga .masked where
  tk1 := .reset 0
  fwRam :=
    { low := fun _ => (fun _ => 0, 0)
      high := fun _ => (fun _ => 0, 0)
      readyReg := false }
  uds := .reset
  muxedRdataReg := 0
  muxedReadyReg := false

/-- The clock cycles after one another. -/
def run
    (bits : Bitstream)
    (fpga : ApplicationFpga bram)
    (cycles : List Cycle) : ApplicationFpga bram :=
  cycles.foldl (clock bits) fpga

end ApplicationFpga

end Bus

end TKey.Fpga
