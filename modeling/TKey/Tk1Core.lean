import Mathlib.Logic.Function.Basic

namespace TKey.Fpga

/-!
# The TK1 core

`tk1.v` with its SPI master `tk1_spi_master.v`: the registers, the logic that
computes their next values, and the clock edge.  Inputs of a core are the values
on its ports in one clock cycle.  The outputs to the LED are left out.
-/

section SpiMaster

/-- `spi_ctrl_reg`. -/
inductive SpiCtrl where
  | idle
  | posFlank
  | negFlank
  | next
  deriving Repr, DecidableEq

/-- The registers of `tk1_spi_master`. -/
structure SpiMaster where
  spiSsReg : Bool
  spiCskReg : Bool
  spiTxDataReg : BitVec 8
  spiRxDataReg : BitVec 8
  spiMisoSampleReg : Bool
  spiBitCtrReg : BitVec 3
  spiReadyReg : Bool
  spiCtrlReg : SpiCtrl
  deriving Repr, DecidableEq

namespace SpiMaster

/-- The input ports of `tk1_spi_master`. -/
structure Ports where
  spiMiso : Bool
  spiEnable : Bool
  spiEnableVld : Bool
  spiStart : Bool
  spiTxData : BitVec 8
  spiTxDataVld : Bool
  deriving Repr, DecidableEq

/-- The registers after a reset. -/
def reset : SpiMaster where
  spiSsReg := true
  spiCskReg := false
  spiTxDataReg := 0
  spiRxDataReg := 0
  spiMisoSampleReg := false
  spiBitCtrReg := 0
  spiReadyReg := true
  spiCtrlReg := .idle

/-- What `spi_master_ctrl` computes. -/
structure MasterCtrl where
  spiRxDataNxt : Bool := false
  spiTxDataNxt : Bool := false
  spiCskNew : Bool := false
  spiCskWe : Bool := false
  spiBitCtrRst : Bool := false
  spiBitCtrInc : Bool := false
  spiReadyNew : Bool := false
  spiReadyWe : Bool := false
  spiCtrlNew : SpiCtrl := .idle
  spiCtrlWe : Bool := false

def spiMasterCtrl (spi : SpiMaster) (ports : Ports) : MasterCtrl :=
  match spi.spiCtrlReg with
  | .idle =>
      if ports.spiStart then
        { spiCskNew := false
          spiCskWe := true
          spiBitCtrRst := true
          spiReadyNew := false
          spiReadyWe := true
          spiCtrlNew := .posFlank
          spiCtrlWe := true }
      else
        {}
  | .posFlank =>
      { spiCskNew := true
        spiCskWe := true
        spiCtrlNew := .negFlank
        spiCtrlWe := true }
  | .negFlank =>
      { spiTxDataNxt := true
        spiCskNew := false
        spiCskWe := true
        spiCtrlNew := .next
        spiCtrlWe := true }
  | .next =>
      if spi.spiBitCtrReg = 7 then
        { spiRxDataNxt := true
          spiReadyNew := true
          spiReadyWe := true
          spiCtrlNew := .idle
          spiCtrlWe := true }
      else
        { spiRxDataNxt := true
          spiBitCtrInc := true
          spiCtrlNew := .posFlank
          spiCtrlWe := true }

/-- `bit_ctr`: the next value of `spi_bit_ctr_reg`. -/
def bitCtr (spi : SpiMaster) (ctrl : MasterCtrl) : BitVec 3 :=
  if ctrl.spiBitCtrRst then
    0
  else if ctrl.spiBitCtrInc then
    spi.spiBitCtrReg + 1
  else
    spi.spiBitCtrReg

/-- `spi_tx_data_logic`: the next value of `spi_tx_data_reg`. -/
def spiTxDataLogic
    (spi : SpiMaster)
    (ports : Ports)
    (ctrl : MasterCtrl) : BitVec 8 :=
  if ctrl.spiTxDataNxt then
    spi.spiTxDataReg.extractLsb' 0 7 ++ 0#1
  else if ports.spiTxDataVld && spi.spiReadyReg then
    ports.spiTxData
  else
    spi.spiTxDataReg

/-- `spi_rx_data_logic`: the next value of `spi_rx_data_reg`. -/
def spiRxDataLogic (spi : SpiMaster) (ctrl : MasterCtrl) : BitVec 8 :=
  if spi.spiSsReg then
    0
  else if ctrl.spiRxDataNxt then
    spi.spiRxDataReg.extractLsb' 0 7 ++ BitVec.ofBool spi.spiMisoSampleReg
  else
    spi.spiRxDataReg

/-- `reg_update`. -/
def clock (spi : SpiMaster) (ports : Ports) : SpiMaster :=
  let ctrl := spi.spiMasterCtrl ports
  { spiMisoSampleReg := ports.spiMiso
    spiSsReg :=
      if ports.spiEnableVld then !ports.spiEnable else spi.spiSsReg
    spiCskReg := if ctrl.spiCskWe then ctrl.spiCskNew else spi.spiCskReg
    spiTxDataReg := spi.spiTxDataLogic ports ctrl
    spiRxDataReg := spi.spiRxDataLogic ctrl
    spiReadyReg :=
      if ctrl.spiReadyWe then ctrl.spiReadyNew else spi.spiReadyReg
    spiBitCtrReg := spi.bitCtr ctrl
    spiCtrlReg := if ctrl.spiCtrlWe then ctrl.spiCtrlNew else spi.spiCtrlReg }

/-- The ports when the master is asked for nothing. -/
def Ports.idle (spiMiso : Bool) : Ports where
  spiMiso := spiMiso
  spiEnable := false
  spiEnableVld := false
  spiStart := false
  spiTxData := 0
  spiTxDataVld := false

end SpiMaster

end SpiMaster

section Constants

def addrName0 : BitVec 8 := 0x00
def addrName1 : BitVec 8 := 0x01
def addrVersion : BitVec 8 := 0x02
def addrLed : BitVec 8 := 0x09
def addrGpio : BitVec 8 := 0x0a
def addrAppStart : BitVec 8 := 0x0c
def addrAppSize : BitVec 8 := 0x0d
def addrCdiFirst : BitVec 8 := 0x20
def addrCdiLast : BitVec 8 := 0x27
def addrUdiFirst : BitVec 8 := 0x30
def addrUdiLast : BitVec 8 := 0x31
def addrRamAddrRand : BitVec 8 := 0x40
def addrRamDataRand : BitVec 8 := 0x41
def addrCpuMonCtrl : BitVec 8 := 0x60
def addrCpuMonFirst : BitVec 8 := 0x61
def addrCpuMonLast : BitVec 8 := 0x62
def addrSystemReset : BitVec 8 := 0x70
def addrSpiEn : BitVec 8 := 0x80
def addrSpiXfer : BitVec 8 := 0x81
def addrSpiData : BitVec 8 := 0x82

def tk1Name0 : BitVec 32 := 0x746B3120
def tk1Name1 : BitVec 32 := 0x6d6b6466
def tk1Version : BitVec 32 := 0x00000006

def fwRamFirst : BitVec 32 := 0xd0000000
def fwRamLast : BitVec 32 := 0xd0000fff
def fwRomLast : BitVec 32 := 0x00001fff

end Constants

section Tk1

/-- The registers of `tk1`. -/
structure Tk1 where
  cdiMem : BitVec 3 → BitVec 32
  fwStartupDoneReg : Bool
  ledReg : BitVec 3
  gpio1Reg : BitVec 2
  gpio2Reg : BitVec 2
  gpio3Reg : Bool
  gpio4Reg : Bool
  appStartReg : BitVec 32
  appSizeReg : BitVec 32
  cpuTrapCtrReg : BitVec 24
  cpuTrapLedReg : BitVec 3
  ramAddrRandReg : BitVec 15
  ramDataRandReg : BitVec 32
  systemResetReg : Bool
  cpuMonEnReg : Bool
  cpuMonFirstReg : BitVec 32
  cpuMonLastReg : BitVec 32
  forceTrapReg : Bool
  spiMaster : SpiMaster

namespace Tk1

/-- The input ports of `tk1`. -/
structure Ports where
  cpuAddr : BitVec 32
  cpuInstr : Bool
  cpuValid : Bool
  spiMiso : Bool
  gpio1 : Bool
  gpio2 : Bool
  syscall : Bool
  cs : Bool
  we : Bool
  address : BitVec 8
  writeData : BitVec 32

/-- The registers after a reset; `APP_SIZE` is a parameter of the core. -/
def reset (appSize : BitVec 32) : Tk1 where
  cdiMem := fun _ => 0
  fwStartupDoneReg := false
  ledReg := 6
  gpio1Reg := 0
  gpio2Reg := 0
  gpio3Reg := false
  gpio4Reg := false
  appStartReg := 0
  appSizeReg := appSize
  cpuTrapCtrReg := 0
  cpuTrapLedReg := 0
  ramAddrRandReg := 0
  ramDataRandReg := 0
  systemResetReg := false
  cpuMonEnReg := false
  cpuMonFirstReg := 0
  cpuMonLastReg := 0
  forceTrapReg := false
  spiMaster := .reset

/-- `app_mode`. -/
def appMode (tk1 : Tk1) (syscall : Bool) : Bool :=
  tk1.fwStartupDoneReg && !syscall

/-- `fw_startup_done_ctrl`: lower the privilege when executing above ROM. -/
def Ports.fwStartupDoneSet (ports : Ports) : Bool :=
  ports.cpuValid && ports.cpuInstr && decide (fwRomLast < ports.cpuAddr)

/-- An address outside the defined size of the defined memory areas. -/
def outsideMemory (cpuAddr : BitVec 32) : Bool :=
  let area := cpuAddr.extractLsb' 30 2
  let core := cpuAddr.extractLsb' 24 6
  (area == 0 && cpuAddr.extractLsb' 13 17 != 0) ||
  (area == 1 && cpuAddr.extractLsb' 17 13 != 0) ||
  area == 2 ||
  (area == 3 &&
    ((core == 0x00 && cpuAddr.extractLsb' 10 14 != 0) ||
    (core == 0x01 && cpuAddr.extractLsb' 10 14 != 0) ||
    (core == 0x02 && cpuAddr.extractLsb' 5 19 != 0) ||
    (core == 0x03 && cpuAddr.extractLsb' 10 14 != 0) ||
    (core == 0x04 && cpuAddr.extractLsb' 10 14 != 0) ||
    (decide (0x04 < core) && decide (core < 0x10)) ||
    (core == 0x10 && cpuAddr.extractLsb' 12 12 != 0) ||
    (decide (0x10 < core) && decide (core < 0x21)) ||
    (core == 0x21 && cpuAddr.extractLsb' 2 22 != 0) ||
    (decide (0x21 < core) && decide (core < 0x3f)) ||
    (core == 0x3f && cpuAddr.extractLsb' 10 14 != 0)))

/-- `security_monitor`. -/
def securityMonitor (tk1 : Tk1) (ports : Ports) : Bool :=
  ports.cpuValid &&
    (outsideMemory ports.cpuAddr ||
    (ports.cpuInstr &&
      ((decide (fwRamFirst ≤ ports.cpuAddr) &&
          decide (ports.cpuAddr ≤ fwRamLast)) ||
      (tk1.appMode ports.syscall && decide (ports.cpuAddr ≤ fwRomLast)) ||
      (tk1.cpuMonEnReg &&
        decide (tk1.cpuMonFirstReg ≤ ports.cpuAddr) &&
        decide (ports.cpuAddr ≤ tk1.cpuMonLastReg)))))

/-- A write access to one of the addresses from `first` to `last`. -/
def Ports.writesIn (ports : Ports) (first last : BitVec 8) : Bool :=
  ports.cs && ports.we && decide (first ≤ ports.address) &&
    decide (ports.address ≤ last)

/-- A write access to an address. -/
def Ports.writes (ports : Ports) (address : BitVec 8) : Bool :=
  ports.cs && ports.we && ports.address == address

/-- The write enables that `api` computes, and what it asks the SPI master. -/
structure Api where
  ledWe : Bool
  gpio3We : Bool
  gpio4We : Bool
  appStartWe : Bool
  appSizeWe : Bool
  cdiMemWe : Bool
  ramAddrRandWe : Bool
  ramDataRandWe : Bool
  systemResetNew : Bool
  cpuMonEnWe : Bool
  cpuMonFirstWe : Bool
  cpuMonLastWe : Bool
  spiMaster : SpiMaster.Ports

/-- The writing part of `api`. -/
def api (tk1 : Tk1) (ports : Ports) : Api :=
  let appMode := tk1.appMode ports.syscall
  { ledWe := ports.writes addrLed
    gpio3We := ports.writes addrGpio
    gpio4We := ports.writes addrGpio
    appStartWe := ports.writes addrAppStart && !appMode
    appSizeWe := ports.writes addrAppSize && !appMode
    systemResetNew := ports.writes addrSystemReset && !appMode
    cdiMemWe := ports.writesIn addrCdiFirst addrCdiLast && !appMode
    ramAddrRandWe := ports.writes addrRamAddrRand && !appMode
    ramDataRandWe := ports.writes addrRamDataRand && !appMode
    cpuMonEnWe := ports.writes addrCpuMonCtrl
    cpuMonFirstWe := ports.writes addrCpuMonFirst && !tk1.cpuMonEnReg
    cpuMonLastWe := ports.writes addrCpuMonLast && !tk1.cpuMonEnReg
    spiMaster :=
      { spiMiso := ports.spiMiso
        spiEnable := ports.writeData.getLsbD 0 && !appMode
        spiEnableVld := ports.writes addrSpiEn && !appMode
        spiStart := ports.writes addrSpiXfer && !appMode
        spiTxData :=
          ports.writeData.extractLsb' 0 8 &&&
            (if !appMode then BitVec.allOnes 8 else 0)
        spiTxDataVld := ports.writes addrSpiData && !appMode } }

/-- `tmp_ready`. -/
def ready (ports : Ports) : Bool :=
  ports.cs

/--
`tmp_read_data`, the reading part of `api`; `udi` holds the words of the UDI.
-/
def readData
    (tk1 : Tk1)
    (udi : BitVec 1 → BitVec 32)
    (ports : Ports) : BitVec 32 :=
  let appMode := tk1.appMode ports.syscall
  let address := ports.address
  if ports.cs && !ports.we then
    if address = addrName0 then
      tk1Name0
    else if address = addrName1 then
      tk1Name1
    else if address = addrVersion then
      tk1Version
    else if address = addrLed then
      tk1.ledReg.setWidth 32
    else if address = addrGpio then
      (BitVec.ofBool tk1.gpio4Reg ++ BitVec.ofBool tk1.gpio3Reg ++
        tk1.gpio2Reg.extractLsb' 1 1 ++
        tk1.gpio1Reg.extractLsb' 1 1).setWidth 32
    else if address = addrAppStart then
      tk1.appStartReg
    else if address = addrAppSize then
      tk1.appSizeReg
    else if addrCdiFirst ≤ address ∧ address ≤ addrCdiLast then
      tk1.cdiMem (address.extractLsb' 0 3)
    else if addrUdiFirst ≤ address ∧ address ≤ addrUdiLast then
      if !appMode then udi (address.extractLsb' 0 1) else 0
    else if address = addrSpiXfer then
      if !appMode then
        (BitVec.ofBool tk1.spiMaster.spiReadyReg).setWidth 32
      else
        0
    else if address = addrSpiData then
      if !appMode then tk1.spiMaster.spiRxDataReg.setWidth 32 else 0
    else
      0
  else
    0

/-- `trap_led_logic`: the next value of `cpu_trap_led_reg`. -/
def trapLedLogic (tk1 : Tk1) : BitVec 3 :=
  if tk1.cpuTrapCtrReg = 0 then tk1.cpuTrapLedReg ^^^ 4 else tk1.cpuTrapLedReg

/-- `reg_update`. -/
def clock (tk1 : Tk1) (ports : Ports) : Tk1 :=
  let api := tk1.api ports
  let writeData := ports.writeData
  { cpuTrapCtrReg := tk1.cpuTrapCtrReg + 1
    systemResetReg := api.systemResetNew
    gpio1Reg := tk1.gpio1Reg.extractLsb' 0 1 ++ BitVec.ofBool ports.gpio1
    gpio2Reg := tk1.gpio2Reg.extractLsb' 0 1 ++ BitVec.ofBool ports.gpio2
    fwStartupDoneReg := ports.fwStartupDoneSet || tk1.fwStartupDoneReg
    ledReg := if api.ledWe then writeData.extractLsb' 0 3 else tk1.ledReg
    gpio3Reg := if api.gpio3We then writeData.getLsbD 2 else tk1.gpio3Reg
    gpio4Reg := if api.gpio4We then writeData.getLsbD 3 else tk1.gpio4Reg
    appStartReg := if api.appStartWe then writeData else tk1.appStartReg
    appSizeReg := if api.appSizeWe then writeData else tk1.appSizeReg
    cdiMem :=
      if api.cdiMemWe then
        Function.update tk1.cdiMem (ports.address.extractLsb' 0 3) writeData
      else
        tk1.cdiMem
    ramAddrRandReg :=
      if api.ramAddrRandWe then
        writeData.extractLsb' 0 15
      else
        tk1.ramAddrRandReg
    ramDataRandReg := if api.ramDataRandWe then writeData else tk1.ramDataRandReg
    cpuTrapLedReg := tk1.trapLedLogic
    cpuMonEnReg := api.cpuMonEnWe || tk1.cpuMonEnReg
    cpuMonFirstReg := if api.cpuMonFirstWe then writeData else tk1.cpuMonFirstReg
    cpuMonLastReg := if api.cpuMonLastWe then writeData else tk1.cpuMonLastReg
    forceTrapReg := tk1.securityMonitor ports || tk1.forceTrapReg
    spiMaster := tk1.spiMaster.clock api.spiMaster }

end Tk1

end Tk1

end TKey.Fpga
