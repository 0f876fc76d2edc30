import TKey.ApplicationFpga
import TKey.Lib.Register

namespace TKey.Fpga

open Register

/-!
# The privilege boundary of app mode

The core is in app mode once an instruction above ROM was fetched, except while
a system call is handled.  In app mode no access changes what the firmware has
set up or reads what belongs to the firmware, whatever the CPU does.
-/

variable {bram : BlockRam}

section Protection

/-- What app mode protects from being changed. -/
@[ext] structure Privileged where
  cdiMem : BitVec 3 → BitVec 32
  appStartReg : BitVec 32
  appSizeReg : BitVec 32
  ramAddrRandReg : BitVec 15
  ramDataRandReg : BitVec 32
  /-- The contents of `FW_RAM`. -/
  fwRam : BitVec 10 → BitVec 32

def ApplicationFpga.privileged (fpga : ApplicationFpga bram) : Privileged where
  cdiMem := fpga.tk1.cdiMem
  appStartReg := fpga.tk1.appStartReg
  appSizeReg := fpga.tk1.appSizeReg
  ramAddrRandReg := fpga.tk1.ramAddrRandReg
  ramDataRandReg := fpga.tk1.ramDataRandReg
  fwRam := fpga.fwRam.word

/-- The cycle is in app mode. -/
def InAppMode (fpga : ApplicationFpga bram) (cycle : Cycle) : Prop :=
  fpga.appMode cycle = true

instance (fpga : ApplicationFpga bram) (cycle : Cycle) :
    Decidable (InAppMode fpga cycle) :=
  inferInstanceAs (Decidable (_ = _))

/-- No block RAM of `FW_RAM` is enabled in app mode. -/
theorem FwRam.bank_of_appMode
    {ports : FwRam.Ports}
    (appMode : ports.appMode = true)
    (index : BitVec 2) :
    ports.bank index = false := by
  simp [FwRam.Ports.bank, FwRam.Ports.appModeCs, appMode]

/-- In app mode `FW_RAM` keeps its contents. -/
theorem FwRam.word_clock
    {ports : FwRam.Ports}
    (appMode : ports.appMode = true)
    (fwRam : FwRam bram) :
    (fwRam.clock ports).word = fwRam.word := by
  have lowOff (index : BitVec 2) : (ports.lowPorts index).we = false := by
    rw [FwRam.Ports.lowPorts, FwRam.bank_of_appMode appMode, Bool.and_false]
  have highOff (index : BitVec 2) : (ports.highPorts index).we = false := by
    rw [FwRam.Ports.highPorts, FwRam.bank_of_appMode appMode, Bool.and_false]
  funext address
  simp only [FwRam.word, FwRam.clock, bram.word_clock_of_not_we _ _ (lowOff _),
    bram.word_clock_of_not_we _ _ (highOff _)]

/-- In app mode `FW_RAM` is read as zero. -/
theorem FwRam.readData_of_appMode
    {ports : FwRam.Ports}
    (appMode : ports.appMode = true)
    (fwRam : FwRam bram) :
    fwRam.readData ports = 0 := by
  simp [FwRam.readData, FwRam.Ports.appModeCs, appMode]

/-- No write enable of a protected register is set in app mode. -/
theorem Tk1.api_of_appMode
    {tk1 : Tk1}
    {ports : Tk1.Ports}
    (appMode : tk1.appMode ports.syscall = true) :
    tk1.api ports =
      { tk1.api ports with
        appStartWe := false
        appSizeWe := false
        cdiMemWe := false
        ramAddrRandWe := false
        ramDataRandWe := false
        systemResetNew := false
        spiMaster := .idle ports.spiMiso } := by
  simp [Tk1.api, SpiMaster.Ports.idle, appMode]

/-- A cycle in app mode changes nothing that is protected. -/
theorem ApplicationFpga.privileged_clock
    (bits : Bitstream)
    (fpga : ApplicationFpga bram)
    (cycle : Cycle)
    (inAppMode : InAppMode fpga cycle) :
    (fpga.clock bits cycle).privileged = fpga.privileged := by
  have api :=
    @Tk1.api_of_appMode fpga.tk1 (fpga.tk1Ports cycle) inAppMode
  have fwRam :
      (fpga.fwRam.clock (fpga.fwRamPorts cycle)).word = fpga.fwRam.word :=
    @FwRam.word_clock bram (fpga.fwRamPorts cycle) inAppMode fpga.fwRam
  rw [ApplicationFpga.privileged, ApplicationFpga.clock, fwRam, Tk1.clock, api]
  rfl

/-- In app mode the SPI master is asked for nothing. -/
theorem ApplicationFpga.spiMaster_clock
    (bits : Bitstream)
    {fpga : ApplicationFpga bram}
    {cycle : Cycle}
    (inAppMode : InAppMode fpga cycle) :
    (fpga.clock bits cycle).tk1.spiMaster =
      fpga.tk1.spiMaster.clock (.idle cycle.spiMiso) := by
  rw [ApplicationFpga.clock, Tk1.clock,
    @Tk1.api_of_appMode fpga.tk1 (fpga.tk1Ports cycle) inAppMode]
  rfl

/-- In app mode no system reset is started. -/
theorem ApplicationFpga.systemReset_clock
    (bits : Bitstream)
    {fpga : ApplicationFpga bram}
    {cycle : Cycle}
    (inAppMode : InAppMode fpga cycle) :
    (fpga.clock bits cycle).tk1.systemResetReg = false := by
  rw [ApplicationFpga.clock, Tk1.clock,
    @Tk1.api_of_appMode fpga.tk1 (fpga.tk1Ports cycle) inAppMode]

/-- The same cycle without an access of the CPU. -/
def Cycle.withoutAccess (cycle : Cycle) : Cycle :=
  { cycle with cpuValid := false }

end Protection

section Monitor

/-- The range of the CPU monitor. -/
def ApplicationFpga.cpuMonRange (fpga : ApplicationFpga bram) :
    BitVec 32 × BitVec 32 :=
  (fpga.tk1.cpuMonFirstReg, fpga.tk1.cpuMonLastReg)

/-- The CPU monitor stays enabled. -/
theorem ApplicationFpga.cpuMonEn_clock
    (bits : Bitstream)
    (fpga : ApplicationFpga bram)
    (cycle : Cycle)
    (enabled : fpga.tk1.cpuMonEnReg = true) :
    (fpga.clock bits cycle).tk1.cpuMonEnReg = true := by
  rw [ApplicationFpga.clock, Tk1.clock]
  simp only [enabled, Bool.or_true]

/-- An enabled CPU monitor keeps its range. -/
theorem ApplicationFpga.cpuMonRange_clock
    (bits : Bitstream)
    (fpga : ApplicationFpga bram)
    (cycle : Cycle)
    (enabled : fpga.tk1.cpuMonEnReg = true) :
    (fpga.clock bits cycle).cpuMonRange = fpga.cpuMonRange := by
  simp [ApplicationFpga.cpuMonRange, ApplicationFpga.clock, Tk1.clock, Tk1.api,
    enabled]

end Monitor

section Reads

/-- The addresses of the UDI and of the SPI master. -/
def hiddenAddresses : List (BitVec 8) :=
  [addrUdiFirst, addrUdiLast, addrSpiEn, addrSpiXfer, addrSpiData]

/-- An access to the UDI, to the SPI master or to `FW_RAM`. -/
def Access.ToHidden (access : Access) : Prop :=
  decodeAddr access.cpuAddr = .fwRam ∨
    decodeAddr access.cpuAddr = .tk1 ∧
      access.cpuAddr.extractLsb' 2 8 ∈ hiddenAddresses

/-- The address of a word of the CDI. -/
def cdiAddress (index : BitVec 3) : BitVec 8 :=
  addrCdiFirst + index.setWidth 8

/-- In app mode the UDI and the SPI master are read as zero. -/
theorem Tk1.readData_of_hidden
    {tk1 : Tk1}
    {ports : Tk1.Ports}
    (appMode : tk1.appMode ports.syscall = true)
    (hidden : ports.address ∈ hiddenAddresses)
    (udi : BitVec 1 → BitVec 32) :
    tk1.readData udi ports = 0 := by
  simp only [hiddenAddresses, List.mem_cons, List.not_mem_nil,
    or_false] at hidden
  rcases hidden with address | address | address | address | address
  all_goals
    simp [Tk1.readData, address, appMode, addrName0, addrName1, addrVersion,
      addrLed, addrGpio, addrAppStart, addrAppSize, addrCdiFirst, addrCdiLast,
      addrUdiFirst, addrUdiLast, addrSpiEn, addrSpiXfer, addrSpiData]

/-- The words of the CDI are read in every mode. -/
theorem Tk1.readData_cdi
    {ports : Tk1.Ports}
    {index : BitVec 3}
    (cs : ports.cs = true)
    (reads : ports.we = false)
    (address : ports.address = cdiAddress index)
    (tk1 : Tk1)
    (udi : BitVec 1 → BitVec 32) :
    tk1.readData udi ports = tk1.cdiMem index := by
  have other :
      ∀ index, cdiAddress index ∉
        [addrName0, addrName1, addrVersion, addrLed, addrGpio, addrAppStart,
          addrAppSize] := by
    decide
  have inRange :
      ∀ index,
        (addrCdiFirst ≤ cdiAddress index ∧ cdiAddress index ≤ addrCdiLast) ∧
          (cdiAddress index).extractLsb' 0 3 = index := by
    decide
  have isOther := other index
  simp only [List.mem_cons, List.not_mem_nil, or_false, not_or] at isOther
  simp [Tk1.readData, cs, reads, address, isOther, inRange index]

/-- In app mode an access to what is hidden is answered with zero, if at all. -/
theorem ApplicationFpga.muxedRdata_of_hidden
    (bits : Bitstream)
    {fpga : ApplicationFpga bram}
    {cycle : Cycle}
    (inAppMode : InAppMode fpga cycle)
    (hidden : cycle.access.ToHidden) :
    (fpga.clock bits cycle).muxedRdataReg = 0 := by
  rw [ApplicationFpga.clock, ApplicationFpga.muxedNew]
  rcases fpga.selected_cases cycle with none | zero | decoded
  · rw [none]
  · rw [zero]
  · rcases hidden with fwRam | ⟨tk1, address⟩
    · rw [decoded, fwRam]
      exact
        @FwRam.readData_of_appMode bram (fpga.fwRamPorts cycle) inAppMode
          fpga.fwRam
    · rw [decoded, tk1]
      exact
        @Tk1.readData_of_hidden fpga.tk1 (fpga.tk1Ports cycle) inAppMode
          address bits.udi

end Reads

section Cdi

/-- The addresses of the CDI are those of its words. -/
theorem cdiAddress_iff (address : BitVec 8) (index : BitVec 3) :
    address = cdiAddress index ↔
      (addrCdiFirst ≤ address ∧ address ≤ addrCdiLast) ∧
        address.extractLsb' 0 3 = index := by
  have short : index.toNat < 8 := index.isLt
  have small : address.toNat < 256 := address.isLt
  simp only [cdiAddress, addrCdiFirst, addrCdiLast, BitVec.le_def,
    ← BitVec.toNat_inj, BitVec.extractLsb'_toNat, BitVec.toNat_add,
    BitVec.toNat_setWidth]
  simp
  omega

/-- The write enable of the CDI, for one word. -/
theorem Tk1.cdiMemWe_iff
    (tk1 : Tk1)
    (ports : Tk1.Ports)
    (index : BitVec 3) :
    ((tk1.api ports).cdiMemWe = true ∧
        index = ports.address.extractLsb' 0 3) ↔
      (ports.cs = true ∧ ports.we = true ∧
        ports.address = cdiAddress index ∧
        tk1.appMode ports.syscall = false) := by
  simp only [Tk1.api, Tk1.Ports.writesIn, Bool.and_eq_true, decide_eq_true_eq,
    Bool.not_eq_true', cdiAddress_iff]
  constructor
  · rintro ⟨⟨⟨⟨⟨cs, we⟩, first⟩, last⟩, unprivileged⟩, rfl⟩
    exact ⟨cs, we, ⟨⟨first, last⟩, rfl⟩, unprivileged⟩
  · rintro ⟨cs, we, ⟨⟨first, last⟩, rfl⟩, unprivileged⟩
    exact ⟨⟨⟨⟨⟨cs, we⟩, first⟩, last⟩, unprivileged⟩, rfl⟩

/-- A word of the CDI at a clock edge. -/
theorem Tk1.cdiMem_clock
    (tk1 : Tk1)
    (ports : Tk1.Ports)
    (index : BitVec 3) :
    (tk1.clock ports).cdiMem index =
      if (tk1.api ports).cdiMemWe = true ∧
          index = ports.address.extractLsb' 0 3 then
        ports.writeData
      else
        tk1.cdiMem index := by
  have register :
      (tk1.clock ports).cdiMem =
        if (tk1.api ports).cdiMemWe then
          Function.update tk1.cdiMem (ports.address.extractLsb' 0 3)
            ports.writeData
        else
          tk1.cdiMem :=
    rfl
  rw [register]
  by_cases enabled : (tk1.api ports).cdiMemWe = true
  · simp only [enabled, if_true, true_and, Function.update_apply]
  · rw [if_neg enabled, if_neg fun both => enabled both.1]

/-- What an access outside app mode writes to a word of the CDI. -/
def cdiWritten
    (index : BitVec 3)
    (fpga : ApplicationFpga bram)
    (cycle : Cycle) : Option (BitVec 32) :=
  if fpga.selected cycle = some .tk1 ∧
      cycle.access.cpuWstrb ≠ 0 ∧
      cycle.access.cpuAddr.extractLsb' 2 8 = cdiAddress index ∧
      ¬ InAppMode fpga cycle then
    some cycle.access.cpuWdata
  else
    none

theorem ApplicationFpga.cdiMem_clock
    (bits : Bitstream)
    (index : BitVec 3)
    (fpga : ApplicationFpga bram)
    (cycle : Cycle) :
    (fpga.clock bits cycle).tk1.cdiMem index =
      (cdiWritten index fpga cycle).getD (fpga.tk1.cdiMem index) := by
  have written :
      ((fpga.tk1.api (fpga.tk1Ports cycle)).cdiMemWe = true ∧
          index = (fpga.tk1Ports cycle).address.extractLsb' 0 3) ↔
        (fpga.selected cycle = some .tk1 ∧
          cycle.access.cpuWstrb ≠ 0 ∧
          cycle.access.cpuAddr.extractLsb' 2 8 = cdiAddress index ∧
          ¬ InAppMode fpga cycle) := by
    rw [Tk1.cdiMemWe_iff]
    simp [ApplicationFpga.tk1Ports, InAppMode, ApplicationFpga.appMode]
  rw [ApplicationFpga.clock, Tk1.cdiMem_clock, if_congr written rfl rfl,
    cdiWritten]
  split_ifs <;> rfl

/-- A word of the CDI, as a register that accesses outside app mode write. -/
def cdiWord (bram : BlockRam) (bits : Bitstream) (index : BitVec 3) :
    Register (ApplicationFpga.clock bits : ApplicationFpga bram → Cycle → _)
      (BitVec 32) where
  value fpga := fpga.tk1.cdiMem index
  write := cdiWritten index
  updates := ApplicationFpga.cdiMem_clock bits index

end Cdi

section Boundary

/-- The CDI words that were written last outside app mode, after a reset. -/
def cdiWrittenLast
    (bits : Bitstream)
    (fpga : ApplicationFpga bram)
    (cycles : List Cycle)
    (index : BitVec 3) : BitVec 32 :=
  ((cdiWord bram bits index).writes fpga cycles).getLastD 0

/-- A read access to a word of the CDI that reaches the core. -/
structure ReadsCdi
    (fpga : ApplicationFpga bram)
    (cycle : Cycle)
    (index : BitVec 3) : Prop where
  selected : fpga.selected cycle = some .tk1
  reads : cycle.access.cpuWstrb = 0
  address : cycle.access.cpuAddr.extractLsb' 2 8 = cdiAddress index

/-- What app mode and the CPU monitor guarantee in a state. -/
structure Bounded
    (bits : Bitstream)
    (fpga : ApplicationFpga bram)
    (cdi : BitVec 3 → BitVec 32) : Prop where
  /-- As long as app mode lasts, nothing that is protected changes. -/
  privileged :
    ∀ cycles,
      Throughout (ApplicationFpga.clock bits) InAppMode fpga cycles →
      (fpga.run bits cycles).privileged = fpga.privileged
  /-- In app mode an access makes no difference to the SPI master. -/
  spiMaster :
    ∀ cycle,
      InAppMode fpga cycle →
      (fpga.clock bits cycle).tk1.spiMaster =
        (fpga.clock bits cycle.withoutAccess).tk1.spiMaster
  /-- No access in app mode starts a system reset. -/
  systemReset :
    ∀ cycle,
      InAppMode fpga cycle →
      (fpga.clock bits cycle).tk1.systemResetReg = false
  /-- In app mode the UDI, the SPI master and `FW_RAM` are read as zero. -/
  hidden :
    ∀ cycle,
      InAppMode fpga cycle →
      cycle.access.ToHidden →
      (fpga.clock bits cycle).muxedRdataReg = 0
  /-- In app mode the CDI is read as given. -/
  cdi :
    ∀ cycle index,
      InAppMode fpga cycle →
      ReadsCdi fpga cycle index →
      (fpga.clock bits cycle).muxedReadyReg = true ∧
        (fpga.clock bits cycle).muxedRdataReg = cdi index
  /-- The range of an enabled CPU monitor never changes. -/
  cpuMonRange :
    fpga.tk1.cpuMonEnReg = true →
    ∀ cycles, (fpga.run bits cycles).cpuMonRange = fpga.cpuMonRange

/-- The CDI holds what was written last. -/
theorem cdiMem_run
    (bits : Bitstream)
    (before : ApplicationFpga bram)
    (cycles : List Cycle)
    (index : BitVec 3) :
    ((before.reset bits).run bits cycles).tk1.cdiMem index =
      cdiWrittenLast bits (before.reset bits) cycles index :=
  (cdiWord bram bits index).value_run (before.reset bits) cycles

/-- A read of the CDI is answered at once. -/
theorem ReadsCdi.answered
    {fpga : ApplicationFpga bram}
    {cycle : Cycle}
    {index : BitVec 3}
    (reads : ReadsCdi fpga cycle index)
    (bits : Bitstream) :
    fpga.muxedNew bits cycle =
      { readData := fpga.tk1.cdiMem index, ready := true } := by
  have cs : (fpga.tk1Ports cycle).cs = true := by
    rw [ApplicationFpga.tk1Ports, reads.selected]
    rfl
  have noWrite : (fpga.tk1Ports cycle).we = false := by
    rw [ApplicationFpga.tk1Ports, reads.reads]
    rfl
  rw [ApplicationFpga.muxedNew, reads.selected]
  simp only [cs, Tk1.readData_cdi cs noWrite reads.address]

/--
The privilege boundary of app mode: from a reset on, whatever the CPU does and
however modes alternate, in app mode no access changes the CDI, the app's
address and size, the seeds of the RAM scrambling, the SPI master or `FW_RAM`,
none starts a system reset, and the UDI, the SPI master and `FW_RAM` are read
as zero.  An enabled CPU monitor keeps its range in every mode.  The CDI that
is read in app mode is the last value written outside app mode.
-/
theorem app_mode_boundary
    (bits : Bitstream)
    (before : ApplicationFpga bram)
    (cycles : List Cycle) :
    Bounded bits ((before.reset bits).run bits cycles)
      (cdiWrittenLast bits (before.reset bits) cycles) where
  privileged more inAppMode :=
    value_of_throughout (ApplicationFpga.privileged_clock bits) inAppMode
  spiMaster cycle inAppMode := by
    have idle : InAppMode _ cycle.withoutAccess := inAppMode
    rw [ApplicationFpga.spiMaster_clock bits inAppMode,
      ApplicationFpga.spiMaster_clock bits idle]
    rfl
  systemReset cycle := ApplicationFpga.systemReset_clock bits
  hidden cycle := ApplicationFpga.muxedRdata_of_hidden bits
  cdi cycle index inAppMode reads := by
    rw [ApplicationFpga.clock, reads.answered bits,
      ← cdiMem_run bits before cycles index]
    exact ⟨rfl, rfl⟩
  cpuMonRange enabled more := by
    have enabledOn :=
      throughout_of_lasting (ApplicationFpga.cpuMonEn_clock bits) enabled more
    exact
      value_of_throughout (ApplicationFpga.cpuMonRange_clock bits) enabledOn

/--
The firmware writes a word of the CDI and starts an app, which tries to change
the word.
-/
def overwriteCdi : List Cycle :=
  [.of (.store 0xff000080 7) false, .of (.store 0xff000080 7) false,
    .of (.fetch 0x40000000) false, .of (.store 0xff000080 8) false]

/-- The app reads what the firmware has written. -/
example :
    cdiWrittenLast .counting (ApplicationFpga.blank.reset .counting)
      overwriteCdi 0 = 7 := by
  decide +kernel

end Boundary

end TKey.Fpga
