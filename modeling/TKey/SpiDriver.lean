import TKey.SpiTransfer

namespace TKey.Fpga

open SpiWires

/-!
# The SPI driver on the TK1 core

`spi.c`, with what it reads from and writes into the registers of TK1.  The CPU
lets any number of cycles pass before an access, and everything else on the
ports of TK1 is arbitrary.
-/

section Bus

/-- A cycle without an access to TK1. -/
def Tk1.Ports.noAccess (ports : Tk1.Ports) : Tk1.Ports :=
  { ports with cs := false }

/-- A cycle in which the CPU writes a register of TK1. -/
def Tk1.Ports.writing
    (ports : Tk1.Ports)
    (address : BitVec 8)
    (writeData : BitVec 32) : Tk1.Ports :=
  { ports with
    cs := true
    we := true
    address := address
    writeData := writeData }

/-- A cycle in which the CPU reads a register of TK1. -/
def Tk1.Ports.reading (ports : Tk1.Ports) (address : BitVec 8) : Tk1.Ports :=
  { ports with
    cs := true
    we := false
    address := address }

/-- What does not depend on the driver. -/
structure Surroundings where
  /-- The cycles that pass before each access. -/
  gap : Nat → Nat
  /-- What is on the ports in each cycle, apart from the accesses. -/
  ports : Nat → Tk1.Ports
  udi : BitVec 1 → BitVec 32

/-- The TK1 core and the wires of the SPI bus in the cycles so far. -/
structure SpiBus where
  tk1 : Tk1
  accesses : Nat
  trace : List Wires

namespace SpiBus

/-- Nothing has happened yet. -/
def start (tk1 : Tk1) : SpiBus where
  tk1 := tk1
  accesses := 0
  trace := []

/-- A cycle. -/
def tick (bus : SpiBus) (ports : Tk1.Ports) : SpiBus where
  tk1 := bus.tk1.clock ports
  accesses := bus.accesses
  trace := bus.trace ++ [bus.tk1.spiMaster.wires ports.spiMiso]

variable (env : Surroundings)

/-- What is on the ports now, apart from accesses. -/
def now (bus : SpiBus) : Tk1.Ports :=
  env.ports bus.trace.length

/-- Some cycles pass. -/
def pause : Nat → SpiBus → SpiBus
  | 0, bus => bus
  | cycles + 1, bus => pause cycles (bus.tick (bus.now env).noAccess)

/-- The cycles before an access pass. -/
def approach (bus : SpiBus) : SpiBus :=
  { pause env (env.gap bus.accesses) bus with accesses := bus.accesses + 1 }

/-- The CPU writes a register. -/
def write (bus : SpiBus) (address : BitVec 8) (writeData : BitVec 32) :
    SpiBus :=
  let bus := bus.approach env
  bus.tick ((bus.now env).writing address writeData)

/-- The CPU reads a register. -/
def read (bus : SpiBus) (address : BitVec 8) : BitVec 32 × SpiBus :=
  let bus := bus.approach env
  let ports := (bus.now env).reading address
  (bus.tk1.readData env.udi ports, bus.tick ports)

end SpiBus

end Bus

section Driver

namespace SpiBus

variable (env : Surroundings)

def spiReady (bus : SpiBus) : Bool × SpiBus :=
  let (value, bus) := bus.read env addrSpiXfer
  (value != 0, bus)

def spiEnable (bus : SpiBus) : SpiBus :=
  bus.write env addrSpiEn 1

def spiDisable (bus : SpiBus) : SpiBus :=
  bus.write env addrSpiEn 0

/-- `while (!spi_ready())`, which ends after some polls or not at all. -/
def awaitReady : Nat → SpiBus → Option SpiBus
  | 0, _ => none
  | polls + 1, bus =>
      let (ready, bus) := bus.spiReady env
      if ready then some bus else awaitReady polls bus

/-- Load a byte and start its transfer. -/
def exchange (bus : SpiBus) (byte : BitVec 8) : SpiBus :=
  (bus.write env addrSpiData (byte.setWidth 32)).write env addrSpiXfer 1

def spiWrite (polls : Nat) : List (BitVec 8) → SpiBus → Option SpiBus
  | [], bus => bus.awaitReady env polls
  | byte :: cmd, bus => do
      let bus ← bus.awaitReady env polls
      spiWrite polls cmd (bus.exchange env byte)

/-- The loop of `spi_read`. -/
def spiReadLoop (polls : Nat) :
    Nat → SpiBus → Option (List (BitVec 8) × SpiBus)
  | 0, bus => some ([], bus)
  | size + 1, bus => do
      let bus ← (bus.exchange env 0x00).awaitReady env polls
      let (value, bus) := bus.read env addrSpiData
      let (buf, bus) ← spiReadLoop polls size bus
      some ((value &&& 0xff).setWidth 8 :: buf, bus)

def spiRead (polls : Nat) (size : Nat) (bus : SpiBus) :
    Option (List (BitVec 8) × SpiBus) := do
  let bus ← bus.awaitReady env polls
  bus.spiReadLoop env polls size

/--
Both read and write data to the connected SPI flash.  An empty list or a size of
zero also stands for `NULL`.
-/
def spiTransfer
    (polls : Nat)
    (cmd tx : List (BitVec 8))
    (rxSize : Nat)
    (bus : SpiBus) : Option ((Int × List (BitVec 8)) × SpiBus) :=
  if cmd = [] then
    some ((-1, []), bus)
  else do
    let bus ← (bus.spiEnable env).spiWrite env polls cmd
    let bus ← (if tx = [] then some bus else bus.spiWrite env polls tx)
    let (buf, bus) ←
      (if rxSize = 0 then some ([], bus) else bus.spiRead env polls rxSize)
    some ((0, buf), bus.spiDisable env)

end SpiBus

end Driver

section Firmware

variable {env : Surroundings} {bus : SpiBus}

/-- The firmware executes: in a system call, or before an app has started. -/
def Surroundings.InFirmware (env : Surroundings) (tk1 : Tk1) : Prop :=
  (∀ cycle, (env.ports cycle).syscall = true) ∨
    (tk1.fwStartupDoneReg = false ∧
      ∀ cycle, (env.ports cycle).fwStartupDoneSet = false)

/-- The ports in a cycle, with an access or without one. -/
def Surroundings.Gives (env : Surroundings) (ports : Tk1.Ports) : Prop :=
  ∃ cycle,
    ports.syscall = (env.ports cycle).syscall ∧
    ports.fwStartupDoneSet = (env.ports cycle).fwStartupDoneSet

theorem SpiBus.gives_noAccess (bus : SpiBus) :
    env.Gives (bus.now env).noAccess :=
  ⟨_, rfl, rfl⟩

theorem SpiBus.gives_writing
    (bus : SpiBus)
    (address : BitVec 8)
    (writeData : BitVec 32) :
    env.Gives ((bus.now env).writing address writeData) :=
  ⟨_, rfl, rfl⟩

theorem SpiBus.gives_reading (bus : SpiBus) (address : BitVec 8) :
    env.Gives ((bus.now env).reading address) :=
  ⟨_, rfl, rfl⟩

/-- The core is not in app mode. -/
theorem Surroundings.InFirmware.appMode
    {tk1 : Tk1}
    {ports : Tk1.Ports}
    (firmware : env.InFirmware tk1)
    (gives : env.Gives ports) :
    tk1.appMode ports.syscall = false := by
  obtain ⟨cycle, syscall, -⟩ := gives
  rw [Tk1.appMode]
  rcases firmware with always | ⟨notDone, -⟩
  · rw [syscall, always, Bool.not_true, Bool.and_false]
  · rw [notDone, Bool.false_and]

theorem Surroundings.InFirmware.clock
    {tk1 : Tk1}
    {ports : Tk1.Ports}
    (firmware : env.InFirmware tk1)
    (gives : env.Gives ports) :
    env.InFirmware (tk1.clock ports) := by
  obtain ⟨cycle, -, set⟩ := gives
  rcases firmware with always | ⟨notDone, never⟩
  · exact .inl always
  · refine .inr ⟨?_, never⟩
    show (ports.fwStartupDoneSet || tk1.fwStartupDoneReg) = false
    rw [set, never, notDone]
    rfl

/-- Nothing is asked of the SPI master. -/
structure SpiMaster.Ports.Quiet (ports : SpiMaster.Ports) : Prop where
  start : ports.spiStart = false
  enable : ports.spiEnableVld = false
  load : ports.spiTxDataVld = false

/-- Without a write access nothing is asked of the SPI master. -/
theorem Tk1.quiet_api
    {tk1 : Tk1}
    {ports : Tk1.Ports}
    (noWrite : (ports.cs && ports.we) = false) :
    (tk1.api ports).spiMaster.Quiet := by
  have noWrites (address : BitVec 8) : ports.writes address = false := by
    rw [Ports.writes, noWrite, Bool.false_and]
  refine ⟨?_, ?_, ?_⟩ <;>
    simp only [api, noWrites, Bool.false_and]

/-- What a write to a register of the SPI master asks it. -/
theorem Tk1.api_writing
    {tk1 : Tk1}
    (ports : Tk1.Ports)
    (address : BitVec 8)
    (writeData : BitVec 32)
    (firmware : tk1.appMode ports.syscall = false) :
    (tk1.api (ports.writing address writeData)).spiMaster =
      { spiMiso := ports.spiMiso
        spiEnable := writeData.getLsbD 0
        spiEnableVld := address == addrSpiEn
        spiStart := address == addrSpiXfer
        spiTxData := writeData.extractLsb' 0 8
        spiTxDataVld := address == addrSpiData } := by
  simp only [api, firmware, Bool.not_false, Bool.and_true, Ports.writes,
    Ports.writing, Bool.true_and, if_true, BitVec.and_allOnes]

/-- A read of `ADDR_SPI_XFER`. -/
theorem Tk1.readData_spiXfer
    {tk1 : Tk1}
    (udi : BitVec 1 → BitVec 32)
    (ports : Tk1.Ports)
    (firmware : tk1.appMode ports.syscall = false) :
    tk1.readData udi (ports.reading addrSpiXfer) =
      (BitVec.ofBool tk1.spiMaster.spiReadyReg).setWidth 32 := by
  have value :
      tk1.readData udi (ports.reading addrSpiXfer) =
        if !tk1.appMode ports.syscall then
          (BitVec.ofBool tk1.spiMaster.spiReadyReg).setWidth 32
        else
          0 :=
    rfl
  rw [value, firmware]
  rfl

/-- A read of `ADDR_SPI_DATA`. -/
theorem Tk1.readData_spiData
    {tk1 : Tk1}
    (udi : BitVec 1 → BitVec 32)
    (ports : Tk1.Ports)
    (firmware : tk1.appMode ports.syscall = false) :
    tk1.readData udi (ports.reading addrSpiData) =
      tk1.spiMaster.spiRxDataReg.setWidth 32 := by
  have value :
      tk1.readData udi (ports.reading addrSpiData) =
        if !tk1.appMode ports.syscall then
          tk1.spiMaster.spiRxDataReg.setWidth 32
        else
          0 :=
    rfl
  rw [value, firmware]
  rfl

end Firmware

section States

namespace SpiBus

variable {env : Surroundings} {bus : SpiBus} {ports : Tk1.Ports}
variable {before : List Wires} {bytes : List (BitVec 8 × BitVec 8)}
variable {rxData txData byte : BitVec 8} {cycle : Nat}

/-- No slave is selected. -/
structure Released (env : Surroundings) (bus : SpiBus) : Prop where
  firmware : env.InFirmware bus.tk1
  rests : bus.tk1.spiMaster.Rests
  ss : bus.tk1.spiMaster.spiSsReg = true
  trace : ∀ wires ∈ bus.trace, wires.ss = true

/-- The slave is selected and some bytes have been exchanged. -/
structure Ready
    (env : Surroundings)
    (bus : SpiBus)
    (before : List Wires)
    (bytes : List (BitVec 8 × BitVec 8))
    (rxData txData : BitVec 8) : Prop where
  firmware : env.InFirmware bus.tk1
  rests : bus.tk1.spiMaster.Rests
  ss : bus.tk1.spiMaster.spiSsReg = false
  rxData : bus.tk1.spiMaster.spiRxDataReg = rxData
  txData : bus.tk1.spiMaster.spiTxDataReg = txData
  trace : Selected before bus.trace (byteBits bytes) false

/-- Another byte is being exchanged. -/
structure Sending
    (env : Surroundings)
    (bus : SpiBus)
    (before : List Wires)
    (bytes : List (BitVec 8 × BitVec 8))
    (byte : BitVec 8)
    (cycle : Nat) : Prop where
  firmware : env.InFirmware bus.tk1
  more : cycle < 24
  sends :
    ∃ bits,
      bus.tk1.spiMaster.Sends byte cycle bits ∧
      Selected before bus.trace (byteBits bytes ++ bits) (cycle % 3 == 2)

/-- A cycle in which nothing is asked of the SPI master. -/
structure Idles (env : Surroundings) (bus : SpiBus) (ports : Tk1.Ports) :
    Prop where
  gives : env.Gives ports
  quiet : (bus.tk1.api ports).spiMaster.Quiet

theorem idles_noAccess (env : Surroundings) (bus : SpiBus) :
    Idles env bus (bus.now env).noAccess :=
  ⟨bus.gives_noAccess, Tk1.quiet_api rfl⟩

theorem idles_reading (env : Surroundings) (bus : SpiBus) (address : BitVec 8) :
    Idles env bus ((bus.now env).reading address) :=
  ⟨bus.gives_reading address, Tk1.quiet_api rfl⟩

/-- The next state of the SPI master. -/
theorem spiMaster_tick (bus : SpiBus) (ports : Tk1.Ports) :
    (bus.tick ports).tk1.spiMaster =
      bus.tk1.spiMaster.clock (bus.tk1.api ports).spiMaster :=
  rfl

/-- The next state of the SPI master after a write access. -/
theorem spiMaster_writing
    (firmware : env.InFirmware bus.tk1)
    (address : BitVec 8)
    (writeData : BitVec 32) :
    (bus.tick ((bus.now env).writing address writeData)).tk1.spiMaster =
      bus.tk1.spiMaster.clock
        { spiMiso := (bus.now env).spiMiso
          spiEnable := writeData.getLsbD 0
          spiEnableVld := address == addrSpiEn
          spiStart := address == addrSpiXfer
          spiTxData := writeData.extractLsb' 0 8
          spiTxDataVld := address == addrSpiData } := by
  rw [spiMaster_tick,
    Tk1.api_writing (bus.now env) address writeData
      (firmware.appMode bus.gives_noAccess)]

/-- Between transfers the clock is low. -/
theorem rising_of_rests
    (rests : bus.tk1.spiMaster.Rests)
    (spiMiso : Bool) :
    rising false (bus.tk1.spiMaster.wires spiMiso) = [] := by
  rw [rising, SpiMaster.wires, rests.sck]
  rfl

/-- The wires in a cycle between transfers. -/
theorem Ready.selected
    (ready : Ready env bus before bytes rxData txData)
    (ports : Tk1.Ports) :
    Selected before (bus.tick ports).trace (byteBits bytes) false := by
  have ss : (bus.tk1.spiMaster.wires ports.spiMiso).ss = false := ready.ss
  have sck : (bus.tk1.spiMaster.wires ports.spiMiso).sck = false :=
    ready.rests.sck
  have goesOn := ready.trace.concat ss
  rwa [rising_of_rests ready.rests, List.append_nil, sck] at goesOn

/-- A cycle between transfers. -/
theorem Ready.tick
    (ready : Ready env bus before bytes rxData txData)
    (idles : Idles env bus ports) :
    Ready env (bus.tick ports) before bytes rxData txData := by
  have next := ready.selected ports
  obtain ⟨firmware, rests, ss, rx, tx, -⟩ := ready
  have clocked := SpiMaster.clock_rest rests idles.quiet.start
  rw [idles.quiet.enable, idles.quiet.load, ss] at clocked
  refine ⟨firmware.clock idles.gives, ?_, ?_, ?_, ?_, next⟩ <;>
    rw [spiMaster_tick, clocked]
  · exact ⟨rests.ctrl, rests.ready, rests.sck⟩
  · rfl
  · exact rx
  · exact tx

/-- A byte is loaded. -/
theorem Ready.load
    (ready : Ready env bus before bytes rxData txData)
    (byte : BitVec 8) :
    Ready env
      (bus.tick ((bus.now env).writing addrSpiData (byte.setWidth 32)))
      before bytes rxData byte := by
  have next :=
    ready.selected ((bus.now env).writing addrSpiData (byte.setWidth 32))
  obtain ⟨firmware, rests, ss, rx, -, -⟩ := ready
  refine ⟨firmware.clock (bus.gives_writing _ _), ?_, ?_, ?_, ?_, next⟩ <;>
    rw [spiMaster_writing firmware, SpiMaster.clock_rest rests rfl]
  · exact ⟨rests.ctrl, rests.ready, rests.sck⟩
  · exact ss
  · rw [ss]
    exact rx
  · show (byte.setWidth 32).extractLsb' 0 8 = byte
    rw [BitVec.extractLsb'_setWidth_of_le (by decide),
      BitVec.extractLsb'_eq_self]

/-- A transfer is started. -/
theorem Ready.start
    (ready : Ready env bus before bytes rxData byte)
    (writeData : BitVec 32) :
    Sending env (bus.tick ((bus.now env).writing addrSpiXfer writeData))
      before bytes byte 0 := by
  have next := ready.selected ((bus.now env).writing addrSpiXfer writeData)
  obtain ⟨firmware, rests, ss, -, tx, -⟩ := ready
  refine ⟨firmware.clock (bus.gives_writing _ _), by decide, [], ?_, ?_⟩
  · rw [spiMaster_writing firmware, ← tx]
    exact SpiMaster.sends_start rests ss nofun rfl
  · rw [List.append_nil]
    exact next

/-- The wires in a cycle of a transfer. -/
theorem Sending.selected
    {bits : List (Bool × Bool)}
    (sends : bus.tk1.spiMaster.Sends byte cycle bits)
    (trace :
      Selected before bus.trace (byteBits bytes ++ bits) (cycle % 3 == 2))
    (ports : Tk1.Ports) :
    Selected before (bus.tick ports).trace
      (byteBits bytes ++
        (bits ++
          rising (cycle % 3 == 2) (bus.tk1.spiMaster.wires ports.spiMiso)))
      ((cycle + 1) % 3 == 2) := by
  have ss : (bus.tk1.spiMaster.wires ports.spiMiso).ss = false :=
    sends.transfers.ss
  have sck :
      (bus.tk1.spiMaster.wires ports.spiMiso).sck =
        ((cycle + 1) % 3 == 2) := by
    show bus.tk1.spiMaster.spiCskReg = _
    rw [sends.sck_eq]
    simp only [Bool.beq_eq_decide_eq, decide_eq_decide]
    omega
  have goesOn := trace.concat ss
  rwa [sck, List.append_assoc] at goesOn

/-- A cycle of a transfer. -/
theorem Sending.tick
    (sending : Sending env bus before bytes byte cycle)
    (idles : Idles env bus ports) :
    Sending env (bus.tick ports) before bytes byte (cycle + 1) ∨
      cycle = 23 ∧
      ∃ received txData,
        Ready env (bus.tick ports) before (bytes ++ [(byte, received)])
          received txData := by
  obtain ⟨firmware, more, bits, sends, trace⟩ := sending
  have keeps : (bus.tk1.api ports).spiMaster.KeepsSelected := by
    intro enable
    rw [idles.quiet.enable] at enable
    cases enable
  have next := Sending.selected sends trace ports
  by_cases last : cycle = 23
  · subst last
    right
    obtain ⟨rests, ss, all⟩ := sends.clock_last keeps
    refine ⟨rfl, _, _, firmware.clock idles.gives, rests, ss, rfl, rfl, ?_⟩
    have noEdge (before : Bool) :
        rising before (bus.tk1.spiMaster.wires ports.spiMiso) = [] := by
      rw [rising, SpiMaster.wires, sends.sck_eq,
        show decide (23 % 3 = 1) = false from rfl, Bool.and_false]
      rfl
    rw [noEdge, List.append_nil, all] at next
    rw [byteBits_concat]
    exact next
  · left
    exact ⟨firmware.clock idles.gives, by omega, _,
      sends.clock keeps (by omega), next⟩

/-- A cycle in which no slave is selected. -/
theorem Released.tick
    (released : Released env bus)
    (idles : Idles env bus ports) :
    Released env (bus.tick ports) := by
  obtain ⟨firmware, rests, ss, trace⟩ := released
  have clocked := SpiMaster.clock_rest rests idles.quiet.start
  rw [idles.quiet.enable] at clocked
  refine ⟨firmware.clock idles.gives, ?_, ?_, fun wires member => ?_⟩
  · rw [spiMaster_tick, clocked]
    exact ⟨rests.ctrl, rests.ready, rests.sck⟩
  · rw [spiMaster_tick, clocked]
    exact ss
  · rcases List.mem_append.mp member with old | new
    · exact trace wires old
    · rw [List.eq_of_mem_singleton new]
      exact ss

/-- The slave is selected. -/
theorem Released.enable (released : Released env bus) :
    ∃ before txData,
      (∀ wires ∈ before, wires.ss = true) ∧
      Ready env (bus.tick ((bus.now env).writing addrSpiEn 1)) before [] 0
        txData := by
  obtain ⟨firmware, rests, ss, trace⟩ := released
  refine ⟨bus.trace ++ [bus.tk1.spiMaster.wires _], _,
    fun wires member => ?_, firmware.clock (bus.gives_writing _ _), ?_, ?_, ?_,
    rfl, selected_nil _⟩
  · rcases List.mem_append.mp member with old | new
    · exact trace wires old
    · rw [List.eq_of_mem_singleton new]
      exact ss
  all_goals rw [spiMaster_writing firmware, SpiMaster.clock_rest rests rfl]
  · exact ⟨rests.ctrl, rests.ready, rests.sck⟩
  · rfl
  · rw [ss]
    rfl

/-- The slave is released. -/
theorem Ready.disable
    (ready : Ready env bus before bytes rxData txData) :
    let bus' := bus.tick ((bus.now env).writing addrSpiEn 0)
    env.InFirmware bus'.tk1 ∧
      bus'.tk1.spiMaster.Rests ∧
      bus'.tk1.spiMaster.spiSsReg = true ∧
      Selected before bus'.trace (byteBits bytes) false := by
  have next := ready.selected ((bus.now env).writing addrSpiEn 0)
  obtain ⟨firmware, rests, -, -, -, -⟩ := ready
  refine ⟨firmware.clock (bus.gives_writing _ _), ?_, ?_, next⟩ <;>
    rw [spiMaster_writing firmware, SpiMaster.clock_rest rests rfl]
  · exact ⟨rests.ctrl, rests.ready, rests.sck⟩
  · rfl

/-- What holds as long as nothing is asked of the SPI master. -/
theorem approach_of_tick
    {holds : SpiBus → Prop}
    (accesses : ∀ bus count, holds bus → holds { bus with accesses := count })
    (tick : ∀ bus ports, Idles env bus ports → holds bus →
      holds (bus.tick ports))
    (now : holds bus) :
    holds (bus.approach env) := by
  suffices pauses : ∀ cycles bus, holds bus → holds (pause env cycles bus) from
    accesses _ _ (pauses _ _ now)
  intro cycles
  induction cycles with
  | zero => exact fun _ now => now
  | succ cycles inductionHypothesis =>
      exact fun bus now =>
        inductionHypothesis _ (tick bus _ (idles_noAccess env bus) now)

theorem Ready.approach
    (ready : Ready env bus before bytes rxData txData) :
    Ready env (bus.approach env) before bytes rxData txData :=
  @approach_of_tick env bus
    (fun bus => Ready env bus before bytes rxData txData)
    (fun _ _ now => ⟨now.1, now.2, now.3, now.4, now.5, now.6⟩)
    (fun _ _ idles now => now.tick idles) ready

theorem Released.approach (released : Released env bus) :
    Released env (bus.approach env) :=
  approach_of_tick (fun _ _ now => ⟨now.1, now.2, now.3, now.4⟩)
    (fun _ _ idles now => now.tick idles) released

/-- A byte will have been exchanged after some cycles, or has been. -/
def Underway
    (env : Surroundings)
    (before : List Wires)
    (bytes : List (BitVec 8 × BitVec 8))
    (byte : BitVec 8)
    (cycles : Nat)
    (bus : SpiBus) : Prop :=
  (∃ cycle, 24 ≤ cycle + cycles ∧ Sending env bus before bytes byte cycle) ∨
    ∃ received txData,
      Ready env bus before (bytes ++ [(byte, received)]) received txData

variable {cycles : Nat}

theorem Underway.tick
    (underway : Underway env before bytes byte (cycles + 1) bus)
    (idles : Idles env bus ports) :
    Underway env before bytes byte cycles (bus.tick ports) := by
  rcases underway with ⟨cycle, enough, sending⟩ | ⟨received, txData, ready⟩
  · rcases sending.tick idles with sending' | ⟨-, done⟩
    · exact .inl ⟨cycle + 1, by omega, sending'⟩
    · exact .inr done
  · exact .inr ⟨received, txData, ready.tick idles⟩

theorem Underway.approach
    (underway : Underway env before bytes byte cycles bus) :
    Underway env before bytes byte cycles (bus.approach env) := by
  refine approach_of_tick (fun bus count now => ?_)
    (fun bus ports idles now => ?_) underway
  · rcases now with ⟨cycle, enough, now⟩ | ⟨received, txData, now⟩
    · exact .inl ⟨cycle, enough, now.1, now.2, now.3⟩
    · exact .inr ⟨received, txData, now.1, now.2, now.3, now.4, now.5, now.6⟩
  · rcases now with ⟨cycle, enough, now⟩ | done
    · exact Underway.tick (.inl ⟨cycle, by omega, now⟩) idles
    · exact Underway.tick (.inr done) idles

end SpiBus

end States

section Functions

namespace SpiBus

variable {env : Surroundings} {bus : SpiBus} {polls : Nat}
variable {before : List Wires} {bytes : List (BitVec 8 × BitVec 8)}
variable {rxData txData byte : BitVec 8} {cycles : Nat}

/-- A poll reads the ready register. -/
theorem spiReady_eq (firmware : env.InFirmware (bus.approach env).tk1) :
    bus.spiReady env =
      ((bus.approach env).tk1.spiMaster.spiReadyReg,
        (bus.approach env).tick
          (((bus.approach env).now env).reading addrSpiXfer)) := by
  rw [spiReady, read,
    Tk1.readData_spiXfer _ ((bus.approach env).now env)
      (firmware.appMode (bus.approach env).gives_noAccess)]
  cases (bus.approach env).tk1.spiMaster.spiReadyReg <;> rfl

/-- Polling ends at once when no byte is being exchanged. -/
theorem awaitReady_ready
    (ready : Ready env bus before bytes rxData txData)
    (positive : 0 < polls) :
    ∃ bus',
      bus.awaitReady env polls = some bus' ∧
      Ready env bus' before bytes rxData txData := by
  obtain ⟨polls, rfl⟩ := Nat.exists_eq_add_of_lt positive
  have there := ready.approach
  refine ⟨_, ?_, there.tick (idles_reading env _ addrSpiXfer)⟩
  rw [Nat.zero_add, awaitReady, spiReady_eq there.firmware, there.rests.ready]
  rfl

/-- Polling ends after the byte has been exchanged. -/
theorem awaitReady_underway
    (underway : Underway env before bytes byte cycles bus)
    (enough : cycles < polls) :
    ∃ bus' received txData,
      bus.awaitReady env polls = some bus' ∧
      Ready env bus' before (bytes ++ [(byte, received)]) received txData := by
  induction polls generalizing cycles bus with
  | zero => omega
  | succ polls inductionHypothesis =>
      rcases underway.approach with
        ⟨cycle, ended, sending⟩ | ⟨received, txData, ready⟩
      · have more := sending.more
        obtain ⟨bits, sends, -⟩ := sending.sends
        obtain ⟨cycles, rfl⟩ := Nat.exists_eq_add_of_lt
          (show 0 < cycles by omega)
        have next : Underway env before bytes byte cycles _ :=
          Underway.tick (.inl ⟨cycle, by omega, sending⟩)
            (idles_reading env (bus.approach env) addrSpiXfer)
        obtain ⟨bus', received, txData, result, ready⟩ :=
          inductionHypothesis next (by omega)
        refine ⟨bus', received, txData, ?_, ready⟩
        rw [awaitReady, spiReady_eq sending.firmware, sends.transfers.ready]
        exact result
      · refine ⟨_, received, txData, ?_,
          ready.tick (idles_reading env _ addrSpiXfer)⟩
        rw [awaitReady, spiReady_eq ready.firmware, ready.rests.ready]
        rfl

/-- A byte is loaded and its transfer is started. -/
theorem Ready.exchange
    (ready : Ready env bus before bytes rxData txData)
    (byte : BitVec 8) :
    Underway env before bytes byte 24 (bus.exchange env byte) :=
  .inl ⟨0, by decide, (ready.approach.load byte).approach.start 1⟩

/-- Polling leads to a state in which some bytes have been exchanged. -/
def Awaits
    (env : Surroundings)
    (polls : Nat)
    (before : List Wires)
    (bytes : List (BitVec 8 × BitVec 8))
    (rxData : BitVec 8)
    (bus : SpiBus) : Prop :=
  ∃ bus' txData,
    bus.awaitReady env polls = some bus' ∧
    Ready env bus' before bytes rxData txData

theorem Ready.awaits
    (ready : Ready env bus before bytes rxData txData)
    (positive : 0 < polls) :
    Awaits env polls before bytes rxData bus := by
  obtain ⟨bus', result, ready'⟩ := awaitReady_ready ready positive
  exact ⟨bus', txData, result, ready'⟩

theorem Ready.awaits_exchange
    (ready : Ready env bus before bytes rxData txData)
    (enough : 24 < polls)
    (byte : BitVec 8) :
    ∃ received,
      Awaits env polls before (bytes ++ [(byte, received)]) received
        (bus.exchange env byte) := by
  obtain ⟨bus', received, txData, result, ready'⟩ :=
    awaitReady_underway (ready.exchange byte) enough
  exact ⟨received, bus', txData, result, ready'⟩

/-- All bytes are clocked out. -/
theorem spiWrite_exchanges
    (enough : 24 < polls)
    (cmd : List (BitVec 8))
    (awaits : Awaits env polls before bytes rxData bus) :
    ∃ bus' received rxData txData,
      bus.spiWrite env polls cmd = some bus' ∧
      received.length = cmd.length ∧
      Ready env bus' before (bytes ++ cmd.zip received) rxData txData := by
  obtain ⟨bus1, txData, result, ready⟩ := awaits
  induction cmd generalizing bus bus1 bytes rxData txData with
  | nil =>
      refine ⟨bus1, [], rxData, txData, result, rfl, ?_⟩
      rw [List.zip_nil_left, List.append_nil]
      exact ready
  | cons byte cmd inductionHypothesis =>
      obtain ⟨first, bus2, txData2, result2, ready2⟩ :=
        ready.awaits_exchange enough byte
      obtain ⟨bus', received, rxData', txData', written, length, ready'⟩ :=
        inductionHypothesis bus2 txData2 result2 ready2
      refine ⟨bus', first :: received, rxData', txData', ?_,
        congrArg (· + 1) length, ?_⟩
      · rw [spiWrite, result]
        exact written
      · rwa [List.append_assoc] at ready'

/-- All bytes are clocked in, with zeros going out. -/
theorem spiReadLoop_exchanges
    (enough : 24 < polls)
    (size : Nat)
    (ready : Ready env bus before bytes rxData txData) :
    ∃ bus' received rxData txData,
      bus.spiReadLoop env polls size = some (received, bus') ∧
      received.length = size ∧
      Ready env bus' before
        (bytes ++ (List.replicate size 0).zip received) rxData txData := by
  induction size generalizing bus bytes rxData txData with
  | zero =>
      refine ⟨bus, [], rxData, txData, rfl, rfl, ?_⟩
      rw [List.replicate_zero, List.zip_nil_left, List.append_nil]
      exact ready
  | succ size inductionHypothesis =>
      obtain ⟨first, bus1, txData1, result1, ready1⟩ :=
        ready.awaits_exchange enough 0x00
      have there := ready1.approach
      have value :
          ((bus1.read env addrSpiData).1 &&& 0xff).setWidth 8 = first := by
        rw [read, Tk1.readData_spiData _ ((bus1.approach env).now env)
          (there.firmware.appMode (bus1.approach env).gives_noAccess),
          there.rxData, BitVec.setWidth_and,
          BitVec.setWidth_setWidth_of_le _ (by decide), BitVec.setWidth_eq]
        exact BitVec.and_allOnes
      obtain ⟨bus', received, rxData', txData', looped, length, ready'⟩ :=
        inductionHypothesis (there.tick (idles_reading env _ addrSpiData))
      refine ⟨bus', first :: received, rxData', txData', ?_,
        congrArg (· + 1) length, ?_⟩
      · rw [spiReadLoop, result1]
        show
          (spiReadLoop env polls size (bus1.read env addrSpiData).2).bind
              (fun result =>
                some
                  (((bus1.read env addrSpiData).1 &&& 0xff).setWidth 8 ::
                      result.1,
                    result.2)) =
            _
        rw [value,
          show spiReadLoop env polls size (bus1.read env addrSpiData).2 = _ from
            looped]
        rfl
      · rwa [List.append_assoc] at ready'

/-- What a transfer does. -/
structure Transferred
    (cmd tx : List (BitVec 8))
    (rxSize : Nat)
    (result : Int × List (BitVec 8))
    (bus : SpiBus) : Prop where
  returned : result.1 = 0
  size : result.2.length = rxSize
  /--
  The command, the transmit buffer and zeros are clocked out while the slave is
  selected, and what it sends during the zeros is returned.
  -/
  window :
    ∃ ignored,
      ignored.length = cmd.length + tx.length ∧
      Window bus.trace
        (byteBits
          ((cmd ++ tx ++ List.replicate rxSize 0).zip (ignored ++ result.2)))
  rests : bus.tk1.spiMaster.Rests
  ss : bus.tk1.spiMaster.spiSsReg = true

/-- A transfer, with the slave released before. -/
theorem spiTransfer_transferred
    {cmd : List (BitVec 8)}
    (released : Released env bus)
    (enough : 24 < polls)
    (notEmpty : cmd ≠ [])
    (tx : List (BitVec 8))
    (rxSize : Nat) :
    ∃ result bus',
      bus.spiTransfer env polls cmd tx rxSize = some (result, bus') ∧
      Transferred cmd tx rxSize result bus' := by
  have positive : 0 < polls := by omega
  obtain ⟨before, txData, notBefore, ready⟩ := released.approach.enable
  obtain ⟨bus1, ignored1, rxData1, txData1, result1, length1, ready1⟩ :=
    spiWrite_exchanges enough cmd (ready.awaits positive)
  obtain ⟨bus2, ignored2, rxData2, txData2, result2, length2, ready2⟩ :
      ∃ bus2 ignored2 rxData2 txData2,
        (if tx = [] then some bus1 else bus1.spiWrite env polls tx) =
            some bus2 ∧
          ignored2.length = tx.length ∧
          Ready env bus2 before (cmd.zip ignored1 ++ tx.zip ignored2) rxData2
            txData2 := by
    split
    case isTrue empty =>
      subst empty
      refine ⟨bus1, [], rxData1, txData1, rfl, rfl, ?_⟩
      rw [List.zip_nil_left, List.append_nil]
      exact ready1
    case isFalse =>
      exact spiWrite_exchanges enough tx (ready1.awaits positive)
  obtain ⟨bus3, received, rxData3, txData3, result3, length3, ready3⟩ :
      ∃ bus3 received rxData3 txData3,
        (if rxSize = 0 then some ([], bus2) else bus2.spiRead env polls rxSize) =
            some (received, bus3) ∧
          received.length = rxSize ∧
          Ready env bus3 before
            (cmd.zip ignored1 ++ tx.zip ignored2 ++
              (List.replicate rxSize 0).zip received)
            rxData3 txData3 := by
    split
    case isTrue zero =>
      subst zero
      refine ⟨bus2, [], rxData2, txData2, rfl, rfl, ?_⟩
      rw [List.replicate_zero, List.zip_nil_left, List.append_nil]
      exact ready2
    case isFalse =>
      obtain ⟨there, txData', awaited, ready'⟩ := ready2.awaits positive
      obtain ⟨bus3, received, rxData3, txData3, looped, length, ready3⟩ :=
        spiReadLoop_exchanges enough rxSize ready'
      refine ⟨bus3, received, rxData3, txData3, ?_, length, ready3⟩
      rw [spiRead, awaited]
      exact looped
  obtain ⟨-, rests, ss, selected⟩ := ready3.approach.disable
  refine ⟨(0, received), bus3.spiDisable env, ?_, rfl, length3,
    ⟨ignored1 ++ ignored2, ?_, ?_⟩, rests, ss⟩
  · rw [spiTransfer, if_neg notEmpty, spiEnable, write, result1]
    show Option.bind (if tx = [] then some bus1 else _) _ = _
    rw [result2]
    show Option.bind (if rxSize = 0 then some ([], bus2) else _) _ = _
    rw [result3]
    rfl
  · rw [List.length_append, length1, length2]
  · rw [List.append_assoc ignored1, List.append_assoc cmd,
      List.zip_append length1.symm, List.zip_append length2.symm,
      ← List.append_assoc]
    exact selected.window notBefore

end SpiBus

end Functions

section Spi

/--
The SPI master transfers a byte, and so the driver transfers all bytes of a
command.
-/
theorem spi_transfers_bytes :
    (∀ (spi : SpiMaster) (start : SpiMaster.Ports)
        (cycles : List SpiMaster.Ports),
      spi.Rests →
      spi.spiSsReg = false →
      start.spiStart = true →
      (∀ ports ∈ start :: cycles, ports.KeepsSelected) →
      cycles.length = 24 →
      spi.TransfersByte start cycles) ∧
    (∀ (env : Surroundings) (tk1 : Tk1) (polls : Nat)
        (cmd tx : List (BitVec 8)) (rxSize : Nat),
      env.InFirmware tk1 →
      tk1.spiMaster.Rests →
      tk1.spiMaster.spiSsReg = true →
      24 < polls →
      cmd ≠ [] →
      ∃ result bus,
        (SpiBus.start tk1).spiTransfer env polls cmd tx rxSize =
            some (result, bus) ∧
          SpiBus.Transferred cmd tx rxSize result bus) := by
  refine ⟨?_, ?_⟩
  · intro spi start cycles rests selected isStart keeps length
    exact SpiMaster.transfersByte rests selected isStart keeps length
  · intro env tk1 polls cmd tx rxSize firmware rests ss enough notEmpty
    exact SpiBus.spiTransfer_transferred
      ⟨firmware, rests, ss, List.forall_mem_nil _⟩ enough notEmpty tx rxSize

/-- The ports while an app makes a system call, with a high MISO pin. -/
def Surroundings.inSyscall : Surroundings where
  gap access := access
  ports _ :=
    { cpuAddr := 0
      cpuInstr := false
      cpuValid := false
      spiMiso := true
      gpio1 := false
      gpio2 := false
      syscall := true
      cs := false
      we := false
      address := 0
      writeData := 0 }
  udi _ := 0

/-- A byte with other bytes loaded and started meanwhile, and a command. -/
theorem spi_transfers_bytes_sample :
    SpiMaster.TransfersByte
        { SpiMaster.reset with spiSsReg := false, spiTxDataReg := 0xa5 }
        { SpiMaster.Ports.idle true with spiStart := true }
        (List.replicate 24
          { SpiMaster.Ports.idle true with
            spiStart := true
            spiTxData := 0x5a
            spiTxDataVld := true }) ∧
      ∃ result bus,
        (SpiBus.start (Tk1.reset 0)).spiTransfer .inSyscall 25 [0x03, 0, 0, 0]
            [] 16 =
          some (result, bus) ∧
        SpiBus.Transferred [0x03, 0, 0, 0] [] 16 result bus := by
  refine ⟨spi_transfers_bytes.1 _ _ _ ⟨rfl, rfl, rfl⟩ rfl rfl ?_ rfl,
    spi_transfers_bytes.2 _ _ _ _ _ _ (.inl fun _ => rfl) SpiMaster.rests_reset
      rfl (by decide) (by decide)⟩
  intro ports member
  rcases List.mem_cons.mp member with rfl | held
  · nofun
  · rw [List.eq_of_mem_replicate held]
    nofun

end Spi

end TKey.Fpga
