import TKey.ForbiddenCode

namespace TKey.Fpga

/-!
# Flagged accesses

An access outside the memory map is flagged at the end of its first cycle.  In
that cycle its core is selected already, and acts on the address without the
bits that it does not get.  After that nothing is selected any more.
-/

variable {bram : BlockRam} {spram : Spram}

section Cores

/-- The registers of TK1 apart from the trap latch. -/
def Tk1.untrapped (tk1 : Tk1) : Tk1 :=
  { tk1 with forceTrapReg := false }

/-- Two designs agree on what a core holds, apart from the trap latch. -/
def SameCore (left right : WholeFpga bram spram) : Selection → Prop
  | .other .rom => left.rom = right.rom
  | .other .ram =>
      left.ram.stored = right.ram.stored ∧
        left.ram.readyReg = right.ram.readyReg
  | .other .trng => left.trng = right.trng
  | .other .timer => left.timer = right.timer
  | .other .uart => left.uart = right.uart
  | .other .touchSense => left.touchSense = right.touchSense
  | .uds => left.bus.uds = right.bus.uds
  | .fwRam =>
      left.bus.fwRam.word = right.bus.fwRam.word ∧
        left.bus.fwRam.readyReg = right.bus.fwRam.readyReg
  | .tk1 => left.bus.tk1.untrapped = right.bus.tk1.untrapped
  | .syscall => True
  | .zero => True

/-- Two designs agree on what all cores hold. -/
def SameCores (left right : WholeFpga bram spram) : Prop :=
  ∀ core, SameCore left right core

theorem SameCores.refl (whole : WholeFpga bram spram) :
    SameCores whole whole := by
  rintro (core | _ | _ | _ | _ | _)
  · cases core
    case ram => exact ⟨rfl, rfl⟩
    all_goals rfl
  · rfl
  · exact ⟨rfl, rfl⟩
  · trivial
  · rfl
  · trivial

/-- The pins agree, but for the address and whether there is an access. -/
structure SamePins (pins pins' : Pins) : Prop where
  cpuInstr : pins.access.cpuInstr = false
  cpuInstr' : pins'.access.cpuInstr = false
  cpuWdata : pins.access.cpuWdata = pins'.access.cpuWdata
  cpuWstrb : pins.access.cpuWstrb = pins'.access.cpuWstrb
  irq31Eoi : pins.irq31Eoi = pins'.irq31Eoi
  spiMiso : pins.spiMiso = pins'.spiMiso
  appGpio1 : pins.appGpio1 = pins'.appGpio1
  appGpio2 : pins.appGpio2 = pins'.appGpio2
  interfaceTx : pins.interfaceTx = pins'.interfaceTx
  interfaceCh552Cts : pins.interfaceCh552Cts = pins'.interfaceCh552Cts
  touchEvent : pins.touchEvent = pins'.touchEvent
  xorF : pins.xorF = pins'.xorF
  xorG : pins.xorG = pins'.xorG

theorem SamePins.quiet
    {pins : Pins}
    (data : pins.access.cpuInstr = false) :
    SamePins pins pins.quiet :=
  ⟨data, data, rfl, rfl, rfl, rfl, rfl, rfl, rfl, rfl, rfl, rfl, rfl⟩

end Cores

section Unselected

/-! A core that is not selected does not see the access. -/

theorem Timer.clock_unselected
    (timer : Timer)
    {ports ports' : CorePorts}
    (unselected : ports.cs = false)
    (unselected' : ports'.cs = false) :
    timer.clock ports = timer.clock ports' := by
  simp only [Timer.clock, CorePorts.writes, unselected, unselected',
    Bool.false_and, Bool.false_eq_true, if_false]

theorem Trng.clock_unselected
    (trng : Trng)
    (xorF xorG : Bool)
    {ports ports' : CorePorts}
    (unselected : ports.cs = false)
    (unselected' : ports'.cs = false) :
    trng.clock xorF xorG ports = trng.clock xorF xorG ports' := by
  simp only [Trng.clock, Trng.bitCtrRst, unselected, unselected',
    Bool.false_and]

theorem TouchSense.clock_unselected
    (touchSense : TouchSense)
    (touchEvent : Bool)
    {ports ports' : CorePorts}
    (unselected : ports.cs = false)
    (unselected' : ports'.cs = false) :
    touchSense.clock touchEvent ports = touchSense.clock touchEvent ports' := by
  simp only [TouchSense.clock, CorePorts.writes, unselected, unselected',
    Bool.false_and]

theorem UartCore.clock_unselected
    (uart : UartCore)
    {ports ports' : UartCore.Ports}
    (unselected : ports.cs = false)
    (unselected' : ports'.cs = false)
    (rxd : ports.rxd = ports'.rxd)
    (ch552Cts : ports.ch552Cts = ports'.ch552Cts) :
    uart.clock ports = uart.clock ports' := by
  simp only [UartCore.clock, UartCore.coreTxd, UartCore.fifoOutAck,
    unselected, unselected', rxd, ch552Cts, Bool.false_and,
    Bool.false_eq_true, if_false]

theorem Uds.clock_unselected
    (uds : Uds)
    {ports : Uds.Ports}
    (unselected : ports.cs = false) :
    uds.clock ports = uds := by
  simp only [Uds.clock, Uds.udsRdWe, unselected, Bool.false_and,
    Bool.false_eq_true, if_false]

theorem Ram.stored_clock_unselected
    (ram : Ram spram)
    {ports : Ram.Ports}
    (unselected : ports.cs = false) :
    (ram.clock ports).stored = ram.stored :=
  (ram.stored_clock ports).trans
    (if_neg (by rw [unselected]; exact Bool.false_ne_true))

theorem FwRam.word_clock_unselected
    (fwRam : FwRam bram)
    {ports : FwRam.Ports}
    (unselected : ports.cs = false) :
    (fwRam.clock ports).word = fwRam.word := by
  have bank (index : BitVec 2) : ports.bank index = false := by
    simp only [FwRam.Ports.bank, FwRam.Ports.appModeCs, unselected,
      Bool.false_and]
  have low (index : BitVec 2) :
      bram.word (bram.clock (fwRam.low index) (ports.lowPorts index)) =
        bram.word (fwRam.low index) := by
    apply bram.word_clock_of_not_we
    simp only [FwRam.Ports.lowPorts, bank, Bool.and_false]
  have high (index : BitVec 2) :
      bram.word (bram.clock (fwRam.high index) (ports.highPorts index)) =
        bram.word (fwRam.high index) := by
    apply bram.word_clock_of_not_we
    simp only [FwRam.Ports.highPorts, bank, Bool.and_false]
  funext address
  simp only [FwRam.word, FwRam.clock, low, high]

/-- TK1 does not see a data access to another core, but for the trap latch. -/
theorem Tk1.clock_unselected
    {tk1 tk1' : Tk1}
    {ports ports' : Tk1.Ports}
    (same : tk1.untrapped = tk1'.untrapped)
    (unselected : ports.cs = false)
    (unselected' : ports'.cs = false)
    (data : ports.cpuInstr = false)
    (data' : ports'.cpuInstr = false)
    (writeData : ports.writeData = ports'.writeData)
    (spiMiso : ports.spiMiso = ports'.spiMiso)
    (gpio1 : ports.gpio1 = ports'.gpio1)
    (gpio2 : ports.gpio2 = ports'.gpio2)
    (syscall : ports.syscall = ports'.syscall) :
    (tk1.clock ports).untrapped = (tk1'.clock ports').untrapped := by
  have latch (tk1 : Tk1) (ports : Tk1.Ports) :
      (tk1.clock ports).untrapped = (tk1.untrapped.clock ports).untrapped :=
    rfl
  rw [latch tk1, latch tk1', same]
  simp only [Tk1.untrapped, Tk1.clock, Tk1.api, Tk1.Ports.writes,
    Tk1.Ports.writesIn, Tk1.Ports.fwStartupDoneSet, Tk1.appMode,
    unselected, unselected', data, data', writeData, spiMiso, gpio1, gpio2,
    syscall, Bool.false_and, Bool.and_false, Bool.false_eq_true, if_false,
    Bool.false_or]
  rfl

end Unselected

section Step

variable {whole left right : WholeFpga bram spram}
variable {pins pins' : Pins}

theorem WholeFpga.cs_of_selected_ne
    {core : OtherCore}
    (unselected : whole.selected pins ≠ some (.other core)) :
    whole.cs pins core = false :=
  beq_false_of_ne unselected

/-- A core that is not selected in either design stays the same. -/
theorem sameCore_clock_unselected
    {core : Selection}
    (bits : WholeBitstream)
    (same : SameCore left right core)
    (samePins : SamePins pins pins')
    (unselected : left.selected pins ≠ some core)
    (unselected' : right.selected pins' ≠ some core) :
    SameCore (left.clock bits pins) (right.clock bits pins') core := by
  rcases core with core | _ | _ | _ | _ | _
  · have cs : left.cs pins core = false :=
      WholeFpga.cs_of_selected_ne unselected
    have cs' : right.cs pins' core = false :=
      WholeFpga.cs_of_selected_ne unselected'
    cases core with
    | rom =>
        exact congrArg Rom.mk (cs.trans cs'.symm)
    | ram =>
        exact
          ⟨(left.ram.stored_clock_unselected cs).trans
              (same.1.trans (right.ram.stored_clock_unselected cs').symm),
            cs.trans cs'.symm⟩
    | trng =>
        have trng : left.trng = right.trng := same
        show left.trng.clock _ _ _ = right.trng.clock _ _ _
        rw [trng, samePins.xorF, samePins.xorG]
        exact Trng.clock_unselected _ _ _ cs cs'
    | timer =>
        have timer : left.timer = right.timer := same
        show left.timer.clock _ = right.timer.clock _
        rw [timer]
        exact Timer.clock_unselected _ cs cs'
    | uart =>
        have uart : left.uart = right.uart := same
        show left.uart.clock _ = right.uart.clock _
        rw [uart]
        exact UartCore.clock_unselected _ cs cs' samePins.interfaceTx
          samePins.interfaceCh552Cts
    | touchSense =>
        have touchSense : left.touchSense = right.touchSense := same
        show left.touchSense.clock _ _ = right.touchSense.clock _ _
        rw [touchSense, samePins.touchEvent]
        exact TouchSense.clock_unselected _ _ cs cs'
  · have uds : left.bus.uds = right.bus.uds := same
    have cs := beq_false_of_ne unselected
    have cs' := beq_false_of_ne unselected'
    show left.bus.uds.clock _ = right.bus.uds.clock _
    rw [Uds.clock_unselected _ cs, Uds.clock_unselected _ cs', uds]
  · have cs := beq_false_of_ne unselected
    have cs' := beq_false_of_ne unselected'
    exact
      ⟨(left.bus.fwRam.word_clock_unselected cs).trans
          (same.1.trans (right.bus.fwRam.word_clock_unselected cs').symm),
        cs.trans cs'.symm⟩
  · trivial
  · exact Tk1.clock_unselected same (beq_false_of_ne unselected)
      (beq_false_of_ne unselected') samePins.cpuInstr samePins.cpuInstr'
      samePins.cpuWdata samePins.spiMiso samePins.appGpio1 samePins.appGpio2
      samePins.irq31Eoi
  · trivial

/-- Two addresses of a core that it cannot tell apart. -/
structure SameLocalAddress (cpuAddr cpuAddr' : BitVec 32) : Prop where
  decoded : decodeAddr cpuAddr = decodeAddr cpuAddr'
  localAddress :
    ∀ core,
      (decodeAddr cpuAddr).coreSelect = some core →
      core.localAddress cpuAddr = core.localAddress cpuAddr'

/-- The bits of the address that the core gets. -/
theorem SameLocalAddress.extract
    {cpuAddr cpuAddr' : BitVec 32}
    (same : SameLocalAddress cpuAddr cpuAddr')
    {core : CoreSelect}
    (selects : (decodeAddr cpuAddr).coreSelect = some core) :
    cpuAddr.extractLsb' 2 core.addressWidth =
      cpuAddr'.extractLsb' 2 core.addressWidth :=
  BitVec.eq_of_toNat_eq (same.localAddress core selects)

/-- The same access to another address. -/
def Pins.at (pins : Pins) (cpuAddr : BitVec 32) : Pins :=
  { pins with access := { pins.access with cpuAddr := cpuAddr } }

theorem SamePins.at
    (data : pins.access.cpuInstr = false)
    (cpuAddr : BitVec 32) :
    SamePins pins (pins.at cpuAddr) :=
  ⟨data, data, rfl, rfl, rfl, rfl, rfl, rfl, rfl, rfl, rfl, rfl, rfl⟩

/-- The same core is selected. -/
theorem SameLocalAddress.selected
    {cpuAddr : BitVec 32}
    (same : SameLocalAddress pins.access.cpuAddr cpuAddr)
    (whole : WholeFpga bram spram) :
    whole.selected (pins.at cpuAddr) = whole.selected pins := by
  rw [WholeFpga.selected_eq, WholeFpga.selected_eq, same.decoded]
  rfl

/-- What is selected is the core of the address, or answers zero. -/
theorem WholeFpga.eq_decodeAddr
    {core : Selection}
    (selected : whole.selected pins = some core) :
    core = .zero ∨ core = decodeAddr pins.access.cpuAddr := by
  rw [WholeFpga.selected_eq] at selected
  split at selected
  · split at selected
    · exact .inl (Option.some.inj selected).symm
    · exact .inr (Option.some.inj selected).symm
  · cases selected

/-- TK1 only gets the address of a data access from the bus. -/
theorem Tk1.clock_cpuAddr
    (tk1 : Tk1)
    {ports : Tk1.Ports}
    (data : ports.cpuInstr = false)
    (cpuAddr : BitVec 32) :
    (tk1.clock { ports with cpuAddr := cpuAddr }).untrapped =
      (tk1.clock ports).untrapped := by
  have set (cpuAddr : BitVec 32) :
      Tk1.Ports.fwStartupDoneSet { ports with cpuAddr := cpuAddr } =
        false := by
    simp only [Tk1.Ports.fwStartupDoneSet, data, Bool.and_false,
      Bool.false_and]
  have register (cpuAddr : BitVec 32) :
      (tk1.clock { ports with cpuAddr := cpuAddr }).untrapped =
        { (tk1.clock ports).untrapped with
          fwStartupDoneReg :=
            Tk1.Ports.fwStartupDoneSet { ports with cpuAddr := cpuAddr } ||
              tk1.fwStartupDoneReg } :=
    rfl
  rw [register, set, ← set ports.cpuAddr]
  rfl

/-- The ports of a core with an address of eight bits. -/
theorem Access.corePorts_at
    {cpuAddr : BitVec 32}
    (bits :
      pins.access.cpuAddr.extractLsb' 2 8 = cpuAddr.extractLsb' 2 8)
    (cs : Bool) :
    (pins.at cpuAddr).access.corePorts cs = pins.access.corePorts cs := by
  simp only [Access.corePorts, Pins.at, bits]

/-- An access to the same local address has the same effect on all cores. -/
theorem sameCores_clock_at
    (bits : WholeBitstream)
    (whole : WholeFpga bram spram)
    {cpuAddr : BitVec 32}
    (data : pins.access.cpuInstr = false)
    (same : SameLocalAddress pins.access.cpuAddr cpuAddr) :
    SameCores (whole.clock bits pins)
      (whole.clock bits (pins.at cpuAddr)) := by
  intro core
  have select := same.selected whole
  by_cases selected : whole.selected pins = some core
  case neg =>
    exact sameCore_clock_unselected bits (SameCores.refl whole core)
      (SamePins.at data cpuAddr) selected (by rw [select]; exact selected)
  have cs (core : OtherCore) :
      whole.cs (pins.at cpuAddr) core = whole.cs pins core := by
    rw [WholeFpga.cs, WholeFpga.cs, select]
  have extract {selectsCore : CoreSelect} :=
    @SameLocalAddress.extract _ _ same selectsCore
  rcases WholeFpga.eq_decodeAddr selected with rfl | decoded
  · trivial
  rw [← decoded] at extract
  rcases core with core | _ | _ | _ | _ | _
  · cases core with
    | rom =>
        exact congrArg Rom.mk (cs .rom).symm
    | ram =>
        have ports (cs : Bool) :
            (pins.at cpuAddr).access.ramPorts whole.bus.tk1 cs =
              pins.access.ramPorts whole.bus.tk1 cs := by
          have address := @extract .ramCs rfl
          simp only [CoreSelect.addressWidth] at address
          simp only [Access.ramPorts, Pins.at, address]
        show (whole.ram.clock _).stored = (whole.ram.clock _).stored ∧
          (whole.ram.clock _).readyReg = (whole.ram.clock _).readyReg
        rw [cs, ports]
        exact ⟨rfl, rfl⟩
    | trng =>
        show whole.trng.clock _ _ _ = whole.trng.clock _ _ _
        rw [cs, Access.corePorts_at (@extract .trngCs rfl)]
        rfl
    | timer =>
        show whole.timer.clock _ = whole.timer.clock _
        rw [cs, Access.corePorts_at (@extract .timerCs rfl)]
    | uart =>
        have ports (cs : Bool) :
            (pins.at cpuAddr).uartPorts cs = pins.uartPorts cs := by
          have address := @extract .uartCs rfl
          simp only [CoreSelect.addressWidth] at address
          simp only [Pins.uartPorts, Pins.at, address]
        show whole.uart.clock _ = whole.uart.clock _
        rw [cs, ports]
    | touchSense =>
        show whole.touchSense.clock _ _ = whole.touchSense.clock _ _
        rw [cs, Access.corePorts_at (@extract .touchSenseCs rfl)]
        rfl
  · have ports :
        whole.bus.udsPorts (whole.cycle bits (pins.at cpuAddr)) =
          whole.bus.udsPorts (whole.cycle bits pins) := by
      have address := @extract .udsCs rfl
      simp only [CoreSelect.addressWidth] at address
      simp only [ApplicationFpga.udsPorts, WholeFpga.selected_cycle, select]
      simp only [WholeFpga.cycle, Pins.cycle, Pins.at, address]
    show whole.bus.uds.clock _ = whole.bus.uds.clock _
    rw [ports]
  · have ports :
        whole.bus.fwRamPorts (whole.cycle bits (pins.at cpuAddr)) =
          whole.bus.fwRamPorts (whole.cycle bits pins) := by
      have address := @extract .fwRamCs rfl
      simp only [CoreSelect.addressWidth] at address
      simp only [ApplicationFpga.fwRamPorts, WholeFpga.selected_cycle, select]
      simp only [WholeFpga.cycle, Pins.cycle, Pins.at, address,
        ApplicationFpga.appMode]
    show (whole.bus.fwRam.clock _).word = (whole.bus.fwRam.clock _).word ∧
      (whole.bus.fwRam.clock _).readyReg = (whole.bus.fwRam.clock _).readyReg
    rw [ports]
    exact ⟨rfl, rfl⟩
  · trivial
  · have ports :
        whole.bus.tk1Ports (whole.cycle bits (pins.at cpuAddr)) =
          { whole.bus.tk1Ports (whole.cycle bits pins) with
            cpuAddr := cpuAddr } := by
      have address := @extract .tk1Cs rfl
      simp only [CoreSelect.addressWidth] at address
      simp only [ApplicationFpga.tk1Ports, WholeFpga.selected_cycle, select]
      simp only [WholeFpga.cycle, Pins.cycle, Pins.at, address]
    have instr :
        (whole.bus.tk1Ports (whole.cycle bits pins)).cpuInstr = false :=
      data
    show (whole.bus.tk1.clock _).untrapped = (whole.bus.tk1.clock _).untrapped
    rw [ports]
    exact (Tk1.clock_cpuAddr _ instr cpuAddr).symm
  · trivial

end Step

section Effect

variable {whole left right : WholeFpga bram spram}

/-- A data access outside the memory map is made in some cycles. -/
structure FlaggedAccess (access : Access) (cycles : List Pins) : Prop where
  data : access.cpuInstr = false
  outside : Tk1.outsideMemory access.cpuAddr = true
  made : ∀ pins ∈ cycles, pins.cpuValid = true ∧ pins.access = access

/-- The cycles change no core: without the access all cores hold the same. -/
def Unaffected
    (bits : WholeBitstream)
    (whole : WholeFpga bram spram)
    (cycles : List Pins) : Prop :=
  SameCores (whole.run bits cycles) (whole.run bits (cycles.map Pins.quiet))

/-- Without an access nothing is selected. -/
theorem WholeFpga.selected_quiet (pins : Pins) :
    whole.selected pins.quiet = none :=
  rfl

/-- Once trapped, cycles with a data access are like cycles without one. -/
theorem sameCore_run_trapped
    {core : Selection}
    {cycles : List Pins}
    (bits : WholeBitstream)
    (trapped : left.Trapped)
    (same : SameCore left right core)
    (data : ∀ pins ∈ cycles, pins.access.cpuInstr = false) :
    SameCore (left.run bits cycles)
      (right.run bits (cycles.map Pins.quiet)) core := by
  induction cycles generalizing left right with
  | nil =>
      exact same
  | cons pins cycles inductionHypothesis =>
      refine inductionHypothesis (trapped_clock bits pins trapped) ?_
        fun later member => data later (List.mem_cons_of_mem _ member)
      by_cases zero : core = .zero
      · subst zero
        trivial
      · refine sameCore_clock_unselected bits same
          (.quiet (data pins List.mem_cons_self)) ?_ ?_
        · rcases selected_of_trapped pins trapped with none | isZero
          · rw [none]
            exact nofun
          · rw [isZero]
            exact fun equal => zero (Option.some.inj equal).symm
        · rw [WholeFpga.selected_quiet]
          exact nofun

/-- The flag is registered at the end of the first cycle. -/
theorem trapped_of_flagged
    (bits : WholeBitstream)
    (whole : WholeFpga bram spram)
    {pins : Pins}
    (valid : pins.cpuValid = true)
    (outside : Tk1.outsideMemory pins.access.cpuAddr = true) :
    (whole.clock bits pins).Trapped := by
  have flagged :
      whole.bus.tk1.securityMonitor
        (whole.bus.tk1Ports (whole.cycle bits pins)) = true := by
    show (pins.cpuValid &&
      (Tk1.outsideMemory pins.access.cpuAddr || _)) = true
    rw [valid, outside]
    rfl
  rw [WholeFpga.Trapped, forceTrapReg_clock, flagged]
  rfl

/--
What a flagged access does at most: the core that its address belongs to acts
on it, in the first cycle.
-/
structure ActsOnce
    (bits : WholeBitstream)
    (whole : WholeFpga bram spram)
    (start : Pins)
    (held : List Pins) : Prop where
  /-- All other cores are as without the access. -/
  others :
    ∀ core, core ≠ decodeAddr start.access.cpuAddr →
      SameCore (whole.run bits (start :: held))
        (whole.run bits ((start :: held).map Pins.quiet)) core
  /-- Only the first cycle counts. -/
  once :
    SameCores (whole.run bits (start :: held))
      (whole.run bits (start :: held.map Pins.quiet))
  /-- Bits of the address that the core does not get make no difference. -/
  truncated :
    ∀ cpuAddr, SameLocalAddress start.access.cpuAddr cpuAddr →
      SameCores (whole.run bits (start :: held))
        (whole.run bits (start.at cpuAddr :: held.map Pins.quiet))
  /-- No core changes at all when nothing was selected in the first cycle. -/
  unselected :
    whole.selected start = none ∨ whole.selected start = some .zero →
      Unaffected bits whole (start :: held)
  /-- The CPU is trapped. -/
  trapped : (whole.run bits (start :: held)).Trapped

/-- A flagged access acts at most once, on one core, and traps the CPU. -/
theorem flagged_acts_once
    {access : Access}
    {start : Pins}
    {held : List Pins}
    (bits : WholeBitstream)
    (whole : WholeFpga bram spram)
    (flagged : FlaggedAccess access (start :: held)) :
    ActsOnce bits whole start held := by
  obtain ⟨valid, made⟩ := flagged.made start List.mem_cons_self
  have data : ∀ pins ∈ start :: held, pins.access.cpuInstr = false := by
    intro pins member
    rw [(flagged.made pins member).2]
    exact flagged.data
  have dataHeld : ∀ pins ∈ held, pins.access.cpuInstr = false :=
    fun pins member => data pins (List.mem_cons_of_mem _ member)
  have instr := data start List.mem_cons_self
  have trapped : (whole.clock bits start).Trapped := by
    apply trapped_of_flagged bits whole valid
    rw [made]
    exact flagged.outside
  -- what holds after the first cycle holds after the others
  have later
      {core : Selection}
      {right : WholeFpga bram spram}
      (same : SameCore (whole.clock bits start) right core) :
      SameCore (whole.run bits (start :: held))
        (right.run bits (held.map Pins.quiet)) core :=
    sameCore_run_trapped bits trapped same dataHeld
  have first
      {core : Selection}
      (unselected : whole.selected start ≠ some core) :
      SameCore (whole.clock bits start) (whole.clock bits start.quiet)
        core :=
    sameCore_clock_unselected bits (SameCores.refl whole core)
      (.quiet instr) unselected (by rw [WholeFpga.selected_quiet]; exact nofun)
  refine ⟨?_, ?_, ?_, ?_, ?_⟩
  · intro core other
    by_cases selected : whole.selected start = some core
    · rcases WholeFpga.eq_decodeAddr selected with rfl | decoded
      · trivial
      · exact absurd decoded other
    · exact later (first selected)
  · exact fun core => later (SameCores.refl _ core)
  · exact fun cpuAddr same core =>
      later (sameCores_clock_at bits whole instr same core)
  · intro nothing core
    by_cases selected : whole.selected start = some core
    · rcases nothing with none | zero
      · rw [none] at selected
        cases selected
      · rw [zero] at selected
        cases selected
        trivial
    · exact later (first selected)
  · exact trapped_run bits held trapped

/-- A load at an alias of the first word of the UDS. -/
def aliasedLoad : List Pins :=
  List.replicate 3 (.of (.load 0xc2000020))

/-- A store at an alias of the first word of app RAM. -/
def aliasedStore : List Pins :=
  List.replicate 3 (.of (.store 0x40020000 1))

/-- A bitstream with an empty ROM. -/
def WholeBitstream.counting : WholeBitstream where
  toBitstream := .counting
  firmware := fun _ => 0

theorem flagged_aliasedLoad :
    FlaggedAccess (.load 0xc2000020) aliasedLoad where
  data := rfl
  outside := by decide
  made pins member := by
    rw [List.eq_of_mem_replicate member]
    exact ⟨rfl, rfl⟩

theorem flagged_aliasedStore :
    FlaggedAccess (.store 0x40020000 1) aliasedStore where
  data := rfl
  outside := by decide
  made pins member := by
    rw [List.eq_of_mem_replicate member]
    exact ⟨rfl, rfl⟩

/-- The load acts once, on the UDS. -/
theorem flagged_acts_once_sample :
    ActsOnce .counting WholeFpga.blank (.of (.load 0xc2000020))
      (List.replicate 2 (.of (.load 0xc2000020))) :=
  flagged_acts_once .counting WholeFpga.blank flagged_aliasedLoad

/-- A flagged load marks a word of the UDS as read, a store changes app RAM. -/
theorem flagged_counterexample :
    (FlaggedAccess (.load 0xc2000020) aliasedLoad ∧
      ¬ Unaffected .counting WholeFpga.blank aliasedLoad) ∧
    (FlaggedAccess (.store 0x40020000 1) aliasedStore ∧
      ¬ Unaffected .counting WholeFpga.blank aliasedStore) := by
  refine ⟨⟨flagged_aliasedLoad, fun same => ?_⟩,
    flagged_aliasedStore, fun same => ?_⟩
  · have read := congrFun (congrArg Uds.udsRdReg (same .uds)) 0
    exact absurd read (by decide)
  · have stored := congrFun (same (.other .ram)).1 0
    exact absurd stored (by decide)

end Effect

end TKey.Fpga
