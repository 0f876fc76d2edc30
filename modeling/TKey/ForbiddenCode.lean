import TKey.Lib.Handshake
import TKey.Lib.Register
import TKey.MemoryMap
import TKey.UdsReadOnce
import TKey.WholeFpga

namespace TKey.Fpga

open HandshakePort

/-!
# Forbidden code is never executed

The fetch of an instruction that the security monitor forbids is answered with
zero, although the monitor only traps at the end of the cycle in which the fetch
starts: the memories with code need a cycle to answer.
-/

variable {bram : BlockRam} {spram : Spram}

section Bus

/-- The access of the CPU in a cycle. -/
def Pins.request (pins : Pins) : Option Access :=
  if pins.cpuValid then some pins.access else none

/-- The bus of the whole design, as the CPU sees it. -/
def wholeBus (bram : BlockRam) (spram : Spram) (bits : WholeBitstream) :
    HandshakePort (WholeFpga bram spram) Pins Access (BitVec 32) where
  clock := WholeFpga.clock bits
  request := Pins.request
  ready whole := whole.bus.muxedReadyReg
  response whole := whole.bus.muxedRdataReg
  answers_open whole pins ready :=
    whole.bus.answers_open bits.toBitstream (whole.cycle bits pins) ready

end Bus

section Fetch

/-- An access to the region of a core. -/
def Access.InRegion (access : Access) (core : CoreSelect) : Prop :=
  ∃ region ∈ memoryMap,
    region.core = core ∧ region.Contains access.cpuAddr

/-- The fetch of an instruction that must not be executed. -/
inductive ForbiddenFetch (tk1 : Tk1) (pins : Pins) : Prop where
  /-- From ROM, in app mode. -/
  | rom
      (instr : pins.access.cpuInstr = true)
      (inRegion : pins.access.InRegion .romCs)
      (appMode : tk1.appMode pins.irq31Eoi = true)
  /-- From `FW_RAM`. -/
  | fwRam
      (instr : pins.access.cpuInstr = true)
      (inRegion : pins.access.InRegion .fwRamCs)
  /-- From the part of app RAM that is monitored. -/
  | monitored
      (instr : pins.access.cpuInstr = true)
      (inRegion : pins.access.InRegion .ramCs)
      (enabled : tk1.cpuMonEnReg = true)
      (above : tk1.cpuMonFirstReg ≤ pins.access.cpuAddr)
      (below : pins.access.cpuAddr ≤ tk1.cpuMonLastReg)

/-- A memory with code. -/
inductive CodeMemory : Selection → Prop where
  | rom : CodeMemory (.other .rom)
  | ram : CodeMemory (.other .ram)
  | fwRam : CodeMemory .fwRam

theorem Access.InRegion.coreSelect
    {access : Access}
    {core : CoreSelect}
    (inRegion : access.InRegion core) :
    (decodeAddr access.cpuAddr).coreSelect = some core := by
  obtain ⟨region, inMap, rfl, contains⟩ := inRegion
  exact (aligned_of_mem region inMap).coreSelect contains

/-- Forbidden code lies in a memory. -/
theorem ForbiddenFetch.codeMemory
    {tk1 : Tk1}
    {pins : Pins}
    (forbidden : ForbiddenFetch tk1 pins) :
    CodeMemory (decodeAddr pins.access.cpuAddr) := by
  have selects {core : CoreSelect} {selection : Selection} :
      selection.coreSelect = some core →
        core = .romCs ∨ core = .fwRamCs ∨ core = .ramCs →
          CodeMemory selection := by
    rcases selection with ⟨core⟩ | _ | _ | _ | _ | _
    · cases core <;> rintro ⟨⟩ memory
      · exact .rom
      · exact .ram
      all_goals simp at memory
    all_goals rintro ⟨⟩ memory
    · simp at memory
    · exact .fwRam
    all_goals simp at memory
  cases forbidden with
  | rom instr inRegion =>
      exact selects inRegion.coreSelect (.inl rfl)
  | fwRam instr inRegion =>
      exact selects inRegion.coreSelect (.inr (.inl rfl))
  | monitored instr inRegion =>
      exact selects inRegion.coreSelect (.inr (.inr rfl))

/-- The bounds of a region are those of the memory map. -/
theorem Access.InRegion.contains
    {access : Access}
    {region : Region}
    (inMap : region ∈ memoryMap)
    (inRegion : access.InRegion region.core) :
    region.Contains access.cpuAddr := by
  obtain ⟨region', inMap', same, contains⟩ := inRegion
  rw [← eq_of_core_eq region' inMap' region inMap same]
  exact contains

/-- The security monitor notices the fetch. -/
theorem ForbiddenFetch.securityMonitor
    {whole : WholeFpga bram spram}
    {pins : Pins}
    (forbidden : ForbiddenFetch whole.bus.tk1 pins)
    (valid : pins.cpuValid = true)
    (bits : WholeBitstream) :
    whole.bus.tk1.securityMonitor
      (whole.bus.tk1Ports (whole.cycle bits pins)) = true := by
  have ports :
      (whole.bus.tk1Ports (whole.cycle bits pins)).cpuAddr =
          pins.access.cpuAddr ∧
        (whole.bus.tk1Ports (whole.cycle bits pins)).cpuInstr =
          pins.access.cpuInstr ∧
        (whole.bus.tk1Ports (whole.cycle bits pins)).cpuValid =
          pins.cpuValid ∧
        (whole.bus.tk1Ports (whole.cycle bits pins)).syscall =
          pins.irq31Eoi :=
    ⟨rfl, rfl, rfl, rfl⟩
  obtain ⟨addr, isInstr, isValid, syscall⟩ := ports
  rw [Tk1.securityMonitor, addr, isInstr, isValid, syscall, valid]
  cases forbidden with
  | rom instr inRegion appMode =>
      have bounds :=
        @Access.InRegion.contains _ ⟨.romCs, 0x00000000, 0x2000⟩ (by decide)
          inRegion
      have below : pins.access.cpuAddr ≤ fwRomLast := by
        have last : fwRomLast.toNat = 0x1fff := rfl
        rw [BitVec.le_def, last]
        exact Nat.le_of_lt_succ bounds.2
      simp [instr, appMode, below]
  | fwRam instr inRegion =>
      have bounds :=
        @Access.InRegion.contains _ ⟨.fwRamCs, 0xd0000000, 0x1000⟩ (by decide)
          inRegion
      have above : fwRamFirst ≤ pins.access.cpuAddr := by
        rw [BitVec.le_def]
        exact bounds.1
      have below : pins.access.cpuAddr ≤ fwRamLast := by
        have last : fwRamLast.toNat = 0xd0000fff := rfl
        rw [BitVec.le_def, last]
        exact Nat.le_of_lt_succ bounds.2
      simp [instr, above, below]
  | monitored instr inRegion enabled above below =>
      simp [instr, enabled, above, below]

end Fetch

section Step

/-- No access is open: nothing is ready. -/
structure WholeFpga.Rested (whole : WholeFpga bram spram) : Prop where
  bus : whole.bus.muxedReadyReg = false
  rom : whole.rom.readyReg = false
  ram : whole.ram.readyReg = false
  fwRam : whole.bus.fwRam.readyReg = false

/-- The security monitor has trapped the CPU. -/
def WholeFpga.Trapped (whole : WholeFpga bram spram) : Prop :=
  whole.bus.tk1.forceTrapReg = true

theorem rested_reset
    (bits : WholeBitstream)
    (whole : WholeFpga bram spram) :
    (whole.reset bits).Rested :=
  ⟨rfl, rfl, rfl, rfl⟩

/-- What is selected does not depend on the answers of the cores. -/
theorem WholeFpga.selected_cycle
    (bits : WholeBitstream)
    (whole : WholeFpga bram spram)
    (pins : Pins) :
    whole.bus.selected (whole.cycle bits pins) = whole.selected pins :=
  rfl

theorem WholeFpga.selected_eq
    (whole : WholeFpga bram spram)
    (pins : Pins) :
    whole.selected pins =
      if pins.cpuValid && !whole.bus.muxedReadyReg then
        if whole.bus.tk1.forceTrapReg then
          some .zero
        else
          some (decodeAddr pins.access.cpuAddr)
      else
        none :=
  rfl

/-- Nothing is selected for an access that was answered. -/
theorem WholeFpga.selected_eq_none
    {whole : WholeFpga bram spram}
    {pins : Pins}
    (answered :
      pins.request = none ∨ whole.bus.muxedReadyReg = true) :
    whole.selected pins = none := by
  have closed : (pins.cpuValid && !whole.bus.muxedReadyReg) = false := by
    rcases answered with none | ready
    · cases valid : pins.cpuValid with
      | false => rfl
      | true =>
          rw [Pins.request, valid] at none
          cases none
    · rw [ready]
      exact Bool.and_false _
  rw [WholeFpga.selected_eq, closed]
  rfl

/-- After a cycle in which nothing is selected nothing is ready. -/
theorem rested_clock
    (bits : WholeBitstream)
    {whole : WholeFpga bram spram}
    {pins : Pins}
    (answered :
      pins.request = none ∨ whole.bus.muxedReadyReg = true) :
    (whole.clock bits pins).Rested := by
  have none := WholeFpga.selected_eq_none answered
  have cs (core : OtherCore) : whole.cs pins core = false := by
    rw [WholeFpga.cs, none]
    rfl
  refine ⟨?_, cs .rom, cs .ram, ?_⟩
  · show (whole.bus.muxedNew bits.toBitstream (whole.cycle bits pins)).ready =
      false
    rw [ApplicationFpga.muxedNew, WholeFpga.selected_cycle, none]
  · show (whole.bus.selected (whole.cycle bits pins) == some .fwRam) = false
    rw [WholeFpga.selected_cycle, none]
    rfl

/-- The trap latch is set by the monitor. -/
theorem forceTrapReg_clock
    (bits : WholeBitstream)
    (whole : WholeFpga bram spram)
    (pins : Pins) :
    (whole.clock bits pins).bus.tk1.forceTrapReg =
      (whole.bus.tk1.securityMonitor
          (whole.bus.tk1Ports (whole.cycle bits pins)) ||
        whole.bus.tk1.forceTrapReg) :=
  rfl

/-- It stays set. -/
theorem trapped_clock
    (bits : WholeBitstream)
    {whole : WholeFpga bram spram}
    (pins : Pins)
    (trapped : whole.Trapped) :
    (whole.clock bits pins).Trapped := by
  rw [WholeFpga.Trapped, forceTrapReg_clock, trapped, Bool.or_true]

theorem trapped_run
    (bits : WholeBitstream)
    {whole : WholeFpga bram spram}
    (cycles : List Pins)
    (trapped : whole.Trapped) :
    (whole.run bits cycles).Trapped := by
  induction cycles generalizing whole with
  | nil => exact trapped
  | cons pins cycles inductionHypothesis =>
      exact inductionHypothesis (trapped_clock bits pins trapped)

/-- Once trapped no core is selected. -/
theorem selected_of_trapped
    {whole : WholeFpga bram spram}
    (pins : Pins)
    (trapped : whole.Trapped) :
    whole.selected pins = none ∨ whole.selected pins = some .zero := by
  rw [WholeFpga.selected, ApplicationFpga.selected, trapped]
  split
  · exact .inr rfl
  · exact .inl rfl

/-- Once trapped an open access is answered with zero. -/
theorem zero_of_trapped
    (bits : WholeBitstream)
    {whole : WholeFpga bram spram}
    {pins : Pins}
    (trapped : whole.Trapped)
    (notReady : whole.bus.muxedReadyReg = false)
    (valid : pins.cpuValid = true) :
    (whole.clock bits pins).bus.muxedReadyReg = true ∧
      (whole.clock bits pins).bus.muxedRdataReg = 0 := by
  have zero : whole.selected pins = some .zero := by
    rw [WholeFpga.selected_eq, valid, notReady, trapped]
    rfl
  constructor
  · show (whole.bus.muxedNew bits.toBitstream (whole.cycle bits pins)).ready =
      true
    rw [ApplicationFpga.muxedNew, WholeFpga.selected_cycle, zero]
  · show (whole.bus.muxedNew bits.toBitstream
      (whole.cycle bits pins)).readData = 0
    rw [ApplicationFpga.muxedNew, WholeFpga.selected_cycle, zero]

/-- A memory with code needs a cycle to answer. -/
theorem notReady_of_codeMemory
    (bits : WholeBitstream)
    {whole : WholeFpga bram spram}
    {pins : Pins}
    (rested : whole.Rested)
    (notTrapped : ¬ whole.Trapped)
    (valid : pins.cpuValid = true)
    (memory : CodeMemory (decodeAddr pins.access.cpuAddr)) :
    (whole.clock bits pins).bus.muxedReadyReg = false := by
  have latch : whole.bus.tk1.forceTrapReg = false :=
    (Bool.not_eq_true _).mp notTrapped
  have decoded :
      whole.selected pins = some (decodeAddr pins.access.cpuAddr) := by
    rw [WholeFpga.selected_eq, valid, rested.bus, latch]
    rfl
  show (whole.bus.muxedNew bits.toBitstream (whole.cycle bits pins)).ready =
    false
  rw [ApplicationFpga.muxedNew, WholeFpga.selected_cycle, decoded]
  generalize decodeAddr pins.access.cpuAddr = core at memory
  cases memory with
  | rom => exact rested.rom
  | ram => exact rested.ram
  | fwRam => exact rested.fwRam

end Step

section Runs

variable {bits : WholeBitstream}

theorem Pins.request_of_valid
    {pins : Pins}
    (valid : pins.cpuValid = true) :
    pins.request = some pins.access := by
  rw [Pins.request, valid]
  rfl

/-- A request is that of a valid access. -/
theorem Pins.valid_of_request
    {pins : Pins}
    {access : Access}
    (requested : pins.request = some access) :
    pins.cpuValid = true ∧ pins.access = access := by
  unfold Pins.request at requested
  split at requested
  · next valid =>
      exact ⟨valid, Option.some.inj requested⟩
  · cases requested

/-- The first response that is taken is zero, and it does not take long. -/
structure AnsweredWithZero
    (bits : WholeBitstream)
    (whole : WholeFpga bram spram)
    (start : Pins)
    (after : List Pins)
    (wait : Nat) : Prop where
  zero :
    ∀ first,
      ((wholeBus bram spram bits).deliveries whole
        (start :: after)).head? = some first →
      first = (start.access, 0)
  answered :
    wait ≤ after.length →
    ((wholeBus bram spram bits).deliveries whole
      (start :: after)).head? = some (start.access, 0)

/-- Once trapped the answer comes in the next cycle. -/
theorem answeredWithZero_of_trapped
    {whole : WholeFpga bram spram}
    {start : Pins}
    {after : List Pins}
    (trapped : whole.Trapped)
    (notReady : whole.bus.muxedReadyReg = false)
    (valid : start.cpuValid = true)
    (held : (wholeBus bram spram bits).Held whole (start :: after)) :
    AnsweredWithZero bits whole start after 1 := by
  have requested := Pins.request_of_valid valid
  have first :=
    @deliveries_of_not_ready _ _ _ _ (wholeBus bram spram bits) whole after
      start notReady
  obtain ⟨ready, zero⟩ := zero_of_trapped bits trapped notReady valid
  cases after with
  | nil =>
      refine ⟨fun entry taken => ?_, fun short => absurd short (by decide)⟩
      rw [first] at taken
      cases taken
  | cons next after =>
      have same : next.request = some start.access :=
        (held.1 notReady (Option.isSome_iff_exists.mpr ⟨_, requested⟩)).trans
          requested
      have taken :
          ((wholeBus bram spram bits).deliveries whole
            (start :: next :: after)).head? = some (start.access, 0) := by
        have taken :=
          @deliveries_of_ready _ _ _ _ (wholeBus bram spram bits)
            (whole.clock bits start) after next _ ready same
        rw [first]
        refine (congrArg List.head? taken).trans ?_
        rw [List.head?_cons, ← zero]
        rfl
      refine ⟨fun entry isFirst => ?_, fun _ => taken⟩
      rw [taken] at isFirst
      exact (Option.some.inj isFirst).symm

/-- A forbidden fetch is answered with zero, two cycles later at the latest. -/
theorem answeredWithZero_of_forbidden
    {whole : WholeFpga bram spram}
    {start : Pins}
    {after : List Pins}
    (rested : whole.Rested)
    (valid : start.cpuValid = true)
    (forbidden : ForbiddenFetch whole.bus.tk1 start)
    (held : (wholeBus bram spram bits).Held whole (start :: after)) :
    AnsweredWithZero bits whole start after 2 := by
  by_cases trapped : whole.Trapped
  · have answered :=
      answeredWithZero_of_trapped trapped rested.bus valid held
    exact ⟨answered.zero, fun enough =>
      answered.answered (Nat.le_of_succ_le enough)⟩
  -- the monitor traps while the memory is not ready yet
  have traps : (whole.clock bits start).Trapped := by
    rw [WholeFpga.Trapped, forceTrapReg_clock,
      forbidden.securityMonitor valid bits]
    rfl
  have notReady :=
    notReady_of_codeMemory bits rested trapped valid forbidden.codeMemory
  have first :=
    @deliveries_of_not_ready _ _ _ _ (wholeBus bram spram bits) whole after
      start rested.bus
  cases after with
  | nil =>
      refine ⟨fun entry taken => ?_, fun short => absurd short (by decide)⟩
      rw [first] at taken
      cases taken
  | cons next after =>
      have requested := Pins.request_of_valid valid
      have same : next.request = some start.access :=
        (held.1 rested.bus
          (Option.isSome_iff_exists.mpr ⟨_, requested⟩)).trans requested
      obtain ⟨validNext, sameAccess⟩ := Pins.valid_of_request same
      have answered :=
        answeredWithZero_of_trapped traps notReady validNext held.2
      have zero := answered.zero
      have later := answered.answered
      rw [sameAccess] at zero later
      refine ⟨?_, fun enough => ?_⟩
      · rw [first]
        exact zero
      · rw [first]
        exact later (Nat.le_of_succ_le_succ enough)

/-- What holds in every run after a reset. -/
structure ForbiddenNeverRuns
    (bits : WholeBitstream)
    (whole : WholeFpga bram spram) : Prop where
  /--
  The CPU starts a forbidden fetch after all accesses before it were answered,
  and holds it: it takes a zero, after two cycles at the latest.
  -/
  fetch :
    ∀ before start after,
      (wholeBus bram spram bits).Settled (whole.reset bits) before →
      (wholeBus bram spram bits).Held
        ((whole.reset bits).run bits before) (start :: after) →
      start.cpuValid = true →
      ForbiddenFetch ((whole.reset bits).run bits before).bus.tk1 start →
      AnsweredWithZero bits ((whole.reset bits).run bits before) start after 2
  /-- Once trapped it stays trapped, and no core is selected any more. -/
  trapped :
    ∀ before after,
      ((whole.reset bits).run bits before).Trapped →
      Register.Throughout (WholeFpga.clock bits)
        (fun whole pins =>
          whole.Trapped ∧
            (whole.selected pins = none ∨ whole.selected pins = some .zero))
        ((whole.reset bits).run bits before) after

/-- Forbidden code is never executed, whatever the CPU and the pins do. -/
theorem forbidden_never_runs
    (bits : WholeBitstream)
    (whole : WholeFpga bram spram) :
    ForbiddenNeverRuns bits whole where
  fetch _ _ _ settled held valid forbidden :=
    answeredWithZero_of_forbidden
      (settled.rests (fun _ _ => rested_clock bits)
        (rested_reset bits whole))
      valid forbidden held
  trapped _ after trapped :=
    (Register.throughout_of_lasting (fun _ => trapped_clock bits) trapped
      after).imp fun _ pins stays => ⟨stays, selected_of_trapped pins stays⟩

/-- After a reset a fetch from `FW_RAM` is forbidden. -/
example (bits : WholeBitstream) :
    ForbiddenFetch (WholeFpga.blank.reset bits).bus.tk1
      (.of (.fetch 0xd0000000)) :=
  .fwRam rfl
    ⟨⟨.fwRamCs, 0xd0000000, 0x1000⟩, by decide, rfl, by decide, by decide⟩

end Runs

end TKey.Fpga
