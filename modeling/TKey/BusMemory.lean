import TKey.AppMode
import TKey.FlaggedAccess

namespace TKey.Fpga

open HandshakePort ScrambledMemory

/-!
# The memories as the CPU sees them

Behind the bus of the whole design the CPU finds three memories: the ROM with
the firmware, app RAM behind its scrambling, and `FW_RAM`, which is there for
the firmware only.  The scrambling changes when the firmware sets new seeds.
-/

variable {bram : BlockRam} {spram : Spram}

section FwRam

/--
The block RAM `SB_RAM40_4K` stores the bits that its mask does not block, and
reads a word when its read enable is set.
-/
structure BlockRam.Documented (bram : BlockRam) : Prop where
  word_clock_of_we :
    ∀ state ports,
      ports.we = true →
      bram.word (bram.clock state ports) =
        Function.update (bram.word state) ports.waddr
          (merge (~~~ports.mask) (bram.word state ports.waddr) ports.wdata)
  rdata_clock :
    ∀ state ports,
      ports.re = true → ports.we = false →
        bram.rdata (bram.clock state ports) = bram.word state ports.raddr

theorem documented_masked : BlockRam.masked.Documented where
  word_clock_of_we state ports writes := by
    simp only [BlockRam.masked, writes, if_true, merge, BitVec.not_not]
  rdata_clock state ports reads _ := by
    simp only [BlockRam.masked, reads, if_true]

namespace FwRam

/-- The mask of the block RAMs blocks what the write enables do not enable. -/
theorem not_mask (we0 we1 : Bool) :
    ~~~mask we0 we1 = enabledBits we0 we1 := by
  revert we0 we1
  decide

/-- The row of a bank that an address belongs to. -/
def row (address : BitVec 10) : BitVec 11 :=
  0#3 ++ address.extractLsb' 0 8

/-- An address is its bank and its row. -/
theorem address_ext
    {left right : BitVec 10}
    (bank : left.extractLsb' 8 2 = right.extractLsb' 8 2)
    (row : row left = row right) :
    left = right := by
  have low : left.extractLsb' 0 8 = right.extractLsb' 0 8 := by
    have same := congrArg (BitVec.extractLsb' 0 8) row
    rwa [FwRam.row, FwRam.row, BitVec.extractLsb'_append_eq_right,
      BitVec.extractLsb'_append_eq_right] at same
  apply BitVec.eq_of_getLsbD_eq
  intro index inside
  by_cases inRow : index < 8
  · have bits := congrArg (fun row => row.getLsbD index) low
    simpa [BitVec.getLsbD_extractLsb', inRow] using bits
  · have bits := congrArg (fun bank => bank.getLsbD (index - 8)) bank
    have inBank : index - 8 < 2 := by omega
    have whole : 8 + (index - 8) = index := by omega
    simpa [BitVec.getLsbD_extractLsb', inBank, whole] using bits

/-- The bank and the row of an address are accessed. -/
theorem bank_and_row (ports : Ports) (address : BitVec 10) :
    ports.bank (address.extractLsb' 8 2) = true ∧
        row address = row ports.address ↔
      ports.appModeCs = true ∧ address = ports.address := by
  rw [Ports.bank, Bool.and_eq_true, beq_iff_eq]
  constructor
  · rintro ⟨⟨enabled, bank⟩, sameRow⟩
    exact ⟨enabled, address_ext bank.symm sameRow⟩
  · rintro ⟨enabled, rfl⟩
    exact ⟨⟨enabled, rfl⟩, rfl⟩

/-- What a block RAM of a bank stores. -/
theorem word_clock_half
    (documented : bram.Documented)
    (state : bram.State)
    (ports : BlockRamPorts)
    {we0 we1 writes bank : Bool}
    {place : BitVec 11}
    {hit : Prop}
    [Decidable hit]
    (we : ports.we = (writes && bank))
    (enables : writes = false → we0 = false ∧ we1 = false)
    (mask : ports.mask = FwRam.mask we0 we1)
    (selects : bank = true ∧ place = ports.waddr ↔ hit) :
    bram.word (bram.clock state ports) place =
      if hit then
        merge (enabledBits we0 we1) (bram.word state place) ports.wdata
      else
        bram.word state place := by
  rw [← if_congr selects rfl rfl]
  cases writes with
  | false =>
      obtain ⟨rfl, rfl⟩ := enables rfl
      have empty : enabledBits false false = BitVec.ofNat 16 0 := by
        decide
      rw [bram.word_clock_of_not_we _ _ we, empty, merge_zero, ite_self]
  | true =>
      cases bank with
      | false =>
          rw [bram.word_clock_of_not_we _ _ we]
          simp
      | true =>
          rw [documented.word_clock_of_we _ _ we, mask, not_mask]
          by_cases here : place = ports.waddr
          · rw [here, Function.update_self, if_pos ⟨rfl, rfl⟩]
          · rw [Function.update_of_ne here, if_neg fun both => here both.2]

/-- `FW_RAM` is a memory with byte enables, for the firmware. -/
theorem word_clock_eq
    (documented : bram.Documented)
    (fwRam : FwRam bram)
    (ports : Ports) :
    (fwRam.clock ports).word =
      if ports.appModeCs then
        Function.update fwRam.word ports.address
          (merge (byteMask ports.we) (fwRam.word ports.address)
            ports.writeData)
      else
        fwRam.word := by
  funext address
  have hit := bank_and_row ports address
  have writes
      {left right : Bool}
      (leftOf : ports.we = 0 → left = false)
      (rightOf : ports.we = 0 → right = false) :
      (ports.we != 0) = false → left = false ∧ right = false := fun none =>
    ⟨leftOf (by simpa using none), rightOf (by simpa using none)⟩
  have low :=
    word_clock_half documented (fwRam.low (address.extractLsb' 8 2))
      (ports.lowPorts (address.extractLsb' 8 2)) rfl
      (writes (fun none => by rw [none]; rfl) fun none => by rw [none]; rfl)
      rfl hit
  have high :=
    word_clock_half documented (fwRam.high (address.extractLsb' 8 2))
      (ports.highPorts (address.extractLsb' 8 2)) rfl
      (writes (fun none => by rw [none]; rfl) fun none => by rw [none]; rfl)
      rfl hit
  have word :
      (fwRam.clock ports).word address =
        bram.word
            (bram.clock (fwRam.high (address.extractLsb' 8 2))
              (ports.highPorts (address.extractLsb' 8 2)))
            (row address) ++
          bram.word
            (bram.clock (fwRam.low (address.extractLsb' 8 2))
              (ports.lowPorts (address.extractLsb' 8 2)))
            (row address) :=
    rfl
  rw [word, low, high]
  by_cases hit : ports.appModeCs = true ∧ address = ports.address
  · obtain ⟨enabled, rfl⟩ := hit
    rw [if_pos ⟨enabled, rfl⟩, if_pos ⟨enabled, rfl⟩, if_pos enabled,
      Function.update_self, ← append_halves ports.writeData]
    exact (merge_append ..).symm
  · rw [if_neg hit, if_neg hit]
    split
    · next enabled =>
        rw [Function.update_of_ne fun here => hit ⟨enabled, here⟩]
        rfl
    · rfl

/-- A word that was read. -/
theorem readData_clock
    (documented : bram.Documented)
    (fwRam : FwRam bram)
    {ports : Ports}
    (enabled : ports.appModeCs = true)
    (reads : ports.we = 0) :
    (fwRam.clock ports).readData ports = fwRam.word ports.address := by
  have bank : ports.bank (ports.address.extractLsb' 8 2) = true := by
    rw [Ports.bank, enabled, beq_self_eq_true]
    rfl
  have noWrite
      (index : BitVec 2) : (ports.we != 0 && ports.bank index) = false := by
    rw [reads]
    rfl
  rw [readData, if_pos enabled, clock]
  dsimp only
  rw [documented.rdata_clock _ (ports.highPorts _) bank (noWrite _),
    documented.rdata_clock _ (ports.lowPorts _) bank (noWrite _)]
  rfl

end FwRam

end FwRam

section Memories

/-- An access of the CPU, and whether it handles a system call. -/
structure BusRequest where
  access : Access
  syscall : Bool
  deriving DecidableEq

/-- An access of the CPU, and what it is given. -/
abbrev BusEntry :=
  BusRequest × BitVec 32

/-- The request in a cycle. -/
def Pins.busRequest (pins : Pins) : Option BusRequest :=
  if pins.cpuValid then
    some { access := pins.access, syscall := pins.irq31Eoi }
  else
    none

/-- The bus of the whole design, with the mode in which the CPU uses it. -/
def memoryBus (bram : BlockRam) (spram : Spram) (bits : WholeBitstream) :
    HandshakePort (WholeFpga bram spram) Pins BusRequest (BitVec 32) where
  clock := WholeFpga.clock bits
  request := Pins.busRequest
  ready whole := whole.bus.muxedReadyReg
  response whole := whole.bus.muxedRdataReg
  answers_open whole pins ready := by
    have isOpen :=
      whole.bus.answers_open bits.toBitstream (whole.cycle bits pins) ready
    refine ⟨isOpen.1, ?_⟩
    have valid : pins.cpuValid = true := by
      have request := isOpen.2
      unfold Cycle.request at request
      split at request
      · assumption
      · cases request
    rw [Pins.busRequest, valid]
    rfl

/-- What the CPU finds in the memories, and what decides about it. -/
@[ext] structure Memories where
  ram : BitVec 15 → BitVec 32
  fwRam : BitVec 10 → BitVec 32
  seeds : Seeds
  fwStartupDone : Bool

/-- The word of app RAM that an access is to. -/
def Access.ramIndex (access : Access) : BitVec 15 :=
  access.cpuAddr.extractLsb' 2 15

/-- The word of `FW_RAM` that an access is to. -/
def Access.fwRamIndex (access : Access) : BitVec 10 :=
  access.cpuAddr.extractLsb' 2 10

namespace Memories

/-- `app_mode` during an access. -/
def appMode (memories : Memories) (request : BusRequest) : Bool :=
  memories.fwStartupDone && !request.syscall

/-- The fetch of an instruction above ROM. -/
def fetchesAboveRom (request : BusRequest) : Bool :=
  request.access.cpuInstr && decide (fwRomLast < request.access.cpuAddr)

/-- The firmware writes a register of TK1. -/
def sets
    (memories : Memories)
    (request : BusRequest)
    (register : BitVec 8) : Bool :=
  decodeAddr request.access.cpuAddr == .tk1 &&
    request.access.cpuWstrb != 0 &&
    request.access.cpuAddr.extractLsb' 2 8 == register &&
    !memories.appMode request

/-- The seeds after an access. -/
def seedsAfter (memories : Memories) (request : BusRequest) : Seeds where
  ramAddrRand :=
    if memories.sets request addrRamAddrRand then
      request.access.cpuWdata.extractLsb' 0 15
    else
      memories.seeds.ramAddrRand
  ramDataRand :=
    if memories.sets request addrRamDataRand then
      request.access.cpuWdata
    else
      memories.seeds.ramDataRand

/--
The memories after an access.  New seeds do not change the RAM blocks, and so
what the CPU finds in app RAM changes.
-/
def after (memories : Memories) (request : BusRequest) : Memories where
  ram :=
    if decodeAddr request.access.cpuAddr = .other .ram then
      Function.update memories.ram request.access.ramIndex
        (merge (byteMask request.access.cpuWstrb)
          (memories.ram request.access.ramIndex) request.access.cpuWdata)
    else
      (memories.seedsAfter request).scrambling.view
        (memories.seeds.scrambling.hide memories.ram)
  fwRam :=
    if decodeAddr request.access.cpuAddr = .fwRam ∧
        memories.appMode request = false then
      Function.update memories.fwRam request.access.fwRamIndex
        (merge (byteMask request.access.cpuWstrb)
          (memories.fwRam request.access.fwRamIndex) request.access.cpuWdata)
    else
      memories.fwRam
  seeds := memories.seedsAfter request
  fwStartupDone := fetchesAboveRom request || memories.fwStartupDone

/--
What a memory answers when it is read.  A fetch from `FW_RAM` is left out, since
it traps the CPU.
-/
def answer
    (bits : WholeBitstream)
    (memories : Memories)
    (request : BusRequest) : Option (BitVec 32) :=
  match decodeAddr request.access.cpuAddr with
  | .other .rom => some (bits.firmware request.access.romAddress)
  | .other .ram => some (memories.ram request.access.ramIndex)
  | .fwRam =>
      if request.access.cpuInstr then
        none
      else if memories.appMode request then
        some 0
      else
        some (memories.fwRam request.access.fwRamIndex)
  | _ => none

/-- An access is served; other cores may answer anything. -/
def Serve
    (bits : WholeBitstream)
    (memories : Memories)
    (request : BusRequest)
    (response : BitVec 32)
    (next : Memories) : Prop :=
  next = memories.after request ∧
    (request.access.cpuWstrb = 0 →
      ∀ word ∈ memories.answer bits request, response = word)

end Memories

/-- The seeds in the registers of TK1. -/
def WholeFpga.seeds (whole : WholeFpga bram spram) : Seeds where
  ramAddrRand := whole.bus.tk1.ramAddrRandReg
  ramDataRand := whole.bus.tk1.ramDataRandReg

/-- The memories of the whole design. -/
def WholeFpga.memories (whole : WholeFpga bram spram) : Memories where
  ram := whole.ram.contents whole.seeds
  fwRam := whole.bus.fwRam.word
  seeds := whole.seeds
  fwStartupDone := whole.bus.tk1.fwStartupDoneReg

end Memories

section Step

variable {whole : WholeFpga bram spram}
variable {pins : Pins}
variable {request : BusRequest}
variable {memories : Memories}

theorem Pins.of_busRequest (requested : pins.busRequest = some request) :
    pins.cpuValid = true ∧
      pins.access = request.access ∧ pins.irq31Eoi = request.syscall := by
  unfold Pins.busRequest at requested
  split at requested
  · next valid =>
      obtain rfl := Option.some.inj requested
      exact ⟨valid, rfl, rfl⟩
  · cases requested

theorem Pins.request_of_busRequest (none : pins.busRequest = none) :
    pins.request = Option.none := by
  unfold Pins.busRequest at none
  unfold Pins.request
  split at none
  · cases none
  · next invalid => rw [if_neg invalid]

/-- The seeds do not change without a write to TK1. -/
theorem seeds_clock_unselected
    (bits : WholeBitstream)
    (unselected : whole.selected pins ≠ some .tk1) :
    (whole.clock bits pins).seeds = whole.seeds := by
  have cs : (whole.selected pins == some .tk1) = false :=
    beq_false_of_ne unselected
  simp only [WholeFpga.seeds, WholeFpga.clock, ApplicationFpga.clock, Tk1.clock,
    Tk1.api, Tk1.Ports.writes, ApplicationFpga.tk1Ports,
    WholeFpga.selected_cycle, cs, Bool.false_and, Bool.false_eq_true, if_false]

/-- A cycle in which nothing is selected. -/
theorem memories_clock_of_none
    (bits : WholeBitstream)
    (none : whole.selected pins = Option.none) :
    (whole.clock bits pins).memories =
      { whole.memories with
        fwStartupDone :=
          (pins.cpuValid && pins.access.cpuInstr &&
              decide (fwRomLast < pins.access.cpuAddr)) ||
            whole.bus.tk1.fwStartupDoneReg } := by
  have seeds := seeds_clock_unselected bits (by rw [none]; nofun)
  have stored : (whole.clock bits pins).ram.stored = whole.ram.stored :=
    whole.ram.stored_clock_unselected
      (WholeFpga.cs_of_selected_ne (by rw [none]; nofun))
  have word : (whole.clock bits pins).bus.fwRam.word = whole.bus.fwRam.word := by
    apply whole.bus.fwRam.word_clock_unselected
    show (whole.selected pins == some .fwRam) = false
    rw [none]
    rfl
  rw [WholeFpga.memories, WholeFpga.memories, seeds, Ram.contents, Ram.contents,
    stored, word]
  rfl

/-- The word access to app RAM that a request stands for. -/
def BusRequest.wordAccess (request : BusRequest) (gap : Ram.Ports) :
    WordAccess where
  gap := [gap]
  spaced := nofun
  index := request.access.ramIndex
  we := request.access.cpuWstrb
  writeData := request.access.cpuWdata

/-- An access that is not answered yet selects its core. -/
theorem selected_of_busRequest
    (requested : pins.busRequest = some request)
    (notReady : whole.bus.muxedReadyReg = false)
    (notTrapped : ¬ whole.Trapped) :
    whole.selected pins = some (decodeAddr request.access.cpuAddr) := by
  obtain ⟨valid, access, -⟩ := Pins.of_busRequest requested
  have latch : whole.bus.tk1.forceTrapReg = false :=
    (Bool.not_eq_true _).mp notTrapped
  rw [WholeFpga.selected_eq, valid, notReady, latch, access]
  rfl

/-- The firmware sets the seeds in the registers of TK1. -/
theorem seeds_clock
    (bits : WholeBitstream)
    (requested : pins.busRequest = some request)
    (selected :
      whole.selected pins = some (decodeAddr request.access.cpuAddr)) :
    (whole.clock bits pins).seeds = whole.memories.seedsAfter request := by
  obtain ⟨-, access, syscall⟩ := Pins.of_busRequest requested
  have cs :
      (whole.bus.tk1Ports (whole.cycle bits pins)).cs =
        (decodeAddr request.access.cpuAddr == .tk1) := by
    show (whole.selected pins == some .tk1) = _
    rw [selected]
    rfl
  have sets
      (register : BitVec 8) :
      ((whole.bus.tk1Ports (whole.cycle bits pins)).writes register &&
          !whole.bus.tk1.appMode
            (whole.bus.tk1Ports (whole.cycle bits pins)).syscall) =
        whole.memories.sets request register := by
    rw [Tk1.Ports.writes, cs, Memories.sets, Memories.appMode, ← access,
      ← syscall]
    rfl
  rw [Memories.seedsAfter, ← sets, ← sets, ← access]
  rfl

/-- App RAM after a cycle with an access. -/
theorem contents_clock_seeds
    (bits : WholeBitstream)
    (requested : pins.busRequest = some request)
    (selected :
      whole.selected pins = some (decodeAddr request.access.cpuAddr)) :
    (whole.clock bits pins).ram.contents (whole.clock bits pins).seeds =
      (whole.memories.after request).ram := by
  obtain ⟨-, access, -⟩ := Pins.of_busRequest requested
  have seeds := seeds_clock bits requested selected
  by_cases isRam : decodeAddr request.access.cpuAddr = .other .ram
  · have same : (whole.clock bits pins).seeds = whole.seeds :=
      seeds_clock_unselected bits (by rw [selected, isRam]; nofun)
    have cs : whole.cs pins .ram = true := by
      rw [WholeFpga.cs, selected, isRam]
      rfl
    let wordAccess :=
      request.wordAccess (pins.access.ramPorts whole.bus.tk1 false)
    have ports :
        pins.access.ramPorts whole.bus.tk1 (whole.cs pins .ram) =
          wordAccess.ports whole.seeds := by
      rw [cs, access]
      rfl
    have stores := Ram.contents_clock whole.seeds whole.ram wordAccess
    rw [← ports] at stores
    rw [same, Memories.after, if_pos isRam]
    exact stores
  · have stored : (whole.clock bits pins).ram.stored = whole.ram.stored :=
      whole.ram.stored_clock_unselected
        (WholeFpga.cs_of_selected_ne
          (by rw [selected]; exact fun same => isRam (Option.some.inj same)))
    rw [Memories.after, if_neg isRam, ← seeds, Ram.contents, stored]
    exact
      congrArg (whole.clock bits pins).seeds.scrambling.view
        (whole.seeds.scrambling.hide_view whole.ram.stored).symm

/-- `FW_RAM` after a cycle with an access. -/
theorem fwRam_clock
    (documented : bram.Documented)
    (bits : WholeBitstream)
    (requested : pins.busRequest = some request)
    (selected :
      whole.selected pins = some (decodeAddr request.access.cpuAddr)) :
    (whole.clock bits pins).bus.fwRam.word =
      (whole.memories.after request).fwRam := by
  obtain ⟨-, access, syscall⟩ := Pins.of_busRequest requested
  have enabled :
      (whole.bus.fwRamPorts (whole.cycle bits pins)).appModeCs =
        (decodeAddr request.access.cpuAddr == .fwRam &&
          !whole.memories.appMode request) := by
    have cs :
        (whole.bus.fwRamPorts (whole.cycle bits pins)).cs =
          (decodeAddr request.access.cpuAddr == .fwRam) := by
      show (whole.selected pins == some .fwRam) = _
      rw [selected]
      rfl
    rw [FwRam.Ports.appModeCs, cs, Memories.appMode, ← syscall]
    rfl
  refine (FwRam.word_clock_eq documented _ _).trans ?_
  rw [enabled, Memories.after, ← access]
  by_cases hit :
      decodeAddr pins.access.cpuAddr = .fwRam ∧
        whole.memories.appMode request = false
  · rw [if_pos hit, if_pos (by rw [hit.1, hit.2]; rfl)]
    rfl
  · rw [if_neg hit, if_neg]
    · rfl
    · rw [Bool.and_eq_true, beq_iff_eq, Bool.not_eq_true']
      exact hit

/-- An access that is not answered yet acts on the memories. -/
theorem memories_clock
    (documented : bram.Documented)
    (bits : WholeBitstream)
    (requested : pins.busRequest = some request)
    (notReady : whole.bus.muxedReadyReg = false)
    (notTrapped : ¬ whole.Trapped) :
    (whole.clock bits pins).memories = whole.memories.after request := by
  have selected := selected_of_busRequest requested notReady notTrapped
  have fwStartupDone :
      (whole.clock bits pins).bus.tk1.fwStartupDoneReg =
        (whole.memories.after request).fwStartupDone := by
    obtain ⟨valid, access, -⟩ := Pins.of_busRequest requested
    show (pins.cpuValid && pins.access.cpuInstr &&
        decide (fwRomLast < pins.access.cpuAddr) ||
          whole.bus.tk1.fwStartupDoneReg) = _
    rw [valid, access, Bool.true_and]
    rfl
  rw [WholeFpga.memories, contents_clock_seeds bits requested selected,
    fwRam_clock documented bits requested selected,
    seeds_clock bits requested selected, fwStartupDone]
  rfl

/-- An access to a memory does not set the seeds. -/
theorem Memories.seedsAfter_of_memory
    (memories : Memories)
    (isMemory : CodeMemory (decodeAddr request.access.cpuAddr)) :
    memories.seedsAfter request = memories.seeds := by
  have notTk1 : (decodeAddr request.access.cpuAddr == .tk1) = false := by
    generalize decodeAddr request.access.cpuAddr = core at isMemory
    cases isMemory <;> rfl
  have none
      (register : BitVec 8) :
      memories.sets request register = false := by
    rw [Memories.sets, notTk1]
    rfl
  rw [Memories.seedsAfter, none, none]
  rfl

/-- The second cycle of an access to a memory changes nothing. -/
theorem Memories.after_after
    (memories : Memories)
    (isMemory : CodeMemory (decodeAddr request.access.cpuAddr)) :
    (memories.after request).after request = memories.after request := by
  have seeds := (memories.after request).seedsAfter_of_memory isMemory
  apply Memories.ext
  case ram =>
    by_cases isRam : decodeAddr request.access.cpuAddr = .other .ram
    · simp only [Memories.after, if_pos isRam, Function.update_self,
        Function.update_idem, merge_merge]
    · rw [Memories.after, if_neg isRam, seeds, Scrambling.view_hide]
  case fwRam =>
    by_cases hit :
        decodeAddr request.access.cpuAddr = .fwRam ∧
          (memories.after request).appMode request = false
    · have before : memories.appMode request = false := by
        have later := hit.2
        rw [Memories.appMode, Memories.after] at later
        rw [Memories.appMode]
        revert later
        cases memories.fwStartupDone
        · exact fun _ => rfl
        · simp
      have first : (memories.after request).fwRam = _ := if_pos ⟨hit.1, before⟩
      have second : ((memories.after request).after request).fwRam = _ :=
        if_pos hit
      rw [second, first, Function.update_self, Function.update_idem,
        merge_merge]
    · rw [Memories.after, if_neg hit]
  case seeds => exact seeds
  case fwStartupDone =>
    rw [Memories.after, Memories.after, ← Bool.or_assoc, Bool.or_self]

/-- What is answered at the end of a cycle. -/
def WholeFpga.answerTo
    (bits : WholeBitstream)
    (whole : WholeFpga bram spram)
    (pins : Pins) : Answer :=
  whole.bus.muxedNew bits.toBitstream (whole.cycle bits pins)

/-- The second cycle of a read of app RAM. -/
theorem readData_ram
    (bits : WholeBitstream)
    {later : Pins}
    (requested : pins.busRequest = some request)
    (requestedLater : later.busRequest = some request)
    (selected : whole.selected pins = some (.other .ram))
    (selectedLater :
      (whole.clock bits pins).selected later = some (.other .ram))
    (reads : request.access.cpuWstrb = 0) :
    ((whole.clock bits pins).answerTo bits later).readData =
      whole.memories.ram request.access.ramIndex := by
  obtain ⟨-, access, -⟩ := Pins.of_busRequest requested
  obtain ⟨-, accessLater, -⟩ := Pins.of_busRequest requestedLater
  let wordAccess :=
    request.wordAccess (pins.access.ramPorts whole.bus.tk1 false)
  have seeds : (whole.clock bits pins).seeds = whole.seeds :=
    seeds_clock_unselected bits (by rw [selected]; nofun)
  have cs : whole.cs pins .ram = true := by
    rw [WholeFpga.cs, selected]
    rfl
  have csLater : (whole.clock bits pins).cs later .ram = true := by
    rw [WholeFpga.cs, selectedLater]
    rfl
  have ports :
      pins.access.ramPorts whole.bus.tk1 (whole.cs pins .ram) =
        wordAccess.ports whole.seeds := by
    rw [cs, access]
    rfl
  have portsLater :
      later.access.ramPorts (whole.clock bits pins).bus.tk1
          ((whole.clock bits pins).cs later .ram) =
        wordAccess.ports whole.seeds := by
    rw [csLater, accessLater, ← seeds]
    rfl
  have data := Ram.readData_clock whole.seeds whole.ram
    (show wordAccess.we = 0 from reads)
  rw [WholeFpga.answerTo, ApplicationFpga.muxedNew, WholeFpga.selected_cycle,
    selectedLater]
  show (whole.clock bits pins).ram.readData (later.access.ramPorts _ _) = _
  rw [portsLater]
  rw [← ports] at data ⊢
  exact data

/-- The second cycle of a read of `FW_RAM`. -/
theorem readData_fwRam
    (documented : bram.Documented)
    (bits : WholeBitstream)
    {later : Pins}
    (requested : pins.busRequest = some request)
    (requestedLater : later.busRequest = some request)
    (selected : whole.selected pins = some .fwRam)
    (selectedLater : (whole.clock bits pins).selected later = some .fwRam)
    (data : request.access.cpuInstr = false)
    (reads : request.access.cpuWstrb = 0) :
    ((whole.clock bits pins).answerTo bits later).readData =
      if whole.memories.appMode request then
        0
      else
        whole.memories.fwRam request.access.fwRamIndex := by
  obtain ⟨-, access, syscall⟩ := Pins.of_busRequest requested
  obtain ⟨-, accessLater, syscallLater⟩ := Pins.of_busRequest requestedLater
  have mode :
      (whole.clock bits pins).bus.appMode
          ((whole.clock bits pins).cycle bits later) =
        whole.memories.appMode request := by
    have done :
        (whole.clock bits pins).bus.tk1.fwStartupDoneReg =
          whole.bus.tk1.fwStartupDoneReg := by
      show (pins.cpuValid && pins.access.cpuInstr && _ || _) = _
      rw [access, data, Bool.and_false, Bool.false_and, Bool.false_or]
    rw [ApplicationFpga.appMode, Tk1.appMode, done, Memories.appMode,
      ← syscallLater]
    rfl
  have cs : (whole.bus.fwRamPorts (whole.cycle bits pins)).cs = true := by
    show (whole.selected pins == some .fwRam) = true
    rw [selected]
    rfl
  have csLater :
      ((whole.clock bits pins).bus.fwRamPorts
        ((whole.clock bits pins).cycle bits later)).cs = true := by
    show ((whole.clock bits pins).selected later == some .fwRam) = true
    rw [selectedLater]
    rfl
  have modeNow :
      whole.bus.appMode (whole.cycle bits pins) =
        whole.memories.appMode request := by
    rw [Memories.appMode, ← syscall]
    rfl
  have ports :
      (whole.clock bits pins).bus.fwRamPorts
          ((whole.clock bits pins).cycle bits later) =
        whole.bus.fwRamPorts (whole.cycle bits pins) := by
    unfold ApplicationFpga.fwRamPorts at cs csLater ⊢
    dsimp only at cs csLater
    rw [cs, csLater, mode, modeNow]
    show (FwRam.Ports.mk _ _ later.access.cpuWstrb
      (later.access.cpuAddr.extractLsb' 2 10) later.access.cpuWdata) = _
    rw [accessLater, ← access]
    rfl
  rw [WholeFpga.answerTo, ApplicationFpga.muxedNew, WholeFpga.selected_cycle,
    selectedLater]
  show (whole.clock bits pins).bus.fwRam.readData _ = _
  rw [ports]
  cases isApp : whole.memories.appMode request with
  | true =>
      rw [if_pos rfl]
      exact FwRam.readData_of_appMode (modeNow.trans isApp) _
  | false =>
      have enabled :
          (whole.bus.fwRamPorts (whole.cycle bits pins)).appModeCs = true := by
        rw [FwRam.Ports.appModeCs, cs]
        show (true && !whole.bus.appMode (whole.cycle bits pins)) = true
        rw [modeNow, isApp]
        rfl
      have noWrite :
          (whole.bus.fwRamPorts (whole.cycle bits pins)).we = 0 := by
        show pins.access.cpuWstrb = 0
        rw [access, reads]
      refine (FwRam.readData_clock documented _ enabled noWrite).trans ?_
      rw [if_neg Bool.false_ne_true, ← access]
      rfl

end Step

section Runs

variable {whole : WholeFpga bram spram}
variable {pins : Pins}
variable {request : BusRequest}
variable {memories : Memories}
variable {bits : WholeBitstream}

/-- A memory was accessed for a cycle, and answers in the next. -/
structure Opened
    (bits : WholeBitstream)
    (memories : Memories)
    (request : BusRequest)
    (whole : WholeFpga bram spram) : Prop where
  isMemory : CodeMemory (decodeAddr request.access.cpuAddr)
  notReady : whole.bus.muxedReadyReg = false
  holds : whole.memories = memories.after request
  ready :
    ∀ later,
      later.busRequest = some request →
      ¬ whole.Trapped →
      (whole.answerTo bits later).ready = true
  readData :
    ∀ later,
      later.busRequest = some request →
      ¬ whole.Trapped →
      request.access.cpuWstrb = 0 →
      ∀ word ∈ memories.answer bits request,
        (whole.answerTo bits later).readData = word

/-- The first cycle of an access to a memory. -/
theorem opened_clock
    (documented : bram.Documented)
    (rested : whole.Rested)
    (notTrapped : ¬ whole.Trapped)
    (requested : pins.busRequest = some request)
    (isMemory : CodeMemory (decodeAddr request.access.cpuAddr)) :
    Opened bits whole.memories request (whole.clock bits pins) := by
  obtain ⟨valid, access, -⟩ := Pins.of_busRequest requested
  have notReady : (whole.clock bits pins).bus.muxedReadyReg = false :=
    notReady_of_codeMemory bits rested notTrapped valid
      (by rw [access]; exact isMemory)
  have selected := selected_of_busRequest requested rested.bus notTrapped
  have selectedLater
      {later : Pins}
      (requestedLater : later.busRequest = some request)
      (livesLater : ¬ (whole.clock bits pins).Trapped) :=
    selected_of_busRequest requestedLater notReady livesLater
  refine ⟨isMemory, notReady,
    memories_clock documented bits requested rested.bus notTrapped, ?_, ?_⟩
  · intro later requestedLater livesLater
    have later := selectedLater requestedLater livesLater
    rw [WholeFpga.answerTo, ApplicationFpga.muxedNew,
      WholeFpga.selected_cycle, later]
    generalize decodeAddr request.access.cpuAddr = core at isMemory selected
    -- the core was selected, and so is ready now
    cases isMemory with
    | rom | ram | fwRam =>
        exact beq_iff_eq.mpr selected
  · intro later requestedLater livesLater reads word isAnswer
    have selectedLater := selectedLater requestedLater livesLater
    rw [Memories.answer] at isAnswer
    generalize decodeAddr request.access.cpuAddr = core at *
    cases isMemory with
    | rom =>
        obtain rfl := Option.some.inj isAnswer
        rw [WholeFpga.answerTo, ApplicationFpga.muxedNew,
          WholeFpga.selected_cycle, selectedLater,
          ← (Pins.of_busRequest requestedLater).2.1]
        rfl
    | ram =>
        obtain rfl := Option.some.inj isAnswer
        exact
          readData_ram bits requested requestedLater selected selectedLater
            reads
    | fwRam =>
        dsimp only at isAnswer
        cases data : request.access.cpuInstr with
        | true =>
            rw [data] at isAnswer
            cases isAnswer
        | false =>
            rw [data, if_neg Bool.false_ne_true] at isAnswer
            rw [readData_fwRam documented bits requested requestedLater
              selected selectedLater data reads]
            split at isAnswer <;> simp_all

/-- A state in which the bus waits for an access, or for a memory. -/
def Waits
    (bits : WholeBitstream)
    (memories : Memories) :
    Option BusRequest → WholeFpga bram spram → Prop
  | none, whole => whole.Rested ∧ whole.memories = memories
  | some request, whole => Opened bits memories request whole

/-- A state in which an access was answered. -/
structure Answered
    (memories : Memories)
    (request : BusRequest)
    (response : BitVec 32)
    (whole : WholeFpga bram spram) : Prop where
  ready : whole.bus.muxedReadyReg = true
  response : whole.bus.muxedRdataReg = response
  holds : whole.memories = memories
  fetched :
    Memories.fetchesAboveRom request = true → memories.fwStartupDone = true

/-- Nothing happens in a cycle in which nothing is selected. -/
theorem waits_clock
    (answered : pins.request = none ∨ whole.bus.muxedReadyReg = true)
    (fetched :
      (pins.cpuValid && pins.access.cpuInstr &&
          decide (fwRomLast < pins.access.cpuAddr)) = true →
        whole.bus.tk1.fwStartupDoneReg = true) :
    Waits bits whole.memories none (whole.clock bits pins) := by
  refine ⟨rested_clock bits answered, ?_⟩
  rw [memories_clock_of_none bits (WholeFpga.selected_eq_none answered)]
  apply Memories.ext <;> try rfl
  show (_ || whole.bus.tk1.fwStartupDoneReg) = whole.bus.tk1.fwStartupDoneReg
  cases fetches :
      pins.cpuValid && pins.access.cpuInstr &&
        decide (fwRomLast < pins.access.cpuAddr) with
  | false => exact Bool.false_or _
  | true => rw [fetched fetches, Bool.or_self]

/-- At the end of a cycle in which a core answers. -/
theorem answered_clock
    (holds : (whole.clock bits pins).memories = memories.after request)
    (ready : (whole.answerTo bits pins).ready = true) :
    Answered (memories.after request) request
      (whole.answerTo bits pins).readData (whole.clock bits pins) where
  ready := ready
  response := rfl
  holds := holds
  fetched fetches := by
    rw [Memories.after, fetches]
    rfl

/-- A core that is no memory with code answers at once. -/
theorem ready_of_not_memory
    (selected :
      whole.selected pins = some (decodeAddr request.access.cpuAddr))
    (noMemory : ¬ CodeMemory (decodeAddr request.access.cpuAddr)) :
    (whole.answerTo bits pins).ready = true := by
  rw [WholeFpga.answerTo, ApplicationFpga.muxedNew, WholeFpga.selected_cycle,
    selected]
  generalize decodeAddr request.access.cpuAddr = core at noMemory selected
  rcases core with core | _ | _ | _ | _ | _
  · cases core
    case rom => exact absurd .rom noMemory
    case ram => exact absurd .ram noMemory
    all_goals exact beq_iff_eq.mpr selected
  · exact beq_iff_eq.mpr selected
  · exact absurd .fwRam noMemory
  · rfl
  · exact beq_iff_eq.mpr selected
  · rfl

/-- The second cycle of an access to a memory. -/
theorem Opened.clock
    (documented : bram.Documented)
    (opened : Opened bits memories request whole)
    (requested : pins.busRequest = some request)
    (notTrapped : ¬ whole.Trapped) :
    Memories.Serve bits memories request (whole.answerTo bits pins).readData
        (memories.after request) ∧
      Answered (memories.after request) request
        (whole.answerTo bits pins).readData (whole.clock bits pins) := by
  have clocked :=
    memories_clock documented bits requested opened.notReady notTrapped
  rw [opened.holds, memories.after_after opened.isMemory] at clocked
  exact
    ⟨⟨rfl, opened.readData pins requested notTrapped⟩,
      answered_clock clocked (opened.ready pins requested notTrapped)⟩

/-- An access to a core that is no memory with code. -/
theorem answered_of_not_memory
    (documented : bram.Documented)
    (rested : whole.Rested)
    (requested : pins.busRequest = some request)
    (notTrapped : ¬ whole.Trapped)
    (noMemory : ¬ CodeMemory (decodeAddr request.access.cpuAddr)) :
    Memories.Serve bits whole.memories request
        (whole.answerTo bits pins).readData (whole.memories.after request) ∧
      Answered (whole.memories.after request) request
        (whole.answerTo bits pins).readData (whole.clock bits pins) := by
  have selected := selected_of_busRequest requested rested.bus notTrapped
  refine ⟨⟨rfl, fun _ word isAnswer => ?_⟩,
    answered_clock
      (memories_clock documented bits requested rested.bus notTrapped)
      (ready_of_not_memory selected noMemory)⟩
  rw [Memories.answer] at isAnswer
  generalize decodeAddr request.access.cpuAddr = core at *
  split at isAnswer
  · exact absurd .rom noMemory
  · exact absurd .ram noMemory
  · exact absurd .fwRam noMemory
  · cases isAnswer

/-- The last cycle of an access, in which the CPU takes the response. -/
theorem Answered.clock
    {response : BitVec 32}
    (answered : Answered memories request response whole)
    (requested : pins.busRequest = some request) :
    Waits bits memories none (whole.clock bits pins) := by
  obtain ⟨valid, access, -⟩ := Pins.of_busRequest requested
  have holds := answered.holds
  subst holds
  apply waits_clock (.inr answered.ready)
  intro fetches
  rw [valid, Bool.true_and, access] at fetches
  exact answered.fetched fetches

/-- The bus goes through the accesses of the CPU one after the other. -/
theorem memoryBus_services
    (documented : bram.Documented)
    (bits : WholeBitstream) :
    (memoryBus bram spram bits).Services (Memories.Serve bits)
      (fun whole => ¬ whole.Trapped) (Waits bits) Answered where
  earlier whole pins lives trapped := lives (trapped_clock bits pins trapped)
  notReady {memories pending whole} waiting := by
    cases pending with
    | none => exact waiting.1.bus
    | some request => exact waiting.notReady
  ready answered := ⟨answered.ready, answered.response⟩
  quiet {memories whole pins} waiting none _ := by
    obtain ⟨-, rfl⟩ := waiting
    apply waits_clock (.inl (Pins.request_of_busRequest none))
    intro fetches
    cases valid : pins.cpuValid with
    | false =>
        rw [valid] at fetches
        cases fetches
    | true =>
        have none : pins.busRequest = Option.none := none
        rw [Pins.busRequest, valid] at none
        cases none
  work {memories pending whole pins request} waiting same requested lives := by
    have livesNow : ¬ whole.Trapped := fun trapped =>
      lives (trapped_clock bits pins trapped)
    cases pending with
    | none =>
        obtain ⟨rested, rfl⟩ := waiting
        by_cases isMemory : CodeMemory (decodeAddr request.access.cpuAddr)
        · exact
            .inl (opened_clock documented rested livesNow requested isMemory)
        · exact
            .inr ⟨_, _,
              answered_of_not_memory documented rested requested livesNow
                isMemory⟩
    | some earlier =>
        obtain rfl := same earlier rfl
        exact .inr ⟨_, _, waiting.clock documented requested livesNow⟩
  rest answered requested _ := answered.clock requested

/--
In every run in which the CPU holds its accesses and the security monitor does
not trap it, the whole design answers as the three memories do.
-/
theorem bus_serves_memories
    (documented : bram.Documented)
    (bits : WholeBitstream)
    (whole : WholeFpga bram spram)
    (inputs : List Pins)
    (rested : whole.Rested)
    (held : (memoryBus bram spram bits).Held whole inputs)
    (notTrapped : ¬ (whole.run bits inputs).Trapped) :
    ∃ after,
      Serves (Memories.Serve bits) whole.memories
        ((memoryBus bram spram bits).deliveries whole inputs) after :=
  Stage.run
    (.waiting ⟨rested, rfl⟩ : Stage (memoryBus_services documented bits) ..)
    held notTrapped

/-- The CPU stores a word in app RAM, and loads it. -/
def storeThenLoad : List Pins :=
  List.replicate 3 (.of (.store 0x40000004 0xcafe)) ++
    List.replicate 3 (.of (.load 0x40000004))

/-- The stored word is loaded. -/
theorem bus_serves_memories_sample :
    ((memoryBus .masked .holding .counting).deliveries .blank
          storeThenLoad).getLast? =
        some ({ access := .load 0x40000004, syscall := false }, 0xcafe) ∧
      ∃ after,
        Serves (Memories.Serve .counting) WholeFpga.blank.memories
          ((memoryBus .masked .holding .counting).deliveries .blank
            storeThenLoad)
          after :=
  ⟨by decide,
    bus_serves_memories documented_masked .counting .blank storeThenLoad
      ⟨rfl, rfl, rfl, rfl⟩
      ⟨fun _ _ => rfl, fun _ _ => rfl, by decide, fun _ _ => rfl,
        fun _ _ => rfl, trivial⟩
      fun trapped => Bool.false_ne_true trapped⟩

end Runs

end TKey.Fpga
