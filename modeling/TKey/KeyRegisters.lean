import TKey.BusMemory

namespace TKey.Fpga

open HandshakePort

/-!
# The UDS and the CDI as the CPU sees them

Behind the bus of the whole design the CPU finds the words of the UDS, each of
which it can read once before an app has started, and the words of the CDI,
which it can read always and write when no app runs.
-/

variable {bram : BlockRam} {spram : Spram}

section Registers

/-- What decides about the UDS, and the CDI. -/
@[ext] structure KeyRegisters where
  udsRead : BitVec 3 → Bool
  cdi : BitVec 3 → BitVec 32
  fwStartupDone : Bool

/-- The register of TK1 that an access is to. -/
def Access.tk1Register (access : Access) : BitVec 8 :=
  access.cpuAddr.extractLsb' 2 8

/-- An access to a word of the CDI. -/
def Access.ToCdi (access : Access) : Prop :=
  decodeAddr access.cpuAddr = .tk1 ∧
    addrCdiFirst ≤ access.tk1Register ∧ access.tk1Register ≤ addrCdiLast

instance (access : Access) : Decidable access.ToCdi :=
  inferInstanceAs (Decidable (_ ∧ _ ∧ _))

/-- The word of the CDI that an access is to. -/
def Access.cdiIndex (access : Access) : BitVec 3 :=
  access.tk1Register.extractLsb' 0 3

/-- A write to a word of the CDI. -/
def Access.WritesCdi (access : Access) : Prop :=
  access.ToCdi ∧ access.cpuWstrb ≠ 0

instance (access : Access) : Decidable access.WritesCdi :=
  inferInstanceAs (Decidable (_ ∧ _))

namespace KeyRegisters

/-- `app_mode` during an access. -/
def appMode (registers : KeyRegisters) (request : BusRequest) : Bool :=
  registers.fwStartupDone && !request.syscall

/-- The registers after an access. -/
def after (registers : KeyRegisters) (request : BusRequest) : KeyRegisters where
  udsRead :=
    if request.access.ToUds ∧ registers.fwStartupDone = false then
      Function.update registers.udsRead request.access.udsAddress true
    else
      registers.udsRead
  cdi :=
    if request.access.WritesCdi ∧ registers.appMode request = false then
      Function.update registers.cdi request.access.cdiIndex
        request.access.cpuWdata
    else
      registers.cdi
  fwStartupDone :=
    Memories.fetchesAboveRom request || registers.fwStartupDone

/-- What is answered to a read of the UDS or the CDI. -/
def answer
    (bits : WholeBitstream)
    (registers : KeyRegisters)
    (request : BusRequest) : Option (BitVec 32) :=
  if request.access.ToUds then
    if registers.fwStartupDone = false ∧
        registers.udsRead request.access.udsAddress = false then
      some (bits.uds request.access.udsAddress)
    else
      some 0
  else if request.access.ToCdi then
    some (registers.cdi request.access.cdiIndex)
  else
    none

/-- An access is served; other reads may be answered with anything. -/
def Serve
    (bits : WholeBitstream)
    (registers : KeyRegisters)
    (request : BusRequest)
    (response : BitVec 32)
    (next : KeyRegisters) : Prop :=
  next = registers.after request ∧
    (request.access.cpuWstrb = 0 →
      ∀ word ∈ registers.answer bits request, response = word)

end KeyRegisters

/-- The UDS and the CDI of the whole design. -/
def WholeFpga.keyRegisters (whole : WholeFpga bram spram) : KeyRegisters where
  udsRead := whole.bus.uds.udsRdReg
  cdi := whole.bus.tk1.cdiMem
  fwStartupDone := whole.bus.tk1.fwStartupDoneReg

end Registers

section Step

variable {whole : WholeFpga bram spram}
variable {pins : Pins}
variable {request : BusRequest}

/-- A cycle in which nothing is selected. -/
theorem keyRegisters_clock_of_none
    (bits : WholeBitstream)
    (none : whole.selected pins = Option.none) :
    (whole.clock bits pins).keyRegisters =
      { whole.keyRegisters with
        fwStartupDone :=
          (pins.cpuValid && pins.access.cpuInstr &&
              decide (fwRomLast < pins.access.cpuAddr)) ||
            whole.bus.tk1.fwStartupDoneReg } := by
  have unselected (core : Selection) :
      (whole.bus.selected (whole.cycle bits pins) == some core) = false := by
    rw [WholeFpga.selected_cycle, none]
    rfl
  apply KeyRegisters.ext
  · show (whole.bus.uds.clock _).udsRdReg = _
    rw [Uds.clock, Uds.udsRdWe, ApplicationFpga.udsPorts, unselected]
    rfl
  · show (whole.bus.tk1.clock _).cdiMem = _
    rw [Tk1.clock, Tk1.api]
    dsimp only
    rw [Tk1.Ports.writesIn, ApplicationFpga.tk1Ports, unselected]
    rfl
  · rfl

/-- An access that is not answered yet acts on the registers. -/
theorem keyRegisters_clock
    (bits : WholeBitstream)
    (requested : pins.busRequest = some request)
    (notReady : whole.bus.muxedReadyReg = false)
    (notTrapped : ¬ whole.Trapped) :
    (whole.clock bits pins).keyRegisters =
      whole.keyRegisters.after request := by
  have selected := selected_of_busRequest requested notReady notTrapped
  obtain ⟨valid, access, syscall⟩ := Pins.of_busRequest requested
  have udsCs :
      (whole.bus.selected (whole.cycle bits pins) == some .uds) =
        decide request.access.ToUds := by
    rw [WholeFpga.selected_cycle, selected]
    rfl
  have tk1Cs :
      (whole.bus.selected (whole.cycle bits pins) == some .tk1) =
        decide (decodeAddr request.access.cpuAddr = .tk1) := by
    rw [WholeFpga.selected_cycle, selected]
    rfl
  apply KeyRegisters.ext
  · show (whole.bus.uds.clock _).udsRdReg = _
    funext index
    rw [Uds.udsRdReg_clock, Uds.udsRdWe, ApplicationFpga.udsPorts, udsCs]
    show (decide request.access.ToUds && !whole.bus.tk1.fwStartupDoneReg &&
          !whole.bus.uds.udsRdReg pins.access.udsAddress &&
          index == pins.access.udsAddress ||
        whole.bus.uds.udsRdReg index) = _
    rw [access, KeyRegisters.after]
    dsimp only
    show _ = (if request.access.ToUds ∧
        whole.bus.tk1.fwStartupDoneReg = false then _ else _ : BitVec 3 → Bool)
      index
    by_cases reads :
        request.access.ToUds ∧ whole.bus.tk1.fwStartupDoneReg = false
    · rw [if_pos reads, decide_eq_true reads.1, reads.2, Function.update_apply]
      by_cases here : index = request.access.udsAddress
      · subst here
        rw [if_pos rfl, beq_self_eq_true, Bool.and_true]
        exact Bool.not_or_self _
      · rw [if_neg here, beq_false_of_ne here, Bool.and_false, Bool.false_or]
        rfl
    · have unread :
          (decide request.access.ToUds &&
            !whole.bus.tk1.fwStartupDoneReg) = false := by
        rw [Bool.and_eq_false_iff, decide_eq_false_iff_not, Bool.not_eq_false']
        by_cases toUds : request.access.ToUds
        · exact .inr (by simpa using fun open' => reads ⟨toUds, open'⟩)
        · exact .inl toUds
      rw [if_neg reads, unread]
      rfl
  · have writes :
        (whole.bus.tk1.api
            (whole.bus.tk1Ports (whole.cycle bits pins))).cdiMemWe =
          decide
            (request.access.WritesCdi ∧
              whole.keyRegisters.appMode request = false) := by
      show ((whole.bus.selected (whole.cycle bits pins) == some .tk1) &&
            (pins.access.cpuWstrb != 0) &&
            decide (addrCdiFirst ≤ pins.access.tk1Register) &&
            decide (pins.access.tk1Register ≤ addrCdiLast) &&
          !(whole.bus.tk1.fwStartupDoneReg && !pins.irq31Eoi)) = _
      rw [tk1Cs, access, syscall, Bool.eq_iff_iff, decide_eq_true_iff]
      simp only [Bool.and_eq_true, decide_eq_true_eq, bne_iff_ne,
        Bool.not_eq_true']
      constructor
      · rintro ⟨⟨⟨⟨isTk1, writes⟩, low⟩, high⟩, mode⟩
        exact ⟨⟨⟨isTk1, low, high⟩, writes⟩, mode⟩
      · rintro ⟨⟨⟨isTk1, low, high⟩, writes⟩, mode⟩
        exact ⟨⟨⟨⟨isTk1, writes⟩, low⟩, high⟩, mode⟩
    show (if (whole.bus.tk1.api
        (whole.bus.tk1Ports (whole.cycle bits pins))).cdiMemWe then
      Function.update whole.bus.tk1.cdiMem pins.access.cdiIndex
        pins.access.cpuWdata
      else whole.bus.tk1.cdiMem) = _
    rw [writes, access]
    exact if_congr decide_eq_true_iff rfl rfl
  · show (pins.cpuValid && pins.access.cpuInstr &&
        decide (fwRomLast < pins.access.cpuAddr) ||
          whole.bus.tk1.fwStartupDoneReg) = _
    rw [valid, access, Bool.true_and]
    rfl

/-- An access to a memory does nothing here but to end the startup. -/
theorem KeyRegisters.after_of_memory
    (registers : KeyRegisters)
    (isMemory : CodeMemory (decodeAddr request.access.cpuAddr)) :
    registers.after request =
      { registers with
        fwStartupDone :=
          Memories.fetchesAboveRom request || registers.fwStartupDone } := by
  have notUds : ¬ request.access.ToUds := by
    intro toUds
    rw [toUds] at isMemory
    cases isMemory
  have notCdi : ¬ request.access.WritesCdi := by
    intro writes
    rw [writes.1.1] at isMemory
    cases isMemory
  rw [after, if_neg fun both => notUds both.1, if_neg fun both => notCdi both.1]

/-- The second cycle of an access to a memory changes nothing. -/
theorem KeyRegisters.after_after
    (registers : KeyRegisters)
    (isMemory : CodeMemory (decodeAddr request.access.cpuAddr)) :
    (registers.after request).after request = registers.after request := by
  rw [after_of_memory _ isMemory, after_of_memory _ isMemory]
  apply KeyRegisters.ext
  · rfl
  · rfl
  · rw [← Bool.or_assoc, Bool.or_self]

/-- A read of the UDS or the CDI. -/
theorem readData_keyRegisters
    (bits : WholeBitstream)
    (requested : pins.busRequest = some request)
    (notReady : whole.bus.muxedReadyReg = false)
    (notTrapped : ¬ whole.Trapped)
    (reads : request.access.cpuWstrb = 0)
    {word : BitVec 32}
    (isAnswer : word ∈ whole.keyRegisters.answer bits request) :
    (whole.answerTo bits pins).readData = word := by
  have selected := selected_of_busRequest requested notReady notTrapped
  obtain ⟨valid, access, syscall⟩ := Pins.of_busRequest requested
  rw [KeyRegisters.answer] at isAnswer
  by_cases toUds : request.access.ToUds
  · rw [if_pos toUds] at isAnswer
    have given :
        (whole.answerTo bits pins).readData =
          if whole.bus.uds.udsRdWe
              (whole.bus.udsPorts (whole.cycle bits pins)) then
            bits.uds request.access.udsAddress
          else
            0 := by
      rw [← access]
      exact muxedRdata_uds bits.toBitstream whole.bus (by
        show decodeAddr pins.access.cpuAddr = _
        rw [access]
        exact toUds)
    have readNow :
        whole.bus.uds.udsRdWe (whole.bus.udsPorts (whole.cycle bits pins)) =
          (!whole.bus.tk1.fwStartupDoneReg &&
            !whole.bus.uds.udsRdReg request.access.udsAddress) := by
      have cs :
          (whole.bus.selected (whole.cycle bits pins) == some .uds) = true := by
        rw [WholeFpga.selected_cycle, selected, toUds]
        rfl
      rw [Uds.udsRdWe, ApplicationFpga.udsPorts, cs, ← access, Bool.true_and]
      rfl
    rw [given, readNow]
    split at isAnswer
    case isTrue unread =>
      obtain ⟨notDone, notRead⟩ := unread
      obtain rfl := Option.some.inj isAnswer
      refine if_pos ?_
      rw [Bool.and_eq_true, Bool.not_eq_true', Bool.not_eq_true']
      exact ⟨notDone, notRead⟩
    case isFalse closed =>
      obtain rfl := Option.some.inj isAnswer
      refine if_neg ?_
      rw [Bool.and_eq_true, Bool.not_eq_true', Bool.not_eq_true']
      exact closed
  · rw [if_neg toUds] at isAnswer
    split at isAnswer
    case isFalse => cases isAnswer
    case isTrue toCdi =>
      obtain rfl := Option.some.inj isAnswer
      rw [WholeFpga.answerTo, ApplicationFpga.muxedNew,
        WholeFpga.selected_cycle, selected, toCdi.1]
      show whole.bus.tk1.readData bits.udi
        (whole.bus.tk1Ports (whole.cycle bits pins)) = _
      have cs : (whole.bus.tk1Ports (whole.cycle bits pins)).cs = true := by
        show (whole.bus.selected (whole.cycle bits pins) == some .tk1) = true
        rw [WholeFpga.selected_cycle, selected, toCdi.1]
        rfl
      have noWrite :
          (whole.bus.tk1Ports (whole.cycle bits pins)).we = false := by
        show (pins.access.cpuWstrb != 0) = false
        rw [access, reads]
        rfl
      have address :
          (whole.bus.tk1Ports (whole.cycle bits pins)).address =
            cdiAddress request.access.cdiIndex := by
        show pins.access.tk1Register = _
        rw [access, cdiAddress_iff]
        exact ⟨toCdi.2, rfl⟩
      exact Tk1.readData_cdi cs noWrite address _ _

end Step

section Service

variable {whole : WholeFpga bram spram}
variable {pins : Pins}
variable {request : BusRequest}
variable {registers : KeyRegisters}
variable {bits : WholeBitstream}

/-- A state in which the bus waits for an access, or for a memory. -/
def KeysWait
    (bits : WholeBitstream)
    (registers : KeyRegisters) :
    Option BusRequest → WholeFpga bram spram → Prop
  | none, whole => whole.Rested ∧ whole.keyRegisters = registers
  | some request, whole =>
      (∃ memories, Opened bits memories request whole) ∧
        whole.keyRegisters = registers.after request

/-- A state in which an access was answered. -/
structure KeysAnswered
    (registers : KeyRegisters)
    (request : BusRequest)
    (response : BitVec 32)
    (whole : WholeFpga bram spram) : Prop where
  ready : whole.bus.muxedReadyReg = true
  response : whole.bus.muxedRdataReg = response
  holds : whole.keyRegisters = registers
  fetched :
    Memories.fetchesAboveRom request = true → registers.fwStartupDone = true

/-- Nothing happens in a cycle in which nothing is selected. -/
theorem keysWait_clock
    (answered : pins.request = none ∨ whole.bus.muxedReadyReg = true)
    (fetched :
      (pins.cpuValid && pins.access.cpuInstr &&
          decide (fwRomLast < pins.access.cpuAddr)) = true →
        whole.bus.tk1.fwStartupDoneReg = true) :
    KeysWait bits whole.keyRegisters none (whole.clock bits pins) := by
  refine ⟨rested_clock bits answered, ?_⟩
  rw [keyRegisters_clock_of_none bits (WholeFpga.selected_eq_none answered)]
  apply KeyRegisters.ext <;> try rfl
  show (_ || whole.bus.tk1.fwStartupDoneReg) = whole.bus.tk1.fwStartupDoneReg
  cases fetches :
      pins.cpuValid && pins.access.cpuInstr &&
        decide (fwRomLast < pins.access.cpuAddr) with
  | false => exact Bool.false_or _
  | true => rw [fetched fetches, Bool.or_self]

/-- At the end of a cycle in which a core answers. -/
theorem keysAnswered_clock
    (holds : (whole.clock bits pins).keyRegisters = registers.after request)
    (ready : (whole.answerTo bits pins).ready = true) :
    KeysAnswered (registers.after request) request
      (whole.answerTo bits pins).readData (whole.clock bits pins) where
  ready := ready
  response := rfl
  holds := holds
  fetched fetches := by
    rw [KeyRegisters.after, fetches]
    rfl

/-- A read of a memory tells nothing about the UDS and the CDI. -/
theorem KeyRegisters.answer_of_memory
    (isMemory : CodeMemory (decodeAddr request.access.cpuAddr)) :
    registers.answer bits request = none := by
  have notUds : ¬ request.access.ToUds := by
    intro toUds
    rw [toUds] at isMemory
    cases isMemory
  have notCdi : ¬ request.access.ToCdi := by
    intro toCdi
    rw [toCdi.1] at isMemory
    cases isMemory
  rw [answer, if_neg notUds, if_neg notCdi]

/-- The first cycle of an access, and the only one unless it is to a memory. -/
theorem keys_work
    (documented : bram.Documented)
    (rested : whole.Rested)
    (requested : pins.busRequest = some request)
    (notTrapped : ¬ whole.Trapped) :
    KeysWait bits whole.keyRegisters (some request) (whole.clock bits pins) ∨
      ∃ response next,
        KeyRegisters.Serve bits whole.keyRegisters request response next ∧
          KeysAnswered next request response (whole.clock bits pins) := by
  have clocked := keyRegisters_clock bits requested rested.bus notTrapped
  by_cases isMemory : CodeMemory (decodeAddr request.access.cpuAddr)
  · left
    exact
      ⟨⟨_, opened_clock documented rested notTrapped requested isMemory⟩,
        clocked⟩
  · right
    have selected := selected_of_busRequest requested rested.bus notTrapped
    exact
      ⟨_, _,
        ⟨rfl, fun reads word isAnswer =>
          readData_keyRegisters bits requested rested.bus notTrapped reads
            isAnswer⟩,
        keysAnswered_clock clocked (ready_of_not_memory selected isMemory)⟩

/-- The bus serves accesses to the UDS and the CDI one after the other. -/
theorem keyRegisters_services
    (documented : bram.Documented)
    (bits : WholeBitstream) :
    (memoryBus bram spram bits).Services (KeyRegisters.Serve bits)
      (fun whole => ¬ whole.Trapped) (KeysWait bits) KeysAnswered where
  earlier whole pins lives trapped := lives (trapped_clock bits pins trapped)
  notReady {registers pending whole} waiting := by
    cases pending with
    | none => exact waiting.1.bus
    | some request =>
        obtain ⟨⟨memories, opened⟩, -⟩ := waiting
        exact opened.notReady
  ready answered := ⟨answered.ready, answered.response⟩
  quiet {registers whole pins} waiting none _ := by
    obtain ⟨-, rfl⟩ := waiting
    apply keysWait_clock (.inl (Pins.request_of_busRequest none))
    intro fetches
    cases valid : pins.cpuValid with
    | false =>
        rw [valid] at fetches
        cases fetches
    | true =>
        have none : pins.busRequest = Option.none := none
        rw [Pins.busRequest, valid] at none
        cases none
  work {registers pending whole pins request} waiting same requested lives := by
    have livesNow : ¬ whole.Trapped := fun trapped =>
      lives (trapped_clock bits pins trapped)
    cases pending with
    | none =>
        obtain ⟨rested, rfl⟩ := waiting
        exact keys_work documented rested requested livesNow
    | some earlier =>
        obtain rfl := same earlier rfl
        obtain ⟨⟨memories, opened⟩, holds⟩ := waiting
        have clocked :=
          keyRegisters_clock bits requested opened.notReady livesNow
        rw [holds, registers.after_after opened.isMemory] at clocked
        refine .inr ⟨_, _, ⟨rfl, fun _ word isAnswer => ?_⟩,
          keysAnswered_clock clocked (opened.ready pins requested livesNow)⟩
        rw [KeyRegisters.answer_of_memory opened.isMemory] at isAnswer
        cases isAnswer
  rest {registers request response whole pins} answered requested _ := by
    obtain ⟨valid, access, -⟩ := Pins.of_busRequest requested
    have holds := answered.holds
    subst holds
    apply keysWait_clock (.inr answered.ready)
    intro fetches
    rw [valid, Bool.true_and, access] at fetches
    exact answered.fetched fetches

end Service

end TKey.Fpga
