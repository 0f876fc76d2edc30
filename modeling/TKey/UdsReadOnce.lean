import TKey.ApplicationFpga
import TKey.Lib.Handshake

namespace TKey.Fpga

open HandshakePort

/-!
# The UDS is read once

Between two resets each word of the UDS is delivered to the CPU at most once,
and none is delivered after an instruction above ROM was fetched.
-/

variable {bram : BlockRam}

section Bus

/-- The access of the CPU in a cycle. -/
def Cycle.request (cycle : Cycle) : Option Access :=
  if cycle.cpuValid then some cycle.access else none

/-- Only an access that is not answered yet is answered. -/
theorem ApplicationFpga.answers_open
    (bits : Bitstream)
    (fpga : ApplicationFpga bram)
    (cycle : Cycle)
    (ready : (fpga.clock bits cycle).muxedReadyReg = true) :
    fpga.muxedReadyReg = false ∧ cycle.request.isSome = true := by
  rw [ApplicationFpga.clock, ApplicationFpga.muxedNew] at ready
  cases isOpen : cycle.cpuValid && !fpga.muxedReadyReg with
  | false =>
      have none : fpga.selected cycle = none := by
        simp only [ApplicationFpga.selected, isOpen, Bool.false_eq_true,
          if_false]
      rw [none] at ready
      exact absurd ready Bool.false_ne_true
  | true =>
      obtain ⟨valid, notReady⟩ := (Bool.and_eq_true _ _).mp isOpen
      rw [Cycle.request, if_pos valid]
      exact ⟨(Bool.not_eq_true' _).mp notReady, rfl⟩

/-- The bus, as the CPU sees it. -/
def bus (bram : BlockRam) (bits : Bitstream) :
    HandshakePort (ApplicationFpga bram) Cycle Access (BitVec 32) where
  clock := ApplicationFpga.clock bits
  request := Cycle.request
  ready := ApplicationFpga.muxedReadyReg
  response := ApplicationFpga.muxedRdataReg
  answers_open := ApplicationFpga.answers_open bits

end Bus

section Access

/-- An access to an address of the UDS core. -/
def Access.ToUds (access : Access) : Prop :=
  decodeAddr access.cpuAddr = .uds

instance (access : Access) : Decidable access.ToUds :=
  inferInstanceAs (Decidable (_ = _))

/-- The word of the UDS that an access addresses. -/
def Access.udsAddress (access : Access) : BitVec 3 :=
  access.cpuAddr.extractLsb' 2 3

/-- The fetch of an instruction from an address above the ROM. -/
def Access.FetchesAboveRom (access : Access) : Prop :=
  access.cpuInstr = true ∧ fwRomLast < access.cpuAddr

/-- What is delivered for an access to one word of the UDS. -/
def readOfWord (index : BitVec 3) (delivery : Access × BitVec 32) :
    Option (BitVec 32) :=
  if delivery.1.ToUds ∧ delivery.1.udsAddress = index then
    some delivery.2
  else
    none

/-- A delivery without what is delivered for an access to the UDS. -/
def withoutUds (delivery : Access × BitVec 32) : Access × Option (BitVec 32) :=
  (delivery.1, if delivery.1.ToUds then none else some delivery.2)

end Access

section Step

/-- The UDS core does not give a word any more. -/
def Closed (index : BitVec 3) (fpga : ApplicationFpga bram) : Prop :=
  fpga.tk1.fwStartupDoneReg = true ∨ fpga.uds.udsRdReg index = true

/-- The instructions are fetched from app RAM once the startup is done. -/
theorem fwStartupDone_clock
    (bits : Bitstream)
    (fpga : ApplicationFpga bram)
    (cycle : Cycle)
    (done : fpga.tk1.fwStartupDoneReg = true) :
    (fpga.clock bits cycle).tk1.fwStartupDoneReg = true := by
  rw [ApplicationFpga.clock, Tk1.clock]
  simp only [done, Bool.or_true]

/-- The mark of a word at a clock edge. -/
theorem Uds.udsRdReg_clock
    (uds : Uds)
    (ports : Uds.Ports)
    (index : BitVec 3) :
    (uds.clock ports).udsRdReg index =
      ((uds.udsRdWe ports && index == ports.address) ||
        uds.udsRdReg index) := by
  have register :
      (uds.clock ports).udsRdReg =
        if uds.udsRdWe ports then
          Function.update uds.udsRdReg ports.address true
        else
          uds.udsRdReg :=
    rfl
  rw [register]
  by_cases reads : uds.udsRdWe ports = true
  · rw [if_pos reads, reads, Function.update_apply, Bool.true_and]
    by_cases here : index = ports.address
    · rw [if_pos here, beq_iff_eq.mpr here, Bool.true_or]
    · rw [if_neg here, beq_false_of_ne here, Bool.false_or]
  · rw [if_neg reads, Bool.eq_false_iff.mpr reads, Bool.false_and,
      Bool.false_or]

/-- A word that was read stays read. -/
theorem udsRdReg_clock
    (bits : Bitstream)
    (index : BitVec 3)
    (fpga : ApplicationFpga bram)
    (cycle : Cycle)
    (isRead : fpga.uds.udsRdReg index = true) :
    (fpga.clock bits cycle).uds.udsRdReg index = true := by
  rw [ApplicationFpga.clock, Uds.udsRdReg_clock, isRead, Bool.or_true]

theorem closed_clock
    (bits : Bitstream)
    (index : BitVec 3)
    (fpga : ApplicationFpga bram)
    (cycle : Cycle)
    (closed : Closed index fpga) :
    Closed index (fpga.clock bits cycle) :=
  closed.imp (fwStartupDone_clock bits fpga cycle)
    (udsRdReg_clock bits index fpga cycle)

/-- A word is read only before the startup is done, and only once. -/
theorem not_closed_of_udsRdWe
    {fpga : ApplicationFpga bram}
    {cycle : Cycle}
    (reads : fpga.uds.udsRdWe (fpga.udsPorts cycle) = true) :
    ¬ Closed cycle.access.udsAddress fpga := by
  simp only [Uds.udsRdWe, Bool.and_eq_true, Bool.not_eq_true',
    ApplicationFpga.udsPorts] at reads
  obtain ⟨⟨_, notDone⟩, notRead⟩ := reads
  rintro (done | isRead)
  · exact absurd (notDone.symm.trans done) Bool.false_ne_true
  · exact absurd (notRead.symm.trans isRead) Bool.false_ne_true

/-- Reading a word marks it as read. -/
theorem closed_of_udsRdWe
    (bits : Bitstream)
    {fpga : ApplicationFpga bram}
    {cycle : Cycle}
    (reads : fpga.uds.udsRdWe (fpga.udsPorts cycle) = true) :
    Closed cycle.access.udsAddress (fpga.clock bits cycle) := by
  right
  rw [ApplicationFpga.clock, Uds.udsRdReg_clock, reads]
  simp [ApplicationFpga.udsPorts, Access.udsAddress]

/-- An access to the UDS is answered with the word that is read, or zero. -/
theorem muxedRdata_uds
    (bits : Bitstream)
    (fpga : ApplicationFpga bram)
    {cycle : Cycle}
    (toUds : cycle.access.ToUds) :
    (fpga.clock bits cycle).muxedRdataReg =
      if fpga.uds.udsRdWe (fpga.udsPorts cycle) then
        bits.uds cycle.access.udsAddress
      else
        0 := by
  have unread (other : fpga.selected cycle ≠ some .uds) :
      fpga.uds.udsRdWe (fpga.udsPorts cycle) = false := by
    rw [Uds.udsRdWe, ApplicationFpga.udsPorts, beq_false_of_ne other]
    rfl
  rw [ApplicationFpga.clock, ApplicationFpga.muxedNew]
  rcases fpga.selected_cases cycle with none | zero | decoded
  · rw [unread (by rw [none]; nofun), none]
    rfl
  · rw [unread (by rw [zero]; nofun), zero]
    rfl
  · rw [decoded, toUds]
    exact udsRom_eq bits.uds _ _

/-- An answer is that of the access of the cycle. -/
theorem answer_bus_eq
    (bits : Bitstream)
    (fpga : ApplicationFpga bram)
    (cycle : Cycle) :
    (bus bram bits).answer fpga cycle =
      if (fpga.clock bits cycle).muxedReadyReg = true ∧
          cycle.cpuValid = true then
        some (cycle.access, (fpga.clock bits cycle).muxedRdataReg)
      else
        none := by
  have request :
      (bus bram bits).request cycle =
        if cycle.cpuValid = true then some cycle.access else none :=
    rfl
  unfold HandshakePort.answer
  rw [request]
  by_cases valid : cycle.cpuValid = true
  · rw [if_pos valid, Option.map_some]
    exact if_congr (and_iff_left valid).symm rfl rfl
  · have neither :
        ¬((fpga.clock bits cycle).muxedReadyReg = true ∧
          cycle.cpuValid = true) :=
      fun both => valid both.2
    rw [if_neg valid, if_neg neither]
    exact ite_self none

theorem answer_bus
    {bits : Bitstream}
    {fpga : ApplicationFpga bram}
    {cycle : Cycle}
    {entry : Access × BitVec 32}
    (answered : (bus bram bits).answer fpga cycle = some entry) :
    cycle.cpuValid = true ∧
      entry = (cycle.access, (fpga.clock bits cycle).muxedRdataReg) := by
  rw [answer_bus_eq] at answered
  split_ifs at answered with answers
  exact ⟨answers.2, (Option.some.inj answered).symm⟩

/-- Each word is given once. -/
theorem givenOnce_bus (bits : Bitstream) (index : BitVec 3) :
    (bus bram bits).GivenOnce (Closed index) (readOfWord index)
      (bits.uds index) 0 := by
  intro fpga cycle entry value answered read
  obtain ⟨_, rfl⟩ := answer_bus answered
  unfold readOfWord at read
  split_ifs at read with toWord
  obtain ⟨toUds, rfl⟩ := toWord
  obtain rfl := Option.some.inj read
  rw [muxedRdata_uds bits fpga toUds]
  split_ifs with reads
  · exact
      .inr ⟨not_closed_of_udsRdWe reads, rfl, closed_of_udsRdWe bits reads⟩
  · exact .inl rfl

/-- Fetching an instruction above ROM ends the startup. -/
theorem fwStartupDone_of_fetch
    {bits : Bitstream}
    {fpga : ApplicationFpga bram}
    {cycle : Cycle}
    {entry : Access × BitVec 32}
    (answered : (bus bram bits).answer fpga cycle = some entry)
    (fetches : entry.1.FetchesAboveRom) :
    (fpga.clock bits cycle).tk1.fwStartupDoneReg = true := by
  obtain ⟨valid, rfl⟩ := answer_bus answered
  have instr : cycle.access.cpuInstr = true := fetches.1
  have above : fwRomLast < cycle.access.cpuAddr := fetches.2
  have set : (fpga.tk1Ports cycle).fwStartupDoneSet = true := by
    rw [Tk1.Ports.fwStartupDoneSet, ApplicationFpga.tk1Ports]
    simp only [valid, instr, decide_eq_true above, Bool.and_true]
  rw [ApplicationFpga.clock, Tk1.clock, set]
  rfl

/-- Once the startup is done an access to the UDS is answered with zero. -/
theorem zero_of_fwStartupDone
    {bits : Bitstream}
    {fpga : ApplicationFpga bram}
    {cycle : Cycle}
    {entry : Access × BitVec 32}
    (done : fpga.tk1.fwStartupDoneReg = true)
    (answered : (bus bram bits).answer fpga cycle = some entry)
    (toUds : entry.1.ToUds) :
    entry.2 = 0 := by
  obtain ⟨_, rfl⟩ := answer_bus answered
  rw [muxedRdata_uds bits fpga toUds]
  exact if_neg fun reads => not_closed_of_udsRdWe reads (.inl done)

/-- After a fetch above ROM an access to the UDS is answered with zero. -/
theorem zero_after_fetch
    {bits : Bitstream}
    {fpga : ApplicationFpga bram}
    {cycles : List Cycle}
    {before after : List (Access × BitVec 32)}
    {entry : Access × BitVec 32}
    (split :
      (bus bram bits).answers fpga cycles = before ++ entry :: after)
    (fetched :
      fpga.tk1.fwStartupDoneReg = true ∨
        ∃ fetch, fetch ∈ before ∧ fetch.1.FetchesAboveRom) :
    entry.1.ToUds → entry.2 = 0 :=
  restricted_of_closing (fwStartupDone_clock bits)
    (fun _ _ _ answered => fwStartupDone_of_fetch answered)
    (fun _ _ _ done answered => zero_of_fwStartupDone done answered)
    split fetched

end Step

section Secrecy

/-- The designs agree, but for the UDS and the word that is on the bus. -/
structure AgreeOnPublic (fpga fpga' : ApplicationFpga bram) : Prop where
  tk1 : fpga'.tk1 = fpga.tk1
  fwRam : fpga'.fwRam = fpga.fwRam
  uds : fpga'.uds = fpga.uds
  muxedReadyReg : fpga'.muxedReadyReg = fpga.muxedReadyReg

theorem AgreeOnPublic.selected
    {fpga fpga' : ApplicationFpga bram}
    (agree : AgreeOnPublic fpga fpga')
    (cycle : Cycle) :
    fpga'.selected cycle = fpga.selected cycle := by
  rw [ApplicationFpga.selected, ApplicationFpga.selected, agree.tk1,
    agree.muxedReadyReg]

/-- The answers of designs that agree differ at most for the UDS. -/
theorem AgreeOnPublic.muxedNew
    {fpga fpga' : ApplicationFpga bram}
    (agree : AgreeOnPublic fpga fpga')
    (bits : Bitstream)
    (uds : BitVec 3 → BitVec 32)
    (cycle : Cycle) :
    (fpga'.muxedNew { bits with uds := uds } cycle).ready =
        (fpga.muxedNew bits cycle).ready ∧
      (¬ cycle.access.ToUds →
        (fpga'.muxedNew { bits with uds := uds } cycle).readData =
          (fpga.muxedNew bits cycle).readData) := by
  have select := agree.selected cycle
  obtain ⟨tk1, fwRam, uds', muxedReadyReg⟩ := agree
  unfold ApplicationFpga.muxedNew ApplicationFpga.tk1Ports
    ApplicationFpga.fwRamPorts ApplicationFpga.udsPorts
    ApplicationFpga.appMode
  rw [select, tk1, fwRam, uds']
  rcases fpga.selected_cases cycle with none | zero | decoded
  · rw [none]
    exact ⟨rfl, fun _ => rfl⟩
  · rw [zero]
    exact ⟨rfl, fun _ => rfl⟩
  · rw [decoded]
    cases decode : decodeAddr cycle.access.cpuAddr with
    | uds => exact ⟨rfl, fun other => absurd decode other⟩
    | other core => exact ⟨rfl, fun _ => rfl⟩
    | fwRam => exact ⟨rfl, fun _ => rfl⟩
    | syscall => exact ⟨rfl, fun _ => rfl⟩
    | tk1 => exact ⟨rfl, fun _ => rfl⟩
    | zero => exact ⟨rfl, fun _ => rfl⟩

/-- The UDS does not influence anything but the word on the bus. -/
theorem simulates_bus (bits : Bitstream) (uds : BitVec 3 → BitVec 32) :
    Simulates (bus bram bits) (bus bram { bits with uds := uds })
      AgreeOnPublic where
  request _ := rfl
  ready _ _ agree := agree.muxedReadyReg
  clock fpga fpga' cycle agree :=
    { tk1 := by
        show fpga'.tk1.clock (fpga'.tk1Ports cycle) = _
        rw [ApplicationFpga.tk1Ports, agree.selected cycle, agree.tk1]
        rfl
      fwRam := by
        show fpga'.fwRam.clock (fpga'.fwRamPorts cycle) = _
        rw [ApplicationFpga.fwRamPorts, ApplicationFpga.appMode,
          agree.selected cycle, agree.tk1, agree.fwRam]
        rfl
      uds := by
        show fpga'.uds.clock (fpga'.udsPorts cycle) = _
        rw [ApplicationFpga.udsPorts, agree.selected cycle, agree.tk1,
          agree.uds]
        rfl
      muxedReadyReg := (agree.muxedNew bits uds cycle).1 }

/-- Without what is delivered for the UDS, the same is answered. -/
theorem answer_withoutUds
    (bits : Bitstream)
    (uds : BitVec 3 → BitVec 32)
    (fpga fpga' : ApplicationFpga bram)
    (cycle : Cycle)
    (agree : AgreeOnPublic fpga fpga') :
    ((bus bram { bits with uds := uds }).answer fpga' cycle).map withoutUds =
      ((bus bram bits).answer fpga cycle).map withoutUds := by
  obtain ⟨ready, readData⟩ := agree.muxedNew bits uds cycle
  have sameReady :
      (fpga'.clock { bits with uds := uds } cycle).muxedReadyReg =
        (fpga.clock bits cycle).muxedReadyReg :=
    ready
  have sameRest :
      withoutUds
          (cycle.access,
            (fpga'.clock { bits with uds := uds } cycle).muxedRdataReg) =
        withoutUds (cycle.access, (fpga.clock bits cycle).muxedRdataReg) := by
    unfold withoutUds
    by_cases toUds : cycle.access.ToUds
    · rw [if_pos toUds, if_pos toUds]
    · have sameData :
          (fpga'.clock { bits with uds := uds } cycle).muxedRdataReg =
            (fpga.clock bits cycle).muxedRdataReg :=
        readData toUds
      rw [sameData]
  rw [answer_bus_eq, answer_bus_eq, sameReady]
  by_cases answers :
      (fpga.clock bits cycle).muxedReadyReg = true ∧ cycle.cpuValid = true
  · rw [if_pos answers, if_pos answers, Option.map_some, Option.map_some,
      sameRest]
  · rw [if_neg answers, if_neg answers]

end Secrecy

section ReadOnce

/-- What holds of the responses that the CPU takes, one after another. -/
structure ReadOnce
    (bits : Bitstream)
    (deliveries : List (Access × BitVec 32)) : Prop where
  /-- Apart from zeros each word of the UDS is delivered at most once. -/
  once :
    ∀ index,
      ((deliveries.filterMap (readOfWord index)).filter
        (· ≠ 0)).Sublist [bits.uds index]
  /-- After a fetch above ROM an access to the UDS delivers zero. -/
  closed :
    ∀ before access value after,
      deliveries = before ++ (access, value) :: after →
      (∃ fetch, fetch ∈ before ∧ fetch.1.FetchesAboveRom) →
      access.ToUds →
      value = 0

/--
Between two resets the CPU, which holds each access until it is answered, gets
each word of the UDS at most once, gets none after it has fetched an
instruction above ROM, and reads zero otherwise.  No other access tells
anything about the UDS.
-/
theorem uds_read_once
    (bits : Bitstream)
    (before : ApplicationFpga bram)
    {cycles : List Cycle}
    (held : (bus bram bits).Held (before.reset bits) cycles) :
    ReadOnce bits ((bus bram bits).deliveries (before.reset bits) cycles) ∧
      ∀ uds : BitVec 3 → BitVec 32,
        ((bus bram { bits with uds := uds }).deliveries
          (before.reset { bits with uds := uds }) cycles).map withoutUds =
          ((bus bram bits).deliveries (before.reset bits) cycles).map
            withoutUds := by
  have notReady : (bus bram bits).ready (before.reset bits) = false := rfl
  refine ⟨⟨?_, ?_⟩, ?_⟩
  · intro index
    rw [deliveries_eq_answers notReady held]
    exact
      (givenOnce_bus bits index).sublist (closed_clock bits index) _ _
  · intro earlier access value after split fetched toUds
    rw [deliveries_eq_answers notReady held] at split
    exact zero_after_fetch split (.inr fetched) toUds
  · intro uds
    have agree :
        AgreeOnPublic (before.reset bits)
          (before.reset { bits with uds := uds }) :=
      ⟨rfl, rfl, rfl, rfl⟩
    exact
      (simulates_bus bits uds).deliveries (answer_withoutUds bits uds) agree
        notReady held

/-- The first word of the UDS is read twice. -/
def readTwice : List Cycle :=
  List.replicate 4 (.of (.load 0xc2000000) false)

theorem uds_read_once_sample :
    ReadOnce .counting
        ((bus .masked .counting).deliveries
          (ApplicationFpga.blank.reset .counting) readTwice) ∧
      ∀ uds : BitVec 3 → BitVec 32,
        ((bus .masked { Bitstream.counting with uds := uds }).deliveries
          (ApplicationFpga.blank.reset { Bitstream.counting with uds := uds })
            readTwice).map withoutUds =
          ((bus .masked .counting).deliveries
            (ApplicationFpga.blank.reset .counting) readTwice).map
              withoutUds :=
  uds_read_once .counting .blank
    ⟨fun _ _ => rfl, fun _ _ => rfl, fun _ _ => rfl, trivial⟩

/-- The second read gets zero. -/
example :
    ((bus .masked .counting).deliveries
      (ApplicationFpga.blank.reset .counting) readTwice).map Prod.snd =
      [1, 0] := by
  decide +kernel

end ReadOnce

end TKey.Fpga
