import TKey.Lib.SpiSlave
import TKey.SpiDriver

namespace TKey.Fpga

open SpiWires

/-!
# A slave on the SPI bus of TK1

The driver of `SpiDriver` on a bus where a slave drives MISO.  The selection,
the clock and MOSI do not depend on MISO, so the surroundings can be given
without it, and the slave fills it in.
-/

section Blind

/-- The SPI master without what has come in over MISO. -/
def SpiMaster.blind (spi : SpiMaster) : SpiMaster :=
  { spi with
    spiMisoSampleReg := false
    spiRxDataReg := 0 }

/-- The core without what has come in over MISO. -/
def Tk1.blind (tk1 : Tk1) : Tk1 :=
  { tk1 with spiMaster := tk1.spiMaster.blind }

/-- The ports with another bit on MISO. -/
def Tk1.Ports.withMiso (ports : Tk1.Ports) (miso : Bool) : Tk1.Ports :=
  { ports with spiMiso := miso }

/-- The surroundings with other bits on MISO. -/
def Surroundings.withMiso
    (env : Surroundings)
    (miso : Nat → Bool) : Surroundings :=
  { env with ports := fun cycle => (env.ports cycle).withMiso (miso cycle) }

theorem SpiMaster.blind_clock (spi : SpiMaster) (ports : SpiMaster.Ports) :
    (spi.clock ports).blind =
      (spi.blind.clock { ports with spiMiso := false }).blind := by
  cases spi with
  | mk sample ss csk tx rx ready bitCtr ctrl =>
      cases ctrl <;> rfl

theorem Tk1.blind_clock (tk1 : Tk1) (ports : Tk1.Ports) :
    (tk1.clock ports).blind = (tk1.blind.clock (ports.withMiso false)).blind := by
  have master :
      ((tk1.clock ports).spiMaster).blind =
        ((tk1.blind.clock (ports.withMiso false)).spiMaster).blind :=
    SpiMaster.blind_clock ..
  show { tk1.clock ports with spiMaster := (tk1.clock ports).spiMaster.blind } =
    { tk1.blind.clock (ports.withMiso false) with
      spiMaster := (tk1.blind.clock (ports.withMiso false)).spiMaster.blind }
  rw [master]
  rfl

end Blind

section Alike

namespace SpiBus

variable {env : Surroundings} {miso : Nat → Bool} {first : Tk1}
variable {bus bus' : SpiBus}

/--
Two buses that differ in what has come in over MISO, some time after they had
the same core.
-/
structure Alike
    (env : Surroundings)
    (miso : Nat → Bool)
    (first : Tk1)
    (bus bus' : SpiBus) : Prop where
  /-- Nothing but its surroundings ends the firmware's startup. -/
  startup :
    (∀ cycle, (env.ports cycle).fwStartupDoneSet = false) →
      first.fwStartupDoneReg = false →
        bus.tk1.fwStartupDoneReg = false
  tk1 : bus.tk1.blind = bus'.tk1.blind
  accesses : bus.accesses = bus'.accesses
  trace : bus'.trace = SpiWires.withMiso miso bus.trace

theorem Alike.length (alike : Alike env miso first bus bus') :
    bus'.trace.length = bus.trace.length := by
  rw [alike.trace, length_withMiso]

/-- A cycle, with the same on all other ports. -/
theorem Alike.tick
    (alike : Alike env miso first bus bus')
    {ports : Tk1.Ports}
    (gives : env.Gives ports) :
    Alike env miso first (bus.tick ports)
      (bus'.tick (ports.withMiso (miso bus'.trace.length))) where
  startup never notDone := by
    obtain ⟨cycle, -, set⟩ := gives
    show (ports.fwStartupDoneSet || bus.tk1.fwStartupDoneReg) = false
    rw [set, never, alike.startup never notDone]
    rfl
  tk1 := by
    show (bus.tk1.clock ports).blind = (bus'.tk1.clock _).blind
    rw [Tk1.blind_clock, Tk1.blind_clock bus'.tk1, alike.tk1]
    rfl
  accesses := alike.accesses
  trace := by
    have master : bus.tk1.spiMaster.blind = bus'.tk1.spiMaster.blind :=
      congrArg Tk1.spiMaster alike.tk1
    have wires (first second : Bool) :
        bus'.tk1.spiMaster.wires second =
          { bus.tk1.spiMaster.wires first with miso := second } := by
      show (bus'.tk1.spiMaster.blind).wires second =
        { (bus.tk1.spiMaster.blind).wires first with miso := second }
      rw [master]
      rfl
    show bus'.trace ++ [bus'.tk1.spiMaster.wires (miso bus'.trace.length)] =
      SpiWires.withMiso miso
        (bus.trace ++ [bus.tk1.spiMaster.wires ports.spiMiso])
    rw [withMiso_concat, wires ports.spiMiso, ← alike.trace, alike.length]

/-- What is on the ports now is the same but for MISO. -/
theorem Alike.now (alike : Alike env miso first bus bus') :
    bus'.now (env.withMiso miso) =
      (bus.now env).withMiso (miso bus'.trace.length) := by
  show (env.ports bus'.trace.length).withMiso _ = (env.ports _).withMiso _
  rw [alike.length]

theorem Alike.pause (alike : Alike env miso first bus bus') (cycles : Nat) :
    Alike env miso first (pause env cycles bus)
      (SpiBus.pause (env.withMiso miso) cycles bus') := by
  induction cycles generalizing bus bus' with
  | zero => exact alike
  | succ cycles inductionHypothesis =>
      apply inductionHypothesis
      rw [alike.now]
      exact alike.tick bus.gives_noAccess

theorem Alike.approach (alike : Alike env miso first bus bus') :
    Alike env miso first (bus.approach env) (bus'.approach (env.withMiso miso)) := by
  have paused := alike.pause (env.gap bus.accesses)
  refine ⟨paused.startup, ?_, congrArg (· + 1) alike.accesses, ?_⟩
  · show (SpiBus.pause env (env.gap bus.accesses) bus).tk1.blind =
      (SpiBus.pause (env.withMiso miso) (env.gap bus'.accesses) bus').tk1.blind
    rw [← alike.accesses]
    exact paused.tk1
  · show (SpiBus.pause (env.withMiso miso) (env.gap bus'.accesses) bus').trace =
      _
    rw [← alike.accesses]
    exact paused.trace

theorem Alike.write
    (alike : Alike env miso first bus bus')
    (address : BitVec 8)
    (writeData : BitVec 32) :
    Alike env miso first (bus.write env address writeData)
      (bus'.write (env.withMiso miso) address writeData) := by
  have there := alike.approach
  rw [SpiBus.write, SpiBus.write, there.now]
  exact there.tick ((bus.approach env).gives_writing address writeData)

theorem Alike.read
    (alike : Alike env miso first bus bus')
    (address : BitVec 8) :
    Alike env miso first (bus.read env address).2
      (bus'.read (env.withMiso miso) address).2 := by
  have there := alike.approach
  rw [SpiBus.read, SpiBus.read, there.now]
  exact there.tick ((bus.approach env).gives_reading address)

/-- A poll reads the same. -/
theorem Alike.spiReady (alike : Alike env miso first bus bus') :
    (bus.spiReady env).1 = (bus'.spiReady (env.withMiso miso)).1 ∧
      Alike env miso first (bus.spiReady env).2
        (bus'.spiReady (env.withMiso miso)).2 := by
  have there := alike.approach
  refine ⟨?_, alike.read addrSpiXfer⟩
  show ((bus.read env addrSpiXfer).1 != 0) =
    ((bus'.read (env.withMiso miso) addrSpiXfer).1 != 0)
  have same :
      (bus.read env addrSpiXfer).1 =
        (bus'.read (env.withMiso miso) addrSpiXfer).1 := by
    rw [SpiBus.read, SpiBus.read, there.now]
    show
      (bus.approach env).tk1.blind.readData env.udi
          (((bus.approach env).now env).reading addrSpiXfer) =
        (bus'.approach (env.withMiso miso)).tk1.blind.readData env.udi
          (((bus.approach env).now env).reading addrSpiXfer)
    rw [there.tk1]
  rw [same]

/-- Both runs end alike, or none of them ends. -/
def AlikeEnds
    (env : Surroundings)
    (miso : Nat → Bool)
    (first : Tk1) : Option SpiBus → Option SpiBus → Prop :=
  Option.Rel (Alike env miso first)

/-- Both runs end alike, with results that may differ, or none of them ends. -/
def AlikeResults
    {Result : Type}
    (env : Surroundings)
    (miso : Nat → Bool)
    (first : Tk1) :
    Option (Result × SpiBus) → Option (Result × SpiBus) → Prop :=
  Option.Rel fun result result' =>
    Alike env miso first result.2 result'.2

/-- What goes on alike from ends that are alike. -/
private theorem rel_bind
    {First Second First' Second' : Type}
    {related : First → Second → Prop}
    {related' : First' → Second' → Prop}
    {first : Option First}
    {second : Option Second}
    {next : First → Option First'}
    {next' : Second → Option Second'}
    (ends : Option.Rel related first second)
    (goesOn :
      ∀ result result', related result result' →
        Option.Rel related' (next result) (next' result')) :
    Option.Rel related' (first.bind next) (second.bind next') := by
  cases ends with
  | some holds => exact goesOn _ _ holds
  | none => exact .none

theorem Alike.awaitReady
    (alike : Alike env miso first bus bus')
    (polls : Nat) :
    AlikeEnds env miso first (bus.awaitReady env polls)
      (bus'.awaitReady (env.withMiso miso) polls) := by
  induction polls generalizing bus bus' with
  | zero => exact .none
  | succ polls inductionHypothesis =>
      obtain ⟨same, there⟩ := alike.spiReady
      rw [SpiBus.awaitReady, SpiBus.awaitReady]
      show
        Option.Rel _
          (if (bus.spiReady env).1 then some (bus.spiReady env).2 else _)
          (if (bus'.spiReady (env.withMiso miso)).1 then
            some (bus'.spiReady (env.withMiso miso)).2
          else _)
      rw [← same]
      cases (bus.spiReady env).1 with
      | true => exact .some there
      | false => exact inductionHypothesis there

theorem Alike.exchange
    (alike : Alike env miso first bus bus')
    (byte : BitVec 8) :
    Alike env miso first (bus.exchange env byte)
      (bus'.exchange (env.withMiso miso) byte) :=
  (alike.write addrSpiData (byte.setWidth 32)).write addrSpiXfer 1

theorem Alike.spiWrite
    (alike : Alike env miso first bus bus')
    (polls : Nat)
    (cmd : List (BitVec 8)) :
    AlikeEnds env miso first (bus.spiWrite env polls cmd)
      (bus'.spiWrite (env.withMiso miso) polls cmd) := by
  induction cmd generalizing bus bus' with
  | nil => exact alike.awaitReady polls
  | cons byte cmd inductionHypothesis =>
      exact rel_bind (alike.awaitReady polls) fun _ _ there =>
        inductionHypothesis (there.exchange byte)

theorem Alike.spiReadLoop
    (alike : Alike env miso first bus bus')
    (polls size : Nat) :
    AlikeResults env miso first (bus.spiReadLoop env polls size)
      (bus'.spiReadLoop (env.withMiso miso) polls size) := by
  induction size generalizing bus bus' with
  | zero => exact .some alike
  | succ size inductionHypothesis =>
      refine rel_bind ((alike.exchange 0x00).awaitReady polls)
        fun _ _ there => ?_
      exact rel_bind (inductionHypothesis (there.read addrSpiData))
        fun _ _ later => .some later

theorem Alike.spiRead
    (alike : Alike env miso first bus bus')
    (polls size : Nat) :
    AlikeResults env miso first (bus.spiRead env polls size)
      (bus'.spiRead (env.withMiso miso) polls size) :=
  rel_bind (alike.awaitReady polls) fun _ _ there =>
    there.spiReadLoop polls size

/-- A transfer does the same on the wires, whatever comes in over MISO. -/
theorem Alike.spiTransfer
    (alike : Alike env miso first bus bus')
    (polls : Nat)
    (cmd tx : List (BitVec 8))
    (rxSize : Nat) :
    AlikeResults env miso first (bus.spiTransfer env polls cmd tx rxSize)
      (bus'.spiTransfer (env.withMiso miso) polls cmd tx rxSize) := by
  rw [SpiBus.spiTransfer, SpiBus.spiTransfer]
  split
  case isTrue => exact .some alike
  case isFalse =>
    refine rel_bind ((alike.write addrSpiEn 1).spiWrite polls cmd)
      fun _ _ written => ?_
    have transmitted := written.spiWrite polls tx
    refine @rel_bind _ _ _ _ (Alike env miso first) _ _ _ _ _ ?_
      fun there there' sent => ?_
    · split
      case isTrue => exact .some written
      case isFalse => exact transmitted
    · have results :
          AlikeResults env miso first
            (if rxSize = 0 then some ([], there) else
              there.spiRead env polls rxSize)
            (if rxSize = 0 then some ([], there') else
              there'.spiRead (env.withMiso miso) polls rxSize) := by
        split
        case isTrue => exact .some sent
        case isFalse => exact sent.spiRead polls rxSize
      refine rel_bind results fun first second received => ?_
      obtain ⟨buf, bus1⟩ := first
      obtain ⟨buf', bus2⟩ := second
      have there : Alike env miso first bus1 bus2 := received
      exact .some (there.write addrSpiEn 0)

end SpiBus

end Alike

section Board

/-- The TK1 core and a slave on its SPI bus. -/
structure SpiBoard (State : Type) where
  tk1 : Tk1
  port : Port State
  /-- The transfers so far. -/
  transfers : Nat

/-- What does not depend on the firmware. -/
structure Wiring (State : Type) where
  slave : Slave State
  /-- What surrounds each transfer, apart from MISO. -/
  schedule : Nat → Surroundings
  /-- The polls of the SPI master after which a byte is given up. -/
  polls : Nat

namespace SpiBoard

variable {State : Type} (wiring : Wiring State)
variable (cmd tx : List (BitVec 8)) (rxSize : Nat)

/--
The surroundings of the next transfer, with the slave driving MISO; what is on
the other wires is known from a transfer without it.
-/
def surroundings (board : SpiBoard State) : Surroundings :=
  let env := wiring.schedule board.transfers
  match
    (SpiBus.start board.tk1).spiTransfer env wiring.polls cmd tx rxSize
  with
  | none => env
  | some (_, bus) =>
      env.withMiso fun cycle =>
        (wiring.slave.misos board.port bus.trace).getD cycle false

/-- A transfer, and the cycle behind it. -/
def transfer
    (board : SpiBoard State) :
    Option ((Int × List (BitVec 8)) × SpiBoard State) := do
  let env := board.surroundings wiring cmd tx rxSize
  let (result, bus) ←
    (SpiBus.start board.tk1).spiTransfer env wiring.polls cmd tx rxSize
  let bus := bus.pause env 1
  some
    (result,
      { tk1 := bus.tk1
        port := wiring.slave.run board.port bus.trace
        transfers := board.transfers + 1 })

end SpiBoard

/-- The firmware executes during all transfers. -/
def Wiring.InFirmware
    {State : Type}
    (wiring : Wiring State)
    (tk1 : Tk1) : Prop :=
  (∀ transfer cycle,
    ((wiring.schedule transfer).ports cycle).syscall = true) ∨
  (tk1.fwStartupDoneReg = false ∧
    ∀ transfer cycle,
      ((wiring.schedule transfer).ports cycle).fwStartupDoneSet = false)

namespace SpiBoard

variable {State : Type} {wiring : Wiring State} {board : SpiBoard State}
variable {state : State} {cmd tx : List (BitVec 8)} {rxSize : Nat}

/-- No transfer is in progress, and the slave is in some state. -/
structure Settled
    (wiring : Wiring State)
    (state : State)
    (board : SpiBoard State) : Prop where
  firmware : wiring.InFirmware board.tk1
  rests : board.tk1.spiMaster.Rests
  ss : board.tk1.spiMaster.spiSsReg = true
  port : board.port = .idle state

theorem inFirmware_of_wiring
    {tk1 : Tk1}
    (firmware : wiring.InFirmware tk1)
    (transfer : Nat) :
    (wiring.schedule transfer).InFirmware tk1 := by
  rcases firmware with always | ⟨notDone, never⟩
  · exact .inl (always transfer)
  · exact .inr ⟨notDone, never transfer⟩

/-- In the surroundings of a transfer the slave drives MISO. -/
theorem Settled.driven
    (settled : Settled wiring state board)
    (enough : 24 < wiring.polls)
    (notEmpty : cmd ≠ [])
    (tx : List (BitVec 8))
    (rxSize : Nat) :
    ∃ miso result bus,
      board.surroundings wiring cmd tx rxSize =
          (wiring.schedule board.transfers).withMiso miso ∧
        (SpiBus.start board.tk1).spiTransfer
            ((wiring.schedule board.transfers).withMiso miso) wiring.polls cmd
            tx rxSize =
          some (result, bus) ∧
        SpiBus.Transferred cmd tx rxSize result bus ∧
        wiring.slave.Driven board.port bus.trace ∧
        wiring.InFirmware bus.tk1 := by
  have firmware := inFirmware_of_wiring settled.firmware board.transfers
  obtain ⟨openResult, openBus, openRun, -⟩ :=
    SpiBus.spiTransfer_transferred
      (⟨firmware, settled.rests, settled.ss, List.forall_mem_nil _⟩ :
        SpiBus.Released (wiring.schedule board.transfers)
          (SpiBus.start board.tk1))
      enough notEmpty tx rxSize
  obtain ⟨miso, surrounded, driven⟩ :
      ∃ miso,
        board.surroundings wiring cmd tx rxSize =
            (wiring.schedule board.transfers).withMiso miso ∧
          wiring.slave.Driven board.port
            (SpiWires.withMiso miso openBus.trace) := by
    refine ⟨_, ?_, Slave.driven_withMiso board.port openBus.trace⟩
    rw [surroundings, openRun]
  obtain ⟨result, bus, run, transferred⟩ :=
    SpiBus.spiTransfer_transferred
      (⟨firmware, settled.rests, settled.ss, List.forall_mem_nil _⟩ :
        SpiBus.Released ((wiring.schedule board.transfers).withMiso miso)
          (SpiBus.start board.tk1))
      enough notEmpty tx rxSize
  have start :
      SpiBus.Alike (wiring.schedule board.transfers) miso board.tk1
        (SpiBus.start board.tk1) (SpiBus.start board.tk1) :=
    ⟨fun _ notDone => notDone, rfl, rfl, rfl⟩
  have both := start.spiTransfer wiring.polls cmd tx rxSize
  rw [openRun, run] at both
  obtain ⟨alike⟩ := both
  refine ⟨miso, result, bus, surrounded, run, transferred, ?_, ?_⟩
  · rwa [← alike.trace] at driven
  · rcases settled.firmware with always | ⟨notDone, never⟩
    · exact .inl always
    · refine .inr ⟨?_, never⟩
      have blind : openBus.tk1.blind = bus.tk1.blind := alike.tk1
      have same :
          openBus.tk1.blind.fwStartupDoneReg =
            bus.tk1.blind.fwStartupDoneReg :=
        congrArg Tk1.fwStartupDoneReg blind
      show bus.tk1.blind.fwStartupDoneReg = false
      rw [← same]
      exact alike.startup (never _) notDone

/-- What the slave makes of a transfer. -/
theorem Settled.transfer
    (settled : Settled wiring state board)
    (enough : 24 < wiring.polls)
    (notEmpty : cmd ≠ [])
    (tx : List (BitVec 8))
    (rxSize : Nat) :
    ∃ board',
      board.transfer wiring cmd tx rxSize =
          some
            ((0,
              (List.range rxSize).map fun count =>
                wiring.slave.answer state
                  (cmd ++ tx ++ List.replicate count 0)),
              board') ∧
        Settled wiring
          (wiring.slave.release state (cmd ++ tx ++ List.replicate rxSize 0))
          board' := by
  obtain ⟨miso, result, bus, surrounded, run, transferred, driven, firmware⟩ :=
    settled.driven enough notEmpty tx rxSize
  rw [settled.port] at driven
  obtain ⟨ignored, ignoredLength, window⟩ := transferred.window
  have sameLength :
      (cmd ++ tx ++ List.replicate rxSize 0).length =
        (ignored ++ result.2).length := by
    simp only [List.length_append, List.length_replicate, ignoredLength,
      transferred.size]
  have later :
      SpiBus.Idles ((wiring.schedule board.transfers).withMiso miso) bus
        (bus.now ((wiring.schedule board.transfers).withMiso miso)).noAccess :=
    SpiBus.idles_noAccess _ _
  obtain ⟨got, released⟩ :=
    Slave.window_answered window sameLength (by simp [notEmpty]) driven
      (show
        (bus.tk1.spiMaster.wires
          (bus.now
            ((wiring.schedule board.transfers).withMiso miso)).spiMiso).ss =
          true
        from transferred.ss)
  have bytes :
      result.2 =
        (List.range rxSize).map fun count =>
          wiring.slave.answer state (cmd ++ tx ++ List.replicate count 0) := by
    have behind := congrArg (List.drop (cmd ++ tx).length) got
    rwa [Slave.drop_replies,
      List.drop_left' (ignoredLength.trans List.length_append.symm)] at behind
  have clocked := SpiMaster.clock_rest transferred.rests later.quiet.start
  rw [later.quiet.enable] at clocked
  refine
    ⟨{ tk1 :=
        (SpiBus.pause
          ((wiring.schedule board.transfers).withMiso miso) 1 bus).tk1
       port :=
        wiring.slave.run board.port
          (SpiBus.pause
            ((wiring.schedule board.transfers).withMiso miso) 1 bus).trace
       transfers := board.transfers + 1 }, ?_, ?_, ?_, ?_, ?_⟩
  · rw [SpiBoard.transfer, surrounded, ← bytes, ← transferred.returned]
    show Option.bind (SpiBus.spiTransfer _ _ _ _ _ _) _ = _
    rw [run]
    rfl
  · rcases firmware with always | ⟨notDone, never⟩
    · exact .inl always
    · refine .inr ⟨?_, never⟩
      show (((wiring.schedule board.transfers).ports _).fwStartupDoneSet ||
        bus.tk1.fwStartupDoneReg) = false
      rw [never, notDone]
      rfl
  · show (bus.tick _).tk1.spiMaster.Rests
    rw [SpiBus.spiMaster_tick, clocked]
    exact ⟨transferred.rests.ctrl, transferred.rests.ready,
      transferred.rests.sck⟩
  · show (bus.tick _).tk1.spiMaster.spiSsReg = true
    rw [SpiBus.spiMaster_tick, clocked]
    exact transferred.ss
  · rw [← released, ← settled.port]
    rfl

end SpiBoard

end Board

end TKey.Fpga
