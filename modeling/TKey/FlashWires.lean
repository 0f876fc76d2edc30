import TKey.FlashBus
import TKey.Main

namespace TKey

open ByteMemory
open SpiWires
open Fpga

/-!
# The flash chip on the wires

`flash.c` over the registers of TK1, with the flash chip as the slave on the SPI
bus.  The chip is busy for some time after each erase or program command, and
then it answers nothing but status polls; the firmware waits for it.
-/

section Chip

/-- The chip, and how many more times it is busy when it is selected. -/
structure BusyFlash where
  chip : FlashChip
  busy : Nat

namespace BusyFlash

/-- Status register 1, with BUSY in bit 0 and the write enable latch in bit 1. -/
def status (flash : BusyFlash) : UInt8 :=
  if 0 < flash.busy then 3 else if flash.chip.writeEnabled then 2 else 0

/-- The byte that is sent behind some bytes of a command. -/
def answer (flash : BusyFlash) : List UInt8 → UInt8
  | opcode :: byte3 :: byte2 :: byte1 :: further =>
      if opcode = readStatusReg1 then
        flash.status
      else if opcode = readData ∧ flash.busy = 0 then
        flash.chip.memory
          (FlashChip.commandAddress byte3 byte2 byte1 + further.length)
      else
        0
  | opcode :: _ =>
      if opcode = readStatusReg1 then flash.status else 0
  | [] => 0

/--
An erase or program command is carried out if writes are enabled, and then the
chip is busy; it depends on the commands so far for how long.
-/
def change
    (durations : List NorFlash.Command → Nat)
    (command : NorFlash.Command)
    (flash : BusyFlash) : BusyFlash where
  chip :=
    { memory :=
        if flash.chip.writeEnabled then
          NorFlash.runWrapping 256 [command] flash.chip.memory
        else
          flash.chip.memory
      writeEnabled := false
      sent := flash.chip.sent ++ [command] }
  busy :=
    if flash.chip.writeEnabled then
      durations (flash.chip.sent ++ [command])
    else
      0

/-- What a chip that is not busy does with a command. -/
def perform
    (durations : List NorFlash.Command → Nat)
    (flash : BusyFlash) : List UInt8 → BusyFlash
  | [opcode] =>
      if opcode = writeEnable then
        { flash with chip := { flash.chip with writeEnabled := true } }
      else
        flash
  | [opcode, byte3, byte2, byte1] =>
      let address := FlashChip.commandAddress byte3 byte2 byte1
      if opcode = sectorErase then
        flash.change durations (.erase (address / 4096 * 4096) 4096)
      else if opcode = blockErase64k then
        flash.change durations (.erase (address / 65536 * 65536) 65536)
      else
        flash
  | opcode :: byte3 :: byte2 :: byte1 :: data =>
      if opcode = pageProgram then
        flash.change durations
          (.program (FlashChip.commandAddress byte3 byte2 byte1) data)
      else
        flash
  | _ => flash

/-- What becomes of the chip when it is released. -/
def release
    (durations : List NorFlash.Command → Nat)
    (flash : BusyFlash)
    (bytes : List UInt8) : BusyFlash :=
  if 0 < flash.busy then
    { flash with busy := flash.busy - 1 }
  else
    flash.perform durations bytes

/-- The chip as a slave. -/
def slave (durations : List NorFlash.Command → Nat) : Slave BusyFlash where
  answer flash received :=
    (flash.answer (received.map UInt8.ofBitVec)).toBitVec
  release flash received :=
    flash.release durations (received.map UInt8.ofBitVec)

end BusyFlash

end Chip

section Functions

/-- What does not depend on the firmware when it accesses the flash. -/
structure FlashWiring where
  /-- What surrounds each transfer, apart from MISO. -/
  schedule : Nat → Surroundings
  /-- The polls of the SPI master after which a byte is given up. -/
  polls : Nat
  /-- How long the chip is busy with the last of some commands. -/
  durations : List NorFlash.Command → Nat
  /-- The status polls after which the chip is given up. -/
  busyPolls : Nat

def FlashWiring.wiring (wired : FlashWiring) : Wiring BusyFlash where
  slave := BusyFlash.slave wired.durations
  schedule := wired.schedule
  polls := wired.polls

/--
Firmware code on the wires, which ends in no result when an assertion fails or
something is given up.
-/
abbrev Wired := StateT (SpiBoard BusyFlash) Option

namespace Wired

variable (wired : FlashWiring)

def spiTransfer
    (cmd tx : List UInt8)
    (rxSize : Nat) : Wired (Int × List UInt8) := fun board => do
  let ((code, received), board) ←
    board.transfer wired.wiring (cmd.map UInt8.toBitVec)
      (tx.map UInt8.toBitVec) rxSize
  some ((code, received.map UInt8.ofBitVec), board)

/-- The C macro `assert`. -/
def assert (condition : Prop) [Decidable condition] : Wired Unit :=
  if condition then pure () else failure

def flashIsBusy : Wired Bool := do
  let result ← spiTransfer wired [readStatusReg1] [] 1
  assert (result.1 = 0)
  return result.2.headD 0 &&& 1 ≠ 0

/-- `while (flash_is_busy())`, which ends after some polls or not at all. -/
def awaitNotBusy : Nat → Wired Unit
  | 0 => failure
  | polls + 1 => do
      let busy ← flashIsBusy wired
      if busy then awaitNotBusy polls else pure ()

/-- Blocking until not busy. -/
def flashWaitBusy : Wired Unit :=
  awaitNotBusy wired wired.busyPolls

def flashWriteEnable : Wired Unit := do
  let result ← spiTransfer wired [writeEnable] [] 0
  assert (result.1 = 0)

def flashSectorErase (address : UInt32) : Wired Unit := do
  flashWriteEnable wired
  let result ←
    spiTransfer wired
      [sectorErase, addressByte address 16, addressByte address 8, 0x00]
      [] 0
  assert (result.1 = 0)
  flashWaitBusy wired

/-- 64 KiB block erase, only cares about address bits 16 and above. -/
def flashBlock64Erase (address : UInt32) : Wired Unit := do
  flashWriteEnable wired
  let result ←
    spiTransfer wired
      [blockErase64k, addressByte address 16, 0x00, 0x00]
      [] 0
  assert (result.1 = 0)
  flashWaitBusy wired

def flashReleasePowerdown : Wired Unit := do
  let result ← spiTransfer wired [releasePowerDown, 0x00, 0x00, 0x00] [] 0
  assert (result.1 = 0)

/-- Read flash into a buffer that is not `NULL`. -/
def flashReadData (address : UInt32) (size : Nat) :
    Wired (Int × List UInt8) :=
  spiTransfer wired
    [readData, addressByte address 16, addressByte address 8,
      addressByte address 0]
    [] size

/-- The page loop of `flash_write_data`, over the data that is left. -/
def flashWriteDataLoop (address : UInt32) (data : List UInt8) : Wired Int :=
  if data.length = 0 then
    return 0
  else do
    let nBytes := if data.length ≥ 256 then 256 else data.length
    flashWriteEnable wired
    let result ←
      spiTransfer wired
        [pageProgram, addressByte address 16, addressByte address 8, 0x00]
        (data.take nBytes) 0
    if result.1 ≠ 0 then
      return -1
    else do
      flashWaitBusy wired
      flashWriteDataLoop (address + nBytes.toUInt32) (data.drop nBytes)
termination_by data.length
decreasing_by
  simp only [List.length_drop]
  split <;> omega

/--
Only handles writes where the least significant byte of the start address is
zero.
-/
def flashWriteData (address : UInt32) (data : List UInt8) : Wired Int :=
  if data.length ≤ 0 then
    return -1
  else if address % 256 ≠ 0 then
    return -1
  else
    flashWriteDataLoop wired address data

end Wired

end Functions

section Implementation

variable {wired : FlashWiring} {Value Next : Type}
variable {before middle after : Nat}

/--
No transfer is in progress, the chip is in the state that the machine has, and
it is busy at most some more times.
-/
def Carries
    (wired : FlashWiring)
    (atMost : Nat)
    (m : Machine)
    (board : SpiBoard BusyFlash) : Prop :=
  ∃ busy, busy ≤ atMost ∧
    board.Settled wired.wiring { chip := m.flash, busy := busy }

/--
Code on the wires does what code of the machine does: both return the same
value.  The chip is busy at most some times before it and some times after it.
-/
def Implements
    (wired : FlashWiring)
    (before after : Nat)
    (holds : Value → Prop)
    (onWires : Wired Value)
    (onMachine : Fw Value) : Prop :=
  ∀ m board,
    Carries wired before m board →
      ∃ value m' board',
        onMachine.run m = .ok value m' ∧
          onWires.run board = some (value, board') ∧
            holds value ∧
              Carries wired after m' board'

theorem Implements.pure
    {value : Value}
    {holds : Value → Prop}
    (true : holds value) :
    Implements wired before before holds (Pure.pure value) (Pure.pure value) := by
  intro m board carries
  exact ⟨value, m, board, rfl, rfl, true, carries⟩

theorem Implements.bind
    {holds : Value → Prop}
    {holds' : Next → Prop}
    {onWires : Wired Value}
    {onMachine : Fw Value}
    {next : Value → Wired Next}
    {next' : Value → Fw Next}
    (first : Implements wired before middle holds onWires onMachine)
    (goesOn :
      ∀ value, holds value →
        Implements wired middle after holds' (next value) (next' value)) :
    Implements wired before after holds' (onWires >>= next)
      (onMachine >>= next') := by
  intro m board carries
  obtain ⟨value, m₁, board₁, model, wires, true, carries₁⟩ :=
    first m board carries
  obtain ⟨value', m₂, board₂, model', wires', true', carries₂⟩ :=
    goesOn value true m₁ board₁ carries₁
  refine ⟨value', m₂, board₂, ?_, ?_, true', carries₂⟩
  · rw [Fw.run_bind_of_ok model, model']
  · rw [StateT.run_bind, wires]
    exact wires'

/-- An assertion that holds. -/
theorem Implements.assert
    {condition : Prop}
    [Decidable condition]
    (holds : condition) :
    Implements wired before before (fun _ => True) (Wired.assert condition)
      (Fw.assert condition) := by
  rw [Wired.assert, if_pos holds, Fw.assert, if_pos holds]
  exact .pure trivial

end Implementation

section Transfers

variable {wired : FlashWiring}

/-- The bytes of a transfer as the slave sees them. -/
theorem map_bytes (cmd tx : List UInt8) (count : Nat) :
    (cmd.map UInt8.toBitVec ++ tx.map UInt8.toBitVec ++
        List.replicate count 0).map UInt8.ofBitVec =
      cmd ++ tx ++ List.replicate count 0 := by
  have back : UInt8.ofBitVec ∘ UInt8.toBitVec = id := rfl
  rw [List.map_append, List.map_append, List.map_map, List.map_map, back,
    List.map_id, List.map_id, List.map_replicate]
  rfl

/-- What the chip makes of a transfer. -/
theorem Wired.spiTransfer_run
    {cmd : List UInt8}
    {flash : BusyFlash}
    {board : SpiBoard BusyFlash}
    (enough : 24 < wired.polls)
    (notEmpty : cmd ≠ [])
    (tx : List UInt8)
    (rxSize : Nat)
    (settled : board.Settled wired.wiring flash) :
    ∃ board',
      (Wired.spiTransfer wired cmd tx rxSize).run board =
          some
            ((0,
              (List.range rxSize).map fun count =>
                flash.answer (cmd ++ tx ++ List.replicate count 0)),
              board') ∧
        board'.Settled wired.wiring
          (flash.release wired.durations
            (cmd ++ tx ++ List.replicate rxSize 0)) := by
  obtain ⟨board', run, settled'⟩ :=
    settled.transfer enough
      (fun none => notEmpty (List.map_eq_nil_iff.mp none))
      (tx.map UInt8.toBitVec) rxSize
  refine ⟨board', ?_, ?_⟩
  · rw [StateT.run, Wired.spiTransfer, run]
    show some ((0, List.map _ (List.map _ _)), board') = _
    rw [List.map_map]
    congr 3
    apply List.map_congr_left
    intro count _
    show UInt8.ofBitVec (flash.answer (List.map _ _)).toBitVec = _
    rw [map_bytes]
  · have released :
        wired.wiring.slave.release flash
            (cmd.map UInt8.toBitVec ++ tx.map UInt8.toBitVec ++
              List.replicate rxSize 0) =
          flash.release wired.durations
            (cmd ++ tx ++ List.replicate rxSize 0) := by
      show flash.release wired.durations (List.map _ _) = _
      rw [map_bytes]
    rwa [released] at settled'

/--
A transfer does with a chip that is not busy what it does in the machine, and
leaves it busy for some more times at most.
-/
def Agrees
    (wired : FlashWiring)
    (after : Nat)
    (cmd tx : List UInt8)
    (rxSize : Nat) : Prop :=
  ∀ chip : FlashChip,
    ((List.range rxSize).map fun count =>
        BusyFlash.answer { chip := chip, busy := 0 }
          (cmd ++ tx ++ List.replicate count 0)) =
        (chip.transfer cmd tx rxSize).1 ∧
      ∃ busy, busy ≤ after ∧
        BusyFlash.perform wired.durations { chip := chip, busy := 0 }
            (cmd ++ tx ++ List.replicate rxSize 0) =
          { chip := (chip.transfer cmd tx rxSize).2, busy := busy }

theorem Agrees.implements
    {cmd tx : List UInt8}
    {rxSize after : Nat}
    (enough : 24 < wired.polls)
    (notEmpty : cmd ≠ [])
    (agrees : Agrees wired after cmd tx rxSize) :
    Implements wired 0 after (fun result => result.1 = 0)
      (Wired.spiTransfer wired cmd tx rxSize) (spiTransfer cmd tx rxSize) := by
  intro m board carries
  obtain ⟨busy, notBusy, settled⟩ := carries
  obtain rfl := Nat.eq_zero_of_le_zero notBusy
  obtain ⟨board', run, settled'⟩ :=
    Wired.spiTransfer_run enough notEmpty tx rxSize settled
  obtain ⟨received, busy', small, performed⟩ := agrees m.flash
  have released :
      BusyFlash.release wired.durations { chip := m.flash, busy := 0 }
          (cmd ++ tx ++ List.replicate rxSize 0) =
        { chip := (m.flash.transfer cmd tx rxSize).2, busy := busy' } := by
    rw [BusyFlash.release, if_neg (Nat.lt_irrefl 0), performed]
  rw [received] at run
  rw [released] at settled'
  refine ⟨(0, (m.flash.transfer cmd tx rxSize).1),
    { m with flash := (m.flash.transfer cmd tx rxSize).2 }, board', ?_, run,
    rfl, busy', small, settled'⟩
  rw [EStateM.run, spiTransfer, if_neg notEmpty]

/-- A command that stays in its page does what it does in the machine. -/
theorem BusyFlash.change_eq
    (durations : List NorFlash.Command → Nat)
    {command : NorFlash.Command}
    (inPage : command.InPage 256)
    (chip : FlashChip) :
    BusyFlash.change durations command { chip := chip, busy := 0 } =
      { chip := chip.change command
        busy :=
          if chip.writeEnabled then durations (chip.sent ++ [command])
          else 0 } := by
  have same :
      NorFlash.runWrapping 256 [command] chip.memory =
        NorFlash.run [command] chip.memory :=
    NorFlash.runWrapping_of_inPage
      (fun command' member => List.eq_of_mem_singleton member ▸ inPage) _
  rw [change, same]
  rfl

/-- The chip is never busy for too long. -/
theorem busy_le
    {after : Nat}
    (waits : ∀ commands, wired.durations commands ≤ after)
    (enabled : Bool)
    (commands : List NorFlash.Command) :
    (if enabled then wired.durations commands else 0) ≤ after := by
  split
  case isTrue => exact waits commands
  case isFalse => exact Nat.zero_le after

theorem agrees_writeEnable : Agrees wired 0 [writeEnable] [] 0 :=
  fun _ => ⟨rfl, 0, Nat.le_refl 0, rfl⟩

theorem agrees_releasePowerDown :
    Agrees wired 0 [releasePowerDown, 0x00, 0x00, 0x00] [] 0 :=
  fun _ => ⟨rfl, 0, Nat.le_refl 0, rfl⟩

theorem agrees_sectorErase
    {after : Nat}
    (waits : ∀ commands, wired.durations commands ≤ after)
    (byte3 byte2 byte1 : UInt8) :
    Agrees wired after [sectorErase, byte3, byte2, byte1] [] 0 := by
  intro chip
  exact ⟨rfl, _, busy_le waits _ _,
    @BusyFlash.change_eq _ (.erase _ _) trivial chip⟩

theorem agrees_blockErase64k
    {after : Nat}
    (waits : ∀ commands, wired.durations commands ≤ after)
    (byte3 byte2 byte1 : UInt8) :
    Agrees wired after [blockErase64k, byte3, byte2, byte1] [] 0 := by
  intro chip
  exact ⟨rfl, _, busy_le waits _ _,
    @BusyFlash.change_eq _ (.erase _ _) trivial chip⟩

theorem agrees_readData
    (byte3 byte2 byte1 : UInt8)
    (size : Nat) :
    Agrees wired 0 [readData, byte3, byte2, byte1] [] size := by
  intro chip
  refine ⟨?_, 0, Nat.le_refl 0, ?_⟩
  · show _ = read chip.memory (FlashChip.commandAddress byte3 byte2 byte1) size
    apply List.map_congr_left
    intro count _
    show chip.memory (_ + (List.replicate count (0 : UInt8)).length) = _
    rw [List.length_replicate]
  · cases size <;> rfl

theorem agrees_pageProgram
    {after : Nat}
    (waits : ∀ commands, wired.durations commands ≤ after)
    (byte3 byte2 : UInt8)
    {data : List UInt8}
    (notEmpty : data ≠ [])
    (short : data.length ≤ 256) :
    Agrees wired after [pageProgram, byte3, byte2, 0x00] data 0 := by
  intro chip
  have inPage :
      (NorFlash.Command.program
        (FlashChip.commandAddress byte3 byte2 0x00) data).InPage 256 := by
    have zero : (0x00 : UInt8).toNat = 0 := rfl
    rw [NorFlash.Command.InPage, FlashChip.commandAddress, zero]
    omega
  refine ⟨rfl, _, busy_le waits _ _,
    Eq.trans ?_ (BusyFlash.change_eq wired.durations inPage chip)⟩
  obtain ⟨byte, data, rfl⟩ := List.exists_cons_of_ne_nil notEmpty
  rw [List.replicate_zero, List.append_nil]
  rfl

/-- The firmware reads the busy bit. -/
theorem BusyFlash.status_busy (flash : BusyFlash) :
    flash.status &&& 1 ≠ 0 ↔ 0 < flash.busy := by
  rw [status]
  split
  case isTrue busy => exact iff_of_true (by decide) busy
  case isFalse ready =>
    refine iff_of_false ?_ ready
    cases flash.chip.writeEnabled <;> decide

/-- A status poll. -/
theorem Wired.flashIsBusy_run
    {flash : BusyFlash}
    {board : SpiBoard BusyFlash}
    (enough : 24 < wired.polls)
    (settled : board.Settled wired.wiring flash) :
    ∃ board',
      (Wired.flashIsBusy wired).run board =
          some (decide (0 < flash.busy), board') ∧
        board'.Settled wired.wiring
          { flash with busy := flash.busy - 1 } := by
  obtain ⟨board', run, settled'⟩ :=
    spiTransfer_run enough (List.cons_ne_nil readStatusReg1 []) [] 1 settled
  refine ⟨board', ?_, ?_⟩
  · rw [flashIsBusy, StateT.run_bind, run]
    show some (_, board') = _
    congr 2
    exact decide_eq_decide.mpr flash.status_busy
  · cases flash with
    | mk chip busy => cases busy <;> exact settled'

/-- Waiting ends after the chip has become ready. -/
theorem Wired.awaitNotBusy_run
    {chip : FlashChip}
    {busy polls : Nat}
    {board : SpiBoard BusyFlash}
    (enough : 24 < wired.polls)
    (ends : busy < polls)
    (settled :
      board.Settled wired.wiring { chip := chip, busy := busy }) :
    ∃ board',
      (Wired.awaitNotBusy wired polls).run board = some ((), board') ∧
        board'.Settled wired.wiring { chip := chip, busy := 0 } := by
  induction polls generalizing busy board with
  | zero => exact absurd ends (Nat.not_lt_zero busy)
  | succ polls inductionHypothesis =>
      obtain ⟨board₁, run, settled₁⟩ := flashIsBusy_run enough settled
      rw [awaitNotBusy, StateT.run_bind, run]
      cases busy with
      | zero => exact ⟨board₁, rfl, settled₁⟩
      | succ busy =>
          exact @inductionHypothesis busy board₁ (by omega) settled₁

theorem implements_flashWaitBusy
    {atMost : Nat}
    (enough : 24 < wired.polls)
    (ends : atMost < wired.busyPolls) :
    Implements wired atMost 0 (fun _ => True) (Wired.flashWaitBusy wired)
      flashWaitBusy := by
  intro m board carries
  obtain ⟨busy, small, settled⟩ := carries
  obtain ⟨board', run, settled'⟩ :=
    Wired.awaitNotBusy_run enough (Nat.lt_of_le_of_lt small ends) settled
  exact ⟨(), m, board', flashWaitBusy_run m, run, trivial, 0, Nat.le_refl 0,
    settled'⟩

end Transfers

section Calls

variable {wired : FlashWiring}

/-- Nothing is given up too early. -/
structure FlashWiring.Patient (wired : FlashWiring) : Prop where
  polls : 24 < wired.polls
  busyPolls : ∀ commands, wired.durations commands < wired.busyPolls

/-- How long the chip is busy at most. -/
theorem FlashWiring.Patient.waits
    (patient : wired.Patient)
    (commands : List NorFlash.Command) :
    wired.durations commands ≤ wired.busyPolls - 1 :=
  Nat.le_sub_one_of_lt (patient.busyPolls commands)

/-- Waiting for the chip ends. -/
theorem FlashWiring.Patient.flashWaitBusy (patient : wired.Patient) :
    Implements wired (wired.busyPolls - 1) 0 (fun _ => True)
      (Wired.flashWaitBusy wired) TKey.flashWaitBusy :=
  implements_flashWaitBusy patient.polls
    (Nat.sub_one_lt (Nat.ne_of_gt
      (Nat.lt_of_le_of_lt (Nat.zero_le _) (patient.busyPolls []))))

theorem implements_flashWriteEnable (patient : wired.Patient) :
    Implements wired 0 0 (fun _ => True) (Wired.flashWriteEnable wired)
      flashWriteEnable :=
  .bind (agrees_writeEnable.implements patient.polls (List.cons_ne_nil _ _))
    fun _ zero => .assert zero

/-- A command behind a write enable, and the wait for it. -/
theorem implements_erase
    (patient : wired.Patient)
    {cmd : List UInt8}
    (notEmpty : cmd ≠ [])
    (agrees : Agrees wired (wired.busyPolls - 1) cmd [] 0) :
    Implements wired 0 0 (fun _ => True)
      (do
        Wired.flashWriteEnable wired
        let result ← Wired.spiTransfer wired cmd [] 0
        Wired.assert (result.1 = 0)
        Wired.flashWaitBusy wired)
      (do
        flashWriteEnable
        let result ← spiTransfer cmd [] 0
        Fw.assert (result.1 = 0)
        flashWaitBusy) :=
  .bind (implements_flashWriteEnable patient) fun _ _ =>
    .bind (agrees.implements patient.polls notEmpty) fun _ zero =>
      .bind (.assert zero) fun _ _ => patient.flashWaitBusy

theorem implements_flashSectorErase
    (patient : wired.Patient)
    (address : UInt32) :
    Implements wired 0 0 (fun _ => True) (Wired.flashSectorErase wired address)
      (flashSectorErase address) :=
  implements_erase patient (List.cons_ne_nil _ _)
    (agrees_sectorErase patient.waits _ _ _)

theorem implements_flashBlock64Erase
    (patient : wired.Patient)
    (address : UInt32) :
    Implements wired 0 0 (fun _ => True) (Wired.flashBlock64Erase wired address)
      (flashBlock64Erase address) :=
  implements_erase patient (List.cons_ne_nil _ _)
    (agrees_blockErase64k patient.waits _ _ _)

theorem implements_flashReleasePowerdown (patient : wired.Patient) :
    Implements wired 0 0 (fun _ => True) (Wired.flashReleasePowerdown wired)
      flashReleasePowerdown :=
  .bind
    (agrees_releasePowerDown.implements patient.polls (List.cons_ne_nil _ _))
    fun _ zero => .assert zero

theorem implements_flashReadData
    (patient : wired.Patient)
    (address : UInt32)
    (size : Nat) :
    Implements wired 0 0 (fun result => result.1 = 0)
      (Wired.flashReadData wired address size) (flashReadData address size) :=
  (agrees_readData _ _ _ size).implements patient.polls (List.cons_ne_nil _ _)

/-- The pages are programmed one after the other. -/
theorem implements_flashWriteDataLoop
    (patient : wired.Patient)
    (address : UInt32)
    (data : List UInt8) :
    Implements wired 0 0 (fun _ => True)
      (Wired.flashWriteDataLoop wired address data)
      (flashWriteDataLoop address data) := by
  induction length : data.length using Nat.strongRecOn
      generalizing address data with
  | ind count inductionHypothesis =>
      rw [Wired.flashWriteDataLoop, flashWriteDataLoop]
      by_cases empty : data.length = 0
      · rw [if_pos empty, if_pos empty]
        exact .pure trivial
      rw [if_neg empty, if_neg empty]
      generalize isPage :
        (if data.length ≥ 256 then 256 else data.length) = nBytes
      have page : 0 < nBytes ∧ nBytes ≤ data.length ∧ nBytes ≤ 256 := by
        split at isPage <;> omega
      have notEmpty : data.take nBytes ≠ [] := by
        intro none
        have noBytes := congrArg List.length none
        rw [List.length_take, List.length_nil] at noBytes
        omega
      have short : (data.take nBytes).length ≤ 256 := by
        rw [List.length_take]
        omega
      have programs :=
        agrees_pageProgram patient.waits (addressByte address 16)
          (addressByte address 8) notEmpty short
      refine .bind (implements_flashWriteEnable patient) fun _ _ =>
        .bind (programs.implements patient.polls (List.cons_ne_nil _ _))
          fun result zero => ?_
      rw [if_neg (not_not_intro zero), if_neg (not_not_intro zero)]
      exact .bind patient.flashWaitBusy fun _ _ =>
        inductionHypothesis (data.drop nBytes).length
          (by rw [List.length_drop]; omega) _ _ rfl

theorem implements_flashWriteData
    (patient : wired.Patient)
    (address : UInt32)
    (data : List UInt8) :
    Implements wired 0 0 (fun _ => True)
      (Wired.flashWriteData wired address data)
      (flashWriteData address data) := by
  rw [Wired.flashWriteData, flashWriteData]
  split
  case isTrue => exact .pure trivial
  case isFalse =>
    split
    case isTrue => exact .pure trivial
    case isFalse => exact implements_flashWriteDataLoop patient address data

/-- The functions of `flash.c` that the firmware calls. -/
inductive FlashCall where
  | releasePowerdown
  | readData (address : UInt32) (size : Nat)
  | sectorErase (address : UInt32)
  | block64Erase (address : UInt32)
  | writeData (address : UInt32) (data : List UInt8)

/-- A call in the machine: the value returned and what has been read. -/
def FlashCall.onMachine : FlashCall → Fw (Int × List UInt8)
  | releasePowerdown => do
      flashReleasePowerdown
      return (0, [])
  | readData address size => flashReadData address size
  | sectorErase address => do
      flashSectorErase address
      return (0, [])
  | block64Erase address => do
      flashBlock64Erase address
      return (0, [])
  | writeData address data => do
      let result ← flashWriteData address data
      return (result, [])

/-- A call on the wires. -/
def FlashCall.onWires
    (wired : FlashWiring) :
    FlashCall → Wired (Int × List UInt8)
  | releasePowerdown => do
      Wired.flashReleasePowerdown wired
      return (0, [])
  | readData address size => Wired.flashReadData wired address size
  | sectorErase address => do
      Wired.flashSectorErase wired address
      return (0, [])
  | block64Erase address => do
      Wired.flashBlock64Erase wired address
      return (0, [])
  | writeData address data => do
      let result ← Wired.flashWriteData wired address data
      return (result, [])

/-- What the firmware calls after some results. -/
abbrev FlashClient :=
  List (Int × List UInt8) → FlashCall

/-- Some more calls, and the results of all of them. -/
def FlashClient.onMachine
    (client : FlashClient) :
    Nat → List (Int × List UInt8) → Fw (List (Int × List UInt8))
  | 0, results => return results
  | calls + 1, results => do
      let result ← (client results).onMachine
      client.onMachine calls (results ++ [result])

def FlashClient.onWires
    (wired : FlashWiring)
    (client : FlashClient) :
    Nat → List (Int × List UInt8) → Wired (List (Int × List UInt8))
  | 0, results => return results
  | calls + 1, results => do
      let result ← (client results).onWires wired
      client.onWires wired calls (results ++ [result])

theorem FlashCall.implements
    (patient : wired.Patient)
    (call : FlashCall) :
    Implements wired 0 0 (fun _ => True) (call.onWires wired)
      call.onMachine := by
  cases call with
  | releasePowerdown =>
      exact .bind (implements_flashReleasePowerdown patient) fun _ _ =>
        .pure trivial
  | readData address size =>
      intro m board carries
      obtain ⟨value, m', board', model, wires, -, carries'⟩ :=
        implements_flashReadData patient address size m board carries
      exact ⟨value, m', board', model, wires, trivial, carries'⟩
  | sectorErase address =>
      exact .bind (implements_flashSectorErase patient address) fun _ _ =>
        .pure trivial
  | block64Erase address =>
      exact .bind (implements_flashBlock64Erase patient address) fun _ _ =>
        .pure trivial
  | writeData address data =>
      exact .bind (implements_flashWriteData patient address data) fun _ _ =>
        .pure trivial

theorem FlashClient.implements
    (patient : wired.Patient)
    (client : FlashClient)
    (calls : Nat)
    (results : List (Int × List UInt8)) :
    Implements wired 0 0 (fun _ => True) (client.onWires wired calls results)
      (client.onMachine calls results) := by
  induction calls generalizing results with
  | zero => exact .pure trivial
  | succ calls inductionHypothesis =>
      exact .bind ((client results).implements patient) fun _ _ =>
        inductionHypothesis _

/--
Whatever the firmware calls in `flash.c`, it returns on the wires, however many
cycles pass between the accesses and however long the chip is busy with its
commands.  All calls return what they return in the machine, and the chip is
left as the machine has it.
-/
theorem flash_calls_on_wires
    (wired : FlashWiring)
    (patient : wired.Patient)
    (client : FlashClient)
    (calls : Nat)
    (m : Machine)
    (board : SpiBoard BusyFlash)
    (settled :
      board.Settled wired.wiring { chip := m.flash, busy := 0 }) :
    ∃ results m' board',
      (client.onMachine calls []).run m = .ok results m' ∧
        (client.onWires wired calls []).run board = some (results, board') ∧
          board'.Settled wired.wiring { chip := m'.flash, busy := 0 } := by
  obtain ⟨results, m', board', model, wires, -, busy, notBusy, settled'⟩ :=
    client.implements patient calls [] m board ⟨0, Nat.le_refl 0, settled⟩
  obtain rfl := Nat.eq_zero_of_le_zero notBusy
  exact ⟨results, m', board', model, wires, settled'⟩

/-- In a system call, with a chip that is busy for up to three polls. -/
def FlashWiring.sample : FlashWiring where
  schedule _ := .inSyscall
  polls := 25
  durations commands := commands.length % 4
  busyPolls := 4

/-- A sector is erased, programmed and read. -/
def FlashClient.sample : FlashClient
  | [] => .releasePowerdown
  | [_] => .sectorErase 0x30000
  | [_, _] => .writeData 0x30000 [1, 2, 3]
  | _ => .readData 0x30000 3

theorem flash_calls_on_wires_sample :
    let m := Machine.entered ⟨fun _ => 0x5A, false, []⟩ (fun _ => 0) .zero
    ∃ results m' board',
      (FlashClient.sample.onMachine 4 []).run m = .ok results m' ∧
        (FlashClient.sample.onWires .sample 4 []).run
            { tk1 := Tk1.reset 0
              port := .idle { chip := m.flash, busy := 0 }
              transfers := 0 } =
          some (results, board') ∧
          board'.Settled FlashWiring.sample.wiring
            { chip := m'.flash, busy := 0 } :=
  flash_calls_on_wires .sample
    ⟨by decide, fun commands => Nat.mod_lt commands.length (by decide)⟩ _ _ _ _
    ⟨.inl fun _ _ => rfl, SpiMaster.rests_reset, rfl, rfl⟩

end Calls

end TKey
