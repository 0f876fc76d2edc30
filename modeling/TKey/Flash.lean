import TKey.Machine

namespace TKey

open ByteMemory

/-!
# Flash access

`spi.c` and `flash.c`: the transfers over the SPI bus and the flash commands
made of them.
-/

/-- Byte of a flash address at a bit position, `(address >> bit) & 0xFF`. -/
def addressByte (address bit : UInt32) : UInt8 :=
  ((address >>> bit) &&& 0xFF).toUInt8

/-- Read and write data to the connected SPI flash. -/
def spiTransfer
    (cmd tx : List UInt8)
    (rxSize : Nat) : Fw (Int × List UInt8) := fun m =>
  if cmd = [] then
    .ok (-1, []) m
  else
    let result := m.flash.transfer cmd tx rxSize
    .ok (0, result.1) { m with flash := result.2 }

def flashIsBusy : Fw Bool := do
  let result ← spiTransfer [readStatusReg1] [] 1
  Fw.assert (result.1 = 0)
  return result.2.headD 0 &&& 1 ≠ 0

/--
Blocking until not busy.  The chip never reports busy, so the first poll ends
the loop of the source; a busy answer would block.
-/
def flashWaitBusy : Fw Unit := do
  let busy ← flashIsBusy
  Fw.assert (busy = false)

def flashWriteEnable : Fw Unit := do
  let result ← spiTransfer [writeEnable] [] 0
  Fw.assert (result.1 = 0)

def flashSectorErase (address : UInt32) : Fw Unit := do
  flashWriteEnable
  let result ←
    spiTransfer
      [sectorErase, addressByte address 16, addressByte address 8, 0x00]
      [] 0
  Fw.assert (result.1 = 0)
  flashWaitBusy

/-- 64 KiB block erase, only cares about address bits 16 and above. -/
def flashBlock64Erase (address : UInt32) : Fw Unit := do
  flashWriteEnable
  let result ←
    spiTransfer
      [blockErase64k, addressByte address 16, 0x00, 0x00]
      [] 0
  Fw.assert (result.1 = 0)
  flashWaitBusy

def flashReleasePowerdown : Fw Unit := do
  let result ← spiTransfer [releasePowerDown, 0x00, 0x00, 0x00] [] 0
  Fw.assert (result.1 = 0)

/--
Read flash into a buffer; the result holds the return code and the bytes for
the destination, which is never `NULL` at any call.
-/
def flashReadData (address : UInt32) (size : Nat) :
    Fw (Int × List UInt8) :=
  spiTransfer
    [readData, addressByte address 16, addressByte address 8,
      addressByte address 0]
    [] size

/-- The page loop of `flash_write_data`, over the data that is left. -/
def flashWriteDataLoop (address : UInt32) (data : List UInt8) : Fw Int :=
  if data.length = 0 then
    return 0
  else do
    let nBytes := if data.length ≥ 256 then 256 else data.length
    flashWriteEnable
    let result ←
      spiTransfer
        [pageProgram, addressByte address 16, addressByte address 8, 0x00]
        (data.take nBytes) 0
    if result.1 ≠ 0 then
      return -1
    else do
      flashWaitBusy
      flashWriteDataLoop (address + nBytes.toUInt32) (data.drop nBytes)
termination_by data.length
decreasing_by
  simp only [List.length_drop]
  split <;> omega

/--
Only handles writes where the least significant byte of the start address is
zero.
-/
def flashWriteData (address : UInt32) (data : List UInt8) : Fw Int :=
  if data.length ≤ 0 then
    return -1
  else if address % 256 ≠ 0 then
    return -1
  else
    flashWriteDataLoop address data

section Commands

/-- The erase command for the 4 KiB sector around an address. -/
def sectorCommand (address : Nat) : NorFlash.Command :=
  .erase (address / 4096 * 4096) 4096

/-- The erase command for the 64 KiB block around an address. -/
def blockCommand (address : Nat) : NorFlash.Command :=
  .erase (address / 65536 * 65536) 65536

/-- The machine after the chip has carried out a command sequence. -/
def Machine.perform
    (commands : List NorFlash.Command)
    (m : Machine) : Machine :=
  { m with
    flash :=
      { memory := NorFlash.run commands m.flash.memory
        writeEnabled :=
          if commands = [] then m.flash.writeEnabled else false
        sent := m.flash.sent ++ commands } }

@[simp] theorem Machine.perform_nil (m : Machine) :
    m.perform [] = m := by
  simp [perform]

theorem Machine.perform_append
    (earlier later : List NorFlash.Command)
    (m : Machine) :
    m.perform (earlier ++ later) =
      (m.perform earlier).perform later := by
  simp only [perform, NorFlash.run_append, List.append_assoc]
  cases later <;> simp

/-- Flash commands change the chip as its commands do. -/
@[simp] theorem Machine.memory_perform
    (commands : List NorFlash.Command)
    (m : Machine) :
    (m.perform commands).flash.memory =
      NorFlash.run commands m.flash.memory :=
  rfl

/-- An address byte of a command is a digit of the address in base 256. -/
theorem toNat_addressByte
    (address bit : UInt32)
    (inWord : bit.toNat < 32) :
    (addressByte address bit).toNat =
      address.toNat / 2 ^ bit.toNat % 256 := by
  have mask (n : Nat) : n &&& 255 = n % 256 :=
    Nat.and_two_pow_sub_one_eq_mod n 8
  simp [addressByte, UInt32.toNat_shiftRight, Nat.mod_eq_of_lt inWord,
    mask, Nat.shiftRight_eq_div_pow]

/-- A command whose low address byte is zero starts on a page boundary. -/
theorem commandAddress_page (address : UInt32) :
    FlashChip.commandAddress
        (addressByte address 16) (addressByte address 8) 0 =
      address.toNat % 2 ^ 24 / 256 * 256 := by
  simp only [FlashChip.commandAddress,
    toNat_addressByte address 16 (by decide),
    toNat_addressByte address 8 (by decide)]
  have digit16 : (16 : UInt32).toNat = 16 := rfl
  have digit8 : (8 : UInt32).toNat = 8 := rfl
  have digit0 : (0 : UInt8).toNat = 0 := rfl
  rw [digit16, digit8, digit0]
  omega

/-- The full address bytes give the low 24 bits of the address. -/
theorem commandAddress_full (address : UInt32) :
    FlashChip.commandAddress
        (addressByte address 16) (addressByte address 8)
        (addressByte address 0) =
      address.toNat % 2 ^ 24 := by
  simp only [FlashChip.commandAddress,
    toNat_addressByte address 16 (by decide),
    toNat_addressByte address 8 (by decide),
    toNat_addressByte address 0 (by decide)]
  have digit16 : (16 : UInt32).toNat = 16 := rfl
  have digit8 : (8 : UInt32).toNat = 8 := rfl
  have digit0 : (0 : UInt32).toNat = 0 := rfl
  rw [digit16, digit8, digit0]
  omega

/-- Waiting ends at once because the chip is never busy. -/
theorem flashWaitBusy_run (m : Machine) :
    flashWaitBusy.run m = .ok () m := by
  have status :
      (spiTransfer [readStatusReg1] [] 1).run m =
        .ok (0, [if m.flash.writeEnabled then 2 else 0]) m := by
    simp [spiTransfer, EStateM.run, FlashChip.transfer, readStatusReg1,
      writeEnable]
  have idle : flashIsBusy.run m = .ok false m := by
    rw [flashIsBusy, Fw.run_bind_of_ok status, Fw.run_assert_bind rfl]
    cases m.flash.writeEnabled <;> rfl
  rw [flashWaitBusy, Fw.run_bind_of_ok idle, Fw.run_assert rfl]

/-- The machine with the write enable latch set. -/
private def enableWrites (m : Machine) : Machine :=
  { m with flash := { m.flash with writeEnabled := true } }

private theorem flashWriteEnable_run (m : Machine) :
    flashWriteEnable.run m = .ok () (enableWrites m) := by
  have transfer :
      (spiTransfer [writeEnable] [] 0).run m =
        .ok (0, []) (enableWrites m) := by
    simp [spiTransfer, EStateM.run, FlashChip.transfer, enableWrites]
  rw [flashWriteEnable, Fw.run_bind_of_ok transfer, Fw.run_assert rfl]

/-- With the latch set, the chip carries out the command it receives. -/
private theorem change_enableWrites
    (command : NorFlash.Command)
    (m : Machine) :
    { enableWrites m with
        flash := (enableWrites m).flash.change command } =
      m.perform [command] := by
  simp [enableWrites, FlashChip.change, Machine.perform]

theorem flashSectorErase_run (address : UInt32) (m : Machine) :
    (flashSectorErase address).run m =
      .ok () (m.perform [sectorCommand (address.toNat % 2 ^ 24)]) := by
  have sector (place : Nat) :
      place / 256 * 256 / 4096 * 4096 = place / 4096 * 4096 := by
    omega
  have transfer :
      (spiTransfer
          [sectorErase, addressByte address 16, addressByte address 8,
            0x00] [] 0).run (enableWrites m) =
        .ok (0, [])
          (m.perform [sectorCommand (address.toNat % 2 ^ 24)]) := by
    simp [spiTransfer, EStateM.run, FlashChip.transfer,
      commandAddress_page, sector, change_enableWrites, sectorCommand]
  rw [flashSectorErase, Fw.run_bind_of_ok (flashWriteEnable_run m),
    Fw.run_bind_of_ok transfer, Fw.run_assert_bind rfl,
    flashWaitBusy_run]

theorem flashBlock64Erase_run (address : UInt32) (m : Machine) :
    (flashBlock64Erase address).run m =
      .ok () (m.perform [blockCommand (address.toNat % 2 ^ 24)]) := by
  have block :
      FlashChip.commandAddress (addressByte address 16) 0 0 / 65536 *
          65536 =
        address.toNat % 2 ^ 24 / 65536 * 65536 := by
    simp only [FlashChip.commandAddress,
      toNat_addressByte address 16 (by decide)]
    have digit16 : (16 : UInt32).toNat = 16 := rfl
    have digit0 : (0 : UInt8).toNat = 0 := rfl
    rw [digit16, digit0]
    omega
  have transfer :
      (spiTransfer
          [blockErase64k, addressByte address 16, 0x00, 0x00]
          [] 0).run (enableWrites m) =
        .ok (0, [])
          (m.perform [blockCommand (address.toNat % 2 ^ 24)]) := by
    simp [spiTransfer, EStateM.run, FlashChip.transfer, blockErase64k,
      sectorErase, block, change_enableWrites, blockCommand]
  rw [flashBlock64Erase, Fw.run_bind_of_ok (flashWriteEnable_run m),
    Fw.run_bind_of_ok transfer, Fw.run_assert_bind rfl,
    flashWaitBusy_run]

theorem flashReleasePowerdown_run (m : Machine) :
    flashReleasePowerdown.run m = .ok () m := by
  have transfer :
      (spiTransfer [releasePowerDown, 0x00, 0x00, 0x00] [] 0).run m =
        .ok (0, []) m := by
    simp [spiTransfer, EStateM.run, FlashChip.transfer,
      releasePowerDown, sectorErase, blockErase64k, pageProgram,
      readData]
  rw [flashReleasePowerdown, Fw.run_bind_of_ok transfer,
    Fw.run_assert rfl]

theorem flashReadData_run
    (address : UInt32)
    (size : Nat)
    (m : Machine) :
    (flashReadData address size).run m =
      .ok (0, read m.flash.memory (address.toNat % 2 ^ 24) size) m := by
  simp [flashReadData, spiTransfer, EStateM.run, FlashChip.transfer,
    readData, sectorErase, blockErase64k, pageProgram,
    commandAddress_full]

/-- One iteration of the page loop programs the head page. -/
private theorem flashWriteDataLoop_step
    (address : UInt32)
    {data : List UInt8}
    (nonempty : data.length ≠ 0)
    (m : Machine) :
    (flashWriteDataLoop address data).run m =
      (flashWriteDataLoop
        (address + (min 256 data.length).toUInt32)
        (data.drop (min 256 data.length))).run
        (m.perform
          [.program (address.toNat % 2 ^ 24 / 256 * 256)
            (data.take (min 256 data.length))]) := by
  have count :
      (if data.length ≥ 256 then 256 else data.length) =
        min 256 data.length := by
    split <;> omega
  have transfer :
      (spiTransfer
          [pageProgram, addressByte address 16, addressByte address 8,
            0x00]
          (data.take (min 256 data.length)) 0).run (enableWrites m) =
        .ok (0, [])
          (m.perform
            [.program (address.toNat % 2 ^ 24 / 256 * 256)
              (data.take (min 256 data.length))]) := by
    simp [spiTransfer, EStateM.run, FlashChip.transfer, pageProgram,
      sectorErase, blockErase64k, commandAddress_page,
      change_enableWrites]
  rw [flashWriteDataLoop, if_neg nonempty]
  simp only [count]
  rw [Fw.run_bind_of_ok (flashWriteEnable_run m),
    Fw.run_bind_of_ok transfer, if_neg (by simp),
    Fw.run_bind_of_ok (flashWaitBusy_run _)]

/-- The page loop sends one program command for each page of the data. -/
private theorem flashWriteDataLoop_run
    {address : UInt32}
    {data : List UInt8}
    (aligned : address.toNat % 256 = 0)
    (inFlash : address.toNat + data.length ≤ 2 ^ 24)
    (m : Machine) :
    (flashWriteDataLoop address data).run m =
      .ok 0 (m.perform (NorFlash.pages 256 address.toNat data)) := by
  induction length : data.length using Nat.strongRecOn
      generalizing address data m with
  | ind count inductionHypothesis =>
      by_cases empty : data.length = 0
      · have : data = [] := List.length_eq_zero_iff.mp empty
        subst data
        rw [flashWriteDataLoop, NorFlash.pages_nil]
        simp
      · have nonempty : data ≠ [] := fun isNil =>
          empty (by simp [isNil])
        have start :
            address.toNat % 2 ^ 24 / 256 * 256 = address.toNat := by
          omega
        rw [flashWriteDataLoop_step address empty, start,
          NorFlash.pages_of_ne_nil (by decide) _ nonempty]
        by_cases long : 256 ≤ data.length
        · -- a full page is followed by the rest of the data
          have full : min 256 data.length = 256 := by
            omega
          have step : (256 : Nat).toUInt32 = 256 := rfl
          have next : (address + 256).toNat = (address.toNat + 256) % 2 ^ 32 := by
            rw [UInt32.toNat_add]
            rfl
          by_cases last : data.length = 256
          · -- the loop ends without using the next address
            have done : data.drop 256 = [] := by
              simp [last]
            rw [full, done, flashWriteDataLoop, NorFlash.pages_nil]
            simp
          · have nextFits : (address + 256).toNat = address.toNat + 256 := by
              omega
            rw [full, step,
              inductionHypothesis (data.drop 256).length
                (by simp; omega) (by omega)
                (by simp [nextFits]; omega) _ rfl,
              nextFits, ← Machine.perform_append]
            rfl
        · -- the last page holds what is left
          have partialPage : min 256 data.length = data.length := by
            omega
          have done : data.drop 256 = [] := by
            simp; omega
          rw [partialPage, List.drop_length, done, flashWriteDataLoop,
            NorFlash.pages_nil, List.take_length,
            List.take_of_length_le (by omega)]
          simp

/-- An aligned nonempty write sends the page commands for the data. -/
theorem flashWriteData_run
    {address : UInt32}
    {data : List UInt8}
    (aligned : address.toNat % 256 = 0)
    (nonempty : data ≠ [])
    (inFlash : address.toNat + data.length ≤ 2 ^ 24)
    (m : Machine) :
    (flashWriteData address data).run m =
      .ok 0 (m.perform (NorFlash.pages 256 address.toNat data)) := by
  have positive : ¬ data.length ≤ 0 := by
    simpa [List.length_eq_zero_iff] using nonempty
  have alignedWord : ¬ address % 256 ≠ 0 := by
    rw [not_not]
    apply UInt32.toNat_inj.mp
    simpa using aligned
  rw [flashWriteData, if_neg positive, if_neg alignedWord]
  exact flashWriteDataLoop_run aligned inFlash m

/-- An empty or unaligned write is refused without any command. -/
theorem flashWriteData_refused
    {address : UInt32}
    {data : List UInt8}
    (refused : data = [] ∨ address.toNat % 256 ≠ 0)
    (m : Machine) :
    (flashWriteData address data).run m = .ok (-1) m := by
  rcases refused with empty | unaligned
  · simp [flashWriteData, empty]
  · have unalignedWord : address % 256 ≠ 0 := by
      intro zero
      apply unaligned
      simpa using congrArg UInt32.toNat zero
    simp [flashWriteData, unalignedWord]

end Commands

end TKey
