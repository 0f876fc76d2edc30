import TKey.Lib.NorFlash

namespace TKey

open ByteMemory

/-!
# The SPI flash chip

How the flash chip on the SPI bus answers the transfers of the firmware.  An
erase or program command takes effect only when the write enable latch is set,
and resets the latch.  The chip is taken to finish a command before the next
status poll, so it never reports busy.
-/

section Opcodes

def writeEnable : UInt8 := 0x06

def readStatusReg1 : UInt8 := 0x05

def pageProgram : UInt8 := 0x02

def sectorErase : UInt8 := 0x20

def blockErase64k : UInt8 := 0xD8

def readData : UInt8 := 0x03

def releasePowerDown : UInt8 := 0xAB

end Opcodes

/-- The memory array, the write enable latch and the commands received. -/
structure FlashChip where
  memory : Memory
  writeEnabled : Bool
  sent : List NorFlash.Command

namespace FlashChip

/-- The 24-bit address of a command, most significant byte first. -/
def commandAddress (byte3 byte2 byte1 : UInt8) : Nat :=
  byte3.toNat * 65536 + byte2.toNat * 256 + byte1.toNat

/-- Receive an erase or program command. -/
def change (command : NorFlash.Command) (chip : FlashChip) : FlashChip where
  memory :=
    if chip.writeEnabled then
      NorFlash.run [command] chip.memory
    else
      chip.memory
  writeEnabled := false
  sent := chip.sent ++ [command]

/--
One transfer: the command bytes and the transmit buffer are clocked out, then
`rxSize` bytes are clocked in.
-/
def transfer
    (cmd tx : List UInt8)
    (rxSize : Nat)
    (chip : FlashChip) : List UInt8 × FlashChip :=
  match cmd with
  | [opcode] =>
      if opcode = writeEnable then
        (List.replicate rxSize 0, { chip with writeEnabled := true })
      else if opcode = readStatusReg1 then
        (List.replicate rxSize (if chip.writeEnabled then 2 else 0), chip)
      else
        (List.replicate rxSize 0, chip)
  | [opcode, byte3, byte2, byte1] =>
      let address := commandAddress byte3 byte2 byte1
      if opcode = sectorErase then
        (List.replicate rxSize 0,
          chip.change (.erase (address / 4096 * 4096) 4096))
      else if opcode = blockErase64k then
        (List.replicate rxSize 0,
          chip.change (.erase (address / 65536 * 65536) 65536))
      else if opcode = pageProgram then
        (List.replicate rxSize 0, chip.change (.program address tx))
      else if opcode = readData then
        (read chip.memory address rxSize, chip)
      else
        (List.replicate rxSize 0, chip)
  | _ =>
      (List.replicate rxSize 0, chip)

end FlashChip

end TKey
