import Mathlib.Data.List.Induction
import TKey.MainLoop

namespace TKey

open ByteMemory NorFlash

/-!
# Regions of flash

Where the bitstream, the app slots, the storage areas and the copies of the
partition table lie, and which commands stay inside of them.
-/

section Regions

/-- The FPGA bitstream. -/
def InBitstream (address : Nat) : Prop :=
  addrBitstream ≤ address ∧ address < addrBitstream + sizeBitstream

/-- The 128 KiB of an app slot. -/
def InSlot (slot : Fin 2) (address : Nat) : Prop :=
  appStart slot ≤ address ∧ address < appStart slot + 0x20000

/-- The 128 KiB of a storage area. -/
def InStorage (index : Fin 4) (address : Nat) : Prop :=
  areaStart index ≤ address ∧ address < areaStart index + 0x20000

/-- The sector of a copy of the partition table. -/
def InTable (copy : TableCopy) (address : Nat) : Prop :=
  copy.address ≤ address ∧ address < copy.address + 4096

/-- Every command touches only addresses with a property. -/
def Confined
    (commands : List Command)
    (allowed : Nat → Prop) : Prop :=
  ∀ command, command ∈ commands →
    ∀ address, command.Touches address → allowed address

theorem Confined.append
    {earlier later : List Command}
    {allowed : Nat → Prop}
    (first : Confined earlier allowed)
    (second : Confined later allowed) :
    Confined (earlier ++ later) allowed := by
  intro command member
  rcases List.mem_append.mp member with early | late
  · exact first command early
  · exact second command late

theorem Confined.mono
    {commands : List Command}
    {allowed wider : Nat → Prop}
    (confined : Confined commands allowed)
    (widens : ∀ address, allowed address → wider address) :
    Confined commands wider := by
  intro command member address touches
  exact widens address (confined command member address touches)

/-- Commands within a range are confined to it. -/
theorem Confined.of_within
    {commands : List Command}
    {first count : Nat}
    (within : Within commands first count) :
    Confined commands fun address =>
      first ≤ address ∧ address < first + count := by
  intro command member address touches
  have bounds := within command member
  obtain ⟨low, high⟩ := touches
  constructor <;> omega

/-- A byte that changes is touched by some command. -/
theorem Confined.of_changed
    {commands : List Command}
    {allowed : Nat → Prop}
    (confined : Confined commands allowed)
    (memory : Memory)
    {address : Nat}
    (changed : run commands memory address ≠ memory address) :
    allowed address := by
  by_contra forbidden
  apply changed
  apply run_of_avoids
  intro command member touches
  exact forbidden (confined command member address touches)

/-- Erasing two 64 KiB blocks stays within their 128 KiB. -/
private theorem within_blocks (start : Nat) :
    Within [.erase start 0x10000, .erase (start + 0x10000) 0x10000]
      start 0x20000 := by
  intro command member
  simp only [List.mem_cons, List.not_mem_nil, or_false] at member
  rcases member with rfl | rfl
  · refine ⟨?_, ?_⟩ <;> simp only [Command.first, Command.size] <;> omega
  · refine ⟨?_, ?_⟩ <;> simp only [Command.first, Command.size] <;> omega

theorem confined_areaErase (index : Fin 4) :
    Confined (areaErase index) (InStorage index) :=
  Confined.of_within (within_blocks (areaStart index))

theorem confined_slotErase (slot : Fin 2) :
    Confined (slotErase slot) (InSlot slot) :=
  Confined.of_within (within_blocks (appStart slot))

theorem confined_allAreasErase :
    Confined allAreasErase fun address =>
      ∃ index, InStorage index address := by
  intro command member address touches
  obtain ⟨index, _, inArea⟩ := List.mem_flatMap.mp member
  exact ⟨index, confined_areaErase index command inArea address touches⟩

theorem confined_tableCommands (storage : PartitionTableStorage) :
    Confined (tableCommands storage) fun address =>
      ∃ copy, InTable copy address := by
  have each (copy : TableCopy) :
      Confined (copyCommands copy storage) fun address =>
        ∃ copy, InTable copy address :=
    (Confined.of_within (within_copyCommands copy storage)).mono
      fun _ inSector => ⟨copy, inSector⟩
  exact (each .first).append (each .second)

/-- A paged write of a range in a region stays in the region. -/
theorem confined_pages
    {start offset : Nat}
    {data : List UInt8}
    (inside : offset + data.length ≤ 0x20000) :
    Confined (pages 256 (start + offset) data) fun address =>
      start ≤ address ∧ address < start + 0x20000 := by
  apply Confined.of_within
  exact (within_pages (by decide) (start + offset) data).mono
    (by omega) (by omega)

/-- Erasing sectors of a range in a region stays in the region. -/
theorem confined_sectorErases
    {start offset count : Nat}
    (inside : offset + 4096 * count ≤ 0x20000) :
    Confined (sectorErases (start + offset) count) fun address =>
      start ≤ address ∧ address < start + 0x20000 := by
  apply Confined.of_within
  intro command member
  obtain ⟨sector, inRange, rfl⟩ := List.mem_map.mp member
  have bound := List.mem_range.mp inRange
  simp only [Command.first, Command.size]
  constructor <;> omega

/-- Where the storage areas are. -/
theorem InStorage.bounds
    {index : Fin 4}
    {address : Nat}
    (inStorage : InStorage index address) :
    0x70000 ≤ address ∧ address < 0xf0000 := by
  have start := areaStart_bounds index
  simp only [InStorage] at inStorage
  omega

/-- Where the app slots are. -/
theorem InSlot.bounds
    {slot : Fin 2}
    {address : Nat}
    (inSlot : InSlot slot address) :
    0x30000 ≤ address ∧ address < 0x70000 := by
  have start := appStart_bounds slot
  simp only [InSlot] at inSlot
  omega

/-- Where the copies of the partition table are. -/
theorem InTable.bounds
    {copy : TableCopy}
    {address : Nat}
    (inTable : InTable copy address) :
    0x20000 ≤ address ∧ address < 0x21000 ∨ 0xf0000 ≤ address := by
  cases copy with
  | first => exact .inl inTable
  | second => exact .inr inTable.1

/-- An address lies in one storage area at most. -/
theorem InStorage.unique
    {index other : Fin 4}
    {address : Nat}
    (inStorage : InStorage index address)
    (inOther : InStorage other address) :
    index = other := by
  simp only [InStorage, areaStart] at inStorage inOther
  apply Fin.ext
  omega

end Regions

section Sent

/-- The chip after the commands of one step. -/
def FlashChip.After
    (commands : List Command)
    (before after : FlashChip) : Prop :=
  after.memory = run commands before.memory ∧
    after.sent = before.sent ++ commands

theorem FlashChip.After.unchanged (chip : FlashChip) :
    FlashChip.After [] chip chip :=
  ⟨rfl, (List.append_nil chip.sent).symm⟩

theorem FlashChip.After.perform
    (commands : List Command)
    (m : Machine) :
    FlashChip.After commands m.flash (m.perform commands).flash :=
  ⟨rfl, rfl⟩

theorem FlashChip.After.resetinfo (info : Reset) (m : Machine) :
    FlashChip.After [] m.flash
      (resultMachine (α := Int)
        (.error .systemReset { m with resetinfo := info })).flash :=
  .unchanged m.flash

theorem FlashChip.After.updateTable
    (before : List Command)
    (table : PartitionTable)
    (after : List Command)
    (m : Machine) :
    FlashChip.After (before ++ tableCommands table.sealed ++ after)
      m.flash (m.updateTable before table after).flash :=
  .perform _ { m with partTableStorage := table.sealed }

end Sent

end TKey
