import TKey.Blake2s
import TKey.Flash

namespace TKey

open ByteMemory NorFlash

/-!
# Partition table

`partition_table.c`: the table is kept in two copies, each followed by a
checksum.  Reading takes the first copy that verifies; writing erases and
programs one copy after the other.
-/

/-- The checksum over the partition table, to detect flash problems. -/
def partChecksum (partTable : PartitionTable) : Fw (Vector UInt8 32) := do
  let result := blake2s 32 [] (PartitionTable.layout partTable).toList
  Fw.assert (result.isSome = true)
  return toVector 32 (result.getD [])

/-- The copies of the table, in the order in which they are used. -/
def partTableOffset : List UInt32 :=
  [addrPartitionTable0, addrPartitionTable1]

/-- The loop of `part_table_read` over the copies that are left to try. -/
def partTableReadLoop : List UInt32 → Nat → Fw Int
  | [], _ => return -1
  | offset :: rest, i => do
      let result ← flashReadData offset sizePartitionTableStorage
      modify fun m =>
        { m with
          partTableStorage :=
            PartitionTableStorage.layout.symm
              (toVector sizePartitionTableStorage result.2) }
      if result.1 ≠ 0 then
        return -1
      else do
        let m ← get
        let checkDigest ← partChecksum m.partTableStorage.table
        if checkDigest = m.partTableStorage.checksum then do
          modify fun m =>
            { m with partStatus := if i = 1 then 1 else m.partStatus }
          return 0
        else
          partTableReadLoop rest (i + 1)

/--
Read and verify the partition table storage, first trying slot 0, then slot 1
if slot 0 does not verify.
-/
def partTableRead : Fw Int := do
  flashReleasePowerdown
  modify fun m =>
    { m with
      partTableStorage :=
        PartitionTableStorage.layout.symm (Vector.replicate _ 0) }
  partTableReadLoop partTableOffset 0

/-- The loop of `part_table_write` over the copies that are left to write. -/
def partTableWriteLoop : List UInt32 → Fw Int
  | [] => return 0
  | offset :: rest => do
      flashSectorErase offset
      let m ← get
      let result ←
        flashWriteData offset
          (PartitionTableStorage.layout m.partTableStorage).toList
      if result ≠ 0 then
        return -1
      else
        partTableWriteLoop rest

def partTableWrite : Fw Int := do
  let m ← get
  let checksum ← partChecksum m.partTableStorage.table
  modify fun m =>
    { m with
      partTableStorage :=
        { m.partTableStorage with checksum := checksum } }
  partTableWriteLoop partTableOffset

section Results

/-- The checksum value that belongs to a table. -/
def tableDigest (table : PartitionTable) : Vector UInt8 32 :=
  blake2sDigest 32 [] (PartitionTable.layout table).toList

/-- A table together with the checksum that belongs to it. -/
def PartitionTable.sealed (table : PartitionTable) :
    PartitionTableStorage where
  table := table
  checksum := tableDigest table

/-- A stored table verifies when its checksum belongs to it. -/
def PartitionTableStorage.Verified
    (storage : PartitionTableStorage) : Prop :=
  tableDigest storage.table = storage.checksum

instance (storage : PartitionTableStorage) :
    Decidable storage.Verified :=
  inferInstanceAs (Decidable (_ = _))

theorem PartitionTable.sealed_verified (table : PartitionTable) :
    table.sealed.Verified :=
  rfl

/-- A verified storage is its own table with the checksum added. -/
theorem PartitionTableStorage.eq_sealed_of_verified
    {storage : PartitionTableStorage}
    (verified : storage.Verified) :
    storage = storage.table.sealed := by
  cases storage
  simp only [Verified] at verified
  simp [PartitionTable.sealed, verified]

theorem partChecksum_run
    (partTable : PartitionTable)
    (m : Machine) :
    (partChecksum partTable).run m =
      .ok (tableDigest partTable) m := by
  have hashed :=
    blake2s_eq_some (by decide : 0 < 32) (by decide)
      (by decide : ([] : List UInt8).length ≤ 32)
      (PartitionTable.layout partTable).toList
  rw [partChecksum, Fw.run_assert_bind (by simp [hashed])]
  rfl

/-- The two places where the table is stored. -/
inductive TableCopy where
  | first
  | second
  deriving Repr, DecidableEq

/-- Where a copy starts in flash. -/
def TableCopy.address : TableCopy → Nat
  | .first => 0x20000
  | .second => 0xf0000

/-- What the bytes of one copy say. -/
def loadCopy (memory : Memory) (copy : TableCopy) :
    PartitionTableStorage :=
  PartitionTableStorage.layout.symm
    (toVector sizePartitionTableStorage
      (read memory copy.address sizePartitionTableStorage))

/-- The copy that a boot would use, if any. -/
def usableCopy (memory : Memory) : Option TableCopy :=
  if (loadCopy memory .first).Verified then
    some .first
  else if (loadCopy memory .second).Verified then
    some .second
  else
    none

/-- The table that a boot would load, if any. -/
def loadTable (memory : Memory) : Option PartitionTableStorage :=
  (usableCopy memory).map (loadCopy memory)

/-- One iteration of the read loop. -/
private theorem partTableReadLoop_run
    {offset : UInt32}
    (copy : TableCopy)
    (place : offset.toNat % 2 ^ 24 = copy.address)
    (rest : List UInt32)
    (i : Nat)
    (m : Machine) :
    (partTableReadLoop (offset :: rest) i).run m =
      if (loadCopy m.flash.memory copy).Verified then
        .ok 0
          { m with
            partTableStorage := loadCopy m.flash.memory copy
            partStatus := if i = 1 then 1 else m.partStatus }
      else
        (partTableReadLoop rest (i + 1)).run
          { m with
            partTableStorage := loadCopy m.flash.memory copy } := by
  have loaded :
      PartitionTableStorage.layout.symm
          (toVector sizePartitionTableStorage
            (read m.flash.memory (offset.toNat % 2 ^ 24)
              sizePartitionTableStorage)) =
        loadCopy m.flash.memory copy := by
    rw [place, loadCopy]
  rw [partTableReadLoop, Fw.run_bind_of_ok (flashReadData_run offset _ m),
    Fw.run_modify_bind, loaded, if_neg (by simp), Fw.run_get_bind,
    Fw.run_bind_of_ok (partChecksum_run _ _), Fw.run_ite,
    Fw.run_modify_bind]
  rfl

/-- The result of reading the table, computed from the flash contents. -/
theorem partTableRead_run (m : Machine) :
    partTableRead.run m =
      match usableCopy m.flash.memory with
      | some .first =>
          .ok 0
            { m with
              partTableStorage := loadCopy m.flash.memory .first }
      | some .second =>
          .ok 0
            { m with
              partTableStorage := loadCopy m.flash.memory .second
              partStatus := 1 }
      | none =>
          .ok (-1)
            { m with
              partTableStorage := loadCopy m.flash.memory .second } := by
  rw [partTableRead, Fw.run_bind_of_ok (flashReleasePowerdown_run m),
    Fw.run_modify_bind, partTableOffset,
    partTableReadLoop_run .first rfl,
    partTableReadLoop_run .second rfl, partTableReadLoop,
    usableCopy]
  by_cases firstGood : (loadCopy m.flash.memory .first).Verified
  · rw [if_pos firstGood, if_pos firstGood]
    rfl
  · rw [if_neg firstGood, if_neg firstGood]
    by_cases secondGood : (loadCopy m.flash.memory .second).Verified
    · rw [if_pos secondGood, if_pos secondGood]
      rfl
    · rw [if_neg secondGood, if_neg secondGood]
      rfl

/-- The commands that erase and rewrite one copy of the table. -/
def copyCommands
    (copy : TableCopy)
    (storage : PartitionTableStorage) : List Command :=
  sectorCommand copy.address ::
    pages 256 copy.address (PartitionTableStorage.layout storage).toList

/-- The commands of a table update. -/
def tableCommands (storage : PartitionTableStorage) : List Command :=
  copyCommands .first storage ++ copyCommands .second storage

/-- One iteration of the write loop. -/
private theorem partTableWriteLoop_run
    {offset : UInt32}
    (copy : TableCopy)
    (place : offset.toNat = copy.address)
    (rest : List UInt32)
    (m : Machine) :
    (partTableWriteLoop (offset :: rest)).run m =
      (partTableWriteLoop rest).run
        (m.perform (copyCommands copy m.partTableStorage)) := by
  have inFlash : copy.address + 429 ≤ 2 ^ 24 := by
    cases copy <;> decide
  have aligned : copy.address % 256 = 0 := by
    cases copy <;> rfl
  have sector :
      sectorCommand (offset.toNat % 2 ^ 24) =
        sectorCommand copy.address := by
    rw [place, Nat.mod_eq_of_lt (by omega)]
  have written :
      (flashWriteData offset
          (PartitionTableStorage.layout
            (m.perform [sectorCommand copy.address]).partTableStorage
            ).toList).run
          (m.perform [sectorCommand copy.address]) =
        .ok 0 (m.perform (copyCommands copy m.partTableStorage)) := by
    rw [flashWriteData_run (by rw [place]; exact aligned)
        (List.ne_nil_of_length_pos (by simp [sizePartitionTableStorage]))
        (by rw [place]; simpa [sizePartitionTableStorage] using inFlash),
      ← Machine.perform_append, place]
    rfl
  rw [partTableWriteLoop,
    Fw.run_bind_of_ok (flashSectorErase_run offset m), sector,
    Fw.run_get_bind, Fw.run_bind_of_ok written, if_neg (by simp)]

/-- A table update seals the table and sends the commands for both copies. -/
theorem partTableWrite_run (m : Machine) :
    partTableWrite.run m =
      .ok 0
        (({ m with
            partTableStorage :=
              m.partTableStorage.table.sealed }).perform
          (tableCommands m.partTableStorage.table.sealed)) := by
  rw [partTableWrite, Fw.run_get_bind,
    Fw.run_bind_of_ok (partChecksum_run _ _), Fw.run_modify_bind,
    partTableOffset, partTableWriteLoop_run .first rfl,
    partTableWriteLoop_run .second rfl,
    ← Machine.perform_append, partTableWriteLoop]
  rfl

/-- Rewriting a copy only touches the sector that holds it. -/
theorem within_copyCommands
    (copy : TableCopy)
    (storage : PartitionTableStorage) :
    Within (copyCommands copy storage) copy.address 4096 := by
  intro command member
  rcases List.mem_cons.mp member with isErase | inPages
  · subst isErase
    cases copy <;>
      simp [sectorCommand, Command.first, Command.size,
        TableCopy.address]
  · have bounds :=
      within_pages (by decide) copy.address
        (PartitionTableStorage.layout storage).toList command inPages
    simp only [Vector.length_toList, sizePartitionTableStorage] at bounds
    omega

/-- A copy is known once its bytes are. -/
theorem loadCopy_of_read
    {memory : Memory}
    {copy : TableCopy}
    {storage : PartitionTableStorage}
    (bytes :
      read memory copy.address sizePartitionTableStorage =
        (PartitionTableStorage.layout storage).toList) :
    loadCopy memory copy = storage := by
  rw [loadCopy, bytes, toVector_toList, Equiv.symm_apply_apply]

/-- A rewritten copy holds the storage that was written. -/
theorem loadCopy_run_copyCommands
    (copy : TableCopy)
    (storage : PartitionTableStorage)
    (memory : Memory) :
    loadCopy (run (copyCommands copy storage) memory) copy = storage := by
  have sector :
      sectorCommand copy.address = .erase copy.address 4096 := by
    cases copy <;> rfl
  have fits :
      (PartitionTableStorage.layout storage).toList.length ≤ 4096 := by
    simp [sizePartitionTableStorage]
  have stored :
      read
          (run
            (.erase copy.address 4096 ::
              pages 256 copy.address
                (PartitionTableStorage.layout storage).toList)
            memory)
          copy.address
          (PartitionTableStorage.layout storage).toList.length =
        (PartitionTableStorage.layout storage).toList :=
    read_run_erase_pages (by decide) fits memory
  apply loadCopy_of_read
  rw [copyCommands, sector]
  simpa using stored

/-- A copy is unaffected by commands that stay away from its sector. -/
theorem loadCopy_congr
    {left right : Memory}
    {copy : TableCopy}
    (same :
      ∀ address,
        copy.address ≤ address →
        address < copy.address + 4096 →
        left address = right address) :
    loadCopy left copy = loadCopy right copy := by
  have bytes :
      read left copy.address sizePartitionTableStorage =
        read right copy.address sizePartitionTableStorage := by
    apply read_congr
    intro index inBounds
    simp only [sizePartitionTableStorage] at inBounds
    exact same _ (by omega) (by omega)
  rw [loadCopy, loadCopy, bytes]

/-- Rewriting one copy leaves the other as it was. -/
theorem loadCopy_run_copyCommands_other
    {copy other : TableCopy}
    (different : other ≠ copy)
    (storage : PartitionTableStorage)
    (memory : Memory) :
    loadCopy (run (copyCommands copy storage) memory) other =
      loadCopy memory other := by
  apply loadCopy_congr
  intro address low high
  apply run_of_avoids
  apply (within_copyCommands copy storage).avoids
  cases copy <;> cases other <;>
    simp_all [TableCopy.address] <;>
    omega

/-- After a table update both copies hold the written storage. -/
theorem loadCopy_run_tableCommands
    (copy : TableCopy)
    (storage : PartitionTableStorage)
    (memory : Memory) :
    loadCopy (run (tableCommands storage) memory) copy = storage := by
  rw [tableCommands, run_append]
  cases copy with
  | first =>
      rw [loadCopy_run_copyCommands_other (by decide),
        loadCopy_run_copyCommands]
  | second =>
      exact loadCopy_run_copyCommands .second storage _

/-- After a table update a boot uses the first copy. -/
theorem usableCopy_run_tableCommands
    {storage : PartitionTableStorage}
    (verified : storage.Verified)
    (memory : Memory) :
    usableCopy (run (tableCommands storage) memory) = some .first := by
  rw [usableCopy, loadCopy_run_tableCommands, if_pos verified]

end Results

end TKey
