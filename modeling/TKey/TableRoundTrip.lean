import Mathlib.Data.Set.Function
import TKey.System
import TKey.TkeyImage

namespace TKey

open ByteMemory NorFlash

/-!
# The partition table, written and read again

`part_table_write` stores two copies; `part_table_read` of the next boot takes
the first one whose checksum is that of its table.  The checksum is a plain
digest: it shows that a copy is consistent, not that it is the copy that was
written.
-/

section Boot

/-- A reset, and `part_table_read` of the boot that follows. -/
def nextRead
    (chip : FlashChip)
    (ram : Memory)
    (info : Reset) : EStateM.Result Stop Machine Int :=
  partTableRead.run (Machine.entered chip ram info)

/-- What a boot reads depends on which copies verify. -/
theorem nextRead_eq (chip : FlashChip) (ram : Memory) (info : Reset) :
    nextRead chip ram info =
      match usableCopy chip.memory with
      | some copy =>
          .ok 0 ((Machine.entered chip ram info).withCopy copy)
      | none =>
          .ok (-1) (Machine.entered chip ram info).withoutCopy := by
  rw [nextRead, partTableRead_run]
  have memory : (Machine.entered chip ram info).flash.memory = chip.memory :=
    rfl
  rw [memory]
  cases usableCopy chip.memory with
  | none =>
      rfl
  | some copy =>
      cases copy <;> rfl

/-- A boot with a usable copy ends with this copy and says which one it is. -/
def BootsWith
    (chip : FlashChip)
    (storage : PartitionTableStorage)
    (status : UInt32) : Prop :=
  ∀ ram info,
    ∃ m,
      nextRead chip ram info = .ok 0 m ∧
      m.partTableStorage = storage ∧
      m.partStatus = status

/-- `part_status` when a copy is used. -/
def TableCopy.status : TableCopy → UInt32
  | .first => 0
  | .second => 1

/-- A boot uses a usable copy and says which one it is. -/
theorem bootsWith_of_usableCopy
    {chip : FlashChip}
    {copy : TableCopy}
    (usable : usableCopy chip.memory = some copy) :
    BootsWith chip (loadCopy chip.memory copy) copy.status := by
  intro ram info
  refine ⟨(Machine.entered chip ram info).withCopy copy, ?_, ?_, ?_⟩
  · rw [nextRead_eq, usable]
  · simp only [Machine.withCopy, Machine.flash_entered]
  · cases copy <;> simp only [Machine.withCopy, Machine.entered, TableCopy.status]

theorem bootsWith_first
    {chip : FlashChip}
    (verified : (loadCopy chip.memory .first).Verified) :
    BootsWith chip (loadCopy chip.memory .first) 0 := by
  apply bootsWith_of_usableCopy
  rw [usableCopy, if_pos verified]

theorem bootsWith_second
    {chip : FlashChip}
    (unverified : ¬ (loadCopy chip.memory .first).Verified)
    (verified : (loadCopy chip.memory .second).Verified) :
    BootsWith chip (loadCopy chip.memory .second) 1 := by
  apply bootsWith_of_usableCopy
  rw [usableCopy, if_neg unverified, if_pos verified]

end Boot

section Write

/-- The bytes of one copy. -/
def copyBytes (memory : Memory) (copy : TableCopy) : List UInt8 :=
  read memory copy.address sizePartitionTableStorage

/-- The bytes that are stored for a table. -/
def PartitionTable.storedBytes (table : PartitionTable) : List UInt8 :=
  (PartitionTableStorage.layout table.sealed).toList

/-- The bytes of a copy say what the copy holds, and the other way round. -/
theorem copyBytes_eq_iff
    (memory : Memory)
    (copy : TableCopy)
    (storage : PartitionTableStorage) :
    copyBytes memory copy = (PartitionTableStorage.layout storage).toList ↔
      loadCopy memory copy = storage := by
  constructor
  · exact loadCopy_of_read
  · intro loaded
    rw [← loaded, loadCopy, Equiv.apply_symm_apply,
      toList_toVector (length_read ..), copyBytes]

/-- The machine after a table update. -/
def Machine.tableWritten (m : Machine) : Machine :=
  ({ m with
      partTableStorage := m.partTableStorage.table.sealed }).perform
    (tableCommands m.partTableStorage.table.sealed)

theorem copyBytes_tableWritten (m : Machine) (copy : TableCopy) :
    copyBytes m.tableWritten.flash.memory copy =
      m.partTableStorage.table.storedBytes := by
  rw [PartitionTable.storedBytes, copyBytes_eq_iff]
  exact loadCopy_run_tableCommands copy _ _

/-- Outside the sectors of the copies a table update changes nothing. -/
theorem memory_tableWritten
    (m : Machine)
    {place : Nat}
    (outside : ∀ copy : TableCopy,
      place < copy.address ∨ copy.address + 4096 ≤ place) :
    m.tableWritten.flash.memory place = m.flash.memory place := by
  apply run_of_avoids
  intro command member
  rcases List.mem_append.mp member with inFirst | inSecond
  · exact (within_copyCommands .first _).avoids (outside .first) command inFirst
  · exact (within_copyCommands .second _).avoids (outside .second) command
      inSecond

end Write

section Damage

variable {table : PartitionTable} {chip : FlashChip}

/-- With an undamaged first copy the second one does not matter. -/
theorem bootsWith_of_first
    (intact : copyBytes chip.memory .first = table.storedBytes) :
    BootsWith chip table.sealed 0 := by
  have loaded := (copyBytes_eq_iff chip.memory .first table.sealed).mp intact
  rw [← loaded]
  apply bootsWith_first
  rw [loaded]
  exact table.sealed_verified

/-- With an undamaged second copy the first one decides whether it is used. -/
theorem bootsWith_of_second
    (intact : copyBytes chip.memory .second = table.storedBytes)
    (unverified : ¬ (loadCopy chip.memory .first).Verified) :
    BootsWith chip table.sealed 1 := by
  have loaded := (copyBytes_eq_iff chip.memory .second table.sealed).mp intact
  rw [← loaded]
  apply bootsWith_second unverified
  rw [loaded]
  exact table.sealed_verified

/-- The checksum has no collision between two tables. -/
def NoCollision (table table' : PartitionTable) : Prop :=
  Set.InjOn tableDigest {table, table'}

/-- A consistent copy with the checksum of a table holds this table. -/
theorem eq_sealed_of_checksum
    {storage : PartitionTableStorage}
    (verified : storage.Verified)
    (noCollision : NoCollision table storage.table)
    (checksum : storage.checksum = tableDigest table) :
    storage = table.sealed := by
  have digests : tableDigest table = tableDigest storage.table := by
    rw [verified, checksum]
  have same : table = storage.table :=
    noCollision (Set.mem_insert _ _)
      (Set.mem_insert_of_mem _ (Set.mem_singleton _)) digests
  rw [same]
  exact storage.eq_sealed_of_verified verified

/--
A table update succeeds, stores both copies and leaves the rest of flash alone.
The next boot reads the table again.  After any damage to one copy it still
reads a table: the first copy, or the second where the first does not verify and
is reported.  The table is the written one, unless the damage has made the first
copy another table with another checksum that belongs to it.
-/
theorem table_roundTrip (m : Machine) :
    let table := m.partTableStorage.table
    ∃ written,
      partTableWrite.run m = .ok 0 written ∧
      (∀ copy, copyBytes written.flash.memory copy = table.storedBytes) ∧
      BootsWith written.flash table.sealed 0 ∧
      (∀ place,
        (∀ copy : TableCopy,
          place < copy.address ∨ copy.address + 4096 ≤ place) →
        written.flash.memory place = m.flash.memory place) ∧
      ∀ damaged intact,
        copyBytes damaged.memory intact =
          copyBytes written.flash.memory intact →
        let first := loadCopy damaged.memory .first
        NoCollision table first.table →
        ∃ storage,
          BootsWith damaged storage (if first.Verified then 0 else 1) ∧
          (first.Verified → storage = first) ∧
          (storage = table.sealed ∨
            intact = .second ∧ storage = first ∧ first.Verified ∧
              first.table ≠ table ∧
              first.checksum ≠ tableDigest table) := by
  intro table
  refine ⟨m.tableWritten, partTableWrite_run m, copyBytes_tableWritten m, ?_, ?_,
    ?_⟩
  · exact bootsWith_of_first (copyBytes_tableWritten m .first)
  · intro place outside
    exact memory_tableWritten m outside
  · intro damaged intact same first noCollision
    rw [copyBytes_tableWritten] at same
    cases intact with
    | first =>
        have loaded : first = table.sealed :=
          (copyBytes_eq_iff damaged.memory .first table.sealed).mp same
        refine ⟨table.sealed, ?_, fun _ => loaded.symm, Or.inl rfl⟩
        rw [if_pos (by rw [loaded]; exact table.sealed_verified)]
        exact bootsWith_of_first same
    | second =>
        by_cases verified : first.Verified
        · refine ⟨first, ?_, fun _ => rfl, ?_⟩
          · rw [if_pos verified]
            exact bootsWith_first verified
          · by_cases checksum : first.checksum = tableDigest table
            · exact Or.inl (eq_sealed_of_checksum verified noCollision checksum)
            · right
              refine ⟨rfl, rfl, verified, ?_, checksum⟩
              intro sameTable
              apply checksum
              rw [← sameTable]
              exact verified.symm
        · refine ⟨table.sealed, ?_, fun holds => absurd holds verified, Or.inl rfl⟩
          rw [if_neg verified]
          exact bootsWith_of_second same verified

end Damage

section Samples

/-- A table of the image tool that ends with a byte. -/
def sampleTable (last : UInt8) : PartitionTable :=
  TkeyImage.PartTable.partitionTable
    { version := 1
      preLoadedAppData := Vector.replicate 2 .zero
      appStorage :=
        (Vector.replicate 3 TkeyImage.AppStorage.zero).push
          { status := 0
            auth :=
              { nonce := TkeyImage.zeroed 16
                authDigest := (TkeyImage.zeroed 15).push last } } }

/-- The bytes of such a table, block by block. -/
def sampleBytes (last : UInt8) : List UInt8 :=
  1 :: List.replicate 63 0 ++ List.replicate 64 0 ++ List.replicate 64 0 ++
    List.replicate 64 0 ++ List.replicate 64 0 ++ List.replicate 64 0 ++
    (List.replicate 12 0 ++ [last])

deriving instance DecidableEq for Blake2sCtx

/-- The hash context before the block at an offset that is not the first one. -/
def blockCtx
    (offset : UInt32)
    (h : Vector UInt32 8)
    (b : Vector UInt8 64) : Blake2sCtx where
  b := b
  h := h
  t0 := offset
  t1 := 0
  c := 64
  outlen := 32

def zeroBlock : Vector UInt8 64 :=
  Vector.replicate 64 0

/-- The chaining values of the hash before each full block. -/
def sampleChain : Vector (Vector UInt32 8) 6 :=
  #v[
    #v[0x6b08e647, 0xbb67ae85, 0x3c6ef372, 0xa54ff53a,
      0x510e527f, 0x9b05688c, 0x1f83d9ab, 0x5be0cd19],
    #v[0x7ae0cdaa, 0x65f78f17, 0x476ef904, 0x0ce5fcf1,
      0x1a400e80, 0x64219dab, 0xc70508f4, 0x83f37558],
    #v[0x977d0b6d, 0x5f6f4035, 0x3718beb4, 0x98b44939,
      0x09f7c876, 0x30ccfb34, 0x03d08fbd, 0x0dddaa62],
    #v[0x6041a6aa, 0x133660c1, 0x88e6ab52, 0xb5136c58,
      0x6977b465, 0xd1c62899, 0xa63ef50e, 0x710c5ef1],
    #v[0x3798d38a, 0x6e38ed3e, 0x7bd5ca51, 0xd7413351,
      0x2a75562d, 0x49a6622f, 0x5c09aa51, 0xdf1b4050],
    #v[0x4168ed90, 0xdaabb25a, 0xdb6f800c, 0x6a74bde3,
      0x34af93b0, 0x53456dcb, 0x27665a24, 0x3b950f6d]]

theorem blake2s_sample_first :
    (blake2sInit 32 []).map (blake2sUpdate · (1 :: List.replicate 63 0)) =
      some (blockCtx 0 sampleChain[0] (zeroBlock.set 0 1)) := by
  decide +kernel

theorem blake2s_sample_second :
    blake2sUpdate (blockCtx 0 sampleChain[0] (zeroBlock.set 0 1))
        (List.replicate 64 0) =
      blockCtx 64 sampleChain[1] zeroBlock := by
  decide +kernel

theorem blake2s_sample_blocks :
    ∀ block : Fin 4,
      blake2sUpdate
          (blockCtx (64 * (block.val + 1).toUInt32)
            (sampleChain.get ⟨block.val + 1, by omega⟩) zeroBlock)
          (List.replicate 64 0) =
        blockCtx (64 * (block.val + 2).toUInt32)
          (sampleChain.get ⟨block.val + 2, by omega⟩) zeroBlock := by
  decide +kernel

/-- The context after the full blocks. -/
def sampleCtx : Blake2sCtx :=
  blockCtx 320 sampleChain[5] zeroBlock

theorem blake2s_sample (last : UInt8) :
    blake2s 32 [] (sampleBytes last) =
      some (blake2sFinal
        (blake2sUpdate sampleCtx (List.replicate 12 0 ++ [last]))) := by
  have first := blake2s_sample_first
  rw [Option.map_eq_some_iff] at first
  rcases first with ⟨ctx, init, first⟩
  rw [blake2s, init, Option.map_some, sampleBytes]
  simp only [blake2sUpdate_append]
  rw [first, blake2s_sample_second]
  have block1 : blake2sUpdate (blockCtx 64 sampleChain[1] zeroBlock)
      (List.replicate 64 0) = blockCtx 128 sampleChain[2] zeroBlock :=
    blake2s_sample_blocks 0
  have block2 : blake2sUpdate (blockCtx 128 sampleChain[2] zeroBlock)
      (List.replicate 64 0) = blockCtx 192 sampleChain[3] zeroBlock :=
    blake2s_sample_blocks 1
  have block3 : blake2sUpdate (blockCtx 192 sampleChain[3] zeroBlock)
      (List.replicate 64 0) = blockCtx 256 sampleChain[4] zeroBlock :=
    blake2s_sample_blocks 2
  have block4 : blake2sUpdate (blockCtx 256 sampleChain[4] zeroBlock)
      (List.replicate 64 0) = blockCtx 320 sampleChain[5] zeroBlock :=
    blake2s_sample_blocks 3
  rw [block1, block2, block3, block4]
  rfl

theorem blake2s_sample_last :
    toVector 32 (blake2sFinal
        (blake2sUpdate sampleCtx (List.replicate 12 0 ++ [0]))) ≠
      toVector 32 (blake2sFinal
        (blake2sUpdate sampleCtx (List.replicate 12 0 ++ [1]))) := by
  decide +kernel

theorem toList_sampleTable_zero :
    (PartitionTable.layout (sampleTable 0)).toList = sampleBytes 0 := by
  rw [sampleTable, ← TkeyImage.encodePartTable_eq]
  decide +kernel

theorem toList_sampleTable_one :
    (PartitionTable.layout (sampleTable 1)).toList = sampleBytes 1 := by
  rw [sampleTable, ← TkeyImage.encodePartTable_eq]
  decide +kernel

/-- The two tables have different checksums. -/
theorem tableDigest_sampleTable :
    tableDigest (sampleTable 0) ≠ tableDigest (sampleTable 1) := by
  rw [tableDigest, tableDigest, toList_sampleTable_zero, toList_sampleTable_one,
    blake2sDigest, blake2sDigest, blake2s_sample, blake2s_sample]
  exact blake2s_sample_last

/-- A boot reads one storage only. -/
theorem BootsWith.unique
    {chip : FlashChip}
    {storage storage' : PartitionTableStorage}
    {status status' : UInt32}
    (boots : BootsWith chip storage status)
    (boots' : BootsWith chip storage' status') :
    storage = storage' := by
  rcases boots (fun _ => 0) .zero with ⟨m, result, isStorage, -⟩
  rcases boots' (fun _ => 0) .zero with ⟨m', result', isStorage', -⟩
  have sameMachine : m = m' :=
    (EStateM.Result.ok.inj (result.symm.trans result')).2
  rw [← isStorage, ← isStorage', sameMachine]

/--
A first copy that is replaced by a table with its own checksum is used, though
there is no collision.
-/
theorem consistent_damage :
    ¬ ∀ (m : Machine) (damaged : FlashChip) (intact : TableCopy),
      copyBytes damaged.memory intact =
        copyBytes m.tableWritten.flash.memory intact →
      NoCollision m.partTableStorage.table
        (loadCopy damaged.memory .first).table →
      ∃ status, BootsWith damaged m.partTableStorage.table.sealed status := by
  intro claimed
  have table := Machine.table_provisioned (sampleTable 0)
  rw [Machine.table] at table
  let written := (Machine.provisioned (sampleTable 0)).tableWritten
  let damaged : FlashChip :=
    { written.flash with
      memory :=
        run (copyCommands .first (sampleTable 1).sealed) written.flash.memory }
  have first : loadCopy damaged.memory .first = (sampleTable 1).sealed :=
    loadCopy_run_copyCommands .first _ _
  have second : loadCopy damaged.memory .second =
      loadCopy written.flash.memory .second :=
    loadCopy_run_copyCommands_other (by decide) _ _
  have boots : BootsWith damaged (loadCopy damaged.memory .first) 0 := by
    apply bootsWith_first
    rw [first]
    exact PartitionTable.sealed_verified _
  have intact : copyBytes damaged.memory .second =
      copyBytes written.flash.memory .second := by
    rw [copyBytes_tableWritten, PartitionTable.storedBytes, copyBytes_eq_iff,
      second]
    exact loadCopy_run_tableCommands .second _ _
  have noCollision : NoCollision
      (Machine.provisioned (sampleTable 0)).partTableStorage.table
      (loadCopy damaged.memory .first).table := by
    rw [table, first, NoCollision, Set.injOn_pair]
    exact fun same => absurd same tableDigest_sampleTable
  rcases claimed (.provisioned (sampleTable 0)) damaged .second intact
    noCollision with ⟨status, claimedBoot⟩
  have same := boots.unique claimedBoot
  rw [first, table] at same
  apply tableDigest_sampleTable
  exact congrArg PartitionTableStorage.checksum same.symm

end Samples

end TKey
