import TKey.Lib.PackedLayout

namespace TKey

/-!
# Flash layout and packed records

The constants and packed structures of `partition_table.h` and `reset.h`.
A packed structure of the source is a structure here together with its
`PackedLayout`, which fixes the bytes it occupies in flash or in memory.
-/

section FlashMap

/-- First address of the FPGA bitstream. -/
def addrBitstream : Nat := 0

/-- Size of the FPGA bitstream, 128 KiB. -/
def sizeBitstream : Nat := 0x20000

/-- First copy of the partition table. -/
def addrPartitionTable0 : UInt32 := 0x20000

/-- Second copy of the partition table. -/
def addrPartitionTable1 : UInt32 := 0xf0000

/-- Number of preloaded app slots. -/
def nPreloadedApp : Nat := 2

/-- First preloaded app slot. -/
def addrPreLoadedApp0 : UInt32 := 0x30000

/-- Size of a preloaded app slot, 128 KiB. -/
def sizePreLoadedApp : UInt32 := 0x20000

/-- First app storage area. -/
def addrStorageArea : UInt32 := 0x70000

/-- Size of an app storage area, 128 KiB. -/
def sizeStorageArea : UInt32 := 0x20000

/-- Slot numbers can be written as literals. -/
instance neZeroSlots : @NeZero Nat Zero.ofOfNat0 2 :=
  ⟨Nat.succ_ne_zero 1⟩

/-- So can area numbers. -/
instance neZeroAreas : @NeZero Nat Zero.ofOfNat0 4 :=
  ⟨Nat.succ_ne_zero 3⟩

end FlashMap

section MemoryMap

/-- First address of app RAM. -/
def ramBase : UInt32 := 0x40000000

/-- Size of app RAM, 128 KiB. -/
def ramSize : UInt32 := 0x20000

/-- Largest app the firmware starts, 128 KiB. -/
def appMaxSize : UInt32 := 0x20000

end MemoryMap

section PartitionTable

/-- `struct auth_metadata`. -/
@[ext] structure AuthMetadata where
  nonce : Vector UInt8 16
  authenticationDigest : Vector UInt8 16
  deriving DecidableEq

/-- `struct pre_loaded_app_metadata`. -/
@[ext] structure PreLoadedAppMetadata where
  size : UInt32
  digest : Vector UInt8 32
  signature : Vector UInt8 64
  pubkey : Vector UInt8 32
  deriving DecidableEq

/-- `struct app_storage_area`. -/
@[ext] structure AppStorageArea where
  status : UInt8
  auth : AuthMetadata
  deriving DecidableEq

/-- `struct partition_table`, with the header's only field inlined. -/
@[ext] structure PartitionTable where
  version : UInt8
  preAppData : Vector PreLoadedAppMetadata 2
  appStorage : Vector AppStorageArea 4
  deriving DecidableEq

/-- `struct partition_table_storage`. -/
@[ext] structure PartitionTableStorage where
  table : PartitionTable
  checksum : Vector UInt8 32
  deriving DecidableEq

/-- Bytes of `struct partition_table`. -/
def sizePartitionTable : Nat := 397

/-- Bytes of `struct partition_table_storage`. -/
def sizePartitionTableStorage : Nat := 429

/-- Layout of `struct auth_metadata`. -/
def AuthMetadata.layout : PackedLayout AuthMetadata 32 :=
  PackedLayout.record
    { toFun := fun auth => (auth.nonce, auth.authenticationDigest)
      invFun := fun fields => ⟨fields.1, fields.2⟩ }
    ((PackedLayout.bytes 16).pair (PackedLayout.bytes 16))

/-- Layout of `struct pre_loaded_app_metadata`. -/
def PreLoadedAppMetadata.layout :
    PackedLayout PreLoadedAppMetadata 132 :=
  PackedLayout.record
    { toFun := fun app =>
        (app.size, app.digest, app.signature, app.pubkey)
      invFun := fun fields =>
        ⟨fields.1, fields.2.1, fields.2.2.1, fields.2.2.2⟩ }
    (PackedLayout.word.pair
      ((PackedLayout.bytes 32).pair
        ((PackedLayout.bytes 64).pair (PackedLayout.bytes 32))))

/-- Layout of `struct app_storage_area`. -/
def AppStorageArea.layout : PackedLayout AppStorageArea 33 :=
  PackedLayout.record
    { toFun := fun area => (area.status, area.auth)
      invFun := fun fields => ⟨fields.1, fields.2⟩ }
    (PackedLayout.byte.pair AuthMetadata.layout)

/-- Layout of `struct partition_table`. -/
def PartitionTable.layout :
    PackedLayout PartitionTable sizePartitionTable :=
  PackedLayout.record
    { toFun := fun table =>
        (table.version, table.preAppData, table.appStorage)
      invFun := fun fields => ⟨fields.1, fields.2.1, fields.2.2⟩ }
    (PackedLayout.byte.pair
      ((PreLoadedAppMetadata.layout.array 2).pair
        (AppStorageArea.layout.array 4)))

/-- Layout of `struct partition_table_storage`. -/
def PartitionTableStorage.layout :
    PackedLayout PartitionTableStorage sizePartitionTableStorage :=
  PackedLayout.record
    { toFun := fun storage => (storage.table, storage.checksum)
      invFun := fun fields => ⟨fields.1, fields.2⟩ }
    (PartitionTable.layout.pair (PackedLayout.bytes 32))

end PartitionTable

section ResetInfo

/-- Bytes of `next_app_data`. -/
def resetDataSize : Nat := 184

/-- Probably cold boot. -/
def startDefault : UInt32 := 0

/-- Start from flash slot 0. -/
def startFlash0 : UInt32 := 1

/-- Start from flash slot 1. -/
def startFlash1 : UInt32 := 2

/-- Start from flash slot 0 and verify the app. -/
def startFlash0Ver : UInt32 := 3

/-- Start from flash slot 1 and verify the app. -/
def startFlash1Ver : UInt32 := 4

/-- Start from the client. -/
def startClient : UInt32 := 5

/-- Start from the client and verify the app. -/
def startClientVer : UInt32 := 6

/-- Bit of the reset mask that selects the measured id. -/
def resetSeed : UInt8 := 0x02

/-- `struct reset`, the record that survives a system reset. -/
@[ext] structure Reset where
  type : UInt32
  mask : UInt8
  appDigest : Vector UInt8 32
  measuredId : Vector UInt8 32
  nextAppData : Vector UInt8 184
  deriving DecidableEq

/-- The all-zero record, also the contents after power up. -/
def Reset.zero : Reset where
  type := 0
  mask := 0
  appDigest := Vector.replicate 32 0
  measuredId := Vector.replicate 32 0
  nextAppData := Vector.replicate 184 0

/-- `struct user_reset`, the request that an app passes to the firmware. -/
@[ext] structure UserReset where
  type : UInt32
  mask : UInt8
  appDigest : Vector UInt8 32
  measuredIdSeed : Vector UInt8 32
  nextAppData : Vector UInt8 184
  deriving DecidableEq

/--
Bytes of `struct user_reset`: the 253 bytes of its fields, padded to the
alignment of the 32-bit `type`.
-/
def sizeUserReset : UInt32 := 256

/-- Layout of the fields of `struct user_reset`. -/
def UserReset.layout : PackedLayout UserReset 253 :=
  PackedLayout.record
    { toFun := fun reset =>
        (reset.type, reset.mask, reset.appDigest,
          reset.measuredIdSeed, reset.nextAppData)
      invFun := fun fields =>
        ⟨fields.1, fields.2.1, fields.2.2.1, fields.2.2.2.1,
          fields.2.2.2.2⟩ }
    (PackedLayout.word.pair
      (PackedLayout.byte.pair
        ((PackedLayout.bytes 32).pair
          ((PackedLayout.bytes 32).pair (PackedLayout.bytes 184)))))

end ResetInfo

end TKey
