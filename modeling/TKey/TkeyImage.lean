import TKey.PreloadApp

namespace TKey.TkeyImage

open ByteMemory

/-!
# The image tool

`tkeyimage.go` makes the flash contents of a new device.  The tool has its own
declarations of the packed structures and of the flash map; they are
translated here on their own and then compared with those of the firmware.
-/

section Structures

/-- Maximum allowed size in bytes of a preloaded app. -/
def maxAppSize : Nat := 128 * 1024

/-- Size in bytes of the partition table binary. -/
def partitionSize : Nat := 429

structure PreLoadedAppData where
  size : UInt32
  digest : Vector UInt8 32
  signature : Vector UInt8 64
  pubkey : Vector UInt8 32

structure Auth where
  nonce : Vector UInt8 16
  authDigest : Vector UInt8 16

structure AppStorage where
  status : UInt8
  auth : Auth

structure PartTable where
  version : UInt8
  preLoadedAppData : Vector PreLoadedAppData 2
  appStorage : Vector AppStorage 4

structure PartTableStorage where
  partTable : PartTable
  checksum : Vector UInt8 32

structure Flash where
  bitstream : Vector UInt8 0x20000
  partitionTable : PartTableStorage
  partitionTablePadding : Vector UInt8 (64 * 1024 - partitionSize)
  preLoadedApp0 : Vector UInt8 0x20000
  preLoadedApp1 : Vector UInt8 0x20000
  appStorage : Vector (Vector UInt8 0x20000) 4
  partitionTable2 : PartTableStorage
  partitionTablePadding2 : Vector UInt8 (64 * 1024 - partitionSize)

/-- A public key as `ReadKey` returns it. -/
structure PubKey where
  alg : Vector UInt8 2
  keyNum : Vector UInt8 8
  key : Vector UInt8 32

/-- A signature as `ReadSig` returns it. -/
structure Signature where
  alg : Vector UInt8 2
  keyNum : Vector UInt8 8
  sig : Vector UInt8 64

/-- An array that was declared and not assigned. -/
def zeroed (n : Nat) : Vector UInt8 n :=
  Vector.replicate n 0

/-- The entry `PreLoadedAppData{}`. -/
def PreLoadedAppData.zero : PreLoadedAppData where
  size := 0
  digest := zeroed 32
  signature := zeroed 64
  pubkey := zeroed 32

/-- The entry `AppStorage{}`. -/
def AppStorage.zero : AppStorage where
  status := 0
  auth := { nonce := zeroed 16, authDigest := zeroed 16 }

end Structures

section Encoding

/-!
`binary.Encode` and `binary.Write` with `binary.LittleEndian`: the fields one
after the other, without padding.
-/

def encodeUint32 (value : UInt32) : List UInt8 :=
  [value.toUInt8, (value >>> 8).toUInt8, (value >>> 16).toUInt8,
    (value >>> 24).toUInt8]

def encodePreLoadedAppData (app : PreLoadedAppData) : List UInt8 :=
  encodeUint32 app.size ++ app.digest.toList ++ app.signature.toList ++
    app.pubkey.toList

def encodeAppStorage (area : AppStorage) : List UInt8 :=
  [area.status] ++ area.auth.nonce.toList ++ area.auth.authDigest.toList

def encodePartTable (table : PartTable) : List UInt8 :=
  [table.version] ++
    table.preLoadedAppData.toList.flatMap encodePreLoadedAppData ++
    table.appStorage.toList.flatMap encodeAppStorage

def encodePartTableStorage (storage : PartTableStorage) : List UInt8 :=
  encodePartTable storage.partTable ++ storage.checksum.toList

def encodeFlash (flash : Flash) : List UInt8 :=
  flash.bitstream.toList ++
    encodePartTableStorage flash.partitionTable ++
    flash.partitionTablePadding.toList ++
    flash.preLoadedApp0.toList ++
    flash.preLoadedApp1.toList ++
    flash.appStorage.toList.flatMap Vector.toList ++
    encodePartTableStorage flash.partitionTable2 ++
    flash.partitionTablePadding2.toList

end Encoding

section Functions

-- `blake2s.Sum256`
variable (sum256 : List UInt8 → Vector UInt8 32)

def memset {n : Nat} (s : Vector UInt8 n) (c : UInt8) : Vector UInt8 n :=
  s.map fun _ => c

/-- The built-in `copy`: as many bytes as both sides have. -/
def copy {n : Nat} (dst : Vector UInt8 n) (src : List UInt8) :
    Vector UInt8 n :=
  Vector.ofFn fun i => src.getD i dst[i]

def genChecksum (storage : PartTableStorage) : PartTableStorage :=
  { storage with
    checksum := sum256 (encodePartTable storage.partTable) }

/-- The entry of app 0, which has neither a digest nor a key. -/
def newApp0 (app0 : List UInt8) : PreLoadedAppData :=
  { PreLoadedAppData.zero with size := UInt32.ofNat app0.length }

/-- The entry of app 1. -/
def newApp1
    (app1 : Option (List UInt8))
    (app1Sig : Option Signature)
    (app1Pub : Option PubKey) : PreLoadedAppData :=
  -- a pubkey that does not validate the zero signature
  let data :=
    { PreLoadedAppData.zero with
      pubkey := memset PreLoadedAppData.zero.pubkey 0x55 }
  let data :=
    match app1 with
    | some app =>
        { data with
          size := UInt32.ofNat app.length
          digest := sum256 app }
    | none => data
  let data :=
    match app1Sig with
    | some signature => { data with signature := signature.sig }
    | none => data
  match app1Pub with
  | some pubkey => { data with pubkey := pubkey.key }
  | none => data

def newPartTable
    (app0 : List UInt8)
    (app1 : Option (List UInt8))
    (app1Sig : Option Signature)
    (app1Pub : Option PubKey) : PartTableStorage where
  partTable :=
    { version := 1
      preLoadedAppData :=
        #v[newApp0 app0, newApp1 sum256 app1 app1Sig app1Pub]
      appStorage := Vector.replicate 4 AppStorage.zero }
  checksum := zeroed 32

/-- The limits that `readFiles` puts on the files; it panics otherwise. -/
def readFiles (app0 : List UInt8) (app1 : Option (List UInt8)) :
    Option Unit :=
  if app0.length > maxAppSize then
    none
  else
    match app1 with
    | some app => if app.length > maxAppSize then none else some ()
    | none => some ()

/-- The flash contents before they are written to the file. -/
def newFlash
    (app0 : List UInt8)
    (app1 : Option (List UInt8))
    (app1Sig : Option Signature)
    (app1Pub : Option PubKey) : Flash :=
  let preLoadedApp1 := memset (zeroed 0x20000) 0xff
  let partition :=
    genChecksum sum256 (newPartTable sum256 app0 app1 app1Sig app1Pub)
  { bitstream := memset (zeroed _) 0xff
    partitionTable := partition
    partitionTablePadding := memset (zeroed _) 0xff
    preLoadedApp0 := copy (memset (zeroed _) 0xff) app0
    preLoadedApp1 :=
      match app1 with
      | some app => copy preLoadedApp1 app
      | none => preLoadedApp1
    appStorage :=
      #v[memset (zeroed _) 0xff, memset (zeroed _) 0xff,
        memset (zeroed _) 0xff, memset (zeroed _) 0xff]
    partitionTable2 := partition
    partitionTablePadding2 := memset (zeroed _) 0xff }

/-- The contents of the generated file. -/
def genFlashFile
    (app0 : List UInt8)
    (app1 : Option (List UInt8))
    (app1Sig : Option Signature)
    (app1Pub : Option PubKey) : Option (List UInt8) := do
  readFiles app0 app1
  return encodeFlash (newFlash sum256 app0 app1 app1Sig app1Pub)

end Functions

section Layout

/-- The entry as the firmware declares it. -/
def PreLoadedAppData.metadata (app : PreLoadedAppData) :
    PreLoadedAppMetadata where
  size := app.size
  digest := app.digest
  signature := app.signature
  pubkey := app.pubkey

/-- The area as the firmware declares it. -/
def AppStorage.storageArea (area : AppStorage) : AppStorageArea where
  status := area.status
  auth :=
    { nonce := area.auth.nonce
      authenticationDigest := area.auth.authDigest }

/-- The table as the firmware declares it. -/
def PartTable.partitionTable (table : PartTable) : PartitionTable where
  version := table.version
  preAppData := table.preLoadedAppData.map PreLoadedAppData.metadata
  appStorage := table.appStorage.map AppStorage.storageArea

/-- Both sides order the bytes of a word in the same way. -/
theorem encodeUint32_eq (value : UInt32) :
    encodeUint32 value = (PackedLayout.word value).toList := by
  have shifted (bits : Nat) (small : bits < 32) :
      (value >>> UInt32.ofNat bits).toUInt8 =
        UInt8.ofNat (value.toNat / 2 ^ bits) := by
    apply UInt8.toNat_inj.mp
    simp only [UInt32.toNat_toUInt8, UInt32.toNat_shiftRight,
      UInt32.toNat_ofNat', UInt8.toNat_ofNat', Nat.shiftRight_eq_div_pow]
    rw [Nat.mod_eq_of_lt (a := bits) (by omega), Nat.mod_eq_of_lt small]
  have first : value.toUInt8 = UInt8.ofNat (value.toNat / 2 ^ 0) := by
    apply UInt8.toNat_inj.mp
    simp
  have bytes :
      (PackedLayout.word value).toList =
        [UInt8.ofNat (value.toNat / 2 ^ 0),
          UInt8.ofNat (value.toNat / 2 ^ 8),
          UInt8.ofNat (value.toNat / 2 ^ 16),
          UInt8.ofNat (value.toNat / 2 ^ 24)] :=
    rfl
  rw [bytes, ← first, ← shifted 8 (by decide), ← shifted 16 (by decide),
    ← shifted 24 (by decide)]
  rfl

theorem encodePreLoadedAppData_eq (app : PreLoadedAppData) :
    encodePreLoadedAppData app =
      (PreLoadedAppMetadata.layout app.metadata).toList := by
  have layout :
      (PreLoadedAppMetadata.layout app.metadata).toList =
        ((PackedLayout.word.pair
          ((PackedLayout.bytes 32).pair
            ((PackedLayout.bytes 64).pair (PackedLayout.bytes 32))))
          (app.size, app.digest, app.signature, app.pubkey)).toList :=
    rfl
  rw [layout, PackedLayout.toList_pair, PackedLayout.toList_pair,
    PackedLayout.toList_pair, encodePreLoadedAppData, encodeUint32_eq,
    List.append_assoc, List.append_assoc]
  rfl

theorem encodeAppStorage_eq (area : AppStorage) :
    encodeAppStorage area =
      (AppStorageArea.layout area.storageArea).toList := by
  have layout :
      (AppStorageArea.layout area.storageArea).toList =
        ((PackedLayout.byte.pair
          ((PackedLayout.bytes 16).pair (PackedLayout.bytes 16)))
          (area.status, area.auth.nonce, area.auth.authDigest)).toList :=
    rfl
  rw [layout, PackedLayout.toList_pair, PackedLayout.toList_pair,
    encodeAppStorage, List.append_assoc]
  rfl

/-- The tool and the firmware lay out a table in the same way. -/
theorem encodePartTable_eq (table : PartTable) :
    encodePartTable table =
      (PartitionTable.layout table.partitionTable).toList := by
  have layout :
      (PartitionTable.layout table.partitionTable).toList =
        ((PackedLayout.byte.pair
          ((PreLoadedAppMetadata.layout.array 2).pair
            (AppStorageArea.layout.array 4)))
          (table.version,
            table.preLoadedAppData.map PreLoadedAppData.metadata,
            table.appStorage.map AppStorage.storageArea)).toList :=
    rfl
  have apps :
      (table.preLoadedAppData.toList.flatMap fun app =>
          (PreLoadedAppMetadata.layout app.metadata).toList) =
        table.preLoadedAppData.toList.flatMap encodePreLoadedAppData := by
    simp only [← encodePreLoadedAppData_eq]
  have areas :
      (table.appStorage.toList.flatMap fun area =>
          (AppStorageArea.layout area.storageArea).toList) =
        table.appStorage.toList.flatMap encodeAppStorage := by
    simp only [← encodeAppStorage_eq]
  rw [layout, PackedLayout.toList_pair, PackedLayout.toList_pair,
    PackedLayout.toList_array, PackedLayout.toList_array,
    Vector.toList_map, Vector.toList_map, List.flatMap_map,
    List.flatMap_map, apps, areas, encodePartTable, List.append_assoc]
  rfl

/-- A stored table has the bytes of the firmware's stored table. -/
theorem encodePartTableStorage_eq (storage : PartTableStorage) :
    encodePartTableStorage storage =
      (PartitionTableStorage.layout
        { table := storage.partTable.partitionTable
          checksum := storage.checksum }).toList := by
  have layout :
      (PartitionTableStorage.layout
          { table := storage.partTable.partitionTable
            checksum := storage.checksum }).toList =
        ((PartitionTable.layout.pair (PackedLayout.bytes 32))
          (storage.partTable.partitionTable, storage.checksum)).toList :=
    rfl
  rw [layout, PackedLayout.toList_pair, encodePartTableStorage,
    encodePartTable_eq]
  rfl

end Layout

section Regions

/-- A file holds these bytes from an address on. -/
def Holds (file : List UInt8) (address : Nat) (data : List UInt8) : Prop :=
  (file.drop address).take data.length = data

/-- The parts of a file follow one another. -/
theorem holds_flatten
    {parts : List (List UInt8)}
    {index address : Nat}
    (inBounds : index < parts.length)
    (place : (parts.take index).flatten.length = address) :
    Holds parts.flatten address parts[index] := by
  have split :
      parts.flatten =
        (parts.take index).flatten ++
          (parts[index] ++ (parts.drop (index + 1)).flatten) := by
    rw [← List.flatten_cons, ← List.drop_eq_getElem_cons inBounds,
      ← List.flatten_append, List.take_append_drop]
  rw [Holds, split, List.drop_left' place, List.take_left]

/-- The first bytes of what a file holds. -/
theorem Holds.front
    {file data rest : List UInt8}
    {address : Nat}
    (held : Holds file address (data ++ rest)) :
    Holds file address data := by
  have shorter := congrArg (List.take data.length) held
  rw [List.take_take, List.take_left, List.length_append,
    Nat.min_eq_left (Nat.le_add_right _ _)] at shorter
  exact shorter

/-- A memory that stores a file has its bytes at their addresses. -/
theorem Holds.read
    {file data : List UInt8}
    {address : Nat}
    (held : Holds file address data)
    {memory : Memory}
    (stored : ByteMemory.read memory 0 file.length = file) :
    ByteMemory.read memory address data.length = data := by
  have length := congrArg List.length held
  rw [List.length_take, List.length_drop] at length
  by_cases inside : address + data.length ≤ file.length
  · have part := @take_drop_read memory 0 _ _ _ inside
    rw [stored, Nat.zero_add] at part
    rw [← part]
    exact held
  · have empty : data.length = 0 := by
      omega
    rw [List.length_eq_zero_iff.mp empty, List.length_nil, read_zero]

@[simp] theorem length_encodePartTableStorage
    (storage : PartTableStorage) :
    (encodePartTableStorage storage).length = 429 := by
  rw [encodePartTableStorage_eq, Vector.length_toList]
  rfl

/-- The bytes of the storage areas. -/
@[simp] theorem length_areas
    (areas : Vector (Vector UInt8 0x20000) 4) :
    (areas.toList.flatMap Vector.toList).length = 0x80000 := by
  have each (left : List (Vector UInt8 0x20000)) :
      (left.flatMap Vector.toList).length = 0x20000 * left.length := by
    induction left with
    | nil =>
        rfl
    | cons area rest inductionHypothesis =>
        rw [List.flatMap_cons, List.length_append, inductionHypothesis,
          Vector.length_toList, List.length_cons]
        omega
  rw [each, Vector.length_toList]

/-- The regions of the flash map in the order of the file. -/
def Flash.parts (flash : Flash) : List (List UInt8) :=
  [flash.bitstream.toList,
    encodePartTableStorage flash.partitionTable,
    flash.partitionTablePadding.toList,
    flash.preLoadedApp0.toList,
    flash.preLoadedApp1.toList,
    flash.appStorage.toList.flatMap Vector.toList,
    encodePartTableStorage flash.partitionTable2,
    flash.partitionTablePadding2.toList]

theorem flatten_parts (flash : Flash) :
    flash.parts.flatten = encodeFlash flash := by
  simp [Flash.parts, encodeFlash]

theorem length_parts (flash : Flash) :
    flash.parts.map List.length =
      [0x20000, 429, 65107, 0x20000, 0x20000, 0x80000, 429, 65107] := by
  simp only [Flash.parts, List.map_cons, List.map_nil,
    length_encodePartTableStorage, length_areas, Vector.length_toList]
  rfl

theorem length_encodeFlash (flash : Flash) :
    (encodeFlash flash).length = 0x100000 := by
  rw [← flatten_parts, List.length_flatten, length_parts]
  rfl

/-- A part of the file stands behind the parts before it. -/
theorem holds_part
    (flash : Flash)
    {index address : Nat}
    (inBounds : index < flash.parts.length)
    (place :
      ((flash.parts.map List.length).take index).foldr (· + ·) 0 =
        address) :
    Holds (encodeFlash flash) address flash.parts[index] := by
  rw [← flatten_parts]
  apply holds_flatten inBounds
  rw [← place, List.length_flatten, List.map_take]
  rfl

/-- The tables are where the firmware looks for its two copies. -/
theorem holds_partitionTable
    {flash : Flash}
    (same : flash.partitionTable2 = flash.partitionTable)
    (copy : TableCopy) :
    Holds (encodeFlash flash) copy.address
      (encodePartTableStorage flash.partitionTable) := by
  cases copy with
  | first =>
      exact @holds_part flash 1 _ (by simp [Flash.parts])
        (by rw [length_parts]; rfl)
  | second =>
      rw [← same]
      exact @holds_part flash 6 _ (by simp [Flash.parts])
        (by rw [length_parts]; rfl)

/-- What the file has in the region of a slot. -/
def Flash.slot (flash : Flash) : Fin 2 → Vector UInt8 0x20000
  | 0 => flash.preLoadedApp0
  | 1 => flash.preLoadedApp1

/-- The apps are where the firmware looks for them. -/
theorem holds_slot (flash : Flash) (slot : Fin 2) :
    Holds (encodeFlash flash) (appStart slot)
      (flash.slot slot).toList := by
  match slot with
  | 0 =>
      exact @holds_part flash 3 _ (by simp [Flash.parts])
        (by rw [length_parts]; rfl)
  | 1 =>
      exact @holds_part flash 4 _ (by simp [Flash.parts])
        (by rw [length_parts]; rfl)

/-- The storage areas are where the firmware keeps them. -/
theorem holds_appStorage (flash : Flash) :
    Holds (encodeFlash flash) 0x70000
      (flash.appStorage.toList.flatMap Vector.toList) :=
  @holds_part flash 5 _ (by simp [Flash.parts])
    (by rw [length_parts]; rfl)

end Regions

section Agreement

theorem toList_memset {n : Nat} (s : Vector UInt8 n) (c : UInt8) :
    (memset s c).toList = List.replicate n c := by
  rw [memset, Vector.toList_map, List.map_const', Vector.length_toList]

/-- A source that fits is copied whole, the rest keeps its bytes. -/
theorem toList_copy
    {n : Nat}
    (dst : Vector UInt8 n)
    {src : List UInt8}
    (fits : src.length ≤ n) :
    (copy dst src).toList = src ++ dst.toList.drop src.length := by
  apply List.ext_getElem
  · simp
    omega
  · intro index inCopy inBoth
    by_cases inSrc : index < src.length
    · simp [copy, inSrc]
    · simp [copy, Nat.not_lt.mp inSrc]

/-- A stretch inside of what a file holds. -/
theorem Holds.stretch
    {file data : List UInt8}
    {address skip size : Nat}
    (held : Holds file address data)
    (inside : skip + size ≤ data.length) :
    (file.drop (address + skip)).take size =
      (data.drop skip).take size := by
  rw [← held, List.drop_take, List.take_take, List.drop_drop,
    Nat.min_eq_left (by omega)]

/-- The table that the tool makes, as the firmware sees it. -/
def imageTable
    (sum256 : List UInt8 → Vector UInt8 32)
    (app0 : List UInt8)
    (app1 : Option (List UInt8))
    (app1Sig : Option Signature)
    (app1Pub : Option PubKey) : PartitionTable :=
  (newPartTable sum256 app0 app1 app1Sig app1Pub).partTable.partitionTable

/-- The tool's checksum seals the table for the firmware. -/
theorem encode_genChecksum
    {sum256 : List UInt8 → Vector UInt8 32}
    (isBlake2s : ∀ input, sum256 input = blake2sDigest 32 [] input)
    (storage : PartTableStorage) :
    encodePartTableStorage (genChecksum sum256 storage) =
      (PartitionTableStorage.layout
        storage.partTable.partitionTable.sealed).toList := by
  rw [encodePartTableStorage_eq, genChecksum, isBlake2s,
    encodePartTable_eq]
  rfl

/--
The firmware finds in a file what the tool put there: both copies of the
table, the apps, and free storage areas.
-/
structure Agrees
    (file : List UInt8)
    (table : PartitionTable)
    (app0 : List UInt8)
    (app1 : Option (List UInt8)) : Prop where
  size : file.length = 0x100000
  layout (copy : TableCopy) :
    Holds file copy.address (PartitionTableStorage.layout table.sealed).toList
  /-- The first copy is enough. -/
  first (m : Machine) :
    read m.flash.memory 0x20000 429 = (file.drop 0x20000).take 429 →
      partTableRead.run m = .ok 0 { m with partTableStorage := table.sealed }
  /-- So is the second one when the first is damaged. -/
  second (m : Machine) :
    read m.flash.memory 0xf0000 429 = (file.drop 0xf0000).take 429 →
      ¬ (loadCopy m.flash.memory .first).Verified →
      partTableRead.run m =
        .ok 0 { m with partTableStorage := table.sealed, partStatus := 1 }
  slot0 (m : Machine) :
    read m.flash.memory 0 file.length = file →
      m.table = table →
      (preloadLoad 0).run m =
        .ok 0 { m with ram := write m.ram ramBase.toNat app0 }
  /-- The firmware says of an empty app that there is none. -/
  slot1 (m : Machine) (app : List UInt8) :
    read m.flash.memory 0 file.length = file →
      m.table = table →
      app ∈ app1 →
      (preloadLoad 1).run m =
        .ok (if app = [] then -1 else 0)
          { m with ram := write m.ram ramBase.toNat app }
  free (area : Fin 4) : ¬ table.InUse area
  erased (area : Fin 4) :
    (file.drop (areaStart area)).take 0x20000 =
      List.replicate 0x20000 0xff

/-- A region that holds an app of the table's size is loaded. -/
theorem preloadLoad_of_holds
    {file app : List UInt8}
    {slot : Fin 2}
    (held : Holds file (appStart slot) app)
    (nonempty : app ≠ [])
    (fits : app.length ≤ 0x20000)
    {m : Machine}
    (stored : read m.flash.memory 0 file.length = file)
    (size : (m.table.app slot).size = UInt32.ofNat app.length) :
    (preloadLoad (slotByte slot)).run m =
      .ok 0 { m with ram := write m.ram ramBase.toNat app } := by
  have length : (m.table.app slot).size.toNat = app.length := by
    rw [size, UInt32.toNat_ofNat_of_lt' (by
      show app.length < 4294967296
      omega)]
  have positive := List.length_pos_iff.mpr nonempty
  have present : (m.table.app slot).size ≠ 0 := by
    intro zero
    rw [zero] at length
    exact Nat.ne_of_lt positive length
  rw [preloadLoad_run present (by rw [length]; exact fits), length,
    held.read stored]

/-- Files within the limit are read. -/
theorem readFiles_of_fits
    {app0 : List UInt8}
    (fits0 : app0.length ≤ 0x20000)
    {app1 : Option (List UInt8)}
    (fits1 : ∀ app ∈ app1, app.length ≤ 0x20000) :
    readFiles app0 app1 = some () := by
  have limit : maxAppSize = 0x20000 := rfl
  unfold readFiles
  rw [limit, if_neg (Nat.not_lt.mpr fits0)]
  cases app1 with
  | none =>
      rfl
  | some app =>
      exact if_neg (Nat.not_lt.mpr (fits1 app rfl))

section Generated

variable
    (sum256 : List UInt8 → Vector UInt8 32)
    (app0 : List UInt8)
    (app1 : Option (List UInt8))
    (app1Sig : Option Signature)
    (app1Pub : Option PubKey)

/-- The first slot starts with the first app. -/
theorem slot0_newFlash (fits : app0.length ≤ 0x20000) :
    ∃ rest,
      ((newFlash sum256 app0 app1 app1Sig app1Pub).slot 0).toList =
        app0 ++ rest :=
  ⟨_, toList_copy _ fits⟩

/-- The second slot starts with the second app. -/
theorem slot1_newFlash
    {app : List UInt8}
    (given : app1 = some app)
    (fits : app.length ≤ 0x20000) :
    ∃ rest,
      ((newFlash sum256 app0 app1 app1Sig app1Pub).slot 1).toList =
        app ++ rest := by
  subst given
  exact ⟨_, toList_copy _ fits⟩

/-- The storage areas are erased. -/
theorem areas_newFlash :
    (newFlash sum256 app0 app1 app1Sig app1Pub).appStorage.toList.flatMap
        Vector.toList =
      List.replicate 0x80000 0xff := by
  have area := toList_memset (zeroed 0x20000) 0xff
  show
    (memset (zeroed 0x20000) 0xff).toList ++
        ((memset (zeroed 0x20000) 0xff).toList ++
          ((memset (zeroed 0x20000) 0xff).toList ++
            ((memset (zeroed 0x20000) 0xff).toList ++ []))) =
      List.replicate 0x80000 0xff
  rw [area, List.append_nil, List.replicate_append_replicate,
    List.replicate_append_replicate, List.replicate_append_replicate]

/-- The entry of the first app has its size. -/
theorem size0_imageTable :
    ((imageTable sum256 app0 app1 app1Sig app1Pub).app 0).size =
      UInt32.ofNat app0.length := by
  show
    ((#v[newApp0 app0, newApp1 sum256 app1 app1Sig app1Pub].map
      PreLoadedAppData.metadata)[0]).size = _
  rw [Vector.getElem_map]
  rfl

/-- So has the entry of the second app. -/
theorem size1_imageTable
    {app : List UInt8}
    (given : app1 = some app) :
    ((imageTable sum256 app0 app1 app1Sig app1Pub).app 1).size =
      UInt32.ofNat app.length := by
  subst given
  show
    ((#v[newApp0 app0, newApp1 sum256 (some app) app1Sig app1Pub].map
      PreLoadedAppData.metadata)[1]).size = _
  rw [Vector.getElem_map]
  cases app1Sig <;> cases app1Pub <;> rfl

/-- A new table has no area in use. -/
theorem free_imageTable (area : Fin 4) :
    ¬ (imageTable sum256 app0 app1 app1Sig app1Pub).InUse area := by
  simp [imageTable, newPartTable, PartTable.partitionTable,
    PartitionTable.InUse, AppStorage.storageArea, AppStorage.zero]

variable
    {sum256 : List UInt8 → Vector UInt8 32}
    {app0 : List UInt8}
    {app1 : Option (List UInt8)}

/-- Both copies are the sealed table. -/
theorem holds_sealed
    (isBlake2s : ∀ input, sum256 input = blake2sDigest 32 [] input)
    (copy : TableCopy) :
    Holds (encodeFlash (newFlash sum256 app0 app1 app1Sig app1Pub))
      copy.address
      (PartitionTableStorage.layout
        (imageTable sum256 app0 app1 app1Sig app1Pub).sealed).toList := by
  have bytes :=
    encode_genChecksum isBlake2s
      (newPartTable sum256 app0 app1 app1Sig app1Pub)
  exact bytes ▸
    @holds_partitionTable (newFlash sum256 app0 app1 app1Sig app1Pub) rfl copy

/-- A memory that has the bytes of one copy has the sealed table there. -/
theorem loadCopy_image
    (isBlake2s : ∀ input, sum256 input = blake2sDigest 32 [] input)
    {memory : Memory}
    {copy : TableCopy}
    (same :
      read memory copy.address 429 =
        ((encodeFlash (newFlash sum256 app0 app1 app1Sig app1Pub)).drop
          copy.address).take 429) :
    loadCopy memory copy =
      (imageTable sum256 app0 app1 app1Sig app1Pub).sealed := by
  apply loadCopy_of_read
  have bytes := @holds_sealed app1Sig app1Pub sum256 app0 app1 isBlake2s copy
  rw [Holds, Vector.length_toList] at bytes
  exact same.trans bytes

/-- The first app is loaded from its slot. -/
theorem preloadLoad_slot0
    (nonempty : app0 ≠ [])
    (fits : app0.length ≤ 0x20000)
    {m : Machine}
    (stored :
      read m.flash.memory 0
          (encodeFlash (newFlash sum256 app0 app1 app1Sig app1Pub)).length =
        encodeFlash (newFlash sum256 app0 app1 app1Sig app1Pub))
    (table : m.table = imageTable sum256 app0 app1 app1Sig app1Pub) :
    (preloadLoad 0).run m =
      .ok 0 { m with ram := write m.ram ramBase.toNat app0 } := by
  have held := holds_slot (newFlash sum256 app0 app1 app1Sig app1Pub) 0
  obtain ⟨rest, starts⟩ :=
    slot0_newFlash sum256 app0 app1 app1Sig app1Pub fits
  rw [starts] at held
  exact preloadLoad_of_holds held.front nonempty fits stored
    (by rw [table, size0_imageTable])

/-- The second app is loaded from its slot, unless it is empty. -/
theorem preloadLoad_slot1
    {app : List UInt8}
    (given : app1 = some app)
    (fits : app.length ≤ 0x20000)
    {m : Machine}
    (stored :
      read m.flash.memory 0
          (encodeFlash (newFlash sum256 app0 app1 app1Sig app1Pub)).length =
        encodeFlash (newFlash sum256 app0 app1 app1Sig app1Pub))
    (table : m.table = imageTable sum256 app0 app1 app1Sig app1Pub) :
    (preloadLoad 1).run m =
      .ok (if app = [] then -1 else 0)
        { m with ram := write m.ram ramBase.toNat app } := by
  have size := size1_imageTable sum256 app0 app1 app1Sig app1Pub given
  rw [← table] at size
  by_cases empty : app = []
  · subst empty
    rw [if_pos rfl, write_nil]
    exact preloadLoad_run_empty size
  · have held := holds_slot (newFlash sum256 app0 app1 app1Sig app1Pub) 1
    obtain ⟨rest, starts⟩ :=
      slot1_newFlash sum256 app0 app1 app1Sig app1Pub given fits
    rw [starts] at held
    rw [if_neg empty]
    exact preloadLoad_of_holds held.front empty fits stored size

/-- Each storage area is erased. -/
theorem erased_area (area : Fin 4) :
    ((encodeFlash (newFlash sum256 app0 app1 app1Sig app1Pub)).drop
        (areaStart area)).take 0x20000 =
      List.replicate 0x20000 0xff := by
  have held := holds_appStorage (newFlash sum256 app0 app1 app1Sig app1Pub)
  rw [areas_newFlash] at held
  have bound := area.isLt
  have inside :
      area.val * 0x20000 + 0x20000 ≤
        (List.replicate 0x80000 (0xff : UInt8)).length := by
    rw [List.length_replicate]
    omega
  rw [areaStart, held.stretch inside, List.drop_replicate,
    List.take_replicate, Nat.min_eq_left (by omega)]

end Generated

/-- The firmware accepts what the tool generates. -/
theorem image_agrees
    {sum256 : List UInt8 → Vector UInt8 32}
    (isBlake2s : ∀ input, sum256 input = blake2sDigest 32 [] input)
    {app0 : List UInt8}
    (nonempty : app0 ≠ [])
    (fits0 : app0.length ≤ 0x20000)
    {app1 : Option (List UInt8)}
    (fits1 : ∀ app ∈ app1, app.length ≤ 0x20000)
    (app1Sig : Option Signature)
    (app1Pub : Option PubKey) :
    ∃ file,
      genFlashFile sum256 app0 app1 app1Sig app1Pub = some file ∧
        Agrees file (imageTable sum256 app0 app1 app1Sig app1Pub)
          app0 app1 := by
  have verified :=
    (imageTable sum256 app0 app1 app1Sig app1Pub).sealed_verified
  refine ⟨encodeFlash (newFlash sum256 app0 app1 app1Sig app1Pub), ?_, ?_⟩
  · rw [genFlashFile, readFiles_of_fits fits0 fits1]
    rfl
  · constructor
    case size => exact length_encodeFlash _
    case layout => exact holds_sealed app1Sig app1Pub isBlake2s
    case first =>
      intro m same
      have copy := @loadCopy_image _ _ _ _ _ isBlake2s _ .first same
      rw [partTableRead_run, usableCopy, copy, if_pos verified]
    case second =>
      intro m same damaged
      have copy := @loadCopy_image _ _ _ _ _ isBlake2s _ .second same
      rw [partTableRead_run, usableCopy, copy, if_neg damaged,
        if_pos verified]
    case slot0 =>
      intro m stored table
      exact preloadLoad_slot0 app1Sig app1Pub nonempty fits0 stored table
    case slot1 =>
      intro m app stored table given
      exact preloadLoad_slot1 app1Sig app1Pub given (fits1 app given) stored
        table
    case free => exact free_imageTable sum256 app0 app1 app1Sig app1Pub
    case erased => exact erased_area app1Sig app1Pub

theorem image_agrees_sample :
    ∃ file,
      genFlashFile (blake2sDigest 32 []) [1] (some [2]) none none =
          some file ∧
        Agrees file
          (imageTable (blake2sDigest 32 []) [1] (some [2]) none none)
          [1] (some [2]) :=
  image_agrees (fun _ => rfl) (by decide) (by decide)
    (fun app given => by
      rw [← Option.some.inj given]
      decide)
    none none

end Agreement

end TKey.TkeyImage
