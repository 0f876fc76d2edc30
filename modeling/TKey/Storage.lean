import Mathlib.Data.List.FinRange
import TKey.Access

namespace TKey

open ByteMemory NorFlash

/-!
# App storage

`storage.c`: every app may own one of the storage areas.  The owner of an area
is not stored; it is found by trying the nonce of every area in use with the
CDI of the running app.
-/

section Functions

/--
The index of the first empty area.  The result `-1` of the source is `none`.
-/
def getFirstEmpty (partTable : PartitionTable) : Option (Fin 4) :=
  (List.finRange 4).find? fun index =>
    partTable.appStorage[index].status = 0x00

/-- Flash address of an area; the type of the index excludes bad ones. -/
def indexToAddress (index : Fin 4) : UInt32 :=
  addrStorageArea + UInt32.ofNat index.val * sizeStorageArea

/-- The loop of `storage_get_area` over the areas that are left to try. -/
def storageGetAreaLoop (partTable : PartitionTable) :
    List (Fin 4) → Fw (Option (Fin 4))
  | [] => return none
  | index :: rest =>
      if partTable.appStorage[index].status ≠ 0x00 then do
        let owner ← authAppAuthenticate partTable.appStorage[index].auth
        if owner then
          return some index
        else
          storageGetAreaLoop partTable rest
      else
        storageGetAreaLoop partTable rest

/--
The index of the area an app has allocated.  The result `-1` of the source is
`none`.
-/
def storageGetArea (partTable : PartitionTable) : Fw (Option (Fin 4)) :=
  storageGetAreaLoop partTable (List.finRange 4)

/-- The table with another entry for one area. -/
def PartitionTable.setArea
    (table : PartitionTable)
    (index : Fin 4)
    (area : AppStorageArea) : PartitionTable :=
  { table with appStorage := table.appStorage.set index area }

/-- Change one area of the table in `FW_RAM`. -/
def modifyArea
    (index : Fin 4)
    (change : AppStorageArea → AppStorageArea) : Fw Unit :=
  modify fun m =>
    { m with
      partTableStorage :=
        { m.partTableStorage with
          table :=
            m.partTableStorage.table.setArea index
              (change m.partTableStorage.table.appStorage[index]) } }

/-- Erase both 64 KiB blocks of an area. -/
def eraseBlocks (startAddress : UInt32) : Fw Unit := do
  flashBlock64Erase startAddress
  flashBlock64Erase (startAddress + 0x10000)

/--
Allocate a new area for an app.  The words are what the TRNG delivers when a
nonce is needed.
-/
def storageAllocateArea (words : Vector UInt32 4) : Fw Int := do
  let m ← get
  let area ← storageGetArea m.partTableStorage.table
  if area ≠ none then
    -- already has an area
    return 0
  else
    match getFirstEmpty m.partTableStorage.table with
    | none => return -1
    | some index => do
        eraseBlocks (indexToAddress index)
        modifyArea index fun entry => { entry with status := 0x01 }
        let auth ← authAppCreate words
        modifyArea index fun entry => { entry with auth := auth }
        let result ← partTableWrite
        return if result ≠ 0 then -1 else 0

/-- Deallocate a previously allocated storage area. -/
def storageDeallocateArea : Fw Int := do
  let m ← get
  let area ← storageGetArea m.partTableStorage.table
  match area with
  | none => return -1
  | some index => do
      eraseBlocks (indexToAddress index)
      modifyArea index fun entry => { entry with status := 0 }
      modifyArea index fun entry =>
        { entry with
          auth :=
            { nonce := Vector.replicate 16 0x00
              authenticationDigest := Vector.replicate 16 0x00 } }
      let result ← partTableWrite
      return if result ≠ 0 then -1 else 0

/-- The loop of `storage_erase_sector`, which erases until `size`. -/
def storageEraseSectorLoop
    (address : UInt32)
    (size i : Nat) : Fw Unit :=
  if i < size then do
    flashSectorErase address
    storageEraseSectorLoop (address + 4096) size (i + 4096)
  else
    return ()
termination_by size - i
decreasing_by omega

/-- Erase the sectors of a range of the app's area. -/
def storageEraseSector (offset size : UInt32) : Fw Int := do
  let m ← get
  let area ← storageGetArea m.partTableStorage.table
  match area with
  | none => return -1
  | some index =>
      let startAddress := indexToAddress index
      if offset > sizeStorageArea then
        return -1
      else if offset % 4096 ≠ 0 then
        return -1
      else if size < 4096 ∨ size > sizeStorageArea ∨ size % 4096 ≠ 0 then
        return -1
      else if offset + size > sizeStorageArea then
        return -1
      else do
        storageEraseSectorLoop (startAddress + offset) size.toNat 0
        return 0

/-- Write data at the offset inside of the app's area. -/
def storageWriteData (offset data size : UInt32) : Fw Int :=
  if inAppRam data size = false then
    return -1
  else do
    let m ← get
    let area ← storageGetArea m.partTableStorage.table
    match area with
    | none => return -1
    | some index =>
        let startAddress := indexToAddress index
        if offset > sizeStorageArea then
          return -1
        else if size > sizeStorageArea then
          return -1
        else if offset + size > sizeStorageArea then
          return -1
        else do
          let bytes ← loadBytes data size.toNat
          flashWriteData (startAddress + offset) bytes

/-- Read data from the offset inside of the app's area. -/
def storageReadData (offset data size : UInt32) : Fw Int :=
  if inAppRam data size = false then
    return -1
  else do
    let m ← get
    let area ← storageGetArea m.partTableStorage.table
    match area with
    | none => return -1
    | some index =>
        let startAddress := indexToAddress index
        if offset > sizeStorageArea then
          return -1
        else if size > 4096 then
          return -1
        else if offset + size > sizeStorageArea then
          return -1
        else do
          let result ← flashReadData (startAddress + offset) size.toNat
          storeBytes data result.2
          return result.1

/-- The loop of `storage_erase_areas` over the areas that are left. -/
def storageEraseAreasLoop : List (Fin 4) → Fw Unit
  | [] => return ()
  | index :: rest => do
      eraseBlocks (indexToAddress index)
      modifyArea index fun entry => { entry with status := 0x00 }
      modifyArea index fun entry =>
        { entry with
          auth :=
            { nonce := Vector.replicate 16 0x00
              authenticationDigest := Vector.replicate 16 0x00 } }
      storageEraseAreasLoop rest

/-- Erase all app storage.  Privileged operation. -/
def storageEraseAreas (device : Device) : Fw Int := do
  let allowed ← mgmtAppAuthenticate device
  if allowed = false then
    return -1
  else do
    storageEraseAreasLoop (List.finRange 4)
    let result ← partTableWrite
    return if result ≠ 0 then -1 else 0

end Functions

section Ownership

/-- The partition table in `FW_RAM`. -/
def Machine.table (m : Machine) : PartitionTable :=
  m.partTableStorage.table

/-- The area is marked as allocated. -/
def PartitionTable.InUse
    (table : PartitionTable)
    (index : Fin 4) : Prop :=
  table.appStorage[index].status ≠ 0

instance (table : PartitionTable) (index : Fin 4) :
    Decidable (table.InUse index) :=
  inferInstanceAs (Decidable (_ ≠ _))

/-- An app with this CDI is accepted as the owner of the area. -/
def PartitionTable.Owns
    (table : PartitionTable)
    (cdi : Vector UInt8 32)
    (index : Fin 4) : Prop :=
  table.InUse index ∧ table.appStorage[index].auth.Authenticates cdi

instance
    (table : PartitionTable)
    (cdi : Vector UInt8 32)
    (index : Fin 4) :
    Decidable (table.Owns cdi index) :=
  inferInstanceAs (Decidable (_ ∧ _))

/-- The area that the search for an owner finds. -/
def ownedArea
    (table : PartitionTable)
    (cdi : Vector UInt8 32) : Option (Fin 4) :=
  (List.finRange 4).find? fun index => table.Owns cdi index

private theorem storageGetAreaLoop_run
    (table : PartitionTable)
    (left : List (Fin 4))
    (m : Machine) :
    (storageGetAreaLoop table left).run m =
      .ok (left.find? fun index => table.Owns m.cdi index) m := by
  induction left with
  | nil =>
      rfl
  | cons index rest inductionHypothesis =>
      rw [storageGetAreaLoop, Fw.run_ite,
        Fw.run_bind_of_ok (authAppAuthenticate_run _ m), Fw.run_ite,
        inductionHypothesis, List.find?_cons]
      by_cases inUse : table.appStorage[index].status ≠ 0
      · rw [if_pos inUse]
        by_cases owner : table.appStorage[index].auth.Authenticates m.cdi
        · have owns : table.Owns m.cdi index := ⟨inUse, owner⟩
          simp only [owner, owns, decide_true, if_true]
          rfl
        · have notOwned : ¬ table.Owns m.cdi index :=
            fun owns => owner owns.2
          simp only [owner, notOwned, decide_false, if_false,
            Bool.false_eq_true]
      · have notOwned : ¬ table.Owns m.cdi index :=
          fun owns => inUse owns.1
        rw [if_neg inUse]
        simp [notOwned]

theorem storageGetArea_run (table : PartitionTable) (m : Machine) :
    (storageGetArea table).run m = .ok (ownedArea table m.cdi) m :=
  storageGetAreaLoop_run table _ m

/-- A found area belongs to the app. -/
theorem owns_of_ownedArea
    {table : PartitionTable}
    {cdi : Vector UInt8 32}
    {index : Fin 4}
    (found : ownedArea table cdi = some index) :
    table.Owns cdi index := by
  simpa using List.find?_some found

/-- Nothing is found exactly when the app owns no area. -/
theorem ownedArea_eq_none
    {table : PartitionTable}
    {cdi : Vector UInt8 32} :
    ownedArea table cdi = none ↔
      ∀ index, ¬ table.Owns cdi index := by
  simp [ownedArea, List.find?_eq_none]

/-- A first empty area is free. -/
theorem not_inUse_of_getFirstEmpty
    {table : PartitionTable}
    {index : Fin 4}
    (found : getFirstEmpty table = some index) :
    ¬ table.InUse index := by
  have free := List.find?_some found
  simpa [PartitionTable.InUse] using free

/-- No empty area is found exactly when all areas are in use. -/
theorem getFirstEmpty_eq_none {table : PartitionTable} :
    getFirstEmpty table = none ↔ ∀ index, table.InUse index := by
  simp [getFirstEmpty, List.find?_eq_none, PartitionTable.InUse]

end Ownership

section Results

/-- Flash address of the first byte of an area. -/
def areaStart (index : Fin 4) : Nat :=
  0x70000 + index.val * 0x20000

/-- Areas are block aligned and lie below the second table copy. -/
theorem areaStart_bounds (index : Fin 4) :
    0x70000 ≤ areaStart index ∧
      areaStart index ≤ 0xd0000 ∧
      areaStart index % 65536 = 0 := by
  revert index
  decide

theorem toNat_indexToAddress (index : Fin 4) :
    (indexToAddress index).toNat = areaStart index := by
  revert index
  decide

/-- The commands that erase an area. -/
def areaErase (index : Fin 4) : List Command :=
  [.erase (areaStart index) 0x10000,
    .erase (areaStart index + 0x10000) 0x10000]

/-- The commands that erase `count` sectors. -/
def sectorErases (first count : Nat) : List Command :=
  (List.range count).map fun sector =>
    .erase (first + 4096 * sector) 4096

/--
The machine after a table update that follows the commands `before` and
precedes the commands `after`.
-/
def Machine.updateTable
    (before : List Command)
    (table : PartitionTable)
    (after : List Command)
    (m : Machine) : Machine :=
  ({ m with partTableStorage := table.sealed }).perform
    (before ++ tableCommands table.sealed ++ after)

/-- The entry of an area that belongs to nobody. -/
def freeArea : AppStorageArea where
  status := 0
  auth :=
    { nonce := Vector.replicate 16 0
      authenticationDigest := Vector.replicate 16 0 }

/-- The entry of an area allocated with a fresh nonce. -/
def allocatedArea
    (cdi : Vector UInt8 32)
    (words : Vector UInt32 4) : AppStorageArea where
  status := 1
  auth := createdAuth cdi words

/-- Where an allocation puts the new area, if it needs and finds one. -/
def allocation
    (table : PartitionTable)
    (cdi : Vector UInt8 32) : Option (Fin 4) :=
  if ownedArea table cdi = none then getFirstEmpty table else none

private theorem eraseBlocks_run (index : Fin 4) (m : Machine) :
    (eraseBlocks (indexToAddress index)).run m =
      .ok () (m.perform (areaErase index)) := by
  have firstBlock :
      blockCommand ((indexToAddress index).toNat % 2 ^ 24) =
        .erase (areaStart index) 0x10000 := by
    revert index
    decide
  have secondBlock :
      blockCommand ((indexToAddress index + 0x10000).toNat % 2 ^ 24) =
        .erase (areaStart index + 0x10000) 0x10000 := by
    revert index
    decide
  rw [eraseBlocks, Fw.run_bind_of_ok (flashBlock64Erase_run _ m),
    flashBlock64Erase_run, firstBlock, secondBlock,
    ← Machine.perform_append]
  rfl

/-- Writing one entry twice keeps the second value. -/
@[simp] theorem PartitionTable.setArea_setArea
    (table : PartitionTable)
    (index : Fin 4)
    (first second : AppStorageArea) :
    (table.setArea index first).setArea index second =
      table.setArea index second := by
  simp [setArea]

/-- An entry, looked up by its number. -/
theorem PartitionTable.get_appStorage
    (table : PartitionTable)
    (index : Fin 4) :
    table.appStorage.get index = table.appStorage[index] :=
  rfl

@[simp] theorem PartitionTable.getElem_setArea_self
    (table : PartitionTable)
    (index : Fin 4)
    (area : AppStorageArea) :
    (table.setArea index area).appStorage[index] = area := by
  simp [setArea]

/-- Writing one entry leaves the others alone. -/
theorem PartitionTable.getElem_setArea_ne
    (table : PartitionTable)
    {index other : Fin 4}
    (different : other ≠ index)
    (area : AppStorageArea) :
    (table.setArea index area).appStorage[other] =
      table.appStorage[other] := by
  have distinct : index.val ≠ other.val :=
    fun same => different (Fin.ext same.symm)
  simp [setArea, distinct]

/--
The result of an allocation: nothing changes unless the app has no area and
one is free, which is then erased and entered in the table.
-/
theorem storageAllocateArea_run
    (words : Vector UInt32 4)
    (m : Machine) :
    (storageAllocateArea words).run m =
      match allocation m.table m.cdi with
      | some index =>
          .ok 0
            (m.updateTable (areaErase index)
              (m.table.setArea index (allocatedArea m.cdi words)) [])
      | none =>
          .ok (if ownedArea m.table m.cdi = none then -1 else 0) m := by
  rw [storageAllocateArea, Fw.run_get_bind,
    Fw.run_bind_of_ok (storageGetArea_run _ m), Fw.run_ite, allocation,
    ← Machine.table]
  by_cases owned : ownedArea m.table m.cdi = none
  · rw [if_neg (not_not.mpr owned), if_pos owned, if_pos owned]
    cases getFirstEmpty m.table with
    | none =>
        rfl
    | some index =>
        simp only
        rw [Fw.run_bind_of_ok (eraseBlocks_run index m), modifyArea,
          Fw.run_modify_bind,
          Fw.run_bind_of_ok (authAppCreate_run words _), modifyArea,
          Fw.run_modify_bind, Fw.run_bind_of_ok (partTableWrite_run _)]
        simp only [PartitionTable.getElem_setArea_self,
          PartitionTable.setArea_setArea]
        rw [Machine.updateTable, List.append_nil,
          Machine.perform_append]
        rfl
  · rw [if_pos owned, if_neg owned, if_neg owned]
    rfl

/-- The result of a deallocation. -/
theorem storageDeallocateArea_run (m : Machine) :
    storageDeallocateArea.run m =
      match ownedArea m.table m.cdi with
      | some index =>
          .ok 0
            (m.updateTable (areaErase index)
              (m.table.setArea index freeArea) [])
      | none =>
          .ok (-1) m := by
  rw [storageDeallocateArea, Fw.run_get_bind,
    Fw.run_bind_of_ok (storageGetArea_run _ m), ← Machine.table]
  cases ownedArea m.table m.cdi with
  | none =>
      rfl
  | some index =>
      simp only
      rw [Fw.run_bind_of_ok (eraseBlocks_run index m), modifyArea,
        Fw.run_modify_bind, modifyArea, Fw.run_modify_bind,
        Fw.run_bind_of_ok (partTableWrite_run _)]
      simp only [PartitionTable.getElem_setArea_self,
        PartitionTable.setArea_setArea]
      rw [Machine.updateTable, List.append_nil, Machine.perform_append]
      rfl

/-- A range lies inside an area. -/
def InArea (offset size : UInt32) : Prop :=
  offset.toNat + size.toNat ≤ 0x20000

instance (offset size : UInt32) : Decidable (InArea offset size) :=
  inferInstanceAs (Decidable (_ ≤ _))

/-- The range that `storage_erase_sector` accepts. -/
def ErasableRange (offset size : UInt32) : Prop :=
  offset.toNat % 4096 = 0 ∧
    4096 ≤ size.toNat ∧
    size.toNat % 4096 = 0 ∧
    InArea offset size

instance (offset size : UInt32) : Decidable (ErasableRange offset size) :=
  inferInstanceAs (Decidable (_ ∧ _))

/-- The request that `storage_write_data` carries out. -/
def WritableRange (offset data size : UInt32) : Prop :=
  inAppRam data size = true ∧
    size.toNat ≠ 0 ∧
    offset.toNat % 256 = 0 ∧
    InArea offset size

instance (offset data size : UInt32) :
    Decidable (WritableRange offset data size) :=
  inferInstanceAs (Decidable (_ ∧ _))

/-- The request that `storage_read_data` carries out. -/
def ReadableRange (offset data size : UInt32) : Prop :=
  inAppRam data size = true ∧
    size.toNat ≤ 4096 ∧
    InArea offset size

instance (offset data size : UInt32) :
    Decidable (ReadableRange offset data size) :=
  inferInstanceAs (Decidable (_ ∧ _))

/--
The checks on offset and size do not overflow: together they say that the
range lies inside a region of 128 KiB.
-/
theorem inArea_iff (offset size : UInt32) :
    InArea offset size ↔
      ¬ offset > 0x20000 ∧
        ¬ size > 0x20000 ∧
        ¬ offset + size > 0x20000 := by
  have limit : (0x20000 : UInt32).toNat = 0x20000 := rfl
  simp only [InArea, gt_iff_lt, UInt32.lt_iff_toNat_lt, limit,
    UInt32.toNat_add]
  omega

private theorem toNat_area_add
    (index : Fin 4)
    {offset size : UInt32}
    (inArea : InArea offset size) :
    (indexToAddress index + offset).toNat =
      areaStart index + offset.toNat := by
  have start := areaStart_bounds index
  simp only [InArea] at inArea
  rw [UInt32.toNat_add, toNat_indexToAddress]
  omega

theorem sectorErases_succ (first count : Nat) :
    sectorErases first (count + 1) =
      .erase first 4096 :: sectorErases (first + 4096) count := by
  simp only [sectorErases, List.range_succ_eq_map, List.map_cons,
    List.map_map, Nat.mul_zero, Nat.add_zero]
  congr 1
  apply List.map_congr_left
  intro sector _
  simp only [Function.comp, Command.erase.injEq, and_true]
  omega

/-- The erase loop erases one sector after the other. -/
private theorem storageEraseSectorLoop_run
    (count : Nat)
    {address : UInt32}
    {size i : Nat}
    (left : size = i + 4096 * count)
    (aligned : address.toNat % 4096 = 0)
    (inFlash : address.toNat + 4096 * count ≤ 2 ^ 24)
    (m : Machine) :
    (storageEraseSectorLoop address size i).run m =
      .ok () (m.perform (sectorErases address.toNat count)) := by
  induction count generalizing address i m with
  | zero =>
      rw [storageEraseSectorLoop, if_neg (by omega)]
      simp [sectorErases]
  | succ count inductionHypothesis =>
      have sector :
          sectorCommand (address.toNat % 2 ^ 24) =
            .erase address.toNat 4096 := by
        simp only [sectorCommand, Command.erase.injEq, and_true]
        omega
      rw [storageEraseSectorLoop, if_pos (by omega),
        Fw.run_bind_of_ok (flashSectorErase_run address m), sector]
      by_cases last : count = 0
      · -- the loop ends without using the next address
        subst last
        rw [storageEraseSectorLoop, if_neg (by omega)]
        rfl
      · have next : (address + 4096).toNat = address.toNat + 4096 := by
          have step : (4096 : UInt32).toNat = 4096 := rfl
          rw [UInt32.toNat_add, step]
          omega
        rw [inductionHypothesis (by omega) (by omega) (by omega),
          ← Machine.perform_append, next, sectorErases_succ]
        rfl

/-- The checks of `storage_erase_sector` refuse exactly the other ranges. -/
private theorem erase_refused_iff (offset size : UInt32) :
    (offset > sizeStorageArea ∨
        offset % 4096 ≠ 0 ∨
        (size < 4096 ∨ size > sizeStorageArea ∨ size % 4096 ≠ 0) ∨
        offset + size > sizeStorageArea) ↔
      ¬ ErasableRange offset size := by
  have sector : (4096 : UInt32).toNat = 4096 := rfl
  have zero : (0 : UInt32).toNat = 0 := rfl
  have alignedIff (word : UInt32) :
      word % 4096 = 0 ↔ word.toNat % 4096 = 0 := by
    rw [← UInt32.toNat_inj, UInt32.toNat_mod, sector, zero]
  rw [ErasableRange, inArea_iff, ← alignedIff, ← alignedIff, sizeStorageArea,
    UInt32.lt_iff_toNat_lt (a := size), sector]
  constructor
  · rintro refused ⟨aligned, least, whole, low, small, inside⟩
    rcases refused with high | odd | (short | large | odd) | beyond
    · exact low high
    · exact odd aligned
    · omega
    · exact small large
    · exact odd whole
    · exact inside beyond
  · intro refused
    by_contra accepted
    push Not at accepted
    obtain ⟨low, aligned, ⟨least, small, whole⟩, inside⟩ := accepted
    exact refused
      ⟨aligned, least, whole, low, small, inside⟩

/-- The result of an erase request. -/
theorem storageEraseSector_run
    (offset size : UInt32)
    (m : Machine) :
    (storageEraseSector offset size).run m =
      match ownedArea m.table m.cdi with
      | some index =>
          if ErasableRange offset size then
            .ok 0
              (m.perform
                (sectorErases (areaStart index + offset.toNat)
                  (size.toNat / 4096)))
          else
            .ok (-1) m
      | none =>
          .ok (-1) m := by
  rw [storageEraseSector, Fw.run_get_bind,
    Fw.run_bind_of_ok (storageGetArea_run _ m), ← Machine.table]
  cases ownedArea m.table m.cdi with
  | none =>
      rfl
  | some index =>
      simp only [← ite_or]
      by_cases erasable : ErasableRange offset size
      · have accepted := (erase_refused_iff offset size).not_left.mpr erasable
        obtain ⟨aligned, least, whole, inArea⟩ := erasable
        have place := toNat_area_add index inArea
        have start := areaStart_bounds index
        simp only [InArea] at inArea
        rw [if_neg accepted, if_pos ⟨aligned, least, whole, inArea⟩,
          Fw.run_bind_of_ok
            (storageEraseSectorLoop_run (size.toNat / 4096)
              (by omega) (by omega) (by omega) m),
          place]
        rfl
      · rw [if_pos ((erase_refused_iff offset size).mpr erasable),
          if_neg erasable]
        rfl

/-- The checks on a range that is to be written. -/
theorem write_refused_iff (offset size : UInt32) :
    (offset > sizeStorageArea ∨
        size > sizeStorageArea ∨
        offset + size > sizeStorageArea) ↔
      ¬ InArea offset size := by
  rw [inArea_iff, sizeStorageArea]
  tauto

/-- The result of a write request. -/
theorem storageWriteData_run
    (offset data size : UInt32)
    (m : Machine) :
    (storageWriteData offset data size).run m =
      match ownedArea m.table m.cdi with
      | some index =>
          if WritableRange offset data size then
            .ok 0
              (m.perform
                (pages 256 (areaStart index + offset.toNat)
                  (read m.ram data.toNat size.toNat)))
          else
            .ok (-1) m
      | none =>
          .ok (-1) m := by
  by_cases inRam : inAppRam data size = false
  · rw [storageWriteData, if_pos inRam]
    cases ownedArea m.table m.cdi with
    | none =>
        rfl
    | some index =>
        simp [WritableRange, inRam]
  rw [storageWriteData, if_neg inRam, Fw.run_get_bind,
    Fw.run_bind_of_ok (storageGetArea_run _ m), ← Machine.table]
  cases ownedArea m.table m.cdi with
  | none =>
      rfl
  | some index =>
      have accepted : inAppRam data size = true := by
        simpa using inRam
      simp only [← ite_or]
      by_cases inArea : InArea offset size
      · rw [if_neg ((write_refused_iff offset size).not_left.mpr inArea),
          Fw.run_bind_of_ok (loadBytes_run (inRam_of_inAppRam accepted) m)]
        have place := toNat_area_add index inArea
        have start := areaStart_bounds index
        have bound := inArea
        simp only [InArea] at bound
        by_cases writable : size.toNat ≠ 0 ∧ offset.toNat % 256 = 0
        · obtain ⟨nonempty, aligned⟩ := writable
          rw [if_pos ⟨accepted, nonempty, aligned, inArea⟩,
            flashWriteData_run (by rw [place]; omega)
              (List.ne_nil_of_length_pos (by simp; omega))
              (by rw [place, length_read]; omega),
            place]
        · rw [if_neg (fun writes => writable ⟨writes.2.1, writes.2.2.1⟩),
            flashWriteData_refused]
          by_cases empty : size.toNat = 0
          · left
            rw [empty]
            rfl
          · right
            omega
      · rw [if_pos ((write_refused_iff offset size).mpr inArea),
          if_neg (fun writes => inArea writes.2.2.2)]
        rfl

/-- The checks of `storage_read_data` on a range in app RAM. -/
private theorem read_refused_iff (offset size : UInt32) :
    (offset > sizeStorageArea ∨
        size > 4096 ∨
        offset + size > sizeStorageArea) ↔
      ¬ (size.toNat ≤ 4096 ∧ InArea offset size) := by
  have page : (4096 : UInt32).toNat = 4096 := rfl
  have limit : (0x20000 : UInt32).toNat = 0x20000 := rfl
  simp only [InArea, sizeStorageArea, gt_iff_lt, UInt32.lt_iff_toNat_lt,
    limit, page, UInt32.toNat_add]
  omega

/-- The result of a read request. -/
theorem storageReadData_run
    (offset data size : UInt32)
    (m : Machine) :
    (storageReadData offset data size).run m =
      match ownedArea m.table m.cdi with
      | some index =>
          if ReadableRange offset data size then
            .ok 0
              { m with
                ram :=
                  write m.ram data.toNat
                    (read m.flash.memory
                      (areaStart index + offset.toNat) size.toNat) }
          else
            .ok (-1) m
      | none =>
          .ok (-1) m := by
  by_cases inRam : inAppRam data size = false
  · rw [storageReadData, if_pos inRam]
    cases ownedArea m.table m.cdi with
    | none =>
        rfl
    | some index =>
        simp [ReadableRange, inRam]
  rw [storageReadData, if_neg inRam, Fw.run_get_bind,
    Fw.run_bind_of_ok (storageGetArea_run _ m), ← Machine.table]
  cases ownedArea m.table m.cdi with
  | none =>
      rfl
  | some index =>
      have accepted : inAppRam data size = true := by
        simpa using inRam
      simp only [← ite_or]
      by_cases readable : size.toNat ≤ 4096 ∧ InArea offset size
      · have place := toNat_area_add index readable.2
        have start := areaStart_bounds index
        have bound := readable.2
        simp only [InArea] at bound
        have range :
            InRam data
              (read m.flash.memory (areaStart index + offset.toNat)
                size.toNat).length := by
          simpa using inRam_of_inAppRam accepted
        rw [if_neg ((read_refused_iff offset size).not_left.mpr readable),
          Fw.run_bind_of_ok (flashReadData_run _ _ m), place,
          Nat.mod_eq_of_lt (by omega),
          Fw.run_bind_of_ok (storeBytes_run range m),
          if_pos ⟨accepted, readable⟩]
        rfl
      · rw [if_pos ((read_refused_iff offset size).mpr readable),
          if_neg (fun reads => readable reads.2)]
        rfl

/-- The table without any owner of an area. -/
def PartitionTable.withoutAreas (table : PartitionTable) :
    PartitionTable :=
  { table with appStorage := Vector.replicate 4 freeArea }

/-- The commands that erase all areas. -/
def allAreasErase : List Command :=
  (List.finRange 4).flatMap areaErase

/-- The loop of `storage_erase_areas` frees one area after the other. -/
private theorem storageEraseAreasLoop_run
    (left : List (Fin 4))
    (m : Machine) :
    (storageEraseAreasLoop left).run m =
      .ok ()
        (({ m with
            partTableStorage :=
              { m.partTableStorage with
                table :=
                  left.foldl
                    (fun table index => table.setArea index freeArea)
                    m.partTableStorage.table } }).perform
          (left.flatMap areaErase)) := by
  induction left generalizing m with
  | nil =>
      rw [List.flatMap_nil, Machine.perform_nil]
      rfl
  | cons index rest inductionHypothesis =>
      rw [storageEraseAreasLoop,
        Fw.run_bind_of_ok (eraseBlocks_run index m), modifyArea,
        Fw.run_modify_bind, modifyArea, Fw.run_modify_bind,
        inductionHypothesis]
      simp only [PartitionTable.getElem_setArea_self,
        PartitionTable.setArea_setArea]
      rw [List.flatMap_cons, Machine.perform_append]
      rfl

private theorem foldl_setArea_freeArea (table : PartitionTable) :
    (List.finRange 4).foldl
        (fun table index => table.setArea index freeArea) table =
      table.withoutAreas := by
  have indices : List.finRange 4 = [0, 1, 2, 3] := by
    decide
  have areas :
      ((((table.appStorage.set 0 freeArea).set 1 freeArea).set 2
          freeArea).set 3 freeArea) =
        Vector.replicate 4 freeArea := by
    apply Vector.ext
    intro position inBounds
    have cases :
        position = 0 ∨ position = 1 ∨ position = 2 ∨ position = 3 := by
      omega
    rcases cases with rfl | rfl | rfl | rfl <;>
      simp
  rw [indices, PartitionTable.withoutAreas, ← areas]
  rfl

/-- Over all indices the loop frees every area. -/
private theorem storageEraseAreasLoop_run_all (m : Machine) :
    (storageEraseAreasLoop (List.finRange 4)).run m =
      .ok ()
        (({ m with
            partTableStorage :=
              { m.partTableStorage with
                table := m.table.withoutAreas } }).perform
          allAreasErase) := by
  rw [storageEraseAreasLoop_run, foldl_setArea_freeArea]
  rfl

/-- The result of erasing all areas. -/
theorem storageEraseAreas_run (device : Device) (m : Machine) :
    (storageEraseAreas device).run m =
      if m.IsMgmt device then
        .ok 0 (m.updateTable allAreasErase m.table.withoutAreas [])
      else
        .ok (-1) m := by
  rw [storageEraseAreas,
    Fw.run_bind_of_ok (mgmtAppAuthenticate_run device m)]
  by_cases mgmt : m.IsMgmt device
  · rw [if_neg (by simp [mgmt]), if_pos mgmt,
      Fw.run_bind_of_ok (storageEraseAreasLoop_run_all m),
      Fw.run_bind_of_ok (partTableWrite_run _), Machine.updateTable,
      List.append_nil, Machine.perform_append]
    rfl
  · rw [if_pos (by simp [mgmt]), if_neg mgmt]
    rfl

end Results

end TKey
