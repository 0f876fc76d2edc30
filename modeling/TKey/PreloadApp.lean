import TKey.Storage

namespace TKey

open ByteMemory NorFlash

/-!
# Preloaded apps

`preload_app.c`: the slots of flash that hold apps.  The management app
installs and deletes apps; the firmware loads them into app RAM.
-/

section Functions

def slotToStartAddress (slot : UInt8) : UInt32 :=
  addrPreLoadedApp0 + slot.toUInt32 * sizePreLoadedApp

/-- The table with another entry for one app slot. -/
def PartitionTable.setApp
    (table : PartitionTable)
    (slot : Fin 2)
    (app : PreLoadedAppMetadata) : PartitionTable :=
  { table with preAppData := table.preAppData.set slot app }

/-- Change the entry of one app slot of the table in `FW_RAM`. -/
def modifyApp
    (slot : Fin 2)
    (change : PreLoadedAppMetadata → PreLoadedAppMetadata) : Fw Unit :=
  modify fun m =>
    { m with
      partTableStorage :=
        { m.partTableStorage with
          table :=
            m.partTableStorage.table.setApp slot
              (change (m.partTableStorage.table.preAppData.get slot)) } }

/-- Load a preloaded app from flash to app RAM. -/
def preloadLoad (fromSlot : UInt8) : Fw Int :=
  if bound : fromSlot.toNat < nPreloadedApp then do
    let m ← get
    let app := m.partTableStorage.table.preAppData.get ⟨_, bound⟩
    -- as in the source, the second condition never refuses a large size
    if app.size = 0 ∧ app.size ≤ appMaxSize then
      return -1
    else do
      let result ←
        flashReadData (slotToStartAddress fromSlot) app.size.toNat
      storeBytes ramBase result.2
      return result.1
  else
    return -1

/-- Store a chunk of an app at an offset of the slot. -/
def preloadStore
    (device : Device)
    (offset data size : UInt32)
    (toSlot : UInt8) : Fw Int :=
  if inAppRam data size = false then
    return -1
  else if bound : toSlot.toNat < nPreloadedApp then do
    let allowed ← mgmtAppAuthenticate device
    if allowed = false then
      return -1
    else do
      let m ← get
      let app := m.partTableStorage.table.preAppData.get ⟨_, bound⟩
      if app.size ≠ 0 then
        return -1
      else if offset > sizePreLoadedApp then
        return -1
      else if size > sizePreLoadedApp then
        return -1
      else if offset + size > sizePreLoadedApp then
        return -1
      else do
        let bytes ← loadBytes data size.toNat
        flashWriteData (slotToStartAddress toSlot + offset) bytes
  else
    return -1

/-- Enter a completely stored app in the table. -/
def preloadStoreFinalize
    (device : Device)
    (appSize appDigest appSignature : UInt32)
    (toSlot : UInt8) : Fw Int :=
  if inAppRam appDigest 32 = false then
    return -1
  else if inAppRam appSignature 64 = false then
    return -1
  else if bound : toSlot.toNat < nPreloadedApp then do
    let allowed ← mgmtAppAuthenticate device
    if allowed = false then
      return -1
    else do
      let m ← get
      let app := m.partTableStorage.table.preAppData.get ⟨_, bound⟩
      if app.size ≠ 0 then
        return -1
      else if appSize = 0 ∨ appSize > sizePreLoadedApp then
        return -1
      else do
        modifyApp ⟨_, bound⟩ fun entry => { entry with size := appSize }
        let digest ← loadBytes appDigest 32
        modifyApp ⟨_, bound⟩ fun entry =>
          { entry with digest := toVector 32 digest }
        let signature ← loadBytes appSignature 64
        modifyApp ⟨_, bound⟩ fun entry =>
          { entry with signature := toVector 64 signature }
        let result ← partTableWrite
        return if result ≠ 0 then -1 else 0
  else
    return -1

/-- Remove an app from the table and erase its slot. -/
def preloadDelete (device : Device) (slot : UInt8) : Fw Int :=
  if bound : slot.toNat < nPreloadedApp then do
    let allowed ← mgmtAppAuthenticate device
    if allowed = false then
      return -1
    else do
      let m ← get
      let app := m.partTableStorage.table.preAppData.get ⟨_, bound⟩
      if app.size = 0 then
        -- nothing to do
        return 0
      else do
        modifyApp ⟨_, bound⟩ fun entry => { entry with size := 0 }
        modifyApp ⟨_, bound⟩ fun entry =>
          { entry with digest := Vector.replicate 32 0 }
        modifyApp ⟨_, bound⟩ fun entry =>
          { entry with signature := Vector.replicate 64 0 }
        let result ← partTableWrite
        if result ≠ 0 then
          return -1
        else do
          eraseBlocks (slotToStartAddress slot)
          return 0
  else
    return -1

/-- Copy the metadata of an app to the buffers of the management app. -/
def preloadGetMetadata
    (device : Device)
    (appDigest appSignature pubkey : UInt32)
    (slot : UInt8) : Fw Int :=
  if inAppRam appDigest 32 = false then
    return -1
  else if inAppRam appSignature 64 = false then
    return -1
  else if inAppRam pubkey 32 = false then
    return -1
  else if bound : slot.toNat < nPreloadedApp then do
    let allowed ← mgmtAppAuthenticate device
    if allowed = false then
      return -1
    else do
      let m ← get
      let app := m.partTableStorage.table.preAppData.get ⟨_, bound⟩
      storeBytes appDigest app.digest.toList
      storeBytes appSignature app.signature.toList
      storeBytes pubkey app.pubkey.toList
      return 0
  else
    return -1

/-- Set the public key that belongs to a slot. -/
def preloadSetPubkey
    (device : Device)
    (pubkey : UInt32)
    (toSlot : UInt8) : Fw Int :=
  if inAppRam pubkey 32 = false then
    return -1
  else if bound : toSlot.toNat < nPreloadedApp then do
    let allowed ← mgmtAppAuthenticate device
    if allowed = false then
      return -1
    else do
      let bytes ← loadBytes pubkey 32
      modifyApp ⟨_, bound⟩ fun entry =>
        { entry with pubkey := toVector 32 bytes }
      let result ← partTableWrite
      return if result ≠ 0 then -1 else 0
  else
    return -1

end Functions

section Results

/-- The entry of an app slot in a table. -/
def PartitionTable.app
    (table : PartitionTable)
    (slot : Fin 2) : PreLoadedAppMetadata :=
  table.preAppData.get slot

/-- Flash address of the first byte of an app slot. -/
def appStart (slot : Fin 2) : Nat :=
  0x30000 + slot.val * 0x20000

/-- The commands that erase an app slot. -/
def slotErase (slot : Fin 2) : List Command :=
  [.erase (appStart slot) 0x10000,
    .erase (appStart slot + 0x10000) 0x10000]

/-- A slot number as the functions of the source take it. -/
def slotByte (slot : Fin 2) : UInt8 :=
  UInt8.ofNat slot.val

theorem slotByte_bound (slot : Fin 2) :
    (slotByte slot).toNat < nPreloadedApp := by
  revert slot
  decide

/-- The index made from a slot number is the slot. -/
theorem slotByte_index (slot : Fin 2) :
    (⟨(slotByte slot).toNat, slotByte_bound slot⟩ : Fin 2) = slot := by
  revert slot
  decide

theorem appStart_bounds (slot : Fin 2) :
    0x30000 ≤ appStart slot ∧
      appStart slot ≤ 0x50000 ∧
      appStart slot % 65536 = 0 := by
  revert slot
  decide

theorem toNat_slotToStartAddress (slot : Fin 2) :
    (slotToStartAddress (slotByte slot)).toNat = appStart slot := by
  revert slot
  decide

private theorem eraseSlot_run (slot : Fin 2) (m : Machine) :
    (eraseBlocks (slotToStartAddress (slotByte slot))).run m =
      .ok () (m.perform (slotErase slot)) := by
  have firstBlock :
      blockCommand
          ((slotToStartAddress (slotByte slot)).toNat % 2 ^ 24) =
        .erase (appStart slot) 0x10000 := by
    revert slot
    decide
  have secondBlock :
      blockCommand
          ((slotToStartAddress (slotByte slot) + 0x10000).toNat %
            2 ^ 24) =
        .erase (appStart slot + 0x10000) 0x10000 := by
    revert slot
    decide
  rw [eraseBlocks, Fw.run_bind_of_ok (flashBlock64Erase_run _ m),
    flashBlock64Erase_run, firstBlock, secondBlock,
    ← Machine.perform_append]
  rfl

@[simp] theorem PartitionTable.setApp_setApp
    (table : PartitionTable)
    (slot : Fin 2)
    (first second : PreLoadedAppMetadata) :
    (table.setApp slot first).setApp slot second =
      table.setApp slot second := by
  simp [setApp]

@[simp] theorem PartitionTable.get_setApp_self
    (table : PartitionTable)
    (slot : Fin 2)
    (app : PreLoadedAppMetadata) :
    (table.setApp slot app).preAppData.get slot = app := by
  show (table.preAppData.set slot.val app)[slot.val] = app
  exact Vector.getElem_set_self slot.isLt

/-- A slot that holds no app is not loaded. -/
theorem preloadLoad_run_empty
    {slot : Fin 2}
    {m : Machine}
    (empty : (m.table.app slot).size = 0) :
    (preloadLoad (slotByte slot)).run m = .ok (-1) m := by
  rw [preloadLoad, dif_pos (slotByte_bound slot), Fw.run_get_bind,
    slotByte_index, if_pos]
  · rfl
  · constructor
    · exact empty
    · rw [← PartitionTable.app, ← Machine.table, empty]
      decide

/-- An app of at most 128 KiB is copied to the start of app RAM. -/
theorem preloadLoad_run
    {slot : Fin 2}
    {m : Machine}
    (present : (m.table.app slot).size ≠ 0)
    (fits : (m.table.app slot).size.toNat ≤ 0x20000) :
    (preloadLoad (slotByte slot)).run m =
      .ok 0
        { m with
          ram :=
            write m.ram ramBase.toNat
              (read m.flash.memory (appStart slot)
                (m.table.app slot).size.toNat) } := by
  have start := appStart_bounds slot
  have inRam :
      InRam ramBase
        (read m.flash.memory (appStart slot)
          (m.table.app slot).size.toNat).length := by
    have base : ramBase.toNat = 0x40000000 := rfl
    have length : ramSize.toNat = 0x20000 := rfl
    simp only [InRam, length_read, base, length]
    omega
  rw [preloadLoad, dif_pos (slotByte_bound slot), Fw.run_get_bind,
    slotByte_index, ← Machine.table, ← PartitionTable.app,
    if_neg (fun refused => present refused.1),
    Fw.run_bind_of_ok (flashReadData_run _ _ m),
    toNat_slotToStartAddress, Nat.mod_eq_of_lt (by omega),
    Fw.run_bind_of_ok (storeBytes_run inRam m)]
  rfl

/-- An app of more than 128 KiB does not fit into app RAM. -/
theorem preloadLoad_run_large
    {slot : Fin 2}
    {m : Machine}
    (large : 0x20000 < (m.table.app slot).size.toNat) :
    (preloadLoad (slotByte slot)).run m = .error .fault m := by
  have start := appStart_bounds slot
  have present : (m.table.app slot).size ≠ 0 := by
    intro zero
    rw [zero] at large
    simp at large
  have outside :
      ¬ InRam ramBase
        (read m.flash.memory (appStart slot)
          (m.table.app slot).size.toNat).length := by
    have base : ramBase.toNat = 0x40000000 := rfl
    have length : ramSize.toNat = 0x20000 := rfl
    simp only [InRam, length_read, base, length]
    omega
  have faults :
      (storeBytes ramBase
          (read m.flash.memory (appStart slot)
            (m.table.app slot).size.toNat)).run m =
        .error .fault m := by
    simp only [storeBytes, EStateM.run, if_neg outside]
  rw [preloadLoad, dif_pos (slotByte_bound slot), Fw.run_get_bind,
    slotByte_index, ← Machine.table, ← PartitionTable.app,
    if_neg (fun refused => present refused.1),
    Fw.run_bind_of_ok (flashReadData_run _ _ m),
    toNat_slotToStartAddress, Nat.mod_eq_of_lt (by omega),
    Fw.run_bind_of_error faults]

private theorem toNat_slot_add
    (slot : Fin 2)
    {offset size : UInt32}
    (inSlot : InArea offset size) :
    (slotToStartAddress (slotByte slot) + offset).toNat =
      appStart slot + offset.toNat := by
  have start := appStart_bounds slot
  simp only [InArea] at inSlot
  rw [UInt32.toNat_add, toNat_slotToStartAddress]
  omega

/-- The request that `preload_store` carries out. -/
def AcceptsStore
    (device : Device)
    (offset data size : UInt32)
    (slot : Fin 2)
    (m : Machine) : Prop :=
  m.IsMgmt device ∧
    (m.table.app slot).size = 0 ∧
    WritableRange offset data size

instance
    (device : Device)
    (offset data size : UInt32)
    (slot : Fin 2)
    (m : Machine) :
    Decidable (AcceptsStore device offset data size slot m) :=
  inferInstanceAs (Decidable (_ ∧ _))

/-- The checks of `preload_store` on a range in app RAM. -/
private theorem store_refused_iff (offset size : UInt32) :
    (offset > sizePreLoadedApp ∨
        size > sizePreLoadedApp ∨
        offset + size > sizePreLoadedApp) ↔
      ¬ InArea offset size :=
  write_refused_iff offset size

/-- The result of storing a chunk of an app. -/
theorem preloadStore_run
    (device : Device)
    (offset data size : UInt32)
    (slot : Fin 2)
    (m : Machine) :
    (preloadStore device offset data size (slotByte slot)).run m =
      if AcceptsStore device offset data size slot m then
        .ok 0
          (m.perform
            (pages 256 (appStart slot + offset.toNat)
              (read m.ram data.toNat size.toNat)))
      else
        .ok (-1) m := by
  by_cases inRam : inAppRam data size = true
  case neg =>
    rw [preloadStore, if_pos (by simpa using inRam),
      if_neg (fun accepts => inRam accepts.2.2.1)]
    rfl
  rw [preloadStore, if_neg (by simpa using inRam),
    dif_pos (slotByte_bound slot),
    Fw.run_bind_of_ok (mgmtAppAuthenticate_run device m)]
  by_cases mgmt : m.IsMgmt device
  case neg =>
    rw [if_pos (by simpa using mgmt),
      if_neg (fun accepts => mgmt accepts.1)]
    rfl
  rw [if_neg (by simpa using mgmt), Fw.run_get_bind, slotByte_index,
    ← Machine.table, ← PartitionTable.app]
  by_cases empty : (m.table.app slot).size = 0
  case neg =>
    rw [if_pos empty, if_neg (fun accepts => empty accepts.2.1)]
    rfl
  rw [if_neg (not_not.mpr empty)]
  simp only [← ite_or]
  by_cases inSlot : InArea offset size
  case neg =>
    rw [if_pos ((store_refused_iff offset size).mpr inSlot),
      if_neg (fun accepts => inSlot accepts.2.2.2.2.2)]
    rfl
  rw [if_neg ((store_refused_iff offset size).not_left.mpr inSlot),
    Fw.run_bind_of_ok (loadBytes_run (inRam_of_inAppRam inRam) m)]
  have place := toNat_slot_add slot inSlot
  have start := appStart_bounds slot
  have bound := inSlot
  simp only [InArea] at bound
  by_cases writable : size.toNat ≠ 0 ∧ offset.toNat % 256 = 0
  · rw [if_pos ⟨mgmt, empty, inRam, writable.1, writable.2, inSlot⟩,
      flashWriteData_run (by rw [place]; omega)
        (List.ne_nil_of_length_pos (by simp; omega))
        (by rw [place, length_read]; omega),
      place]
  · rw [if_neg (fun accepts =>
        writable ⟨accepts.2.2.2.1, accepts.2.2.2.2.1⟩),
      flashWriteData_refused]
    by_cases noData : size.toNat = 0
    · left
      rw [noData]
      rfl
    · right
      omega

/-- The request that `preload_store_finalize` carries out. -/
def AcceptsFinalize
    (device : Device)
    (appSize appDigest appSignature : UInt32)
    (slot : Fin 2)
    (m : Machine) : Prop :=
  inAppRam appDigest 32 = true ∧
    inAppRam appSignature 64 = true ∧
    m.IsMgmt device ∧
    (m.table.app slot).size = 0 ∧
    appSize ≠ 0 ∧
    appSize.toNat ≤ 0x20000

instance
    (device : Device)
    (appSize appDigest appSignature : UInt32)
    (slot : Fin 2)
    (m : Machine) :
    Decidable
      (AcceptsFinalize device appSize appDigest appSignature slot m) :=
  inferInstanceAs (Decidable (_ ∧ _))

/-- The entry of an app that has been stored completely. -/
def storedApp
    (appSize appDigest appSignature : UInt32)
    (slot : Fin 2)
    (m : Machine) : PreLoadedAppMetadata where
  size := appSize
  digest := toVector 32 (read m.ram appDigest.toNat 32)
  signature := toVector 64 (read m.ram appSignature.toNat 64)
  pubkey := (m.table.app slot).pubkey

/-- The result of finalizing a stored app. -/
theorem preloadStoreFinalize_run
    (device : Device)
    (appSize appDigest appSignature : UInt32)
    (slot : Fin 2)
    (m : Machine) :
    (preloadStoreFinalize device appSize appDigest appSignature
        (slotByte slot)).run m =
      if AcceptsFinalize device appSize appDigest appSignature slot m then
        .ok 0
          (m.updateTable []
            (m.table.setApp slot
              (storedApp appSize appDigest appSignature slot m)) [])
      else
        .ok (-1) m := by
  by_cases digestInRam : inAppRam appDigest 32 = true
  case neg =>
    rw [preloadStoreFinalize, if_pos (by simpa using digestInRam),
      if_neg (fun accepts => digestInRam accepts.1)]
    rfl
  by_cases signatureInRam : inAppRam appSignature 64 = true
  case neg =>
    rw [preloadStoreFinalize, if_neg (by simpa using digestInRam),
      if_pos (by simpa using signatureInRam),
      if_neg (fun accepts => signatureInRam accepts.2.1)]
    rfl
  rw [preloadStoreFinalize, if_neg (by simpa using digestInRam),
    if_neg (by simpa using signatureInRam),
    dif_pos (slotByte_bound slot),
    Fw.run_bind_of_ok (mgmtAppAuthenticate_run device m)]
  by_cases mgmt : m.IsMgmt device
  case neg =>
    rw [if_pos (by simpa using mgmt),
      if_neg (fun accepts => mgmt accepts.2.2.1)]
    rfl
  rw [if_neg (by simpa using mgmt), Fw.run_get_bind, slotByte_index,
    ← Machine.table, ← PartitionTable.app]
  by_cases empty : (m.table.app slot).size = 0
  case neg =>
    rw [if_pos empty, if_neg (fun accepts => empty accepts.2.2.2.1)]
    rfl
  rw [if_neg (not_not.mpr empty)]
  have limit : sizePreLoadedApp.toNat = 0x20000 := rfl
  have sizeIff :
      (appSize = 0 ∨ appSize > sizePreLoadedApp) ↔
        ¬ (appSize ≠ 0 ∧ appSize.toNat ≤ 0x20000) := by
    rw [gt_iff_lt, UInt32.lt_iff_toNat_lt, limit]
    by_cases zero : appSize = 0
    · simp [zero]
    · simp [zero]
  by_cases sized : appSize ≠ 0 ∧ appSize.toNat ≤ 0x20000
  case neg =>
    rw [if_pos (sizeIff.mpr sized),
      if_neg (fun accepts => sized accepts.2.2.2.2)]
    rfl
  have digestRange : InRam appDigest 32 :=
    inRam_of_inAppRam digestInRam
  have signatureRange : InRam appSignature 64 :=
    inRam_of_inAppRam signatureInRam
  rw [if_neg (sizeIff.not_left.mpr sized),
    if_pos ⟨digestInRam, signatureInRam, mgmt, empty, sized⟩,
    modifyApp, Fw.run_modify_bind, Fw.run_bind_of_ok (loadBytes_run digestRange _),
    modifyApp, Fw.run_modify_bind,
    Fw.run_bind_of_ok (loadBytes_run signatureRange _),
    modifyApp, Fw.run_modify_bind,
    Fw.run_bind_of_ok (partTableWrite_run _)]
  simp only [PartitionTable.get_setApp_self,
    PartitionTable.setApp_setApp]
  rw [Machine.updateTable, List.append_nil, List.nil_append]
  rfl

/-- The entry of a slot after its app was deleted. -/
def deletedApp (app : PreLoadedAppMetadata) : PreLoadedAppMetadata where
  size := 0
  digest := Vector.replicate 32 0
  signature := Vector.replicate 64 0
  pubkey := app.pubkey

/--
The result of deleting an app: an entry of size zero is left alone together
with the contents of its slot.
-/
theorem preloadDelete_run
    (device : Device)
    (slot : Fin 2)
    (m : Machine) :
    (preloadDelete device (slotByte slot)).run m =
      if m.IsMgmt device then
        if (m.table.app slot).size = 0 then
          .ok 0 m
        else
          .ok 0
            (m.updateTable []
              (m.table.setApp slot (deletedApp (m.table.app slot)))
              (slotErase slot))
      else
        .ok (-1) m := by
  rw [preloadDelete, dif_pos (slotByte_bound slot),
    Fw.run_bind_of_ok (mgmtAppAuthenticate_run device m)]
  by_cases mgmt : m.IsMgmt device
  case neg =>
    rw [if_pos (by simpa using mgmt), if_neg mgmt]
    rfl
  rw [if_neg (by simpa using mgmt), if_pos mgmt, Fw.run_get_bind,
    slotByte_index, ← Machine.table, ← PartitionTable.app]
  by_cases empty : (m.table.app slot).size = 0
  · rw [if_pos empty, if_pos empty]
    rfl
  · rw [if_neg empty, if_neg empty, modifyApp, Fw.run_modify_bind,
      modifyApp, Fw.run_modify_bind, modifyApp, Fw.run_modify_bind,
      Fw.run_bind_of_ok (partTableWrite_run _), if_neg (by simp),
      Fw.run_bind_of_ok (eraseSlot_run slot _)]
    simp only [PartitionTable.get_setApp_self,
      PartitionTable.setApp_setApp]
    rw [Machine.updateTable, List.nil_append, Machine.perform_append]
    rfl

/-- The request that `preload_get_metadata` carries out. -/
def AcceptsGetMetadata
    (device : Device)
    (appDigest appSignature pubkey : UInt32)
    (m : Machine) : Prop :=
  inAppRam appDigest 32 = true ∧
    inAppRam appSignature 64 = true ∧
    inAppRam pubkey 32 = true ∧
    m.IsMgmt device

instance
    (device : Device)
    (appDigest appSignature pubkey : UInt32)
    (m : Machine) :
    Decidable
      (AcceptsGetMetadata device appDigest appSignature pubkey m) :=
  inferInstanceAs (Decidable (_ ∧ _))

/-- App RAM after the metadata of an app was copied into it. -/
def metadataRam
    (appDigest appSignature pubkey : UInt32)
    (app : PreLoadedAppMetadata)
    (ram : Memory) : Memory :=
  write
    (write (write ram appDigest.toNat app.digest.toList)
      appSignature.toNat app.signature.toList)
    pubkey.toNat app.pubkey.toList

/-- The result of asking for the metadata of an app. -/
theorem preloadGetMetadata_run
    (device : Device)
    (appDigest appSignature pubkey : UInt32)
    (slot : Fin 2)
    (m : Machine) :
    (preloadGetMetadata device appDigest appSignature pubkey
        (slotByte slot)).run m =
      if AcceptsGetMetadata device appDigest appSignature pubkey m then
        .ok 0
          { m with
            ram :=
              metadataRam appDigest appSignature pubkey
                (m.table.app slot) m.ram }
      else
        .ok (-1) m := by
  by_cases digestInRam : inAppRam appDigest 32 = true
  case neg =>
    rw [preloadGetMetadata, if_pos (by simpa using digestInRam),
      if_neg (fun accepts => digestInRam accepts.1)]
    rfl
  by_cases signatureInRam : inAppRam appSignature 64 = true
  case neg =>
    rw [preloadGetMetadata, if_neg (by simpa using digestInRam),
      if_pos (by simpa using signatureInRam),
      if_neg (fun accepts => signatureInRam accepts.2.1)]
    rfl
  by_cases pubkeyInRam : inAppRam pubkey 32 = true
  case neg =>
    rw [preloadGetMetadata, if_neg (by simpa using digestInRam),
      if_neg (by simpa using signatureInRam),
      if_pos (by simpa using pubkeyInRam),
      if_neg (fun accepts => pubkeyInRam accepts.2.2.1)]
    rfl
  rw [preloadGetMetadata, if_neg (by simpa using digestInRam),
    if_neg (by simpa using signatureInRam),
    if_neg (by simpa using pubkeyInRam), dif_pos (slotByte_bound slot),
    Fw.run_bind_of_ok (mgmtAppAuthenticate_run device m)]
  by_cases mgmt : m.IsMgmt device
  case neg =>
    rw [if_pos (by simpa using mgmt),
      if_neg (fun accepts => mgmt accepts.2.2.2)]
    rfl
  have digestRange
      (digest : Vector UInt8 32) :
      InRam appDigest digest.toList.length := by
    simpa using inRam_of_inAppRam digestInRam
  have signatureRange
      (signature : Vector UInt8 64) :
      InRam appSignature signature.toList.length := by
    simpa using inRam_of_inAppRam signatureInRam
  have pubkeyRange
      (key : Vector UInt8 32) :
      InRam pubkey key.toList.length := by
    simpa using inRam_of_inAppRam pubkeyInRam
  rw [if_neg (by simpa using mgmt),
    if_pos ⟨digestInRam, signatureInRam, pubkeyInRam, mgmt⟩,
    Fw.run_get_bind, slotByte_index, ← Machine.table,
    ← PartitionTable.app,
    Fw.run_bind_of_ok (storeBytes_run (digestRange _) _),
    Fw.run_bind_of_ok (storeBytes_run (signatureRange _) _),
    Fw.run_bind_of_ok (storeBytes_run (pubkeyRange _) _)]
  rfl

/-- The request that `preload_set_pubkey` carries out. -/
def AcceptsSetPubkey
    (device : Device)
    (pubkey : UInt32)
    (m : Machine) : Prop :=
  inAppRam pubkey 32 = true ∧ m.IsMgmt device

instance (device : Device) (pubkey : UInt32) (m : Machine) :
    Decidable (AcceptsSetPubkey device pubkey m) :=
  inferInstanceAs (Decidable (_ ∧ _))

/-- The entry of a slot with the public key in app RAM. -/
def keyedApp
    (pubkey : UInt32)
    (slot : Fin 2)
    (m : Machine) : PreLoadedAppMetadata :=
  { m.table.app slot with
    pubkey := toVector 32 (read m.ram pubkey.toNat 32) }

/-- The result of setting the public key of a slot. -/
theorem preloadSetPubkey_run
    (device : Device)
    (pubkey : UInt32)
    (slot : Fin 2)
    (m : Machine) :
    (preloadSetPubkey device pubkey (slotByte slot)).run m =
      if AcceptsSetPubkey device pubkey m then
        .ok 0
          (m.updateTable []
            (m.table.setApp slot (keyedApp pubkey slot m)) [])
      else
        .ok (-1) m := by
  by_cases keyInRam : inAppRam pubkey 32 = true
  case neg =>
    rw [preloadSetPubkey, if_pos (by simpa using keyInRam),
      if_neg (fun accepts => keyInRam accepts.1)]
    rfl
  rw [preloadSetPubkey, if_neg (by simpa using keyInRam),
    dif_pos (slotByte_bound slot),
    Fw.run_bind_of_ok (mgmtAppAuthenticate_run device m)]
  by_cases mgmt : m.IsMgmt device
  case neg =>
    rw [if_pos (by simpa using mgmt),
      if_neg (fun accepts => mgmt accepts.2)]
    rfl
  have keyRange : InRam pubkey 32 :=
    inRam_of_inAppRam keyInRam
  rw [if_neg (by simpa using mgmt), if_pos ⟨keyInRam, mgmt⟩,
    Fw.run_bind_of_ok (loadBytes_run keyRange m), slotByte_index,
    modifyApp, Fw.run_modify_bind,
    Fw.run_bind_of_ok (partTableWrite_run _), Machine.updateTable,
    List.append_nil, List.nil_append]
  rfl

end Results

end TKey
