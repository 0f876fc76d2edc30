import TKey.PreloadApp

namespace TKey

open ByteMemory

/-!
# What loading an app touches

`preload_load` copies an app in one transfer.  Here the transfer is taken apart
into the turns of the loop of `spi_read`: each stores the next byte that the
flash chip sends, at the next address the CPU can express.
-/

section Functions

/-- The memory of the CPU, and the bytes read and stored so far, by address. -/
structure Copying where
  memory : Memory
  flashRead : List Nat
  stored : List Nat

/-- Nothing was read or stored yet. -/
def Copying.start (memory : Memory) : Copying where
  memory := memory
  flashRead := []
  stored := []

/-- A turn of the loop of `spi_read`. -/
def Copying.turn
    (flash : Memory)
    (address dest : UInt32)
    (copying : Copying)
    (index : Nat) : Copying :=
  let source := address.toNat % 2 ^ 24 + index
  let place := (dest.toNat + index) % 2 ^ 32
  { memory := write copying.memory place [flash source]
    flashRead := copying.flashRead ++ [source]
    stored := copying.stored ++ [place] }

/-- `flash_read_data`, byte by byte. -/
def flashReadCopy
    (flash : Memory)
    (address dest : UInt32)
    (size : Nat)
    (copying : Copying) : Copying :=
  (List.range size).foldl (Copying.turn flash address dest) copying

/-- `preload_load`, byte by byte. -/
def preloadLoadCopy
    (flash : Memory)
    (table : PartitionTable)
    (fromSlot : UInt8)
    (copying : Copying) : Int × Copying :=
  if bound : fromSlot.toNat < nPreloadedApp then
    let app := table.preAppData.get ⟨_, bound⟩
    if app.size = 0 ∧ app.size ≤ appMaxSize then
      (-1, copying)
    else
      (0,
        flashReadCopy flash (slotToStartAddress fromSlot) ramBase
          app.size.toNat copying)
  else
    (-1, copying)

end Functions

section Loop

/-- One more byte is one more turn. -/
theorem flashReadCopy_succ
    (flash : Memory)
    (address dest : UInt32)
    (size : Nat)
    (copying : Copying) :
    flashReadCopy flash address dest (size + 1) copying =
      Copying.turn flash address dest
        (flashReadCopy flash address dest size copying) size := by
  rw [flashReadCopy, List.range_succ, List.foldl_append]
  rfl

/-- What every turn adds to a record, all turns add in their order. -/
private theorem record_flashReadCopy
    {flash : Memory}
    {address dest : UInt32}
    {record : Copying → List Nat}
    {entry : Nat → Nat}
    (turn :
      ∀ copying index,
        record (Copying.turn flash address dest copying index) =
          record copying ++ [entry index])
    (size : Nat)
    (copying : Copying) :
    record (flashReadCopy flash address dest size copying) =
      record copying ++ (List.range size).map entry := by
  induction size with
  | zero =>
      exact (List.append_nil _).symm
  | succ size inductionHypothesis =>
      rw [flashReadCopy_succ, turn, inductionHypothesis, List.range_succ,
        List.map_append, List.append_assoc]
      rfl

/-- The bytes are read in the order of their addresses. -/
theorem flashRead_flashReadCopy
    (flash : Memory)
    (address dest : UInt32)
    (size : Nat)
    (copying : Copying) :
    (flashReadCopy flash address dest size copying).flashRead =
      copying.flashRead ++
        (List.range size).map (address.toNat % 2 ^ 24 + ·) :=
  record_flashReadCopy (fun _ _ => rfl) size copying

/-- They are stored from the start of the buffer on. -/
theorem stored_flashReadCopy
    (flash : Memory)
    (address dest : UInt32)
    (size : Nat)
    (copying : Copying) :
    (flashReadCopy flash address dest size copying).stored =
      copying.stored ++
        (List.range size).map fun index =>
          (dest.toNat + index) % 2 ^ 32 :=
  record_flashReadCopy (fun _ _ => rfl) size copying

/-- A buffer that ends within the address space holds what was read. -/
theorem memory_flashReadCopy
    {flash : Memory}
    {address dest : UInt32}
    {size : Nat}
    (fits : dest.toNat + size ≤ 2 ^ 32)
    (copying : Copying) :
    (flashReadCopy flash address dest size copying).memory =
      write copying.memory dest.toNat
        (read flash (address.toNat % 2 ^ 24) size) := by
  induction size with
  | zero =>
      funext place
      rw [write_outside _ (by simp; omega)]
      rfl
  | succ size inductionHypothesis =>
      have place : (dest.toNat + size) % 2 ^ 32 = dest.toNat + size :=
        Nat.mod_eq_of_lt (by omega)
      have snoc :=
        write_snoc copying.memory dest.toNat
          (read flash (address.toNat % 2 ^ 24) size)
          (flash (address.toNat % 2 ^ 24 + size))
      rw [length_read] at snoc
      rw [flashReadCopy_succ, Copying.turn, place,
        inductionHypothesis (by omega), read_succ, ← snoc]

end Loop


section Bound

/-- What `preload_load` does when it is called with a memory. -/
def loadTouching
    (flash memory : Memory)
    (table : PartitionTable)
    (fromSlot : UInt8) : Int × Copying :=
  preloadLoadCopy flash table fromSlot (.start memory)

/-- The app in a slot is refused and nothing is touched. -/
def LoadRefused (memory : Memory) (result : Int × Copying) : Prop :=
  result = (-1, .start memory)

/--
An app of 1 to 128 KiB was copied: only bytes of its slot were read, and only
the bytes from the start of app RAM that it occupies were stored.
-/
structure LoadConfined
    (table : PartitionTable)
    (slot : Fin 2)
    (copying : Copying) : Prop where
  size_pos : 1 ≤ (table.app slot).size.toNat
  size_le : (table.app slot).size.toNat ≤ 0x20000
  flashRead :
    ∀ place ∈ copying.flashRead,
      appStart slot ≤ place ∧ place < appStart slot + 0x20000
  stored :
    ∀ place ∈ copying.stored,
      0x40000000 ≤ place ∧
        place < 0x40000000 + (table.app slot).size.toNat

/-- `preload_load` refuses, or copies within the bounds. -/
def LoadBounded
    (flash memory : Memory)
    (table : PartitionTable)
    (fromSlot : UInt8) : Prop :=
  LoadRefused memory (loadTouching flash memory table fromSlot) ∨
    ∃ slot : Fin 2,
      fromSlot = slotByte slot ∧
        LoadConfined table slot (loadTouching flash memory table fromSlot).2

/-- Other slots are refused. -/
theorem loadTouching_of_outside
    (flash memory : Memory)
    (table : PartitionTable)
    {fromSlot : UInt8}
    (outside : nPreloadedApp ≤ fromSlot.toNat) :
    loadTouching flash memory table fromSlot = (-1, .start memory) :=
  dif_neg (Nat.not_lt.mpr outside)

/-- A slot number that is accepted belongs to a slot. -/
theorem exists_slotByte
    {fromSlot : UInt8}
    (bound : fromSlot.toNat < nPreloadedApp) :
    ∃ slot : Fin 2, fromSlot = slotByte slot :=
  ⟨⟨fromSlot.toNat, bound⟩, UInt8.toNat_inj.mp (by simp [slotByte])⟩

/-- An empty slot is refused. -/
theorem loadTouching_of_empty
    (flash memory : Memory)
    {table : PartitionTable}
    {slot : Fin 2}
    (empty : (table.app slot).size = 0) :
    loadTouching flash memory table (slotByte slot) =
      (-1, .start memory) := by
  rw [loadTouching, preloadLoadCopy, dif_pos (slotByte_bound slot),
    slotByte_index, ← PartitionTable.app]
  exact if_pos ⟨empty, by rw [empty]; decide⟩

/-- Everything else is copied, whatever its size is. -/
theorem loadTouching_of_present
    (flash memory : Memory)
    {table : PartitionTable}
    {slot : Fin 2}
    (present : (table.app slot).size ≠ 0) :
    loadTouching flash memory table (slotByte slot) =
      (0,
        flashReadCopy flash (slotToStartAddress (slotByte slot)) ramBase
          (table.app slot).size.toNat (.start memory)) := by
  rw [loadTouching, preloadLoadCopy, dif_pos (slotByte_bound slot),
    slotByte_index, ← PartitionTable.app]
  exact if_neg fun refused => present refused.1

/-- The bytes of flash that a load reads. -/
theorem flashRead_loadTouching
    (flash memory : Memory)
    {table : PartitionTable}
    {slot : Fin 2}
    (present : (table.app slot).size ≠ 0) :
    (loadTouching flash memory table (slotByte slot)).2.flashRead =
      (List.range (table.app slot).size.toNat).map (appStart slot + ·) := by
  have start := appStart_bounds slot
  have short : appStart slot % 2 ^ 24 = appStart slot :=
    Nat.mod_eq_of_lt (by omega)
  rw [loadTouching_of_present flash memory present, flashRead_flashReadCopy,
    toNat_slotToStartAddress, short]
  rfl

/-- The bytes that a load stores. -/
theorem stored_loadTouching
    (flash memory : Memory)
    {table : PartitionTable}
    {slot : Fin 2}
    (present : (table.app slot).size ≠ 0) :
    (loadTouching flash memory table (slotByte slot)).2.stored =
      (List.range (table.app slot).size.toNat).map fun index =>
        (0x40000000 + index) % 2 ^ 32 := by
  rw [loadTouching_of_present flash memory present, stored_flashReadCopy]
  rfl

/-- An app of at most 128 KiB is copied within the bounds. -/
theorem loadConfined_of_le
    (flash memory : Memory)
    {table : PartitionTable}
    {slot : Fin 2}
    (present : (table.app slot).size ≠ 0)
    (fits : (table.app slot).size.toNat ≤ 0x20000) :
    LoadConfined table slot
      (loadTouching flash memory table (slotByte slot)).2 where
  size_pos := Nat.one_le_iff_ne_zero.mpr fun zero =>
    present (UInt32.toNat_inj.mp zero)
  size_le := fits
  flashRead place member := by
    rw [flashRead_loadTouching flash memory present] at member
    obtain ⟨index, inside, rfl⟩ := List.mem_map.mp member
    rw [List.mem_range] at inside
    omega
  stored place member := by
    rw [stored_loadTouching flash memory present] at member
    obtain ⟨index, inside, rfl⟩ := List.mem_map.mp member
    rw [List.mem_range] at inside
    omega

/--
Loading stays within the bounds exactly when there is no such slot or the size
that the table records for it is at most 128 KiB: the check of the source does
not refuse a larger one.
-/
theorem load_bounded_iff
    (flash memory : Memory)
    (table : PartitionTable)
    (fromSlot : UInt8) :
    LoadBounded flash memory table fromSlot ↔
      ∀ bound : fromSlot.toNat < nPreloadedApp,
        (table.app ⟨fromSlot.toNat, bound⟩).size.toNat ≤ 0x20000 := by
  by_cases bound : fromSlot.toNat < nPreloadedApp
  case neg =>
    have outside := Nat.le_of_not_lt bound
    constructor
    · intro _ inside
      exact absurd inside bound
    · intro _
      exact .inl (loadTouching_of_outside flash memory table outside)
  obtain ⟨slot, rfl⟩ := exists_slotByte bound
  have index := slotByte_index slot
  by_cases empty : (table.app slot).size = 0
  · constructor
    · intro _ inside
      rw [index, empty]
      decide
    · intro _
      exact .inl (loadTouching_of_empty flash memory empty)
  constructor
  · rintro (refused | ⟨other, same, confined⟩) inside
    · rw [LoadRefused, loadTouching_of_present flash memory empty] at refused
      have result : (0 : Int) = -1 := congrArg Prod.fst refused
      exact absurd result (by decide)
    · have slots : slot = other := by
        rw [← slotByte_index slot, ← slotByte_index other]
        exact Fin.ext (congrArg UInt8.toNat same)
      rw [index, slots]
      exact confined.size_le
  · intro fits
    have size := fits bound
    rw [index] at size
    exact .inr ⟨slot, rfl, loadConfined_of_le flash memory empty size⟩

/-- The first app is one byte larger than its slot. -/
def oversizedTable : PartitionTable where
  version := 1
  preAppData :=
    Vector.replicate 2
      { size := 0x20001
        digest := Vector.replicate 32 0
        signature := Vector.replicate 64 0
        pubkey := Vector.replicate 32 0 }
  appStorage :=
    Vector.replicate 4
      { status := 0
        auth :=
          { nonce := Vector.replicate 16 0
            authenticationDigest := Vector.replicate 16 0 } }

/-- Loading it reads a byte of the next slot and stores a byte above app RAM. -/
theorem load_bounded_counterexample :
    ¬ LoadBounded (fun _ => 0xff) (fun _ => 0) oversizedTable (slotByte 0) ∧
      0x50000 ∈
        (loadTouching (fun _ => 0xff) (fun _ => 0)
          oversizedTable (slotByte 0)).2.flashRead ∧
      0x40020000 ∈
        (loadTouching (fun _ => 0xff) (fun _ => 0)
          oversizedTable (slotByte 0)).2.stored := by
  have size (slot : Fin 2) : (oversizedTable.app slot).size = 0x20001 := by
    revert slot
    decide
  have present : (oversizedTable.app 0).size ≠ 0 := by
    rw [size]
    decide
  have flashRead :=
    flashRead_loadTouching (fun _ => 0xff) (fun _ => 0) present
  have stored :=
    stored_loadTouching (fun _ => 0xff) (fun _ => 0) present
  rw [size] at flashRead stored
  have outside : 0x50000 ∈
      (loadTouching (fun _ => 0xff) (fun _ => 0)
        oversizedTable (slotByte 0)).2.flashRead := by
    rw [flashRead]
    exact List.mem_map.mpr ⟨0x20000, List.mem_range.mpr (by decide), rfl⟩
  refine ⟨?_, outside, ?_⟩
  · rintro (refused | ⟨slot, same, confined⟩)
    · have none := congrArg (fun result => result.2.flashRead) refused
      rw [none] at outside
      exact absurd outside List.not_mem_nil
    · have large := confined.size_le
      rw [size] at large
      exact absurd large (by decide)
  · rw [stored]
    exact List.mem_map.mpr ⟨0x20000, List.mem_range.mpr (by decide), rfl⟩

/-- What is copied byte by byte is what is copied as a whole. -/
theorem loadTouching_of_preloadLoad
    {fromSlot : UInt8}
    {m m' : Machine}
    {result : Int}
    (loads : (preloadLoad fromSlot).run m = .ok result m') :
    (loadTouching m.flash.memory m.ram m.table fromSlot).1 = result ∧
      (loadTouching m.flash.memory m.ram m.table fromSlot).2.memory =
        m'.ram := by
  by_cases bound : fromSlot.toNat < nPreloadedApp
  case neg =>
    have outside := Nat.le_of_not_lt bound
    rw [preloadLoad, dif_neg bound] at loads
    cases loads
    rw [loadTouching_of_outside _ _ _ outside]
    exact ⟨rfl, rfl⟩
  obtain ⟨slot, rfl⟩ := exists_slotByte bound
  by_cases empty : (m.table.app slot).size = 0
  · rw [preloadLoad_run_empty empty] at loads
    cases loads
    rw [loadTouching_of_empty _ _ empty]
    exact ⟨rfl, rfl⟩
  by_cases fits : (m.table.app slot).size.toNat ≤ 0x20000
  · have start := appStart_bounds slot
    have short : appStart slot % 2 ^ 24 = appStart slot :=
      Nat.mod_eq_of_lt (by omega)
    have base : ramBase.toNat = 0x40000000 := rfl
    rw [preloadLoad_run empty fits] at loads
    cases loads
    rw [loadTouching_of_present _ _ empty]
    refine ⟨rfl, ?_⟩
    rw [memory_flashReadCopy (by omega), toNat_slotToStartAddress, short]
    rfl
  · rw [preloadLoad_run_large (Nat.lt_of_not_le fits)] at loads
    cases loads

end Bound

end TKey
