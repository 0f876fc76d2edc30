import TKey.MeasuredStart

namespace TKey

open ByteMemory NorFlash

/-!
# Installation of an app

The management app deletes the app in slot 1, stores another one in chunks and
enters it in the table.  Deleting erases the slot only when the table has an
entry for it, so whatever an earlier, unfinished installation or a deletion cut
off by a power loss has left in the slot stays there, and a program command can
only clear bits of it.
-/

/-- A system call that stores a part of an app image. -/
structure Chunk (image : List UInt8) where
  app : App
  call : Call
  isStore : SyscallNum.ofWord call.number = some .preloadStore
  isSlice :
    read app.ram call.arg2.toNat call.arg3.toNat =
      (image.drop call.arg1.toNat).take call.arg3.toNat

/-- The part of the image that a system call stores. -/
def Chunk.slice {image : List UInt8} (chunk : Chunk image) : Slice image where
  offset := chunk.call.arg1.toNat
  data :=
    read chunk.app.ram chunk.call.arg2.toNat chunk.call.arg3.toNat
  isSlice := by
    rw [length_read]
    exact chunk.isSlice

/-- System calls that store chunks and all return zero. -/
inductive Stores (device : Device) {image : List UInt8} :
    Machine → List (Chunk image) → Machine → Prop where
  | nil (m : Machine) : Stores device m [] m
  | cons {m m' m'' : Machine} {chunks : List (Chunk image)}
      (chunk : Chunk image)
      (returns : callResult device chunk.app chunk.call m = .ok 0 m')
      (rest : Stores device m' chunks m'') :
      Stores device m (chunk :: chunks) m''

/--
The system calls of an installation, which all return zero: a deletion, stores
that cover the image exactly once, and the entry in the table.
-/
structure Installation
    (device : Device)
    (image : List UInt8)
    (start : Machine) where
  sized : 1 ≤ image.length ∧ image.length ≤ 0x20000
  deleter : App
  deletion : Call
  isDelete : SyscallNum.ofWord deletion.number = some .preloadDelete
  deleted : Machine
  deletes : callResult device deleter deletion start = .ok 0 deleted
  chunks : List (Chunk image)
  coveredOnce :
    ∀ index,
      index < image.length →
      chunks.countP (fun chunk => chunk.slice.Covers index) = 1
  stored : Machine
  stores : Stores device deleted chunks stored
  finalizer : App
  finalization : Call
  isFinalize :
    SyscallNum.ofWord finalization.number = some .preloadStoreFin
  wholeSize : finalization.arg1.toNat = image.length
  installed : Machine
  finalizes :
    callResult device finalizer finalization stored = .ok 0 installed

/--
The slot can take the image: it is about to be erased, or each of its bits that
is to be set in the image is still set.
-/
def Machine.Accommodates (image : List UInt8) (m : Machine) : Prop :=
  (m.table.app 1).size ≠ 0 ∨
    ∀ (index : Nat) (inImage : index < image.length),
      m.flash.memory (appStart 1 + index) &&& image[index] = image[index]

section Calls

variable {device : Device} {app : App} {call : Call} {m m' : Machine}

/-- An erased slot is blank everywhere. -/
theorem run_slotErase
    (memory : Memory)
    {slot : Fin 2}
    {index : Nat}
    (inside : index < 0x20000) :
    run (slotErase slot) memory (appStart slot + index) = 0xFF :=
  runCell_erase_blocks inside _

/-- What a deletion that returns zero leaves in the slot. -/
theorem memory_deleted
    (isCall : SyscallNum.ofWord call.number = some .preloadDelete)
    (deletes : callResult device app call m = .ok 0 m')
    {index : Nat}
    (inside : index < 0x20000) :
    m'.flash.memory (appStart 1 + index) =
      if (m.table.app 1).size ≠ 0 then
        0xFF
      else
        m.flash.memory (appStart 1 + index) := by
  have slot : (1 : UInt8) = slotByte 1 := rfl
  rw [callResult, syscallHandler, isCall] at deletes
  simp only at deletes
  rw [slot, preloadDelete_run, Machine.table_enter] at deletes
  split at deletes
  · split at deletes <;> rename_i empty
    · cases deletes
      rw [if_neg (not_not.mpr empty), Machine.flash_enter]
    · cases deletes
      rw [if_pos empty, (FlashChip.After.updateTable _ _ _ _).1,
        run_append]
      exact run_slotErase _ inside
  · cases deletes

/-- A store that returns zero programs its chunk. -/
theorem memory_stored
    {image : List UInt8}
    {chunk : Chunk image}
    (returns : callResult device chunk.app chunk.call m = .ok 0 m') :
    m'.flash.memory =
      run (Slice.commands 256 (appStart 1) [chunk.slice])
        m.flash.memory := by
  have slot : (1 : UInt8) = slotByte 1 := rfl
  rw [callResult, syscallHandler, chunk.isStore] at returns
  simp only at returns
  rw [slot, preloadStore_run, Machine.ram_enter] at returns
  split at returns
  · cases returns
    rw [(FlashChip.After.perform _ _).1, Machine.flash_enter,
      Slice.commands, List.flatMap_singleton]
    rfl
  · cases returns

/-- Stores program their chunks one after the other. -/
theorem Stores.memory
    {image : List UInt8}
    {chunks : List (Chunk image)}
    (stores : Stores device m chunks m') :
    m'.flash.memory =
      run (Slice.commands 256 (appStart 1) (chunks.map Chunk.slice))
        m.flash.memory := by
  induction stores with
  | nil m =>
      rfl
  | cons chunk returns rest inductionHypothesis =>
      rw [inductionHypothesis, memory_stored returns, ← run_append,
        List.map_cons, Slice.commands, Slice.commands, Slice.commands,
        List.flatMap_singleton, List.flatMap_cons]

/-- The entry in the table leaves the slot alone. -/
theorem memory_finalized
    (isCall : SyscallNum.ofWord call.number = some .preloadStoreFin)
    (finalizes : callResult device app call m = .ok 0 m') :
    (m'.table.app 1).size = call.arg1 ∧
      ∀ index,
        index < 0x20000 →
        m'.flash.memory (appStart 1 + index) =
          m.flash.memory (appStart 1 + index) := by
  have slot : (1 : UInt8) = slotByte 1 := rfl
  rw [callResult, syscallHandler, isCall] at finalizes
  simp only at finalizes
  rw [slot, preloadStoreFinalize_run] at finalizes
  split at finalizes
  · cases finalizes
    constructor
    · rw [Machine.table_updateTable, PartitionTable.app,
        PartitionTable.get_setApp_self, storedApp]
    · intro index inside
      rw [(FlashChip.After.updateTable _ _ _ _).1, List.append_nil,
        List.nil_append, Machine.flash_enter]
      exact run_of_avoids (avoids_tableCommands_slot _ inside) _
  · cases finalizes

end Calls

section Law

variable {device : Device} {image : List UInt8} {start : Machine}

/-- Every place of the image is covered by a chunk. -/
theorem Installation.covered
    (installation : Installation device image start)
    {index : Nat}
    (inImage : index < image.length) :
    ∃ slice,
      slice ∈ installation.chunks.map Chunk.slice ∧
        slice.Covers index := by
  have once := installation.coveredOnce index inImage
  have positive :
      0 < installation.chunks.countP
        fun chunk => chunk.slice.Covers index := by
    rw [once]
    exact Nat.zero_lt_one
  obtain ⟨chunk, member, covers⟩ := List.countP_pos_iff.mp positive
  exact
    ⟨chunk.slice, List.mem_map_of_mem member, of_decide_eq_true covers⟩

/-- What an installation leaves in the slot. -/
theorem Installation.memory
    (installation : Installation device image start)
    {index : Nat}
    (inImage : index < image.length) :
    installation.installed.flash.memory (appStart 1 + index) =
      (if (start.table.app 1).size ≠ 0 then
          0xFF
        else
          start.flash.memory (appStart 1 + index)) &&& image[index] := by
  have inside : index < 0x20000 :=
    Nat.lt_of_lt_of_le inImage installation.sized.2
  have finalized :=
    (memory_finalized installation.isFinalize
      installation.finalizes).2 index inside
  have positive : 0 < 256 := by decide
  rw [finalized, installation.stores.memory, run,
    Slice.runCell_commands positive _ _ inImage,
    if_pos (installation.covered inImage),
    memory_deleted installation.isDelete installation.deletes inside]

/-- The slot holds the image exactly when it could take it. -/
theorem Installation.read_eq_iff
    (installation : Installation device image start) :
    read installation.installed.flash.memory (appStart 1) image.length =
        image ↔
      start.Accommodates image := by
  constructor
  · intro holds
    by_cases present : (start.table.app 1).size ≠ 0
    · exact .inl present
    · right
      intro index inImage
      have byte := installation.memory inImage
      rw [if_neg present] at byte
      rw [← byte]
      have inRead :
          index <
            (read installation.installed.flash.memory (appStart 1)
              image.length).length := by
        rw [length_read]
        exact inImage
      rw [← getElem_read _ _ _ _ inRead]
      exact List.getElem_of_eq holds inRead
  · intro accommodates
    apply read_eq_of_getElem
    intro index inImage
    rw [installation.memory inImage]
    split <;> rename_i present
    · exact erased_and _
    · rcases accommodates with nonzero | clear
      · exact absurd nonzero present
      · exact clear index inImage

/-- Memories with different bytes written to them are different. -/
theorem write_inj
    {memory : Memory}
    {first : Nat}
    {left right : List UInt8}
    (sameLength : left.length = right.length)
    (same : write memory first left = write memory first right) :
    left = right := by
  rw [← read_write_same memory first left, same, sameLength,
    read_write_same]

/-- Loading slot 1 after an installation gives what the slot holds. -/
theorem Installation.loads_iff
    (installation : Installation device image start)
    {loaded : Machine}
    (same : loaded.SameStore installation.installed) :
    (preloadLoad (slotByte 1)).run loaded =
        .ok 0
          { loaded with
            ram := write loaded.ram ramBase.toNat image } ↔
      read installation.installed.flash.memory (appStart 1)
          image.length =
        image := by
  have size :
      (loaded.table.app 1).size.toNat = image.length := by
    rw [same.table, (memory_finalized installation.isFinalize
      installation.finalizes).1, installation.wholeSize]
  have present : (loaded.table.app 1).size ≠ 0 := by
    intro zero
    have nonempty := installation.sized.1
    rw [zero] at size
    exact absurd size.symm (Nat.ne_of_gt nonempty)
  have fits : (loaded.table.app 1).size.toNat ≤ 0x20000 := by
    rw [size]
    exact installation.sized.2
  rw [preloadLoad_run present fits, size, same.1]
  constructor
  · intro loads
    have ram := congrArg (fun result => (resultMachine result).ram) loads
    exact write_inj (length_read _ _ _) ram
  · intro holds
    rw [holds]

/--
Installation law: after an installation all of whose calls return zero, loading
slot 1 puts exactly the image into app RAM if and only if the slot could take
it when the installation began.
-/
theorem app_installation_iff
    (installation : Installation device image start)
    {loaded : Machine}
    (same : loaded.SameStore installation.installed) :
    (preloadLoad (slotByte 1)).run loaded =
        .ok 0
          { loaded with
            ram := write loaded.ram ramBase.toNat image } ↔
      start.Accommodates image :=
  (installation.loads_iff same).trans installation.read_eq_iff

end Law

section Samples

variable {device : Device} {m : Machine}

/-- The call that enters an app of some size in the table. -/
def finalizeCall (size : UInt32) : Call :=
  { Call.plain .preloadStoreFin with
    arg1 := size
    arg2 := ramBase
    arg3 := ramBase }

/-- A management app with one byte everywhere in app RAM. -/
def App.storing (device : Device) (byte : UInt8) : App where
  cdi := Vector.replicate 32 0
  currentAppDigest := device.allowedAppDigest
  ram := fun _ => byte

/-- A range of an image that is stored by one call. -/
structure StoredRange (size : UInt32) where
  first : UInt32
  count : UInt32
  inside : first.toNat + count.toNat ≤ size.toNat
  writable : WritableRange first ramBase count

/-- The call for a range of an image of equal bytes. -/
def StoredRange.chunk
    {size : UInt32}
    (range : StoredRange size)
    (device : Device)
    (byte : UInt8) : Chunk (List.replicate size.toNat byte) where
  app := .storing device byte
  call := storeCall range.first range.count
  isStore := rfl
  isSlice := by
    have inside := range.inside
    have count : (storeCall range.first range.count).arg3 = range.count := rfl
    have first : (storeCall range.first range.count).arg1 = range.first := rfl
    rw [count, first, List.drop_replicate, List.take_replicate,
      Nat.min_eq_left (by omega)]
    exact List.eq_replicate_iff.mpr
      ⟨length_read _ _ _, fun byte member => by
        obtain ⟨place, _, isByte⟩ := List.mem_map.mp member
        exact isByte.symm⟩

/-- The management app of the samples. -/
theorem isMgmt_storing (device : Device) (byte : UInt8) (m : Machine) :
    (m.enter (.storing device byte)).IsMgmt device := by
  rw [Machine.IsMgmt]
  rfl

/-- All ranges can be stored while the table has no second app. -/
theorem exists_stores
    {size : UInt32}
    (byte : UInt8)
    (ranges : List (StoredRange size))
    (empty : (m.table.app 1).size = 0) :
    ∃ stored,
      Stores device m (ranges.map (StoredRange.chunk · device byte)) stored ∧
        (stored.table.app 1).size = 0 := by
  induction ranges generalizing m with
  | nil => exact ⟨m, .nil m, empty⟩
  | cons range rest inductionHypothesis =>
      have stores :=
        @store_chunk device (m.enter (.storing device byte)) _ _
          (isMgmt_storing device byte m) (by rw [Machine.table_enter, empty])
          range.writable
      obtain ⟨stored, storesRest, still⟩ :=
        @inductionHypothesis
          ((m.enter (.storing device byte)).perform
            (pages 256 (appStart 1 + range.first.toNat)
              (read (m.enter (.storing device byte)).ram ramBase.toNat
                range.count.toNat)))
          empty
      exact
        ⟨stored, .cons (range.chunk device byte) stores storesRest, still⟩

/-- An image of equal bytes can be installed from any state. -/
theorem exists_installation
    (device : Device)
    (byte : UInt8)
    {size : UInt32}
    (sized : 1 ≤ size.toNat ∧ size.toNat ≤ 0x20000)
    (ranges : List (StoredRange size))
    (coveredOnce :
      ∀ index,
        index < size.toNat →
        (ranges.map (StoredRange.chunk · device byte)).countP
            (fun chunk => chunk.slice.Covers index) = 1)
    (m : Machine) :
    Nonempty (Installation device (List.replicate size.toNat byte) m) := by
  have slot : (1 : UInt8) = slotByte 1 := rfl
  obtain ⟨deleted, deletes, empty⟩ :
      ∃ deleted,
        callResult device (.storing device byte) (.plain .preloadDelete) m =
            .ok 0 deleted ∧
          (deleted.table.app 1).size = 0 := by
    have isCall :
        SyscallNum.ofWord (Call.plain .preloadDelete).number =
          some .preloadDelete := rfl
    rw [callResult, syscallHandler, isCall]
    simp only
    rw [slot, preloadDelete_run, if_pos (isMgmt_storing device byte m)]
    split <;> rename_i present
    · exact ⟨_, rfl, present⟩
    · refine ⟨_, rfl, ?_⟩
      rw [Machine.table_updateTable, PartitionTable.app,
        PartitionTable.get_setApp_self, deletedApp]
  obtain ⟨stored, stores, still⟩ := @exists_stores device _ _ byte ranges empty
  obtain ⟨installed, finalizes⟩ :
      ∃ installed,
        callResult device (.storing device byte) (finalizeCall size) stored =
          .ok 0 installed := by
    have isCall :
        SyscallNum.ofWord (finalizeCall size).number =
          some .preloadStoreFin := rfl
    have nonzero : size ≠ 0 := by
      rintro rfl
      exact absurd sized.1 (by decide)
    rw [callResult, syscallHandler, isCall]
    simp only
    rw [slot, preloadStoreFinalize_run,
      if_pos
        ⟨(by decide : inAppRam ramBase 32 = true),
          (by decide : inAppRam ramBase 64 = true),
          isMgmt_storing device byte stored,
          by rw [Machine.table_enter, still], nonzero, sized.2⟩]
    exact ⟨_, rfl⟩
  exact
    ⟨{  sized := by rw [List.length_replicate]; exact sized
        deleter := .storing device byte
        deletion := .plain .preloadDelete
        isDelete := rfl
        deleted := deleted
        deletes := deletes
        chunks := ranges.map (StoredRange.chunk · device byte)
        coveredOnce := fun index inImage =>
          coveredOnce index (by rwa [List.length_replicate] at inImage)
        stored := stored
        stores := stores
        finalizer := .storing device byte
        finalization := finalizeCall size
        isFinalize := rfl
        wholeSize := List.length_replicate.symm
        installed := installed
        finalizes := finalizes }⟩

/-- Which places of the image a call for a range stores. -/
theorem countP_chunks
    {size : UInt32}
    (ranges : List (StoredRange size))
    (device : Device)
    (byte : UInt8)
    (index : Nat) :
    (ranges.map (StoredRange.chunk · device byte)).countP
        (fun chunk => chunk.slice.Covers index) =
      ranges.countP fun range =>
        range.first.toNat ≤ index ∧
          index < range.first.toNat + range.count.toNat := by
  rw [List.countP_map]
  apply List.countP_congr
  intro range _
  have length :
      (range.chunk device byte).slice.data.length = range.count.toNat :=
    length_read _ _ _
  rw [Function.comp_apply, decide_eq_true_iff, decide_eq_true_iff,
    Slice.Covers, length]
  rfl

/-- A page and one more byte. -/
def rangesSample : List (StoredRange 257) :=
  [ { first := 0, count := 256, inside := by decide, writable := by decide },
    { first := 256, count := 1, inside := by decide, writable := by decide }]

theorem coveredOnce_rangesSample
    (index : Nat)
    (inImage : index < (257 : UInt32).toNat) :
    (rangesSample.map (StoredRange.chunk · .managed 0x12)).countP
        (fun chunk => chunk.slice.Covers index) = 1 := by
  have whole : (257 : UInt32).toNat = 257 := rfl
  rw [whole] at inImage
  rw [countP_chunks]
  rcases Nat.lt_or_ge index 256 with inPage | behind
  · simp [rangesSample, inPage, Nat.not_le.mpr inPage]
  · simp [rangesSample, behind, Nat.not_lt.mpr behind, inImage]

/-- An image of two chunks is installed on the sample device. -/
theorem app_installation_iff_sample :
    ∃ installation :
        Installation .managed (List.replicate 257 0x12)
          (.provisioned (.withApp 0)),
      ((preloadLoad (slotByte 1)).run installation.installed =
          .ok 0
            { installation.installed with
              ram :=
                write installation.installed.ram ramBase.toNat
                  (List.replicate 257 0x12) } ↔
        (Machine.provisioned (.withApp 0)).Accommodates
          (List.replicate 257 0x12)) ∧
        (Machine.provisioned (.withApp 0)).Accommodates
          (List.replicate 257 0x12) := by
  obtain ⟨installation⟩ :=
    exists_installation .managed 0x12 (by decide) rangesSample
      coveredOnce_rangesSample (.provisioned (.withApp 0))
  refine ⟨installation, app_installation_iff installation (.refl _), .inr ?_⟩
  intro index inImage
  have inSlot : index < 0x20000 :=
    Nat.lt_trans inImage (by rw [List.length_replicate]; decide)
  have blank :
      (Machine.provisioned (.withApp 0)).flash.memory (appStart 1 + index) =
        0xFF :=
    memory_provisioned_slot (.withApp 0) inSlot
  rw [blank, erased_and]

/-- A single byte. -/
def wholeByte : StoredRange 1 where
  first := 0
  count := 1
  inside := by decide
  writable := by decide

theorem coveredOnce_wholeByte
    (index : Nat)
    (inImage : index < (1 : UInt32).toNat) :
    ([wholeByte].map (StoredRange.chunk · .managed 0xFF)).countP
        (fun chunk => chunk.slice.Covers index) = 1 := by
  obtain rfl := Nat.lt_one_iff.mp inImage
  rw [countP_chunks]
  rfl

/--
After an abandoned store, a deletion that returns zero does not erase the slot,
and the app that is then installed is not the one that is loaded.
-/
theorem app_installation_counterexample :
    ∃ launch start,
      System.fromBoot .managed (.provisioned (.withApp 0)) (fun _ => 0)
          .zero abandonedStore =
        .running launch start ∧
        ∃ installation : Installation .managed [0xFF] start,
          (preloadLoad (slotByte 1)).run installation.installed ≠
            .ok 0
              { installation.installed with
                ram :=
                  write installation.installed.ram ramBase.toNat
                    [0xFF] } := by
  obtain ⟨launch, start, runs, empty, cleared⟩ := run_abandonedStore
  obtain ⟨installation⟩ :=
    exists_installation .managed 0xFF (by decide) [wholeByte]
      coveredOnce_wholeByte start
  refine ⟨launch, start, runs, installation, ?_⟩
  intro loads
  have holds :=
    (installation.loads_iff (.refl installation.installed)).mp loads
  rcases installation.read_eq_iff.mp holds with present | kept
  · exact absurd empty present
  · have byte := kept 0 (by decide)
    rw [Nat.add_zero, cleared] at byte
    exact absurd byte (by decide)

end Samples

end TKey
