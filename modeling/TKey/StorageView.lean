import TKey.Session

namespace TKey

open ByteMemory NorFlash

/-!
# What an app sees of its storage

The contents of an area, and the private storage that an app would have if no
other app existed: nothing, or 128 KiB that only its own calls change.
-/

section Contents

/-- The bytes of an area, by offset. -/
def areaContent (memory : Memory) (index : Fin 4) : Memory :=
  fun offset =>
    if offset < 0x20000 then memory (areaStart index + offset) else 0

/-- The contents of an area that was just erased. -/
def blankContent : Memory :=
  fun offset => if offset < 0x20000 then 0xFF else 0

/-- Commands outside an area leave its contents alone. -/
theorem areaContent_run_of_confined
    {commands : List Command}
    {index : Fin 4}
    (confined :
      Confined commands fun address => ¬ InStorage index address)
    (memory : Memory) :
    areaContent (run commands memory) index =
      areaContent memory index := by
  funext offset
  simp only [areaContent]
  split
  · rename_i inArea
    apply run_of_avoids
    intro command member touches
    apply confined command member _ touches
    constructor <;> omega
  · rfl

/-- Programming a range of an area programs the same range of its contents. -/
theorem areaContent_run_pages
    {offset : Nat}
    {data : List UInt8}
    (inside : offset + data.length ≤ 0x20000)
    (memory : Memory)
    (index : Fin 4) :
    areaContent
        (run (pages 256 (areaStart index + offset) data) memory) index =
      run [.program offset data] (areaContent memory index) := by
  funext position
  simp only [areaContent, run, runCell_pages (by decide : 0 < 256),
    cell_program_add, runCell_cons]
  split
  · rfl
  · rw [Command.cell_outside]
    · rfl
    · rintro ⟨_, high⟩
      simp only [Command.first, Command.size] at high
      omega

/-- A sequence of sector erases erases one range. -/
theorem runCell_sectorErases
    (first count address : Nat)
    (old : UInt8) :
    runCell (sectorErases first count) address old =
      (Command.erase first (4096 * count)).cell address old := by
  induction count generalizing first old with
  | zero =>
      rw [Command.cell_outside]
      · rfl
      · rintro ⟨low, high⟩
        simp only [Command.first, Command.size] at low high
        omega
  | succ count inductionHypothesis =>
      rw [sectorErases_succ, runCell_cons, inductionHypothesis]
      simp only [Command.cell]
      split_ifs <;> first | rfl | omega

/-- Erasing sectors of an area erases the same range of its contents. -/
theorem areaContent_run_sectorErases
    {offset count : Nat}
    (inside : offset + 4096 * count ≤ 0x20000)
    (memory : Memory)
    (index : Fin 4) :
    areaContent
        (run (sectorErases (areaStart index + offset) count) memory)
        index =
      run [.erase offset (4096 * count)]
        (areaContent memory index) := by
  funext position
  simp only [areaContent, run, runCell_sectorErases, cell_erase_add,
    runCell_cons]
  split
  · rfl
  · rw [Command.cell_outside]
    · rfl
    · rintro ⟨_, high⟩
      simp only [Command.first, Command.size] at high
      omega

/-- A range of an area reads like the same range of its contents. -/
theorem read_areaContent
    {offset size : Nat}
    (inside : offset + size ≤ 0x20000)
    (memory : Memory)
    (index : Fin 4) :
    read memory (areaStart index + offset) size =
      read (areaContent memory index) offset size := by
  simp only [ByteMemory.read]
  apply List.map_congr_left
  intro position member
  have bound := List.mem_range.mp member
  rw [areaContent, if_pos (by omega), Nat.add_assoc]

/-- An erased area has blank contents. -/
theorem areaContent_run_areaErase
    (memory : Memory)
    (index : Fin 4) :
    areaContent (run (areaErase index) memory) index =
      blankContent := by
  funext offset
  simp only [areaContent, blankContent]
  split
  · rename_i inArea
    exact runCell_erase_blocks inArea _
  · rfl

end Contents

section Owners

/-- Other entries do not matter for the owner of an area. -/
theorem owns_setArea_ne
    (table : PartitionTable)
    {index other : Fin 4}
    (different : other ≠ index)
    (area : AppStorageArea)
    (cdi : Vector UInt8 32) :
    (table.setArea index area).Owns cdi other ↔
      table.Owns cdi other := by
  rw [PartitionTable.Owns, PartitionTable.Owns, PartitionTable.InUse,
    PartitionTable.InUse, table.getElem_setArea_ne different]

/-- A freed area belongs to nobody. -/
theorem not_owns_freeArea
    (table : PartitionTable)
    (index : Fin 4)
    (cdi : Vector UInt8 32) :
    ¬ (table.setArea index freeArea).Owns cdi index := by
  rintro ⟨inUse, _⟩
  rw [PartitionTable.InUse, table.getElem_setArea_self] at inUse
  exact inUse rfl

/-- A new area belongs to the apps with the digest of its creator. -/
theorem owns_allocatedArea
    (table : PartitionTable)
    (index : Fin 4)
    (creator cdi : Vector UInt8 32)
    (words : Vector UInt32 4) :
    (table.setArea index (allocatedArea creator words)).Owns cdi index ↔
      authDigest cdi (generateNonce words) =
        authDigest creator (generateNonce words) := by
  rw [PartitionTable.Owns, PartitionTable.InUse,
    table.getElem_setArea_self]
  constructor
  · rintro ⟨_, authenticates⟩
    exact authenticates
  · intro same
    exact ⟨(by decide : (1 : UInt8) ≠ 0), same⟩

/-- In a table without areas nobody owns one. -/
theorem not_inUse_withoutAreas
    (table : PartitionTable)
    (index : Fin 4) :
    ¬ table.withoutAreas.InUse index := by
  intro inUse
  apply inUse
  simp [PartitionTable.withoutAreas, freeArea]

/-- The search for an area depends on the owners alone. -/
theorem ownedArea_congr
    {left right : PartitionTable}
    {cdi : Vector UInt8 32}
    (same : ∀ index, left.Owns cdi index ↔ right.Owns cdi index) :
    ownedArea left cdi = ownedArea right cdi := by
  simp only [ownedArea, same]

/-- Where an app owns a single area, the search finds it. -/
theorem ownedArea_eq_some
    {table : PartitionTable}
    {cdi : Vector UInt8 32}
    {index : Fin 4}
    (owns : table.Owns cdi index)
    (unique : ∀ other, table.Owns cdi other → other = index) :
    ownedArea table cdi = some index := by
  cases found : ownedArea table cdi with
  | none =>
      exact absurd owns (ownedArea_eq_none.mp found index)
  | some other =>
      rw [unique other (owns_of_ownedArea found)]

/-- An allocation is made for an app without an area, in a free one. -/
theorem allocation_eq_some
    {table : PartitionTable}
    {cdi : Vector UInt8 32}
    {index : Fin 4}
    (chosen : allocation table cdi = some index) :
    ownedArea table cdi = none ∧ ¬ table.InUse index := by
  rw [allocation] at chosen
  split at chosen
  · rename_i noArea
    exact ⟨noArea, not_inUse_of_getFirstEmpty chosen⟩
  · cases chosen

/-- In a table without areas in use the first one is allocated. -/
theorem allocation_of_free
    {table : PartitionTable}
    (free : ∀ index, ¬ table.InUse index)
    (cdi : Vector UInt8 32) :
    allocation table cdi = some 0 := by
  have noArea : ownedArea table cdi = none :=
    ownedArea_eq_none.mpr fun index owns => free index owns.1
  have first : ¬ table.appStorage[(0 : Fin 4)].status ≠ 0 := free 0
  rw [allocation, if_pos noArea, getFirstEmpty]
  exact List.find?_cons_of_pos (by simpa using first)

/-- Who owns an area in a table with a single one. -/
theorem owns_onlyArea_iff
    {table : PartitionTable}
    (free : ∀ index, ¬ table.InUse index)
    (creator cdi : Vector UInt8 32)
    (words : Vector UInt32 4)
    (index : Fin 4) :
    (table.setArea 0 (allocatedArea creator words)).Owns cdi index ↔
      index = 0 ∧
        authDigest cdi (generateNonce words) =
          authDigest creator (generateNonce words) := by
  by_cases isFirst : index = 0
  · subst isFirst
    rw [owns_allocatedArea]
    exact ⟨fun same => ⟨rfl, same⟩, And.right⟩
  · rw [owns_setArea_ne _ isFirst]
    constructor
    · intro owns
      exact absurd owns.1 (free index)
    · rintro ⟨same, _⟩
      exact absurd same isFirst

theorem ownedArea_onlyArea
    {table : PartitionTable}
    (free : ∀ index, ¬ table.InUse index)
    (cdi : Vector UInt8 32)
    (words : Vector UInt32 4) :
    ownedArea (table.setArea 0 (allocatedArea cdi words)) cdi = some 0 := by
  apply ownedArea_eq_some
  · exact (owns_onlyArea_iff free cdi cdi words 0).mpr ⟨rfl, rfl⟩
  · intro other owns
    exact ((owns_onlyArea_iff free cdi cdi words other).mp owns).1

end Owners

section View

/-- The contents of the area of an app, if it has one. -/
def privateArea (cdi : Vector UInt8 32) (m : Machine) : Option Memory :=
  (ownedArea m.table cdi).map (areaContent m.flash.memory)

/-- What an app sees depends on the owners and on what it owns. -/
theorem privateArea_congr
    {cdi : Vector UInt8 32}
    {left right : Machine}
    (sameOwner :
      ∀ index, left.table.Owns cdi index ↔ right.table.Owns cdi index)
    (sameContent :
      ∀ index,
        right.table.Owns cdi index →
        areaContent left.flash.memory index =
          areaContent right.flash.memory index) :
    privateArea cdi left = privateArea cdi right := by
  rw [privateArea, privateArea, ownedArea_congr sameOwner]
  cases found : ownedArea right.table cdi with
  | none =>
      rfl
  | some index =>
      exact congrArg some (sameContent index (owns_of_ownedArea found))

/--
The storage of an app that is alone: the storage it has after a call, and what
the call returns with the contents of app RAM.
-/
def privateAnswer
    (device : Device)
    (content : Option Memory)
    (request : App × Call) : Option Memory × Option (Int × Memory) :=
  let (app, call) := request
  let refused := (content, some (-1, app.ram))
  match SyscallNum.ofWord call.number, content with
  | some .allocArea, _ =>
      (some (content.getD blankContent), some (0, app.ram))
  | some .deallocArea, some _ =>
      (none, some (0, app.ram))
  | some .writeData, some bytes =>
      if WritableRange call.arg1 call.arg2 call.arg3 then
        (some
            (run
              [.program call.arg1.toNat
                (read app.ram call.arg2.toNat call.arg3.toNat)]
              bytes),
          some (0, app.ram))
      else
        refused
  | some .readData, some bytes =>
      if ReadableRange call.arg1 call.arg2 call.arg3 then
        (content,
          some
            (0,
              write app.ram call.arg2.toNat
                (read bytes call.arg1.toNat call.arg3.toNat)))
      else
        refused
  | some .eraseData, some bytes =>
      if ErasableRange call.arg1 call.arg2 then
        (some
            (run
              [.erase call.arg1.toNat
                (4096 * (call.arg2.toNat / 4096))]
              bytes),
          some (0, app.ram))
      else
        refused
  | some .eraseAreas, _ =>
      if app.currentAppDigest = device.allowedAppDigest then
        (none, some (0, app.ram))
      else
        refused
  | _, _ => refused

/-- A private machine writes what it is given. -/
theorem privateAnswer_writeData
    {call : Call}
    (isCall : SyscallNum.ofWord call.number = some .writeData)
    (range : WritableRange call.arg1 call.arg2 call.arg3)
    (device : Device)
    (app : App)
    (content : Memory) :
    privateAnswer device (some content) (app, call) =
      (some
          (run
            [.program call.arg1.toNat
              (read app.ram call.arg2.toNat call.arg3.toNat)]
            content),
        some (0, app.ram)) := by
  simp only [privateAnswer, isCall, if_pos range]

theorem privateAnswer_readData
    {call : Call}
    (isCall : SyscallNum.ofWord call.number = some .readData)
    (range : ReadableRange call.arg1 call.arg2 call.arg3)
    (device : Device)
    (app : App)
    (content : Memory) :
    privateAnswer device (some content) (app, call) =
      (some content,
        some
          (0,
            write app.ram call.arg2.toNat
              (read content call.arg1.toNat call.arg3.toNat))) := by
  simp only [privateAnswer, isCall, if_pos range]

end View

end TKey
