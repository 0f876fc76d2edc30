import TKey.StorageIsolation

namespace TKey

open ByteMemory NorFlash

/-!
# Effects of storage calls

A storage call first sends commands to one area, then it may update the table.
The commands to an area in use are those of its owner, and an app that a new
table makes an owner has just had the area erased.
-/

section Effects

/-- The commands of a call to the area that its app owns. -/
def ownCommands (index : Fin 4) (app : App) (call : Call) :
    List Command :=
  match SyscallNum.ofWord call.number with
  | some .writeData =>
      if WritableRange call.arg1 call.arg2 call.arg3 then
        pages 256 (areaStart index + call.arg1.toNat)
          (read app.ram call.arg2.toNat call.arg3.toNat)
      else
        []
  | some .eraseData =>
      if ErasableRange call.arg1 call.arg2 then
        sectorErases (areaStart index + call.arg1.toNat)
          (call.arg2.toNat / 4096)
      else
        []
  | some .deallocArea => areaErase index
  | _ => []

/--
What a storage call sends: commands to one area, then possibly an update of
the table.
-/
inductive StorageEffect (call : Call) (m : Machine) :
    List Command → Option PartitionTable → Prop where
  /-- The app has no area, or the call sends it nothing. -/
  | nothing
      (silent :
        ∀ index,
          m.table.Owns m.cdi index →
          ownCommands index m.runningApp call = []) :
      StorageEffect call m [] none
  | edit (index : Fin 4)
      (owned : ownedArea m.table m.cdi = some index) :
      StorageEffect call m (ownCommands index m.runningApp call) none
  | allocate (index : Fin 4)
      (isCall : SyscallNum.ofWord call.number = some .allocArea)
      (chosen : allocation m.table m.cdi = some index) :
      StorageEffect call m (areaErase index)
        (some
          (m.table.setArea index (allocatedArea m.cdi call.words)))
  | deallocate (index : Fin 4)
      (isCall : SyscallNum.ofWord call.number = some .deallocArea)
      (owned : ownedArea m.table m.cdi = some index) :
      StorageEffect call m (areaErase index)
        (some (m.table.setArea index freeArea))

/-- The commands of an update of the table, if there is one. -/
def updateCommands : Option PartitionTable → List Command
  | none => []
  | some table => tableCommands table.sealed

/-- A call returns, having sent its commands and changed the table. -/
structure Performs
    (m : Machine)
    (before : List Command)
    (new : Option PartitionTable)
    (result : EStateM.Result Stop Machine Int) : Prop where
  returns : ∃ value m', result = .ok value m'
  after :
    FlashChip.After (before ++ updateCommands new) m.flash
      (resultMachine result).flash
  table : (resultMachine result).table = new.getD m.table

theorem Performs.nothing
    (value : Int)
    (ram : Memory)
    (m : Machine) :
    Performs m [] none (.ok value { m with ram := ram }) where
  returns := ⟨value, _, rfl⟩
  after := .unchanged m.flash
  table := rfl

theorem Performs.perform (commands : List Command) (m : Machine) :
    Performs m commands none (.ok 0 (m.perform commands)) where
  returns := ⟨0, _, rfl⟩
  after := by
    rw [updateCommands, List.append_nil]
    exact .perform commands m
  table := m.table_perform commands

theorem Performs.updateTable
    (before : List Command)
    (table : PartitionTable)
    (m : Machine) :
    Performs m before (some table)
      (.ok 0 (m.updateTable before table [])) where
  returns := ⟨0, _, rfl⟩
  after := by
    have after := FlashChip.After.updateTable before table [] m
    rw [List.append_nil] at after
    exact after
  table := m.table_updateTable before table []

theorem performs_allocArea
    {device : Device}
    {call : Call}
    (isCall : SyscallNum.ofWord call.number = some .allocArea)
    {m : Machine}
    {index : Fin 4}
    (chosen : allocation m.table m.cdi = some index) :
    Performs m (areaErase index)
      (some (m.table.setArea index (allocatedArea m.cdi call.words)))
      ((syscallHandler device call).run m) := by
  rw [syscallHandler_allocArea isCall, chosen]
  exact .updateTable _ _ m

theorem performs_deallocArea
    {device : Device}
    {call : Call}
    (isCall : SyscallNum.ofWord call.number = some .deallocArea)
    {m : Machine}
    {index : Fin 4}
    (owned : ownedArea m.table m.cdi = some index) :
    Performs m (areaErase index)
      (some (m.table.setArea index freeArea))
      ((syscallHandler device call).run m) := by
  rw [syscallHandler_deallocArea isCall, owned]
  exact .updateTable _ _ m

/-- What each storage call does. -/
theorem storageEffect
    {device : Device}
    {call : Call}
    {num : SyscallNum}
    (isCall : SyscallNum.ofWord call.number = some num)
    (isStorage : num.IsStorage)
    (m : Machine) :
    ∃ before new,
      StorageEffect call m before new ∧
        Performs m before new ((syscallHandler device call).run m) := by
  have noArea (none : ownedArea m.table m.cdi = none) (index : Fin 4) :
      m.table.Owns m.cdi index →
        ownCommands index m.runningApp call = [] :=
    fun owns => absurd owns (ownedArea_eq_none.mp none index)
  cases num with
  | allocArea =>
      cases chosen : allocation m.table m.cdi with
      | none =>
          rw [syscallHandler_allocArea isCall, chosen]
          refine ⟨[], none, .nothing ?_, .nothing _ m.ram m⟩
          intro index _
          simp only [ownCommands, isCall]
      | some index =>
          exact
            ⟨_, _, .allocate index isCall chosen,
              performs_allocArea isCall chosen⟩
  | deallocArea =>
      cases owned : ownedArea m.table m.cdi with
      | none =>
          rw [syscallHandler_deallocArea isCall, owned]
          exact ⟨[], none, .nothing (noArea owned), .nothing _ m.ram m⟩
      | some index =>
          exact
            ⟨_, _, .deallocate index isCall owned,
              performs_deallocArea isCall owned⟩
  | readData =>
      rw [syscallHandler_readData isCall]
      have silent (index : Fin 4) :
          m.table.Owns m.cdi index →
            ownCommands index m.runningApp call = [] := by
        intro _
        simp only [ownCommands, isCall]
      cases ownedArea m.table m.cdi with
      | none =>
          exact ⟨[], none, .nothing silent, .nothing _ m.ram m⟩
      | some index =>
          simp only
          split
          · exact ⟨[], none, .nothing silent, .nothing _ _ m⟩
          · exact ⟨[], none, .nothing silent, .nothing _ m.ram m⟩
  | writeData =>
      rw [syscallHandler_writeData isCall]
      cases owned : ownedArea m.table m.cdi with
      | none =>
          exact ⟨[], none, .nothing (noArea owned), .nothing _ m.ram m⟩
      | some index =>
          simp only
          split <;> rename_i range
          · have own :
                ownCommands index m.runningApp call =
                  pages 256 (areaStart index + call.arg1.toNat)
                    (read m.ram call.arg2.toNat call.arg3.toNat) := by
              simp only [ownCommands, isCall, if_pos range]
              rfl
            rw [← own]
            exact ⟨_, none, .edit index owned, .perform _ m⟩
          · refine ⟨[], none, .nothing ?_, .nothing _ m.ram m⟩
            intro other _
            simp only [ownCommands, isCall, if_neg range]
  | eraseData =>
      rw [syscallHandler_eraseData isCall]
      cases owned : ownedArea m.table m.cdi with
      | none =>
          exact ⟨[], none, .nothing (noArea owned), .nothing _ m.ram m⟩
      | some index =>
          simp only
          split <;> rename_i range
          · have own :
                ownCommands index m.runningApp call =
                  sectorErases (areaStart index + call.arg1.toNat)
                    (call.arg2.toNat / 4096) := by
              simp only [ownCommands, isCall, if_pos range]
            rw [← own]
            exact ⟨_, none, .edit index owned, .perform _ m⟩
          · refine ⟨[], none, .nothing ?_, .nothing _ m.ram m⟩
            intro other _
            simp only [ownCommands, isCall, if_neg range]
  | _ =>
      exact absurd isStorage (by simp [SyscallNum.IsStorage])

/-- The commands to the own area stay inside of it. -/
theorem confined_ownCommands (index : Fin 4) (app : App) (call : Call) :
    Confined (ownCommands index app call) (InStorage index) := by
  unfold ownCommands
  split
  · split <;> rename_i range
    · obtain ⟨_, _, _, inArea⟩ := range
      exact confined_pages (by rw [length_read]; exact inArea)
    · exact confined_nil _
  · split <;> rename_i range
    · obtain ⟨_, _, whole, inArea⟩ := range
      simp only [InArea] at inArea
      exact confined_sectorErases (by omega)
    · exact confined_nil _
  · exact confined_areaErase index
  · exact confined_nil _

namespace StorageEffect

variable {call : Call} {m : Machine}
  {before : List Command} {new : Option PartitionTable}

/-- The first commands stay inside one storage area. -/
theorem confined
    (effect : StorageEffect call m before new) :
    ∃ index, Confined before (InStorage index) := by
  cases effect with
  | nothing silent =>
      exact ⟨0, confined_nil _⟩
  | edit index owned =>
      exact ⟨index, confined_ownCommands index m.runningApp call⟩
  | allocate index isCall chosen =>
      exact ⟨index, confined_areaErase index⟩
  | deallocate index isCall owned =>
      exact ⟨index, confined_areaErase index⟩

/-- The first commands do not touch the tables. -/
theorem confined_outside
    (effect : StorageEffect call m before new) :
    Confined before fun address => ¬ ∃ copy, InTable copy address := by
  obtain ⟨index, confined⟩ := effect.confined
  exact confined.mono fun _ inStorage => not_inTable_of_inStorage inStorage

/-- On an area in use, a call sends what its owner sends, or nothing. -/
theorem on_owned
    (effect : StorageEffect call m before new)
    {apps : Set (Vector UInt8 32)}
    (isolated : m.table.Isolated apps)
    (caller : m.cdi ∈ apps)
    {cdi : Vector UInt8 32}
    (member : cdi ∈ apps)
    {index : Fin 4}
    (owns : m.table.Owns cdi index) :
    if m.cdi = cdi then
      before = ownCommands index m.runningApp call
    else
      ∀ address, InStorage index address → Avoids before address := by
  -- commands to one area avoid every other area
  have avoids {other : Fin 4} {commands : List Command}
      (confined : Confined commands (InStorage other))
      (different : index ≠ other)
      (address : Nat)
      (inStorage : InStorage index address) :
      Avoids commands address := by
    intro command member touches
    exact different
      (inStorage.unique (confined command member address touches))
  -- the area of a caller is the area of the app only if they are the same
  have distinct {other : Fin 4}
      (owned : ownedArea m.table m.cdi = some other)
      (different : m.cdi ≠ cdi) :
      index ≠ other := by
    intro same
    subst same
    exact different
      (isolated.oneOwner caller member (owns_of_ownedArea owned) owns)
  have same {other : Fin 4}
      (owned : ownedArea m.table m.cdi = some other)
      (own : m.cdi = cdi) :
      other = index :=
    isolated.oneArea cdi member other index
      (own ▸ owns_of_ownedArea owned) owns
  cases effect with
  | nothing silent =>
      split <;> rename_i own
      · exact (silent index (own ▸ owns)).symm
      · intro address _ command inNil
        cases inNil
  | edit other owned =>
      split <;> rename_i own
      · rw [same owned own]
      · exact avoids (confined_ownCommands other _ _) (distinct owned own)
  | allocate other isCall chosen =>
      obtain ⟨noArea, free⟩ := allocation_eq_some chosen
      split <;> rename_i own
      · exact absurd (own ▸ owns) (ownedArea_eq_none.mp noArea index)
      · apply avoids (confined_areaErase other)
        intro isOther
        exact free (isOther ▸ owns.1)
  | deallocate other isCall owned =>
      split <;> rename_i own
      · rw [same owned own, ownCommands, isCall]
      · exact avoids (confined_areaErase other) (distinct owned own)

/-- An owner in a new table was one before, or has just erased the area. -/
theorem owners
    {table : PartitionTable}
    (effect : StorageEffect call m before (some table))
    {apps : Set (Vector UInt8 32)}
    (caller : m.cdi ∈ apps)
    (collisionFree :
      SyscallNum.ofWord call.number = some .allocArea →
      CollisionFree apps (generateNonce call.words))
    {cdi : Vector UInt8 32}
    (member : cdi ∈ apps)
    {index : Fin 4}
    (owns : table.Owns cdi index) :
    m.table.Owns cdi index ∨
      (SyscallNum.ofWord call.number = some .allocArea ∧
        m.cdi = cdi ∧ before = areaErase index) := by
  cases effect with
  | allocate other isCall chosen =>
      by_cases isOther : index = other
      · subst isOther
        right
        have digest :=
          (owns_allocatedArea m.table index m.cdi cdi call.words).mp owns
        exact
          ⟨isCall, (collisionFree isCall member caller digest).symm, rfl⟩
      · exact .inl ((owns_setArea_ne m.table isOther _ cdi).mp owns)
  | deallocate other isCall owned =>
      by_cases isOther : index = other
      · subst isOther
        exact absurd owns (not_owns_freeArea m.table index cdi)
      · exact .inl ((owns_setArea_ne m.table isOther _ cdi).mp owns)

/-- A new table isolates the apps. -/
theorem isolated
    {table : PartitionTable}
    (effect : StorageEffect call m before (some table))
    {apps : Set (Vector UInt8 32)}
    (isolated : m.table.Isolated apps)
    (caller : m.cdi ∈ apps)
    (collisionFree :
      SyscallNum.ofWord call.number = some .allocArea →
      CollisionFree apps (generateNonce call.words)) :
    table.Isolated apps := by
  cases effect with
  | allocate index isCall chosen =>
      exact isolated.setArea_allocatedArea caller (collisionFree isCall)
        (allocation_eq_some chosen).1 index
  | deallocate index isCall owned =>
      exact isolated.setArea_freeArea index

end StorageEffect

end Effects

end TKey
