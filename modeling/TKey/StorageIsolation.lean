import Mathlib.Data.Set.Function
import TKey.Lib.PrivateView
import TKey.StorageView

namespace TKey

open ByteMemory NorFlash PrivateView

/-!
# Storage isolation

Ownership of an area is recomputed at every call.  As long as the digests of
the apps do not collide, every area in use has one owner and every app owns
one area; then the calls of other apps leave the storage of an app alone, and
the app cannot tell whether they were made.
-/

section Ownership

/-- No two of the apps have the same digest with a nonce. -/
def CollisionFree
    (apps : Set (Vector UInt8 32))
    (nonce : Vector UInt8 16) : Prop :=
  Set.InjOn (fun cdi => authDigest cdi nonce) apps

/-- Every area in use has one owner and every app owns one area. -/
structure PartitionTable.Isolated
    (apps : Set (Vector UInt8 32))
    (table : PartitionTable) : Prop where
  collisionFree :
    ∀ index,
      table.InUse index →
      CollisionFree apps (table.appStorage.get index).auth.nonce
  oneArea :
    ∀ cdi,
      cdi ∈ apps →
      ∀ index other,
        table.Owns cdi index → table.Owns cdi other → index = other

namespace PartitionTable.Isolated

variable {apps : Set (Vector UInt8 32)} {table : PartitionTable}

/-- Two apps that own the same area are the same app. -/
theorem oneOwner
    (isolated : table.Isolated apps)
    {left right : Vector UInt8 32}
    (leftMember : left ∈ apps)
    (rightMember : right ∈ apps)
    {index : Fin 4}
    (leftOwns : table.Owns left index)
    (rightOwns : table.Owns right index) :
    left = right := by
  apply isolated.collisionFree index leftOwns.1 leftMember rightMember
  exact leftOwns.2.trans rightOwns.2.symm

/-- A table without areas in use isolates all apps. -/
theorem of_free (free : ∀ index, ¬ table.InUse index) :
    table.Isolated apps where
  collisionFree index inUse := absurd inUse (free index)
  oneArea _ _ index _ owns _ := absurd owns.1 (free index)

/-- The apps in the slots do not matter. -/
theorem of_appStorage
    {other : PartitionTable}
    (isolated : table.Isolated apps)
    (same : other.appStorage = table.appStorage) :
    other.Isolated apps := by
  constructor
  · intro index inUse
    rw [PartitionTable.InUse, same] at inUse
    rw [same]
    exact isolated.collisionFree index inUse
  · intro cdi member index second owns ownsSecond
    rw [PartitionTable.Owns, PartitionTable.InUse, same] at owns ownsSecond
    exact isolated.oneArea cdi member index second owns ownsSecond

theorem setApp
    (isolated : table.Isolated apps)
    (slot : Fin 2)
    (app : PreLoadedAppMetadata) :
    (table.setApp slot app).Isolated apps :=
  isolated.of_appStorage rfl

/-- Freeing an area keeps the others isolated. -/
theorem setArea_freeArea
    (isolated : table.Isolated apps)
    (index : Fin 4) :
    (table.setArea index freeArea).Isolated apps := by
  have remains (cdi : Vector UInt8 32) (other : Fin 4)
      (owns : (table.setArea index freeArea).Owns cdi other) :
      table.Owns cdi other := by
    by_cases same : other = index
    · subst same
      exact absurd owns (not_owns_freeArea table other cdi)
    · exact (owns_setArea_ne table same freeArea cdi).mp owns
  constructor
  · intro other inUse
    by_cases same : other = index
    · subst same
      rw [PartitionTable.InUse, table.getElem_setArea_self] at inUse
      exact absurd rfl inUse
    · rw [PartitionTable.InUse, table.getElem_setArea_ne same] at inUse
      rw [PartitionTable.get_appStorage, table.getElem_setArea_ne same]
      exact isolated.collisionFree other inUse
  · intro cdi member first second owns ownsSecond
    exact isolated.oneArea cdi member first second
      (remains cdi first owns) (remains cdi second ownsSecond)

/-- Giving a free area to an app without one keeps all apps isolated. -/
theorem setArea_allocatedArea
    (isolated : table.Isolated apps)
    {creator : Vector UInt8 32}
    (member : creator ∈ apps)
    {words : Vector UInt32 4}
    (collisionFree : CollisionFree apps (generateNonce words))
    (noArea : ownedArea table creator = none)
    (index : Fin 4) :
    (table.setArea index (allocatedArea creator words)).Isolated apps := by
  constructor
  · intro other inUse
    by_cases same : other = index
    · subst same
      rw [PartitionTable.get_appStorage, table.getElem_setArea_self]
      exact collisionFree
    · rw [PartitionTable.InUse, table.getElem_setArea_ne same] at inUse
      rw [PartitionTable.get_appStorage, table.getElem_setArea_ne same]
      exact isolated.collisionFree other inUse
  · -- the owner of the new area is its creator, who had none before
    have creates (cdi : Vector UInt8 32) (isApp : cdi ∈ apps)
        (owns :
          (table.setArea index (allocatedArea creator words)).Owns cdi
            index)
        (other : Fin 4)
        (ownsOther :
          (table.setArea index (allocatedArea creator words)).Owns cdi
            other) :
        index = other := by
      have digest :=
        (owns_allocatedArea table index creator cdi words).mp owns
      have isCreator : cdi = creator := collisionFree isApp member digest
      by_contra different
      have before :=
        (owns_setArea_ne table (Ne.symm different) _ cdi).mp ownsOther
      rw [isCreator] at before
      exact ownedArea_eq_none.mp noArea other before
    intro cdi isApp first second ownsFirst ownsSecond
    by_cases isFirst : first = index
    · subst isFirst
      exact creates cdi isApp ownsFirst second ownsSecond
    · by_cases isSecond : second = index
      · subst isSecond
        exact (creates cdi isApp ownsSecond first ownsFirst).symm
      · exact isolated.oneArea cdi isApp first second
          ((owns_setArea_ne table isFirst _ cdi).mp ownsFirst)
          ((owns_setArea_ne table isSecond _ cdi).mp ownsSecond)

end PartitionTable.Isolated

/-- A system call keeps the apps isolated. -/
theorem Outcome.isolated
    {device : Device}
    {call : Call}
    {m : Machine}
    {result : EStateM.Result Stop Machine Int}
    (outcome : Outcome device call m result)
    {apps : Set (Vector UInt8 32)}
    (isolated : m.table.Isolated apps)
    (member : m.cdi ∈ apps)
    (collisionFree :
      SyscallNum.ofWord call.number = some .allocArea →
      CollisionFree apps (generateNonce call.words)) :
    (resultMachine result).table.Isolated apps := by
  cases outcome with
  | allocate index isCall chosen =>
      simp only [resultMachine, Machine.table_updateTable]
      exact isolated.setArea_allocatedArea member (collisionFree isCall)
        (allocation_eq_some chosen).1 index
  | deallocate index isCall owned =>
      simp only [resultMachine, Machine.table_updateTable]
      exact isolated.setArea_freeArea index
  | eraseAreas isCall mgmt =>
      simp only [resultMachine, Machine.table_updateTable]
      exact .of_free (not_inUse_withoutAreas m.table)
  | finalize isCall accepts =>
      simp only [resultMachine, Machine.table_updateTable]
      exact isolated.setApp 1 _
  | delete isCall mgmt present =>
      simp only [resultMachine, Machine.table_updateTable]
      exact isolated.setApp 1 _
  | setPubkey isCall accepts =>
      simp only [resultMachine, Machine.table_updateTable]
      exact isolated.setApp 1 _
  | quiet value ram =>
      exact isolated
  | eraseSectors index isCall owned range =>
      exact isolated
  | writeData index isCall owned range =>
      exact isolated
  | store isCall accepts =>
      exact isolated
  | systemReset isCall accepts =>
      simp only [resultMachine]
      rw [(m.sameStore_resetinfo _).table]
      exact isolated
  | halted =>
      exact isolated

end Ownership

section OtherApps

/-- The calls by which an app uses its storage. -/
def SyscallNum.IsStorage : SyscallNum → Prop
  | .allocArea => True
  | .deallocArea => True
  | .readData => True
  | .writeData => True
  | .eraseData => True
  | _ => False

instance (num : SyscallNum) : Decidable num.IsStorage := by
  cases num <;> unfold SyscallNum.IsStorage <;> infer_instance

/-- The call may be meant for the storage of an app. -/
def Concerns
    (cdi : Vector UInt8 32)
    (app : App)
    (num : SyscallNum) : Prop :=
  num = .eraseAreas ∨ (num.IsStorage ∧ app.cdi = cdi)

instance (cdi : Vector UInt8 32) (app : App) (num : SyscallNum) :
    Decidable (Concerns cdi app num) :=
  inferInstanceAs (Decidable (_ ∨ _))

/-- Machines with the same store give an app the same storage. -/
theorem privateArea_of_sameStore
    {left right : Machine}
    (same : left.SameStore right)
    (cdi : Vector UInt8 32) :
    privateArea cdi left = privateArea cdi right := by
  rw [privateArea, privateArea, same.table, same.1]

/-- Commands outside the areas of an app do not change its storage. -/
theorem privateArea_perform
    {cdi : Vector UInt8 32}
    {commands : List Command}
    {m : Machine}
    (confined :
      ∀ index,
        m.table.Owns cdi index →
        Confined commands fun address => ¬ InStorage index address) :
    privateArea cdi (m.perform commands) = privateArea cdi m := by
  apply privateArea_congr
  · intro index
    exact Iff.rfl
  · intro index owns
    exact areaContent_run_of_confined (confined index owns) m.flash.memory

/-- The sectors of the tables lie outside the storage areas. -/
theorem confined_tableCommands_outside
    (storage : PartitionTableStorage)
    (index : Fin 4) :
    Confined (tableCommands storage) fun address =>
      ¬ InStorage index address :=
  (confined_tableCommands storage).mono
    fun _ inTable inStorage => not_inTable_of_inStorage inStorage inTable

/-- A table update that changes other areas keeps the storage of an app. -/
theorem privateArea_updateTable
    {cdi : Vector UInt8 32}
    {before after : List Command}
    {table : PartitionTable}
    {m : Machine}
    (sameOwner :
      ∀ index, table.Owns cdi index ↔ m.table.Owns cdi index)
    (earlier :
      ∀ index,
        m.table.Owns cdi index →
        Confined before fun address => ¬ InStorage index address)
    (later :
      ∀ index,
        m.table.Owns cdi index →
        Confined after fun address => ¬ InStorage index address) :
    privateArea cdi (m.updateTable before table after) =
      privateArea cdi m := by
  apply privateArea_congr
  · intro index
    rw [Machine.table_updateTable]
    exact sameOwner index
  · intro index owns
    rw [(FlashChip.After.updateTable before table after m).1]
    apply areaContent_run_of_confined
    exact
      ((earlier index owns).append
        (confined_tableCommands_outside table.sealed index)).append
        (later index owns)

/-- Two areas do not overlap. -/
theorem not_inStorage_of_ne
    {index other : Fin 4}
    (different : index ≠ other)
    {address : Nat}
    (inOther : InStorage other address) :
    ¬ InStorage index address :=
  fun inStorage => different (inStorage.unique inOther)

/-- An address of an app slot lies in no storage area. -/
theorem not_inStorage_of_inSlot
    {slot : Fin 2}
    {address : Nat}
    (inSlot : InSlot slot address)
    (index : Fin 4) :
    ¬ InStorage index address := by
  intro inStorage
  have app := inSlot.bounds
  have area := inStorage.bounds
  omega

theorem confined_nil (allowed : Nat → Prop) :
    Confined [] allowed := by
  intro command member
  cases member

/-- A system call that is not meant for an app keeps its storage. -/
theorem Outcome.privateArea_of_foreign
    {device : Device}
    {call : Call}
    {m : Machine}
    {result : EStateM.Result Stop Machine Int}
    (outcome : Outcome device call m result)
    {apps : Set (Vector UInt8 32)}
    (isolated : m.table.Isolated apps)
    (caller : m.cdi ∈ apps)
    (collisionFree :
      SyscallNum.ofWord call.number = some .allocArea →
      CollisionFree apps (generateNonce call.words))
    {cdi : Vector UInt8 32}
    (member : cdi ∈ apps)
    (foreign :
      ∀ num,
        SyscallNum.ofWord call.number = some num →
        ¬ Concerns cdi m.runningApp num) :
    privateArea cdi (resultMachine result) = privateArea cdi m := by
  have otherApp {num : SyscallNum}
      (isCall : SyscallNum.ofWord call.number = some num)
      (isStorage : num.IsStorage) :
      m.cdi ≠ cdi :=
    fun same => foreign num isCall (.inr ⟨isStorage, same⟩)
  -- an area of another app is none of this app
  have distinct {num : SyscallNum} {index other : Fin 4}
      (isCall : SyscallNum.ofWord call.number = some num)
      (isStorage : num.IsStorage)
      (owned : ownedArea m.table m.cdi = some index)
      (owns : m.table.Owns cdi other) :
      other ≠ index := by
    intro same
    subst same
    exact otherApp isCall isStorage
      (isolated.oneOwner caller member (owns_of_ownedArea owned) owns)
  cases outcome with
  | quiet value ram =>
      rfl
  | allocate index isCall chosen =>
      have free := (allocation_eq_some chosen).2
      have away (other : Fin 4) (owns : m.table.Owns cdi other) :
          other ≠ index := by
        intro same
        subst same
        exact free owns.1
      simp only [resultMachine]
      apply privateArea_updateTable
      · intro other
        by_cases same : other = index
        · subst same
          rw [owns_allocatedArea]
          constructor
          · intro digest
            have isCreator :=
              collisionFree isCall member caller digest
            exact absurd isCreator.symm (otherApp isCall trivial)
          · intro owns
            exact absurd owns.1 free
        · exact owns_setArea_ne m.table same _ cdi
      · intro other owns
        exact (confined_areaErase index).mono
          fun _ inStorage =>
            not_inStorage_of_ne (away other owns) inStorage
      · intro other owns
        exact confined_nil _
  | deallocate index isCall owned =>
      simp only [resultMachine]
      apply privateArea_updateTable
      · intro other
        by_cases same : other = index
        · subst same
          constructor
          · intro owns
            exact absurd owns (not_owns_freeArea m.table other cdi)
          · intro owns
            exact absurd rfl (distinct isCall trivial owned owns)
        · exact owns_setArea_ne m.table same _ cdi
      · intro other owns
        exact (confined_areaErase index).mono
          fun _ inStorage =>
            not_inStorage_of_ne (distinct isCall trivial owned owns)
              inStorage
      · intro other owns
        exact confined_nil _
  | eraseSectors index isCall owned range =>
      obtain ⟨_, _, whole, inArea⟩ := range
      simp only [InArea] at inArea
      apply privateArea_perform
      intro other owns
      exact (confined_sectorErases (by omega)).mono
        fun _ inStorage =>
          not_inStorage_of_ne (distinct isCall trivial owned owns)
            inStorage
  | writeData index isCall owned range =>
      obtain ⟨_, _, _, inArea⟩ := range
      apply privateArea_perform
      intro other owns
      exact (confined_pages (by rw [length_read]; exact inArea)).mono
        fun _ inStorage =>
          not_inStorage_of_ne (distinct isCall trivial owned owns)
            inStorage
  | store isCall accepts =>
      obtain ⟨_, _, _, _, _, inArea⟩ := accepts
      apply privateArea_perform
      intro other owns
      exact (confined_pages (by rw [length_read]; exact inArea)).mono
        fun _ inSlot => not_inStorage_of_inSlot inSlot other
  | finalize isCall accepts =>
      simp only [resultMachine]
      apply privateArea_updateTable
      · intro other
        exact Iff.rfl
      · intro other owns
        exact confined_nil _
      · intro other owns
        exact confined_nil _
  | delete isCall mgmt present =>
      simp only [resultMachine]
      apply privateArea_updateTable
      · intro other
        exact Iff.rfl
      · intro other owns
        exact confined_nil _
      · intro other owns
        exact (confined_slotErase 1).mono
          fun _ inSlot => not_inStorage_of_inSlot inSlot other
  | setPubkey isCall accepts =>
      simp only [resultMachine]
      apply privateArea_updateTable
      · intro other
        exact Iff.rfl
      · intro other owns
        exact confined_nil _
      · intro other owns
        exact confined_nil _
  | eraseAreas isCall mgmt =>
      exact absurd (.inl rfl) (foreign _ isCall)
  | systemReset isCall accepts =>
      simp only [resultMachine]
      exact privateArea_of_sameStore (m.sameStore_resetinfo _) cdi
  | halted =>
      rfl

end OtherApps

section OwnCalls

/-- There is neither an area of the app nor a free one. -/
def NoRoom (cdi : Vector UInt8 32) (table : PartitionTable) : Prop :=
  ownedArea table cdi = none ∧ getFirstEmpty table = none

/-- A call changes and returns what it would if the app were alone. -/
def AnsweredAlone
    (device : Device)
    (cdi : Vector UInt8 32)
    (call : Call)
    (m : Machine)
    (result : EStateM.Result Stop Machine Int) : Prop :=
  (privateArea cdi (resultMachine result), reply result) =
    privateAnswer device (privateArea cdi m) (m.runningApp, call)

/-- What a call that updates the table replies. -/
theorem reply_updateTable
    (before : List Command)
    (table : PartitionTable)
    (after : List Command)
    (m : Machine) :
    reply (.ok 0 (m.updateTable before table after)) =
      some (0, m.runningApp.ram) := by
  simp only [reply, Machine.updateTable, Machine.perform,
    Machine.runningApp]

/-- A newly allocated area is the storage of the app, and it is blank. -/
theorem privateArea_allocate
    {m : Machine}
    {cdi : Vector UInt8 32}
    (noArea : ownedArea m.table cdi = none)
    (index : Fin 4)
    (words : Vector UInt32 4) :
    privateArea cdi
        (m.updateTable (areaErase index)
          (m.table.setArea index (allocatedArea cdi words)) []) =
      some blankContent := by
  have owned :
      ownedArea (m.table.setArea index (allocatedArea cdi words)) cdi =
        some index := by
    apply ownedArea_eq_some
    · exact (owns_allocatedArea m.table index cdi cdi words).mpr rfl
    · intro other owns
      by_contra different
      have before :=
        (owns_setArea_ne m.table different _ cdi).mp owns
      exact ownedArea_eq_none.mp noArea other before
  rw [privateArea, Machine.table_updateTable, owned, Option.map_some,
    (FlashChip.After.updateTable _ _ _ m).1, List.append_nil,
    run_append,
    areaContent_run_of_confined (confined_tableCommands_outside _ index),
    areaContent_run_areaErase]

theorem answeredAlone_allocArea
    {device : Device}
    {call : Call}
    (isCall : SyscallNum.ofWord call.number = some .allocArea)
    {m : Machine}
    (room : ¬ NoRoom m.cdi m.table) :
    AnsweredAlone device m.cdi call m
      ((syscallHandler device call).run m) := by
  rw [syscallHandler_allocArea isCall]
  unfold AnsweredAlone privateAnswer
  cases owned : ownedArea m.table m.cdi with
  | some index =>
      have keeps : allocation m.table m.cdi = none := by
        simp [allocation, owned]
      simp only [isCall, keeps, resultMachine, reply, privateArea, owned,
        Option.map_some, Option.getD_some]
      rfl
  | none =>
      obtain ⟨index, empty⟩ : ∃ index, getFirstEmpty m.table = some index :=
        Option.ne_none_iff_exists'.mp fun full => room ⟨owned, full⟩
      have chosen : allocation m.table m.cdi = some index := by
        rw [allocation, if_pos owned, empty]
      have before : privateArea m.cdi m = none := by
        rw [privateArea, owned]
        rfl
      simp only [isCall, chosen, resultMachine, before, Option.getD_none]
      rw [privateArea_allocate owned, reply_updateTable]

/-- A freed area is no storage of its former owner any more. -/
theorem privateArea_deallocate
    {apps : Set (Vector UInt8 32)}
    {m : Machine}
    (isolated : m.table.Isolated apps)
    {cdi : Vector UInt8 32}
    (member : cdi ∈ apps)
    {index : Fin 4}
    (owned : ownedArea m.table cdi = some index) :
    privateArea cdi
        (m.updateTable (areaErase index)
          (m.table.setArea index freeArea) []) =
      none := by
  have noArea :
      ownedArea (m.table.setArea index freeArea) cdi = none := by
    apply ownedArea_eq_none.mpr
    intro other owns
    by_cases same : other = index
    · subst same
      exact not_owns_freeArea m.table other cdi owns
    · have before := (owns_setArea_ne m.table same _ cdi).mp owns
      exact same
        (isolated.oneArea cdi member other index before
          (owns_of_ownedArea owned))
  rw [privateArea, Machine.table_updateTable, noArea, Option.map_none]

theorem answeredAlone_deallocArea
    {device : Device}
    {call : Call}
    (isCall : SyscallNum.ofWord call.number = some .deallocArea)
    {apps : Set (Vector UInt8 32)}
    {m : Machine}
    (isolated : m.table.Isolated apps)
    (member : m.cdi ∈ apps) :
    AnsweredAlone device m.cdi call m
      ((syscallHandler device call).run m) := by
  rw [syscallHandler_deallocArea isCall]
  unfold AnsweredAlone privateAnswer
  cases owned : ownedArea m.table m.cdi with
  | none =>
      simp only [isCall, resultMachine, reply, privateArea, owned,
        Option.map_none]
      rfl
  | some index =>
      have before :
          privateArea m.cdi m =
            some (areaContent m.flash.memory index) := by
        rw [privateArea, owned, Option.map_some]
      simp only [isCall, resultMachine, before]
      rw [privateArea_deallocate isolated member owned, reply_updateTable]

theorem answeredAlone_writeData
    {device : Device}
    {call : Call}
    (isCall : SyscallNum.ofWord call.number = some .writeData)
    (m : Machine) :
    AnsweredAlone device m.cdi call m
      ((syscallHandler device call).run m) := by
  rw [syscallHandler_writeData isCall]
  unfold AnsweredAlone privateAnswer
  cases owned : ownedArea m.table m.cdi with
  | none =>
      simp only [isCall, resultMachine, reply, privateArea, owned,
        Option.map_none]
      rfl
  | some index =>
      simp only [isCall, privateArea, owned, Option.map_some]
      split
      · rename_i range
        have inside := range.2.2.2
        simp only [InArea] at inside
        have fits :
            call.arg1.toNat +
                (read m.ram call.arg2.toNat call.arg3.toNat).length ≤
              0x20000 := by
          rw [length_read]
          exact inside
        have content :=
          areaContent_run_pages fits m.flash.memory index
        simp only [resultMachine, Machine.table_perform, owned,
          Option.map_some, Machine.memory_perform, content, reply]
        rfl
      · simp only [resultMachine, owned, Option.map_some, reply]
        rfl

theorem answeredAlone_readData
    {device : Device}
    {call : Call}
    (isCall : SyscallNum.ofWord call.number = some .readData)
    (m : Machine) :
    AnsweredAlone device m.cdi call m
      ((syscallHandler device call).run m) := by
  rw [syscallHandler_readData isCall]
  unfold AnsweredAlone privateAnswer
  cases owned : ownedArea m.table m.cdi with
  | none =>
      simp only [isCall, resultMachine, reply, privateArea, owned,
        Option.map_none]
      rfl
  | some index =>
      have before :
          privateArea m.cdi m =
            some (areaContent m.flash.memory index) := by
        rw [privateArea, owned, Option.map_some]
      simp only [isCall, before]
      split
      · rename_i range
        have inside := range.2.2
        simp only [InArea] at inside
        rw [read_areaContent inside]
        simp only [resultMachine, reply]
        rw [privateArea_of_sameStore (m.sameStore_ram _), before]
        rfl
      · simp only [resultMachine, before, reply]
        rfl

theorem answeredAlone_eraseData
    {device : Device}
    {call : Call}
    (isCall : SyscallNum.ofWord call.number = some .eraseData)
    (m : Machine) :
    AnsweredAlone device m.cdi call m
      ((syscallHandler device call).run m) := by
  rw [syscallHandler_eraseData isCall]
  unfold AnsweredAlone privateAnswer
  cases owned : ownedArea m.table m.cdi with
  | none =>
      simp only [isCall, resultMachine, reply, privateArea, owned,
        Option.map_none]
      rfl
  | some index =>
      simp only [isCall, privateArea, owned, Option.map_some]
      split
      · rename_i range
        have inside := range.2.2.2
        simp only [InArea] at inside
        have fits :
            call.arg1.toNat + 4096 * (call.arg2.toNat / 4096) ≤
              0x20000 := by
          omega
        have content :=
          areaContent_run_sectorErases fits m.flash.memory index
        simp only [resultMachine, Machine.table_perform, owned,
          Option.map_some, Machine.memory_perform, content, reply]
        rfl
      · simp only [resultMachine, owned, Option.map_some, reply]
        rfl

theorem answeredAlone_eraseAreas
    {device : Device}
    {call : Call}
    (isCall : SyscallNum.ofWord call.number = some .eraseAreas)
    (cdi : Vector UInt8 32)
    (m : Machine) :
    AnsweredAlone device cdi call m
      ((syscallHandler device call).run m) := by
  have result : (syscallHandler device call).run m =
      if m.IsMgmt device then
        .ok 0 (m.updateTable allAreasErase m.table.withoutAreas [])
      else
        .ok (-1) m := by
    rw [syscallHandler, isCall]
    exact storageEraseAreas_run device m
  rw [result]
  unfold AnsweredAlone privateAnswer
  simp only [isCall]
  by_cases mgmt : m.IsMgmt device
  · have noArea : ownedArea m.table.withoutAreas cdi = none :=
      ownedArea_eq_none.mpr fun index owns =>
        not_inUse_withoutAreas m.table index owns.1
    have accepted :
        m.runningApp.currentAppDigest = device.allowedAppDigest := mgmt
    rw [if_pos mgmt, if_pos accepted, reply_updateTable]
    simp only [resultMachine]
    rw [privateArea, Machine.table_updateTable, noArea, Option.map_none]
  · have refused :
        ¬ m.runningApp.currentAppDigest = device.allowedAppDigest := mgmt
    rw [if_neg mgmt, if_neg refused]
    rfl

end OwnCalls

section Sessions

/-- The call without the random words that it may be given. -/
def Call.withoutWords (call : Call) : Call :=
  { call with words := Vector.replicate 4 0 }

/-- The request that an action makes to the storage of an app. -/
def storageRequest
    (cdi : Vector UInt8 32) : Action → Option (App × Call)
  | .call app request =>
      match SyscallNum.ofWord request.number with
      | some num =>
          if Concerns cdi app num then
            some (app, request.withoutWords)
          else
            none
      | none => none
  | .reboot _ => none

/-- An app that observes its storage calls, and every erasure of all areas. -/
def storageObserver
    (device : Device)
    (cdi : Vector UInt8 32) :
    Observer Machine Action (Option (Int × Memory)) (Option Memory)
      (App × Call) where
  step := Action.step device
  output := Action.output device
  view := privateArea cdi
  request := storageRequest cdi
  answer := privateAnswer device

/-- The apps of a session, and nonces for which they do not collide. -/
def Action.Admissible (apps : Set (Vector UInt8 32)) : Action → Prop
  | .call app request =>
      app.cdi ∈ apps ∧
        (SyscallNum.ofWord request.number = some .allocArea →
          CollisionFree apps (generateNonce request.words))
  | .reboot _ => True

/-- No allocation of the app fails for lack of a free area. -/
def Action.HasRoom
    (cdi : Vector UInt8 32)
    (m : Machine) : Action → Prop
  | .call app request =>
      app.cdi = cdi →
      SyscallNum.ofWord request.number = some .allocArea →
      ¬ NoRoom cdi m.table
  | .reboot _ => True

/-- The table is in sync with flash and isolates the apps. -/
structure Guarded (apps : Set (Vector UInt8 32)) (m : Machine) :
    Prop where
  inSync : m.InSync
  isolated : m.table.Isolated apps

/-- A step of a session leaves the apps isolated. -/
theorem Guarded.step
    {apps : Set (Vector UInt8 32)}
    {m : Machine}
    (guarded : Guarded apps m)
    (device : Device)
    {action : Action}
    (admissible : action.Admissible apps) :
    Guarded apps (action.step device m) := by
  refine ⟨Action.inSync_step device guarded.inSync action, ?_⟩
  cases action with
  | call app request =>
      obtain ⟨member, collisionFree⟩ := admissible
      have left := inSync_callResult device app request guarded.inSync
      have isolated :=
        (callResult_outcome device app request m).isolated
          (by simpa using guarded.isolated) (by simpa using member)
          collisionFree
      rw [Action.step, (sameStore_afterCall left).table]
      exact isolated
  | reboot scrambled =>
      rw [Action.step,
        (Machine.sameStore_reboot guarded.inSync scrambled).table]
      exact guarded.isolated

/-- A call that concerns the app is answered as if it were alone. -/
theorem answeredAlone_of_concerns
    (device : Device)
    {apps : Set (Vector UInt8 32)}
    {m : Machine}
    (isolated : m.table.Isolated apps)
    (caller : m.cdi ∈ apps)
    {cdi : Vector UInt8 32}
    {call : Call}
    {num : SyscallNum}
    (isCall : SyscallNum.ofWord call.number = some num)
    (concerns : Concerns cdi m.runningApp num)
    (room :
      m.cdi = cdi → num = .allocArea → ¬ NoRoom cdi m.table) :
    AnsweredAlone device cdi call m
      ((syscallHandler device call).run m) := by
  rcases concerns with isErase | ⟨isStorage, isOwn⟩
  · subst isErase
    exact answeredAlone_eraseAreas isCall cdi m
  · have own : m.cdi = cdi := isOwn
    subst own
    cases num with
    | allocArea =>
        exact answeredAlone_allocArea isCall (room rfl rfl)
    | deallocArea =>
        exact answeredAlone_deallocArea isCall isolated caller
    | writeData =>
        exact answeredAlone_writeData isCall m
    | readData =>
        exact answeredAlone_readData isCall m
    | eraseData =>
        exact answeredAlone_eraseData isCall m
    | _ =>
        exact absurd isStorage (by simp [SyscallNum.IsStorage])

/-- Every step of a session acts on the storage of an app as on its own. -/
theorem explained_step
    {device : Device}
    {apps : Set (Vector UInt8 32)}
    {m : Machine}
    (guarded : Guarded apps m)
    {cdi : Vector UInt8 32}
    (member : cdi ∈ apps)
    {action : Action}
    (admissible : action.Admissible apps)
    (room : action.HasRoom cdi m) :
    (storageObserver device cdi).Explained m action := by
  cases action with
  | reboot scrambled =>
      simp only [Observer.Explained, storageObserver, storageRequest,
        Action.step]
      exact privateArea_of_sameStore
        (Machine.sameStore_reboot guarded.inSync scrambled) cdi
  | call app request =>
      obtain ⟨caller, collisionFree⟩ := admissible
      have left := inSync_callResult device app request guarded.inSync
      have isolated : (m.enter app).table.Isolated apps := by
        simpa using guarded.isolated
      have callerInside : (m.enter app).cdi ∈ apps := by
        simpa using caller
      have before : privateArea cdi (m.enter app) = privateArea cdi m :=
        privateArea_of_sameStore (m.sameStore_enter app) cdi
      have after :
          privateArea cdi
              (afterCall (callResult device app request m)) =
            privateArea cdi
              (resultMachine (callResult device app request m)) :=
        privateArea_of_sameStore (sameStore_afterCall left) cdi
      simp only [Observer.Explained, storageObserver, storageRequest,
        Action.step, Action.output, after]
      cases isCall : SyscallNum.ofWord request.number with
      | none =>
          simp only
          rw [(callResult_outcome device app request m).privateArea_of_foreign
            isolated callerInside collisionFree member
            (by simp [isCall]), before]
      | some num =>
          simp only
          by_cases concerns : Concerns cdi app num
          · have answered :=
              answeredAlone_of_concerns device isolated
                callerInside isCall concerns
                (fun own isAlloc => by
                  subst isAlloc
                  have noRoom := room (by simpa using own) isCall
                  simpa using noRoom)
            rw [AnsweredAlone, before] at answered
            simp only [if_pos concerns]
            exact answered
          · simp only [if_neg concerns]
            rw [(callResult_outcome device app request m).privateArea_of_foreign
              isolated callerInside collisionFree member
              (by
                intro other isOther
                rw [isCall] at isOther
                cases isOther
                exact concerns),
              before]

end Sessions

section Insertion

def Action.withoutWords : Action → Action
  | .call app request => .call app request.withoutWords
  | .reboot scrambled => .reboot scrambled

/--
A session with storage calls of other apps inserted.  The kept calls may be
given other random words.
-/
inductive Inserted (cdi : Vector UInt8 32) :
    List Action → List Action → Prop where
  | nil : Inserted cdi [] []
  | keep {base extended : List Action}
      (left right : Action)
      (same : left.withoutWords = right.withoutWords)
      (rest : Inserted cdi base extended) :
      Inserted cdi (left :: base) (right :: extended)
  | insert {base extended : List Action}
      (app : App)
      (call : Call)
      (num : SyscallNum)
      (otherApp : app.cdi ≠ cdi)
      (isCall : SyscallNum.ofWord call.number = some num)
      (isStorage : num.IsStorage)
      (rest : Inserted cdi base extended) :
      Inserted cdi base (.call app call :: extended)

/-- Random words are no part of a request. -/
theorem storageRequest_withoutWords
    (cdi : Vector UInt8 32)
    (action : Action) :
    storageRequest cdi action.withoutWords = storageRequest cdi action := by
  cases action <;> rfl

/-- An app makes the same requests when calls of others are inserted. -/
theorem Inserted.sameRequests
    {cdi : Vector UInt8 32}
    {base extended : List Action}
    (inserted : Inserted cdi base extended) :
    base.filterMap (storageRequest cdi) =
      extended.filterMap (storageRequest cdi) := by
  induction inserted with
  | nil =>
      rfl
  | keep left right same rest inductionHypothesis =>
      have sameRequest :
          storageRequest cdi left = storageRequest cdi right := by
        rw [← storageRequest_withoutWords, same,
          storageRequest_withoutWords]
      rw [List.filterMap_cons, List.filterMap_cons, sameRequest,
        inductionHypothesis]
  | insert app call num otherApp isCall isStorage rest
      inductionHypothesis =>
      have noRequest : storageRequest cdi (.call app call) = none := by
        have foreign : ¬ Concerns cdi app num := by
          rintro (isErase | ⟨_, own⟩)
          · subst isErase
            exact isStorage
          · exact otherApp own
        simp only [storageRequest, isCall, if_neg foreign]
      rw [List.filterMap_cons_none noRequest, inductionHypothesis]

/-- The state of every session isolates the apps. -/
theorem Guarded.run
    {apps : Set (Vector UInt8 32)}
    (device : Device)
    {start : Machine}
    (guarded : Guarded apps start)
    {actions : List Action}
    (admissible : ∀ action, action ∈ actions → action.Admissible apps) :
    Guarded apps (Action.run device start actions) := by
  induction actions generalizing start with
  | nil =>
      exact guarded
  | cons action rest inductionHypothesis =>
      exact inductionHypothesis
        (guarded.step device (admissible action (by simp)))
        fun later member => admissible later (by simp [member])

/-- A session in which an app always finds room is explained by its calls. -/
theorem explained_run
    {apps : Set (Vector UInt8 32)}
    {device : Device}
    {start : Machine}
    (guarded : Guarded apps start)
    {cdi : Vector UInt8 32}
    (member : cdi ∈ apps)
    {actions : List Action}
    (admissible : ∀ action, action ∈ actions → action.Admissible apps)
    (room :
      (storageObserver device cdi).Along
        (fun m action => action.HasRoom cdi m) start actions) :
    (storageObserver device cdi).Along
      (storageObserver device cdi).Explained start actions := by
  have preserved (m : Machine) (action : Action)
      (guarded : Guarded apps m)
      (given : action.Admissible apps ∧ action.HasRoom cdi m) :
      Guarded apps ((storageObserver device cdi).step m action) :=
    guarded.step device given.1
  have establishes (m : Machine) (action : Action)
      (guarded : Guarded apps m)
      (given : action.Admissible apps ∧ action.HasRoom cdi m) :
      (storageObserver device cdi).Explained m action :=
    explained_step guarded member given.1 given.2
  exact Observer.Along.of_invariant preserved establishes guarded
    (room.and_mem admissible)

/--
Storage isolation: from a boot with all areas free, every area in use has one
owner and every app owns one area, and an app gets the same answers from its
storage whether or not other apps use theirs.
-/
theorem storage_isolation
    (device : Device)
    {apps : Set (Vector UInt8 32)}
    {chip : FlashChip}
    {copy : TableCopy}
    (usable : usableCopy chip.memory = some copy)
    (free :
      ∀ index, ¬ (loadCopy chip.memory copy).table.InUse index)
    (scrambled : Memory)
    (info : Reset)
    {base : List Action}
    (admissible : ∀ action, action ∈ base → action.Admissible apps) :
    let start := (Machine.entered chip scrambled info).withCopy copy
    let reached := Action.run device start base
    (∀ index left right,
        left ∈ apps →
        right ∈ apps →
        reached.table.Owns left index →
        reached.table.Owns right index →
        left = right) ∧
      (∀ cdi index other,
        cdi ∈ apps →
        reached.table.Owns cdi index →
        reached.table.Owns cdi other →
        index = other) ∧
      ∀ cdi extended,
        cdi ∈ apps →
        Inserted cdi base extended →
        (∀ action, action ∈ extended → action.Admissible apps) →
        (storageObserver device cdi).Along
          (fun m action => action.HasRoom cdi m) start base →
        (storageObserver device cdi).Along
          (fun m action => action.HasRoom cdi m) start extended →
        (storageObserver device cdi).outputs start base =
          (storageObserver device cdi).outputs start extended := by
  intro start reached
  have guarded : Guarded apps start :=
    ⟨Machine.inSync_withCopy usable, .of_free free⟩
  have isolated : reached.table.Isolated apps :=
    (guarded.run device admissible).isolated
  refine ⟨?_, ?_, ?_⟩
  · intro index left right leftMember rightMember
    exact isolated.oneOwner leftMember rightMember
  · intro cdi index other member
    exact isolated.oneArea cdi member index other
  · intro cdi extended member inserted admissibleExtended room
      roomExtended
    exact Observer.outputs_eq_of_explained
      (explained_run guarded member admissible room)
      (explained_run guarded member admissibleExtended roomExtended)
      rfl inserted.sameRequests

/-- An app for sessions on concrete inputs. -/
def App.sample (byte : UInt8) : App where
  cdi := Vector.replicate 32 byte
  currentAppDigest := Vector.replicate 32 0
  ram := fun _ => 0

/-- A sample app with bytes in its RAM. -/
def App.counting (byte : UInt8) : App :=
  { App.sample byte with ram := countingRam }

/-- The CDIs of two sample apps. -/
def App.samples : Set (Vector UInt8 32) :=
  {(App.sample 3).cdi, (App.sample 4).cdi}

/-- The digests of the sample apps do not collide. -/
theorem collisionFree_samples :
    CollisionFree App.samples (generateNonce plainWords) := by
  apply (Set.injOn_pair).mpr
  intro same
  have different :
      authDigest (App.sample 3).cdi (generateNonce plainWords) ≠
        authDigest (App.sample 4).cdi (generateNonce plainWords) := by
    decide +kernel
  exact absurd same different

/-- Sample apps may make any sample call. -/
theorem admissible_ranged
    {byte : UInt8}
    (member : (App.sample byte).cdi ∈ App.samples)
    (num : SyscallNum)
    (offset buffer size : UInt32) :
    Action.Admissible App.samples
      (.call (.counting byte) (.ranged num offset buffer size)) :=
  ⟨member, fun _ => collisionFree_samples⟩

/-- A sample app allocates an area, writes three bytes and reads two back. -/
def ownSession : List Action :=
  [.call (.counting 3) (.ranged .allocArea 0 0 0),
    .call (.counting 3) (.ranged .writeData 256 (ramBase + 0x10) 3),
    .call (.counting 3) (.ranged .readData 257 (ramBase + 0x80) 2)]

/-- The session with an allocation and a write of another app. -/
def sharedSession : List Action :=
  [.call (.counting 3) (.ranged .allocArea 0 0 0),
    .call (.counting 4) (.ranged .allocArea 0 0 0),
    .call (.counting 3) (.ranged .writeData 256 (ramBase + 0x10) 3),
    .call (.counting 4) (.ranged .writeData 256 (ramBase + 0x20) 3),
    .call (.counting 3) (.ranged .readData 257 (ramBase + 0x80) 2)]

/-- What the app gets from an area of its own. -/
theorem privateOutputs_ownSession :
    (storageObserver .sample (App.sample 3).cdi).privateOutputs none
        (ownSession.filterMap
          (storageObserver .sample (App.sample 3).cdi).request) =
      [some (0, countingRam), some (0, countingRam),
        some (0, write countingRam (ramBase + 0x80).toNat [0x11, 0x12])] := by
  have requests :
      ownSession.filterMap
          (storageObserver .sample (App.sample 3).cdi).request =
        [(.counting 3, (Call.ranged .allocArea 0 0 0).withoutWords),
          (.counting 3,
            (Call.ranged .writeData 256 (ramBase + 0x10) 3).withoutWords),
          (.counting 3,
            (Call.ranged .readData 257 (ramBase + 0x80) 2).withoutWords)] := by
    rfl
  have bytes :
      read
          (run [.program 256 (read countingRam (ramBase + 0x10).toNat 3)]
            blankContent)
          257 2 =
        [0x11, 0x12] := by
    decide
  have allocates :
      privateAnswer .sample none
          (.counting 3, (Call.ranged .allocArea 0 0 0).withoutWords) =
        (some blankContent, some (0, countingRam)) := rfl
  have writes (content : Memory) :
      privateAnswer .sample (some content)
          (.counting 3,
            (Call.ranged .writeData 256 (ramBase + 0x10) 3).withoutWords) =
        (some
            (run [.program 256 (read countingRam (ramBase + 0x10).toNat 3)]
              content),
          some (0, countingRam)) :=
    privateAnswer_writeData rfl (by decide) ..
  have reads (content : Memory) :
      privateAnswer .sample (some content)
          (.counting 3,
            (Call.ranged .readData 257 (ramBase + 0x80) 2).withoutWords) =
        (some content,
          some
            (0,
              write countingRam (ramBase + 0x80).toNat
                (read content 257 2))) :=
    privateAnswer_readData rfl (by decide) ..
  rw [requests]
  simp only [Observer.privateOutputs, storageObserver, allocates, writes,
    reads, bytes]

/-- The app gets its bytes, whether or not the other one acts in between. -/
theorem storage_isolation_sample :
    let outputs :=
      (storageObserver .sample (App.sample 3).cdi).outputs
        (Machine.provisioned .sample)
    outputs ownSession = outputs sharedSession ∧
      outputs ownSession =
        [some (0, countingRam), some (0, countingRam),
          some (0, write countingRam (ramBase + 0x80).toNat [0x11, 0x12])] := by
  have free (index : Fin 4) :
      ¬ (loadCopy (FlashChip.provisioned .sample).memory
          .first).table.InUse index := by
    rw [loadCopy_provisioned]
    exact not_inUse_sample index
  have room :
      ¬ NoRoom (App.sample 3).cdi (Machine.provisioned .sample).table := by
    rintro ⟨_, full⟩
    rw [Machine.table_provisioned] at full
    exact absurd (getFirstEmpty_eq_none.mp full 0) (by decide)
  have first : (App.sample 3).cdi ∈ App.samples := .inl rfl
  have second : (App.sample 4).cdi ∈ App.samples := .inr rfl
  have admissible :
      ∀ action, action ∈ ownSession → action.Admissible App.samples := by
    simp [ownSession, admissible_ranged first]
  have noAlloc
      {num : SyscallNum}
      (isCall : SyscallNum.ofWord num.word = some num)
      (isOther : num ≠ .allocArea)
      (m : Machine)
      (app : App)
      (offset buffer size : UInt32) :
      Action.HasRoom (App.sample 3).cdi m
        (.call app (.ranged num offset buffer size)) := by
    intro _ isAlloc
    exact absurd (Option.some.inj (isCall.symm.trans isAlloc)) isOther
  have writes := @noAlloc .writeData rfl (by decide)
  have reads := @noAlloc .readData rfl (by decide)
  have ownRoom :
      (storageObserver .sample (App.sample 3).cdi).Along
        (fun m action => action.HasRoom (App.sample 3).cdi m)
        (Machine.provisioned .sample) ownSession :=
    ⟨fun _ _ => room, writes _ _ _ _ _, reads _ _ _ _ _, trivial⟩
  have guarded : Guarded App.samples (Machine.provisioned .sample) :=
    ⟨Machine.inSync_withCopy (usableCopy_provisioned .sample), .of_free free⟩
  have isolation :=
    storage_isolation .sample (usableCopy_provisioned .sample) free
      (fun _ => 0) .zero admissible
  constructor
  · apply isolation.2.2 _ _ first
    · exact .keep _ _ rfl
        (.insert _ _ .allocArea (by decide) rfl trivial
          (.keep _ _ rfl
            (.insert _ _ .writeData (by decide) rfl trivial
              (.keep _ _ rfl .nil))))
    · simp [sharedSession, admissible_ranged first, admissible_ranged second]
    · exact ownRoom
    · refine
        ⟨fun _ _ => room, ?_, writes _ _ _ _ _, writes _ _ _ _ _,
          reads _ _ _ _ _, trivial⟩
      intro own
      exact absurd own (by decide)
  · rw [Observer.outputs_of_explained
      (explained_run guarded first admissible ownRoom)]
    have noArea :
        privateArea (App.sample 3).cdi (Machine.provisioned .sample) =
          none := by
      rw [privateArea, Machine.table_provisioned,
        ownedArea_eq_none.mpr fun index owns => not_inUse_sample index owns.1]
      rfl
    have blank :
        (storageObserver .sample (App.sample 3).cdi).view
            (Machine.provisioned .sample) =
          none := by
      simp only [storageObserver]
      exact noArea
    rw [blank]
    exact privateOutputs_ownSession

end Insertion

end TKey
