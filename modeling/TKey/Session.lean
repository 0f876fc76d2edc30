import TKey.FlashRegions

namespace TKey

open ByteMemory NorFlash

/-!
# Sessions

Between two system calls, everything that an app or a reset can change in a
machine is the app itself: its CDI, its RAM, and whether it is the management
app.  A session is a sequence of system calls by any apps, with resets in
between; what persists from call to call is flash and the partition table.
-/

/-- What the running app brings to a system call. -/
structure App where
  cdi : Vector UInt8 32
  /-- The digest that `mgmt_app_init` has remembered, if it was called. -/
  currentAppDigest : Vector UInt8 32
  ram : Memory

/-- The machine with an app running on it. -/
def Machine.enter (app : App) (m : Machine) : Machine :=
  { m with
    ram := app.ram
    cdi := app.cdi
    currentAppDigest := app.currentAppDigest }

/-- The app that is running on a machine. -/
def Machine.runningApp (m : Machine) : App where
  cdi := m.cdi
  currentAppDigest := m.currentAppDigest
  ram := m.ram

/-- The machine after a reset and the setup that follows it. -/
def Machine.reboot (scrambled : Memory) (m : Machine) : Machine :=
  resultMachine
    (mainSetup.run (Machine.entered m.flash scrambled m.resetinfo))

/-- One step of a session. -/
inductive Action where
  | call (app : App) (call : Call)
  | reboot (scrambled : Memory)

/-- The machine that goes on after a system call, which may have ended. -/
def afterCall : EStateM.Result Stop Machine Int → Machine
  | .ok _ m => m
  | .error _ m => m.reboot m.ram

/-- What an app sees of a system call that returns. -/
def reply : EStateM.Result Stop Machine Int → Option (Int × Memory)
  | .ok value m => some (value, m.ram)
  | .error _ _ => none

/-- The result of a system call by an app. -/
def callResult
    (device : Device)
    (app : App)
    (call : Call)
    (m : Machine) : EStateM.Result Stop Machine Int :=
  (syscallHandler device call).run (m.enter app)

namespace Action

/-- The effect of a step of a session. -/
def step (device : Device) (m : Machine) : Action → Machine
  | .call app request => afterCall (callResult device app request m)
  | .reboot scrambled => m.reboot scrambled

/-- What the acting app sees of a step of a session. -/
def output
    (device : Device)
    (m : Machine) : Action → Option (Int × Memory)
  | .call app request => reply (callResult device app request m)
  | .reboot _ => none

/-- The effect of a session. -/
def run (device : Device) (m : Machine) (actions : List Action) :
    Machine :=
  actions.foldl (step device) m

@[simp] theorem run_nil (device : Device) (m : Machine) :
    run device m [] = m :=
  rfl

@[simp] theorem run_cons
    (device : Device)
    (m : Machine)
    (action : Action)
    (rest : List Action) :
    run device m (action :: rest) =
      run device (step device m action) rest :=
  rfl

theorem run_append
    (device : Device)
    (m : Machine)
    (earlier later : List Action) :
    run device m (earlier ++ later) =
      run device (run device m earlier) later := by
  simp [run, List.foldl_append]

end Action

section Enter

@[simp] theorem Machine.flash_enter (app : App) (m : Machine) :
    (m.enter app).flash = m.flash := by
  unfold enter
  rfl

@[simp] theorem Machine.partTableStorage_enter
    (app : App)
    (m : Machine) :
    (m.enter app).partTableStorage = m.partTableStorage := by
  unfold enter
  rfl

@[simp] theorem Machine.table_enter (app : App) (m : Machine) :
    (m.enter app).table = m.table := by
  unfold table
  rw [partTableStorage_enter]

@[simp] theorem Machine.cdi_enter (app : App) (m : Machine) :
    (m.enter app).cdi = app.cdi := by
  unfold enter
  rfl

@[simp] theorem Machine.ram_enter (app : App) (m : Machine) :
    (m.enter app).ram = app.ram := by
  unfold enter
  rfl

@[simp] theorem Machine.runningApp_enter (app : App) (m : Machine) :
    (m.enter app).runningApp = app := by
  unfold enter runningApp
  rfl

end Enter

section Sync

/-- The table in `FW_RAM` is the one that a boot would load. -/
def Machine.InSync (m : Machine) : Prop :=
  loadTable m.flash.memory = some m.partTableStorage

/-- After a boot the table is in sync with flash. -/
theorem Machine.inSync_withCopy
    {m : Machine}
    {copy : TableCopy}
    (usable : usableCopy m.flash.memory = some copy) :
    (m.withCopy copy).InSync := by
  unfold Machine.InSync Machine.withCopy
  rw [loadTable, usable, Option.map_some]

/-- Commands away from the table sectors do not change what a boot loads. -/
theorem loadCopy_run_of_confined
    {commands : List Command}
    (confined :
      Confined commands fun address => ¬ ∃ copy, InTable copy address)
    (memory : Memory)
    (copy : TableCopy) :
    loadCopy (run commands memory) copy = loadCopy memory copy := by
  apply loadCopy_congr
  intro address low high
  apply run_of_avoids
  intro command member touches
  exact confined command member address touches ⟨copy, low, high⟩

/-- What a boot loads depends on the copies alone. -/
theorem loadTable_congr
    {left right : Memory}
    (same : loadCopy left = loadCopy right) :
    loadTable left = loadTable right := by
  simp only [loadTable, usableCopy, same]

/-- A table update leaves two copies of the new table. -/
theorem loadCopy_updateTable
    (before : List Command)
    (table : PartitionTable)
    {after : List Command}
    (confined :
      Confined after fun address => ¬ ∃ copy, InTable copy address)
    (m : Machine)
    (copy : TableCopy) :
    loadCopy (m.updateTable before table after).flash.memory copy =
      table.sealed := by
  rw [(FlashChip.After.updateTable before table after m).1, run_append,
    run_append, loadCopy_run_of_confined confined]
  exact loadCopy_run_tableCommands copy table.sealed _

@[simp] theorem Machine.partTableStorage_updateTable
    (before : List Command)
    (table : PartitionTable)
    (after : List Command)
    (m : Machine) :
    (m.updateTable before table after).partTableStorage =
      table.sealed := by
  unfold updateTable perform
  rfl

/-- Two machines with the same flash contents and the same table. -/
def Machine.SameStore (left right : Machine) : Prop :=
  left.flash.memory = right.flash.memory ∧
    left.partTableStorage = right.partTableStorage

theorem Machine.SameStore.refl (m : Machine) : m.SameStore m :=
  ⟨rfl, rfl⟩

theorem Machine.SameStore.symm
    {left right : Machine}
    (same : left.SameStore right) :
    right.SameStore left :=
  ⟨same.1.symm, same.2.symm⟩

theorem Machine.SameStore.trans
    {first second third : Machine}
    (earlier : first.SameStore second)
    (later : second.SameStore third) :
    first.SameStore third :=
  ⟨earlier.1.trans later.1, earlier.2.trans later.2⟩

theorem Machine.SameStore.table
    {left right : Machine}
    (same : left.SameStore right) :
    left.table = right.table := by
  rw [Machine.table, same.2]
  rfl

theorem Machine.SameStore.inSync
    {left right : Machine}
    (same : left.SameStore right)
    (inSync : right.InSync) :
    left.InSync := by
  rw [InSync, same.1, same.2]
  exact inSync

/-- App RAM is no part of the store. -/
theorem Machine.sameStore_ram (ram : Memory) (m : Machine) :
    Machine.SameStore { m with ram := ram } m :=
  ⟨rfl, rfl⟩

/-- The record for the next boot is no part of the store. -/
theorem Machine.sameStore_resetinfo (info : Reset) (m : Machine) :
    Machine.SameStore { m with resetinfo := info } m :=
  ⟨rfl, rfl⟩

/-- A reset of a machine with a usable copy of the table. -/
theorem Machine.reboot_of_usable
    {m : Machine}
    {copy : TableCopy}
    (usable : usableCopy m.flash.memory = some copy)
    (scrambled : Memory) :
    m.reboot scrambled =
      (Machine.entered m.flash scrambled m.resetinfo).withCopy copy := by
  have setup (start : Machine)
      (usable : usableCopy start.flash.memory = some copy) :
      resultMachine (mainSetup.run start) = start.withCopy copy := by
    rw [mainSetup_run, usable]
    rfl
  unfold reboot
  exact setup _ usable

/-- A reset keeps a table that is in sync with flash. -/
theorem Machine.sameStore_reboot
    {m : Machine}
    (inSync : m.InSync)
    (scrambled : Memory) :
    (m.reboot scrambled).SameStore m := by
  rw [InSync, loadTable] at inSync
  obtain ⟨copy, usable, loaded⟩ := Option.map_eq_some_iff.mp inSync
  rw [reboot_of_usable usable]
  exact ⟨rfl, loaded⟩

/-- What goes on after a system call has the store that the call left. -/
theorem sameStore_afterCall
    {result : EStateM.Result Stop Machine Int}
    (inSync : (resultMachine result).InSync) :
    (afterCall result).SameStore (resultMachine result) := by
  rcases result with ⟨value, m⟩ | ⟨stop, m⟩
  · exact .refl m
  · exact Machine.sameStore_reboot inSync m.ram

@[simp] theorem Machine.table_perform
    (commands : List Command)
    (m : Machine) :
    (m.perform commands).table = m.table := by
  unfold perform
  rfl

@[simp] theorem Machine.table_updateTable
    (before : List Command)
    (table : PartitionTable)
    (after : List Command)
    (m : Machine) :
    (m.updateTable before table after).table = table := by
  rw [Machine.table, partTableStorage_updateTable]
  rfl

/-- An address of a storage area or of app slot 1 is no table address. -/
theorem not_inTable_of_inStorage
    {index : Fin 4}
    {address : Nat}
    (inStorage : InStorage index address) :
    ¬ ∃ copy, InTable copy address := by
  rintro ⟨copy, inTable⟩
  have area := inStorage.bounds
  have table := inTable.bounds
  omega

theorem not_inTable_of_inSlot
    {slot : Fin 2}
    {address : Nat}
    (inSlot : InSlot slot address) :
    ¬ ∃ copy, InTable copy address := by
  rintro ⟨copy, inTable⟩
  have app := inSlot.bounds
  have table := inTable.bounds
  omega

/-- The tables lie outside the app slots. -/
theorem avoids_tableCommands_slot
    (storage : PartitionTableStorage)
    {slot : Fin 2}
    {index : Nat}
    (inside : index < 0x20000) :
    Avoids (tableCommands storage) (appStart slot + index) := by
  have inSlot : InSlot slot (appStart slot + index) :=
    ⟨Nat.le_add_right _ _, Nat.add_lt_add_left inside _⟩
  intro command member touches
  exact not_inTable_of_inSlot inSlot
    (confined_tableCommands storage command member _ touches)

/-- The copies in flash and the table in `FW_RAM` are those of a table. -/
def Machine.HoldsTable (table : PartitionTable) (m : Machine) : Prop :=
  (∀ copy, loadCopy m.flash.memory copy = table.sealed) ∧
    m.partTableStorage = table.sealed

/-- Two equal copies are in sync with the table, and the first is used. -/
theorem Machine.HoldsTable.inSync
    {table : PartitionTable}
    {m : Machine}
    (holds : m.HoldsTable table) :
    m.InSync ∧ usableCopy m.flash.memory = some .first := by
  have usable : usableCopy m.flash.memory = some .first := by
    rw [usableCopy, holds.1 .first, if_pos table.sealed_verified]
  refine ⟨?_, usable⟩
  rw [InSync, loadTable, usable, Option.map_some, holds.1, holds.2]

/-- A system call keeps the copies and the table, or rewrites both. -/
theorem Outcome.tables
    {device : Device}
    {call : Call}
    {m : Machine}
    {result : EStateM.Result Stop Machine Int}
    (outcome : Outcome device call m result) :
    (loadCopy (resultMachine result).flash.memory =
          loadCopy m.flash.memory ∧
        (resultMachine result).partTableStorage = m.partTableStorage) ∨
      ∃ table, (resultMachine result).HoldsTable table := by
  have confinedNil :
      Confined [] fun address => ¬ ∃ copy, InTable copy address := by
    intro command member
    cases member
  have updated
      (before : List Command)
      (table : PartitionTable)
      {after : List Command}
      (confined :
        Confined after fun address => ¬ ∃ copy, InTable copy address) :
      (m.updateTable before table after).HoldsTable table :=
    ⟨loadCopy_updateTable before table confined m,
      m.partTableStorage_updateTable before table after⟩
  have performed
      {commands : List Command}
      (confined :
        Confined commands fun address =>
          ¬ ∃ copy, InTable copy address) :
      loadCopy (m.perform commands).flash.memory =
          loadCopy m.flash.memory ∧
        (m.perform commands).partTableStorage = m.partTableStorage :=
    ⟨funext (loadCopy_run_of_confined confined m.flash.memory), rfl⟩
  cases outcome with
  | quiet value ram =>
      exact .inl ⟨rfl, rfl⟩
  | allocate index isCall chosen =>
      exact .inr ⟨_, updated _ _ confinedNil⟩
  | deallocate index isCall owned =>
      exact .inr ⟨_, updated _ _ confinedNil⟩
  | eraseSectors index isCall owned range =>
      obtain ⟨_, _, whole, inArea⟩ := range
      simp only [InArea] at inArea
      apply Or.inl
      apply performed
      exact (confined_sectorErases (by omega)).mono
        fun _ inStorage => @not_inTable_of_inStorage index _ inStorage
  | writeData index isCall owned range =>
      obtain ⟨_, _, _, inArea⟩ := range
      apply Or.inl
      apply performed
      exact (confined_pages (by rw [length_read]; exact inArea)).mono
        fun _ inStorage => @not_inTable_of_inStorage index _ inStorage
  | store isCall accepts =>
      obtain ⟨_, _, _, _, _, inArea⟩ := accepts
      apply Or.inl
      apply performed
      exact (confined_pages (by rw [length_read]; exact inArea)).mono
        fun _ inSlot => @not_inTable_of_inSlot 1 _ inSlot
  | finalize isCall accepts =>
      exact .inr ⟨_, updated _ _ confinedNil⟩
  | delete isCall mgmt present =>
      refine .inr ⟨_, updated _ _ ?_⟩
      exact (confined_slotErase 1).mono
        fun _ inSlot => not_inTable_of_inSlot inSlot
  | setPubkey isCall accepts =>
      exact .inr ⟨_, updated _ _ confinedNil⟩
  | eraseAreas isCall mgmt =>
      exact .inr ⟨_, updated _ _ confinedNil⟩
  | systemReset isCall accepts =>
      have same := m.sameStore_resetinfo
        (handover m.cdi (userRequest m.ram call.arg1) call.arg2.toNat)
      exact .inl ⟨congrArg loadCopy same.1, same.2⟩
  | halted =>
      exact .inl ⟨rfl, rfl⟩

/-- A system call leaves the table in sync with flash. -/
theorem Outcome.inSync
    {device : Device}
    {call : Call}
    {m : Machine}
    {result : EStateM.Result Stop Machine Int}
    (outcome : Outcome device call m result)
    (inSync : m.InSync) :
    (resultMachine result).InSync := by
  rcases outcome.tables with ⟨copies, table⟩ | ⟨table, holds⟩
  · rw [Machine.InSync, loadTable_congr copies, table]
    exact inSync
  · exact holds.inSync.1

/-- An app that runs on a machine does not change its store. -/
theorem Machine.sameStore_enter (app : App) (m : Machine) :
    (m.enter app).SameStore m :=
  ⟨rfl, rfl⟩

/-- The outcome of a system call of a session. -/
theorem callResult_outcome
    (device : Device)
    (app : App)
    (call : Call)
    (m : Machine) :
    Outcome device call (m.enter app) (callResult device app call m) :=
  syscallHandler_outcome device call (m.enter app)

/-- A system call in a session leaves the table in sync with flash. -/
theorem inSync_callResult
    (device : Device)
    (app : App)
    (call : Call)
    {m : Machine}
    (inSync : m.InSync) :
    (resultMachine (callResult device app call m)).InSync :=
  (callResult_outcome device app call m).inSync
    ((m.sameStore_enter app).inSync inSync)

/-- Every step of a session leaves the table in sync with flash. -/
theorem Action.inSync_step
    (device : Device)
    {m : Machine}
    (inSync : m.InSync)
    (action : Action) :
    (action.step device m).InSync := by
  cases action with
  | call app request =>
      have left := inSync_callResult device app request inSync
      exact (sameStore_afterCall left).inSync left
  | reboot scrambled =>
      exact (Machine.sameStore_reboot inSync scrambled).inSync inSync

end Sync

end TKey
