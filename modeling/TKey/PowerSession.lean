import TKey.StorageEffect
import TKey.TablePowerLoss

namespace TKey

open ByteMemory NorFlash MirroredRecord

/-!
# Sessions with power losses

Storage calls that a power loss may interrupt.  While the second copy of the
table lags behind, it can come back into force; as long as it marks no area
as allocated that has another entry now, every event accounts for the contents
of the areas that have an owner after it.
-/

section Boot

/-- The areas in use of a table have the same entries in another one. -/
def PartitionTable.Retains (old new : PartitionTable) : Prop :=
  ∀ index,
    old.InUse index →
    new.appStorage.get index = old.appStorage.get index

theorem PartitionTable.Retains.refl (table : PartitionTable) :
    table.Retains table :=
  fun _ _ => rfl

/-- An owner in the retained table is an owner in the other. -/
theorem PartitionTable.Retains.owns
    {old new : PartitionTable}
    (retains : old.Retains new)
    {cdi : Vector UInt8 32}
    {index : Fin 4}
    (owns : old.Owns cdi index) :
    new.Owns cdi index := by
  have same : new.appStorage[index] = old.appStorage[index] :=
    retains index owns.1
  rw [PartitionTable.Owns, PartitionTable.InUse, same]
  exact owns

/-- A retained table isolates the apps that the other isolates. -/
theorem PartitionTable.Isolated.of_retains
    {apps : Set (Vector UInt8 32)}
    {old new : PartitionTable}
    (isolated : new.Isolated apps)
    (retains : old.Retains new) :
    old.Isolated apps := by
  constructor
  · intro index inUse
    have same : new.appStorage[index] = old.appStorage[index] :=
      retains index inUse
    rw [PartitionTable.get_appStorage, ← same]
    apply isolated.collisionFree index
    rw [PartitionTable.InUse, same]
    exact inUse
  · intro cdi member index other owns ownsOther
    exact isolated.oneArea cdi member index other (retains.owns owns)
      (retains.owns ownsOther)

/-- Interrupted commands away from the tables keep the copies. -/
theorem loadCopy_cut_of_confined
    {commands : List Command}
    (confined :
      Confined commands fun address => ¬ ∃ copy, InTable copy address)
    (cut : Cut)
    (memory : Memory) :
    loadCopy (cut.run commands memory) = loadCopy memory := by
  funext copy
  apply loadCopy_congr
  intro address low high
  apply Cut.run_of_avoids
  intro command member touches
  exact confined command (Cut.mem_of_started member) address touches
    ⟨copy, low, high⟩

/-- A loss during a table update has the effect of its progress. -/
theorem copies_after_loss
    {before : List Command}
    {next : PartitionTable}
    (confined :
      Confined before fun address => ¬ ∃ copy, InTable copy address)
    {cut : Cut}
    (behind : before.length ≤ cut.done)
    {memory : Memory}
    (fails :
      TornFails cut (before ++ tableCommands next.sealed) memory) :
    tableMirror.copies
        (cut.run (before ++ tableCommands next.sealed) memory) =
      (tableMirror.copies memory).update next
        (tableMirror.progress next (cut.later before.length)) := by
  have later :
      cut.run (before ++ tableCommands next.sealed) memory =
        (cut.later before.length).run (tableCommands next.sealed)
          (run before memory) := by
    rw [Cut.run_append, if_neg (Nat.not_lt.mpr behind)]
  have failsLater :
      TornFails (cut.later before.length) (tableCommands next.sealed)
        (run before memory) := by
    intro copy torn
    rw [← later]
    exact fails copy (torn.of_later behind)
  have sameCopies :
      tableMirror.copies (run before memory) =
        tableMirror.copies memory := by
    simp only [Mirror.copies, tableMirror_loadFirst,
      tableMirror_loadSecond, verifiedTable,
      loadCopy_run_of_confined confined]
  have copies :=
    Mirror.copies_cut (tornUnreadable_of_tornFails failsLater)
  rw [tableMirror_commands, ← later, sameCopies] at copies
  exact copies

/-- A boot loads the table that a reader of the copies gets. -/
theorem read_eq_some_of_loadTable
    {memory : Memory}
    {table : PartitionTable}
    (loads : loadTable memory = some table.sealed) :
    (tableMirror.copies memory).read = some table := by
  rw [loadTable_eq_read] at loads
  obtain ⟨value, found, isSealed⟩ := Option.map_eq_some_iff.mp loads
  have sameTable : value = table :=
    congrArg PartitionTableStorage.table isSealed
  rw [← sameTable]
  exact found

/--
After an interrupted call a boot finds the new table, or one whose areas in use
are as in the table before the call.
-/
theorem table_after_loss
    {m : Machine}
    (inSync : m.InSync)
    {before : List Command}
    {new : Option PartitionTable}
    (confined :
      Confined before fun address => ¬ ∃ copy, InTable copy address)
    {cut : Cut}
    (fails :
      TornFails cut (before ++ updateCommands new) m.flash.memory)
    (keepsUp :
      Torn cut (before ++ updateCommands new) .first →
      ∀ table,
        verifiedTable .second m.flash.memory = some table →
        table.Retains m.table)
    {table : PartitionTable}
    (loads :
      loadTable
          (cut.run (before ++ updateCommands new) m.flash.memory) =
        some table.sealed) :
    (new = some table ∧ before.length ≤ cut.done) ∨
      table.Retains m.table := by
  -- where the copies are as before, so is the table
  have unchanged
      (same :
        loadTable
            (cut.run (before ++ updateCommands new) m.flash.memory) =
          loadTable m.flash.memory) :
      table.Retains m.table := by
    rw [loads, inSync] at same
    have sameTable :=
      congrArg PartitionTableStorage.table (Option.some.inj same)
    have isTable : table = m.table := sameTable
    rw [isTable]
    exact .refl _
  cases new with
  | none =>
      right
      apply unchanged
      rw [updateCommands, List.append_nil]
      exact loadTable_congr
        (loadCopy_cut_of_confined confined cut m.flash.memory)
  | some next =>
      rw [updateCommands] at fails keepsUp loads unchanged
      by_cases early : cut.done < before.length
      · right
        apply unchanged
        rw [Cut.run_append, if_pos early]
        exact loadTable_congr
          (loadCopy_cut_of_confined confined cut m.flash.memory)
      have behind : before.length ≤ cut.done := Nat.le_of_not_lt early
      have copies := copies_after_loss confined behind fails
      have found := read_eq_some_of_loadTable loads
      rw [copies] at found
      by_cases untouched :
          tableMirror.progress next (cut.later before.length) = .untouched
      · right
        apply unchanged
        rw [loadTable_eq_read, loadTable_eq_read, copies, untouched]
        rfl
      by_cases torn :
          tableMirror.progress next (cut.later before.length) = .tornFirst
      · right
        rw [torn, Copies.read_update_tornFirst, Mirror.second_copies,
          tableMirror_loadSecond] at found
        exact keepsUp ((torn_of_progress.1 torn).of_later behind) table
          found
      · left
        rw [Copies.read_update_of_finished untouched torn] at found
        exact ⟨found, behind⟩

end Boot

section Events

/-- What can happen between boots, with power losses. -/
inductive PowerEvent where
  | call (app : App) (call : Call)
  /-- The power is lost during a call, then the device boots. -/
  | loss (app : App) (call : Call) (cut : Cut) (scrambled : Memory)
  /-- The device boots between two calls. -/
  | reboot (scrambled : Memory)

/-- The machine after a setup that succeeds. -/
def setupDone : EStateM.Result Stop Machine Unit → Option Machine
  | .ok _ m => some m
  | .error _ _ => none

/-- The machine after a boot that succeeds. -/
def bootedMachine
    (chip : FlashChip)
    (scrambled : Memory)
    (info : Reset) : Option Machine :=
  setupDone (mainSetup.run (Machine.entered chip scrambled info))

/-- An app makes a storage call. -/
structure StorageCall
    (apps : Set (Vector UInt8 32))
    (app : App)
    (call : Call) : Prop where
  member : app.cdi ∈ apps
  isStorage :
    ∃ num, SyscallNum.ofWord call.number = some num ∧ num.IsStorage
  collisionFree :
    SyscallNum.ofWord call.number = some .allocArea →
    CollisionFree apps (generateNonce call.words)

namespace PowerEvent

/-- The effect of an event; there is none when a boot fails. -/
def step (device : Device) (m : Machine) : PowerEvent → Option Machine
  | .call app request => some (Action.step device m (.call app request))
  | .loss app request cut scrambled =>
      bootedMachine
        (chipAfterLoss (syscallHandler device request) cut (m.enter app))
        scrambled m.resetinfo
  | .reboot scrambled => bootedMachine m.flash scrambled m.resetinfo

/-- A storage call of an app, and torn copies that do not verify. -/
def Allowed
    (device : Device)
    (apps : Set (Vector UInt8 32))
    (m : Machine) : PowerEvent → Prop
  | .call app request => StorageCall apps app request
  | .loss app request cut _ =>
      StorageCall apps app request ∧
        TornFails cut
          (commandsSent (syscallHandler device request) (m.enter app))
          m.flash.memory
  | .reboot _ => True

/--
No power loss tears the first copy of the table while the second verifies and
marks an area as allocated that has another entry in the table in force.
-/
def KeepsUp (device : Device) (m : Machine) : PowerEvent → Prop
  | .loss app request cut _ =>
      Torn cut
          (commandsSent (syscallHandler device request) (m.enter app))
          .first →
        ∀ table,
          verifiedTable .second m.flash.memory = some table →
          table.Retains m.table
  | _ => True

/-- The event is an allocation by the app, completed or not. -/
def IsAlloc (cdi : Vector UInt8 32) : PowerEvent → Prop
  | .call app request =>
      app.cdi = cdi ∧
        SyscallNum.ofWord request.number = some .allocArea
  | .loss app request _ _ =>
      app.cdi = cdi ∧
        SyscallNum.ofWord request.number = some .allocArea
  | .reboot _ => False

/-- What the writes and erases of an app do to the area that it owns. -/
def edit
    (cdi : Vector UInt8 32)
    (index : Fin 4)
    (memory : Memory) : PowerEvent → Memory
  | .call app request =>
      if app.cdi = cdi then
        run (ownCommands index app request) memory
      else
        memory
  | .loss app request cut _ =>
      if app.cdi = cdi then
        cut.run (ownCommands index app request) memory
      else
        memory
  | .reboot _ => memory

/-- An erased area after the writes and erases of an app. -/
def replay
    (cdi : Vector UInt8 32)
    (index : Fin 4)
    (events : List PowerEvent) : Memory :=
  events.foldl (edit cdi index) fun _ => 0xFF

end PowerEvent

/-- The runs whose events all meet a condition and whose boots all succeed. -/
inductive PowerRun
    (device : Device)
    (condition : Machine → PowerEvent → Prop)
    (start : Machine) :
    List PowerEvent → Machine → Prop where
  | start : PowerRun device condition start [] start
  | step {events : List PowerEvent} {m m' : Machine}
      (event : PowerEvent)
      (earlier : PowerRun device condition start events m)
      (allowed : condition m event)
      (next : event.step device m = some m') :
      PowerRun device condition start (events ++ [event]) m'

end Events

section Steps

/-- A setup that succeeds keeps flash and loads the usable copy. -/
theorem setupDone_eq_some
    {start m : Machine}
    (succeeds : setupDone (mainSetup.run start) = some m) :
    ∃ copy,
      usableCopy start.flash.memory = some copy ∧ m = start.withCopy copy := by
  rw [mainSetup_run] at succeeds
  cases usable : usableCopy start.flash.memory with
  | none =>
      rw [usable] at succeeds
      cases succeeds
  | some copy =>
      rw [usable] at succeeds
      exact ⟨copy, rfl, (Option.some.inj succeeds).symm⟩

/-- A boot that succeeds keeps flash and loads its table. -/
theorem booted_inSync
    {chip : FlashChip}
    {scrambled : Memory}
    {info : Reset}
    {m : Machine}
    (booted : bootedMachine chip scrambled info = some m) :
    m.flash.memory = chip.memory ∧ m.InSync := by
  obtain ⟨copy, usable, isMachine⟩ := setupDone_eq_some booted
  rw [isMachine]
  exact
    ⟨by rw [Machine.flash_withCopy, Machine.flash_entered],
      Machine.inSync_withCopy usable⟩

/-- A machine in sync holds the sealed table. -/
theorem Machine.InSync.eq_sealed {m : Machine} (inSync : m.InSync) :
    m.partTableStorage = m.table.sealed := by
  rw [Machine.InSync, loadTable_eq_read] at inSync
  obtain ⟨table, _, isSealed⟩ := Option.map_eq_some_iff.mp inSync
  rw [Machine.table, ← isSealed]
  rfl

/-- What a storage call of a session does. -/
theorem storageEffect_enter
    (device : Device)
    {apps : Set (Vector UInt8 32)}
    {app : App}
    {call : Call}
    (storageCall : StorageCall apps app call)
    (m : Machine) :
    ∃ before new,
      StorageEffect call (m.enter app) before new ∧
        Performs (m.enter app) before new
          (callResult device app call m) := by
  obtain ⟨num, isCall, isStorage⟩ := storageCall.isStorage
  exact storageEffect isCall isStorage (m.enter app)

/-- The commands that a call in a session sends. -/
theorem Performs.commandsSent
    {device : Device}
    {app : App}
    {call : Call}
    {m : Machine}
    {before : List Command}
    {new : Option PartitionTable}
    (performs :
      Performs (m.enter app) before new (callResult device app call m)) :
    commandsSent (syscallHandler device call) (m.enter app) =
      before ++ updateCommands new :=
  commandsSent_of_after performs.after

/-- Commands to the tables do not touch an area. -/
theorem avoids_updateCommands
    (new : Option PartitionTable)
    {index : Fin 4}
    {address : Nat}
    (inStorage : InStorage index address) :
    Avoids (updateCommands new) address := by
  intro command member touches
  cases new with
  | none =>
      cases member
  | some table =>
      exact
        confined_tableCommands_outside table.sealed index command member
          address touches inStorage

/-- An erased area is blank everywhere. -/
theorem run_areaErase
    (memory : Memory)
    {index : Fin 4}
    {address : Nat}
    (inStorage : InStorage index address) :
    run (areaErase index) memory address = 0xFF := by
  obtain ⟨low, high⟩ := inStorage
  obtain ⟨offset, rfl⟩ := Nat.exists_eq_add_of_le low
  have inside : offset < 0x20000 := Nat.lt_of_add_lt_add_left high
  have content :=
    congrFun (areaContent_run_areaErase memory index) offset
  simpa only [areaContent, blankContent, if_pos inside] using content

/--
How an event accounts for an area that an app owns after it: either by a write
or erase of the app, or because the app has just allocated the area.
-/
def PowerEvent.Accounts
    (cdi : Vector UInt8 32)
    (index : Fin 4)
    (event : PowerEvent)
    (m m' : Machine) : Prop :=
  (m.table.Owns cdi index ∧
      ∀ address,
        InStorage index address →
        m'.flash.memory address =
          event.edit cdi index m.flash.memory address) ∨
    (¬ m.table.Owns cdi index ∧
      event.IsAlloc cdi ∧
      ∀ address,
        InStorage index address → m'.flash.memory address = 0xFF)

/-- A completed storage call accounts for every owned area. -/
theorem accounts_call
    {device : Device}
    {apps : Set (Vector UInt8 32)}
    {m : Machine}
    (guarded : Guarded apps m)
    {app : App}
    {call : Call}
    (storageCall : StorageCall apps app call)
    {cdi : Vector UInt8 32}
    (member : cdi ∈ apps)
    {index : Fin 4}
    (owns :
      (Action.step device m (.call app call)).table.Owns cdi index) :
    PowerEvent.Accounts cdi index (.call app call) m
      (Action.step device m (.call app call)) := by
  obtain ⟨before, new, effect, performs⟩ :=
    storageEffect_enter device storageCall m
  obtain ⟨value, m', returns⟩ := performs.returns
  have isolated : (m.enter app).table.Isolated apps := by
    simpa using guarded.isolated
  have caller : (m.enter app).cdi ∈ apps := by
    simpa using storageCall.member
  have step :
      Action.step device m (.call app call) =
        resultMachine (callResult device app call m) := by
    rw [Action.step, returns]
    rfl
  rw [step] at owns ⊢
  rw [performs.table, Machine.table_enter] at owns
  have content (address : Nat) (inStorage : InStorage index address) :
      (resultMachine (callResult device app call m)).flash.memory address =
        run before m.flash.memory address := by
    rw [performs.after.1, run_append]
    exact run_of_avoids (avoids_updateCommands new inStorage) _
  have kept (ownsBefore : m.table.Owns cdi index) :
      PowerEvent.Accounts cdi index (.call app call) m
        (resultMachine (callResult device app call m)) := by
    refine .inl ⟨ownsBefore, ?_⟩
    intro address inStorage
    have sent :=
      effect.on_owned isolated caller member (by simpa using ownsBefore)
    rw [Machine.cdi_enter, Machine.runningApp_enter] at sent
    rw [content address inStorage, PowerEvent.edit]
    split at sent <;> rename_i own
    · rw [if_pos own, sent]
    · rw [if_neg own, run_of_avoids (sent address inStorage)]
  cases new with
  | none =>
      exact kept owns
  | some table =>
      by_cases ownsBefore : m.table.Owns cdi index
      · exact kept ownsBefore
      rcases effect.owners caller storageCall.collisionFree member owns with
        ownedBefore | ⟨isAlloc, own, erases⟩
      · exact absurd (by simpa using ownedBefore) ownsBefore
      · refine .inr ⟨ownsBefore, ⟨own, isAlloc⟩, ?_⟩
        intro address inStorage
        rw [content address inStorage, erases]
        exact run_areaErase _ inStorage

/-- An interrupted storage call and the boot after it do so as well. -/
theorem accounts_loss
    {device : Device}
    {apps : Set (Vector UInt8 32)}
    {m m' : Machine}
    (guarded : Guarded apps m)
    {app : App}
    {call : Call}
    {cut : Cut}
    {scrambled : Memory}
    (allowed :
      (PowerEvent.loss app call cut scrambled).Allowed device apps m)
    (keepsUp :
      (PowerEvent.loss app call cut scrambled).KeepsUp device m)
    (next :
      (PowerEvent.loss app call cut scrambled).step device m = some m') :
    m'.table.Isolated apps ∧
      ∀ cdi index,
        cdi ∈ apps →
        m'.table.Owns cdi index →
        PowerEvent.Accounts cdi index (.loss app call cut scrambled) m
          m' := by
  obtain ⟨storageCall, fails⟩ := allowed
  obtain ⟨before, new, effect, performs⟩ :=
    storageEffect_enter device storageCall m
  have isolated : (m.enter app).table.Isolated apps := by
    simpa using guarded.isolated
  have caller : (m.enter app).cdi ∈ apps := by
    simpa using storageCall.member
  have booted := booted_inSync next
  simp only [chipAfterLoss, performs.commandsSent,
    Machine.flash_enter] at booted
  obtain ⟨memory, inSync⟩ := booted
  have loads := inSync
  rw [Machine.InSync, memory, inSync.eq_sealed] at loads
  rw [performs.commandsSent] at fails
  rw [PowerEvent.KeepsUp, performs.commandsSent] at keepsUp
  have found :=
    table_after_loss guarded.inSync effect.confined_outside fails keepsUp
      loads
  have content (index : Fin 4) (address : Nat)
      (inStorage : InStorage index address) :
      m'.flash.memory address =
        cut.run before m.flash.memory address := by
    rw [memory]
    exact
      Cut.run_append_of_avoids (avoids_updateCommands new inStorage) cut _
  have kept {cdi : Vector UInt8 32} {index : Fin 4}
      (member : cdi ∈ apps)
      (ownsBefore : m.table.Owns cdi index) :
      PowerEvent.Accounts cdi index (.loss app call cut scrambled) m
        m' := by
    refine .inl ⟨ownsBefore, ?_⟩
    intro address inStorage
    have sent :=
      effect.on_owned isolated caller member (by simpa using ownsBefore)
    rw [Machine.cdi_enter, Machine.runningApp_enter] at sent
    rw [content index address inStorage, PowerEvent.edit]
    split at sent <;> rename_i own
    · rw [if_pos own, sent]
    · rw [if_neg own]
      apply Cut.run_of_avoids
      intro command started
      exact sent address inStorage command (Cut.mem_of_started started)
  rcases found with ⟨isNew, finished⟩ | retains
  · subst isNew
    refine ⟨effect.isolated isolated caller storageCall.collisionFree, ?_⟩
    intro cdi index member owns
    by_cases ownsBefore : m.table.Owns cdi index
    · exact kept member ownsBefore
    rcases effect.owners caller storageCall.collisionFree member owns with
      ownedBefore | ⟨isAlloc, own, erases⟩
    · exact absurd (by simpa using ownedBefore) ownsBefore
    · refine .inr ⟨ownsBefore, ⟨own, isAlloc⟩, ?_⟩
      intro address inStorage
      rw [content index address inStorage, Cut.run_of_finished finished,
        erases]
      exact run_areaErase _ inStorage
  · refine ⟨guarded.isolated.of_retains retains, ?_⟩
    intro cdi index member owns
    exact kept member (retains.owns owns)

/-- A boot between two calls changes nothing. -/
theorem accounts_reboot
    {m m' : Machine}
    (inSync : m.InSync)
    {scrambled : Memory}
    (booted : bootedMachine m.flash scrambled m.resetinfo = some m') :
    m'.SameStore m := by
  obtain ⟨memory, loads⟩ := booted_inSync booted
  rw [Machine.InSync, memory, inSync] at loads
  exact ⟨memory, (Option.some.inj loads).symm⟩

/-- Every event keeps the apps isolated and accounts for owned areas. -/
theorem accounts_step
    {device : Device}
    {apps : Set (Vector UInt8 32)}
    {m m' : Machine}
    (guarded : Guarded apps m)
    {event : PowerEvent}
    (allowed : event.Allowed device apps m)
    (keepsUp : event.KeepsUp device m)
    (next : event.step device m = some m') :
    Guarded apps m' ∧
      ∀ cdi index,
        cdi ∈ apps →
        m'.table.Owns cdi index →
        event.Accounts cdi index m m' := by
  cases event with
  | call app request =>
      cases next
      refine ⟨guarded.step device ⟨allowed.member, allowed.collisionFree⟩, ?_⟩
      intro cdi index member owns
      exact accounts_call guarded allowed member owns
  | loss app request cut scrambled =>
      obtain ⟨isolated, accounts⟩ :=
        accounts_loss guarded allowed keepsUp next
      exact ⟨⟨(booted_inSync next).2, isolated⟩, accounts⟩
  | reboot scrambled =>
      have same := accounts_reboot guarded.inSync next
      refine ⟨⟨(booted_inSync next).2, ?_⟩, ?_⟩
      · rw [same.table]
        exact guarded.isolated
      · intro cdi index _ owns
        rw [same.table] at owns
        refine .inl ⟨owns, ?_⟩
        intro address _
        rw [same.1]
        rfl

end Steps

end TKey
