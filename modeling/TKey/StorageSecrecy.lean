import TKey.PowerSession

namespace TKey

open ByteMemory NorFlash MirroredRecord

/-!
# Storage secrecy across power losses

Every byte that an app reads comes from its own writes and erases since it
allocated its area, as long as the second copy of the table keeps up.  A copy
that lags behind can make a former owner of an area its owner again.
-/

section Secrecy

/--
An app has owned an area since an allocation of its own, through the events
`since` at the end of a run.
-/
inductive OwnedSince
    (device : Device)
    (condition : Machine → PowerEvent → Prop)
    (start : Machine)
    (cdi : Vector UInt8 32)
    (index : Fin 4) :
    List PowerEvent → List PowerEvent → Machine → Prop where
  | allocated {events : List PowerEvent} {m m' : Machine}
      (event : PowerEvent)
      (run : PowerRun device condition start events m)
      (before : ¬ m.table.Owns cdi index)
      (isAlloc : event.IsAlloc cdi)
      (next : event.step device m = some m')
      (owns : m'.table.Owns cdi index) :
      OwnedSince device condition start cdi index (events ++ [event]) [] m'
  | kept {events since : List PowerEvent} {m m' : Machine}
      (event : PowerEvent)
      (earlier :
        OwnedSince device condition start cdi index events since m)
      (next : event.step device m = some m')
      (owns : m'.table.Owns cdi index) :
      OwnedSince device condition start cdi index (events ++ [event])
        (since ++ [event]) m'

/-- The contents of an area come from its owner since it allocated it. -/
def Accounted
    (device : Device)
    (condition : Machine → PowerEvent → Prop)
    (start : Machine)
    (events : List PowerEvent)
    (m : Machine)
    (cdi : Vector UInt8 32)
    (index : Fin 4) : Prop :=
  ∃ since,
    OwnedSince device condition start cdi index events since m ∧
      ∀ address,
        InStorage index address →
        m.flash.memory address =
          PowerEvent.replay cdi index since address

/-- An edit of an area depends on the contents of the area alone. -/
theorem PowerEvent.edit_congr
    (cdi : Vector UInt8 32)
    (index : Fin 4)
    (event : PowerEvent)
    {left right : Memory}
    {address : Nat}
    (same : left address = right address) :
    event.edit cdi index left address =
      event.edit cdi index right address := by
  cases event with
  | call app request =>
      simp only [PowerEvent.edit]
      split
      · simp only [run, same]
      · exact same
  | loss app request cut scrambled =>
      simp only [PowerEvent.edit]
      split
      · simp only [Cut.run, same]
      · exact same
  | reboot scrambled =>
      exact same

/-- Along a run every owned area is accounted for. -/
theorem accounted_run
    {device : Device}
    {apps : Set (Vector UInt8 32)}
    {start : Machine}
    (guarded : Guarded apps start)
    (free : ∀ index, ¬ start.table.InUse index)
    {events : List PowerEvent}
    {m : Machine}
    (run :
      PowerRun device
        (fun m event => event.Allowed device apps m ∧ event.KeepsUp device m)
        start events m) :
    Guarded apps m ∧
      ∀ cdi index,
        cdi ∈ apps →
        m.table.Owns cdi index →
        Accounted device
          (fun m event =>
            event.Allowed device apps m ∧ event.KeepsUp device m)
          start events m cdi index := by
  induction run with
  | start =>
      exact ⟨guarded, fun _ index _ owns => absurd owns.1 (free index)⟩
  | step event earlier allowed next inductionHypothesis =>
      obtain ⟨before, accounted⟩ := inductionHypothesis
      obtain ⟨after, accounts⟩ :=
        accounts_step before allowed.1 allowed.2 next
      refine ⟨after, ?_⟩
      intro cdi index member owns
      rcases accounts cdi index member owns with
        ⟨ownsBefore, edited⟩ | ⟨fresh, isAlloc, blank⟩
      · obtain ⟨since, owned, contents⟩ :=
          accounted cdi index member ownsBefore
        refine ⟨since ++ [event], .kept event owned next owns, ?_⟩
        intro address inStorage
        rw [edited address inStorage, PowerEvent.replay, List.foldl_append]
        exact event.edit_congr cdi index (contents address inStorage)
      · exact
          ⟨[], .allocated event earlier fresh isAlloc next owns, blank⟩

/-- A read returns bytes that come from the calls of the reader alone. -/
def ReadsOwnBytes
    (device : Device)
    (condition : Machine → PowerEvent → Prop)
    (start : Machine)
    (events : List PowerEvent)
    (m : Machine)
    (app : App)
    (call : Call)
    (ram : Memory) : Prop :=
  ∃ index since,
    OwnedSince device condition start app.cdi index events since m ∧
      ram =
        write app.ram call.arg2.toNat
          (read (PowerEvent.replay app.cdi index since)
            (areaStart index + call.arg1.toNat) call.arg3.toNat)

/-- A successful read returns the bytes of the own area. -/
theorem ram_of_readData
    {device : Device}
    {app : App}
    {call : Call}
    (isRead : SyscallNum.ofWord call.number = some .readData)
    {m m' : Machine}
    (success : callResult device app call m = .ok 0 m') :
    ∃ index,
      ownedArea m.table app.cdi = some index ∧
        call.arg1.toNat + call.arg3.toNat ≤ 0x20000 ∧
        m'.ram =
          write app.ram call.arg2.toNat
            (read m.flash.memory (areaStart index + call.arg1.toNat)
              call.arg3.toNat) := by
  rw [callResult, syscallHandler_readData isRead, Machine.table_enter,
    Machine.cdi_enter, Machine.flash_enter, Machine.ram_enter] at success
  cases owned : ownedArea m.table app.cdi with
  | none =>
      rw [owned] at success
      cases success
  | some index =>
      simp only [owned] at success
      split at success <;> rename_i range
      · cases success
        exact ⟨index, rfl, range.2.2, rfl⟩
      · cases success

/-- A boot with two equal copies loads their table. -/
theorem Mirrored.withCopy
    {table : PartitionTable}
    {m : Machine}
    (mirrored : Mirrored table m.flash.memory) :
    (m.withCopy .first).InSync ∧ (m.withCopy .first).table = table := by
  have usable : usableCopy m.flash.memory = some .first := by
    rw [usableCopy, mirrored .first, if_pos table.sealed_verified]
  have loaded :
      (m.withCopy .first).partTableStorage = table.sealed := by
    unfold Machine.withCopy
    exact mirrored .first
  refine ⟨Machine.inSync_withCopy usable, ?_⟩
  rw [Machine.table, loaded]
  rfl

/--
Storage secrecy across power losses: in every run in which the second copy of
the table keeps up, the bytes that a successful read returns come from the
writes and erases of the reader since it allocated the area.
-/
theorem storage_secrecy
    {device : Device}
    {apps : Set (Vector UInt8 32)}
    {chip : FlashChip}
    {table : PartitionTable}
    (mirrored : Mirrored table chip.memory)
    (free : ∀ index, ¬ table.InUse index)
    {scrambled : Memory}
    {info : Reset}
    {events : List PowerEvent}
    {m : Machine}
    (run :
      PowerRun device
        (fun m event => event.Allowed device apps m ∧ event.KeepsUp device m)
        ((Machine.entered chip scrambled info).withCopy .first) events m)
    {app : App}
    (member : app.cdi ∈ apps)
    {call : Call}
    (isRead : SyscallNum.ofWord call.number = some .readData)
    {m' : Machine}
    (success : callResult device app call m = .ok 0 m') :
    ReadsOwnBytes device
      (fun m event => event.Allowed device apps m ∧ event.KeepsUp device m)
      ((Machine.entered chip scrambled info).withCopy .first) events m app
      call m'.ram := by
  have mirroredStart :
      Mirrored table
        (Machine.entered chip scrambled info).flash.memory := by
    rw [Machine.flash_entered]
    exact mirrored
  obtain ⟨inSync, loaded⟩ := mirroredStart.withCopy
  have freeStart (index : Fin 4) :
      ¬ ((Machine.entered chip scrambled info).withCopy
          .first).table.InUse index := by
    rw [loaded]
    exact free index
  have guarded :
      Guarded apps
        ((Machine.entered chip scrambled info).withCopy .first) :=
    ⟨inSync, .of_free freeStart⟩
  obtain ⟨index, owned, inside, ram⟩ := ram_of_readData isRead success
  obtain ⟨since, ownedSince, contents⟩ :=
    (accounted_run guarded freeStart run).2 app.cdi index member
      (owns_of_ownedArea owned)
  have bytes :
      read m.flash.memory (areaStart index + call.arg1.toNat)
          call.arg3.toNat =
        read (PowerEvent.replay app.cdi index since)
          (areaStart index + call.arg1.toNat) call.arg3.toNat := by
    apply read_congr
    intro position inRange
    apply contents
    constructor <;> omega
  exact ⟨index, since, ownedSince, by rw [ram, bytes]⟩

end Secrecy

section StaleCopy

/-- The verified copies of the table, with the first one in force. -/
structure Holds (m : Machine) (first second : PartitionTable) : Prop where
  inSync : m.InSync
  copies :
    tableMirror.copies m.flash.memory =
      { first := some first, second := some second }

variable {device : Device} {app : App} {call : Call} {m : Machine}
  {first second next : PartitionTable} {before : List Command}

theorem Holds.table (holds : Holds m first second) : m.table = first := by
  have loads := holds.inSync
  rw [Machine.InSync, holds.inSync.eq_sealed] at loads
  have found := read_eq_some_of_loadTable loads
  rw [holds.copies] at found
  exact (Option.some.inj found).symm

/-- A completed call that updates the table leaves two equal copies. -/
theorem Holds.updated
    (holds : Holds m first second)
    (performs :
      Performs (m.enter app) before (some next)
        (callResult device app call m)) :
    Holds (Action.step device m (.call app call)) next next := by
  obtain ⟨value, m', returns⟩ := performs.returns
  have after := performs.after.1
  rw [returns] at after
  refine ⟨Action.inSync_step device holds.inSync _, ?_⟩
  have memory :
      (Action.step device m (.call app call)).flash.memory =
        run (tableMirror.commands next) (run before m.flash.memory) := by
    rw [Action.step, returns, tableMirror_commands, ← run_append]
    exact after
  rw [memory, Mirror.copies_run]
  rfl

/-- A completed call that sends commands to an area keeps the copies. -/
theorem Holds.edited
    (holds : Holds m first second)
    (performs :
      Performs (m.enter app) before none (callResult device app call m))
    (confined :
      Confined before fun address => ¬ ∃ copy, InTable copy address) :
    Holds (Action.step device m (.call app call)) first second ∧
      (Action.step device m (.call app call)).flash.memory =
        run before m.flash.memory := by
  obtain ⟨value, m', returns⟩ := performs.returns
  have after := performs.after.1
  rw [returns, updateCommands, List.append_nil] at after
  have memory :
      (Action.step device m (.call app call)).flash.memory =
        run before m.flash.memory := by
    rw [Action.step, returns]
    exact after
  refine ⟨⟨Action.inSync_step device holds.inSync _, ?_⟩, memory⟩
  rw [memory, ← holds.copies]
  simp only [Mirror.copies, tableMirror_loadFirst,
    tableMirror_loadSecond, verifiedTable,
    loadCopy_run_of_confined confined]

/-- A boot succeeds when some copy can be read. -/
theorem booted_of_read
    {chip : FlashChip}
    {table : PartitionTable}
    (readable : (tableMirror.copies chip.memory).read = some table)
    (scrambled : Memory)
    (info : Reset) :
    ∃ m', bootedMachine chip scrambled info = some m' := by
  have setup (start : Machine)
      (readable :
        (tableMirror.copies start.flash.memory).read = some table) :
      ∃ m', setupDone (mainSetup.run start) = some m' := by
    have loads := loadTable_eq_read start.flash.memory
    rw [readable, Option.map_some, loadTable] at loads
    obtain ⟨copy, usable, _⟩ := Option.map_eq_some_iff.mp loads
    rw [mainSetup_run, usable]
    exact ⟨_, rfl⟩
  apply setup
  rw [Machine.flash_entered]
  exact readable

/--
A loss during a call that updates the table, in terms of the copies that the
boot finds.
-/
theorem Holds.lost
    (holds : Holds m first second)
    (performs :
      Performs (m.enter app) before (some next)
        (callResult device app call m))
    (confined :
      Confined before fun address => ¬ ∃ copy, InTable copy address)
    {cut : Cut}
    (behind : before.length ≤ cut.done)
    (fails :
      TornFails cut
        (commandsSent (syscallHandler device call) (m.enter app))
        m.flash.memory)
    (scrambled : Memory) :
    ∃ m',
      (PowerEvent.loss app call cut scrambled).step device m = some m' ∧
        m'.InSync ∧
        m'.flash.memory =
          cut.run (before ++ tableCommands next.sealed) m.flash.memory ∧
        tableMirror.copies m'.flash.memory =
          Copies.update next
            (tableMirror.progress next (cut.later before.length))
            { first := some first, second := some second } := by
  have sent := performs.commandsSent
  rw [sent, updateCommands] at fails
  have copies := copies_after_loss confined behind fails
  rw [holds.copies] at copies
  have memory :
      (chipAfterLoss (syscallHandler device call) cut
          (m.enter app)).memory =
        cut.run (before ++ tableCommands next.sealed) m.flash.memory := by
    rw [chipAfterLoss, sent, Machine.flash_enter]
    rfl
  have readable :
      ∃ table,
        (tableMirror.copies
          (chipAfterLoss (syscallHandler device call) cut
            (m.enter app)).memory).read = some table := by
    rw [memory, copies]
    cases tableMirror.progress next (cut.later before.length) <;>
      exact ⟨_, rfl⟩
  obtain ⟨table, readable⟩ := readable
  obtain ⟨m', booted⟩ := booted_of_read readable scrambled m.resetinfo
  obtain ⟨sameMemory, inSync⟩ := booted_inSync booted
  refine ⟨m', booted, inSync, sameMemory.trans memory, ?_⟩
  rw [sameMemory, memory]
  exact copies

/-- The power is lost between the two copies, after two other commands. -/
def betweenCut (table : PartitionTable) : Cut where
  done := 2 + (copyCommands .first table.sealed).length
  torn := false
  noise := fun _ => 0xFF

/-- The power is lost in the first copy, after two other commands. -/
def firstCut (table : PartitionTable) : Cut :=
  { damagingCut .first table with done := 2 }

theorem progress_betweenCut (table : PartitionTable) :
    tableMirror.progress table ((betweenCut table).later 2) =
      .between := by
  have done :
      ((betweenCut table).later 2).done =
        (tableMirror.writeFirst table).length := by
    rw [tableMirror_writeFirst, Cut.later, betweenCut,
      Nat.add_sub_cancel_left]
  have more : 0 < (tableMirror.writeSecond table).length := by
    rw [tableMirror_writeSecond]
    exact length_copyCommands_pos _ _
  rw [Mirror.progress, done, if_neg (Nat.lt_irrefl _), Nat.sub_self,
    if_pos more, if_pos ⟨rfl, rfl⟩]

theorem progress_firstCut (table : PartitionTable) :
    tableMirror.progress table ((firstCut table).later 2) =
      .tornFirst :=
  progress_damagingCut .first table

/-- Between the copies no copy is torn. -/
theorem not_torn_betweenCut
    (length : before.length = 2)
    (confined :
      Confined before fun address => ¬ ∃ copy, InTable copy address)
    (copy : TableCopy) :
    ¬ Torn (betweenCut next) (before ++ tableCommands next.sealed) copy := by
  have behind : before.length ≤ (betweenCut next).done := by
    rw [length, betweenCut]
    exact Nat.le_add_right _ _
  intro torn
  have tornLater := torn.later confined behind
  rw [length] at tornLater
  cases copy with
  | first =>
      have reached := torn_first_iff.mp tornLater
      rw [progress_betweenCut] at reached
      cases reached
  | second =>
      have reached := progress_of_torn_second tornLater
      rw [progress_betweenCut] at reached
      cases reached

/-- The damaged first copy does not verify. -/
theorem tornFails_firstCut
    (length : before.length = 2)
    (confined :
      Confined before fun address => ¬ ∃ copy, InTable copy address)
    (memory : Memory) :
    TornFails (firstCut next) (before ++ tableCommands next.sealed)
      memory := by
  have behind : before.length ≤ (firstCut next).done :=
    Nat.le_of_eq length
  intro copy torn
  have tornLater := torn.later confined behind
  rw [length] at tornLater
  cases copy with
  | first =>
      have later : (firstCut next).later 2 = damagingCut .first next := rfl
      rw [Cut.run_append, if_neg (Nat.not_lt.mpr behind), length, later,
        loadCopy_damagingCut]
      exact next.damaged_not_verified
  | second =>
      have reached := progress_of_torn_second tornLater
      rw [progress_firstCut] at reached
      cases reached

/-- The sample table with an area of an app. -/
def PartitionTable.ownedBy (app : App) : PartitionTable :=
  PartitionTable.sample.setArea 0 (allocatedArea app.cdi plainWords)

theorem owns_ownedBy_iff (app : App) (cdi : Vector UInt8 32) (index : Fin 4) :
    (PartitionTable.ownedBy app).Owns cdi index ↔
      index = 0 ∧
        authDigest cdi (generateNonce plainWords) =
          authDigest app.cdi (generateNonce plainWords) :=
  owns_onlyArea_iff not_inUse_sample ..

theorem ownedArea_ownedBy (app : App) :
    ownedArea (.ownedBy app) app.cdi = some 0 :=
  ownedArea_onlyArea not_inUse_sample ..

/-- Another app gets the second area. -/
theorem allocation_ownedBy
    {owner other : App}
    (member : owner.cdi ∈ App.samples)
    (otherMember : other.cdi ∈ App.samples)
    (different : other.cdi ≠ owner.cdi) :
    allocation (.ownedBy owner) other.cdi = some 1 := by
  have noArea : ownedArea (.ownedBy owner) other.cdi = none := by
    apply ownedArea_eq_none.mpr
    intro index owns
    have digest := ((owns_ownedBy_iff _ _ _).mp owns).2
    exact different (collisionFree_samples otherMember member digest)
  rw [allocation, if_pos noArea]
  rfl

theorem ownedBy_setArea_freeArea (app : App) :
    (PartitionTable.ownedBy app).setArea 0 freeArea = .sample := by
  rw [PartitionTable.ownedBy, PartitionTable.setArea_setArea]
  rfl

/-- An allocation in a session that starts from a known table. -/
theorem Holds.allocates
    (holds : Holds m first second)
    {index : Fin 4}
    (chosen : allocation first app.cdi = some index) :
    Performs (m.enter app) (areaErase index)
      (some (first.setArea index (allocatedArea app.cdi plainWords)))
      (callResult .sample app (.plain .allocArea) m) := by
  have isCall :
      SyscallNum.ofWord (Call.plain .allocArea).number =
        some .allocArea := rfl
  have enters :
      allocation (m.enter app).table (m.enter app).cdi = some index := by
    rw [Machine.table_enter, Machine.cdi_enter, holds.table]
    exact chosen
  have performs := @performs_allocArea .sample _ isCall _ _ enters
  rw [Machine.table_enter, Machine.cdi_enter, holds.table] at performs
  exact performs

/-- The first allocation in a table with free areas only. -/
theorem Holds.allocatesFirst
    (holds : Holds m .sample second)
    (app : App) :
    Performs (m.enter app) (areaErase 0) (some (.ownedBy app))
      (callResult .sample app (.plain .allocArea) m) :=
  holds.allocates (allocation_of_free not_inUse_sample app.cdi)

/-- A deallocation in a session that starts from a known table. -/
theorem Holds.deallocates
    (holds : Holds m first second)
    {index : Fin 4}
    (owned : ownedArea first app.cdi = some index) :
    Performs (m.enter app) (areaErase index)
      (some (first.setArea index freeArea))
      (callResult .sample app (.plain .deallocArea) m) := by
  have isCall :
      SyscallNum.ofWord (Call.plain .deallocArea).number =
        some .deallocArea := rfl
  have enters :
      ownedArea (m.enter app).table (m.enter app).cdi = some index := by
    rw [Machine.table_enter, Machine.cdi_enter, holds.table]
    exact owned
  have performs := @performs_deallocArea .sample _ isCall _ _ enters
  rw [Machine.table_enter, holds.table] at performs
  exact performs

/-- A call that accesses one byte at the start of an area. -/
def Call.access (num : SyscallNum) : Call :=
  { Call.plain num with arg2 := 0x40000000, arg3 := 1 }

/-- A write in a session that starts from a known table. -/
theorem Holds.writes
    (holds : Holds m first second)
    {index : Fin 4}
    (owned : ownedArea first app.cdi = some index) :
    Performs (m.enter app)
      (pages 256 (areaStart index) (read app.ram 0x40000000 1)) none
      (callResult .sample app (.access .writeData) m) := by
  have isCall :
      SyscallNum.ofWord (Call.access .writeData).number =
        some .writeData := rfl
  have range :
      WritableRange (Call.access .writeData).arg1
        (Call.access .writeData).arg2 (Call.access .writeData).arg3 := by
    decide
  rw [callResult, syscallHandler_writeData isCall, Machine.table_enter,
    Machine.cdi_enter, Machine.ram_enter, holds.table, owned]
  simp only
  rw [if_pos range]
  exact .perform _ (m.enter app)

/--
An app frees its area, another app gets it and writes to it, and after the
third power loss the first app owns it again.
-/
def staleEvents : List PowerEvent :=
  [.call (.sample 3) (.plain .allocArea),
    .loss (.sample 3) (.plain .deallocArea) (betweenCut .sample)
      fun _ => 0,
    .loss (.sample 4) (.plain .allocArea)
      (betweenCut (.ownedBy (.sample 4))) fun _ => 0,
    .call (.sample 4) (.access .writeData),
    .loss (.sample 3) (.plain .allocArea)
      (firstCut
        ((PartitionTable.ownedBy (.sample 4)).setArea 1
          (allocatedArea (App.sample 3).cdi plainWords)))
      fun _ => 0]

/-- The sample apps make storage calls. -/
theorem storageCall_access
    {app : App}
    (member : app.cdi ∈ App.samples)
    {num : SyscallNum}
    (isStorage : num.IsStorage) :
    StorageCall App.samples app (.access num) where
  member := member
  isStorage := ⟨num, SyscallNum.ofWord_word num, isStorage⟩
  collisionFree _ := collisionFree_samples

theorem storageCall_plain
    {app : App}
    (member : app.cdi ∈ App.samples)
    {num : SyscallNum}
    (isStorage : num.IsStorage) :
    StorageCall App.samples app (.plain num) where
  member := member
  isStorage := ⟨num, SyscallNum.ofWord_word num, isStorage⟩
  collisionFree _ := collisionFree_samples

theorem holds_provisioned :
    Holds (Machine.provisioned .sample) .sample .sample := by
  have mirrored := mirrored_provisioned .sample
  refine ⟨?_, mirrored.copies⟩
  exact Machine.inSync_withCopy (usableCopy_provisioned .sample)

/-- The erase of an area takes two commands. -/
theorem length_areaErase (index : Fin 4) :
    (areaErase index).length = 2 :=
  rfl

theorem confined_areaErase_outside (index : Fin 4) :
    Confined (areaErase index)
      fun address => ¬ ∃ copy, InTable copy address :=
  (confined_areaErase index).mono
    fun _ inStorage => not_inTable_of_inStorage inStorage

/-- Power is lost between the copies of an update. -/
theorem Holds.lostBetween
    (holds : Holds m first second)
    {index : Fin 4}
    (performs :
      Performs (m.enter app) (areaErase index) (some next)
        (callResult device app call m))
    (scrambled : Memory) :
    TornFails (betweenCut next)
        (commandsSent (syscallHandler device call) (m.enter app))
        m.flash.memory ∧
      ∃ m',
        (PowerEvent.loss app call (betweenCut next) scrambled).step
            device m =
          some m' ∧
        Holds m' next second := by
  have length := length_areaErase index
  have confined := confined_areaErase_outside index
  have behind : (areaErase index).length ≤ (betweenCut next).done := by
    rw [length, betweenCut]
    exact Nat.le_add_right _ _
  have fails :
      TornFails (betweenCut next)
        (commandsSent (syscallHandler device call) (m.enter app))
        m.flash.memory := by
    rw [performs.commandsSent]
    intro copy torn
    exact absurd torn (not_torn_betweenCut length confined copy)
  obtain ⟨m', booted, inSync, _, copies⟩ :=
    holds.lost performs confined behind fails scrambled
  refine ⟨fails, m', booted, inSync, ?_⟩
  rw [copies, length, progress_betweenCut]
  rfl

/-- A loss between the copies is no danger to what an app owns. -/
theorem Performs.keepsUp_between
    {index : Fin 4}
    (performs :
      Performs (m.enter app) (areaErase index) (some next)
        (callResult device app call m))
    (scrambled : Memory) :
    (PowerEvent.loss app call (betweenCut next) scrambled).KeepsUp
      device m := by
  intro torn
  rw [performs.commandsSent] at torn
  exact
    absurd torn
      (not_torn_betweenCut (length_areaErase index)
        (confined_areaErase_outside index) .first)

/-- A machine after a boot that finds only the second copy. -/
theorem Machine.InSync.table_of_read
    (inSync : m.InSync)
    (found : (tableMirror.copies m.flash.memory).read = some next) :
    m.table = next := by
  have loads := inSync
  rw [Machine.InSync, inSync.eq_sealed] at loads
  have found' := read_eq_some_of_loadTable loads
  rw [found] at found'
  exact (Option.some.inj found').symm

/-- Power is lost in the first copy: the second one comes into force. -/
theorem Holds.lostFirst
    (holds : Holds m first second)
    {index : Fin 4}
    (performs :
      Performs (m.enter app) (areaErase index) (some next)
        (callResult device app call m))
    (scrambled : Memory) :
    TornFails (firstCut next)
        (commandsSent (syscallHandler device call) (m.enter app))
        m.flash.memory ∧
      ∃ m',
        (PowerEvent.loss app call (firstCut next) scrambled).step
            device m =
          some m' ∧
        m'.table = second ∧
        m'.flash.memory =
          (firstCut next).run (areaErase index ++ tableCommands next.sealed)
            m.flash.memory := by
  have length := length_areaErase index
  have confined := confined_areaErase_outside index
  have fails :
      TornFails (firstCut next)
        (commandsSent (syscallHandler device call) (m.enter app))
        m.flash.memory := by
    rw [performs.commandsSent]
    exact tornFails_firstCut length confined _
  obtain ⟨m', booted, inSync, memory, copies⟩ :=
    holds.lost performs confined (Nat.le_of_eq length) fails scrambled
  refine ⟨fails, m', booted, inSync.table_of_read ?_, memory⟩
  rw [copies, length, progress_firstCut]
  rfl

/-- The write of the other app stays inside of the first area. -/
theorem confined_samplePage :
    Confined
      (pages 256 (areaStart 0) (read (App.sample 4).ram 0x40000000 1))
      (InStorage 0) :=
  @confined_pages (areaStart 0) 0 _ (by decide)

theorem run_samplePage (memory : Memory) :
    run (pages 256 (areaStart 0) (read (App.sample 4).ram 0x40000000 1))
        memory (areaStart 0) =
      0 := by
  have positive : 0 < 256 := by decide
  have inBounds :
      0 < (read (App.sample 4).ram 0x40000000 1).length := by decide
  have cell :=
    runCell_pages positive (areaStart 0)
      (read (App.sample 4).ram 0x40000000 1) (areaStart 0 + 0)
      (memory (areaStart 0))
  rw [cell_program_inside inBounds] at cell
  exact cell.trans UInt8.and_zero

/-- An interrupted allocation of the second area keeps the first one. -/
theorem firstCut_keeps_firstArea (next : PartitionTable) (memory : Memory) :
    (firstCut next).run (areaErase 1 ++ tableCommands next.sealed) memory
        (areaStart 0) =
      memory (areaStart 0) := by
  have inFirst : InStorage 0 (areaStart 0) :=
    ⟨Nat.le_refl _, by omega⟩
  have update := avoids_updateCommands (some next) inFirst
  rw [updateCommands] at update
  rw [Cut.run_append_of_avoids update]
  apply Cut.run_of_avoids
  intro command started touches
  have inSecond :=
    confined_areaErase 1 command (Cut.mem_of_started started) _ touches
  exact absurd (inFirst.unique inSecond) (by decide)

/-- The runs of the sample apps. -/
def SampleRun : List PowerEvent → Machine → Prop :=
  PowerRun .sample (fun m event => event.Allowed .sample App.samples m)
    (Machine.provisioned .sample)

theorem SampleRun.start : SampleRun [] (Machine.provisioned .sample) :=
  PowerRun.start

theorem SampleRun.calls
    {events : List PowerEvent}
    (earlier : SampleRun events m)
    (storageCall : StorageCall App.samples app call) :
    SampleRun (events ++ [.call app call])
      (Action.step .sample m (.call app call)) :=
  PowerRun.step _ earlier storageCall rfl

theorem SampleRun.loses
    {events : List PowerEvent} {m' : Machine} {cut : Cut}
    {scrambled : Memory}
    (earlier : SampleRun events m)
    (storageCall : StorageCall App.samples app call)
    (fails :
      TornFails cut
        (commandsSent (syscallHandler .sample call) (m.enter app))
        m.flash.memory)
    (booted :
      (PowerEvent.loss app call cut scrambled).step .sample m = some m') :
    SampleRun (events ++ [.loss app call cut scrambled]) m' :=
  PowerRun.step _ earlier ⟨storageCall, fails⟩ booted

/-- The run brings the first app back into an area that the other wrote. -/
theorem stale_run :
    ∃ m,
      SampleRun staleEvents m ∧
        m.table = .ownedBy (.sample 3) ∧
        m.flash.memory (areaStart 0) = 0 := by
  -- the first app allocates an area, then frees it
  have allocated :=
    holds_provisioned.updated (holds_provisioned.allocatesFirst (.sample 3))
  have frees := allocated.deallocates (ownedArea_ownedBy (.sample 3))
  rw [ownedBy_setArea_freeArea] at frees
  obtain ⟨failsFree, m₂, bootedFree, freed⟩ :=
    allocated.lostBetween frees fun _ => 0
  -- the other app gets the area, with the second copy still behind
  obtain ⟨failsTaken, m₃, bootedTaken, taken⟩ :=
    freed.lostBetween (freed.allocatesFirst (.sample 4)) fun _ => 0
  obtain ⟨written, content⟩ :=
    taken.edited (taken.writes (ownedArea_ownedBy (.sample 4)))
      (confined_samplePage.mono
        fun _ inStorage => not_inTable_of_inStorage inStorage)
  obtain ⟨failsLast, m₅, bootedLast, table, memory⟩ :=
    written.lostFirst
      (written.allocates
        (allocation_ownedBy (.inr rfl) (.inl rfl) (by decide)))
      fun _ => 0
  refine ⟨m₅, ?_, table, ?_⟩
  · have three : (App.sample 3).cdi ∈ App.samples := .inl rfl
    have four : (App.sample 4).cdi ∈ App.samples := .inr rfl
    have alloc : SyscallNum.allocArea.IsStorage := trivial
    have dealloc : SyscallNum.deallocArea.IsStorage := trivial
    have write : SyscallNum.writeData.IsStorage := trivial
    exact
      SampleRun.start.calls (storageCall_plain three alloc)
        |>.loses (storageCall_plain three dealloc) failsFree bootedFree
        |>.loses (storageCall_plain four alloc) failsTaken bootedTaken
        |>.calls (storageCall_access four write)
        |>.loses (storageCall_plain three alloc) failsLast bootedLast
  · rw [memory, firstCut_keeps_firstArea, content]
    exact run_samplePage _

/-- An app that owns an area reads its first byte. -/
theorem readData_access
    {index : Fin 4}
    (owned : ownedArea m.table app.cdi = some index) :
    ∃ m',
      callResult device app (.access .readData) m = .ok 0 m' ∧
        m'.ram =
          write app.ram 0x40000000
            (read m.flash.memory (areaStart index) 1) := by
  have isCall :
      SyscallNum.ofWord (Call.access .readData).number =
        some .readData := rfl
  have range :
      ReadableRange (Call.access .readData).arg1
        (Call.access .readData).arg2 (Call.access .readData).arg3 := by
    decide
  rw [callResult, syscallHandler_readData isCall, Machine.table_enter,
    Machine.cdi_enter, Machine.ram_enter, owned]
  simp only
  rw [if_pos range]
  exact ⟨_, rfl, rfl⟩

/-- The events since an allocation are events of the run. -/
theorem OwnedSince.mem
    {condition : Machine → PowerEvent → Prop}
    {start : Machine}
    {cdi : Vector UInt8 32}
    {index : Fin 4}
    {events since : List PowerEvent}
    (owned : OwnedSince device condition start cdi index events since m)
    {event : PowerEvent}
    (member : event ∈ since) :
    event ∈ events := by
  induction owned with
  | allocated =>
      cases member
  | kept last earlier next owns inductionHypothesis =>
      rcases List.mem_append.mp member with before | isLast
      · exact List.mem_append_left _ (inductionHypothesis before)
      · exact List.mem_append_right _ isLast

/-- Events that keep an erased byte leave it erased. -/
theorem PowerEvent.replay_erased
    {cdi : Vector UInt8 32}
    {index : Fin 4}
    {address : Nat}
    {events : List PowerEvent}
    (keeps :
      ∀ event,
        event ∈ events →
        ∀ memory : Memory,
          memory address = 0xFF →
          event.edit cdi index memory address = 0xFF) :
    replay cdi index events address = 0xFF := by
  have fold (memory : Memory) (erased : memory address = 0xFF) :
      events.foldl (edit cdi index) memory address = 0xFF := by
    induction events generalizing memory with
    | nil =>
        exact erased
    | cons event rest inductionHypothesis =>
        apply inductionHypothesis
        · intro other member
          exact keeps other (List.mem_cons_of_mem _ member)
        · exact keeps event List.mem_cons_self memory erased
  exact fold _ rfl

/-- The first app never writes a byte. -/
theorem staleEvents_keep_erased
    {index : Fin 4}
    {event : PowerEvent}
    (member : event ∈ staleEvents)
    (memory : Memory)
    (erased : memory (areaStart index) = 0xFF) :
    event.edit (App.sample 3).cdi index memory (areaStart index) =
      0xFF := by
  have other : (App.sample 4).cdi ≠ (App.sample 3).cdi := by decide
  have silent (cut : Cut) :
      cut.run [] memory (areaStart index) = 0xFF := by
    rw [Cut.run_of_finished (Nat.zero_le _)]
    exact erased
  have finished (table : PartitionTable) :
      (betweenCut table).run (areaErase index) memory (areaStart index) =
        0xFF := by
    rw [Cut.run_of_finished (Nat.le_add_right 2 _)]
    exact run_areaErase memory ⟨Nat.le_refl _, by omega⟩
  simp only [staleEvents, List.mem_cons, List.not_mem_nil, or_false]
    at member
  rcases member with rfl | rfl | rfl | rfl | rfl
  · rw [PowerEvent.edit, if_pos rfl]
    exact erased
  · rw [PowerEvent.edit, if_pos rfl]
    exact finished .sample
  · rw [PowerEvent.edit, if_neg other]
    exact erased
  · rw [PowerEvent.edit, if_neg other]
    exact erased
  · rw [PowerEvent.edit, if_pos rfl]
    exact silent _

/--
Three power losses disclose a byte: the second copy brings an app back as the
owner of an area that another app has written to.
-/
theorem storage_secrecy_counterexample :
    Mirrored .sample (FlashChip.provisioned .sample).memory ∧
      (∀ index, ¬ PartitionTable.sample.InUse index) ∧
      ∃ m m',
        PowerRun .sample (fun m event => event.Allowed .sample App.samples m)
            ((Machine.entered (.provisioned .sample) (fun _ => 0)
              .zero).withCopy .first)
            staleEvents m ∧
          callResult .sample (.sample 3) (.access .readData) m =
            .ok 0 m' ∧
          ¬ ReadsOwnBytes .sample
              (fun m event => event.Allowed .sample App.samples m)
              ((Machine.entered (.provisioned .sample) (fun _ => 0)
                .zero).withCopy .first)
              staleEvents m (.sample 3) (.access .readData) m'.ram := by
  obtain ⟨m, run, table, content⟩ := stale_run
  have owned : ownedArea m.table (App.sample 3).cdi = some 0 := by
    rw [table]
    exact ownedArea_ownedBy _
  obtain ⟨m', returns, ram⟩ := @readData_access .sample _ _ _ owned
  refine
    ⟨mirrored_provisioned .sample, not_inUse_sample, m, m', run, returns, ?_⟩
  rintro ⟨index, since, ownedSince, own⟩
  have erased :
      PowerEvent.replay (App.sample 3).cdi index since (areaStart index) =
        0xFF :=
    PowerEvent.replay_erased fun event member =>
      staleEvents_keep_erased (ownedSince.mem member)
  have readBack (data : List UInt8) (length : data.length = 1) :
      read (write (App.sample 3).ram 0x40000000 data) 0x40000000 1 =
        data := by
    have back :=
      read_write_same (App.sample 3).ram 0x40000000 data
    rwa [length] at back
  have bytes :
      read m.flash.memory (areaStart 0) 1 =
        read (PowerEvent.replay (App.sample 3).cdi index since)
          (areaStart index) 1 := by
    have target : (Call.access .readData).arg2.toNat = 0x40000000 := rfl
    have count : (Call.access .readData).arg3.toNat = 1 := rfl
    have offset : (Call.access .readData).arg1.toNat = 0 := rfl
    rw [target, count, offset, Nat.add_zero] at own
    calc
      read m.flash.memory (areaStart 0) 1 = read m'.ram 0x40000000 1 := by
        rw [ram, readBack _ (length_read _ _ _)]
      _ = read (PowerEvent.replay (App.sample 3).cdi index since)
            (areaStart index) 1 := by
        rw [own, readBack _ (length_read _ _ _)]
  have single (memory : Memory) (first : Nat) :
      read memory first 1 = [memory first] := rfl
  rw [single, single, content, erased] at bytes
  exact absurd bytes (by decide)

/-- An app keeps its area when another one gets the second. -/
theorem ownedArea_shared
    {owner other : App}
    (member : owner.cdi ∈ App.samples)
    (otherMember : other.cdi ∈ App.samples)
    (different : other.cdi ≠ owner.cdi) :
    ownedArea
        ((PartitionTable.ownedBy owner).setArea 1
          (allocatedArea other.cdi plainWords))
        owner.cdi =
      some 0 := by
  have free : PartitionTable.sample.Isolated App.samples :=
    .of_free not_inUse_sample
  have alone : (PartitionTable.ownedBy owner).Isolated App.samples :=
    free.setArea_allocatedArea member collisionFree_samples
      (allocation_eq_some
        (allocation_of_free not_inUse_sample owner.cdi)).1 0
  have shared :=
    alone.setArea_allocatedArea otherMember collisionFree_samples
      (allocation_eq_some
        (allocation_ownedBy member otherMember different)).1 1
  have owns :=
    (owns_setArea_ne (PartitionTable.ownedBy owner)
      (show (0 : Fin 4) ≠ 1 by decide)
      (allocatedArea other.cdi plainWords) owner.cdi).mpr
      (owns_of_ownedArea (ownedArea_ownedBy owner))
  exact
    ownedArea_eq_some owns fun index ownsAlso =>
      shared.oneArea _ member index 0 ownsAlso owns

/--
An app allocates an area and writes to it; then power is lost while another app
allocates an area.
-/
def sharedEvents : List PowerEvent :=
  [.call (.sample 3) (.plain .allocArea),
    .call (.sample 3) (.access .writeData),
    .loss (.sample 4) (.plain .allocArea)
      (betweenCut
        ((PartitionTable.ownedBy (.sample 3)).setArea 1
          (allocatedArea (App.sample 4).cdi plainWords)))
      fun _ => 0]

/-- The first app reads what it has written. -/
theorem storage_secrecy_sample :
    ∃ m m',
      callResult .sample (.sample 3) (.access .readData) m = .ok 0 m' ∧
        ReadsOwnBytes .sample
          (fun m event =>
            event.Allowed .sample App.samples m ∧ event.KeepsUp .sample m)
          ((Machine.entered (.provisioned .sample) (fun _ => 0)
            .zero).withCopy .first)
          sharedEvents m (.sample 3) (.access .readData) m'.ram := by
  have three : (App.sample 3).cdi ∈ App.samples := .inl rfl
  have four : (App.sample 4).cdi ∈ App.samples := .inr rfl
  have different : (App.sample 4).cdi ≠ (App.sample 3).cdi := by decide
  have allocated :=
    holds_provisioned.updated (holds_provisioned.allocatesFirst (.sample 3))
  obtain ⟨written, _⟩ :=
    allocated.edited (allocated.writes (ownedArea_ownedBy (.sample 3)))
      (confined_samplePage.mono
        fun _ inStorage => not_inTable_of_inStorage inStorage)
  have allocates :=
    written.allocates (allocation_ownedBy three four different)
  obtain ⟨fails, m, booted, lost⟩ := written.lostBetween allocates fun _ => 0
  have keepsUp := allocates.keepsUp_between fun _ => 0
  have run :
      PowerRun .sample
        (fun m event =>
          event.Allowed .sample App.samples m ∧ event.KeepsUp .sample m)
        ((Machine.entered (.provisioned .sample) (fun _ => 0)
          .zero).withCopy .first)
        sharedEvents m :=
    PowerRun.start
      |>.step _ ⟨storageCall_plain three trivial, trivial⟩ rfl
      |>.step _ ⟨storageCall_access three trivial, trivial⟩ rfl
      |>.step _
        ⟨⟨storageCall_plain four trivial, fails⟩, keepsUp⟩ booted
  have owned : ownedArea m.table (App.sample 3).cdi = some 0 := by
    rw [lost.table]
    exact ownedArea_shared three four different
  obtain ⟨m', returns, _⟩ := @readData_access .sample _ _ _ owned
  exact
    ⟨m, m', returns,
      storage_secrecy (mirrored_provisioned .sample) not_inUse_sample run
        three rfl returns⟩

end StaleCopy

end TKey
