import TKey.PowerLoss

namespace TKey

open ByteMemory NorFlash MirroredRecord

/-!
# The partition table across power losses

A run of table updates, some of them interrupted by a power loss and followed
by a boot.  A boot does not repair a copy that it finds damaged, and every
update starts with the first copy, so an update that is interrupted there while
the second copy is damaged leaves no copy at all.
-/

section Updates

/-- The machine with another table in `FW_RAM`, to be written. -/
def Machine.withTable (table : PartitionTable) (m : Machine) : Machine :=
  { m with
    partTableStorage := { m.partTableStorage with table := table } }

/-- An update of the table. -/
inductive TableUpdate where
  | completed (table : PartitionTable)
  /-- The power is lost; a boot scrambles app RAM and reads the table. -/
  | interrupted
      (table : PartitionTable)
      (cut : Cut)
      (scrambled : Memory)

namespace TableUpdate

/-- The machine after an update, or after the boot that follows it. -/
def step (m : Machine) : TableUpdate → Machine
  | .completed table =>
      resultMachine (partTableWrite.run (m.withTable table))
  | .interrupted table cut scrambled =>
      resultMachine
        (partTableRead.run
          (Machine.entered
            (chipAfterLoss partTableWrite cut (m.withTable table))
            scrambled m.resetinfo))

def run (m : Machine) (updates : List TableUpdate) : Machine :=
  updates.foldl step m

theorem run_append_singleton
    (m : Machine)
    (earlier : List TableUpdate)
    (update : TableUpdate) :
    run m (earlier ++ [update]) = step (run m earlier) update := by
  simp [run, List.foldl_append]

/-- What may be read after an update. -/
def record
    (ledger : Ledger PartitionTable) :
    TableUpdate → Ledger PartitionTable
  | .completed table => { completed := table, interrupted := none }
  | .interrupted table _ _ => { ledger with interrupted := some table }

/-- What may be read after a sequence of updates of a table. -/
def ledger
    (table : PartitionTable)
    (updates : List TableUpdate) : Ledger PartitionTable :=
  updates.foldl record (Ledger.initial table)

theorem ledger_append_singleton
    (table : PartitionTable)
    (earlier : List TableUpdate)
    (update : TableUpdate) :
    ledger table (earlier ++ [update]) =
      record (ledger table earlier) update := by
  simp [ledger, List.foldl_append]

/--
The power is lost between or inside the commands of an update, and a torn copy
does not verify.
-/
def Realistic (m : Machine) : TableUpdate → Prop
  | .completed _ => True
  | .interrupted table cut _ =>
      let commands := commandsSent partTableWrite (m.withTable table)
      cut.started commands ≠ [] ∧
        cut.unfinished commands ≠ [] ∧
        TornFails cut commands m.flash.memory

/-- The first copy is torn while the second does not verify. -/
def TearsLastCopy (m : Machine) : TableUpdate → Prop
  | .completed _ => False
  | .interrupted table cut _ =>
      Torn cut (commandsSent partTableWrite (m.withTable table)) .first ∧
        ¬ (loadCopy m.flash.memory .second).Verified

end TableUpdate

/-- `part_table_read` succeeds with a table that the ledger allows. -/
def ReadsBack (m : Machine) (ledger : Ledger PartitionTable) : Prop :=
  ∃ m', partTableRead.run m = .ok 0 m' ∧ ledger.Allows m'.table

end Updates

section Refinement

/-- Reading the table reads the mirrored record. -/
theorem readsBack_iff (m : Machine) (ledger : Ledger PartitionTable) :
    ReadsBack m ledger ↔
      ReadsRight (tableMirror.copies m.flash.memory) ledger := by
  have loaded := loadTable_eq_read m.flash.memory
  have result := partTableRead_usable m
  rw [loadTable] at loaded
  cases usable : usableCopy m.flash.memory with
  | none =>
      rw [usable] at loaded result
      have unreadable :
          (tableMirror.copies m.flash.memory).read = none :=
        Option.map_eq_none_iff.mp loaded.symm
      constructor
      · rintro ⟨m', succeeds, _⟩
        rw [result] at succeeds
        cases succeeds
      · rintro ⟨value, found, _⟩
        rw [unreadable] at found
        cases found
  | some copy =>
      rw [usable, Option.map_some] at loaded
      rw [usable] at result
      obtain ⟨table, found, isSealed⟩ :=
        Option.map_eq_some_iff.mp loaded.symm
      have sameTable : (m.withCopy copy).table = table := by
        have tables := congrArg PartitionTableStorage.table isSealed
        exact tables.symm
      constructor
      · rintro ⟨m', succeeds, allows⟩
        rw [result] at succeeds
        cases succeeds
        exact ⟨table, found, sameTable ▸ allows⟩
      · rintro ⟨value, found', allows⟩
        rw [found] at found'
        cases found'
        exact ⟨m.withCopy copy, result, sameTable ▸ allows⟩

/-- Writing the table performs the commands of an update. -/
theorem resultMachine_partTableWrite
    (table : PartitionTable)
    (m : Machine) :
    FlashChip.After (tableCommands table.sealed) m.flash
      (resultMachine (partTableWrite.run (m.withTable table))).flash := by
  rw [partTableWrite_run]
  exact ⟨rfl, rfl⟩

/-- The commands of `part_table_write`. -/
theorem commandsSent_partTableWrite
    (table : PartitionTable)
    (m : Machine) :
    commandsSent partTableWrite (m.withTable table) =
      tableCommands table.sealed :=
  commandsSent_of_after (resultMachine_partTableWrite table m)

/-- Reading the table does not change flash. -/
theorem flash_partTableRead (m : Machine) :
    (resultMachine (partTableRead.run m)).flash = m.flash := by
  rw [partTableRead_usable]
  cases usableCopy m.flash.memory with
  | none =>
      exact m.flash_withoutCopy
  | some copy =>
      exact m.flash_withCopy copy

/-- The first copy is torn exactly when the progress of the update says so. -/
theorem torn_first_iff {table : PartitionTable} {cut : Cut} :
    Torn cut (tableCommands table.sealed) .first ↔
      tableMirror.progress table cut = .tornFirst := by
  constructor
  · rintro ⟨⟨_, begun, _⟩, command, unfinished, address, inTable, touches⟩
    rw [Mirror.progress_eq_tornFirst_iff, tableMirror_writeFirst]
    constructor
    · by_contra behind
      rw [tableCommands,
        Cut.unfinished_append (Nat.le_of_not_lt behind)] at unfinished
      have bounds :=
        within_copyCommands .second table.sealed command
          (List.mem_of_mem_drop unfinished)
      simp only [InTable, TableCopy.address, Command.Touches] at *
      omega
    · rintro ⟨nothing, whole⟩
      rw [Cut.started, nothing, whole] at begun
      cases begun
  · exact torn_of_progress.1

/-- The second copy is torn only when the progress of the update says so. -/
theorem progress_of_torn_second
    {table : PartitionTable}
    {cut : Cut}
    (torn : Torn cut (tableCommands table.sealed) .second) :
    tableMirror.progress table cut = .tornSecond := by
  obtain ⟨⟨command, started, address, inTable, touches⟩,
    ⟨rest, unfinished, _⟩⟩ := torn
  -- a command that has started on the second copy is none of the first
  have notFirst : command ∉ copyCommands .first table.sealed := by
    intro member
    have bounds := within_copyCommands .first table.sealed command member
    simp only [InTable, TableCopy.address, Command.Touches] at *
    omega
  rw [tableCommands] at started unfinished
  rw [Mirror.progress_eq_tornSecond_iff, tableMirror_writeFirst,
    tableMirror_writeSecond]
  have behind :
      (copyCommands .first table.sealed).length ≤ cut.done := by
    by_contra early
    apply notFirst
    have whole : cut.torn.toNat ≤ 1 := Bool.toNat_le _
    rw [Cut.started, List.take_append_of_le_length (by omega)] at started
    exact List.mem_of_mem_take started
  refine ⟨behind, ?_, ?_⟩
  · rw [Cut.unfinished_append behind] at unfinished
    by_contra late
    have nothing :
        (cut.later
            (copyCommands .first table.sealed).length).unfinished
          (copyCommands .second table.sealed) = [] :=
      List.drop_of_length_le (Nat.le_of_not_lt late)
    rw [nothing] at unfinished
    cases unfinished
  · rintro ⟨exactly, whole⟩
    apply notFirst
    rw [Cut.started, exactly, whole, Bool.toNat_false, Nat.add_zero,
      List.take_append_of_le_length (Nat.le_refl _)] at started
    exact List.mem_of_mem_take started

/-- Tearing is decided by the part of a sequence that reaches the tables. -/
theorem Torn.later
    {cut : Cut}
    {earlier rest : List Command}
    (confined :
      Confined earlier fun address => ¬ ∃ copy, InTable copy address)
    (behind : earlier.length ≤ cut.done)
    {copy : TableCopy}
    (torn : Torn cut (earlier ++ rest) copy) :
    Torn (cut.later earlier.length) rest copy := by
  obtain ⟨⟨command, started, address, inTable, touches⟩, unfinished⟩ :=
    torn
  rw [Cut.unfinished_append behind] at unfinished
  rw [Cut.started_append behind] at started
  rcases List.mem_append.mp started with inEarlier | inRest
  · exact absurd ⟨copy, inTable⟩
      (confined command inEarlier address touches)
  · exact ⟨⟨command, inRest, address, inTable, touches⟩, unfinished⟩

/-- An update that is cut off in between is neither untouched nor complete. -/
theorem progress_of_realistic
    {table : PartitionTable}
    {cut : Cut}
    (begun : cut.started (tableCommands table.sealed) ≠ [])
    (unfinished : cut.unfinished (tableCommands table.sealed) ≠ []) :
    tableMirror.progress table cut ≠ .untouched ∧
      tableMirror.progress table cut ≠ .complete := by
  constructor
  · intro untouched
    apply begun
    obtain ⟨nothing, whole⟩ :=
      Mirror.not_begun_of_untouched untouched
    rw [Cut.started, nothing, whole]
    rfl
  · intro complete
    apply unfinished
    have finished := Mirror.progress_eq_complete_iff.mp complete
    rw [tableMirror_commands] at finished
    exact List.drop_of_length_le finished

namespace TableUpdate

/-- The update as one of a mirrored record. -/
def entry : TableUpdate → PartitionTable × Progress
  | .completed table => (table, .complete)
  | .interrupted table cut _ => (table, tableMirror.progress table cut)

/-- A step updates the mirrored record. -/
theorem copies_step
    {m : Machine}
    {update : TableUpdate}
    (realistic : update.Realistic m) :
    tableMirror.copies (step m update).flash.memory =
      (tableMirror.copies m.flash.memory).update update.entry.1
        update.entry.2 := by
  cases update with
  | completed table =>
      rw [step, (resultMachine_partTableWrite table m).1,
        ← tableMirror_commands, Mirror.copies_run]
      rfl
  | interrupted table cut scrambled =>
      obtain ⟨_, _, fails⟩ := realistic
      have memory :
          (step m (.interrupted table cut scrambled)).flash.memory =
            cut.run (tableCommands table.sealed) m.flash.memory := by
        rw [step, flash_partTableRead, Machine.entered, chipAfterLoss,
          commandsSent_partTableWrite]
        rfl
      rw [commandsSent_partTableWrite] at fails
      rw [memory, ← tableMirror_commands,
        Mirror.copies_cut (tornUnreadable_of_tornFails fails)]
      rfl

/-- The ledger records what the progress of an update says. -/
theorem record_eq
    {m : Machine}
    {update : TableUpdate}
    (realistic : update.Realistic m)
    (ledger : Ledger PartitionTable) :
    record ledger update =
      ledger.record update.entry.1 update.entry.2 := by
  cases update with
  | completed table =>
      rfl
  | interrupted table cut scrambled =>
      obtain ⟨begun, unfinished, _⟩ := realistic
      rw [commandsSent_partTableWrite] at begun unfinished
      obtain ⟨notUntouched, notComplete⟩ :=
        progress_of_realistic begun unfinished
      simp only [record, entry]
      cases reached : tableMirror.progress table cut with
      | untouched =>
          exact absurd reached notUntouched
      | complete =>
          exact absurd reached notComplete
      | tornFirst =>
          rfl
      | between =>
          rfl
      | tornSecond =>
          rfl

end TableUpdate

end Refinement

section Runs

namespace TableUpdate

/-- Every update of a run is realistic in the state that it starts from. -/
def RealisticRun (start : Machine) (updates : List TableUpdate) : Prop :=
  ∀ earlier update,
    earlier ++ [update] <+: updates →
    update.Realistic (run start earlier)

/-- A run of updates is a run of the mirrored record. -/
theorem refines_run
    {table : PartitionTable}
    {start : Machine}
    (mirrored : Mirrored table start.flash.memory)
    {updates : List TableUpdate}
    (realistic : RealisticRun start updates)
    {earlier : List TableUpdate}
    (isPrefix : earlier <+: updates) :
    tableMirror.copies (run start earlier).flash.memory =
        (Copies.both table).run (earlier.map entry) ∧
      ledger table earlier =
        (Ledger.initial table).run (earlier.map entry) := by
  induction earlier using List.reverseRecOn with
  | nil =>
      exact ⟨mirrored.copies, rfl⟩
  | append_singleton earlier update inductionHypothesis =>
      obtain ⟨copies, ledgers⟩ :=
        inductionHypothesis ((List.prefix_append _ _).trans isPrefix)
      have here := realistic earlier update isPrefix
      rw [run_append_singleton, ledger_append_singleton, List.map_append,
        List.map_singleton, Copies.run_append_singleton,
        Ledger.run_append_singleton]
      exact
        ⟨by rw [copies_step here, copies],
          by rw [record_eq here, ledgers]⟩

/-- Tearing the last copy is tearing the last readable one of the record. -/
theorem tearsLastCopy_iff (m : Machine) (update : TableUpdate) :
    update.TearsLastCopy m ↔
      TearsLast (tableMirror.copies m.flash.memory) update.entry.2 := by
  cases update with
  | completed table =>
      constructor
      · exact False.elim
      · rintro ⟨torn, _⟩
        cases torn
  | interrupted table cut scrambled =>
      simp only [TearsLastCopy, commandsSent_partTableWrite,
        torn_first_iff, TearsLast, Mirror.copies, tableMirror_loadSecond,
        verifiedTable_eq_none_iff, entry]

end TableUpdate

/--
The partition table survives power losses exactly when none of them tears the
first copy while the second does not verify: then every read of the table
succeeds, with the table of the last completed or of the interrupted update.
-/
theorem table_power_loss_iff
    {table : PartitionTable}
    {start : Machine}
    (mirrored : Mirrored table start.flash.memory)
    {updates : List TableUpdate}
    (realistic : TableUpdate.RealisticRun start updates) :
    (∀ earlier,
        earlier <+: updates →
        ReadsBack (TableUpdate.run start earlier)
          (TableUpdate.ledger table earlier)) ↔
      ∀ earlier update,
        earlier ++ [update] <+: updates →
        ¬ update.TearsLastCopy (TableUpdate.run start earlier) := by
  have refines (earlier : List TableUpdate)
      (isPrefix : earlier <+: updates) :=
    TableUpdate.refines_run mirrored realistic isPrefix
  have protocol :=
    reads_right_iff table (updates.map TableUpdate.entry)
  constructor
  · intro reads earlier update isPrefix tears
    have isPrefixMap :
        earlier.map TableUpdate.entry ++ [update.entry] <+:
          updates.map TableUpdate.entry := by
      simpa using isPrefix.map TableUpdate.entry
    apply protocol.mp _ _ _ isPrefixMap
    · rw [TableUpdate.tearsLastCopy_iff,
        (refines earlier ((List.prefix_append _ _).trans isPrefix)).1]
        at tears
      exact tears
    · intro mapped mappedPrefix
      obtain ⟨prior, priorPrefix, rfl⟩ :=
        List.prefix_map_iff.mp mappedPrefix
      have right := (readsBack_iff _ _).mp (reads prior priorPrefix)
      rwa [(refines prior priorPrefix).1,
        (refines prior priorPrefix).2] at right
  · intro safe earlier isPrefix
    rw [readsBack_iff, (refines earlier isPrefix).1,
      (refines earlier isPrefix).2]
    apply protocol.mpr _ _ (isPrefix.map TableUpdate.entry)
    intro mapped step mappedPrefix tears
    obtain ⟨prior, priorPrefix, isMapped⟩ :=
      List.prefix_map_iff.mp mappedPrefix
    obtain ⟨first, last, rfl, rfl, isLast⟩ :=
      List.append_eq_map_iff.mp isMapped
    obtain ⟨update, rfl, rfl⟩ := List.map_eq_singleton_iff.mp isLast
    apply safe first update priorPrefix
    rw [TableUpdate.tearsLastCopy_iff,
      (refines first ((List.prefix_append _ _).trans priorPrefix)).1]
    exact tears

/-- A table whose checksum was disturbed. -/
def PartitionTable.damaged (table : PartitionTable) :
    PartitionTableStorage where
  table := table
  checksum := (tableDigest table).set 0 ((tableDigest table)[0] + 1)

theorem PartitionTable.damaged_not_verified (table : PartitionTable) :
    ¬ table.damaged.Verified := by
  intro verified
  have entry :=
    congrArg (fun digest : Vector UInt8 32 => digest[0]) verified
  simp [PartitionTable.damaged] at entry

/-- The power is lost while a copy of a table is erased, which damages it. -/
def damagingCut (copy : TableCopy) (table : PartitionTable) : Cut where
  done :=
    match copy with
    | .first => 0
    | .second => (copyCommands .first table.sealed).length
  torn := true
  noise :=
    write (fun _ => 0xFF) copy.address
      (PartitionTableStorage.layout table.damaged).toList

theorem done_damagingCut_second (table : PartitionTable) :
    (damagingCut .second table).done =
      (copyCommands .first table.sealed).length := by
  simp only [damagingCut]

theorem torn_damagingCut (copy : TableCopy) (table : PartitionTable) :
    (damagingCut copy table).torn = true := by
  cases copy <;> simp only [damagingCut]

/-- The command that the power loss hits. -/
private theorem command_damagingCut
    (copy : TableCopy)
    (table : PartitionTable) :
    (tableCommands table.sealed)[(damagingCut copy table).done]? =
      some (sectorCommand copy.address) := by
  cases copy with
  | first =>
      rfl
  | second =>
      rw [tableCommands, damagingCut,
        List.getElem?_append_right (Nat.le_refl _), Nat.sub_self]
      rfl

/-- A copy is known once each of its bytes is. -/
theorem loadCopy_eq_of_bytes
    {memory : Memory}
    {copy : TableCopy}
    {storage : PartitionTableStorage}
    (same :
      ∀ (index : Nat)
        (inBounds :
          index < (PartitionTableStorage.layout storage).toList.length),
        memory (copy.address + index) =
          (PartitionTableStorage.layout storage).toList[index]) :
    loadCopy memory copy = storage := by
  have bytes := read_eq_of_getElem same
  rw [Vector.length_toList] at bytes
  exact loadCopy_of_read bytes

/-- The copy that was being erased is damaged. -/
theorem loadCopy_damagingCut
    (copy : TableCopy)
    (table : PartitionTable)
    (memory : Memory) :
    loadCopy
        ((damagingCut copy table).run (tableCommands table.sealed) memory)
        copy =
      table.damaged := by
  apply loadCopy_eq_of_bytes
  intro index inBounds
  have touches :
      (sectorCommand copy.address).Touches (copy.address + index) := by
    rw [Vector.length_toList, sizePartitionTableStorage] at inBounds
    cases copy <;>
      simp only [sectorCommand, Command.Touches, Command.first,
        Command.size, TableCopy.address] <;>
      omega
  have noise :
      (damagingCut copy table).noise =
        write (fun _ => 0xFF) copy.address
          (PartitionTableStorage.layout table.damaged).toList := rfl
  simp only [Cut.run, Cut.runCell, torn_damagingCut, command_damagingCut,
    if_pos touches, noise]
  exact write_inside _ inBounds

theorem length_copyCommands_pos
    (copy : TableCopy)
    (storage : PartitionTableStorage) :
    0 < (copyCommands copy storage).length := by
  simp [copyCommands]

/-- Such a power loss tears the copy that was being erased. -/
theorem progress_damagingCut (copy : TableCopy) (table : PartitionTable) :
    tableMirror.progress table (damagingCut copy table) =
      match copy with
      | .first => .tornFirst
      | .second => .tornSecond := by
  cases copy with
  | first =>
      rw [Mirror.progress_eq_tornFirst_iff, tableMirror_writeFirst,
        torn_damagingCut]
      exact ⟨length_copyCommands_pos _ _, fun begun => by cases begun.2⟩
  | second =>
      rw [Mirror.progress_eq_tornSecond_iff, tableMirror_writeFirst,
        tableMirror_writeSecond, done_damagingCut_second,
        torn_damagingCut, Nat.sub_self]
      exact
        ⟨Nat.le_refl _, length_copyCommands_pos _ _,
          fun begun => by cases begun.2⟩

/-- Such a power loss is realistic. -/
theorem realistic_damagingCut
    (copy : TableCopy)
    (table : PartitionTable)
    (scrambled : Memory)
    (m : Machine) :
    (TableUpdate.interrupted table (damagingCut copy table)
      scrambled).Realistic m := by
  rw [TableUpdate.Realistic, commandsSent_partTableWrite]
  have atCut := command_damagingCut copy table
  refine ⟨?_, ?_, ?_⟩
  · exact List.ne_nil_of_mem (Cut.mem_started_of_lt (by simp [damagingCut]) atCut)
  · exact List.ne_nil_of_mem (Cut.mem_unfinished_of_le (Nat.le_refl _) atCut)
  · intro other torn
    cases copy <;> cases other
    case first.second =>
      have reached := progress_of_torn_second torn
      rw [progress_damagingCut] at reached
      cases reached
    case second.first =>
      have reached := torn_first_iff.mp torn
      rw [progress_damagingCut] at reached
      cases reached
    all_goals
      rw [loadCopy_damagingCut]
      exact table.damaged_not_verified

/-- Two updates, cut off in the second copy and then in the first. -/
def twoLosses : List TableUpdate :=
  [.interrupted .sample (damagingCut .second .sample) fun _ => 0,
    .interrupted .sample (damagingCut .first .sample) fun _ => 0]

/-- The updates of the two losses are realistic in every state. -/
theorem realistic_twoLosses (start : Machine) :
    TableUpdate.RealisticRun start twoLosses := by
  intro earlier update isPrefix
  have member : update ∈ twoLosses :=
    isPrefix.subset (by simp)
  simp only [twoLosses, List.mem_cons, List.not_mem_nil, or_false]
    at member
  rcases member with rfl | rfl
  · exact realistic_damagingCut _ _ _ _
  · exact realistic_damagingCut _ _ _ _

theorem mirrored_provisioned (table : PartitionTable) :
    Mirrored table (Machine.provisioned table).flash.memory := by
  intro copy
  rw [Machine.provisioned, Machine.flash_withCopy, Machine.entered]
  exact loadCopy_provisioned table copy

/-- The condition at work on a run that tears both copies. -/
theorem table_power_loss_iff_sample :
    (∀ earlier,
        earlier <+: twoLosses →
        ReadsBack
          (TableUpdate.run (Machine.provisioned .sample) earlier)
          (TableUpdate.ledger .sample earlier)) ↔
      ∀ earlier update,
        earlier ++ [update] <+: twoLosses →
        ¬ update.TearsLastCopy
          (TableUpdate.run (Machine.provisioned .sample) earlier) :=
  table_power_loss_iff (mirrored_provisioned .sample)
    (realistic_twoLosses _)

/-- After two power losses no copy of the table can be read. -/
theorem table_power_loss_counterexample :
    Mirrored .sample (Machine.provisioned .sample).flash.memory ∧
      TableUpdate.RealisticRun (Machine.provisioned .sample) twoLosses ∧
      ¬ ReadsBack
          (TableUpdate.run (Machine.provisioned .sample) twoLosses)
          (TableUpdate.ledger .sample twoLosses) := by
  refine ⟨mirrored_provisioned .sample, realistic_twoLosses _, ?_⟩
  have refines :=
    TableUpdate.refines_run (mirrored_provisioned .sample)
      (realistic_twoLosses _) (List.prefix_refl twoLosses)
  rw [readsBack_iff, refines.1]
  rintro ⟨value, found, _⟩
  simp [twoLosses, TableUpdate.entry, progress_damagingCut, Copies.run,
    Copies.update, Copies.read] at found

end Runs

end TKey
