import TKey.Lib.MirroredRecord
import TKey.Session

namespace TKey

open ByteMemory NorFlash MirroredRecord

/-!
# Power loss

Power can be lost between or inside the flash commands of a firmware function.
A table copy that was started and not finished is torn.  The partition table
is a mirrored record, so the progress of a table update decides what a boot
finds.
-/

section Loss

/-- The flash commands that a firmware function sends. -/
def commandsSent {α : Type} (program : Fw α) (m : Machine) :
    List Command :=
  (resultMachine (program.run m)).flash.sent.drop m.flash.sent.length

/-- The chip when the power is lost during a firmware function. -/
def chipAfterLoss
    {α : Type}
    (program : Fw α)
    (cut : Cut)
    (m : Machine) : FlashChip where
  memory := cut.run (commandsSent program m) m.flash.memory
  writeEnabled := false
  sent := m.flash.sent ++ cut.started (commandsSent program m)

theorem commandsSent_of_after
    {α : Type}
    {program : Fw α}
    {m : Machine}
    {commands : List Command}
    (after :
      FlashChip.After commands m.flash
        (resultMachine (program.run m)).flash) :
    commandsSent program m = commands := by
  rw [commandsSent, after.2, List.drop_left]

/-- Some command works on the sector of a copy of the table. -/
def Reaches (commands : List Command) (copy : TableCopy) : Prop :=
  ∃ command,
    command ∈ commands ∧
      ∃ address, InTable copy address ∧ command.Touches address

/-- A copy of the table was started and not finished. -/
def Torn
    (cut : Cut)
    (commands : List Command)
    (copy : TableCopy) : Prop :=
  Reaches (cut.started commands) copy ∧
    Reaches (cut.unfinished commands) copy

/-- No torn copy verifies. -/
def TornFails
    (cut : Cut)
    (commands : List Command)
    (memory : Memory) : Prop :=
  ∀ copy,
    Torn cut commands copy →
    ¬ (loadCopy (cut.run commands memory) copy).Verified

end Loss

section Mirror

/-- The table that a copy holds, if it verifies. -/
def verifiedTable
    (copy : TableCopy)
    (memory : Memory) : Option PartitionTable :=
  if (loadCopy memory copy).Verified then
    some (loadCopy memory copy).table
  else
    none

theorem verifiedTable_of_sealed
    {copy : TableCopy}
    {memory : Memory}
    {table : PartitionTable}
    (loaded : loadCopy memory copy = table.sealed) :
    verifiedTable copy memory = some table := by
  rw [verifiedTable, loaded, if_pos table.sealed_verified]
  rfl

theorem verifiedTable_eq_none_iff
    {copy : TableCopy}
    {memory : Memory} :
    verifiedTable copy memory = none ↔
      ¬ (loadCopy memory copy).Verified := by
  simp [verifiedTable]

/-- An interrupted rewrite of one copy keeps the other. -/
theorem loadCopy_cut_copyCommands_other
    {copy other : TableCopy}
    (different : other ≠ copy)
    (storage : PartitionTableStorage)
    (cut : Cut)
    (memory : Memory) :
    loadCopy (cut.run (copyCommands copy storage) memory) other =
      loadCopy memory other := by
  apply loadCopy_congr
  intro address low high
  apply Cut.run_of_avoids
  intro command member
  apply
    (within_copyCommands copy storage).avoids _ command
      (Cut.mem_of_started member)
  cases copy <;> cases other <;>
    simp_all [TableCopy.address] <;>
    omega

/-- The partition table as a mirrored record. -/
def tableMirror : Mirror PartitionTable where
  loadFirst := verifiedTable .first
  loadSecond := verifiedTable .second
  writeFirst table := copyCommands .first table.sealed
  writeSecond table := copyCommands .second table.sealed
  first_written table memory :=
    verifiedTable_of_sealed
      (loadCopy_run_copyCommands .first table.sealed memory)
  second_written table memory :=
    verifiedTable_of_sealed
      (loadCopy_run_copyCommands .second table.sealed memory)
  second_kept table cut memory := by
    rw [verifiedTable,
      loadCopy_cut_copyCommands_other (by decide) table.sealed cut memory]
    rfl
  first_kept table cut memory := by
    rw [verifiedTable,
      loadCopy_cut_copyCommands_other (by decide) table.sealed cut memory]
    rfl

theorem tableMirror_loadFirst :
    tableMirror.loadFirst = verifiedTable .first := by
  simp only [tableMirror]

theorem tableMirror_loadSecond :
    tableMirror.loadSecond = verifiedTable .second := by
  simp only [tableMirror]

theorem tableMirror_writeFirst (table : PartitionTable) :
    tableMirror.writeFirst table = copyCommands .first table.sealed := by
  simp only [tableMirror]

theorem tableMirror_writeSecond (table : PartitionTable) :
    tableMirror.writeSecond table = copyCommands .second table.sealed := by
  simp only [tableMirror]

theorem tableMirror_commands (table : PartitionTable) :
    tableMirror.commands table = tableCommands table.sealed := by
  rw [Mirror.commands, tableMirror_writeFirst, tableMirror_writeSecond,
    tableCommands]

/-- A boot loads what a reader of the mirrored record gets. -/
theorem loadTable_eq_read (memory : Memory) :
    loadTable memory =
      (tableMirror.copies memory).read.map PartitionTable.sealed := by
  simp only [loadTable, usableCopy, Mirror.copies, Copies.read,
    tableMirror, verifiedTable]
  split
  · rename_i firstGood
    simp [PartitionTableStorage.eq_sealed_of_verified firstGood |>.symm]
  · split
    · rename_i secondGood
      simp [PartitionTableStorage.eq_sealed_of_verified secondGood |>.symm]
    · rfl

/-- Every command of a rewrite works on the sector of its copy. -/
theorem reaches_of_mem_copyCommands
    {copy : TableCopy}
    {storage : PartitionTableStorage}
    {command : Command}
    (member : command ∈ copyCommands copy storage) :
    ∃ address, InTable copy address ∧ command.Touches address := by
  have bounds := within_copyCommands copy storage command member
  have nonempty : 0 < command.size := by
    rcases List.mem_cons.mp member with isErase | inPages
    · rw [isErase]
      exact (by decide : 0 < 4096)
    · obtain ⟨count, bound, rfl⟩ := mem_pages (by decide) inPages
      simp only [Command.size, List.length_take, List.length_drop]
      omega
  refine ⟨command.first, ⟨bounds.1, ?_⟩, Nat.le_refl _, ?_⟩
  · omega
  · omega

/-- A rewrite of a copy that was started and not finished tears it. -/
private theorem torn_of_inside
    {copy : TableCopy}
    {storage : PartitionTableStorage}
    {cut : Cut}
    (rest : List Command)
    (inside : cut.done < (copyCommands copy storage).length)
    (begun : ¬ (cut.done = 0 ∧ cut.torn = false)) :
    Torn cut (copyCommands copy storage ++ rest) copy := by
  have early : 0 < cut.done + cut.torn.toNat := by
    cases isTorn : cut.torn with
    | true =>
        simp
    | false =>
        simp only [isTorn, and_true] at begun
        simp only [Bool.toNat_false]
        omega
  constructor
  · have member :
        sectorCommand copy.address ∈ copyCommands copy storage :=
      List.mem_cons_self
    obtain ⟨address, inTable, touches⟩ :=
      reaches_of_mem_copyCommands member
    exact
      ⟨sectorCommand copy.address, Cut.mem_started_of_lt early rfl,
        address, inTable, touches⟩
  · have atCut :
        (copyCommands copy storage ++ rest)[cut.done]? =
          some ((copyCommands copy storage).get ⟨cut.done, inside⟩) := by
      rw [List.getElem?_append_left inside, List.getElem?_eq_getElem inside]
      rfl
    obtain ⟨address, inTable, touches⟩ :=
      reaches_of_mem_copyCommands
        (List.get_mem (copyCommands copy storage) ⟨cut.done, inside⟩)
    exact
      ⟨_, Cut.mem_unfinished_of_le (Nat.le_refl _) atCut,
        address, inTable, touches⟩

/-- Being torn does not depend on what was finished before. -/
theorem Torn.of_later
    {cut : Cut}
    {earlier rest : List Command}
    {copy : TableCopy}
    (behind : earlier.length ≤ cut.done)
    (torn : Torn (cut.later earlier.length) rest copy) :
    Torn cut (earlier ++ rest) copy := by
  obtain ⟨⟨command, member, reaches⟩, unfinished⟩ := torn
  rw [Torn, Cut.started_append behind, Cut.unfinished_append behind]
  exact
    ⟨⟨command, List.mem_append_right _ member, reaches⟩, unfinished⟩

/-- A copy that the progress of an update leaves torn is torn. -/
theorem torn_of_progress
    {table : PartitionTable}
    {cut : Cut} :
    (tableMirror.progress table cut = .tornFirst →
        Torn cut (tableCommands table.sealed) .first) ∧
      (tableMirror.progress table cut = .tornSecond →
        Torn cut (tableCommands table.sealed) .second) := by
  rw [Mirror.progress_eq_tornFirst_iff, Mirror.progress_eq_tornSecond_iff,
    tableMirror_writeFirst, tableMirror_writeSecond, tableCommands]
  constructor
  · rintro ⟨inside, begun⟩
    exact torn_of_inside _ inside begun
  · rintro ⟨behind, inside, begun⟩
    have torn :=
      torn_of_inside [] inside (Cut.later_begun behind begun)
    rw [List.append_nil] at torn
    exact Torn.of_later behind torn

/-- An update whose torn copies fail is as a mirrored record expects. -/
theorem tornUnreadable_of_tornFails
    {table : PartitionTable}
    {cut : Cut}
    {memory : Memory}
    (fails : TornFails cut (tableCommands table.sealed) memory) :
    tableMirror.TornUnreadable table cut memory := by
  constructor
  · intro isTorn
    rw [tableMirror_loadFirst, tableMirror_commands,
      verifiedTable_eq_none_iff]
    exact fails .first (torn_of_progress.1 isTorn)
  · intro isTorn
    rw [tableMirror_loadSecond, tableMirror_commands,
      verifiedTable_eq_none_iff]
    exact fails .second (torn_of_progress.2 isTorn)

/-- Both copies hold the same table. -/
def Mirrored (table : PartitionTable) (memory : Memory) : Prop :=
  ∀ copy, loadCopy memory copy = table.sealed

theorem Mirrored.copies
    {table : PartitionTable}
    {memory : Memory}
    (mirrored : Mirrored table memory) :
    tableMirror.copies memory = Copies.both table := by
  rw [Mirror.copies, tableMirror_loadFirst, tableMirror_loadSecond,
    verifiedTable_of_sealed (mirrored .first),
    verifiedTable_of_sealed (mirrored .second)]
  rfl

end Mirror

end TKey
