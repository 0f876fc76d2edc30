import Mathlib.Data.List.TakeDrop
import Mathlib.Data.List.Induction
import TKey.Lib.ByteMemory

namespace NorFlash

/-!
# NOR flash

A NOR flash is changed by two kinds of commands: an erase sets every bit of a
range, a program can only clear bits.  Every command acts on each cell
separately, so the contents after a command sequence are computed cell by cell
and the lemmas need no reasoning about whole memories.

A power loss stops a command sequence after some commands were completed and
possibly inside the next one, whose cells are then left with arbitrary bytes.
-/

open ByteMemory

/-- The commands that change the memory array. -/
inductive Command where
  | erase (first count : Nat)
  | program (first : Nat) (data : List UInt8)
  deriving Repr, DecidableEq

namespace Command

/-- The first address a command works on. -/
def first : Command → Nat
  | .erase first _ => first
  | .program first _ => first

/-- The number of cells a command works on. -/
def size : Command → Nat
  | .erase _ count => count
  | .program _ data => data.length

/-- A command touches the cells of its contiguous range. -/
def Touches (command : Command) (address : Nat) : Prop :=
  command.first ≤ address ∧ address < command.first + command.size

instance (command : Command) (address : Nat) :
    Decidable (command.Touches address) :=
  inferInstanceAs (Decidable (_ ∧ _))

/-- The byte a command leaves in the cell at `address`. -/
def cell (command : Command) (address : Nat) (old : UInt8) : UInt8 :=
  match command with
  | .erase first count =>
      if first ≤ address ∧ address < first + count then 0xFF else old
  | .program first data =>
      if inside : first ≤ address ∧ address - first < data.length then
        old &&& data.get ⟨address - first, inside.2⟩
      else
        old

/-- A command leaves the cells outside its range alone. -/
theorem cell_outside
    {command : Command}
    {address : Nat}
    (outside : ¬ command.Touches address)
    (old : UInt8) :
    command.cell address old = old := by
  cases command with
  | erase first count =>
      simp only [cell]
      exact if_neg outside
  | program first data =>
      simp only [cell]
      apply dif_neg
      intro inside
      apply outside
      simp only [Touches, Command.first, size]
      omega

end Command

/-- The byte that a command sequence leaves in the cell at `address`. -/
def runCell
    (commands : List Command)
    (address : Nat)
    (old : UInt8) : UInt8 :=
  commands.foldl (fun byte command => command.cell address byte) old

/-- The memory after a command sequence. -/
def run (commands : List Command) (memory : Memory) : Memory :=
  fun address => runCell commands address (memory address)

@[simp] theorem run_nil (memory : Memory) :
    run [] memory = memory :=
  rfl

@[simp] theorem runCell_cons
    (command : Command)
    (rest : List Command)
    (address : Nat)
    (old : UInt8) :
    runCell (command :: rest) address old =
      runCell rest address (command.cell address old) :=
  rfl

theorem runCell_append
    (earlier later : List Command)
    (address : Nat)
    (old : UInt8) :
    runCell (earlier ++ later) address old =
      runCell later address (runCell earlier address old) := by
  simp [runCell, List.foldl_append]

theorem run_append
    (earlier later : List Command)
    (memory : Memory) :
    run (earlier ++ later) memory = run later (run earlier memory) := by
  funext address
  exact runCell_append earlier later address (memory address)

/-- No command of the sequence touches the cell. -/
def Avoids (commands : List Command) (address : Nat) : Prop :=
  ∀ command, command ∈ commands → ¬ command.Touches address

/-- A cell that no command touches keeps its byte. -/
theorem runCell_of_avoids
    {commands : List Command}
    {address : Nat}
    (avoids : Avoids commands address)
    (old : UInt8) :
    runCell commands address old = old := by
  induction commands generalizing old with
  | nil =>
      rfl
  | cons command rest inductionHypothesis =>
      rw [runCell_cons,
        Command.cell_outside (avoids command (by simp))]
      exact inductionHypothesis
        (fun later member => avoids later (by simp [member])) old

/-- A memory cell that no command touches keeps its byte. -/
theorem run_of_avoids
    {commands : List Command}
    {address : Nat}
    (avoids : Avoids commands address)
    (memory : Memory) :
    run commands memory address = memory address :=
  runCell_of_avoids avoids (memory address)

/-- Every command works inside one range of addresses. -/
def Within (commands : List Command) (first count : Nat) : Prop :=
  ∀ command,
    command ∈ commands →
    first ≤ command.first ∧
      command.first + command.size ≤ first + count

/-- Commands that work inside a range leave every cell outside it alone. -/
theorem Within.avoids
    {commands : List Command}
    {first count address : Nat}
    (within : Within commands first count)
    (outside : address < first ∨ first + count ≤ address) :
    Avoids commands address := by
  intro command member touches
  have bounds := within command member
  simp only [Command.Touches] at touches
  omega

/-- A larger range contains what a smaller one contains. -/
theorem Within.mono
    {commands : List Command}
    {first count first' count' : Nat}
    (within : Within commands first count)
    (low : first' ≤ first)
    (high : first + count ≤ first' + count') :
    Within commands first' count' := by
  intro command member
  have bounds := within command member
  omega

section Programming

/-- Every bit of an erased cell is set, so programming it stores the byte. -/
@[simp] theorem erased_and (byte : UInt8) :
    (0xFF : UInt8) &&& byte = byte := by
  apply UInt8.toBitVec_inj.mp
  rw [UInt8.toBitVec_and]
  exact BitVec.allOnes_and

/-- Erasing leaves `0xFF` in every cell of the range. -/
theorem cell_erase_inside
    {first count address : Nat}
    (low : first ≤ address)
    (high : address < first + count)
    (old : UInt8) :
    (Command.erase first count).cell address old = 0xFF := by
  simp [Command.cell, low, high]

/-- Erasing two adjacent blocks erases every cell of both. -/
theorem runCell_erase_blocks
    {start count offset : Nat}
    (inside : offset < count + count)
    (old : UInt8) :
    runCell [.erase start count, .erase (start + count) count]
        (start + offset) old =
      0xFF := by
  by_cases low : offset < count
  · have before :
        ¬ (Command.erase (start + count) count).Touches
            (start + offset) := by
      rintro ⟨first, _⟩
      simp only [Command.first] at first
      omega
    rw [runCell_cons, runCell_cons, Command.cell_outside before]
    exact cell_erase_inside (by omega) (by omega) old
  · rw [runCell_cons, runCell_cons]
    exact cell_erase_inside (by omega) (by omega) _

/-- Programming clears the bits that are zero in the programmed byte. -/
theorem cell_program_inside
    {first index : Nat}
    {data : List UInt8}
    (inBounds : index < data.length)
    (old : UInt8) :
    (Command.program first data).cell (first + index) old =
      old &&& data[index] := by
  have offset : first + index - first = index := by
    omega
  simp [Command.cell, offset, inBounds]

/-- The order of two program commands does not matter. -/
theorem cell_program_comm
    (first second address : Nat)
    (data data' : List UInt8)
    (old : UInt8) :
    (Command.program first data).cell address
        ((Command.program second data').cell address old) =
      (Command.program second data').cell address
        ((Command.program first data).cell address old) := by
  simp only [Command.cell]
  split
  · split
    · rw [UInt8.and_assoc, UInt8.and_assoc, UInt8.and_comm (List.get _ _)]
    · rfl
  · rfl

/-- Moving a program command and a cell together changes nothing. -/
theorem cell_program_add
    (start first index : Nat)
    (data : List UInt8)
    (old : UInt8) :
    (Command.program (start + first) data).cell (start + index) old =
      (Command.program first data).cell index old := by
  simp only [Command.cell, Nat.add_le_add_iff_left,
    Nat.add_sub_add_left]

/-- Moving an erase command and a cell together changes nothing. -/
theorem cell_erase_add
    (start first count index : Nat)
    (old : UInt8) :
    (Command.erase (start + first) count).cell (start + index) old =
      (Command.erase first count).cell index old := by
  simp only [Command.cell, Nat.add_le_add_iff_left, Nat.add_assoc,
    Nat.add_lt_add_iff_left]

/--
Program a buffer in pages: each command starts where the previous one ended
and carries at most `pageSize` bytes.
-/
def pages (pageSize : Nat) (first : Nat) (data : List UInt8) :
    List Command :=
  if data = [] ∨ pageSize = 0 then
    []
  else
    .program first (data.take pageSize) ::
      pages pageSize (first + pageSize) (data.drop pageSize)
termination_by data.length
decreasing_by
  rename_i more
  have nonempty : data.length ≠ 0 := fun zero =>
    more (Or.inl (List.length_eq_zero_iff.mp zero))
  simp only [List.length_drop]
  omega

theorem pages_nil (pageSize first : Nat) :
    pages pageSize first [] = [] := by
  rw [pages]
  simp

theorem pages_of_ne_nil
    {pageSize : Nat}
    (positive : 0 < pageSize)
    (first : Nat)
    {data : List UInt8}
    (nonempty : data ≠ []) :
    pages pageSize first data =
      .program first (data.take pageSize) ::
        pages pageSize (first + pageSize) (data.drop pageSize) := by
  rw [pages, if_neg]
  simp only [nonempty, false_or]
  omega

/-- Every page command carries a nonempty piece of the buffer. -/
theorem mem_pages
    {pageSize : Nat}
    (positive : 0 < pageSize)
    {first : Nat}
    {data : List UInt8}
    {command : Command}
    (member : command ∈ pages pageSize first data) :
    ∃ count,
      count * pageSize < data.length ∧
        command =
          .program (first + count * pageSize)
            ((data.drop (count * pageSize)).take pageSize) := by
  induction first, data using pages.induct pageSize with
  | case1 first data finished =>
      rcases finished with empty | zero
      · subst empty
        simp [pages_nil] at member
      · omega
  | case2 first data more inductionHypothesis =>
      have nonemptyData : data ≠ [] := fun empty =>
        more (Or.inl empty)
      rw [pages_of_ne_nil positive first nonemptyData] at member
      rcases List.mem_cons.mp member with isHead | inTail
      · refine ⟨0, ?_, ?_⟩
        · simpa [List.length_pos_iff] using nonemptyData
        · simpa using isHead
      · obtain ⟨count, bound, shape⟩ := inductionHypothesis inTail
        refine ⟨count + 1, ?_, ?_⟩
        · simp only [List.length_drop] at bound
          rw [Nat.succ_mul]
          omega
        · rw [shape, List.drop_drop, Nat.succ_mul]
          congr 1 <;> first | omega | (congr 2; omega)

/-- The page commands of a buffer, page by page. -/
theorem pages_eq_map
    {pageSize : Nat}
    (positive : 0 < pageSize)
    (first : Nat)
    (data : List UInt8) :
    pages pageSize first data =
      (List.range ((data.length + pageSize - 1) / pageSize)).map fun page =>
        .program (first + page * pageSize)
          ((data.drop (page * pageSize)).take pageSize) := by
  induction first, data using pages.induct pageSize with
  | case1 first data finished =>
      rcases finished with empty | zero
      · subst empty
        have none : (0 + pageSize - 1) / pageSize = 0 := by
          rw [Nat.div_eq_zero_iff]
          omega
        rw [pages_nil, List.length_nil, none]
        rfl
      · omega
  | case2 first data more inductionHypothesis =>
      have nonempty : data ≠ [] := fun empty =>
        more (Or.inl empty)
      have some : 0 < data.length := List.length_pos_iff.mpr nonempty
      have rest : (data.length + pageSize - 1) / pageSize =
          ((data.drop pageSize).length + pageSize - 1) / pageSize + 1 := by
        rw [List.length_drop]
        by_cases short : data.length ≤ pageSize
        · have one : (data.length + pageSize - 1) / pageSize = 1 := by
            rw [Nat.div_eq_iff positive]
            omega
          have none : (data.length - pageSize + pageSize - 1) / pageSize = 0 := by
            rw [Nat.div_eq_zero_iff]
            omega
          rw [one, none]
        · rw [← Nat.add_div_right _ positive]
          congr 1
          omega
      rw [pages_of_ne_nil positive first nonempty, inductionHypothesis, rest,
        List.range_succ_eq_map, List.map_cons, List.map_map]
      simp only [Nat.zero_mul, Nat.add_zero, List.drop_zero, List.cons.injEq,
        true_and]
      apply List.map_congr_left
      intro page member
      simp only [Function.comp, Nat.succ_mul, List.drop_drop]
      rw [Nat.add_assoc, Nat.add_comm pageSize]
/-- The page commands of a buffer work inside the buffer's range. -/
theorem within_pages
    {pageSize : Nat}
    (positive : 0 < pageSize)
    (first : Nat)
    (data : List UInt8) :
    Within (pages pageSize first data) first data.length := by
  intro command member
  obtain ⟨count, bound, rfl⟩ := mem_pages positive member
  simp only [Command.first, Command.size, List.length_take,
    List.length_drop]
  omega

/-- A paged program sequence has the effect of one long program command. -/
theorem runCell_pages
    {pageSize : Nat}
    (positive : 0 < pageSize)
    (first : Nat)
    (data : List UInt8)
    (address : Nat)
    (old : UInt8) :
    runCell (pages pageSize first data) address old =
      (Command.program first data).cell address old := by
  induction first, data using pages.induct pageSize generalizing old with
  | case1 first data finished =>
      rcases finished with empty | zero
      · subst empty
        rw [pages_nil]
        exact (Command.cell_outside
          (by simp [Command.Touches, Command.first, Command.size])
          old).symm
      · omega
  | case2 first data more inductionHypothesis =>
      have nonemptyData : data ≠ [] := fun empty =>
        more (Or.inl empty)
      rw [pages_of_ne_nil positive first nonemptyData, runCell_cons,
        inductionHypothesis]
      by_cases low : first ≤ address
      · obtain ⟨index, rfl⟩ := Nat.exists_eq_add_of_le low
        by_cases inPage : index < pageSize
        · -- the head command handles the cell, the tail starts behind it
          have before :
              ¬ (Command.program (first + pageSize)
                  (data.drop pageSize)).Touches (first + index) := by
            rintro ⟨start, _⟩
            simp only [Command.first] at start
            omega
          rw [Command.cell_outside before]
          by_cases inData : index < data.length
          · rw [cell_program_inside inData,
              cell_program_inside (by simp; omega)]
            simp
          · rw [Command.cell_outside
                (by simp [Command.Touches, Command.first, Command.size]; omega),
              Command.cell_outside
                (by simp [Command.Touches, Command.first, Command.size]; omega)]
        · -- the cell lies behind the head command's page
          have behind :
              ¬ (Command.program first (data.take pageSize)).Touches
                (first + index) := by
            rintro ⟨_, last⟩
            simp only [Command.first, Command.size,
              List.length_take] at last
            omega
          rw [Command.cell_outside behind]
          have shift :
              first + index = first + pageSize + (index - pageSize) := by
            omega
          by_cases inData : index < data.length
          · rw [cell_program_inside inData, shift,
              cell_program_inside (by simp; omega)]
            simp only [List.getElem_drop]
            congr 3
            omega
          · rw [Command.cell_outside
                (by simp [Command.Touches, Command.first, Command.size]; omega),
              Command.cell_outside
                (by simp [Command.Touches, Command.first, Command.size]; omega)]
      · rw [Command.cell_outside
            (by simp [Command.Touches, Command.first]; omega),
          Command.cell_outside
            (by simp [Command.Touches, Command.first]; omega),
          Command.cell_outside
            (by simp [Command.Touches, Command.first]; omega)]

/-- Erasing a range and then programming it in pages stores the buffer. -/
theorem read_run_erase_pages
    {pageSize : Nat}
    (positive : 0 < pageSize)
    {first count : Nat}
    {data : List UInt8}
    (fits : data.length ≤ count)
    (memory : Memory) :
    read (run (.erase first count :: pages pageSize first data) memory)
        first data.length = data := by
  apply read_eq_of_getElem
  intro index inBounds
  simp only [run, runCell_cons]
  rw [cell_erase_inside (by omega) (by omega), runCell_pages positive,
    cell_program_inside inBounds, erased_and]

end Programming

section Slices

/-- Some bytes with the place where an image holds them. -/
structure Slice (image : List UInt8) where
  offset : Nat
  data : List UInt8
  isSlice : data = (image.drop offset).take data.length

variable {image : List UInt8}

namespace Slice

/-- The slice holds the byte at a place of the image. -/
def Covers (slice : Slice image) (index : Nat) : Prop :=
  slice.offset ≤ index ∧ index < slice.offset + slice.data.length

instance (slice : Slice image) (index : Nat) :
    Decidable (slice.Covers index) :=
  inferInstanceAs (Decidable (_ ∧ _))

/-- The byte that a slice holds is that of the image. -/
theorem data_eq
    (slice : Slice image)
    {index : Nat}
    (inSlice : index < slice.data.length)
    (inImage : slice.offset + index < image.length) :
    slice.data[index] = image[slice.offset + index] := by
  have same : slice.data[index]? = image[slice.offset + index]? := by
    rw [slice.isSlice, List.getElem?_take_of_lt inSlice,
      List.getElem?_drop]
  rw [List.getElem?_eq_getElem inSlice,
    List.getElem?_eq_getElem inImage] at same
  exact Option.some.inj same

/-- Programming a slice clears bits in the cells that it covers. -/
theorem cell_program
    (slice : Slice image)
    (start : Nat)
    {index : Nat}
    (inImage : index < image.length)
    (old : UInt8) :
    (Command.program (start + slice.offset) slice.data).cell
        (start + index) old =
      if slice.Covers index then old &&& image[index] else old := by
  by_cases covers : slice.Covers index
  · obtain ⟨position, rfl⟩ := Nat.exists_eq_add_of_le covers.1
    have inSlice : position < slice.data.length :=
      Nat.lt_of_add_lt_add_left covers.2
    rw [if_pos covers, ← Nat.add_assoc, cell_program_inside inSlice,
      slice.data_eq inSlice inImage]
  · rw [if_neg covers]
    apply Command.cell_outside
    rintro ⟨low, high⟩
    simp only [Command.first, Command.size] at low high
    exact covers ⟨by omega, by omega⟩

/-- The commands that program slices one after the other. -/
def commands
    (pageSize start : Nat)
    (slices : List (Slice image)) : List Command :=
  slices.flatMap fun slice =>
    pages pageSize (start + slice.offset) slice.data

/--
Slices of one image, in any order: a cell that some slice covers loses the bits
that are zero in the image, and programming it again changes nothing.
-/
theorem runCell_commands
    {pageSize : Nat}
    (positive : 0 < pageSize)
    (start : Nat)
    (slices : List (Slice image))
    {index : Nat}
    (inImage : index < image.length)
    (old : UInt8) :
    runCell (commands pageSize start slices) (start + index) old =
      if ∃ slice, slice ∈ slices ∧ slice.Covers index then
        old &&& image[index]
      else
        old := by
  induction slices generalizing old with
  | nil =>
      simp [commands, runCell]
  | cons slice rest inductionHypothesis =>
      have first :
          commands pageSize start (slice :: rest) =
            pages pageSize (start + slice.offset) slice.data ++
              commands pageSize start rest :=
        List.flatMap_cons
      rw [first, runCell_append, runCell_pages positive,
        slice.cell_program start inImage, inductionHypothesis]
      by_cases covers : slice.Covers index
      · have found :
            ∃ other, other ∈ slice :: rest ∧ other.Covers index :=
          ⟨slice, List.mem_cons_self, covers⟩
        rw [if_pos covers, if_pos found]
        split
        · rw [UInt8.and_assoc, UInt8.and_self]
        · rfl
      · rw [if_neg covers]
        simp only [List.mem_cons, exists_eq_or_imp, covers, false_or]

end Slice

end Slices

section PowerLoss

/--
Where a power loss stops a command sequence: `done` commands were completed
and, when `torn` is set, the next one was cut off inside.  `noise` holds the
bytes that the cut-off command leaves in its cells.
-/
structure Cut where
  done : Nat
  torn : Bool
  noise : Memory

namespace Cut

/-- The commands of the sequence that had started when the power was lost. -/
def started (cut : Cut) (commands : List Command) : List Command :=
  commands.take (cut.done + cut.torn.toNat)

/-- The commands of the sequence that had not been completed. -/
def unfinished (cut : Cut) (commands : List Command) : List Command :=
  commands.drop cut.done

/-- The byte that an interrupted command sequence leaves in one cell. -/
def runCell
    (cut : Cut)
    (commands : List Command)
    (address : Nat)
    (old : UInt8) : UInt8 :=
  match cut.torn, commands[cut.done]? with
  | true, some command =>
      if command.Touches address then
        cut.noise address
      else
        NorFlash.runCell (commands.take cut.done) address old
  | _, _ =>
      NorFlash.runCell (commands.take cut.done) address old

/-- The memory that an interrupted command sequence leaves. -/
def run (cut : Cut) (commands : List Command) (memory : Memory) : Memory :=
  fun address => cut.runCell commands address (memory address)

/-- Cells outside every started command keep their bytes. -/
theorem runCell_of_avoids
    {cut : Cut}
    {commands : List Command}
    {address : Nat}
    (avoids : Avoids (cut.started commands) address)
    (old : UInt8) :
    cut.runCell commands address old = old := by
  have completed :
      NorFlash.runCell (commands.take cut.done) address old = old := by
    apply NorFlash.runCell_of_avoids
    intro command member
    apply avoids
    apply List.take_subset_take_left commands (Nat.le_add_right _ _)
    exact member
  unfold runCell
  split
  · rename_i command tornSet atCut
    have inStarted : command ∈ cut.started commands := by
      rw [started, tornSet]
      apply List.mem_of_getElem? (i := cut.done)
      rw [List.getElem?_take_of_lt (by simp)]
      exact atCut
    rw [if_neg (avoids command inStarted)]
    exact completed
  · exact completed

/-- Memory cells outside every started command keep their bytes. -/
theorem run_of_avoids
    {cut : Cut}
    {commands : List Command}
    {address : Nat}
    (avoids : Avoids (cut.started commands) address)
    (memory : Memory) :
    cut.run commands memory address = memory address :=
  runCell_of_avoids avoids (memory address)

/-- The cut of the rest of a sequence after its first `count` commands. -/
def later (cut : Cut) (count : Nat) : Cut :=
  { cut with done := cut.done - count }

/-- The rest has begun unless the cut lies right before it. -/
theorem later_begun
    {cut : Cut}
    {count : Nat}
    (behind : count ≤ cut.done)
    (begun : ¬ (cut.done = count ∧ cut.torn = false)) :
    ¬ ((cut.later count).done = 0 ∧ (cut.later count).torn = false) := by
  rintro ⟨start, whole⟩
  simp only [later] at start whole
  exact begun ⟨by omega, whole⟩

/-- A power loss hits either the first part of a sequence or the second. -/
theorem run_append
    (cut : Cut)
    (earlier rest : List Command)
    (memory : Memory) :
    cut.run (earlier ++ rest) memory =
      if cut.done < earlier.length then
        cut.run earlier memory
      else
        (cut.later earlier.length).run rest
          (NorFlash.run earlier memory) := by
  funext address
  by_cases inEarlier : cut.done < earlier.length
  · simp only [run, runCell, if_pos inEarlier,
      List.getElem?_append_left inEarlier,
      List.take_append_of_le_length (Nat.le_of_lt inEarlier)]
  · have behind : earlier.length ≤ cut.done := by
      omega
    have completed :
        (earlier ++ rest).take cut.done =
          earlier ++ rest.take (cut.done - earlier.length) := by
      rw [List.take_append, List.take_of_length_le behind]
    simp only [run, runCell, later, if_neg inEarlier,
      List.getElem?_append_right behind, completed, runCell_append,
      NorFlash.run]

/-- A power loss before anything started changes nothing. -/
theorem run_of_not_started
    {cut : Cut}
    (nothing : cut.done = 0)
    (whole : cut.torn = false)
    (commands : List Command)
    (memory : Memory) :
    cut.run commands memory = memory := by
  funext address
  simp [run, runCell, nothing, whole, NorFlash.runCell]

/-- A power loss after the last command comes too late. -/
theorem run_of_finished
    {cut : Cut}
    {commands : List Command}
    (finished : commands.length ≤ cut.done)
    (memory : Memory) :
    cut.run commands memory = NorFlash.run commands memory := by
  funext address
  simp only [run, runCell, NorFlash.run,
    List.getElem?_eq_none finished, List.take_of_length_le finished]
  cases cut.torn <;> rfl

/-- A started command belongs to the interrupted sequence. -/
theorem mem_of_started
    {cut : Cut}
    {commands : List Command}
    {command : Command}
    (member : command ∈ cut.started commands) :
    command ∈ commands :=
  List.mem_of_mem_take member

/-- The command at an early enough place has started. -/
theorem mem_started_of_lt
    {cut : Cut}
    {commands : List Command}
    {index : Nat}
    {command : Command}
    (early : index < cut.done + cut.torn.toNat)
    (atIndex : commands[index]? = some command) :
    command ∈ cut.started commands := by
  apply List.mem_of_getElem? (i := index)
  rw [started, List.getElem?_take_of_lt early]
  exact atIndex

/-- The command at a late enough place is unfinished. -/
theorem mem_unfinished_of_le
    {cut : Cut}
    {commands : List Command}
    {index : Nat}
    {command : Command}
    (late : cut.done ≤ index)
    (atIndex : commands[index]? = some command) :
    command ∈ cut.unfinished commands := by
  obtain ⟨more, rfl⟩ := Nat.exists_eq_add_of_le late
  apply List.mem_of_getElem? (i := more)
  rw [unfinished, List.getElem?_drop]
  exact atIndex

/-- What has started once the first part of a sequence is finished. -/
theorem started_append
    {cut : Cut}
    {earlier : List Command}
    (behind : earlier.length ≤ cut.done)
    (rest : List Command) :
    cut.started (earlier ++ rest) =
      earlier ++ (cut.later earlier.length).started rest := by
  have count :
      cut.done + cut.torn.toNat - earlier.length =
        cut.done - earlier.length + cut.torn.toNat := by
    omega
  rw [started, List.take_append, List.take_of_length_le (by omega), count]
  rfl

/-- What is unfinished once the first part of a sequence is finished. -/
theorem unfinished_append
    {cut : Cut}
    {earlier : List Command}
    (behind : earlier.length ≤ cut.done)
    (rest : List Command) :
    cut.unfinished (earlier ++ rest) =
      (cut.later earlier.length).unfinished rest := by
  rw [unfinished, List.drop_append, List.drop_of_length_le behind,
    List.nil_append]
  rfl

/-- A cell that the rest of a sequence avoids depends on the first part. -/
theorem run_append_of_avoids
    {earlier rest : List Command}
    {address : Nat}
    (avoids : Avoids rest address)
    (cut : Cut)
    (memory : Memory) :
    cut.run (earlier ++ rest) memory address =
      cut.run earlier memory address := by
  rw [run_append]
  split
  · rfl
  · rename_i late
    rw [run_of_finished (Nat.le_of_not_lt late)]
    exact run_of_avoids
      (fun command member => avoids command (mem_of_started member)) _

end Cut

end PowerLoss

section PageWrap

/-!
A program command fills the latches of one page: an address behind the end of
the page continues at its beginning.  Then the page is programmed with the
latches, which are `0xFF` where no byte came.  A command that stays inside its
page does what `Command.cell` says.
-/

/-- The latches of a page, by their place in it. -/
def pageLatches (pageSize first : Nat) (data : List UInt8) : Nat → UInt8 :=
  data.zipIdx.foldl
    (fun latches entry place =>
      if place = (first + entry.2) % pageSize then entry.1 else latches place)
    fun _ => 0xFF

/-- The byte a command leaves in a cell of a flash whose pages wrap. -/
def wrapCell
    (pageSize : Nat)
    (command : Command)
    (address : Nat)
    (old : UInt8) : UInt8 :=
  match command with
  | .erase first count => (Command.erase first count).cell address old
  | .program first data =>
      if address / pageSize = first / pageSize then
        old &&& pageLatches pageSize first data (address % pageSize)
      else
        old

/-- The memory after a command sequence, if the pages wrap. -/
def runWrapping
    (pageSize : Nat)
    (commands : List Command)
    (memory : Memory) : Memory :=
  fun address =>
    commands.foldl (fun byte command => wrapCell pageSize command address byte)
      (memory address)

/-- A program command stays inside the page that it begins in. -/
def Command.InPage (pageSize : Nat) : Command → Prop
  | .erase _ _ => True
  | .program first data => first % pageSize + data.length ≤ pageSize

/-- The latches of a command that stays inside its page. -/
theorem pageLatches_of_inPage
    {pageSize first : Nat}
    {data : List UInt8}
    (inPage : first % pageSize + data.length ≤ pageSize)
    (place : Nat) :
    pageLatches pageSize first data place =
      if first % pageSize ≤ place then
        data.getD (place - first % pageSize) 0xFF
      else
        0xFF := by
  induction data using List.reverseRecOn with
  | nil =>
      simp [pageLatches]
  | append_singleton data byte inductionHypothesis =>
      rw [List.length_append, List.length_singleton] at inPage
      have latch : (first + data.length) % pageSize =
          first % pageSize + data.length := by
        rw [Nat.add_mod, Nat.mod_eq_of_lt (show data.length < pageSize by omega)]
        exact Nat.mod_eq_of_lt (by omega)
      rw [pageLatches, List.zipIdx_append, List.foldl_append, ← pageLatches]
      simp only [List.zipIdx_singleton, List.foldl_cons, List.foldl_nil,
        Nat.zero_add, latch]
      rw [inductionHypothesis (by omega)]
      by_cases here : place = first % pageSize + data.length
      · subst here
        simp
      · rw [if_neg here]
        by_cases low : first % pageSize ≤ place
        · rw [if_pos low, if_pos low]
          by_cases inside : place - first % pageSize < data.length
          · rw [List.getD_append _ _ _ _ inside]
          · rw [List.getD_eq_default _ _ (by omega),
              List.getD_eq_default _ _ (by
                rw [List.length_append, List.length_singleton]
                omega)]
        · rw [if_neg low, if_neg low]

/-- The wrapping does not matter for a command that stays inside its page. -/
theorem wrapCell_of_inPage
    {pageSize : Nat}
    {command : Command}
    (inPage : command.InPage pageSize)
    (address : Nat)
    (old : UInt8) :
    wrapCell pageSize command address old = command.cell address old := by
  cases command with
  | erase first count =>
      rfl
  | program first data =>
      have start := Nat.div_add_mod first pageSize
      rw [wrapCell, pageLatches_of_inPage inPage]
      simp only [Command.InPage] at inPage
      by_cases touched : (Command.program first data).Touches address
      · rcases touched with ⟨low, high⟩
        simp only [Command.first, Command.size] at low high
        have samePage : address / pageSize = first / pageSize := by
          apply Nat.div_eq_of_lt_le
          · rw [Nat.mul_comm]
            omega
          · rw [Nat.succ_mul, Nat.mul_comm]
            omega
        have place := Nat.div_add_mod address pageSize
        rw [samePage] at place
        obtain ⟨index, rfl⟩ := Nat.exists_eq_add_of_le low
        have inData : index < data.length := by omega
        have offset : (first + index) % pageSize - first % pageSize = index := by
          omega
        rw [if_pos samePage, if_pos (by omega), offset,
          List.getD_eq_getElem _ _ inData, cell_program_inside inData]
      · rw [Command.cell_outside touched]
        by_cases samePage : address / pageSize = first / pageSize
        · -- no byte came for the cell
          have place := Nat.div_add_mod address pageSize
          rw [samePage] at place
          simp only [Command.Touches, Command.first, Command.size] at touched
          rw [if_pos samePage]
          by_cases low : first % pageSize ≤ address % pageSize
          · rw [if_pos low, List.getD_eq_default _ _ (by omega), UInt8.and_comm,
              erased_and]
          · rw [if_neg low, UInt8.and_comm, erased_and]
        · rw [if_neg samePage]

/-- The wrapping does not matter if every command stays inside its page. -/
theorem runWrapping_of_inPage
    {pageSize : Nat}
    {commands : List Command}
    (inPages : ∀ command ∈ commands, command.InPage pageSize)
    (memory : Memory) :
    runWrapping pageSize commands memory = run commands memory := by
  funext address
  change List.foldl _ (memory address) commands =
    runCell commands address (memory address)
  generalize memory address = old
  induction commands generalizing old with
  | nil =>
      rfl
  | cons command rest inductionHypothesis =>
      rw [List.foldl_cons, wrapCell_of_inPage (inPages command (by simp))]
      exact inductionHypothesis
        (fun later member => inPages later (by simp [member])) _

end PageWrap

end NorFlash
