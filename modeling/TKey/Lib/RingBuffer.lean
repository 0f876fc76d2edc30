import Mathlib.Algebra.Group.Nat.Defs
import Mathlib.Data.List.Basic
import Mathlib.Logic.Function.Basic

namespace RingBuffer

/-!
# Ring buffers

A queue in a fixed number of cells, with an index for the next store and one for
the next element to take.  Equal indices stand for the empty queue, so one cell
is never used.
-/

variable {α : Type} {size : Nat}

/-- Cells and two indices into them. -/
structure Ring (α : Type) (size : Nat) where
  cells : Nat → α
  input : Nat
  output : Nat
  input_lt : input < size
  output_lt : output < size

namespace Ring

/-- The number of elements. -/
def count (ring : Ring α size) : Nat :=
  if ring.output ≤ ring.input then
    ring.input - ring.output
  else
    size - (ring.output - ring.input)

/-- The index `offset` cells after an index. -/
def increment (size first offset : Nat) : Nat :=
  (first + offset) % size

/-- The elements, first one first. -/
def contents (ring : Ring α size) : List α :=
  (List.range ring.count).map fun offset =>
    ring.cells (increment size ring.output offset)

/-- Store an element. -/
def push (ring : Ring α size) (element : α) : Ring α size where
  cells := Function.update ring.cells ring.input element
  input := if ring.input + 1 ≥ size then 0 else ring.input + 1
  output := ring.output
  input_lt := by
    have nonempty := ring.input_lt
    split <;> omega
  output_lt := ring.output_lt

/-- Consecutive cells. -/
def slice (ring : Ring α size) (first length : Nat) : List α :=
  (List.range length).map fun offset => ring.cells (first + offset)

/-- Copy cells, from the beginning again after the last one. -/
def copy (ring : Ring α size) (first length : Nat) : List α :=
  if length ≤ size - first then
    ring.slice first length
  else
    ring.slice first (size - first) ++
      ring.slice 0 (length - (size - first))

/-- The cell that is copied at an offset. -/
def copyIndex (size first offset : Nat) : Nat :=
  if offset < size - first then first + offset else offset - (size - first)

/-- Take elements. -/
def advance (ring : Ring α size) (length : Nat) : Ring α size where
  cells := ring.cells
  input := ring.input
  output := increment size ring.output length
  input_lt := ring.input_lt
  output_lt := Nat.mod_lt _ (Nat.zero_lt_of_lt ring.output_lt)

/-- Drop all elements. -/
def clear (ring : Ring α size) : Ring α size where
  cells := ring.cells
  input := 0
  output := 0
  input_lt := Nat.zero_lt_of_lt ring.input_lt
  output_lt := Nat.zero_lt_of_lt ring.output_lt

theorem count_lt (ring : Ring α size) : ring.count < size := by
  have input_lt := ring.input_lt
  have output_lt := ring.output_lt
  rw [count]
  split <;> omega

@[simp] theorem length_contents (ring : Ring α size) :
    ring.contents.length = ring.count := by
  rw [contents, List.length_map, List.length_range]

/-- An index after another one, without the remainder. -/
theorem increment_cases
    {first offset : Nat}
    (inside : first < size)
    (small : offset ≤ size) :
    first + offset < size ∧ increment size first offset = first + offset ∨
      size ≤ first + offset ∧
        increment size first offset = first + offset - size := by
  rcases Nat.lt_or_ge (first + offset) size with before | behind
  · exact .inl ⟨before, Nat.mod_eq_of_lt before⟩
  · right
    refine ⟨behind, ?_⟩
    rw [increment, Nat.mod_eq_sub_mod behind, Nat.mod_eq_of_lt]
    omega

theorem increment_increment (first offset offset' : Nat) :
    increment size (increment size first offset) offset' =
      increment size first (offset + offset') := by
  rw [increment, increment, increment, Nat.mod_add_mod, Nat.add_assoc]

/-- The next element to store comes behind the elements. -/
theorem increment_count (ring : Ring α size) :
    increment size ring.output ring.count = ring.input := by
  have input_lt := ring.input_lt
  have output_lt := ring.output_lt
  have bounded := Nat.le_of_lt ring.count_lt
  unfold count at bounded ⊢
  split at bounded <;> rename_i order
  · rw [if_pos order]
    rcases increment_cases output_lt bounded with
      ⟨before, same⟩ | ⟨behind, same⟩ <;> omega
  · rw [if_neg order]
    rcases increment_cases output_lt bounded with
      ⟨before, same⟩ | ⟨behind, same⟩ <;> omega

/-- Different elements are in different cells. -/
theorem increment_ne_input
    (ring : Ring α size)
    {offset : Nat}
    (inside : offset < ring.count) :
    increment size ring.output offset ≠ ring.input := by
  have input_lt := ring.input_lt
  have output_lt := ring.output_lt
  have small : offset ≤ size :=
    Nat.le_of_lt (Nat.lt_trans inside ring.count_lt)
  rw [count] at inside
  rcases increment_cases output_lt small with
    ⟨before, same⟩ | ⟨behind, same⟩ <;>
    rw [same] <;> split at inside <;> omega

theorem count_push
    (ring : Ring α size)
    (room : ring.count + 1 < size)
    (element : α) :
    (ring.push element).count = ring.count + 1 := by
  have input_lt := ring.input_lt
  have output_lt := ring.output_lt
  unfold count at room ⊢
  simp only [push]
  split_ifs at room ⊢ <;> omega

/-- An element is stored behind the others. -/
theorem contents_push
    (ring : Ring α size)
    (room : ring.count + 1 < size)
    (element : α) :
    (ring.push element).contents = ring.contents ++ [element] := by
  have kept :
      (List.range ring.count).map
          (fun offset =>
            (ring.push element).cells (increment size ring.output offset)) =
        ring.contents := by
    apply List.map_congr_left
    intro offset member
    exact
      Function.update_of_ne
        (ring.increment_ne_input (List.mem_range.mp member)) _ _
  have stored :
      (ring.push element).cells (increment size ring.output ring.count) =
        element := by
    rw [increment_count]
    exact Function.update_self _ _ _
  rw [contents, count_push ring room, List.range_succ, List.map_append,
    List.map_singleton]
  exact congrArg₂ _ kept (congrArg (fun last => [last]) stored)

/-- Copying goes around the cells. -/
theorem copy_eq
    (ring : Ring α size)
    {first length : Nat}
    (inside : first < size)
    (small : length ≤ size) :
    ring.copy first length =
      (List.range length).map fun offset =>
        ring.cells (increment size first offset) := by
  have straight {count : Nat} (before : count ≤ size - first) :
      ring.slice first count =
        (List.range count).map fun offset =>
          ring.cells (increment size first offset) := by
    apply List.map_congr_left
    intro offset member
    have inCount := List.mem_range.mp member
    rw [increment, Nat.mod_eq_of_lt]
    omega
  rw [copy]
  split
  · rename_i before
    exact straight before
  · rename_i wraps
    obtain ⟨rest, rfl⟩ :=
      Nat.exists_eq_add_of_le (Nat.le_of_not_le wraps)
    have around :
        ring.slice 0 rest =
          (List.range rest).map fun offset =>
            ring.cells (increment size first (size - first + offset)) := by
      apply List.map_congr_left
      intro offset member
      have inCount := List.mem_range.mp member
      have place : first + (size - first + offset) = offset + size := by
        omega
      rw [increment, place, Nat.add_mod_right, Nat.mod_eq_of_lt,
        Nat.zero_add]
      omega
    rw [Nat.add_sub_cancel_left, straight (Nat.le_refl _), around,
      List.range_add, List.map_append, List.map_map]
    rfl

/-- Copied cells come one after the other. -/
theorem copyIndex_eq
    {first offset : Nat}
    (inside : first < size)
    (small : offset ≤ size) :
    copyIndex size first offset = increment size first offset := by
  rw [copyIndex]
  rcases increment_cases inside small with
    ⟨before, same⟩ | ⟨behind, same⟩ <;> rw [same] <;> split <;> omega

/-- The first elements by their cells. -/
theorem take_contents
    (ring : Ring α size)
    {length : Nat}
    (inside : length ≤ ring.count) :
    ring.contents.take length =
      (List.range length).map fun offset =>
        ring.cells (increment size ring.output offset) := by
  rw [contents, ← List.map_take, List.take_range, Nat.min_eq_left inside]

/-- Copying from the front gives the first elements. -/
theorem copy_output
    (ring : Ring α size)
    {length : Nat}
    (inside : length ≤ ring.count) :
    ring.copy ring.output length = ring.contents.take length := by
  have small : length ≤ size :=
    Nat.le_trans inside (Nat.le_of_lt ring.count_lt)
  rw [copy_eq ring ring.output_lt small, take_contents ring inside]

theorem count_advance
    (ring : Ring α size)
    {length : Nat}
    (inside : length ≤ ring.count) :
    (ring.advance length).count = ring.count - length := by
  have input_lt := ring.input_lt
  have output_lt := ring.output_lt
  have small : length ≤ size :=
    Nat.le_trans inside (Nat.le_of_lt ring.count_lt)
  rcases increment_cases output_lt small with
    ⟨before, same⟩ | ⟨behind, same⟩ <;>
    · unfold count at inside ⊢
      simp only [advance, same]
      split_ifs at inside ⊢ <;> omega

/-- The first elements are taken. -/
theorem contents_advance
    (ring : Ring α size)
    {length : Nat}
    (inside : length ≤ ring.count) :
    (ring.advance length).contents = ring.contents.drop length := by
  obtain ⟨rest, count⟩ := Nat.exists_eq_add_of_le inside
  have left : (ring.advance length).count = rest := by
    rw [count_advance ring inside, count, Nat.add_sub_cancel_left]
  have taken : ((List.range length).map fun offset =>
      ring.cells (increment size ring.output offset)).length = length := by
    rw [List.length_map, List.length_range]
  rw [contents, contents, left, count, List.range_add, List.map_append,
    List.drop_append_of_le_length (Nat.le_of_eq taken.symm),
    List.drop_eq_nil_of_le (Nat.le_of_eq taken), List.nil_append,
    List.map_map]
  apply List.map_congr_left
  intro offset _
  exact congrArg ring.cells (increment_increment _ _ _)

/-- The elements by their offsets. -/
theorem getElem?_contents
    (ring : Ring α size)
    {offset : Nat}
    (inside : offset < ring.count) :
    ring.contents[offset]? =
      some (ring.cells (increment size ring.output offset)) := by
  rw [contents, List.getElem?_map, List.getElem?_range inside]
  rfl

/-- The first two elements by their cells. -/
theorem cells_first_two
    (ring : Ring α size)
    {first second : α}
    {more : List α}
    (contents : ring.contents = first :: second :: more) :
    ring.cells ring.output = first ∧
      ring.cells (increment size ring.output 1) = second := by
  have count : ring.count = more.length + 2 := by
    rw [← ring.length_contents, contents]
    rfl
  have here : increment size ring.output 0 = ring.output :=
    Nat.mod_eq_of_lt ring.output_lt
  have inside : 1 < ring.count := by
    omega
  have head := ring.getElem?_contents (Nat.lt_of_succ_lt inside)
  have next := ring.getElem?_contents inside
  rw [contents] at head next
  rw [here] at head
  exact ⟨(Option.some.inj head).symm, (Option.some.inj next).symm⟩

end Ring

section Wrapping

variable {width : Nat}

/-- Consecutive cells, with pointers that wrap around. -/
def cells (memory : BitVec width → α) (first : BitVec width) (count : Nat) :
    List α :=
  (List.range count).map fun offset =>
    memory (first + BitVec.ofNat width offset)

variable (memory : BitVec width → α) (first : BitVec width)

/-- One more cell at the end. -/
theorem cells_concat (count : Nat) :
    cells memory first (count + 1) =
      cells memory first count ++
        [memory (first + BitVec.ofNat width count)] := by
  rw [cells, List.range_succ, List.map_append]
  rfl

/-- The first cell. -/
theorem cells_cons (count : Nat) :
    cells memory first (count + 1) =
      memory first :: cells memory (first + BitVec.ofNat width 1) count := by
  rw [cells, List.range_succ_eq_map, List.map_cons, List.map_map,
    BitVec.add_zero]
  congr 1
  apply List.map_congr_left
  intro offset _
  show memory _ = memory _
  rw [BitVec.add_assoc, ← BitVec.ofNat_add, Nat.add_comm]

/-- The cell behind others is not one of them. -/
theorem cells_update
    {count : Nat}
    (room : count < 2 ^ width)
    (value : α) :
    cells
        (Function.update memory (first + BitVec.ofNat width count) value)
        first count =
      cells memory first count := by
  apply List.map_congr_left
  intro offset member
  have inside := List.mem_range.mp member
  refine Function.update_of_ne (fun same => ?_) _ _
  have equal :=
    congrArg BitVec.toNat ((BitVec.add_right_inj first).mp same)
  rw [BitVec.toNat_ofNat, BitVec.toNat_ofNat, Nat.mod_eq_of_lt,
    Nat.mod_eq_of_lt room] at equal
  · omega
  · omega

end Wrapping

end RingBuffer
