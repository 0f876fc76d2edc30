import Mathlib.Data.List.Basic
import Mathlib.Data.List.GetD

namespace ByteMemory

/-!
# Byte-addressed memories

A memory is a total function from addresses to bytes.  Contiguous ranges are
read as lists and overwritten by lists; the lemmas say which cells of a range
access depend on which cells of the memory.
-/

/-- One byte for every address. -/
abbrev Memory := Nat → UInt8

/-- The `count` bytes starting at `first`, in address order. -/
def read (memory : Memory) (first count : Nat) : List UInt8 :=
  (List.range count).map fun index => memory (first + index)

/-- Overwrite the cells from `first` on with `data`. -/
def write (memory : Memory) (first : Nat) (data : List UInt8) : Memory :=
  fun address =>
    if inside : first ≤ address ∧ address - first < data.length then
      data.get ⟨address - first, inside.2⟩
    else
      memory address

/-- The first `count` bytes of a list, padded with zeros. -/
def toVector (count : Nat) (data : List UInt8) : Vector UInt8 count :=
  Vector.ofFn fun index => data.getD index 0

@[simp] theorem length_read
    (memory : Memory)
    (first count : Nat) :
    (read memory first count).length = count := by
  simp [read]

@[simp] theorem read_zero
    (memory : Memory)
    (first : Nat) :
    read memory first 0 = [] := by
  simp [read]

/-- An entry of a range read is the cell at that distance. -/
theorem getElem_read
    (memory : Memory)
    (first count index : Nat)
    (inBounds : index < (read memory first count).length) :
    (read memory first count)[index] = memory (first + index) := by
  simp [read]

/-- A range read depends only on the cells of that range. -/
theorem read_congr
    {left right : Memory}
    {first count : Nat}
    (same :
      ∀ index,
        index < count →
        left (first + index) = right (first + index)) :
    read left first count = read right first count := by
  apply List.map_congr_left
  intro index member
  exact same index (List.mem_range.mp member)

/-- A range read is known once each of its cells is known. -/
theorem read_eq_of_getElem
    {memory : Memory}
    {first : Nat}
    {data : List UInt8}
    (same :
      ∀ (index : Nat) (inBounds : index < data.length),
        memory (first + index) = data[index]) :
    read memory first data.length = data := by
  apply List.ext_getElem
  · simp
  · intro index inRead inData
    rw [getElem_read]
    exact same index inData

/-- A cell inside the written range holds the written byte. -/
theorem write_inside
    (memory : Memory)
    {first index : Nat}
    {data : List UInt8}
    (inBounds : index < data.length) :
    write memory first data (first + index) = data[index] := by
  have offset : first + index - first = index := by
    omega
  simp [write, offset, inBounds]

/-- A cell outside the written range keeps its byte. -/
theorem write_outside
    (memory : Memory)
    {first address : Nat}
    {data : List UInt8}
    (outside : address < first ∨ first + data.length ≤ address) :
    write memory first data address = memory address := by
  unfold write
  split
  · omega
  · rfl

@[simp] theorem write_nil
    (memory : Memory)
    (first : Nat) :
    write memory first [] = memory := by
  funext address
  apply write_outside
  rw [List.length_nil]
  omega

/-- The first byte can be written on its own. -/
theorem write_cons
    (memory : Memory)
    (first : Nat)
    (byte : UInt8)
    (data : List UInt8) :
    write memory first (byte :: data) =
      write (Function.update memory first byte) (first + 1) data := by
  funext address
  rcases Nat.lt_trichotomy address first with before | same | behind
  · have next : address < first + 1 := Nat.lt_succ_of_lt before
    rw [write_outside memory (.inl before), write_outside _ (.inl next),
      Function.update_of_ne (Nat.ne_of_lt before)]
  · subst same
    rw [write_outside _ (.inl (Nat.lt_succ_self address)),
      Function.update_self]
    exact
      @write_inside memory address 0 (byte :: data)
        (Nat.zero_lt_succ data.length)
  · obtain ⟨offset, rfl⟩ := Nat.exists_eq_add_of_lt behind
    have place : first + offset + 1 = first + 1 + offset := by
      omega
    rcases Nat.lt_or_ge offset data.length with inside | outside
    · have stored :=
        @write_inside memory first (offset + 1) (byte :: data)
          (Nat.succ_lt_succ inside)
      rw [place, write_inside _ inside]
      rw [← Nat.add_assoc, place] at stored
      exact stored
    · have whole : first + (byte :: data).length ≤ first + offset + 1 := by
        rw [List.length_cons]
        omega
      have rest : first + 1 + data.length ≤ first + offset + 1 := by
        omega
      rw [write_outside memory (.inr whole), write_outside _ (.inr rest),
        Function.update_of_ne (Nat.ne_of_gt behind)]

/-- Reading back the range just written returns the written bytes. -/
@[simp] theorem read_write_same
    (memory : Memory)
    (first : Nat)
    (data : List UInt8) :
    read (write memory first data) first data.length = data :=
  read_eq_of_getElem fun _ inBounds =>
    write_inside memory inBounds

/-- A read of one more byte. -/
theorem read_succ (memory : Memory) (first count : Nat) :
    read memory first (count + 1) =
      read memory first count ++ [memory (first + count)] := by
  simp only [read, List.range_succ, List.map_append, List.map_singleton]

/-- Writing one byte after written bytes is writing all of them. -/
theorem write_snoc
    (memory : Memory)
    (first : Nat)
    (data : List UInt8)
    (byte : UInt8) :
    write (write memory first data) (first + data.length) [byte] =
      write memory first (data ++ [byte]) := by
  funext place
  by_cases last : place = first + data.length
  · have whole :=
      @write_inside memory first data.length (data ++ [byte]) (by simp)
    have single :=
      @write_inside (write memory first data) (first + data.length) 0 [byte]
        (by simp)
    rw [Nat.add_zero] at single
    rw [last, single, whole]
    simp
  · rw [write_outside _ (by simp; omega)]
    simp only [write, List.length_append, List.length_singleton]
    by_cases inside : first ≤ place ∧ place - first < data.length
    · have more : first ≤ place ∧ place - first < data.length + 1 :=
        ⟨inside.1, Nat.lt_succ_of_lt inside.2⟩
      rw [dif_pos inside, dif_pos more]
      exact (List.getElem_append_left inside.2).symm
    · rw [dif_neg inside, dif_neg (by omega)]

/-- Reading a range disjoint from the written one is unaffected. -/
theorem read_write_disjoint
    (memory : Memory)
    {first count target : Nat}
    {data : List UInt8}
    (disjoint :
      first + count ≤ target ∨ target + data.length ≤ first) :
    read (write memory target data) first count =
      read memory first count := by
  apply read_congr
  intro index inBounds
  exact write_outside memory (by omega)

/-- A range read in two parts. -/
theorem read_append
    (memory : Memory)
    (first count rest : Nat) :
    read memory first (count + rest) =
      read memory first count ++ read memory (first + count) rest := by
  rw [read, List.range_add, List.map_append, List.map_map]
  congr 1
  apply List.map_congr_left
  intro index _
  exact congrArg memory (Nat.add_assoc first count index).symm

/-- A part of what was read is read by itself. -/
theorem take_drop_read
    (memory : Memory)
    {first count skip size : Nat}
    (inside : skip + size ≤ count) :
    ((read memory first count).drop skip).take size =
      read memory (first + skip) size := by
  obtain ⟨rest, rfl⟩ := Nat.exists_eq_add_of_le inside
  have split :
      read memory first (skip + size + rest) =
        read memory first skip ++
          (read memory (first + skip) size ++
            read memory (first + skip + size) rest) := by
    rw [Nat.add_assoc skip, read_append, read_append]
  rw [split, List.drop_left' (length_read ..),
    List.take_left' (length_read ..)]

/-- A range that starts with what was just written. -/
theorem read_write_front
    (memory : Memory)
    (first rest : Nat)
    (data : List UInt8) :
    read (write memory first data) first (data.length + rest) =
      data ++ read memory (first + data.length) rest := by
  rw [read_append, read_write_same,
    read_write_disjoint _ (.inr (Nat.le_refl _))]

/-- Writing right behind a range extends what can be read from its start. -/
theorem read_write_append
    (memory : Memory)
    (first count : Nat)
    (data : List UInt8) :
    read (write memory (first + count) data) first (count + data.length) =
      read memory first count ++ data := by
  apply List.ext_getElem
  · simp
  · intro index inRead inAppend
    rw [getElem_read]
    by_cases early : index < count
    · rw [write_outside memory (.inl (by omega)),
        List.getElem_append_left (by simpa using early), getElem_read]
    · obtain ⟨rest, rfl⟩ := Nat.exists_eq_add_of_le (Nat.le_of_not_lt early)
      have inData : rest < data.length := by
        simp at inRead
        omega
      rw [← Nat.add_assoc, write_inside memory inData,
        List.getElem_append_right (by simp)]
      simp

@[simp] theorem getElem_toVector
    (count : Nat)
    (data : List UInt8)
    (index : Nat)
    (inBounds : index < count) :
    (toVector count data)[index] = data.getD index 0 := by
  simp [toVector]

/-- Converting the list of a vector gives the vector back. -/
@[simp] theorem toVector_toList
    {count : Nat}
    (vector : Vector UInt8 count) :
    toVector count vector.toList = vector := by
  ext index inBounds
  simp [List.getD_eq_getElem?_getD, inBounds]

/-- A list of the right length survives the conversion to a vector. -/
theorem toList_toVector
    {count : Nat}
    {data : List UInt8}
    (length : data.length = count) :
    (toVector count data).toList = data := by
  apply List.ext_getElem
  · simp [length]
  · intro index inVector inData
    simp [List.getD_eq_getElem?_getD, inData]

/-- A shorter list is padded. -/
theorem toList_toVector_append
    {count : Nat}
    {data : List UInt8}
    (short : data.length ≤ count) :
    (toVector count data).toList =
      data ++ List.replicate (count - data.length) 0 := by
  apply List.ext_getElem
  · simp
    omega
  · intro index inVector inList
    by_cases inData : index < data.length
    · simp [List.getD_eq_getElem?_getD, inData]
    · simp [List.getD_eq_getElem?_getD, inData,
        List.getElem_append_right (Nat.not_lt.mp inData)]

end ByteMemory
