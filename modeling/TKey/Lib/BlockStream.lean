import Mathlib.Data.List.Basic

namespace BlockStream

/-!
# Streams in blocks

A value that is computed block by block from a message that arrives item by
item.  A block is handed on only when something follows it, because the last
block is treated in another way.
-/

section Definitions

variable {State Item : Type}

/-- What has been taken in of a message. -/
structure Buffered (State Item : Type) where
  state : State
  /-- The number of blocks that have been handed on. -/
  done : Nat
  buffer : List Item

variable
  (size : Nat)
  (absorb : State → Nat → List Item → State)

/-- Take in one more item; a full buffer is handed on first. -/
def push (stream : Buffered State Item) (item : Item) : Buffered State Item :=
  if stream.buffer.length = size then
    { state := absorb stream.state stream.done stream.buffer
      done := stream.done + 1
      buffer := [item] }
  else
    { stream with buffer := stream.buffer ++ [item] }

/-- A block of a message. -/
def block (message : List Item) (index : Nat) : List Item :=
  (message.drop (size * index)).take size

/-- The state after the first blocks of a message. -/
def chain (start : State) (message : List Item) : Nat → State
  | 0 => start
  | count + 1 =>
      absorb (chain start message count) count (block size message count)

/-- The number of blocks that something follows. -/
def followed (message : List Item) : Nat :=
  (message.length - 1) / size

/-- What a whole message leaves. -/
def taken (start : State) (message : List Item) : Buffered State Item where
  state := chain size absorb start message (followed size message)
  done := followed size message
  buffer := message.drop (size * followed size message)

end Definitions

section Messages

variable
  {State Item : Type}
  {size : Nat}
  {absorb : State → Nat → List Item → State}
  {start : State}

theorem block_append
    {message : List Item}
    {index : Nat}
    (whole : size * index + size ≤ message.length)
    (more : List Item) :
    block size (message ++ more) index = block size message index := by
  rw [block, block, List.drop_append_of_le_length (by omega),
    List.take_append_of_le_length]
  rw [List.length_drop]
  omega

/-- Whole blocks do not depend on what follows them. -/
theorem chain_append
    {message : List Item}
    {count : Nat}
    (whole : size * count ≤ message.length)
    (more : List Item) :
    chain size absorb start (message ++ more) count =
      chain size absorb start message count := by
  induction count with
  | zero =>
      rfl
  | succ count inductionHypothesis =>
      rw [Nat.mul_succ] at whole
      rw [chain, chain, block_append whole,
        inductionHypothesis (Nat.le_trans (Nat.le_add_right ..) whole)]

/-- The buffer is not longer than a block. -/
theorem length_buffer
    (positive : 0 < size)
    (message : List Item) :
    (taken size absorb start message).buffer.length ≤ size := by
  have split := Nat.div_add_mod (message.length - 1) size
  have below := Nat.mod_lt (message.length - 1) positive
  rw [taken, List.length_drop, followed]
  omega

theorem followed_le (message : List Item) :
    size * followed size message ≤ message.length := by
  have below := Nat.mul_div_le (message.length - 1) size
  rw [followed]
  omega

/-- A message that fits the buffer stays in it. -/
theorem taken_of_short
    {message : List Item}
    (positive : 0 < size)
    (short : message.length ≤ size) :
    taken size absorb start message = ⟨start, 0, message⟩ := by
  have none : followed size message = 0 := Nat.div_eq_of_lt (by omega)
  rw [taken, none]
  rfl

/-- One more item is one more item of the message. -/
theorem push_taken
    (positive : 0 < size)
    (message : List Item)
    (item : Item) :
    push size absorb (taken size absorb start message) item =
      taken size absorb start (message ++ [item]) := by
  have le := @followed_le _ size message
  have length : (message ++ [item]).length - 1 = message.length := by simp
  rw [push]
  by_cases full : (taken size absorb start message).buffer.length = size
  · have atEnd : message.length = size * (followed size message + 1) := by
      rw [taken, List.length_drop] at full
      rw [Nat.mul_succ]
      omega
    have next :
        followed size (message ++ [item]) = followed size message + 1 := by
      rw [followed, length, atEnd, Nat.mul_div_cancel_left _ positive]
    have last :
        block size message (followed size message) =
          message.drop (size * followed size message) :=
      List.take_of_length_le (Nat.le_of_eq full)
    have rest : (message ++ [item]).drop message.length = [item] :=
      List.drop_left
    rw [if_pos full]
    simp only [taken, next, chain_append (Nat.le_of_eq atEnd.symm), ← atEnd,
      rest, chain, last]
  · have room : message.length < size * (followed size message + 1) := by
      have atMost := @length_buffer _ _ size absorb start positive message
      rw [taken, List.length_drop] at full atMost
      rw [Nat.mul_succ]
      omega
    have same :
        followed size (message ++ [item]) = followed size message := by
      rw [followed, length]
      refine Nat.div_eq_of_lt_le ?_ ?_
      · rwa [Nat.mul_comm]
      · rwa [Nat.mul_comm]
    rw [if_neg full]
    simp only [taken, same, chain_append le, List.drop_append_of_le_length le]

/-- A message is taken in piece by piece. -/
theorem foldl_push
    (positive : 0 < size)
    (message more : List Item) :
    more.foldl (push size absorb) (taken size absorb start message) =
      taken size absorb start (message ++ more) := by
  induction more generalizing message with
  | nil =>
      rw [List.append_nil]
      rfl
  | cons item more inductionHypothesis =>
      rw [List.foldl_cons, push_taken positive, inductionHypothesis,
        List.append_assoc]
      rfl

end Messages

end BlockStream
