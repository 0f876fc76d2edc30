import TKey.Lib.Register

namespace BoundedQueue

/-!
# Bounded queues

A queue for a limited number of elements.  In a cycle an element may be offered,
which is accepted if there is room, and the first element may be requested,
which is served if there is one; both may happen in the same cycle.
-/

variable {α : Type}

/-- What is asked of a queue in a cycle. -/
structure Cycle (α : Type) where
  offer : Option α
  request : Bool

/-- The element that is accepted. -/
def accepted (capacity : Nat) (queue : List α) (cycle : Cycle α) : List α :=
  if queue.length < capacity then cycle.offer.toList else []

/-- The element that is served. -/
def served (queue : List α) (cycle : Cycle α) : List α :=
  if cycle.request then queue.take 1 else []

/-- The queue after a cycle. -/
def step (capacity : Nat) (queue : List α) (cycle : Cycle α) : List α :=
  queue.drop (served queue cycle).length ++ accepted capacity queue cycle

/-- The queue after some cycles. -/
def run (capacity : Nat) (cycles : List (Cycle α)) : List α :=
  cycles.foldl (step capacity) []

/-- What is served comes from the front of the queue. -/
theorem served_append_drop (queue : List α) (cycle : Cycle α) :
    served queue cycle ++ queue.drop (served queue cycle).length = queue := by
  unfold served
  cases cycle.request with
  | false =>
      rfl
  | true =>
      cases queue <;> rfl

/-- Nothing is lost or reordered in a cycle. -/
theorem conserved (capacity : Nat) (queue : List α) (cycle : Cycle α) :
    queue ++ accepted capacity queue cycle =
      served queue cycle ++ step capacity queue cycle := by
  rw [step, ← List.append_assoc, served_append_drop]

/-- The queue never holds more than it has room for. -/
theorem length_step_le
    {capacity : Nat}
    {queue : List α}
    (bounded : queue.length ≤ capacity)
    (cycle : Cycle α) :
    (step capacity queue cycle).length ≤ capacity := by
  have one : cycle.offer.toList.length ≤ 1 := by
    cases cycle.offer <;> simp
  rw [step, List.length_append, List.length_drop, accepted]
  split
  · omega
  · rw [List.length_nil]
    omega

theorem length_foldl_le
    {capacity : Nat}
    {queue : List α}
    (bounded : queue.length ≤ capacity)
    (cycles : List (Cycle α)) :
    (cycles.foldl (step capacity) queue).length ≤ capacity := by
  induction cycles generalizing queue with
  | nil =>
      exact bounded
  | cons cycle cycles inductionHypothesis =>
      exact inductionHypothesis (length_step_le bounded cycle)

/-- What is accepted in a run is served in the same order, or still waits. -/
theorem accepted_eq_served_append
    (capacity : Nat)
    (queue : List α)
    (cycles : List (Cycle α)) :
    queue ++
        Register.outputs (step capacity) (accepted capacity) queue cycles =
      Register.outputs (step capacity) served queue cycles ++
        cycles.foldl (step capacity) queue := by
  induction cycles generalizing queue with
  | nil =>
      rw [Register.outputs, Register.outputs, List.append_nil]
      rfl
  | cons cycle cycles inductionHypothesis =>
      rw [Register.outputs, Register.outputs, List.foldl_cons,
        ← List.append_assoc, conserved, List.append_assoc, inductionHypothesis,
        List.append_assoc]

end BoundedQueue
