import Mathlib.Data.Nat.Notation
import Mathlib.Order.Basic

namespace StopSignal

/-!
# Queues behind a stop signal

A producer fills a queue.  When the queue has reached a mark the producer is told
to stop, but a few elements may still come, until it is told to go on.  The level
of a queue is how much it can hold at most if nothing is taken.
-/

/-- A queue as its producer sees it. -/
structure Gauge where
  /-- The number of elements. -/
  count : Nat
  /-- How many elements have come since the producer was told to stop. -/
  stop : Option Nat

namespace Gauge

variable (mark allowed : Nat) (gauge : Gauge)

/-- An element may come. -/
def MayArrive : Prop :=
  ∀ late, gauge.stop = some late → late < allowed

/-- An element comes, and the producer is told to stop at the mark. -/
def arrive : Gauge where
  count := gauge.count + 1
  stop :=
    match gauge.stop with
    | some late => some (late + 1)
    | none => if mark ≤ gauge.count + 1 then some 0 else none

/-- Elements are taken. -/
def take (number : Nat) : Gauge where
  count := gauge.count - number
  stop := gauge.stop

/-- The producer is told to go on. -/
def go : Gauge where
  count := gauge.count
  stop := none

/-- The producer is told to stop. -/
def halt : Gauge where
  count := gauge.count
  stop := some (gauge.stop.getD 0)

/-- How much there can be if nothing is taken. -/
def level : Nat :=
  match gauge.stop with
  | some late => gauge.count + (allowed - late)
  | none => max (mark + allowed) (gauge.count + 1 + allowed)

theorem count_le_level : gauge.count ≤ gauge.level mark allowed := by
  rw [level]
  split
  · exact Nat.le_add_right _ _
  · omega

variable {mark allowed gauge}

/-- There is room for an element that may come. -/
theorem count_lt_level (mayArrive : gauge.MayArrive allowed) :
    gauge.count < gauge.level mark allowed := by
  rw [level]
  split
  case h_1 late stopped =>
    have early := mayArrive late stopped
    omega
  case h_2 => omega

/-- Elements that may come have been reckoned with. -/
theorem level_arrive_le (mayArrive : gauge.MayArrive allowed) :
    (gauge.arrive mark).level mark allowed ≤ gauge.level mark allowed := by
  rcases gauge with ⟨count, _ | late⟩
  · simp only [arrive]
    by_cases full : mark ≤ count + 1
    · simp only [if_pos full, level]
      omega
    · simp only [if_neg full, level]
      omega
  · have early := mayArrive late rfl
    simp only [arrive, level]
    omega

/-- Taking elements lowers the level, but not below that of a short queue. -/
theorem level_take_le
    {number : Nat}
    (inside : number ≤ gauge.count) :
    (gauge.take number).level mark allowed ≤
      max (mark + allowed) (gauge.level mark allowed - number) := by
  rcases gauge with ⟨count, _ | late⟩
  · simp only [take, level] at inside ⊢
    omega
  · simp only [take, level] at inside ⊢
    omega

theorem level_halt_le :
    gauge.halt.level mark allowed ≤ gauge.level mark allowed := by
  rcases gauge with ⟨count, _ | late⟩
  · simp only [halt, level, Option.getD_none]
    omega
  · exact Nat.le_refl _

end Gauge

end StopSignal
