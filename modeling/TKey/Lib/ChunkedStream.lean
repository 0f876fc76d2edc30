import Mathlib.Data.List.Basic

namespace ChunkedStream

/-!
# Streams in chunks

A stream of elements that arrives in chunks of any length.  A reader takes
elements from the front, whatever chunks they are in; what is left is again a
stream in chunks, and its boundaries are those of the original.
-/

variable {α : Type}

/-- The stream without its first `count` elements. -/
def chop : Nat → List (List α) → List (List α)
  | _, [] => []
  | count, chunk :: rest =>
      if count < chunk.length then
        chunk.drop count :: rest
      else
        chop (count - chunk.length) rest

/-- A chunk ends after `count` elements of the stream. -/
def IsBoundary (chunks : List (List α)) (count : Nat) : Prop :=
  ∃ taken, (chunks.take taken).flatten.length = count

@[simp] theorem chop_nil (count : Nat) :
    chop count ([] : List (List α)) = [] := by
  rw [chop]

/-- Chopping inside the first chunk leaves the rest of it. -/
theorem chop_inside
    {count : Nat}
    {chunk : List α}
    (inside : count < chunk.length)
    (rest : List (List α)) :
    chop count (chunk :: rest) = chunk.drop count :: rest := by
  rw [chop, if_pos inside]

/-- Chopping beyond the first chunk goes on behind it. -/
theorem chop_beyond
    {count : Nat}
    {chunk : List α}
    (beyond : chunk.length ≤ count)
    (rest : List (List α)) :
    chop count (chunk :: rest) = chop (count - chunk.length) rest := by
  rw [chop, if_neg (Nat.not_lt.mpr beyond)]

/-- The elements that are left. -/
theorem flatten_chop (count : Nat) (chunks : List (List α)) :
    (chop count chunks).flatten = chunks.flatten.drop count := by
  induction chunks generalizing count with
  | nil =>
      rw [chop_nil, List.flatten_nil, List.drop_nil]
  | cons chunk rest inductionHypothesis =>
      by_cases inside : count < chunk.length
      · rw [chop_inside inside, List.flatten_cons, List.flatten_cons,
          List.drop_append_of_le_length (Nat.le_of_lt inside)]
      · have beyond := Nat.not_lt.mp inside
        rw [chop_beyond beyond, inductionHypothesis, List.flatten_cons,
          List.drop_append, List.drop_eq_nil_of_le beyond,
          List.nil_append]

/-- Chopping nothing leaves a stream without empty chunks as it is. -/
theorem chop_zero
    {chunks : List (List α)}
    (nonempty : ∀ chunk, chunk ∈ chunks → chunk ≠ []) :
    chop 0 chunks = chunks := by
  cases chunks with
  | nil =>
      exact chop_nil 0
  | cons chunk rest =>
      have inside : 0 < chunk.length :=
        List.length_pos_of_ne_nil (nonempty chunk List.mem_cons_self)
      rw [chop_inside inside, List.drop_zero]

/-- Chopping everything leaves nothing. -/
theorem chop_all (chunks : List (List α)) :
    chop chunks.flatten.length chunks = [] := by
  induction chunks with
  | nil =>
      exact chop_nil _
  | cons chunk rest inductionHypothesis =>
      rw [List.flatten_cons, List.length_append,
        chop_beyond (Nat.le_add_right _ _), Nat.add_sub_cancel_left]
      exact inductionHypothesis

/-- Chopping twice chops both counts. -/
theorem chop_chop (first second : Nat) (chunks : List (List α)) :
    chop second (chop first chunks) = chop (first + second) chunks := by
  induction chunks generalizing first with
  | nil =>
      rw [chop_nil, chop_nil, chop_nil]
  | cons chunk rest inductionHypothesis =>
      by_cases inside : first < chunk.length
      · rw [chop_inside inside]
        by_cases within : first + second < chunk.length
        · have shorter : second < (chunk.drop first).length := by
            rw [List.length_drop]
            omega
          rw [chop_inside shorter, chop_inside within, List.drop_drop]
        · have longer : (chunk.drop first).length ≤ second := by
            rw [List.length_drop]
            omega
          have left :
              second - (chunk.length - first) =
                first + second - chunk.length := by
            omega
          rw [chop_beyond longer, chop_beyond (Nat.not_lt.mp within),
            List.length_drop, left]
      · have beyond := Nat.not_lt.mp inside
        have left :
            first - chunk.length + second =
              first + second - chunk.length := by
          omega
        rw [chop_beyond beyond, inductionHypothesis, left,
          chop_beyond (Nat.le_add_right_of_le beyond)]

@[simp] theorem isBoundary_zero (chunks : List (List α)) :
    IsBoundary chunks 0 :=
  ⟨0, rfl⟩

/-- No chunk ends behind the end of the stream. -/
theorem isBoundary_nil_iff {count : Nat} :
    IsBoundary ([] : List (List α)) count ↔ count = 0 := by
  constructor
  · rintro ⟨taken, length⟩
    rw [List.take_nil, List.flatten_nil, List.length_nil] at length
    exact length.symm
  · rintro rfl
    exact isBoundary_zero _

/-- The boundaries of a stream lie at or behind the end of the first chunk. -/
theorem isBoundary_cons_iff
    {chunk : List α}
    {rest : List (List α)}
    {count : Nat}
    (positive : 0 < count) :
    IsBoundary (chunk :: rest) count ↔
      chunk.length ≤ count ∧ IsBoundary rest (count - chunk.length) := by
  constructor
  · rintro ⟨taken, length⟩
    cases taken with
    | zero =>
        rw [List.take_zero, List.flatten_nil, List.length_nil] at length
        omega
    | succ taken =>
        rw [List.take_succ_cons, List.flatten_cons,
          List.length_append] at length
        exact ⟨by omega, taken, by omega⟩
  · rintro ⟨covers, taken, length⟩
    refine ⟨taken + 1, ?_⟩
    rw [List.take_succ_cons, List.flatten_cons, List.length_append,
      length]
    omega

/-- The stream that is left ends its chunks where the original does. -/
theorem isBoundary_chop_iff
    {chunks : List (List α)}
    {count next : Nat}
    (positive : 0 < next) :
    IsBoundary (chop count chunks) next ↔
      IsBoundary chunks (count + next) := by
  induction chunks generalizing count with
  | nil =>
      rw [chop_nil, isBoundary_nil_iff, isBoundary_nil_iff]
      omega
  | cons chunk rest inductionHypothesis =>
      rw [isBoundary_cons_iff (Nat.add_pos_right count positive)]
      by_cases inside : count < chunk.length
      · have left : (chunk.drop count).length = chunk.length - count :=
          List.length_drop
        have place :
            next - (chunk.length - count) =
              count + next - chunk.length := by
          omega
        rw [chop_inside inside, isBoundary_cons_iff positive, left, place]
        have same :
            chunk.length - count ≤ next ↔
              chunk.length ≤ count + next := by
          omega
        rw [same]
      · have beyond := Nat.not_lt.mp inside
        have place :
            count - chunk.length + next = count + next - chunk.length := by
          omega
        have covers : chunk.length ≤ count + next :=
          Nat.le_trans beyond (Nat.le_add_right _ _)
        rw [chop_beyond beyond, inductionHypothesis, place]
        exact (and_iff_right covers).symm

end ChunkedStream
