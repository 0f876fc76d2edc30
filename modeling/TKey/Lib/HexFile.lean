import Mathlib.Algebra.Group.Nat.Defs
import Mathlib.Data.List.Basic

namespace HexFile

/-!
# Files of hexadecimal words

A memory image as text: one hexadecimal word after the other, with white space
between them.  Words that are written with a fixed number of digits read back
as their values.
-/

section Digits

/-- The value of a hexadecimal digit. -/
def digitValue (digit : Char) : Option Nat :=
  if '0' ≤ digit ∧ digit ≤ '9' then
    some (digit.toNat - '0'.toNat)
  else if 'a' ≤ digit ∧ digit ≤ 'f' then
    some (digit.toNat - 'a'.toNat + 10)
  else if 'A' ≤ digit ∧ digit ≤ 'F' then
    some (digit.toNat - 'A'.toNat + 10)
  else
    none

/-- The number that digits make up after the digits of another one. -/
def numberFrom (start : Nat) (digits : List Char) : Option Nat :=
  digits.foldlM
    (fun value digit => (digitValue digit).map (16 * value + ·))
    start

/-- A number with leading zeros up to some number of digits. -/
def hexDigits (width value : Nat) : List Char :=
  (Nat.toDigits 16 value).leftpad width '0'

/-- The sixteen digits are no white space, and have their values. -/
theorem digitValue_digitChar {value : Nat} (isDigit : value < 16) :
    digitValue value.digitChar = some value ∧
      value.digitChar.isWhitespace = false := by
  revert value
  decide

theorem numberFrom_append
    (start : Nat)
    (first second : List Char) :
    numberFrom start (first ++ second) =
      (numberFrom start first).bind fun value => numberFrom value second :=
  List.foldlM_append

theorem numberFrom_digitChar
    {value : Nat}
    (isDigit : value < 16)
    (start : Nat) :
    numberFrom start [value.digitChar] = some (16 * start + value) := by
  simp [numberFrom, (digitValue_digitChar isDigit).1]

theorem numberFrom_zeros (start count : Nat) :
    numberFrom start (List.replicate count '0') = some (16 ^ count * start) := by
  induction count generalizing start with
  | zero =>
      simp [numberFrom]
  | succ count inductionHypothesis =>
      have zero : numberFrom start ['0'] = some (16 * start) :=
        numberFrom_digitChar (by decide : 0 < 16) start
      rw [List.replicate_succ, ← List.singleton_append, numberFrom_append,
        zero, Option.bind_some, inductionHypothesis, Nat.pow_succ,
        Nat.mul_assoc]

/-- Digits after those of another number shift it. -/
theorem numberFrom_toDigits (start value : Nat) :
    numberFrom start (Nat.toDigits 16 value) =
      some (16 ^ (Nat.toDigits 16 value).length * start + value) := by
  induction value using Nat.base_induction 16 (by decide) with
  | single value isDigit =>
      rw [Nat.toDigits_of_lt_base isDigit, numberFrom_digitChar isDigit]
      rfl
  | digit value last isDigit positive inductionHypothesis =>
      rw [← Nat.toDigits_append_toDigits (by decide) positive isDigit,
        numberFrom_append, inductionHypothesis, Option.bind_some,
        Nat.toDigits_of_lt_base isDigit, numberFrom_digitChar isDigit,
        List.length_append, List.length_singleton, Nat.pow_succ]
      congr 1
      rw [Nat.mul_add, ← Nat.add_assoc, ← Nat.mul_assoc,
        Nat.mul_comm 16 (16 ^ _)]

/-- A number with leading zeros has its value. -/
theorem numberFrom_hexDigits
    {width value : Nat}
    (positive : 0 < width)
    (fits : value < 16 ^ width)
    (start : Nat) :
    numberFrom start (hexDigits width value) =
      some (16 ^ width * start + value) := by
  have short : (Nat.toDigits 16 value).length ≤ width :=
    (Nat.length_toDigits_le_iff (by decide) positive).mpr fits
  rw [hexDigits, List.leftpad, numberFrom_append, numberFrom_zeros,
    Option.bind_some, numberFrom_toDigits, ← Nat.mul_assoc, ← Nat.pow_add,
    Nat.add_sub_cancel' short]

example : hexDigits 2 10 = ['0', 'a'] := by
  decide

/-- Digits are no white space. -/
theorem isWhitespace_of_mem_hexDigits
    {width value : Nat}
    {digit : Char}
    (member : digit ∈ hexDigits width value) :
    digit.isWhitespace = false := by
  have zero : '0'.isWhitespace = false := by
    decide
  rcases List.mem_append.mp member with padding | digits
  · rw [(List.mem_replicate.mp padding).2]
    exact zero
  · induction value using Nat.base_induction 16 (by decide) with
    | single value isDigit =>
        rw [Nat.toDigits_of_lt_base isDigit] at digits
        rw [List.mem_singleton.mp digits]
        exact (digitValue_digitChar isDigit).2
    | digit value last isDigit positive inductionHypothesis =>
        rw [← Nat.toDigits_append_toDigits (by decide) positive isDigit,
          Nat.toDigits_of_lt_base isDigit] at digits
        rcases List.mem_append.mp digits with before | isLast
        · exact inductionHypothesis (List.mem_append_right _ before) before
        · rw [List.mem_singleton.mp isLast]
          exact (digitValue_digitChar isDigit).2

theorem hexDigits_ne_nil (width value : Nat) : hexDigits width value ≠ [] :=
  List.append_ne_nil_of_right_ne_nil _ Nat.toDigits_ne_nil

end Digits

section Words

/-- The words of a file, if there is nothing else in it. -/
def readWords (text : List Char) : Option (List Nat) :=
  ((text.splitOnP Char.isWhitespace).filter (· ≠ [])).mapM (numberFrom 0)

/-- Lines with one number each are read as these numbers. -/
theorem readWords_lines
    {Entry : Type}
    {line : Entry → List Char}
    {value : Entry → Nat}
    (entries : List Entry)
    (numbers : ∀ entry, numberFrom 0 (line entry) = some (value entry))
    (solid : ∀ entry, ∀ c ∈ line entry, c.isWhitespace = false)
    (present : ∀ entry, line entry ≠ []) :
    readWords (entries.flatMap fun entry => line entry ++ ['\n']) =
      some (entries.map value) := by
  induction entries with
  | nil =>
      rfl
  | cons first rest inductionHypothesis =>
      rw [readWords] at inductionHypothesis ⊢
      rw [List.flatMap_cons, List.append_assoc, List.singleton_append,
        List.splitOnP_append_cons_of_forall_mem (solid first) _ (by decide),
        List.filter_cons, if_pos (decide_eq_true (present first)),
        List.mapM_cons, numbers first, inductionHypothesis]
      rfl

end Words

end HexFile
