import Mathlib.Data.Nat.Digits.Lemmas

namespace LittleEndian

/-!
# Little-endian numbers

The bytes of a number, least significant first, and the number that bytes make
up.  Numbers can be combined byte by byte.
-/

/-- The lowest bytes of a number. -/
def bytes : Nat → Nat → List UInt8
  | 0, _ => []
  | count + 1, number => UInt8.ofNat number :: bytes count (number / 256)

/-- The number that bytes make up. -/
def value (bytes : List UInt8) : Nat :=
  Nat.ofDigits 256 (bytes.map UInt8.toNat)

@[simp] theorem value_nil : value [] = 0 :=
  rfl

@[simp] theorem value_cons (byte : UInt8) (rest : List UInt8) :
    value (byte :: rest) = byte.toNat + 256 * value rest :=
  Nat.ofDigits_cons

/-- The lowest bytes make up the number if it has no others. -/
theorem value_bytes
    {count number : Nat}
    (fits : number < 256 ^ count) :
    value (bytes count number) = number := by
  induction count generalizing number with
  | zero =>
      exact (Nat.lt_one_iff.mp fits).symm
  | succ count inductionHypothesis =>
      have rest : number / 256 < 256 ^ count :=
        Nat.div_lt_of_lt_mul (Nat.pow_succ' ▸ fits)
      rw [bytes, value_cons, inductionHypothesis rest, UInt8.toNat_ofNat']
      exact Nat.mod_add_div number 256

/-- Bytes are those of the number that they make up. -/
theorem bytes_value (given : List UInt8) :
    bytes given.length (value given) = given := by
  induction given with
  | nil =>
      rfl
  | cons byte rest inductionHypothesis =>
      have low := byte.toNat_lt
      have high : (byte.toNat + 256 * value rest) / 256 = value rest := by
        omega
      rw [List.length_cons, bytes, value_cons, high, inductionHypothesis]
      congr 1
      apply UInt8.toNat_inj.mp
      rw [UInt8.toNat_ofNat']
      omega

/-- Numbers are combined bit by bit if their bytes are. -/
theorem zipWith_xor_bytes (count left right : Nat) :
    List.zipWith (· ^^^ ·) (bytes count left) (bytes count right) =
      bytes count (left ^^^ right) := by
  induction count generalizing left right with
  | zero =>
      rfl
  | succ count inductionHypothesis =>
      rw [bytes, bytes, bytes, List.zipWith_cons_cons, inductionHypothesis]
      congr 1
      · apply UInt8.toNat_inj.mp
        rw [UInt8.toNat_xor, UInt8.toNat_ofNat', UInt8.toNat_ofNat',
          UInt8.toNat_ofNat']
        exact (Nat.xor_mod_two_pow (n := 8)).symm
      · congr 1
        exact (Nat.xor_div_two_pow (n := 8)).symm

end LittleEndian
