import TKey.ApplicationFpga
import Mathlib.Algebra.Group.Nat.Defs
import Mathlib.Data.List.Induction

namespace TKey.PatchUdsUdi

open Fpga

/-!
# Patching the UDS and the UDI

`patch_uds_udi.py` turns the words of the secret and of the identifier into the
truth tables of the 32 named multiplexers of each ROM.  A truth table says for
every input what one bit of the output is; a word gives that bit for one
address.
-/

section RewriteLut

/--
The inner loop of `rewrite_lut` for a word that has the bit: word `i` of
`count` words.
-/
def repeatWord
    (hasRe : Bool)
    (count i newInit : Nat) : Nat :=
  let repeats := 16 / count
  (List.range repeats).foldl
    (fun newInit k =>
      -- the output is zero if the read enable is not asserted
      if hasRe && decide (k < repeats / 2) then newInit
      else newInit ||| 1 <<< (k * count + i))
    newInit

/-- The loop of `rewrite_lut`: `new_init`. -/
def newInit (idx : Nat) (data : List Nat) (hasRe : Bool) : Nat :=
  data.zipIdx.foldl
    (fun newInit entry =>
      if entry.1 >>> idx &&& 1 ≠ 0 then
        repeatWord hasRe data.length entry.2 newInit
      else
        newInit)
    0

/-- `rewrite_lut`: the parameter `LUT_INIT`, 16 binary digits. -/
def rewriteLut
    (idx : Nat)
    (data : List Nat)
    (hasRe : Bool) : List Char :=
  (Nat.toDigits 2 (newInit idx data hasRe)).leftpad 16 '0'

/-- The truth table that a parameter stands for. -/
def lutInit (param : List Char) : BitVec 16 :=
  BitVec.ofNat 16 (Nat.ofDigitChars 2 param 0)

/-- The leading zeros do not matter. -/
theorem lutInit_rewriteLut
    (idx : Nat)
    (data : List Nat)
    (hasRe : Bool) :
    lutInit (rewriteLut idx data hasRe) =
      BitVec.ofNat 16 (newInit idx data hasRe) := by
  simp only [lutInit, rewriteLut, List.leftpad, Nat.ofDigitChars_append,
    Nat.ofDigitChars_replicate_zero, Nat.mul_zero]
  rw [Nat.ofDigitChars_toDigits (by decide) (by decide)]

end RewriteLut

section Bits

/-- A loop whose rounds each set some bits sets the bits of all rounds. -/
theorem testBit_foldl
    {Entry : Type}
    (round : Nat → Entry → Nat)
    (sets : Entry → Nat → Bool)
    (step : ∀ value entry bit,
      (round value entry).testBit bit =
        (value.testBit bit || sets entry bit))
    (entries : List Entry)
    (start bit : Nat) :
    (entries.foldl round start).testBit bit =
      (start.testBit bit || entries.any fun entry => sets entry bit) := by
  induction entries generalizing start with
  | nil =>
      simp
  | cons first rest inductionHypothesis =>
      simp only [List.foldl_cons, List.any_cons]
      rw [inductionHypothesis, step, Bool.or_assoc]

theorem testBit_repeatWord
    (hasRe : Bool)
    (count i value bit : Nat) :
    (repeatWord hasRe count i value).testBit bit =
      (value.testBit bit || (List.range (16 / count)).any fun k =>
        !(hasRe && decide (k < 16 / count / 2)) &&
          decide (k * count + i = bit)) := by
  unfold repeatWord
  apply testBit_foldl
  intro value k bit
  cases skipped : hasRe && decide (k < 16 / count / 2) with
  | true =>
      simp
  | false =>
      simp [Nat.testBit_or, Nat.one_shiftLeft, Nat.testBit_two_pow]

theorem testBit_newInit
    (idx : Nat)
    (data : List Nat)
    (hasRe : Bool)
    (bit : Nat) :
    (newInit idx data hasRe).testBit bit =
      data.zipIdx.any fun entry =>
        entry.1.testBit idx &&
          (List.range (16 / data.length)).any fun k =>
            !(hasRe && decide (k < 16 / data.length / 2)) &&
              decide (k * data.length + entry.2 = bit) := by
  unfold newInit
  rw [testBit_foldl _ _ _ _ 0 bit, Nat.zero_testBit, Bool.false_or]
  intro value entry bit
  have isBit : entry.1.testBit idx =
      decide (entry.1 >>> idx &&& 1 ≠ 0) := by
    simp only [Nat.testBit, Nat.and_comm 1, bne, beq_eq_decide, decide_not]
  by_cases set : entry.1 >>> idx &&& 1 ≠ 0
  · rw [if_pos set, testBit_repeatWord, isBit, decide_eq_true set,
      Bool.true_and]
  · rw [if_neg set, isBit, decide_eq_false set, Bool.false_and,
      Bool.or_false]

/--
Bit `bit` of the truth table is the bit of the word that `bit` selects, if no
read enable is needed or if `bit` is in the upper half of the table.
-/
theorem testBit_newInit_words
    (count : Nat)
    (words : Fin count → Nat)
    (idx : Nat)
    (hasRe : Bool)
    (repeats : Nat)
    (whole : repeats * count = 16)
    {bit : Nat}
    (inside : bit < 16)
    (selected : bit % count < count) :
    (newInit idx (List.ofFn words) hasRe).testBit bit =
      ((words ⟨bit % count, selected⟩).testBit idx &&
        !(hasRe && decide (bit / count < repeats / 2))) := by
  have positive : 0 < count := by
    exact Nat.lt_of_le_of_lt (Nat.zero_le _) selected
  have repeated : 16 / count = repeats := by
    rw [← whole, Nat.mul_div_cancel _ positive]
  rw [testBit_newInit, List.length_ofFn, repeated, Bool.eq_iff_iff]
  simp only [List.any_eq_true, Bool.and_eq_true, decide_eq_true_eq]
  constructor
  · rintro ⟨entry, member, set, k, -, enabled, same⟩
    rcases List.mem_zipIdx' member with ⟨short, isWord⟩
    rw [List.length_ofFn] at short
    -- quotient and remainder are unique
    have word : bit % count = entry.2 := by
      rw [← same, Nat.mul_comm, Nat.mul_add_mod, Nat.mod_eq_of_lt short]
    have round : bit / count = k := by
      rw [← same, Nat.mul_comm, Nat.mul_add_div positive,
        Nat.div_eq_of_lt short, Nat.add_zero]
    have content : words ⟨bit % count, selected⟩ = entry.1 := by
      rw [isWord, List.getElem_ofFn]
      congr 1
      exact Fin.ext word
    rw [content, round]
    exact ⟨set, enabled⟩
  · rintro ⟨set, enabled⟩
    refine ⟨(words ⟨bit % count, selected⟩, bit % count), ?_, set,
      bit / count, ?_, enabled, ?_⟩
    · rw [List.mem_zipIdx_iff_getElem?, List.getElem?_ofFn,
        dif_pos selected]
    · rw [List.mem_range, Nat.div_lt_iff_lt_mul positive, whole]
      exact inside
    · rw [Nat.mul_comm]
      exact Nat.div_add_mod bit count

end Bits

section Roms

/-- The words that the tool reads from its file. -/
def words {width : Nat} (data : BitVec width → BitVec 32) : List Nat :=
  List.ofFn fun i : Fin (2 ^ width) => (data (.ofFin i)).toNat

/-- `uds_rom` with the given truth tables. -/
def udsLuts
    (init : Fin 32 → BitVec 16)
    (addr : BitVec 3)
    (re : Bool) : BitVec 32 :=
  ofBits fun bit =>
    sbLut4 (init bit) (addr.getLsbD 0) (addr.getLsbD 1) (addr.getLsbD 2) re

/-- The value of the inputs of a multiplexer that are not connected. -/
structure UnusedInputs where
  i1 : Bool
  i2 : Bool
  i3 : Bool

/-- `udi_rom` with the given truth tables. -/
def udiLuts
    (init : Fin 32 → BitVec 16)
    (unused : Fin 32 → UnusedInputs)
    (addr : BitVec 1) : BitVec 32 :=
  ofBits fun bit =>
    sbLut4 (init bit) (addr.getLsbD 0) (unused bit).i1 (unused bit).i2
      (unused bit).i3

/-- The truth tables of the patched UDS are those of the provisioned ROM. -/
theorem lutInit_rewriteLut_uds
    (uds : BitVec 3 → BitVec 32)
    (bit : Fin 32) :
    lutInit (rewriteLut bit (words uds) true) = udsLutInit uds bit := by
  rw [lutInit_rewriteLut]
  apply BitVec.eq_of_getLsbD_eq
  intro index inside
  rw [BitVec.getLsbD_ofNat, decide_eq_true inside, Bool.true_and, words,
    testBit_newInit_words 8 _ bit true 2 rfl inside
      (Nat.mod_lt _ (by decide)), udsLutInit, BitVec.getLsbD_append]
  by_cases low : index < 8
  · have disabled : index / 8 < 2 / 2 := by
      rw [Nat.div_eq_of_lt low]
      decide
    simp [low, disabled]
  · have enabled : ¬ index / 8 < 2 / 2 := by omega
    have word : index % 8 = index - 8 := by omega
    rw [if_neg low, getLsbD_ofBits _ (by omega)]
    simp only [word, decide_eq_false enabled]
    simp [BitVec.getLsb, BitVec.testBit_toNat]

/-- Index of the bit that the multiplexer of the UDI selects. -/
theorem udiIndex (addr : BitVec 1) (unused : UnusedInputs) :
    ∃ index : Nat, index < 16 ∧ index % 2 = addr.toNat ∧
      ∀ init : BitVec 16,
        sbLut4 init (addr.getLsbD 0) unused.i1 unused.i2 unused.i3 =
          init.getLsbD index := by
  refine ⟨_, BitVec.isLt _, ?_, fun init => rfl⟩
  rcases unused with ⟨i1, i2, i3⟩
  revert addr i1 i2 i3
  decide

/--
The patched ROMs hold the words: the UDS behind its read enable, the UDI for
every value of the inputs that are not connected.
-/
theorem patched_roms
    (uds : BitVec 3 → BitVec 32)
    (udi : BitVec 1 → BitVec 32) :
    (∀ addr re,
      udsLuts (fun bit => lutInit (rewriteLut bit (words uds) true)) addr re =
        if re then uds addr else 0) ∧
      ∀ unused addr,
        udiLuts (fun bit => lutInit (rewriteLut bit (words udi) false))
            unused addr =
          udi addr := by
  constructor
  · intro addr re
    simp only [lutInit_rewriteLut_uds]
    exact udsRom_eq uds addr re
  · intro unused addr
    apply BitVec.eq_of_getLsbD_eq
    intro bit inside
    rcases udiIndex addr (unused ⟨bit, inside⟩) with
      ⟨index, short, selects, value⟩
    have selected : index % 2 < 2 := Nat.mod_lt _ (by decide)
    rw [udiLuts, getLsbD_ofBits _ inside, value, lutInit_rewriteLut,
      BitVec.getLsbD_ofNat, decide_eq_true short, Bool.true_and, words,
      testBit_newInit_words 2 _ bit false 8 rfl short selected]
    have word : BitVec.ofFin ⟨index % 2, selected⟩ = addr := by
      apply BitVec.eq_of_toNat_eq
      exact selects
    simp only [word, Bool.false_and, Bool.not_false, Bool.and_true,
      BitVec.testBit_toNat]

end Roms

end TKey.PatchUdsUdi
