import Mathlib.Logic.Equiv.Basic

/-!
# Memories behind a scrambling

Words are written under a mask that keeps some of their bits.  A memory can be
kept in scrambled form: the address is changed by a bijection, and the words by
one that depends on the address.  Seen through the scrambling it is a plain
memory.
-/

namespace ScrambledMemory

section Merge

variable {width : Nat}

/-- The new word where the mask is set, and the old one elsewhere. -/
def merge (mask old new : BitVec width) : BitVec width :=
  (old &&& ~~~mask) ||| (new &&& mask)

theorem getLsbD_merge (mask old new : BitVec width) (index : Nat) :
    (merge mask old new).getLsbD index =
      if mask.getLsbD index then new.getLsbD index else old.getLsbD index := by
  rw [merge, BitVec.getLsbD_or, BitVec.getLsbD_and, BitVec.getLsbD_and,
    BitVec.getLsbD_not]
  by_cases inside : index < width
  · cases mask.getLsbD index <;> simp [inside]
  · have outside := Nat.le_of_not_lt inside
    simp [BitVec.getLsbD_of_ge _ _ outside]

/-- An empty mask keeps the word. -/
@[simp] theorem merge_zero (old new : BitVec width) :
    merge (BitVec.ofNat width 0) old new = old := by
  apply BitVec.eq_of_getLsbD_eq
  intro index _
  simp [getLsbD_merge]

/-- Writing a word again changes nothing. -/
theorem merge_merge (mask old new : BitVec width) :
    merge mask (merge mask old new) new = merge mask old new := by
  apply BitVec.eq_of_getLsbD_eq
  intro index _
  rw [getLsbD_merge]
  split_ifs with selected
  · rw [getLsbD_merge, if_pos selected]
  · rfl

/-- Words can be merged in scrambled form. -/
theorem merge_xor (mask old new key : BitVec width) :
    merge mask (old ^^^ key) (new ^^^ key) = merge mask old new ^^^ key := by
  apply BitVec.eq_of_getLsbD_eq
  intro index _
  rw [getLsbD_merge, BitVec.getLsbD_xor, BitVec.getLsbD_xor,
    BitVec.getLsbD_xor, getLsbD_merge]
  split_ifs <;> rfl

/-- Words can be merged in two halves. -/
theorem merge_append
    {width' : Nat}
    (mask old new : BitVec width)
    (mask' old' new' : BitVec width') :
    merge (mask ++ mask') (old ++ old') (new ++ new') =
      merge mask old new ++ merge mask' old' new' := by
  apply BitVec.eq_of_getLsbD_eq
  intro index _
  simp only [getLsbD_merge, BitVec.getLsbD_append]
  split_ifs <;> rfl

end Merge

section Scramble

variable {Address Word : Type}

/-- How the addresses and the words of a memory are scrambled. -/
structure Scrambling (Address Word : Type) where
  address : Equiv.Perm Address
  word : Address → Equiv.Perm Word

/-- What a scrambled memory holds, seen through the scrambling. -/
def Scrambling.view
    (scrambling : Scrambling Address Word)
    (memory : Address → Word) : Address → Word := fun address =>
  (scrambling.word address).symm (memory (scrambling.address address))

/-- The scrambled memory that is seen as a memory. -/
def Scrambling.hide
    (scrambling : Scrambling Address Word)
    (memory : Address → Word) : Address → Word := fun address =>
  scrambling.word (scrambling.address.symm address)
    (memory (scrambling.address.symm address))

theorem Scrambling.hide_view
    (scrambling : Scrambling Address Word)
    (memory : Address → Word) :
    scrambling.hide (scrambling.view memory) = memory := by
  funext address
  rw [hide, view, Equiv.apply_symm_apply, Equiv.apply_symm_apply]

theorem Scrambling.view_hide
    (scrambling : Scrambling Address Word)
    (memory : Address → Word) :
    scrambling.view (scrambling.hide memory) = memory := by
  funext address
  rw [view, hide, Equiv.symm_apply_apply, Equiv.symm_apply_apply]

variable [DecidableEq Address]

/-- Writing a scrambled word is writing the word into a plain memory. -/
theorem Scrambling.view_update
    (scrambling : Scrambling Address Word)
    (memory : Address → Word)
    (address : Address)
    (word : Word) :
    scrambling.view
        (Function.update memory (scrambling.address address)
          (scrambling.word address word)) =
      Function.update (scrambling.view memory) address word := by
  funext other
  by_cases same : other = address
  · rw [same, Function.update_self, Scrambling.view, Function.update_self,
      Equiv.symm_apply_apply]
  · have apart : scrambling.address other ≠ scrambling.address address :=
      fun equal => same (scrambling.address.injective equal)
    rw [Function.update_of_ne same, Scrambling.view,
      Function.update_of_ne apart, Scrambling.view]

/-- A key cancels itself. -/
theorem xor_key_key {width : Nat} (word key : BitVec width) :
    word ^^^ key ^^^ key = word := by
  rw [BitVec.xor_assoc, BitVec.xor_self, BitVec.xor_zero]

/-- The permutation of words that a key stands for. -/
def xorKey {width : Nat} (key : BitVec width) :
    Equiv.Perm (BitVec width) where
  toFun word := word ^^^ key
  invFun word := word ^^^ key
  left_inv word := xor_key_key word key
  right_inv word := xor_key_key word key

end Scramble

end ScrambledMemory
