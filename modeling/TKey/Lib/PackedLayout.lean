import Mathlib.Algebra.Group.Nat.Defs
import Mathlib.Data.List.OfFn
import Mathlib.Logic.Equiv.Fin.Basic

/-!
# Packed byte layouts

A packed layout is a bijection between the values of a type and the byte
vectors of one fixed length.  Layouts of records and arrays are built from the
layouts of their parts, so a packed record can be written to memory and read
back without loss, and every byte string of the right length is the image of
some record.
-/

/-- A byte-exact representation of `α` in `size` bytes. -/
abbrev PackedLayout (α : Type) (size : Nat) :=
  α ≃ Vector UInt8 size

namespace PackedLayout

/-- Raw bytes are their own layout. -/
def bytes (size : Nat) : PackedLayout (Vector UInt8 size) size :=
  Equiv.refl _

/-- A single byte. -/
def byte : PackedLayout UInt8 1 where
  toFun value := #v[value]
  invFun data := data[0]
  left_inv _ := rfl
  right_inv data := by
    ext index inBounds
    have : index = 0 := by
      omega
    subst index
    rfl

/-- Byte `index` of a word, counted from the least significant one. -/
def wordByte (word : UInt32) (index : Nat) : UInt8 :=
  UInt8.ofNat (word.toNat / 256 ^ index)

/-- The word with the given bytes, least significant first. -/
def wordOfBytes (byte0 byte1 byte2 byte3 : UInt8) : UInt32 :=
  UInt32.ofNat
    (byte0.toNat + 256 * byte1.toNat + 65536 * byte2.toNat +
      16777216 * byte3.toNat)

/-- A word is determined by its four bytes. -/
theorem wordOfBytes_wordByte (word : UInt32) :
    wordOfBytes (wordByte word 0) (wordByte word 1)
        (wordByte word 2) (wordByte word 3) =
      word := by
  have bound := word.toNat_lt
  apply UInt32.toNat_inj.mp
  simp only [wordOfBytes, wordByte, UInt32.toNat_ofNat',
    UInt8.toNat_ofNat']
  omega

/-- The bytes of an assembled word are the bytes it was assembled from. -/
theorem wordByte_wordOfBytes
    (byte0 byte1 byte2 byte3 : UInt8) :
    wordByte (wordOfBytes byte0 byte1 byte2 byte3) 0 = byte0 ∧
      wordByte (wordOfBytes byte0 byte1 byte2 byte3) 1 = byte1 ∧
      wordByte (wordOfBytes byte0 byte1 byte2 byte3) 2 = byte2 ∧
      wordByte (wordOfBytes byte0 byte1 byte2 byte3) 3 = byte3 := by
  have bound0 := byte0.toNat_lt
  have bound1 := byte1.toNat_lt
  have bound2 := byte2.toNat_lt
  have bound3 := byte3.toNat_lt
  refine ⟨?_, ?_, ?_, ?_⟩ <;>
    (apply UInt8.toNat_inj.mp
     simp only [wordOfBytes, wordByte, UInt32.toNat_ofNat',
       UInt8.toNat_ofNat']
     omega)

/-- A 32-bit word, least significant byte first. -/
def word : PackedLayout UInt32 4 where
  toFun value :=
    #v[wordByte value 0, wordByte value 1, wordByte value 2,
      wordByte value 3]
  invFun data := wordOfBytes data[0] data[1] data[2] data[3]
  left_inv value := wordOfBytes_wordByte value
  right_inv data := by
    obtain ⟨at0, at1, at2, at3⟩ :=
      wordByte_wordOfBytes data[0] data[1] data[2] data[3]
    ext index inBounds
    have cases : index = 0 ∨ index = 1 ∨ index = 2 ∨ index = 3 := by
      omega
    rcases cases with rfl | rfl | rfl | rfl
    · exact congrArg UInt8.toNat at0
    · exact congrArg UInt8.toNat at1
    · exact congrArg UInt8.toNat at2
    · exact congrArg UInt8.toNat at3

/-- Two consecutive parts. -/
def pair
    {α β : Type}
    {left right : Nat}
    (first : PackedLayout α left)
    (second : PackedLayout β right) :
    PackedLayout (α × β) (left + right) where
  toFun value := first value.1 ++ second value.2
  invFun data :=
    (first.symm ((data.take left).cast (by omega)),
      second.symm ((data.drop left).cast (by omega)))
  left_inv value := by
    have firstPart :
        ((first value.1 ++ second value.2).take left).cast (by omega) =
          first value.1 := by
      ext index inBounds
      simp [inBounds]
    have secondPart :
        ((first value.1 ++ second value.2).drop left).cast (by omega) =
          second value.2 := by
      ext index inBounds
      simp
    simp only [firstPart, secondPart, Equiv.symm_apply_apply]
  right_inv data := by
    simp only [Equiv.apply_symm_apply]
    ext index inBounds
    by_cases low : index < left
    · simp [low, Vector.take]
    · have position : left + (index - left) = index := by
        omega
      simp [Vector.getElem_append, low, position]

/-- `count` consecutive elements of one layout. -/
def array
    {α : Type}
    {size : Nat}
    (element : PackedLayout α size)
    (count : Nat) :
    PackedLayout (Vector α count) (count * size) where
  toFun values :=
    Vector.ofFn fun position =>
      let place := finProdFinEquiv.symm position
      (element values[place.1])[place.2]
  invFun data :=
    Vector.ofFn fun index =>
      element.symm
        (Vector.ofFn fun offset =>
          data[finProdFinEquiv (index, offset)])
  left_inv values := by
    ext1 index inBounds
    have elementBytes :
        (Vector.ofFn fun offset : Fin size =>
            (element values[index])[offset]) =
          element values[index] := by
      ext offset offsetInBounds
      simp
    simp only [Fin.getElem_fin, Vector.getElem_ofFn, Fin.eta,
      Equiv.symm_apply_apply] at elementBytes ⊢
    rw [elementBytes, Equiv.symm_apply_apply]
  right_inv data := by
    ext1 position inBounds
    simp only [Fin.getElem_fin, Vector.getElem_ofFn, Fin.eta,
      Equiv.apply_symm_apply, Prod.mk.eta]

/-- A record laid out as the product of its fields. -/
def record
    {α β : Type}
    {size : Nat}
    (fields : α ≃ β)
    (layout : PackedLayout β size) :
    PackedLayout α size :=
  fields.trans layout

/-- The bytes of two consecutive parts. -/
theorem toList_pair
    {α β : Type}
    {left right : Nat}
    (first : PackedLayout α left)
    (second : PackedLayout β right)
    (value : α × β) :
    (first.pair second value).toList =
      (first value.1).toList ++ (second value.2).toList :=
  Vector.toList_append

/-- The place of an element's byte among the bytes of all elements. -/
theorem symm_finProdFinEquiv
    {count size : Nat}
    (index : Fin count)
    (offset : Fin size)
    (inBounds : index.val * size + offset.val < count * size) :
    finProdFinEquiv.symm ⟨index.val * size + offset.val, inBounds⟩ =
      (index, offset) := by
  rw [Equiv.symm_apply_eq]
  apply Fin.ext
  show index.val * size + offset.val = offset.val + size * index.val
  rw [Nat.add_comm, Nat.mul_comm]

/-- The bytes of consecutive elements. -/
theorem toList_array
    {α : Type}
    {size count : Nat}
    (element : PackedLayout α size)
    (values : Vector α count) :
    (element.array count values).toList =
      values.toList.flatMap fun value => (element value).toList := by
  have entries :
      values.toList = List.ofFn fun index : Fin count => values[index] := by
    apply List.ext_getElem <;> simp
  have elementBytes (value : α) :
      (List.ofFn fun offset : Fin size => (element value)[offset]) =
        (element value).toList := by
    apply List.ext_getElem <;> simp
  have whole :
      (element.array count values).toList =
        List.ofFn fun position : Fin (count * size) =>
          (element values[(finProdFinEquiv.symm position).1])[
            (finProdFinEquiv.symm position).2] :=
    Vector.toList_ofFn
  rw [whole, List.ofFn_mul, entries, List.flatMap_def, List.map_ofFn]
  simp only [symm_finProdFinEquiv]
  congr 1
  apply congrArg List.ofFn
  funext index
  exact elementBytes values[index]

end PackedLayout
