import Mathlib.Algebra.Group.Nat.Defs
import TKey.Blake2s
import TKey.Lib.BlockStream

namespace TKey

open BlockStream

/-!
# BLAKE2s of a whole message

What the incremental functions compute, as a function of the message: the
blocks of the message, with the key as a block of its own before them, are
chained with the number of bytes so far; the last block is filled up with
zeros and marked.
-/

section Definitions

/-- Bytes as a block, filled up with zeros. -/
def padBlock (data : List UInt8) : Vector UInt8 64 :=
  Vector.ofFn fun index => data.getD index 0

/-- Compress a block into a state, with the number of bytes up to its end. -/
def compressBlock
    (h : Vector UInt32 8)
    (data : List UInt8)
    (count : Nat)
    (last : Bool) : Vector UInt32 8 :=
  (blake2sCompress
    { b := padBlock data
      h := h
      t0 := .ofNat count
      t1 := .ofNat (count / 2 ^ 32)
      c := 0
      outlen := 0 } last).h

/-- A block that another one follows. -/
def chainBlock
    (h : Vector UInt32 8)
    (done : Nat)
    (data : List UInt8) : Vector UInt32 8 :=
  compressBlock h data (64 * done + 64) false

theorem zero_lt_words : 0 < 8 := by
  decide

/-- The state before the first block. -/
def startState (outlen keylen : Nat) : Vector UInt32 8 :=
  blake2sIv.set 0
    (blake2sIv.get ⟨0, zero_lt_words⟩ ^^^
      ((0x01010000 : UInt32) ^^^ (keylen.toUInt32 <<< 8) ^^^ outlen.toUInt32))
    zero_lt_words

/-- The key is a block before the message. -/
def keyed (key message : List UInt8) : List UInt8 :=
  if key.length > 0 then (padBlock key).toList ++ message else message

/-- Bytes of the state, least significant first. -/
def digestBytes (outlen : Nat) (h : Vector UInt32 8) : List UInt8 :=
  (List.range outlen).map fun i =>
    ((h.toList.getD (i / 4) 0) >>> (8 * (i % 4)).toUInt32).toUInt8

/-- The digest of a message. -/
def blake2sOfBlocks (outlen : Nat) (key message : List UInt8) : List UInt8 :=
  let data := keyed key message
  let last := followed 64 data
  let h := chain 64 chainBlock (startState outlen key.length) data last
  digestBytes outlen (compressBlock h (data.drop (64 * last)) data.length true)

/-- A context has taken in what a stream has. -/
structure TakenIn
    (outlen : Nat)
    (ctx : Blake2sCtx)
    (stream : Buffered (Vector UInt32 8) UInt8) : Prop where
  h : ctx.h = stream.state
  t0 : ctx.t0 = .ofNat (64 * stream.done)
  t1 : ctx.t1 = .ofNat (64 * stream.done / 2 ^ 32)
  c : ctx.c = stream.buffer.length
  fits : stream.buffer.length ≤ 64
  b :
    ∀ index (inside : index < 64),
      index < stream.buffer.length →
        ctx.b[index] = stream.buffer.getD index 0
  outlen : ctx.outlen = outlen

end Definitions

section Steps

/-- The two words count with a carry. -/
theorem blake2sCount_words
    {ctx : Blake2sCtx}
    {count : Nat}
    (t0 : ctx.t0 = .ofNat count)
    (t1 : ctx.t1 = .ofNat (count / 2 ^ 32))
    (small : ctx.c ≤ 64) :
    (blake2sCount ctx).t0 = .ofNat (count + ctx.c) ∧
      (blake2sCount ctx).t1 = .ofNat ((count + ctx.c) / 2 ^ 32) := by
  have isC : ctx.c.toUInt32.toNat = ctx.c := by
    rw [Nat.toUInt32, UInt32.toNat_ofNat']
    exact Nat.mod_eq_of_lt (by omega)
  have low : (blake2sCount ctx).t0 = .ofNat (count + ctx.c) := by
    rw [blake2sCount, t0]
    apply UInt32.toNat_inj.mp
    rw [UInt32.toNat_add, isC, UInt32.toNat_ofNat', UInt32.toNat_ofNat']
    omega
  refine ⟨low, ?_⟩
  have carries :
      ctx.t0 + ctx.c.toUInt32 < ctx.c.toUInt32 ↔
        2 ^ 32 ≤ count % 2 ^ 32 + ctx.c := by
    rw [UInt32.lt_iff_toNat_lt, UInt32.toNat_add, isC, t0, UInt32.toNat_ofNat']
    omega
  rw [blake2sCount]
  simp only [carries, t1]
  apply UInt32.toNat_inj.mp
  split
  · rw [UInt32.toNat_add, UInt32.toNat_ofNat', UInt32.toNat_ofNat']
    have isOne : (1 : UInt32).toNat = 1 := rfl
    omega
  · rw [UInt32.toNat_ofNat', UInt32.toNat_ofNat']
    omega

/-- Compressing depends on the block, the state and the count. -/
theorem h_blake2sCompress
    {ctx : Blake2sCtx}
    {data : List UInt8}
    {count : Nat}
    (b : ctx.b = padBlock data)
    (t0 : ctx.t0 = .ofNat count)
    (t1 : ctx.t1 = .ofNat (count / 2 ^ 32))
    (last : Bool) :
    (blake2sCompress ctx last).h = compressBlock ctx.h data count last := by
  rw [compressBlock, ← b, ← t0, ← t1]
  rfl

variable
  {outlen : Nat}
  {ctx : Blake2sCtx}
  {stream : Buffered (Vector UInt32 8) UInt8}

/-- The count after the bytes in the buffer. -/
theorem TakenIn.count (holds : TakenIn outlen ctx stream) :
    (blake2sCount ctx).t0 =
        .ofNat (64 * stream.done + stream.buffer.length) ∧
      (blake2sCount ctx).t1 =
        .ofNat ((64 * stream.done + stream.buffer.length) / 2 ^ 32) := by
  have counted := blake2sCount_words holds.t0 holds.t1 (holds.c ▸ holds.fits)
  rwa [holds.c] at counted

/-- One more byte. -/
theorem TakenIn.updateByte
    (holds : TakenIn outlen ctx stream)
    (byte : UInt8) :
    TakenIn outlen (blake2sUpdateByte ctx byte) (push 64 chainBlock stream byte) := by
  obtain ⟨t0, t1⟩ := holds.count
  by_cases full : stream.buffer.length = 64
  · rw [full] at t0 t1
    have isBlock : (blake2sCount ctx).b = padBlock stream.buffer := by
      ext index inside
      rw [padBlock, Vector.getElem_ofFn]
      exact congrArg _ (holds.b index inside (full ▸ inside))
    have compressed := h_blake2sCompress isBlock t0 t1 false
    have isFull : ctx.c = 64 := holds.c.trans full
    rw [blake2sUpdateByte, if_pos isFull, push, if_pos full]
    constructor
    case h => exact compressed.trans (congrArg (compressBlock · _ _ _) holds.h)
    case t0 => exact t0
    case t1 => exact t1
    case c => rfl
    case outlen => exact holds.outlen
    case fits => exact (by decide : 1 ≤ 64)
    case b =>
      intro index inside isByte
      obtain rfl : index = 0 := Nat.lt_one_iff.mp isByte
      change (Vector.setIfInBounds _ 0 byte)[0] = byte
      exact Vector.getElem_setIfInBounds_self inside
  · have notFull : ¬ ctx.c = 64 := fun isFull => full (holds.c.symm.trans isFull)
    have fits := holds.fits
    rw [blake2sUpdateByte, if_neg notFull, push, if_neg full]
    constructor
    case h => exact holds.h
    case t0 => exact holds.t0
    case t1 => exact holds.t1
    case outlen => exact holds.outlen
    case c => rw [List.length_append, holds.c]; rfl
    case fits =>
      rw [List.length_append, List.length_singleton]
      omega
    case b =>
      intro index inside isByte
      rw [List.length_append, List.length_singleton] at isByte
      rw [Vector.getElem_setIfInBounds, holds.c]
      by_cases isLast : stream.buffer.length = index
      · rw [if_pos isLast, ← isLast, List.getD_append_right _ _ _ _ (Nat.le_refl _)]
        simp
      · rw [if_neg isLast, List.getD_append _ _ _ _ (by omega)]
        exact holds.b index inside (by omega)

/-- More bytes. -/
theorem TakenIn.update
    (holds : TakenIn outlen ctx stream)
    (input : List UInt8) :
    TakenIn outlen (blake2sUpdate ctx input)
      (input.foldl (push 64 chainBlock) stream) := by
  induction input generalizing ctx stream with
  | nil =>
      exact holds
  | cons byte rest inductionHypothesis =>
      exact inductionHypothesis (holds.updateByte byte)

/-- The context whose compression ends a hash. -/
def lastCtx (ctx : Blake2sCtx) : Blake2sCtx :=
  { blake2sCount ctx with
    b := Vector.ofFn fun i => if i.val < ctx.c then ctx.b.get i else 0
    c := 64 }

theorem blake2sFinal_eq (ctx : Blake2sCtx) :
    blake2sFinal ctx =
      digestBytes ctx.outlen (blake2sCompress (lastCtx ctx) true).h :=
  rfl

/-- The last block is filled up and compressed. -/
theorem TakenIn.final (holds : TakenIn outlen ctx stream) :
    blake2sFinal ctx =
      digestBytes outlen
        (compressBlock stream.state stream.buffer
          (64 * stream.done + stream.buffer.length) true) := by
  obtain ⟨t0, t1⟩ := holds.count
  have isBlock : (lastCtx ctx).b = padBlock stream.buffer := by
    ext index inside
    rw [padBlock, lastCtx, Vector.getElem_ofFn, Vector.getElem_ofFn]
    change (if index < ctx.c then ctx.b[index] else 0).toNat = _
    rw [holds.c]
    split
    case isTrue isByte => rw [holds.b index inside isByte]
    case isFalse beyond =>
      rw [List.getD_eq_default _ _ (Nat.not_lt.mp beyond)]
  have isState : (lastCtx ctx).h = stream.state := by
    simp only [lastCtx, blake2sCount, holds.h]
  have isT0 : (lastCtx ctx).t0 = (blake2sCount ctx).t0 := by rw [lastCtx]
  have isT1 : (lastCtx ctx).t1 = (blake2sCount ctx).t1 := by rw [lastCtx]
  have compressed :=
    h_blake2sCompress isBlock (isT0.trans t0) (isT1.trans t1) true
  rw [blake2sFinal_eq, compressed, isState, holds.outlen]

end Steps

section Results

/-- A context with a state and an empty buffer. -/
def startCtx (outlen keylen : Nat) : Blake2sCtx where
  b := Vector.replicate 64 0
  h := startState outlen keylen
  t0 := 0
  t1 := 0
  c := 0
  outlen := outlen

theorem blake2sInit_eq (outlen : Nat) (key : List UInt8) :
    blake2sInit outlen key =
      if outlen = 0 ∨ outlen > 32 ∨ key.length > 32 then
        none
      else if key.length > 0 then
        some { blake2sUpdate (startCtx outlen key.length) key with c := 64 }
      else
        some (startCtx outlen key.length) := by
  rw [blake2sInit]
  split
  · rfl
  · by_cases hasKey : key.length > 0
    · simp only [if_pos hasKey]
      rfl
    · simp only [if_neg hasKey]
      rfl

theorem startCtx_holds (outlen keylen : Nat) :
    TakenIn outlen (startCtx outlen keylen)
      ⟨startState outlen keylen, 0, []⟩ := by
  constructor
  case b => intro index _ isByte; cases isByte
  case fits => exact Nat.zero_le 64
  case t1 => simp [startCtx]
  all_goals rfl

/-- Bytes behind those that are written stay. -/
theorem blake2sUpdate_kept
    {ctx : Blake2sCtx}
    {input : List UInt8}
    {index : Nat}
    (inside : index < 64)
    (beyond : ctx.c + input.length ≤ index) :
    (blake2sUpdate ctx input).b[index] = ctx.b[index] := by
  induction input generalizing ctx with
  | nil =>
      rfl
  | cons byte rest inductionHypothesis =>
      rw [List.length_cons] at beyond
      have notFull : ¬ ctx.c = 64 := by omega
      have pushed :
          blake2sUpdateByte ctx byte =
            { ctx with b := ctx.b.setIfInBounds ctx.c byte, c := ctx.c + 1 } := by
        rw [blake2sUpdateByte, if_neg notFull]
      rw [blake2sUpdate, List.foldl_cons, ← blake2sUpdate, pushed,
        inductionHypothesis (by simp only; omega),
        Vector.getElem_setIfInBounds_ne inside (by omega)]

/-- The whole buffer counts as taken in. -/
theorem TakenIn.filled
    {outlen : Nat}
    {ctx : Blake2sCtx}
    {h : Vector UInt32 8}
    {data block : List UInt8}
    (holds : TakenIn outlen ctx ⟨h, 0, data⟩)
    (full : block.length = 64)
    (same :
      ∀ index (inside : index < 64), ctx.b[index] = block.getD index 0) :
    TakenIn outlen { ctx with c := 64 } ⟨h, 0, block⟩ where
  h := holds.h
  t0 := holds.t0
  t1 := holds.t1
  c := full.symm
  fits := Nat.le_of_eq full
  b := fun index inside _ => same index inside
  outlen := holds.outlen

theorem getD_padBlock
    (data : List UInt8)
    {index : Nat}
    (inside : index < 64) :
    (padBlock data).toList.getD index 0 = data.getD index 0 := by
  have isInside : index < (padBlock data).toList.length := by
    rw [Vector.length_toList]
    exact inside
  rw [List.getD_eq_getElem _ _ isInside, Vector.getElem_toList]
  simp only [padBlock, Vector.getElem_ofFn]

/-- After `blake2s_init` the key, as a block, has been taken in. -/
theorem init_holds
    {outlen : Nat}
    {key : List UInt8}
    (legal : ¬ (outlen = 0 ∨ outlen > 32 ∨ key.length > 32)) :
    ∃ ctx,
      blake2sInit outlen key = some ctx ∧
        TakenIn outlen ctx
          (taken 64 chainBlock (startState outlen key.length)
            (keyed key [])) := by
  have short : key.length ≤ 32 := by omega
  rw [blake2sInit_eq, if_neg legal, keyed]
  by_cases hasKey : key.length > 0
  · have holds := (startCtx_holds outlen key.length).update key
    rw [← @taken_of_short _ _ 64 chainBlock _ [] (by decide) (by decide),
      foldl_push (by decide), List.nil_append,
      taken_of_short (by decide) (by omega)] at holds
    have full := (padBlock key).length_toList
    rw [if_pos hasKey, if_pos hasKey, List.append_nil,
      taken_of_short (by decide) (Nat.le_of_eq full)]
    refine ⟨_, rfl, holds.filled full fun index inside => ?_⟩
    rw [getD_padBlock key inside]
    by_cases written : index < key.length
    · exact holds.b index inside written
    · have beyond := Nat.not_lt.mp written
      have empty : (startCtx outlen key.length).c = 0 := rfl
      rw [List.getD_eq_default _ _ beyond,
        blake2sUpdate_kept inside (by omega), startCtx,
        Vector.getElem_replicate]
  · rw [if_neg hasKey, if_neg hasKey,
      taken_of_short (by decide) (by decide)]
    exact ⟨_, rfl, startCtx_holds outlen key.length⟩

theorem keyed_append (key first second : List UInt8) :
    keyed key first ++ second = keyed key (first ++ second) := by
  rw [keyed, keyed]
  split
  · exact List.append_assoc ..
  · rfl

/-- Pieces are taken in one after the other. -/
theorem foldl_blake2sUpdate
    (ctx : Blake2sCtx)
    (chunks : List (List UInt8)) :
    chunks.foldl blake2sUpdate ctx = blake2sUpdate ctx chunks.flatten := by
  induction chunks generalizing ctx with
  | nil =>
      rfl
  | cons chunk rest inductionHypothesis =>
      rw [List.foldl_cons, inductionHypothesis, List.flatten_cons,
        blake2sUpdate_append]

/--
However a message is cut into pieces, the digest is that of the blocks of the
key and the whole message, and the lengths that are not allowed are refused.
-/
theorem blake2s_hashes_blocks
    (outlen : Nat)
    (key : List UInt8)
    (chunks : List (List UInt8)) :
    (blake2sInit outlen key).map
        (fun ctx => blake2sFinal (chunks.foldl blake2sUpdate ctx)) =
      if outlen = 0 ∨ outlen > 32 ∨ key.length > 32 then
        none
      else
        some (blake2sOfBlocks outlen key chunks.flatten) := by
  by_cases illegal : outlen = 0 ∨ outlen > 32 ∨ key.length > 32
  · rw [if_pos illegal, blake2sInit, if_pos illegal, Option.map_none]
  · obtain ⟨ctx, initialized, holds⟩ := init_holds illegal
    have updated := holds.update chunks.flatten
    rw [foldl_push (by decide), keyed_append, List.nil_append] at updated
    have all :
        64 * followed 64 (keyed key chunks.flatten) +
            ((keyed key chunks.flatten).drop
              (64 * followed 64 (keyed key chunks.flatten))).length =
          (keyed key chunks.flatten).length := by
      have le := @followed_le _ 64 (keyed key chunks.flatten)
      rw [List.length_drop]
      omega
    rw [if_neg illegal, initialized, Option.map_some, foldl_blake2sUpdate,
      updated.final, blake2sOfBlocks, taken, all]

end Results

end TKey
