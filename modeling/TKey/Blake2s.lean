import TKey.Lib.ByteMemory

namespace TKey

/-!
# BLAKE2s

The hash function of `tkey-libs/blake2s`.  The firmware uses it with and
without a key: for app digests, for the partition table checksum, for the
storage authentication digest, for the measured id and for the CDI.
-/

/-- State context of an incremental hash computation, `blake2s_ctx`. -/
structure Blake2sCtx where
  b : Vector UInt8 64
  h : Vector UInt32 8
  t0 : UInt32
  t1 : UInt32
  c : Nat
  outlen : Nat

/-- Initialization vector. -/
def blake2sIv : Vector UInt32 8 :=
  #v[0x6a09e667, 0xbb67ae85, 0x3c6ef372, 0xa54ff53a,
    0x510e527f, 0x9b05688c, 0x1f83d9ab, 0x5be0cd19]

/-- Message word schedule of the ten rounds. -/
def sigma : List (Vector (Fin 16) 16) :=
  [#v[0, 1, 2, 3, 4, 5, 6, 7, 8, 9, 10, 11, 12, 13, 14, 15],
    #v[14, 10, 4, 8, 9, 15, 13, 6, 1, 12, 0, 2, 11, 7, 5, 3],
    #v[11, 8, 12, 0, 5, 2, 15, 13, 10, 14, 3, 6, 7, 1, 9, 4],
    #v[7, 9, 3, 1, 13, 12, 11, 14, 2, 6, 5, 10, 4, 0, 15, 8],
    #v[9, 0, 5, 7, 2, 4, 10, 15, 14, 1, 11, 12, 6, 8, 3, 13],
    #v[2, 12, 6, 10, 0, 11, 8, 3, 4, 13, 7, 5, 15, 14, 1, 9],
    #v[12, 5, 1, 15, 14, 13, 4, 10, 0, 7, 6, 3, 9, 2, 8, 11],
    #v[13, 11, 7, 14, 12, 1, 3, 9, 5, 0, 15, 4, 8, 6, 2, 10],
    #v[6, 15, 14, 9, 11, 3, 0, 8, 12, 2, 13, 7, 1, 4, 10, 5],
    #v[10, 2, 8, 4, 7, 6, 1, 5, 15, 11, 9, 14, 3, 12, 13, 0]]

/-- Cyclic right rotation, `ROTR32`. -/
def rotr32 (x y : UInt32) : UInt32 :=
  (x >>> y) ^^^ (x <<< (32 - y))

/-- The mixing function `G`. -/
def g
    (v : Vector UInt32 16)
    (a b c d : Fin 16)
    (x y : UInt32) : Vector UInt32 16 :=
  let v := v.set a (v[a] + v[b] + x)
  let v := v.set d (rotr32 (v[d] ^^^ v[a]) 16)
  let v := v.set c (v[c] + v[d])
  let v := v.set b (rotr32 (v[b] ^^^ v[c]) 12)
  let v := v.set a (v[a] + v[b] + y)
  let v := v.set d (rotr32 (v[d] ^^^ v[a]) 8)
  let v := v.set c (v[c] + v[d])
  v.set b (rotr32 (v[b] ^^^ v[c]) 7)

/-- One round: `G` on the columns, then on the diagonals. -/
def blake2sRound
    (m : Vector UInt32 16)
    (v : Vector UInt32 16)
    (s : Vector (Fin 16) 16) : Vector UInt32 16 :=
  let v := g v 0 4 8 12 m[s[0]] m[s[1]]
  let v := g v 1 5 9 13 m[s[2]] m[s[3]]
  let v := g v 2 6 10 14 m[s[4]] m[s[5]]
  let v := g v 3 7 11 15 m[s[6]] m[s[7]]
  let v := g v 0 5 10 15 m[s[8]] m[s[9]]
  let v := g v 1 6 11 12 m[s[10]] m[s[11]]
  let v := g v 2 7 8 13 m[s[12]] m[s[13]]
  g v 3 4 9 14 m[s[14]] m[s[15]]

/-- Little-endian word access, `B2S_GET32(&b[4 * i])`. -/
def b2sGet32 (b : Vector UInt8 64) (i : Fin 16) : UInt32 :=
  b[4 * i.val].toUInt32 ^^^ (b[4 * i.val + 1].toUInt32 <<< 8) ^^^
    (b[4 * i.val + 2].toUInt32 <<< 16) ^^^
    (b[4 * i.val + 3].toUInt32 <<< 24)

/-- Compression function.  The `last` flag indicates the last block. -/
def blake2sCompress (ctx : Blake2sCtx) (last : Bool) : Blake2sCtx :=
  let v : Vector UInt32 16 := ctx.h ++ blake2sIv
  let v := v.set 12 (v[12] ^^^ ctx.t0)
  let v := v.set 13 (v[13] ^^^ ctx.t1)
  let v := if last then v.set 14 (~~~v[14]) else v
  let m : Vector UInt32 16 := Vector.ofFn fun i => b2sGet32 ctx.b i
  let v := sigma.foldl (blake2sRound m) v
  { ctx with
    h := Vector.ofFn fun i =>
      ctx.h[i] ^^^ (v.get ⟨i.val, by omega⟩ ^^^ v[i.val + 8]) }

/-- Advance the byte counter by the fill of the buffer. -/
def blake2sCount (ctx : Blake2sCtx) : Blake2sCtx :=
  let t0 := ctx.t0 + ctx.c.toUInt32
  { ctx with
    t0 := t0
    t1 := if t0 < ctx.c.toUInt32 then ctx.t1 + 1 else ctx.t1 }

/-- Hash one byte: a full buffer is compressed first. -/
def blake2sUpdateByte (ctx : Blake2sCtx) (byte : UInt8) : Blake2sCtx :=
  let ctx :=
    if ctx.c = 64 then
      { blake2sCompress (blake2sCount ctx) false with c := 0 }
    else
      ctx
  { ctx with b := ctx.b.setIfInBounds ctx.c byte, c := ctx.c + 1 }

/-- Add the input bytes into the hash. -/
def blake2sUpdate (ctx : Blake2sCtx) (input : List UInt8) : Blake2sCtx :=
  input.foldl blake2sUpdateByte ctx

/--
Initialize the hashing context with an optional key.  The lengths the source
rejects with `-1` give `none`.
-/
def blake2sInit (outlen : Nat) (key : List UInt8) : Option Blake2sCtx :=
  if outlen = 0 ∨ outlen > 32 ∨ key.length > 32 then
    none
  else
    let param : UInt32 :=
      (0x01010000 : UInt32) ^^^ (key.length.toUInt32 <<< 8) ^^^ outlen.toUInt32
    let ctx : Blake2sCtx :=
      { b := Vector.replicate 64 0
        h := blake2sIv.set 0 (blake2sIv[0] ^^^ param)
        t0 := 0
        t1 := 0
        c := 0
        outlen := outlen }
    some <|
      if key.length > 0 then
        { blake2sUpdate ctx key with c := 64 }
      else
        ctx

/-- Pad the last block with zeros, compress it and write out the digest. -/
def blake2sFinal (ctx : Blake2sCtx) : List UInt8 :=
  let ctx := blake2sCount ctx
  let ctx :=
    { ctx with
      b := Vector.ofFn fun i => if i.val < ctx.c then ctx.b[i] else 0
      c := 64 }
  let h := (blake2sCompress ctx true).h
  (List.range ctx.outlen).map fun i =>
    ((h.toList.getD (i / 4) 0) >>> (8 * (i % 4)).toUInt32).toUInt8

/-- All-in-one convenience function; `none` is the source's `-1`. -/
def blake2s (outlen : Nat) (key input : List UInt8) : Option (List UInt8) :=
  (blake2sInit outlen key).map fun ctx =>
    blake2sFinal (blake2sUpdate ctx input)

example :
    blake2s 32 [] [0x61, 0x62, 0x63] =
      some
        [0x50, 0x8C, 0x5E, 0x8C, 0x32, 0x7C, 0x14, 0xE2,
          0xE1, 0xA7, 0x2B, 0xA3, 0x4E, 0xEB, 0x45, 0x2F,
          0x37, 0x45, 0x8B, 0x20, 0x9E, 0xD6, 0x3A, 0x29,
          0x4D, 0x99, 0x9B, 0x4C, 0x86, 0x67, 0x59, 0x82] := by
  decide +kernel

/-- The digest as a byte vector, for the lengths the source accepts. -/
def blake2sDigest
    (outlen : Nat)
    (key input : List UInt8) : Vector UInt8 outlen :=
  ByteMemory.toVector outlen ((blake2s outlen key input).getD [])

/-- Hashing further bytes continues with the context reached so far. -/
theorem blake2sUpdate_append
    (ctx : Blake2sCtx)
    (first second : List UInt8) :
    blake2sUpdate ctx (first ++ second) =
      blake2sUpdate (blake2sUpdate ctx first) second := by
  simp [blake2sUpdate, List.foldl_append]

private theorem outlen_blake2sUpdateByte
    (ctx : Blake2sCtx)
    (byte : UInt8) :
    (blake2sUpdateByte ctx byte).outlen = ctx.outlen := by
  simp only [blake2sUpdateByte]
  split <;> rfl

private theorem outlen_blake2sUpdate
    (ctx : Blake2sCtx)
    (input : List UInt8) :
    (blake2sUpdate ctx input).outlen = ctx.outlen := by
  induction input generalizing ctx with
  | nil =>
      rfl
  | cons byte rest inductionHypothesis =>
      exact (inductionHypothesis _).trans
        (outlen_blake2sUpdateByte ctx byte)

private theorem outlen_blake2sInit
    {outlen : Nat}
    {key : List UInt8}
    {ctx : Blake2sCtx}
    (initialized : blake2sInit outlen key = some ctx) :
    ctx.outlen = outlen := by
  simp only [blake2sInit] at initialized
  split at initialized
  · cases initialized
  · cases initialized
    split
    · exact outlen_blake2sUpdate _ key
    · rfl

/-- A digest has the length that was asked for. -/
private theorem length_blake2sFinal (ctx : Blake2sCtx) :
    (blake2sFinal ctx).length = ctx.outlen := by
  simp [blake2sFinal, blake2sCount]

/-- With legal lengths the hash never reports an error. -/
theorem blake2s_eq_some
    {outlen : Nat}
    {key : List UInt8}
    (positive : 0 < outlen)
    (short : outlen ≤ 32)
    (keyShort : key.length ≤ 32)
    (input : List UInt8) :
    blake2s outlen key input =
      some (blake2sDigest outlen key input).toList := by
  have legal :
      ¬ (outlen = 0 ∨ outlen > 32 ∨ key.length > 32) := by
    omega
  obtain ⟨ctx, initialized⟩ :
      ∃ ctx, blake2sInit outlen key = some ctx := by
    simp [blake2sInit, if_neg legal]
  have length :
      (blake2sFinal (blake2sUpdate ctx input)).length = outlen := by
    rw [length_blake2sFinal, outlen_blake2sUpdate,
      outlen_blake2sInit initialized]
  simp [blake2s, blake2sDigest, initialized,
    ByteMemory.toList_toVector length]

end TKey
