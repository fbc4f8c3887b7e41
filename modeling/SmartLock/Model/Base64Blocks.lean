import SmartLock.Common.Block
import SmartLock.Common.Loop
import SmartLock.Model.Base64

/-!
# `base64_util.c`, in the blocks it works in

The codec as it runs: the sizes it computes with a 32-bit `size_t`, the
blocks it allocates, its table, and its loops with what they read and
write. `none` is a read or a write outside of a block, and `some none` is
`NULL`. Of the two tables the one of `base64_encode` and `base64_decode`
is meant; nothing uses the other.
-/

namespace SmartLock

open Block

/-! ## The encoder -/

/-- The variables of `base64_gen_encode`. -/
structure Encoding where
  /-- `in - src`. -/
  inPos : ℕ
  /-- `out`, and `pos`. -/
  out : Cursor UInt8
  deriving DecidableEq, Repr

/-- `while (end - in >= 3)`. -/
def encodeLoop (src : List UInt8) : Loop Encoding where
  cond st := 3 ≤ src.length - st.inPos
  body st := do
    let a ← src[st.inPos]?
    let b ← src[st.inPos + 1]?
    let c ← src[st.inPos + 2]?
    let out ← st.out.pushes [base64Char (a >>> 2),
      base64Char (((a &&& 0x03) <<< 4) ||| (b >>> 4)),
      base64Char (((b &&& 0x0f) <<< 2) ||| (c >>> 6)), base64Char c]
    return ⟨st.inPos + 3, out⟩

/-- `if (end - in)`. -/
def encodeTail (src : List UInt8) (st : Encoding) : Option (Cursor UInt8) :=
  if src.length - st.inPos = 0 then some st.out
  else do
    let a ← src[st.inPos]?
    if src.length - st.inPos = 1 then
      st.out.pushes [base64Char (a >>> 2), base64Char ((a &&& 0x03) <<< 4), padChar, padChar]
    else do
      let b ← src[st.inPos + 1]?
      st.out.pushes [base64Char (a >>> 2), base64Char (((a &&& 0x03) <<< 4) ||| (b >>> 4)),
        base64Char ((b &&& 0x0f) <<< 2), padChar]

/-- `olen`, of the encoder. -/
def encodeSize (len : ℕ) : ℕ :=
  let olen := (len * 4 % 2 ^ 32 / 3 + 4) % 2 ^ 32
  let olen := (olen + olen / 72) % 2 ^ 32
  (olen + 1) % 2 ^ 32

/-- `base64_gen_encode`, for a number of turns of its loop: `junk` is what
the block holds that `malloc` returns, if it does. -/
def base64GenEncode (junk : Option (ℕ → UInt8)) (turns : ℕ) (src : List UInt8) :
    Option (Option (Cursor UInt8)) :=
  if src.length ≥ sizeMax / 4 then some none
  else if encodeSize src.length < src.length then some none
  else
    match junk with
    | none => some none
    | some junk => do
      let block := (List.range (encodeSize src.length)).map junk
      let st ← (encodeLoop src).run turns ⟨0, ⟨block, 0⟩⟩
      let out ← encodeTail src st
      -- the terminating NUL, at which `pos` stays
      let block ← write out.block out.pos 0
      return some ⟨block, out.pos⟩

/-! ## The decoder -/

/-- `dtable`. -/
def dtable : UInt8 → UInt8 :=
  let filled := (List.range 64).foldl
    (fun d i => Function.update d (base64Table.getD i 0) (UInt8.ofNat i)) fun _ => 0x80
  Function.update filled padChar 0

/-- The variables of `base64_gen_decode`. -/
structure Decoding where
  i : ℕ
  count : ℕ
  pad : ℕ
  block : List UInt8
  /-- `out`, and `pos`. -/
  out : Cursor UInt8
  /-- How the loop was left before its end: by `break`, or by `return
  NULL`. -/
  left : Option Bool
  deriving DecidableEq, Repr

/-- `val`: behind the text it is padding. -/
def decodeVal (src : List UInt8) (i : ℕ) : Option UInt8 :=
  if i ≥ src.length then some padChar else src[i]?

/-- `if (count == 4)`, in the turn of `i`. -/
def decodeBlock (i pad : ℕ) (block : List UInt8) (out : Cursor UInt8) : Option Decoding := do
  let b₀ ← block[0]?
  let b₁ ← block[1]?
  let b₂ ← block[2]?
  let b₃ ← block[3]?
  let out ← out.pushes
    [(b₀ <<< 2) ||| (b₁ >>> 4), (b₁ <<< 4) ||| (b₂ >>> 2), (b₂ <<< 6) ||| b₃]
  if pad = 0 then return ⟨i + 1, 0, pad, block, out, none⟩
  else if pad = 1 then return ⟨i, 0, pad, block, out.back 1, some true⟩
  else if pad = 2 then return ⟨i, 0, pad, block, out.back 2, some true⟩
  else return ⟨i, 0, pad, block, out, some false⟩

/-- The loop over the characters, and over the padding they lack. -/
def decodeLoop (src : List UInt8) (extraPad : ℕ) : Loop Decoding where
  cond st := st.left.isNone && st.i < (src.length + extraPad) % 2 ^ 32
  body st := do
    let val ← decodeVal src st.i
    let tmp := dtable val
    if tmp = 0x80 then return { st with i := st.i + 1 }
    let pad := if val = padChar then st.pad + 1 else st.pad
    let block ← write st.block st.count tmp
    let count := st.count + 1
    if count = 4 then decodeBlock st.i pad block st.out
    else return ⟨st.i + 1, count, pad, block, st.out, none⟩

/-- The characters that count. -/
def decodeCount (src : List UInt8) : ℕ :=
  src.foldl (fun count c => if dtable c ≠ 0x80 then count + 1 else count) 0

/-- `extra_pad`. -/
def decodePad (count : ℕ) : ℕ := (4 - count % 4) % 4

/-- `olen`, of the decoder. -/
def decodeSize (count extraPad : ℕ) : ℕ := (count + extraPad) % 2 ^ 32 / 4 * 3 % 2 ^ 32

/-- `base64_gen_decode`, for a number of turns of its loop: `stack` is what
`block` held before. -/
def base64GenDecode (junk : Option (ℕ → UInt8)) (stack : ℕ → UInt8) (turns : ℕ)
    (src : List UInt8) : Option (Option (Cursor UInt8)) :=
  let count := decodeCount src
  if count = 0 then some none
  else
    let extraPad := decodePad count
    match junk with
    | none => some none
    | some junk => do
      let out := (List.range (decodeSize count extraPad)).map junk
      let st ← (decodeLoop src extraPad).run turns
        ⟨0, 0, 0, (List.range 4).map stack, ⟨out, 0⟩, none⟩
      return if st.left = some false then none else some st.out

end SmartLock
