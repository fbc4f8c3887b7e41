import SmartLock.Common.CString

/-!
# `base64_util.c`

The modified base64 codec: the encoder puts no line feeds, and the decoder
skips characters outside the alphabet, completes a short last block with
`=`, and stops at the first block that holds padding.
-/

namespace SmartLock

/-- `base64_table`. -/
def base64Table : CStr :=
  lit "ABCDEFGHIJKLMNOPQRSTUVWXYZabcdefghijklmnopqrstuvwxyz0123456789+/"

/-- The character of a six-bit value. -/
def base64Char (i : UInt8) : UInt8 := base64Table.getD (i &&& 0x3f).toNat 0

/-- `'='`. -/
def padChar : UInt8 := 61

/-- `SIZE_MAX`, of a 32-bit `size_t`. -/
def sizeMax : ℕ := 2 ^ 32 - 1

/-- The loop of `base64_gen_encode` and its tail, with `add_pad`. -/
def encodeBlocks : List UInt8 → CStr
  | a :: b :: c :: rest =>
    base64Char (a >>> 2) :: base64Char (((a &&& 0x03) <<< 4) ||| (b >>> 4)) ::
      base64Char (((b &&& 0x0f) <<< 2) ||| (c >>> 6)) :: base64Char c :: encodeBlocks rest
  | [a, b] =>
    [base64Char (a >>> 2), base64Char (((a &&& 0x03) <<< 4) ||| (b >>> 4)),
      base64Char ((b &&& 0x0f) <<< 2), padChar]
  | [a] => [base64Char (a >>> 2), base64Char ((a &&& 0x03) <<< 4), padChar, padChar]
  | [] => []

/-- `base64_encode`: `none` is `NULL`, for a source whose encoding no
`size_t` measures. -/
def base64Encode (src : List UInt8) : Option CStr :=
  if src.length ≥ sizeMax / 4 then none else some (encodeBlocks src)

theorem base64Encode_of_short {src : List UInt8} (h : src.length < 2 ^ 20) :
    base64Encode src = some (encodeBlocks src) := by
  rw [base64Encode, if_neg]
  simp only [sizeMax]
  omega

/-- `dtable[c] != 0x80`: the character is of the alphabet or `=`. -/
def inAlphabet (c : UInt8) : Bool := c == padChar || base64Table.contains c

/-- `dtable[c]`, of a character that is. -/
def base64Value (c : UInt8) : UInt8 :=
  if c = padChar then 0 else UInt8.ofNat (base64Table.idxOf c)

/-- The blocks of `base64_gen_decode`: `none` is `NULL`, for a block with
more than two `=`. -/
def decodeBlocks : List UInt8 → Option (List UInt8)
  | a :: b :: c :: d :: rest =>
    let out := [(base64Value a <<< 2) ||| (base64Value b >>> 4),
      (base64Value b <<< 4) ||| (base64Value c >>> 2), (base64Value c <<< 6) ||| base64Value d]
    match [a, b, c, d].count padChar with
    | 0 => (decodeBlocks rest).map (out ++ ·)
    | 1 => some (out.take 2)
    | 2 => some (out.take 1)
    | _ => none
  | _ => some []

/-- `base64_decode`. -/
def base64Decode (src : CStr) : Option (List UInt8) :=
  let used := src.filter inAlphabet
  if used.length = 0 then none
  else decodeBlocks (used ++ List.replicate ((4 - used.length % 4) % 4) padChar)

/-- The codec on the bytes a session seed is made of. -/
example : (base64Encode [1, 2, 3, 250, 251]).bind base64Decode = some [1, 2, 3, 250, 251] := by
  decide

end SmartLock
