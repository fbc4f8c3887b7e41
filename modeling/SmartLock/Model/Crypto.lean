import SmartLock.Model.Base64
import SmartLock.Model.State
import Mathlib.Data.Vector.Basic

/-!
# `PKCS7.c`, `aes_util.c`, `rsa_util.c`

The messages of a session: padding, encryption and the text format of two
base64 words. RSA and AES themselves belong to the outside; what is here
is what the program does around them, which includes reading past buffers
that are shorter than the function reading them expects.
-/

namespace SmartLock

variable (W : World)

/-- `SEP`. -/
def sep : UInt8 := 32

/-- `n` bytes read at a buffer: past its end the heap goes on. -/
def readBytes (buf : List UInt8) (n : ℕ) : M (Vector UInt8 n) := do
  let t ← tick
  return Vector.ofFn fun i => buf.getD i (W.heap t i)

/-- A pointer that must not be null. -/
def deref {α : Type} (p : Option α) : M α :=
  match p with
  | none => Prog.fail .nullDeref
  | some a => pure a

/-! ## PKCS#7 -/

/-- `PADDING_BLOCK_SIZE`. -/
def paddingBlockSize : ℕ := 16

/-- `addPadding`, for a block size of sixteen. -/
def addPadding (data : List UInt8) : List UInt8 :=
  let paddingBytesAmount := paddingBlockSize - data.length % paddingBlockSize
  data ++ List.replicate paddingBytesAmount (UInt8.ofNat paddingBytesAmount)

/-- `removePadding`: the last byte is subtracted from the length as
`uint64_t`. A difference that wraps is more than `malloc` gives, and so,
on some heaps, is nothing: a null block ends the program. -/
def removePadding (data : List UInt8) : M (List UInt8) := do
  let paddingBytesAmount := (← deref data.getLast?).toNat
  faultIf (data.length < paddingBytesAmount) .abort
  faultIf (data.length = paddingBytesAmount ∧ ¬ W.mallocZero) .abort
  return data.take (data.length - paddingBytesAmount)

/-! ## AES -/

/-- `init_AES`. -/
def initAES (key256 : Option (List UInt8)) : M AESContext := do
  let key ← readBytes W (← deref key256) 32
  return ⟨key⟩

/-- `decrypt_AES`: on anything but whole blocks `esp_aes_crypt_cbc`
leaves its output as allocated. -/
def decryptAES (ctx : AESContext) (chipertext : List UInt8) (iv : List UInt8) :
    M (List UInt8) := do
  let nonce ← readBytes W iv 16
  let junk ← readBytes W [] chipertext.length
  removePadding W
    (if chipertext.length % 16 = 0 then W.aesDecrypt ctx nonce chipertext else junk.toList)

/-- `encrypt_str_AES`: `none` is a null plaintext. -/
def encryptStrAES (ctx : AESContext) (plaintext : CStr) : M CStr := do
  let iv := W.fillRandom (← tick) 16
  -- `esp_aes_crypt_cbc` advances its IV in place, in a copy
  let data := W.aesEncrypt ctx iv (addPadding plaintext)
  let encryptedBase64 ← deref (base64Encode data)
  let ivBase64 ← deref (base64Encode iv.toList)
  sprintf (encryptedBase64.length + ivBase64.length + 1)
    (encryptedBase64 ++ lit " " ++ ivBase64)

/-- `decrypt_base64_AES`. -/
def decryptBase64AES (ctx : AESContext) (chipertextAndIvBase64 : CStr) : M CStr := do
  let pt ← deref (strtok sep chipertextAndIvBase64)
  let pt' ← deref (strtok sep pt.rest)
  let iv := base64Decode pt'.word
  let chipertext := base64Decode pt.word
  let decrypted ← decryptAES W ctx (← deref chipertext) (← deref iv)
  return cstr decrypted

/-- What `strtok` leaves of the text it was given: its first word ends the
string. -/
def strtokResidue (data : CStr) : CStr :=
  match strtok sep data with
  | none => data
  | some t => data.take (t.off + t.word.length)

/-! ## RSA -/

/-- `KEY_SIZE_BYTES_RSA`. -/
def keySizeBytesRSA : ℕ := 256

/-- `decrypt_base64_RSA`. What `decrypt_RSA` returns is dereferenced
unchecked. -/
def decryptBase64RSA (chipertextBase64 : CStr) : M CStr := do
  let chipertext ← deref (base64Decode chipertextBase64)
  let block ← readBytes W chipertext keySizeBytesRSA
  let decrypted ← deref (W.rsaDecrypt block.toList)
  return cstr decrypted

/-! ## HMAC -/

/-- `gen_hmac_32` of a ten-byte seed: `none` where it returns an error. -/
def genHmac32 (key : Vector UInt8 32) (seed : Option (Vector UInt8 10)) :
    M (Option (Vector UInt8 32)) := do
  let t ← tick
  if W.hmacFails t then return none
  match seed with
  | none => Prog.fail .uninitialised
  | some bytes => return some (W.hmac key bytes)

end SmartLock
