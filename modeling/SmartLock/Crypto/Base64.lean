import SmartLock.Model.Base64
import Mathlib.Data.List.Basic
import Mathlib.Tactic.IntervalCases

/-!
# The base64 codec is read back

What the encoder writes is made of characters of the alphabet, in whole
blocks of four, and the decoder returns the bytes it was written from.
-/

namespace SmartLock

variable {src : List UInt8}

/-! ## One character -/

/-- A character of the table is not the padding, and has its place for a value. -/
theorem base64Table_getD : ∀ n < 64, base64Table.getD n 0 ∈ base64Table ∧
    base64Table.getD n 0 ≠ padChar ∧ base64Value (base64Table.getD n 0) = UInt8.ofNat n := by
  decide

theorem and_63_lt (i : UInt8) : (i &&& 0x3f).toNat < 64 := by
  rw [UInt8.toNat_and]
  exact Nat.lt_of_le_of_lt Nat.and_le_right (by decide)

theorem base64Char_ne_padChar (i : UInt8) : base64Char i ≠ padChar :=
  (base64Table_getD _ (and_63_lt i)).2.1

theorem inAlphabet_base64Char (i : UInt8) : inAlphabet (base64Char i) = true := by
  have hmem : base64Char i ∈ base64Table := (base64Table_getD _ (and_63_lt i)).1
  rw [inAlphabet, List.contains_iff_mem.2 hmem, Bool.or_true]

/-- **A character is read as the six bits it was written for.** -/
theorem base64Value_base64Char (i : UInt8) : base64Value (base64Char i) = i &&& 0x3f := by
  have hvalue := (base64Table_getD _ (and_63_lt i)).2.2
  rw [base64Char, hvalue, UInt8.ofNat_toNat]

/-! ## One block -/

/-- The first byte is in the first two digits. -/
theorem first_byte (a b : UInt8) : ((a >>> 2 &&& 0x3f) <<< 2) |||
    ((((a &&& 0x03) <<< 4) ||| (b >>> 4)) &&& 0x3f) >>> 4 = a := by
  apply UInt8.eq_of_toBitVec_eq
  ext j hj
  interval_cases j <;> simp

/-- The second byte is in the second and the third. -/
theorem second_byte (a b c : UInt8) : ((((a &&& 0x03) <<< 4) ||| (b >>> 4)) &&& 0x3f) <<< 4 |||
    ((((b &&& 0x0f) <<< 2) ||| (c >>> 6)) &&& 0x3f) >>> 2 = b := by
  apply UInt8.eq_of_toBitVec_eq
  ext j hj
  interval_cases j <;> simp

/-- The third byte is in the last two. -/
theorem third_byte (b c : UInt8) :
    ((((b &&& 0x0f) <<< 2) ||| (c >>> 6)) &&& 0x3f) <<< 6 ||| (c &&& 0x3f) = c := by
  apply UInt8.eq_of_toBitVec_eq
  ext j hj
  interval_cases j <;> simp

/-- The last block of two bytes is that of a third byte zero. -/
theorem second_byte_last (a b : UInt8) : ((((a &&& 0x03) <<< 4) ||| (b >>> 4)) &&& 0x3f) <<< 4 |||
    ((b &&& 0x0f) <<< 2 &&& 0x3f) >>> 2 = b := by
  have h := second_byte a b 0
  rwa [show (0 : UInt8) >>> 6 = 0 from rfl, UInt8.or_zero] at h

theorem first_byte_last (a : UInt8) :
    ((a >>> 2 &&& 0x3f) <<< 2) ||| ((a &&& 0x03) <<< 4 &&& 0x3f) >>> 4 = a := by
  have h := first_byte a 0
  rwa [show (0 : UInt8) >>> 4 = 0 from rfl, UInt8.or_zero] at h

/-! ## All blocks -/

/-- **What was encoded is decoded**, block by block. -/
theorem decodeBlocks_encodeBlocks (src : List UInt8) :
    decodeBlocks (encodeBlocks src) = some src := by
  have hne (i : UInt8) : (base64Char i == padChar) = false :=
    beq_false_of_ne (base64Char_ne_padChar i)
  induction src using encodeBlocks.induct with
  | case1 a b c rest ih =>
    simp only [encodeBlocks, decodeBlocks, base64Value_base64Char, List.count_cons, hne, ih]
    simp [first_byte, second_byte, third_byte]
  | case2 a b =>
    simp only [encodeBlocks, decodeBlocks, base64Value_base64Char, List.count_cons, hne]
    simp [first_byte, second_byte_last]
  | case3 a =>
    simp only [encodeBlocks, decodeBlocks, base64Value_base64Char, List.count_cons, hne]
    simp [first_byte_last]
  | case4 => rfl

/-- What is written is of the alphabet. -/
theorem inAlphabet_of_mem_encodeBlocks {x : UInt8} (h : x ∈ encodeBlocks src) :
    inAlphabet x = true := by
  induction src using encodeBlocks.induct with
  | case1 a b c rest ih =>
    simp only [encodeBlocks, List.mem_cons] at h
    rcases h with rfl | rfl | rfl | rfl | h
    · exact inAlphabet_base64Char _
    · exact inAlphabet_base64Char _
    · exact inAlphabet_base64Char _
    · exact inAlphabet_base64Char _
    · exact ih h
  | case2 a b =>
    simp only [encodeBlocks, List.mem_cons, List.not_mem_nil, or_false] at h
    rcases h with rfl | rfl | rfl | rfl
    · exact inAlphabet_base64Char _
    · exact inAlphabet_base64Char _
    · exact inAlphabet_base64Char _
    · rfl
  | case3 a =>
    simp only [encodeBlocks, List.mem_cons, List.not_mem_nil, or_false] at h
    rcases h with rfl | rfl | rfl | rfl
    · exact inAlphabet_base64Char _
    · exact inAlphabet_base64Char _
    · rfl
    · rfl
  | case4 => exact absurd h List.not_mem_nil

/-- An encoded text is a C string. -/
theorem zero_notMem_encodeBlocks (src : List UInt8) : (0 : UInt8) ∉ encodeBlocks src := fun h =>
  absurd (inAlphabet_of_mem_encodeBlocks h) (by decide)

/-- Three bytes are four characters, and so is what is left. -/
theorem length_encodeBlocks (src : List UInt8) :
    (encodeBlocks src).length = 4 * ((src.length + 2) / 3) := by
  induction src using encodeBlocks.induct with
  | case1 a b c rest ih =>
    simp only [encodeBlocks, List.length_cons, ih]
    omega
  | case2 a b => simp only [encodeBlocks, List.length_cons, List.length_nil]
  | case3 a => simp only [encodeBlocks, List.length_cons, List.length_nil]
  | case4 => rfl

theorem length_encodeBlocks_mod (src : List UInt8) : (encodeBlocks src).length % 4 = 0 := by
  rw [length_encodeBlocks]
  omega

theorem encodeBlocks_ne_nil (h : src ≠ []) : encodeBlocks src ≠ [] := by
  induction src using encodeBlocks.induct with
  | case1 a b c rest ih => exact List.cons_ne_nil _ _
  | case2 a b => exact List.cons_ne_nil _ _
  | case3 a => exact List.cons_ne_nil _ _
  | case4 => exact absurd rfl h

/-- **`base64_decode` reads what `base64_encode` wrote**, of anything but
nothing. -/
theorem base64Decode_encodeBlocks (h : src ≠ []) : base64Decode (encodeBlocks src) = some src := by
  have hused : (encodeBlocks src).filter inAlphabet = encodeBlocks src :=
    List.filter_eq_self.2 fun x => inAlphabet_of_mem_encodeBlocks
  have hpos : (encodeBlocks src).length ≠ 0 := by
    rw [Ne, List.length_eq_zero_iff]
    exact encodeBlocks_ne_nil h
  rw [base64Decode, hused, if_neg hpos, length_encodeBlocks_mod]
  rw [show (4 - 0) % 4 = 0 from rfl, List.replicate_zero, List.append_nil,
    decodeBlocks_encodeBlocks]

end SmartLock
