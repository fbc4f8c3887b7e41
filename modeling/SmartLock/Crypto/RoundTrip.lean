import SmartLock.Crypto.Base64
import SmartLock.Handler.Reply
import Mathlib.Data.List.TakeWhile

/-!
# Messages are read back

`decrypt_base64_AES` returns the text that `encrypt_str_AES` was given,
through the padding, the cipher, two base64 words and `strtok`. What it
does not return from is the message of the empty text: unpadding leaves
nothing, and on this heap a block of no bytes is a null pointer, which
ends the program.
-/

namespace SmartLock

open Prog

variable {W : World} {ctx : AESContext} {p t w₁ w₂ : CStr} {s s' : Sys}

/-! ## Padding -/

theorem length_addPadding (p : List UInt8) :
    (addPadding p).length = p.length + (16 - p.length % 16) := by
  rw [addPadding, List.length_append, List.length_replicate]
  rfl

theorem sixteen_dvd_addPadding (p : List UInt8) : 16 ∣ (addPadding p).length := by
  rw [length_addPadding]
  omega

/-- The last byte counts the bytes that were added. -/
theorem getLast?_addPadding (p : List UInt8) :
    (addPadding p).getLast? = some (UInt8.ofNat (16 - p.length % 16)) := by
  obtain ⟨n, hn⟩ : ∃ n, 16 - p.length % 16 = n + 1 := ⟨15 - p.length % 16, by omega⟩
  rw [addPadding, paddingBlockSize, hn, List.replicate_succ', ← List.append_assoc,
    List.getLast?_concat]

theorem take_addPadding (p : List UInt8) : (addPadding p).take p.length = p := List.take_left

/-- `malloc` gives a block for the text. -/
def Mallocs (W : World) (p : List UInt8) : Prop := p ≠ [] ∨ W.mallocZero = true

/-- **Padding is removed**, where `malloc` gives a block for what is left. -/
theorem removePadding_addPadding (h : Mallocs W p) :
    (removePadding W (addPadding p)).run s = (.ok p, s) := by
  have hbyte : (UInt8.ofNat (16 - p.length % 16)).toNat = 16 - p.length % 16 := by
    rw [UInt8.toNat_ofNat']
    omega
  have hlen := length_addPadding p
  have hsome : (addPadding p).length = 16 - p.length % 16 → p = [] := fun heq =>
    List.length_eq_zero_iff.1 (by omega)
  rw [removePadding, run_bind_ok (deref_ok.2 ⟨getLast?_addPadding p, rfl⟩)]
  dsimp only
  rw [hbyte, run_bind_ok (run_faultIf_of_not (by omega) _ _),
    run_bind_ok (run_faultIf_of_not ?_ _ _)]
  · rw [show (addPadding p).length - (16 - p.length % 16) = p.length by omega, take_addPadding]
    rfl
  · rintro ⟨heq, hzero⟩
    rcases h with h | h
    · exact h (hsome heq)
    · exact hzero h

/-- Nothing is left of the padded empty text: the program ends. -/
theorem removePadding_addPadding_nil (h : ¬ W.mallocZero = true) :
    (removePadding W (addPadding [])).run s = (.error .abort, s) := by
  rw [removePadding, run_bind_ok (deref_ok.2 ⟨getLast?_addPadding [], rfl⟩)]
  dsimp only
  rw [run_bind_ok (run_faultIf_of_not (by decide) _ _), run_bind_error]
  rw [faultIf, if_pos ⟨by decide, h⟩]
  rfl

/-! ## The text of a message -/

/-- A non-empty word of base64 characters. -/
structure Base64Word (w : CStr) : Prop where
  ne_nil : w ≠ []
  chars : ∀ c ∈ w, inAlphabet c = true

/-- Two base64 words with one space between them, and neither a newline nor
an EOT. -/
structure TwoWords (t : CStr) : Prop where
  split : ∃ w₁ w₂, Base64Word w₁ ∧ Base64Word w₂ ∧ t = w₁ ++ lit " " ++ w₂
  space : t.count sep = 1
  newline : 10 ∉ t
  eot : 4 ∉ t

theorem base64Word_of_all {w : CStr} (hne : w ≠ []) (h : w.all inAlphabet = true) : Base64Word w :=
  ⟨hne, List.all_eq_true.1 h⟩

theorem base64Word_encodeBlocks {src : List UInt8} (h : src ≠ []) :
    Base64Word (encodeBlocks src) where
  ne_nil := encodeBlocks_ne_nil h
  chars _ := inAlphabet_of_mem_encodeBlocks

theorem Base64Word.notMem {c : UInt8} (h : Base64Word w₁) (hc : inAlphabet c = false) : c ∉ w₁ := by
  intro hmem
  rw [h.chars c hmem] at hc
  cases hc

theorem twoWords (h₁ : Base64Word w₁) (h₂ : Base64Word w₂) : TwoWords (w₁ ++ lit " " ++ w₂) := by
  have hspace : inAlphabet sep = false := by decide
  have hnot {c : UInt8} (hc : inAlphabet c = false) (hne : c ≠ sep) :
      c ∉ w₁ ++ lit " " ++ w₂ := by
    intro hmem
    rcases List.mem_append.1 hmem with hmem | hmem
    · rcases List.mem_append.1 hmem with hmem | hmem
      · exact h₁.notMem hc hmem
      · exact hne (List.mem_singleton.1 hmem)
    · exact h₂.notMem hc hmem
  refine ⟨⟨w₁, w₂, h₁, h₂, rfl⟩, ?_, hnot (by decide) (by decide), hnot (by decide) (by decide)⟩
  rw [List.count_append, List.count_append, List.count_eq_zero.2 (h₁.notMem hspace),
    List.count_eq_zero.2 (h₂.notMem hspace), show (lit " ").count sep = 1 by decide]

/-! ## Encryption and decryption -/

/-- What `encrypt_str_AES` writes of a ciphertext and an IV. -/
def envelope (data : List UInt8) (iv : Vector UInt8 16) : CStr :=
  encodeBlocks data ++ lit " " ++ encodeBlocks iv.toList

theorem iv_ne_nil (iv : Vector UInt8 16) : iv.toList ≠ [] := by
  intro h
  have hlen : iv.toList.length = 16 := by simp
  rw [h] at hlen
  cases hlen

theorem base64Encode_iv (iv : Vector UInt8 16) :
    base64Encode iv.toList = some (encodeBlocks iv.toList) := by
  refine base64Encode_of_short ?_
  have hlen : iv.toList.length = 16 := by simp
  omega

/-- The ciphertext of a padded text is not empty. -/
theorem aesEncrypt_ne_nil (ctx : AESContext) (iv : Vector UInt8 16) :
    W.aesEncrypt ctx iv (addPadding p) ≠ [] := by
  intro h
  have hlen := W.aesEncrypt_length ctx iv (addPadding p)
  rw [h, length_addPadding, List.length_nil] at hlen
  omega

/-- **What `encrypt_str_AES` writes**: two words and a space between them,
into a block that has room for the words and a NUL. -/
theorem encryptStrAES_run (ctx : AESContext) (s : Sys)
    (h : (addPadding p).length < sizeMax / 4) : ∃ text iv s',
    (encryptStrAES W ctx p).run s = (.ok text, s') ∧
      text = envelope (W.aesEncrypt ctx iv (addPadding p)) iv ∧
      s'.log = .overrun text.length (text.length + 1) :: s.log := by
  have hencode : base64Encode (W.aesEncrypt ctx (W.fillRandom s.moment 16) (addPadding p)) =
      some (encodeBlocks (W.aesEncrypt ctx (W.fillRandom s.moment 16) (addPadding p))) := by
    rw [base64Encode, W.aesEncrypt_length, if_neg (by omega)]
  have hlen (a b : CStr) : a.length + b.length + 1 = (a ++ lit " " ++ b).length := by
    have hspace : (lit " ").length = 1 := by decide
    simp only [List.length_append, hspace]
    omega
  rw [encryptStrAES, run_tick_bind]
  dsimp only
  rw [hencode, run_bind_ok (deref_ok.2 ⟨rfl, rfl⟩), base64Encode_iv,
    run_bind_ok (deref_ok.2 ⟨rfl, rfl⟩), run_sprintf, hlen, overruns, if_pos (Nat.lt_succ_self _)]
  exact ⟨_, _, _, rfl, rfl, rfl⟩

/-- A text whose ciphertext no `size_t` measures is not encrypted. -/
theorem encryptStrAES_ok (h : (encryptStrAES W ctx p).run s = (.ok t, s')) :
    (addPadding p).length < sizeMax / 4 := by
  rw [encryptStrAES, run_tick_bind] at h
  obtain ⟨enc, _, hencode, _⟩ := bind_ok.1 h
  obtain ⟨hencode, _⟩ := deref_ok.1 hencode
  rw [base64Encode, W.aesEncrypt_length] at hencode
  by_contra hlong
  rw [if_pos (by omega)] at hencode
  cases hencode

/-- **`decrypt_base64_AES` comes to unpadding what the cipher returns**, of
two words that decode to whole blocks and an IV. -/
theorem decryptBase64AES_of_words (ctx : AESContext) {data : List UInt8} {iv : Vector UInt8 16}
    (hwords : words sep t = [w₁, w₂]) (hdata : base64Decode w₁ = some data)
    (hiv : base64Decode w₂ = some iv.toList) (h : 16 ∣ data.length) : ∃ s₁, ∀ r s₂,
      (removePadding W (W.aesDecrypt ctx iv data)).run s₁ = (r, s₂) →
      (decryptBase64AES W ctx t).run s = (r.map cstr, s₂) := by
  have hivLength : iv.toList.length = 16 := by simp
  obtain ⟨nonce, hread, hnonce⟩ := readBytes_run (W := W) (s := s) hivLength
  obtain rfl : nonce = iv := Vector.toList_inj.1 hnonce
  obtain ⟨junk, hjunk⟩ : ∃ junk, (readBytes W [] data.length).run s.ticked =
    (.ok junk, s.ticked.ticked) := ⟨_, rfl⟩
  have hdecrypt : (decryptAES W ctx data nonce.toList).run s =
      (removePadding W (W.aesDecrypt ctx nonce data)).run s.ticked.ticked := by
    rw [decryptAES, run_bind_ok hread, run_bind_ok hjunk, if_pos (Nat.mod_eq_zero_of_dvd h)]
  obtain ⟨pt, hpt, rfl, hrest⟩ := strtok_of_words hwords
  obtain ⟨pt', hpt', rfl, -⟩ := strtok_of_words hrest
  refine ⟨s.ticked.ticked, fun r s₂ hremove => ?_⟩
  rw [decryptBase64AES, run_bind_ok (deref_ok.2 ⟨hpt, rfl⟩),
    run_bind_ok (deref_ok.2 ⟨hpt', rfl⟩)]
  dsimp only
  rw [hdata, hiv, run_bind_ok (deref_ok.2 ⟨rfl, rfl⟩), run_bind_ok (deref_ok.2 ⟨rfl, rfl⟩)]
  rw [← hdecrypt] at hremove
  rcases r with e | text
  · rw [run_bind_error hremove]
    rfl
  · rw [run_bind_ok hremove]
    rfl

theorem words_envelope {data : List UInt8} (iv : Vector UInt8 16) (hne : data ≠ []) :
    words sep (envelope data iv) = [encodeBlocks data, encodeBlocks iv.toList] := by
  have hword : Base64Word (encodeBlocks data) := base64Word_encodeBlocks hne
  have hivWord : Base64Word (encodeBlocks iv.toList) := base64Word_encodeBlocks (iv_ne_nil iv)
  have hsplit : envelope data iv = encodeBlocks data ++ sep :: encodeBlocks iv.toList := by
    rw [envelope, List.append_assoc]
    rfl
  rw [hsplit, words_append_sep hword.ne_nil (hword.notMem (by decide)),
    words_of_notMem hivWord.ne_nil (hivWord.notMem (by decide))]

/-- The same, of what `encrypt_str_AES` wrote. -/
theorem decryptBase64AES_run (ctx : AESContext) {data : List UInt8} (iv : Vector UInt8 16)
    (hne : data ≠ []) (h : 16 ∣ data.length) : ∃ s₁, ∀ r s₂,
      (removePadding W (W.aesDecrypt ctx iv data)).run s₁ = (r, s₂) →
      (decryptBase64AES W ctx (envelope data iv)).run s = (r.map cstr, s₂) :=
  decryptBase64AES_of_words ctx (words_envelope iv hne) (base64Decode_encodeBlocks hne)
    (base64Decode_encodeBlocks (iv_ne_nil iv)) h

/-- **What is encrypted is decrypted**, in whatever state. -/
theorem decrypt_envelope (hinv : ∀ ctx iv data, 16 ∣ data.length →
      W.aesDecrypt ctx iv (W.aesEncrypt ctx iv data) = data)
    (ctx : AESContext) (iv : Vector UInt8 16) (hne : p ≠ []) (s : Sys) : ∃ s',
    (decryptBase64AES W ctx (envelope (W.aesEncrypt ctx iv (addPadding p)) iv)).run s =
      (.ok (cstr p), s') := by
  obtain ⟨s', hrun⟩ := decryptBase64AES_run (W := W) (s := s) ctx iv
    (aesEncrypt_ne_nil (p := p) ctx iv)
    (by rw [W.aesEncrypt_length]; exact sixteen_dvd_addPadding p)
  rw [hinv ctx iv _ (sixteen_dvd_addPadding p)] at hrun
  exact ⟨s', hrun _ _ (removePadding_addPadding (.inl hne))⟩

/-! ## The round trip -/

variable (W) in
/-- The text is encrypted, to two base64 words, and these are decrypted to
the text, in whatever state that is. -/
def RoundTrips (ctx : AESContext) (p : CStr) (s : Sys) : Prop :=
  ∃ t s₁, (encryptStrAES W ctx p).run s = (.ok t, s₁) ∧ TwoWords t ∧
    ∀ s₂, ∃ s₃, (decryptBase64AES W ctx t).run s₂ = (.ok p, s₃)

variable (W) in
/-- `esp_aes_crypt_cbc` decrypts what it encrypted, on whole blocks. -/
def CipherInverts : Prop :=
  ∀ ctx iv data, 16 ∣ data.length → W.aesDecrypt ctx iv (W.aesEncrypt ctx iv data) = data

theorem not_roundTrips_nil (hinv : CipherInverts W) (hzero : ¬ W.mallocZero = true) :
    ¬ RoundTrips W ctx [] s := by
  rintro ⟨t, s₁, hencrypt, _, hdecrypt⟩
  obtain ⟨_, iv, s₁', hrun, rfl, -⟩ := encryptStrAES_run ctx s (encryptStrAES_ok hencrypt)
  rw [hrun] at hencrypt
  cases hencrypt
  obtain ⟨s₃, hread⟩ := hdecrypt s
  obtain ⟨s₂, hend⟩ := decryptBase64AES_run (W := W) (s := s) ctx iv
    (aesEncrypt_ne_nil ctx iv) (by rw [W.aesEncrypt_length]; exact sixteen_dvd_addPadding [])
  rw [hinv ctx iv _ (sixteen_dvd_addPadding [])] at hend
  rw [hend _ _ (removePadding_addPadding_nil hzero)] at hread
  cases hread

/-- **Messages round trip** exactly where the text is not empty, or `malloc`
gives a block of no bytes, and its encoding has a length. -/
theorem roundTrips_iff (hinv : CipherInverts W) (hnul : 0 ∉ p) :
    RoundTrips W ctx p s ↔ Mallocs W p ∧ (addPadding p).length < sizeMax / 4 := by
  constructor
  · intro h
    have hencrypt := h
    obtain ⟨t, s₁, hencrypt, _⟩ := hencrypt
    refine ⟨?_, encryptStrAES_ok hencrypt⟩
    by_contra hmallocs
    rw [Mallocs, not_or, ne_eq, not_not] at hmallocs
    obtain ⟨hnil, hzero⟩ := hmallocs
    subst hnil
    exact not_roundTrips_nil hinv hzero h
  · rintro ⟨hmallocs, hlen⟩
    obtain ⟨_, iv, s₁, hencrypt, rfl, -⟩ := encryptStrAES_run (W := W) ctx s hlen
    refine ⟨_, s₁, hencrypt, ?_, fun s₂ => ?_⟩
    · exact twoWords (base64Word_encodeBlocks (aesEncrypt_ne_nil ctx iv))
        (base64Word_encodeBlocks (iv_ne_nil iv))
    · obtain ⟨s₃, hdecrypt⟩ := decryptBase64AES_run (W := W) (s := s₂) ctx iv
        (aesEncrypt_ne_nil ctx iv) (by rw [W.aesEncrypt_length]; exact sixteen_dvd_addPadding p)
      rw [hinv ctx iv _ (sixteen_dvd_addPadding p)] at hdecrypt
      rw [hdecrypt _ _ (removePadding_addPadding hmallocs)]
      exact ⟨s₃, by rw [Except.map, cstr_eq_self hnul]⟩

/-- A command round trips. -/
theorem roundTrips_unlock :
    RoundTrips (World.still .esp32s3 100) ⟨Vector.replicate 32 0⟩ (lit "RUD 90 200 1")
      Sys.initial :=
  (roundTrips_iff (fun _ _ _ _ => rfl) (by decide)).2 ⟨.inl (by decide), by decide⟩

/-- **The empty text does not**, where `malloc(0)` is null. -/
theorem empty_not_roundTrips : CipherInverts (World.still .esp32s3 100) ∧
    ¬ RoundTrips (World.still .esp32s3 100) ⟨Vector.replicate 32 0⟩ (lit "") Sys.initial :=
  ⟨fun _ _ _ _ => rfl, not_roundTrips_nil (fun _ _ _ _ => rfl) (by decide)⟩

end SmartLock
