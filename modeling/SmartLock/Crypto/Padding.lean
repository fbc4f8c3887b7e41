import SmartLock.Crypto.RoundTrip

/-!
# Ciphertexts of another key

What `removePadding` makes of a block that no `addPadding` wrote: it looks
at the last byte alone, and subtracts it from the length as an unsigned
number. `WellPadded` is what a check of the padding would ask for. A block
that is not well padded is either cut short and returned, or ends the
program, and so decryption is safe exactly for the blocks that are.
-/

namespace SmartLock

open Prog

variable {W : World} {ctx : AESContext} {text w₁ w₂ : CStr} {data : List UInt8}
variable {iv : Vector UInt8 16} {p : UInt8} {s : Sys}

/-! ## What padding is -/

/-- The block ends in as many bytes as the last of them says, between one
and sixteen, all alike. -/
def WellPadded (data : List UInt8) : Prop :=
  ∃ p, data.getLast? = some p ∧ 1 ≤ p.toNat ∧ p.toNat ≤ 16 ∧ p.toNat ≤ data.length ∧
    ∀ b ∈ data.drop (data.length - p.toNat), b = p

/-- `dataLengthWithoutPadding`, a `uint64_t`. -/
def unpaddedLength (data : List UInt8) : ℕ :=
  (((data.length : Int) - (data.getLast?.getD 0).toNat) % 2 ^ 64).toNat

/-- **What `addPadding` writes is well padded.** -/
theorem wellPadded_addPadding (p : List UInt8) : WellPadded (addPadding p) := by
  have hbyte : (UInt8.ofNat (16 - p.length % 16)).toNat = 16 - p.length % 16 := by
    rw [UInt8.toNat_ofNat']
    omega
  refine ⟨_, getLast?_addPadding p, ?_⟩
  rw [hbyte, length_addPadding, Nat.add_sub_cancel]
  refine ⟨by omega, by omega, by omega, fun b hb => ?_⟩
  rw [addPadding, List.drop_left] at hb
  exact List.eq_of_mem_replicate hb

/-- A well padded block that is all padding is a block of sixteens. -/
theorem WellPadded.eq_replicate (h : WellPadded data) (hlast : data.getLast? = some p)
    (hall : data.length = p.toNat) (hblocks : 16 ∣ data.length) :
    data = List.replicate 16 16 := by
  obtain ⟨q, hq, hpos, h16, -, hbytes⟩ := h
  obtain rfl : p = q := Option.some.inj (hlast.symm.trans hq)
  have hlen : data.length = 16 := by omega
  have hp : p = 16 := UInt8.toNat_inj.1 (by rw [← hall, hlen]; rfl)
  rw [hall, Nat.sub_self, List.drop_zero, hp] at hbytes
  exact List.eq_replicate_iff.2 ⟨hlen, hbytes⟩

/-! ## The subtraction -/

/-- **The subtraction wraps** exactly if the last byte is more than the
length. -/
theorem unpaddedLength_le_iff (hlast : data.getLast? = some p) :
    unpaddedLength data ≤ data.length ↔ p.toNat ≤ data.length := by
  have hbyte := p.toNat_lt
  simp only [unpaddedLength, hlast, Option.getD_some]
  omega

/-- The last byte asks for more than the block has, or for all of it where
`malloc(0)` is null. -/
def Exhausted (W : World) (data : List UInt8) (p : UInt8) : Prop :=
  data.length < p.toNat ∨ (data.length = p.toNat ∧ ¬ W.mallocZero = true)

theorem removePadding_exhausted (hlast : data.getLast? = some p) (h : Exhausted W data p) :
    (removePadding W data).run s = (.error .abort, s) := by
  rw [removePadding, run_bind_ok (deref_ok.2 ⟨hlast, rfl⟩)]
  dsimp only
  by_cases hshort : data.length < p.toNat
  · rw [faultIf, if_pos hshort]
    rfl
  · rw [run_bind_ok (run_faultIf_of_not hshort _ _), faultIf, if_pos (h.resolve_left hshort)]
    rfl

theorem removePadding_returns (hlast : data.getLast? = some p) (h : ¬ Exhausted W data p) :
    (removePadding W data).run s = (.ok (data.take (data.length - p.toNat)), s) := by
  rw [Exhausted, not_or] at h
  rw [removePadding, run_bind_ok (deref_ok.2 ⟨hlast, rfl⟩)]
  dsimp only
  rw [run_bind_ok (run_faultIf_of_not h.1 _ _), run_bind_ok (run_faultIf_of_not h.2 _ _)]
  rfl

/-- What is returned has the length computed. -/
theorem removePadding_length {r : List UInt8} {s' : Sys} (hlen : data.length < 2 ^ 64)
    (h : (removePadding W data).run s = (.ok r, s')) : r.length = unpaddedLength data := by
  obtain ⟨p, _, hlast, _⟩ := bind_ok.1 h
  obtain ⟨hlast, -⟩ := deref_ok.1 hlast
  by_cases hex : Exhausted W data p
  · rw [removePadding_exhausted hlast hex] at h
    cases h
  · rw [removePadding_returns hlast hex] at h
    cases h
    rw [Exhausted, not_or] at hex
    simp only [unpaddedLength, hlast, Option.getD_some, List.length_take]
    omega

/-! ## Decryption -/

/-- Decryption of a text is safe: only of a well padded block does it
return, the length it computes is no more than that of the ciphertext, and
it does not end the program. -/
structure DecryptsSafely (W : World) (ctx : AESContext) (text : CStr) (data : List UInt8)
    (iv : Vector UInt8 16) (s : Sys) : Prop where
  padded : ∀ r s', (decryptBase64AES W ctx text).run s = (.ok r, s') →
    WellPadded (W.aesDecrypt ctx iv data)
  fits : unpaddedLength (W.aesDecrypt ctx iv data) ≤ data.length
  no_exit : ∀ s', (decryptBase64AES W ctx text).run s ≠ (.error .abort, s')

/-- **Decryption is safe exactly for a well padded block** that is not of
sixteens alone, or with a heap that gives blocks of no bytes. -/
theorem decryptsSafely_iff (hwords : words sep text = [w₁, w₂])
    (hdata : base64Decode w₁ = some data) (hiv : base64Decode w₂ = some iv.toList)
    (hne : data ≠ []) (hblocks : 16 ∣ data.length) :
    DecryptsSafely W ctx text data iv s ↔
      WellPadded (W.aesDecrypt ctx iv data) ∧
        (W.aesDecrypt ctx iv data ≠ List.replicate 16 16 ∨ W.mallocZero = true) := by
  obtain ⟨s₁, hrun⟩ := decryptBase64AES_of_words (W := W) (s := s) ctx hwords hdata hiv hblocks
  have hlen := W.aesDecrypt_length ctx iv data
  have hdecrypted : W.aesDecrypt ctx iv data ≠ [] := fun heq => by
    rw [heq, List.length_nil] at hlen
    exact hne (List.length_eq_zero_iff.1 hlen.symm)
  obtain ⟨p, hlast⟩ : ∃ p, (W.aesDecrypt ctx iv data).getLast? = some p :=
    ⟨_, List.getLast?_eq_getLast_of_ne_nil hdecrypted⟩
  constructor
  · rintro ⟨hpadded, -, hexit⟩
    -- it does not end the program, so it returns
    have hno : ¬ Exhausted W (W.aesDecrypt ctx iv data) p := fun hex =>
      hexit _ (hrun _ _ (removePadding_exhausted hlast hex))
    refine ⟨hpadded _ _ (hrun _ _ (removePadding_returns hlast hno)), ?_⟩
    by_contra hboth
    rw [not_or, ne_eq, not_not] at hboth
    rw [hboth.1, show (List.replicate 16 (16 : UInt8)).getLast? = some 16 from rfl] at hlast
    refine hno (Or.inr ⟨?_, hboth.2⟩)
    rw [← Option.some.inj hlast, hboth.1]
    rfl
  · rintro ⟨hpadded, hmalloc⟩
    have hwell := hpadded
    obtain ⟨q, hq, -, -, hle, -⟩ := hwell
    obtain rfl : p = q := Option.some.inj (hlast.symm.trans hq)
    refine ⟨fun _ _ _ => hpadded, ?_, fun s' hexit => ?_⟩
    · rw [← hlen]
      exact (unpaddedLength_le_iff hlast).2 hle
    · have hno : ¬ Exhausted W (W.aesDecrypt ctx iv data) p := by
        rintro (hshort | ⟨hall, hzero⟩)
        · omega
        · have hsixteens := hpadded.eq_replicate hlast hall (hlen ▸ hblocks)
          exact hmalloc.elim (fun h => h hsixteens) hzero
      rw [hrun _ _ (removePadding_returns hlast hno)] at hexit
      cases hexit

/-- A command, encrypted, is decrypted safely. -/
theorem decryptsSafely_command :
    DecryptsSafely (World.still .esp32s3 100) ⟨Vector.replicate 32 0⟩
      (envelope (addPadding (lit "RUD 90 200 1")) (Vector.replicate 16 0))
      (addPadding (lit "RUD 90 200 1")) (Vector.replicate 16 0) Sys.initial :=
  (decryptsSafely_iff (words_envelope _ (by decide)) (base64Decode_encodeBlocks (by decide))
    (base64Decode_encodeBlocks (iv_ne_nil _)) (by decide) (by decide)).2
    ⟨wellPadded_addPadding _, Or.inl (by decide)⟩

/-- **A block that ends in a zero** is returned whole. -/
theorem zeros_not_decryptsSafely :
    ¬ ∀ (W : World) (ctx : AESContext) (text w₁ w₂ : CStr) (data : List UInt8)
      (iv : Vector UInt8 16) (s : Sys), words sep text = [w₁, w₂] →
      base64Decode w₁ = some data → base64Decode w₂ = some iv.toList → data ≠ [] →
      16 ∣ data.length → DecryptsSafely W ctx text data iv s := by
  intro hall
  have hzeros : List.replicate 16 (0 : UInt8) ≠ [] := by decide
  have hwords := words_envelope (Vector.replicate 16 0) hzeros
  have hdata := base64Decode_encodeBlocks hzeros
  have hiv := base64Decode_encodeBlocks (iv_ne_nil (Vector.replicate 16 0))
  obtain ⟨s₁, hrun⟩ := decryptBase64AES_of_words (W := World.still .esp32s3 100)
    (s := Sys.initial) ⟨Vector.replicate 32 0⟩ hwords hdata hiv (by decide)
  have hlast : (List.replicate 16 (0 : UInt8)).getLast? = some 0 := rfl
  have hreturns := hrun _ _ (removePadding_returns hlast (by rw [Exhausted]; decide))
  obtain ⟨p, hp, hpos, -⟩ := (hall _ _ _ _ _ _ _ _ hwords hdata hiv hzeros (by decide)).padded
    _ _ hreturns
  rw [← Option.some.inj (hlast.symm.trans hp)] at hpos
  exact absurd hpos (by decide)

end SmartLock
