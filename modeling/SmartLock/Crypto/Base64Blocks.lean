import SmartLock.Crypto.Base64
import SmartLock.Model.Base64Blocks

/-!
# The codec keeps to its blocks

Whatever it is given, the encoder and the decoder of `base64_util.c` read
and write inside their blocks only, and end with what the codec is said to
give: the sizes they compute are large enough, and the table is the
alphabet.
-/

namespace SmartLock

open Block

variable {src written rest : List UInt8} {size i : ℕ} {junk : ℕ → UInt8}

/-! ## The encoder -/

/-- The block has room for the text and its NUL, and no number overflows. -/
theorem encodeSize_bounds {len : ℕ} (h : len < sizeMax / 4) :
    len ≤ encodeSize len ∧ 4 * ((len + 2) / 3) + 1 ≤ encodeSize len := by
  simp only [sizeMax] at h
  have hfour : len * 4 < 2 ^ 32 := by omega
  have holen : len * 4 / 3 + 4 < 2 ^ 31 := by omega
  have hlines : len * 4 / 3 + 4 + (len * 4 / 3 + 4) / 72 < 2 ^ 32 - 1 := by omega
  rw [encodeSize, Nat.mod_eq_of_lt hfour,
    Nat.mod_eq_of_lt (by omega : len * 4 / 3 + 4 < 2 ^ 32),
    Nat.mod_eq_of_lt (by omega : len * 4 / 3 + 4 + (len * 4 / 3 + 4) / 72 < 2 ^ 32),
    Nat.mod_eq_of_lt (by omega)]
  omega

/-- The blocks before `in` were written. -/
structure Encoded (src : List UInt8) (size : ℕ) (st : Encoding) (written : List UInt8) : Prop where
  wrote : st.out.Wrote size written
  whole : encodeBlocks src = written ++ encodeBlocks (src.drop st.inPos)

theorem getElem?_of_drop {a : UInt8} (h : src.drop i = a :: rest) : src[i]? = some a := by
  rw [← List.head?_drop, h]
  rfl

theorem getElem?_succ_of_drop {a b : UInt8} (h : src.drop i = a :: b :: rest) :
    src[i + 1]? = some b := by
  have hdrop : src.drop (i + 1) = b :: rest := by
    rw [← List.tail_drop, h]
    rfl
  exact getElem?_of_drop hdrop

variable {st : Encoding}

/-- **One turn of the loop** writes a block of four characters. -/
theorem Encoded.turn (hsize : (encodeBlocks src).length < size) (h : Encoded src size st written)
    (hcond : (encodeLoop src).cond st = true) : ∃ st' written',
      (encodeLoop src).body st = some st' ∧ Encoded src size st' written' ∧
      st'.inPos = st.inPos + 3 := by
  have hthree : 3 ≤ (src.drop st.inPos).length := by
    rw [List.length_drop]
    exact of_decide_eq_true hcond
  obtain ⟨a, b, c, rest, hdrop⟩ : ∃ a b c rest, src.drop st.inPos = a :: b :: c :: rest := by
    match hdrop : src.drop st.inPos with
    | a :: b :: c :: rest => exact ⟨a, b, c, rest, rfl⟩
    | [] | [_] | [_, _] => simp [hdrop] at hthree
  have hrest : src.drop (st.inPos + 3) = rest := by
    rw [← List.drop_drop, hdrop]
    rfl
  have hb : src.drop (st.inPos + 1) = b :: c :: rest := by
    rw [← List.tail_drop, hdrop]
    rfl
  have hwhole := h.whole
  rw [hdrop, encodeBlocks] at hwhole
  have hroom := congrArg List.length hwhole
  rw [List.length_append, List.length_cons, List.length_cons, List.length_cons,
    List.length_cons] at hroom
  obtain ⟨out, hpushes, hwrote⟩ := h.wrote.pushes [base64Char (a >>> 2),
    base64Char (((a &&& 0x03) <<< 4) ||| (b >>> 4)),
    base64Char (((b &&& 0x0f) <<< 2) ||| (c >>> 6)), base64Char c]
    (by simp only [List.length_cons, List.length_nil]; omega)
  refine ⟨⟨st.inPos + 3, out⟩, _, ?_, ⟨hwrote, ?_⟩, rfl⟩
  · simp only [encodeLoop, getElem?_of_drop hdrop, getElem?_of_drop hb,
      getElem?_succ_of_drop hb, Option.bind_eq_bind, Option.bind_some, hpushes]
    rfl
  · rw [hrest, hwhole, List.append_assoc]
    rfl

/-- **What is left is one block**, with the padding it lacks. -/
theorem Encoded.tail (hsize : (encodeBlocks src).length < size) (h : Encoded src size st written)
    (hcond : (encodeLoop src).cond st = false) : ∃ out,
      encodeTail src st = some out ∧ out.Wrote size (encodeBlocks src) := by
  have hfew : (src.drop st.inPos).length < 3 := by
    rw [List.length_drop]
    exact Nat.lt_of_not_le (of_decide_eq_false hcond)
  have hlen : src.length - st.inPos = (src.drop st.inPos).length := List.length_drop.symm
  have hwhole := h.whole
  rw [encodeTail, hlen]
  rcases hdrop : src.drop st.inPos with - | ⟨a, - | ⟨b, - | ⟨c, rest⟩⟩⟩
  · rw [hdrop, encodeBlocks, List.append_nil] at hwhole
    rw [List.length_nil, if_pos rfl, hwhole]
    exact ⟨st.out, rfl, h.wrote⟩
  · rw [hdrop, encodeBlocks] at hwhole
    rw [hwhole, List.length_append] at hsize
    rw [List.length_singleton, if_neg one_ne_zero, getElem?_of_drop hdrop, Option.bind_eq_bind,
      Option.bind_some, if_pos rfl, hwhole]
    exact h.wrote.pushes _ hsize.le
  · have hb : src.drop (st.inPos + 1) = [b] := by
      rw [← List.tail_drop, hdrop]
      rfl
    rw [hdrop, encodeBlocks] at hwhole
    rw [hwhole, List.length_append] at hsize
    rw [if_neg (by simp), getElem?_of_drop hdrop, Option.bind_eq_bind, Option.bind_some,
      if_neg (by simp), getElem?_of_drop hb, Option.bind_some, hwhole]
    exact h.wrote.pushes _ hsize.le
  · rw [hdrop, List.length_cons, List.length_cons, List.length_cons] at hfew
    omega

/-- **`base64_gen_encode` is the encoder**: it ends, and without having left
its blocks gives the text and its length, or `NULL` where there is none. -/
theorem base64GenEncode_refines (junk : ℕ → UInt8) (src : List UInt8) :
    ∃ enough r, (∀ turns, enough ≤ turns → base64GenEncode (some junk) turns src = some r) ∧
      r.map (fun out => (cstr out.block, out.pos)) =
        (base64Encode src).map fun text => (text, text.length) := by
  by_cases hlong : src.length ≥ sizeMax / 4
  · refine ⟨0, none, fun turns _ => if_pos hlong, ?_⟩
    rw [base64Encode, if_pos hlong]
    rfl
  · obtain ⟨hle, hroom⟩ := encodeSize_bounds (Nat.lt_of_not_le hlong)
    rw [← length_encodeBlocks] at hroom
    have hstart : Encoded src (encodeSize src.length)
        ⟨0, ⟨(List.range (encodeSize src.length)).map junk, 0⟩⟩ [] := by
      refine ⟨?_, rfl⟩
      have hwrote := Cursor.Wrote.start ((List.range (encodeSize src.length)).map junk)
      rwa [List.length_map, List.length_range] at hwrote
    obtain ⟨st, hends, written, henc⟩ := Loop.ends_of_variant (L := encodeLoop src)
      (I := fun st => ∃ written, Encoded src (encodeSize src.length) st written)
      (fun st => src.length - st.inPos) (fun st hI hcond => by
        obtain ⟨written, h⟩ := hI
        obtain ⟨st', written', hbody, h', hpos⟩ := h.turn hroom hcond
        have hthree : 3 ≤ src.length - st.inPos := of_decide_eq_true hcond
        exact ⟨st', hbody, ⟨written', h'⟩, by omega⟩) _ ⟨[], hstart⟩
    obtain ⟨out, htail, hwrote⟩ := henc.tail hroom hends.2
    obtain ⟨block, hwrite, hended⟩ := hwrote.write 0 (Nat.lt_of_succ_le hroom)
    obtain ⟨enough, hrun⟩ := Loop.ends_iff_run.1 hends
    refine ⟨enough, some ⟨block, out.pos⟩, fun turns hle' => ?_, ?_⟩
    · rw [base64GenEncode, if_neg hlong, if_neg (Nat.not_lt.2 hle)]
      dsimp only
      rw [Loop.run_mono hrun hle', Option.bind_eq_bind, Option.bind_some, htail,
        Option.bind_eq_bind, Option.bind_some, hwrite]
      rfl
    · obtain ⟨behind, hblock⟩ := hended.text
      rw [base64Encode, if_neg hlong, Option.map_some, Option.map_some, ← hblock, hwrote.pos,
        List.append_assoc, cstr_append (zero_notMem_encodeBlocks src)]
      simp [cstr]

/-! ## The decoder -/

/-- **The table is the alphabet.** -/
theorem dtable_eq (c : UInt8) : dtable c = if inAlphabet c then base64Value c else 0x80 := by
  have hall : ∀ n < 256, dtable (UInt8.ofNat n) =
      if inAlphabet (UInt8.ofNat n) then base64Value (UInt8.ofNat n) else 0x80 := by decide +kernel
  have h := hall c.toNat c.toNat_lt
  rwa [UInt8.ofNat_toNat] at h

theorem base64Value_ne (c : UInt8) (h : inAlphabet c = true) : base64Value c ≠ 0x80 := by
  rw [base64Value]
  split
  · decide
  · next hpad =>
    have hmem : c ∈ base64Table := by
      simpa [inAlphabet, hpad] using h
    have hlt : base64Table.idxOf c < 64 := List.idxOf_lt_length_of_mem hmem
    intro heq
    have hnat := congrArg UInt8.toNat heq
    rw [UInt8.toNat_ofNat', Nat.mod_eq_of_lt (by omega)] at hnat
    have h128 : (0x80 : UInt8).toNat = 128 := rfl
    omega

theorem dtable_ne_iff (c : UInt8) : dtable c ≠ 0x80 ↔ inAlphabet c = true := by
  rw [dtable_eq]
  split
  · next h => exact iff_of_true (base64Value_ne c h) h
  · next h => exact iff_of_false (fun hne => hne rfl) h

theorem decodeCount_eq (src : List UInt8) : decodeCount src = (src.filter inAlphabet).length := by
  have hfold (n : ℕ) : src.foldl (fun count c => if dtable c ≠ 0x80 then count + 1 else count) n =
      n + (src.filter inAlphabet).length := by
    induction src generalizing n with
    | nil => rfl
    | cons c src ih =>
      rw [List.foldl_cons, ih, List.filter_cons]
      by_cases hc : inAlphabet c = true
      · rw [if_pos ((dtable_ne_iff c).2 hc), if_pos hc, List.length_cons]
        omega
      · rw [if_neg (fun h => hc ((dtable_ne_iff c).1 h)), if_neg hc]
  rw [decodeCount, hfold, Nat.zero_add]

/-- The characters from the `i`-th on that count, and the padding behind
them. -/
def usedFrom (src : List UInt8) (extraPad i : ℕ) : List UInt8 :=
  ((src ++ List.replicate extraPad padChar).drop i).filter inAlphabet

variable {extraPad : ℕ} {part : List UInt8} {d d' : Decoding}

/-- The whole blocks before `i` were decoded, and of the next block the
values of `part` are there. -/
structure Decoded (src : List UInt8) (extraPad size : ℕ) (d : Decoding)
    (part written : List UInt8) : Prop where
  le : d.i ≤ src.length + extraPad
  few : part.length < 4
  pad : d.pad = part.count padChar
  block : Cursor.Wrote ⟨d.block, d.count⟩ 4 (part.map base64Value)
  wrote : d.out.Wrote size written
  left : d.left = none
  room : written.length * 4 + (part.length + (usedFrom src extraPad d.i).length) * 3 = size * 4
  whole : decodeBlocks (usedFrom src extraPad 0) =
    (decodeBlocks (part ++ usedFrom src extraPad d.i)).map (written ++ ·)

/-- What the decoder returns. -/
def Decoding.result (d : Decoding) : Option (List UInt8) :=
  if d.left = some false then none else some (d.out.block.take d.out.pos)

/-- The loop was left, with what it is to return. -/
def Decoding.Done (src : List UInt8) (extraPad : ℕ) (d : Decoding) : Prop :=
  d.left ≠ none ∧ d.result = decodeBlocks (usedFrom src extraPad 0)

/-- The next character, of the text or of the padding. -/
theorem exists_char (h : i < src.length + extraPad) : ∃ c,
    decodeVal src i = some c ∧
      usedFrom src extraPad i =
        (if inAlphabet c then [c] else []) ++ usedFrom src extraPad (i + 1) := by
  have hlt : i < (src ++ List.replicate extraPad padChar).length := by
    rwa [List.length_append, List.length_replicate]
  refine ⟨(src ++ List.replicate extraPad padChar)[i], ?_, ?_⟩
  · rw [decodeVal]
    by_cases hi : i ≥ src.length
    · rw [if_pos hi, List.getElem_append_right hi, List.getElem_replicate]
    · rw [if_neg hi, List.getElem_append_left (Nat.lt_of_not_le hi), List.getElem?_eq_getElem]
  · rw [usedFrom, List.drop_eq_getElem_cons hlt, List.filter_cons, usedFrom]
    split <;> rfl

/-- A character that does not count. -/
theorem Decoded.skip (h : Decoded src extraPad size d part written)
    (hlt : d.i < src.length + extraPad)
    (hused : usedFrom src extraPad d.i = usedFrom src extraPad (d.i + 1)) :
    Decoded src extraPad size { d with i := d.i + 1 } part written where
  le := hlt
  few := h.few
  pad := h.pad
  block := h.block
  wrote := h.wrote
  left := h.left
  room := by
    rw [← hused]
    exact h.room
  whole := by
    rw [← hused]
    exact h.whole

theorem count_append_char (part : List UInt8) (c : UInt8) : (part ++ [c]).count padChar =
    if c = padChar then part.count padChar + 1 else part.count padChar := by
  rw [List.count_append, List.count_singleton]
  by_cases hc : c = padChar
  · rw [if_pos hc, if_pos (beq_iff_eq.2 hc)]
  · rw [if_neg hc, if_neg (fun h => hc (beq_iff_eq.1 h)), Nat.add_zero]

/-- A character of a block that is not whole with it. -/
theorem Decoded.gather {c : UInt8} {block : List UInt8}
    (h : Decoded src extraPad size d part written) (hlt : d.i < src.length + extraPad)
    (hused : usedFrom src extraPad d.i = c :: usedFrom src extraPad (d.i + 1))
    (hblock : Cursor.Wrote ⟨block, d.count + 1⟩ 4 ((part ++ [c]).map base64Value))
    (hfew : part.length + 1 < 4) : Decoded src extraPad size
      ⟨d.i + 1, d.count + 1, if c = padChar then d.pad + 1 else d.pad, block, d.out, none⟩
      (part ++ [c]) written where
  le := hlt
  few := by rwa [List.length_append]
  pad := by
    rw [count_append_char, h.pad]
  block := hblock
  wrote := h.wrote
  left := rfl
  room := by
    have hroom := h.room
    rw [hused, List.length_cons] at hroom
    change written.length * 4 + ((part ++ [c]).length +
      (usedFrom src extraPad (d.i + 1)).length) * 3 = size * 4
    rw [List.length_append, List.length_singleton]
    omega
  whole := by
    rw [List.append_assoc, List.singleton_append, ← hused]
    exact h.whole

/-- **A whole block is decoded**, and what it was padded by taken back. -/
theorem Decoded.flush {a b c e : UInt8} {block : List UInt8}
    (h : Decoded src extraPad size d [a, b, c] written) (hlt : d.i < src.length + extraPad)
    (hused : usedFrom src extraPad d.i = e :: usedFrom src extraPad (d.i + 1))
    (hblock : Cursor.Wrote ⟨block, d.count + 1⟩ 4 ([a, b, c, e].map base64Value)) : ∃ d',
      decodeBlock d.i (if e = padChar then d.pad + 1 else d.pad) block d.out = some d' ∧
      ((∃ written', Decoded src extraPad size d' [] written' ∧ d'.i = d.i + 1) ∨
        d'.Done src extraPad) := by
  have hpad : (if e = padChar then d.pad + 1 else d.pad) = [a, b, c, e].count padChar := by
    rw [h.pad]
    exact (count_append_char [a, b, c] e).symm
  obtain rfl : block = [a, b, c, e].map base64Value := hblock.block_eq rfl
  have hroom := h.room
  have hwhole := h.whole
  rw [hused] at hroom hwhole
  simp only [List.length_cons, List.length_nil] at hroom
  obtain ⟨out, hpushes, hwrote⟩ := h.wrote.pushes
    [(base64Value a <<< 2) ||| (base64Value b >>> 4),
      (base64Value b <<< 4) ||| (base64Value c >>> 2), (base64Value c <<< 6) ||| base64Value e]
    (by simp only [List.length_cons, List.length_nil]; omega)
  -- what is taken back of the three bytes
  have hback (n : ℕ) (hn : n ≤ 3) : (out.back n).block.take (out.back n).pos =
      written ++ [(base64Value a <<< 2) ||| (base64Value b >>> 4),
        (base64Value b <<< 4) ||| (base64Value c >>> 2),
        (base64Value c <<< 6) ||| base64Value e].take (3 - n) := by
    rw [(hwrote.back n).take_eq, List.length_append, List.take_append]
    congr 1
    · exact List.take_of_length_le (by simp only [List.length_cons, List.length_nil]; omega)
    · congr 1
      simp only [List.length_cons, List.length_nil]
      omega
  simp only [decodeBlock, List.map_cons, List.map_nil, List.getElem?_cons_zero,
    List.getElem?_cons_succ, Option.bind_eq_bind, Option.bind_some, hpushes, hpad]
  rw [show [a, b, c] ++ e :: usedFrom src extraPad (d.i + 1) =
    a :: b :: c :: e :: usedFrom src extraPad (d.i + 1) from rfl, decodeBlocks] at hwhole
  rcases hcount : [a, b, c, e].count padChar with - | - | - | n
  · rw [hcount] at hwhole
    refine ⟨_, if_pos rfl, .inl ⟨_, ⟨hlt, by decide, rfl, ⟨rfl, List.nil_prefix, rfl⟩, hwrote,
      rfl, ?_, ?_⟩, rfl⟩⟩
    · change (written ++ _).length * 4 + (0 + (usedFrom src extraPad (d.i + 1)).length) * 3 = _
      rw [List.length_append]
      simp only [List.length_cons, List.length_nil]
      omega
    · rw [hwhole]
      refine (Option.map_map _ _ _).trans ?_
      exact congrArg (Option.map · (decodeBlocks (usedFrom src extraPad (d.i + 1))))
        (funext fun text => (List.append_assoc _ _ _).symm)
  · rw [hcount] at hwhole
    exact ⟨_, rfl, .inr ⟨Option.some_ne_none _, (congrArg some (hback 1 (by decide))).trans
      hwhole.symm⟩⟩
  · rw [hcount] at hwhole
    exact ⟨_, rfl, .inr ⟨Option.some_ne_none _, (congrArg some (hback 2 (by decide))).trans
      hwhole.symm⟩⟩
  · rw [hcount] at hwhole
    exact ⟨_, rfl, .inr ⟨Option.some_ne_none _, hwhole.symm⟩⟩

/-- **One turn of the loop.** -/
theorem Decoded.turn (htotal : src.length + extraPad < 2 ^ 32)
    (h : Decoded src extraPad size d part written)
    (hcond : (decodeLoop src extraPad).cond d = true) : ∃ d',
      (decodeLoop src extraPad).body d = some d' ∧
      ((∃ part' written', Decoded src extraPad size d' part' written' ∧ d'.i = d.i + 1) ∨
        d'.Done src extraPad) := by
  have hlt : d.i < src.length + extraPad := by
    have hi := (Bool.and_eq_true_iff.1 hcond).2
    rwa [decide_eq_true_eq, Nat.mod_eq_of_lt htotal] at hi
  obtain ⟨c, hval, hused⟩ := exists_char hlt
  simp only [decodeLoop, hval, Option.bind_eq_bind, Option.bind_some]
  by_cases hc : inAlphabet c = true
  · rw [if_pos hc, List.singleton_append] at hused
    rw [if_neg ((dtable_ne_iff c).2 hc), dtable_eq, if_pos hc]
    obtain ⟨block, hwrite, hblock⟩ := h.block.write (base64Value c) (by
      rw [List.length_map]
      exact h.few)
    have hcount : d.count = part.length := h.block.pos.trans (List.length_map _)
    have hvalues : part.map base64Value ++ [base64Value c] = (part ++ [c]).map base64Value := by
      rw [List.map_append]
      rfl
    rw [hvalues] at hblock
    simp only at hwrite
    rw [hwrite, Option.bind_some, hcount]
    by_cases hwhole : part.length + 1 = 4
    · rw [if_pos hwhole]
      obtain ⟨a, b, e, rfl⟩ := List.length_eq_three.1 (Nat.succ.inj hwhole)
      obtain ⟨d', hflush, hd'⟩ := h.flush hlt hused hblock
      exact ⟨d', hflush, hd'.imp (fun ⟨written', hdec⟩ => ⟨[], written', hdec⟩) id⟩
    · rw [if_neg hwhole, ← hcount]
      have hfew := h.few
      exact ⟨_, rfl, .inl ⟨_, _, h.gather hlt hused hblock (by omega), rfl⟩⟩
  · rw [if_neg hc, List.nil_append] at hused
    rw [if_pos (not_not.1 fun hne => hc ((dtable_ne_iff c).1 hne))]
    exact ⟨_, rfl, .inl ⟨_, _, h.skip hlt hused, rfl⟩⟩

/-- The text is over, and with it the last block. -/
theorem Decoded.done (htotal : src.length + extraPad < 2 ^ 32)
    (h : Decoded src extraPad size d part written)
    (hcond : (decodeLoop src extraPad).cond d = false) :
    d.result = decodeBlocks (usedFrom src extraPad 0) := by
  have hend : ¬ d.i < src.length + extraPad := by
    intro hlt
    have htrue : (decodeLoop src extraPad).cond d = true := by
      refine Bool.and_eq_true_iff.2 ⟨by rw [h.left]; rfl, ?_⟩
      rwa [decide_eq_true_eq, Nat.mod_eq_of_lt htotal]
    rw [hcond] at htrue
    cases htrue
  have hnone : usedFrom src extraPad d.i = [] := by
    rw [usedFrom, List.drop_of_length_le (by rw [List.length_append, List.length_replicate]; omega)]
    rfl
  have hroom := h.room
  have hfew := h.few
  have hwhole := h.whole
  rw [hnone] at hroom hwhole
  rw [List.length_nil] at hroom
  obtain rfl : part = [] := List.length_eq_zero_iff.1 (by omega)
  rw [hwhole, Decoding.result, if_neg (by rw [h.left]; exact nofun), h.wrote.take_eq]
  exact congrArg some (List.append_nil written).symm

/-- **The loop ends**, with the text decoded. -/
theorem decodeLoop_ends {size : ℕ} (junk stack : ℕ → UInt8)
    (htotal : src.length + extraPad < 2 ^ 32)
    (hsize : (usedFrom src extraPad 0).length * 3 = size * 4) : ∃ d,
      (decodeLoop src extraPad).Ends
        ⟨0, 0, 0, (List.range 4).map stack, ⟨(List.range size).map junk, 0⟩, none⟩ d ∧
      d.result = decodeBlocks (usedFrom src extraPad 0) := by
  have hstart : Decoded src extraPad size
      ⟨0, 0, 0, (List.range 4).map stack, ⟨(List.range size).map junk, 0⟩, none⟩ [] [] := by
    refine ⟨Nat.zero_le _, by decide, rfl, ⟨rfl, List.nil_prefix, by simp⟩, ?_, rfl, ?_, ?_⟩
    · have hwrote := Cursor.Wrote.start ((List.range size).map junk)
      rwa [List.length_map, List.length_range] at hwrote
    · rw [← hsize, List.length_nil]
      simp only [Nat.zero_mul, Nat.zero_add]
    · exact Option.map_id'.symm
  obtain ⟨d, hends, hd⟩ := Loop.ends_of_variant (L := decodeLoop src extraPad)
    (I := fun d => (∃ part written, Decoded src extraPad size d part written) ∨
      d.Done src extraPad)
    (fun d => if d.left = none then src.length + extraPad + 1 - d.i else 0) (fun d hd hcond => by
      have hleft : d.left = none := Option.isNone_iff_eq_none.1 (Bool.and_eq_true_iff.1 hcond).1
      obtain ⟨part, written, h⟩ := hd.resolve_right fun hdone => hdone.1 hleft
      obtain ⟨d', hbody, hd'⟩ := h.turn htotal hcond
      have hle := h.le
      refine ⟨d', hbody, hd'.imp (fun ⟨part', written', h', _⟩ => ⟨part', written', h'⟩) id, ?_⟩
      rw [if_pos hleft]
      rcases hd' with ⟨part', written', h', hnext⟩ | hdone
      · rw [if_pos h'.left, hnext]
        omega
      · rw [if_neg hdone.1]
        omega) _ (.inl ⟨[], [], hstart⟩)
  refine ⟨d, hends, ?_⟩
  rcases hd with ⟨part, written, h⟩ | hdone
  · exact h.done htotal hends.2
  · exact hdone.2

/-- **`base64_gen_decode` is the decoder**: it ends, and without having left
its blocks gives the bytes, or `NULL` where there are none. -/
theorem base64GenDecode_refines (junk stack : ℕ → UInt8) (src : List UInt8)
    (hlen : src.length + 3 < 2 ^ 32) :
    ∃ enough r, (∀ turns, enough ≤ turns → base64GenDecode (some junk) stack turns src = some r) ∧
      r.map (fun out => out.block.take out.pos) = base64Decode src := by
  have hcount := decodeCount_eq src
  have hle : (src.filter inAlphabet).length ≤ src.length := List.length_filter_le ..
  by_cases hzero : decodeCount src = 0
  · refine ⟨0, none, fun turns _ => if_pos hzero, ?_⟩
    rw [base64Decode, if_pos (hcount.symm.trans hzero)]
    rfl
  · have hpad : decodePad (decodeCount src) ≤ 3 ∧
        4 ∣ decodeCount src + decodePad (decodeCount src) := by
      rw [decodePad]
      omega
    have hused : usedFrom src (decodePad (decodeCount src)) 0 = src.filter inAlphabet ++
        List.replicate (decodePad (decodeCount src)) padChar := by
      rw [usedFrom, List.drop_zero, List.filter_append, List.filter_replicate_of_pos rfl]
    have hsize : (usedFrom src (decodePad (decodeCount src)) 0).length * 3 =
        decodeSize (decodeCount src) (decodePad (decodeCount src)) * 4 := by
      rw [hused, List.length_append, List.length_replicate, ← hcount, decodeSize,
        Nat.mod_eq_of_lt (by omega : decodeCount src + decodePad (decodeCount src) < 2 ^ 32),
        Nat.mod_eq_of_lt (by omega)]
      omega
    obtain ⟨d, hends, hresult⟩ := decodeLoop_ends junk stack (by omega) hsize
    obtain ⟨enough, hrun⟩ := Loop.ends_iff_run.1 hends
    refine ⟨enough, if d.left = some false then none else some d.out, fun turns hturns => ?_, ?_⟩
    · rw [base64GenDecode]
      simp only [if_neg hzero, Loop.run_mono hrun hturns]
      rfl
    · rw [base64Decode]
      simp only [← hcount, if_neg hzero]
      rw [← decodePad, ← hused, ← hresult, Decoding.result]
      split <;> rfl

/-- A text with a blank in it, and without its padding. -/
theorem base64GenDecode_refines_blank : ∃ enough r,
    (∀ turns, enough ≤ turns →
      base64GenDecode (some fun _ => 0) (fun _ => 0) turns (lit "TE 9LTA") = some r) ∧
      r.map (fun out => out.block.take out.pos) = some (lit "LOKL") := by
  have hdecode : base64Decode (lit "TE 9LTA") = some (lit "LOKL") := by decide
  rw [← hdecode]
  exact base64GenDecode_refines (fun _ => 0) (fun _ => 0) (lit "TE 9LTA") (by decide)

end SmartLock
