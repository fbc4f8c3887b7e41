import SmartLock.Handler.Commands

/-!
# The weekdays of an authorization

`get_authorization_db` stores the weekdays of the answer through an index
it does not check. In front of `weekdays` stand the id of the phone, the
kind of user and the master key, which a day of zero or less is stored
into.
-/

namespace SmartLock

open Prog

variable {W : World} {s s' : Sys} {p phone : CStr} {key : List UInt8} {d : AuthData}
  {auth auth' : Authorization} {days : List Int} {day index : Int} {x i k : ℕ}

/-! ## The bytes in front of the weekdays -/

/-- The four bytes of a word, the lowest first. -/
def wordBytes (x : ℕ) : List UInt8 := (List.range 4).map fun k => UInt8.ofNat (x / 256 ^ k)

/-- What the block holds in front of `weekdays`, byte by byte. -/
def Authorization.bytes (auth : Authorization) : List UInt8 :=
  auth.phoneId.toList ++ (wordBytes auth.userType ++ auth.masterKey.toList)

@[simp] theorem length_wordBytes : (wordBytes x).length = 4 := by simp [wordBytes]

/-- A word that had byte `k` set: the bytes above it, the byte, and the rest
below. -/
theorem pokeWord_eq (x k : ℕ) :
    pokeWord x k = 256 ^ k * (256 * (x / 256 ^ k / 256) + 1) + x % 256 ^ k := by
  have hword : 256 ^ k * (256 * (x / 256 ^ k / 256) + x / 256 ^ k % 256) + x % 256 ^ k = x := by
    rw [Nat.div_add_mod, Nat.div_add_mod]
  rw [Nat.mul_add, Nat.mul_comm _ (_ % 256)] at hword
  rw [pokeWord, Nat.mul_add, Nat.mul_one]
  omega

theorem pokeWord_mod (x k : ℕ) : pokeWord x k % 256 ^ k = x % 256 ^ k := by
  rw [pokeWord_eq, Nat.mul_add_mod, Nat.mod_mod]

theorem pokeWord_div (x k : ℕ) : pokeWord x k / 256 ^ k = 256 * (x / 256 ^ k / 256) + 1 := by
  have hpos : 0 < 256 ^ k := Nat.pow_pos (by decide)
  rw [pokeWord_eq, Nat.mul_add_div hpos, Nat.div_eq_of_lt (Nat.mod_lt x hpos), Nat.add_zero]

/-- The bytes above are kept. -/
theorem pokeWord_div_of_lt {j : ℕ} (h : k < j) : pokeWord x k / 256 ^ j = x / 256 ^ j := by
  have habove (y : ℕ) : y / 256 ^ j = y / 256 ^ k / 256 / 256 ^ (j - (k + 1)) := by
    rw [Nat.div_div_eq_div_mul, Nat.div_div_eq_div_mul, ← Nat.mul_assoc, ← pow_succ, ← pow_add,
      Nat.add_sub_of_le h]
  rw [habove, habove x, pokeWord_div, Nat.mul_add_div (by decide)]
  rfl

/-- A byte of a word that had one of its bytes set. -/
theorem byte_pokeWord (x k j : ℕ) :
    pokeWord x k / 256 ^ j % 256 = if j = k then 1 else x / 256 ^ j % 256 := by
  rcases lt_trichotomy j k with h | rfl | h
  · have hbelow (y : ℕ) : y / 256 ^ j % 256 = y % 256 ^ k % 256 ^ (j + 1) / 256 ^ j := by
      rw [Nat.mod_mod_of_dvd _ (pow_dvd_pow 256 h), pow_succ, Nat.mod_mul_right_div_self]
    rw [if_neg h.ne, hbelow, pokeWord_mod, ← hbelow]
  · rw [if_pos rfl, pokeWord_div, Nat.mul_add_mod]
  · rw [if_neg h.ne', pokeWord_div_of_lt h]

theorem pokeWord_lt (hk : k < 4) (hx : x < 2 ^ 32) : pokeWord x k < 2 ^ 32 := by
  have hword (y : ℕ) : y < 2 ^ 32 ↔ y / 256 ^ 4 = 0 := by
    rw [Nat.div_eq_zero_iff_lt (by decide)]
    rfl
  rw [hword, pokeWord_div_of_lt hk, ← hword]
  exact hx

theorem wordBytes_pokeWord : wordBytes (pokeWord x k) = (wordBytes x).set k 1 := by
  have hbyte (a b : ℕ) (h : a % 256 = b % 256) : UInt8.ofNat a = UInt8.ofNat b :=
    UInt8.toNat_inj.1 (by simpa using h)
  refine List.ext_getElem (by simp) fun j hj _ => ?_
  have hj : j < 4 := by simpa using hj
  rw [List.getElem_set]
  simp only [wordBytes, List.getElem_map, List.getElem_range]
  have hpoke := byte_pokeWord x k j
  by_cases h : k = j
  · rw [if_pos h]
    rw [if_pos h.symm] at hpoke
    exact hbyte _ 1 hpoke
  · rw [if_neg h]
    rw [if_neg (Ne.symm h)] at hpoke
    exact hbyte _ _ hpoke

/-- A word is what its bytes say. -/
theorem wordBytes_inj {y : ℕ} (hx : x < 2 ^ 32) (hy : y < 2 ^ 32) :
    wordBytes x = wordBytes y ↔ x = y := by
  refine ⟨fun h => ?_, congrArg wordBytes⟩
  have hbyte (k : ℕ) (hk : k < 4) : x / 256 ^ k % 256 = y / 256 ^ k % 256 := by
    have := congrArg (fun l => (l[k]?).map UInt8.toNat) h
    simpa [wordBytes, hk] using this
  have h₀ := hbyte 0 (by decide)
  have h₁ := hbyte 1 (by decide)
  have h₂ := hbyte 2 (by decide)
  have h₃ := hbyte 3 (by decide)
  norm_num at h₀ h₁ h₂ h₃ hx hy
  omega

/-! ## One weekday -/

theorem storeWeekday_isSome_iff (auth : Authorization) (index : Int) :
    (auth.storeWeekday index).isSome ↔ -52 ≤ index ∧ index < 20 := by
  rw [Authorization.storeWeekday]
  split
  · exact iff_of_false Bool.false_ne_true (by omega)
  iterate 8
    split
    · exact iff_of_true rfl (by omega)
  exact iff_of_false Bool.false_ne_true (by omega)

/-- What a weekday is stored into: the id of the phone, the kind of user, the
master key, the weekdays, or what stands behind them. -/
theorem storeWeekday_cases (h : auth.storeWeekday index = some auth') :
    ∃ off : ℕ, index = off - 52 ∧
      ((∃ h : off < 16, auth' = { auth with phoneId := auth.phoneId.set off 1 }) ∨
      (∃ k, k < 4 ∧ off = 16 + k ∧ auth' = { auth with userType := pokeWord auth.userType k }) ∨
      (∃ (k : ℕ) (h : k < 32), off = 20 + k ∧
        auth' = { auth with masterKey := auth.masterKey.set k 1 }) ∨
      (∃ (k : ℕ) (h : k < 7), off = 52 + k ∧
        auth' = { auth with weekdays := auth.weekdays.set k true }) ∨
      (59 ≤ off ∧ auth'.phoneId = auth.phoneId ∧ auth'.userType = auth.userType ∧
        auth'.masterKey = auth.masterKey ∧ auth'.weekdays = auth.weekdays)) := by
  rw [Authorization.storeWeekday] at h
  refine ⟨(index + 52).toNat, ?_⟩
  split at h
  · cases h
  split at h
  · exact ⟨by omega, .inl ⟨‹_›, (Option.some.inj h).symm⟩⟩
  split at h
  · exact ⟨by omega, .inr (.inl ⟨_, by omega, by omega, (Option.some.inj h).symm⟩)⟩
  split at h
  · exact ⟨by omega, .inr (.inr (.inl ⟨_, by omega, by omega, (Option.some.inj h).symm⟩))⟩
  split at h
  · exact ⟨by omega, .inr (.inr (.inr (.inl ⟨_, by omega, by omega, (Option.some.inj h).symm⟩)))⟩
  -- the padding and the three numbers behind it
  have hbehind : 59 ≤ (index + 52).toNat := by omega
  have hindex : index = (index + 52).toNat - 52 := by omega
  iterate 4
    split at h
    · cases h
      exact ⟨hindex, .inr (.inr (.inr (.inr ⟨hbehind, rfl, rfl, rfl, rfl⟩)))⟩
  cases h

/-- **A weekday sets one byte**, which is in front of the weekdays where the
index is negative. -/
theorem storeWeekday_bytes (h : auth.storeWeekday index = some auth') :
    auth'.bytes = auth.bytes.set (index + 52).toNat 1 := by
  have hphone : auth.phoneId.toList.length = 16 := by simp
  have hlen : auth.bytes.length = 52 := by simp [Authorization.bytes]
  obtain ⟨off, rfl, ⟨hoff, rfl⟩ | ⟨k, hk, rfl, rfl⟩ | ⟨k, hk, rfl, rfl⟩ | ⟨k, hk, rfl, rfl⟩ |
    ⟨hoff, hphone', htype, hkey, _⟩⟩ := storeWeekday_cases h
  · rw [show ((off : Int) - 52 + 52).toNat = off by omega, Authorization.bytes,
      Authorization.bytes, List.set_append_left _ _ (by omega), Vector.toList_set]
  · rw [show (((16 + k : ℕ) : Int) - 52 + 52).toNat = 16 + k by omega, Authorization.bytes,
      Authorization.bytes, List.set_append_right _ _ (by omega),
      List.set_append_left _ _ (by simp; omega), wordBytes_pokeWord, hphone,
      Nat.add_sub_cancel_left]
  · rw [show (((20 + k : ℕ) : Int) - 52 + 52).toNat = 20 + k by omega, Authorization.bytes,
      Authorization.bytes, List.set_append_right _ _ (by omega),
      List.set_append_right _ _ (by simp; omega), Vector.toList_set]
    simp only [hphone, length_wordBytes, show 20 + k - 16 - 4 = k by omega]
  · rw [List.set_eq_of_length_le (by omega)]
    rfl
  · rw [List.set_eq_of_length_le (by omega), Authorization.bytes, Authorization.bytes, hphone',
      htype, hkey]

/-- It sets the weekday it names. -/
theorem storeWeekday_weekdays (h : auth.storeWeekday index = some auth') {i : ℕ} (hi : i < 7) :
    auth'.weekdays[i] = true ↔ auth.weekdays[i] = true ∨ (i : Int) = index := by
  obtain ⟨off, rfl, ⟨hoff, rfl⟩ | ⟨k, hk, rfl, rfl⟩ | ⟨k, hk, rfl, rfl⟩ | ⟨k, hk, rfl, rfl⟩ |
    ⟨hoff, _, _, _, hdays⟩⟩ := storeWeekday_cases h
  · exact ⟨.inl, fun h => h.resolve_right (by omega)⟩
  · exact ⟨.inl, fun h => h.resolve_right (by omega)⟩
  · exact ⟨.inl, fun h => h.resolve_right (by omega)⟩
  · rw [Vector.getElem_set]
    by_cases hday : k = i
    · rw [if_pos hday]
      exact ⟨fun _ => .inr (by omega), fun _ => rfl⟩
    · rw [if_neg hday]
      exact ⟨.inl, fun h => h.resolve_right (by omega)⟩
  · rw [hdays]
    exact ⟨.inl, fun h => h.resolve_right (by omega)⟩

theorem storeWeekday_userType (h : auth.storeWeekday index = some auth')
    (htype : auth.userType < 2 ^ 32) : auth'.userType < 2 ^ 32 := by
  obtain ⟨off, rfl, ⟨hoff, rfl⟩ | ⟨k, hk, rfl, rfl⟩ | ⟨k, hk, rfl, rfl⟩ | ⟨k, hk, rfl, rfl⟩ |
    ⟨hoff, _, htype', _⟩⟩ := storeWeekday_cases h
  · exact htype
  · exact pokeWord_lt hk htype
  · exact htype
  · exact htype
  · exact htype'.trans_lt htype

/-! ## The list of weekdays -/

theorem storeWeekdays_isSome_iff :
    (storeWeekdays auth days).isSome ↔ ∀ day ∈ days, -51 ≤ day ∧ day ≤ 20 := by
  induction days generalizing auth with
  | nil => simp [storeWeekdays]
  | cons day days ih =>
    rw [storeWeekdays, List.forall_mem_cons]
    have hday := storeWeekday_isSome_iff auth (day - 1)
    cases hstore : auth.storeWeekday (day - 1) with
    | none =>
      rw [hstore] at hday
      exact ⟨nofun, fun h => hday.2 (by omega)⟩
    | some auth' =>
      rw [hstore] at hday
      have hrange := hday.1 rfl
      exact ih.trans ⟨fun h => ⟨by omega, h⟩, And.right⟩

/-- **A list of weekdays** sets the bytes its days name, and no other in
front of the weekdays. -/
theorem storeWeekdays_bytes (h : storeWeekdays auth days = some auth') (i : ℕ)
    (hi : i < auth.bytes.length) :
    auth'.bytes[i]? = if (i : Int) - 51 ∈ days then some 1 else auth.bytes[i]? := by
  induction days generalizing auth with
  | nil =>
    cases h
    rfl
  | cons day days ih =>
    rw [storeWeekdays] at h
    have hrange := storeWeekday_isSome_iff auth (day - 1)
    cases hstore : auth.storeWeekday (day - 1) with
    | none =>
      rw [hstore] at h
      cases h
    | some auth₁ =>
      rw [hstore] at h hrange
      have hday := hrange.1 rfl
      have hbytes := storeWeekday_bytes hstore
      rw [ih h (by rw [hbytes, List.length_set]; exact hi), hbytes, List.getElem?_set]
      by_cases hmem : (i : Int) - 51 ∈ days
      · rw [if_pos hmem, if_pos (List.mem_cons_of_mem _ hmem)]
      · rw [if_neg hmem]
        by_cases heq : (i : Int) - 51 = day
        · rw [if_pos (by omega), if_pos (by omega), if_pos (heq ▸ List.mem_cons_self ..)]
        · rw [if_neg (by omega), if_neg]
          rintro (_ | ⟨_, hin⟩)
          · exact heq rfl
          · exact hmem hin

theorem storeWeekdays_weekdays (h : storeWeekdays auth days = some auth') {i : ℕ} (hi : i < 7) :
    auth'.weekdays[i] = true ↔ auth.weekdays[i] = true ∨ (i : Int) + 1 ∈ days := by
  induction days generalizing auth with
  | nil =>
    cases h
    simp
  | cons day days ih =>
    rw [storeWeekdays] at h
    cases hstore : auth.storeWeekday (day - 1) with
    | none =>
      rw [hstore] at h
      cases h
    | some auth₁ =>
      rw [hstore] at h
      rw [ih h, storeWeekday_weekdays hstore hi, List.mem_cons, or_assoc,
        show (i : Int) = day - 1 ↔ (i : Int) + 1 = day by omega]

theorem storeWeekdays_userType (h : storeWeekdays auth days = some auth')
    (htype : auth.userType < 2 ^ 32) : auth'.userType < 2 ^ 32 := by
  induction days generalizing auth with
  | nil =>
    cases h
    exact htype
  | cons day days ih =>
    rw [storeWeekdays] at h
    cases hstore : auth.storeWeekday (day - 1) with
    | none =>
      rw [hstore] at h
      cases h
    | some auth₁ =>
      rw [hstore] at h
      exact ih h (storeWeekday_userType hstore htype)

/-! ## What the answer gives -/

/-- `l` has the bytes that `m` gives, in their places. -/
def Agrees (m : List (Option UInt8)) (l : List UInt8) : Prop :=
  ∀ (i : ℕ) (b : UInt8), m[i]? = some (some b) → l[i]? = some b

theorem agrees_append {m₁ m₂ : List (Option UInt8)} {l₁ l₂ : List UInt8}
    (hlen : m₁.length = l₁.length) :
    Agrees (m₁ ++ m₂) (l₁ ++ l₂) ↔ Agrees m₁ l₁ ∧ Agrees m₂ l₂ := by
  refine ⟨fun h => ⟨fun i b hb => ?_, fun i b hb => ?_⟩, fun ⟨h₁, h₂⟩ i b hb => ?_⟩
  · have hi : i < m₁.length := (List.getElem?_eq_some_iff.1 hb).1
    have := h i b (by rw [List.getElem?_append_left hi, hb])
    rwa [List.getElem?_append_left (hlen ▸ hi)] at this
  · have := h (m₁.length + i) b (by
      rw [List.getElem?_append_right (by omega), Nat.add_sub_cancel_left, hb])
    rwa [List.getElem?_append_right (by omega), hlen, Nat.add_sub_cancel_left] at this
  · by_cases hi : i < m₁.length
    · rw [List.getElem?_append_left hi] at hb
      rw [List.getElem?_append_left (hlen ▸ hi)]
      exact h₁ i b hb
    · rw [List.getElem?_append_right (by omega)] at hb
      rw [List.getElem?_append_right (by omega), ← hlen]
      exact h₂ _ b hb

/-- Bytes that are all given, with none given behind them. -/
theorem agrees_prefix {k l : List UInt8} {n : ℕ} :
    Agrees (k.map some ++ List.replicate n none) l ↔ k <+: l := by
  rw [List.prefix_iff_getElem?]
  refine ⟨fun h i hi => h i _ ?_, fun h i b hb => ?_⟩
  · rw [List.getElem?_append_left (by simpa using hi)]
    simp [hi]
  · by_cases hi : i < k.length
    · rw [List.getElem?_append_left (by simpa using hi)] at hb
      rw [h i hi]
      simpa [hi] using hb
    · rw [List.getElem?_append_right (by simpa using hi)] at hb
      have := List.eq_of_mem_replicate (List.mem_of_getElem? hb)
      cases this

/-- What the answer gives for the bytes in front of the weekdays. It gives
none behind the NUL of the id, or behind a key that is short. -/
def replyBytes (phone : CStr) (key : List UInt8) : List (Option UInt8) :=
  ((phone ++ [0]).map some ++ List.replicate (15 - phone.length) none) ++
    (((wordBytes UserType.periodicUser).map some ++ List.replicate 0 none) ++
      (key.map some ++ List.replicate 0 none))

/-- A block that holds the string, NUL included. -/
theorem cstr_eq_iff {buf : List UInt8} (hnul : (0 : UInt8) ∉ phone)
    (hlen : phone.length < buf.length) : cstr buf = phone ↔ phone ++ [0] <+: buf := by
  constructor
  · rintro rfl
    obtain ⟨r, hbuf, hr⟩ := exists_cstr_append buf
    cases r with
    | nil =>
      rw [List.append_nil] at hbuf
      rw [← hbuf] at hlen
      exact absurd hlen (lt_irrefl _)
    | cons b r =>
      have hb : b = 0 := by
        by_contra hb
        rw [cstr, List.takeWhile_cons_of_pos (by simpa using hb)] at hr
        cases hr
      exact ⟨r, by rw [List.append_assoc, List.singleton_append, ← hb, ← hbuf]⟩
  · rintro ⟨r, rfl⟩
    rw [List.append_assoc, cstr_append hnul]
    exact List.append_nil _

/-- The bytes the answer gives are the id, the kind of user and the key. -/
theorem agrees_replyBytes (hnul : (0 : UInt8) ∉ phone) (hlen : phone.length < 16)
    (htype : auth.userType < 2 ^ 32) :
    Agrees (replyBytes phone key) auth.bytes ↔
      auth.phone = phone ∧ auth.userType = UserType.periodicUser ∧
        key <+: auth.masterKey.toList := by
  rw [replyBytes, Authorization.bytes, agrees_append (by simp; omega), agrees_append (by simp),
    agrees_prefix, agrees_prefix, agrees_prefix, Authorization.phone,
    cstr_eq_iff hnul (by simpa using hlen)]
  refine and_congr_right fun _ => and_congr_left fun _ => ?_
  rw [← wordBytes_inj htype (by decide)]
  exact ⟨fun h => (h.eq_of_length (by simp)).symm, fun h => h ▸ List.prefix_rfl⟩

/-! ## What is filled in -/

/-- A day that leaves what the answer gives: a day of the week, or one whose
index is in front of the weekdays at a byte that is one already, or that the
answer does not give, or one of the next bytes behind them. -/
def Harmless (phone : CStr) (key : List UInt8) (day : Int) : Prop :=
  1 ≤ day ∧ day ≤ 20 ∨
    -51 ≤ day ∧ day ≤ 0 ∧ ∀ b, (replyBytes phone key)[(day + 51).toNat]? = some (some b) → b = 1

/-- The block in front of the loop over the weekdays. -/
def Authorization.answered (auth : Authorization) (phone : CStr) (key : List UInt8) :
    Authorization :=
  { auth with
    phoneId := strcpyPhone auth.phoneId phone
    userType := UserType.periodicUser
    masterKey := memcpyKey auth.masterKey key
    weekdays := Vector.replicate 7 false }

theorem answered_userType : (auth.answered phone key).userType < 2 ^ 32 :=
  show 3 < 2 ^ 32 by decide

theorem answered_agrees (hlen : phone.length < 16) (hkey : key.length ≤ 32) :
    Agrees (replyBytes phone key) (auth.answered phone key).bytes := by
  rw [replyBytes, Authorization.bytes, agrees_append (by simp; omega), agrees_append (by simp),
    agrees_prefix, agrees_prefix, agrees_prefix]
  refine ⟨List.prefix_iff_getElem?.2 fun i hi => ?_, List.prefix_rfl,
    List.prefix_iff_getElem?.2 fun i hi => ?_⟩
  · have hi : i ≤ phone.length := by simpa using Nat.lt_succ_iff.1 (by simpa using hi)
    have hi' : i < 16 := by omega
    simp only [Authorization.answered, strcpyPhone, Vector.getElem?_toList]
    rcases hi.lt_or_eq with h | rfl
    · simp [hi', h]
    · simp [hi']
  · have hi' : i < 32 := by omega
    simp [Authorization.answered, memcpyKey, hi', hi]

/-- **The loop over the weekdays keeps what the answer gives** exactly if
every day is harmless. -/
theorem storeWeekdays_agrees_iff (auth : Authorization) (hlen : phone.length < 16)
    (hkey : key.length ≤ 32) :
    (∃ auth', storeWeekdays (auth.answered phone key) days = some auth' ∧
        Agrees (replyBytes phone key) auth'.bytes) ↔
      ∀ day ∈ days, Harmless phone key day := by
  have hbytes : (auth.answered phone key).bytes.length = 52 := by simp [Authorization.bytes]
  have hreply : (replyBytes phone key).length ≤ 52 := by
    simp [replyBytes]
    omega
  constructor
  · rintro ⟨auth', hstore, hagrees⟩ day hday
    have hrange := storeWeekdays_isSome_iff.1 (Option.isSome_of_mem hstore) day hday
    by_cases hpos : 1 ≤ day
    · exact .inl ⟨hpos, hrange.2⟩
    · refine .inr ⟨hrange.1, by omega, fun b hb => ?_⟩
      have hbyte := hagrees _ b hb
      rw [storeWeekdays_bytes hstore _ (by omega), if_pos] at hbyte
      · exact (Option.some.inj hbyte).symm
      · rwa [show (((day + 51).toNat : ℕ) : Int) - 51 = day by omega]
  · intro h
    have hsome : (storeWeekdays (auth.answered phone key) days).isSome := by
      refine storeWeekdays_isSome_iff.2 fun day hday => ?_
      rcases h day hday with hin | hin <;> omega
    obtain ⟨auth', hstore⟩ := Option.isSome_iff_exists.1 hsome
    refine ⟨auth', hstore, fun i b hb => ?_⟩
    have hi : i < (replyBytes phone key).length := (List.getElem?_eq_some_iff.1 hb).1
    rw [storeWeekdays_bytes hstore i (by omega)]
    by_cases hmem : (i : Int) - 51 ∈ days
    · rw [if_pos hmem]
      rcases h _ hmem with hday | ⟨_, _, hone⟩
      · omega
      · rw [hone b (by rwa [show ((i : Int) - 51 + 51).toNat = i by omega])]
    · rw [if_neg hmem]
      exact answered_agrees hlen hkey i b hb

/-- The answer gives the id `phone` and, encrypted, the key. -/
def AuthData.Gives (W : World) (d : AuthData) (s : Sys) (phone : CStr) (key : List UInt8) : Prop :=
  d.phoneId = some phone ∧ ∃ enc text t, d.masterKeyEncryptedLock = some enc ∧
    (decryptBase64RSA W enc).run s = (.ok text, t) ∧ base64Decode text = some key

/-- The block has the values of the answer, and the weekdays it lists. -/
structure FillsIn (d : AuthData) (phone : CStr) (key : List UInt8) (auth : Authorization) :
    Prop where
  phone_eq : auth.phone = phone
  userType_eq : auth.userType = d.type
  masterKey_eq : key <+: auth.masterKey.toList
  validFrom_eq : auth.validFromTs = d.validFrom
  validUntil_eq : auth.validUntilTs = d.validUntil
  weekdays_iff : ∀ i : Fin 7, auth.weekdays[i] = true ↔ (i : Int) + 1 ∈ d.weekdays

variable (W) in
/-- What `getAuthorizationDb` makes of a successful answer before it stores
it. -/
def fillAuthorization (d : AuthData) (auth : Authorization) : M Authorization := do
  let phone ← deref d.phoneId
  faultIf (phone.length ≥ 16) .overflow
  let masterKeyBase64 ← decryptBase64RSA W (← deref d.masterKeyEncryptedLock)
  let masterKey ← deref (base64Decode masterKeyBase64)
  faultIf (masterKey.length > 32) .overflow
  match fillValidity d { auth with
    phoneId := strcpyPhone auth.phoneId phone
    userType := d.type
    masterKey := memcpyKey auth.masterKey masterKey } with
  | none => Prog.fail .overflow
  | some auth => return auth

theorem getAuthorizationDb_run (hreply : W.authReply s.moment p = .body d)
    (hsuccess : d.success = true) : (getAuthorizationDb W p auth).run s =
      (do
        let auth ← fillAuthorization W d auth
        let err ← setAuthorization W auth
        return (err, auth) : M (Int × Authorization)).run s.ticked := by
  rw [getAuthorizationDb, run_tick_bind, hreply]
  dsimp only
  rw [if_neg (by simp [hsuccess]), fillAuthorization]
  simp only [run_bind_bind]
  refine run_bind_congr fun phone s₁ => ?_
  rw [run_bind_bind]
  refine run_bind_congr fun _ s₂ => ?_
  rw [run_bind_bind]
  refine run_bind_congr fun enc s₃ => ?_
  rw [run_bind_bind]
  refine run_bind_congr fun text s₄ => ?_
  rw [run_bind_bind]
  refine run_bind_congr fun masterKey s₅ => ?_
  rw [run_bind_bind]
  refine run_bind_congr fun _ s₆ => ?_
  generalize fillValidity d _ = filled
  cases filled <;> rfl

/-- The loop runs on the block that was answered. -/
theorem fillValidity_periodic (hperiodic : d.type = UserType.periodicUser) :
    fillValidity d { auth with
      phoneId := strcpyPhone auth.phoneId phone
      userType := d.type
      masterKey := memcpyKey auth.masterKey key } =
    (storeWeekdays (auth.answered phone key) d.weekdays).map fun a =>
      { a with validFromTs := d.validFrom, validUntilTs := d.validUntil } := by
  rw [fillValidity]
  simp only [hperiodic]
  rfl

/-- **What is filled in** comes of the loop, on an answer that fits. -/
theorem fillAuthorization_ok_iff (auth : Authorization)
    (hperiodic : d.type = UserType.periodicUser) :
    (∃ t, (fillAuthorization W d auth).run s = (.ok auth', t)) ↔
      ∃ phone key a, d.Gives W s phone key ∧ phone.length < 16 ∧ key.length ≤ 32 ∧
        storeWeekdays (auth.answered phone key) d.weekdays = some a ∧
        auth' = { a with validFromTs := d.validFrom, validUntilTs := d.validUntil } := by
  constructor
  · rintro ⟨t, h⟩
    obtain ⟨phone, s₁, hderef, h₁⟩ := bind_ok.1 h
    obtain ⟨hphone, hs₁⟩ := deref_ok.1 hderef
    obtain ⟨_, s₂, hguard, h₂⟩ := bind_ok.1 h₁
    obtain ⟨hlen, hs₂⟩ := faultIf_ok.1 hguard
    obtain ⟨enc, s₃, hderef, h₃⟩ := bind_ok.1 h₂
    obtain ⟨henc, hs₃⟩ := deref_ok.1 hderef
    obtain ⟨text, s₄, htext, h₄⟩ := bind_ok.1 h₃
    obtain ⟨key, s₅, hderef, h₅⟩ := bind_ok.1 h₄
    obtain ⟨hkey, _⟩ := deref_ok.1 hderef
    obtain ⟨_, s₆, hguard, h₆⟩ := bind_ok.1 h₅
    obtain ⟨hkeylen, _⟩ := faultIf_ok.1 hguard
    -- nothing before the decryption changes the state
    rw [hs₃, hs₂, hs₁] at htext
    rw [fillValidity_periodic hperiodic] at h₆
    cases hstore : storeWeekdays (auth.answered phone key) d.weekdays with
    | none =>
      rw [hstore] at h₆
      cases h₆
    | some a =>
      rw [hstore] at h₆
      cases h₆
      exact ⟨phone, key, a, ⟨hphone, enc, text, _, henc, htext, hkey⟩, by omega, by omega, hstore,
        rfl⟩
  · rintro ⟨phone, key, a, ⟨hphone, enc, text, t, henc, htext, hkey⟩, hlen, hkeylen, hstore, rfl⟩
    refine ⟨t, ?_⟩
    rw [fillAuthorization, run_bind_ok (deref_ok.2 ⟨hphone, rfl⟩),
      run_bind_ok (run_faultIf_of_not (by omega) _ _), run_bind_ok (deref_ok.2 ⟨henc, rfl⟩),
      run_bind_ok htext, run_bind_ok (deref_ok.2 ⟨hkey, rfl⟩),
      run_bind_ok (run_faultIf_of_not (by omega) _ _), fillValidity_periodic hperiodic, hstore]
    rfl

/-! ## What is stored -/

/-- A call of the flash driver that succeeds changes the store. -/
theorem nvsCall_ok {f : Sys → Sys} (h : (nvsCall W f).run s = (.ok espOk, s')) :
    s' = f s.ticked := by
  rw [nvsCall, run_tick_bind] at h
  cases herr : W.nvsError s.moment with
  | none =>
    rw [herr] at h
    exact (Prod.mk.inj h).2.symm
  | some e =>
    rw [herr] at h
    exact absurd (Except.ok.inj (Prod.mk.inj h).1) e.ne_ok

/-- A call whose error is returned, where there is none at the end. -/
theorem checked_ok {m : M Int} {k : Int → M Int}
    (h : (m >>= fun err => if err ≠ espOk then pure err else k err).run s = (.ok espOk, s')) :
    ∃ s₁, m.run s = (.ok espOk, s₁) ∧ (k espOk).run s₁ = (.ok espOk, s') := by
  obtain ⟨err, s₁, hm, h⟩ := bind_ok.1 h
  by_cases herr : err = espOk
  · subst herr
    rw [if_neg (not_not.2 rfl)] at h
    exact ⟨s₁, hm, h⟩
  · rw [if_pos herr] at h
    exact absurd (Except.ok.inj (Prod.mk.inj h).1) herr

/-- **An authorization that is stored** is stored under its own id. -/
theorem setAuthorization_ok (h : (setAuthorization W auth).run s = (.ok espOk, s')) :
    s'.authorizations auth.phone = some auth := by
  obtain ⟨s₁, _, h₁⟩ := checked_ok h
  obtain ⟨s₂, hset, h₂⟩ := checked_ok h₁
  obtain ⟨s₃, hcommit, hclose⟩ := checked_ok h₂
  cases hclose
  rw [nvsSetBlob] at hset
  split_ifs at hset
  · cases hset
  · rw [nvsCall_ok hcommit, nvsCall_ok hset]
    exact Function.update_self ..

variable (W) in
/-- `getAuthorizationDb` fills in and stores what the answer `d` says. -/
def FillsAndStores (d : AuthData) (p : CStr) (auth : Authorization) (s : Sys) : Prop :=
  ∃ phone key auth', d.Gives W s.ticked phone key ∧
    (∃ t, (fillAuthorization W d auth).run s.ticked = (.ok auth', t)) ∧
    FillsIn d phone key auth' ∧
    ∀ err found s', (getAuthorizationDb W p auth).run s = (.ok (err, found), s') →
      found = auth' ∧ (err = espOk → s'.authorizations phone = some auth')

theorem AuthData.Gives.unique {phone' : CStr} {key' : List UInt8} (h : d.Gives W s phone key)
    (h' : d.Gives W s phone' key') : phone = phone' ∧ key = key' := by
  obtain ⟨hphone, enc, text, t, henc, hrun, hkey⟩ := h
  obtain ⟨hphone', enc', text', t', henc', hrun', hkey'⟩ := h'
  obtain rfl : enc = enc' := Option.some.inj (henc.symm.trans henc')
  obtain rfl : text = text' :=
    Except.ok.inj (Prod.mk.inj (hrun.symm.trans hrun')).1
  exact ⟨Option.some.inj (hphone.symm.trans hphone'), Option.some.inj (hkey.symm.trans hkey')⟩

/-- **The weekdays of a periodic user are decoded as the answer has them**,
and nothing else is touched, exactly if the id and the key fit and every day
is harmless. -/
theorem fillsAndStores_iff (hreply : W.authReply s.moment p = .body d)
    (hsuccess : d.success = true) (hperiodic : d.type = UserType.periodicUser)
    (hnul : ∀ phone, d.phoneId = some phone → (0 : UInt8) ∉ phone) :
    FillsAndStores W d p auth s ↔
      ∃ phone key, d.Gives W s.ticked phone key ∧ phone.length < 16 ∧ key.length ≤ 32 ∧
        ∀ day ∈ d.weekdays, Harmless phone key day := by
  constructor
  · rintro ⟨phone, key, auth', hgives, hfill, hfills, -⟩
    obtain ⟨phone', key', a, hgives', hlen, hkey, hstore, rfl⟩ :=
      (fillAuthorization_ok_iff auth hperiodic).1 hfill
    obtain ⟨rfl, rfl⟩ := hgives.unique hgives'
    refine ⟨phone, key, hgives, hlen, hkey,
      (storeWeekdays_agrees_iff auth hlen hkey).1 ⟨a, hstore, ?_⟩⟩
    have htype := storeWeekdays_userType hstore answered_userType
    exact (agrees_replyBytes (hnul _ hgives.1) hlen htype).2
      ⟨hfills.phone_eq, hfills.userType_eq.trans hperiodic, hfills.masterKey_eq⟩
  · rintro ⟨phone, key, hgives, hlen, hkey, hdays⟩
    obtain ⟨a, hstore, hagrees⟩ :=
      (storeWeekdays_agrees_iff auth hlen hkey).2 hdays
    have htype := storeWeekdays_userType hstore answered_userType
    obtain ⟨hphone, huser, hmaster⟩ :=
      (agrees_replyBytes (hnul _ hgives.1) hlen htype).1 hagrees
    obtain ⟨t, hfill⟩ := (fillAuthorization_ok_iff auth hperiodic).2
      ⟨phone, key, a, hgives, hlen, hkey, hstore, rfl⟩
    refine ⟨phone, key, _, hgives, ⟨t, hfill⟩, ⟨hphone, huser.trans hperiodic.symm, hmaster, rfl,
      rfl, fun i => ?_⟩, fun err found s' hrun => ?_⟩
    · refine (storeWeekdays_weekdays hstore i.2).trans (or_iff_right ?_)
      simp [Authorization.answered]
    · rw [getAuthorizationDb_run hreply hsuccess, run_bind_ok hfill] at hrun
      obtain ⟨err', s₁, hset, hret⟩ := bind_ok.1 hrun
      cases hret
      refine ⟨rfl, ?_⟩
      rintro rfl
      rw [← hphone]
      exact setAuthorization_ok hset

/-! ## Two answers -/

/-- A successful answer for a periodic user with a key of zeros. -/
def periodicReply (phone : CStr) (weekdays : List Int) : AuthData where
  success := true
  phoneId := some phone
  type := UserType.periodicUser
  masterKeyEncryptedLock :=
    some (lit "QUFBQUFBQUFBQUFBQUFBQUFBQUFBQUFBQUFBQUFBQUFBQUFBQUFBQUFBQT0=")
  weekdays := weekdays
  validFrom := 100
  validUntil := 200
  oneDay := 0

/-- A server that gives it. -/
def World.periodic (weekdays : List Int) : World :=
  { World.still .esp32s3 100 with
    authReply := fun _ phone => .body (periodicReply phone weekdays) }

theorem periodicReply_gives {weekdays : List Int} :
    (periodicReply (lit "7") weekdays).Gives (World.periodic weekdays) Sys.initial.ticked (lit "7")
      (List.replicate 32 0) := by
  have hstill : decryptBase64RSA (World.periodic weekdays) =
      decryptBase64RSA (World.still .esp32s3 100) := rfl
  have hrun : ((decryptBase64RSA (World.still .esp32s3 100)
      (lit "QUFBQUFBQUFBQUFBQUFBQUFBQUFBQUFBQUFBQUFBQUFBQUFBQUFBQUFBQT0=")).run
        Sys.initial.ticked).1 = .ok (lit "AAAAAAAAAAAAAAAAAAAAAAAAAAAAAAAAAAAAAAAAAAA=") := by
    decide +kernel
  rw [← hstill] at hrun
  rcases hdecrypt : (decryptBase64RSA (World.periodic weekdays) _).run Sys.initial.ticked with ⟨r, t⟩
  rw [hdecrypt] at hrun
  subst hrun
  exact ⟨rfl, _, _, t, rfl, hdecrypt, by decide +kernel⟩

/-- The days of the week are stored as they are given. -/
theorem fillsAndStores_week :
    FillsAndStores (World.periodic [1, 5, 7]) (periodicReply (lit "7") [1, 5, 7]) (lit "7")
      ((World.still .esp32s3 100).freshAuthorization 0) Sys.initial := by
  refine (fillsAndStores_iff rfl rfl rfl ?_).2 ⟨lit "7", _, periodicReply_gives, by decide,
    by decide, ?_⟩
  · rintro _ ⟨⟩
    decide
  · intro day hday
    have hin : 1 ≤ day ∧ day ≤ 20 := by
      revert day
      decide
    exact .inl hin

/-- **A day that is zero is stored into the master key.** -/
theorem not_always_fillsAndStores : ¬ ∀ (W : World) (d : AuthData) (p : CStr)
    (auth : Authorization) (s : Sys), W.authReply s.moment p = .body d → d.success = true →
      d.type = UserType.periodicUser →
      (∃ phone key, d.Gives W s.ticked phone key ∧ (0 : UInt8) ∉ phone ∧ phone.length < 16 ∧
        key.length ≤ 32) → FillsAndStores W d p auth s := by
  intro h
  obtain ⟨phone, key, auth', hgives, ⟨t, hfill⟩, hfills, -⟩ :=
    h (World.periodic [0]) (periodicReply (lit "7") [0]) (lit "7")
      ((World.still .esp32s3 100).freshAuthorization 0) Sys.initial rfl rfl rfl
      ⟨_, _, periodicReply_gives, by decide, by decide, by decide⟩
  obtain ⟨rfl, rfl⟩ := hgives.unique periodicReply_gives
  have hkey : ((fillAuthorization (World.periodic [0]) (periodicReply (lit "7") [0])
      ((World.still .esp32s3 100).freshAuthorization 0)).run Sys.initial.ticked).1.map
        (fun auth => auth.masterKey.toList) = .ok (List.replicate 31 0 ++ [1]) := by
    decide +kernel
  rw [hfill] at hkey
  have hprefix := hfills.masterKey_eq
  rw [show auth'.masterKey.toList = _ from Except.ok.inj hkey] at hprefix
  revert hprefix
  decide

end SmartLock
