import Mathlib.Data.Nat.Digits.Lemmas
import Mathlib.Tactic.Common
import Mathlib.Tactic.IntervalCases

/-!
# C strings

The strings of a C program, as the bytes before the terminating NUL, and
the parts of the C library that read and write them: `strtok` with a
one-character separator, `strncmp`, `strtol` in base ten on a 32-bit
`long`, and the decimal and hexadecimal conversions of `sprintf`. What
`strtok` returns call after call is `words`, the maximal runs without the
separator.
-/

namespace SmartLock

/-- A C string: its bytes, without the terminating NUL. -/
abbrev CStr := List UInt8

/-- The bytes of a string literal. -/
def lit (s : String) : CStr := s.toList.map fun c => UInt8.ofNat c.toNat

/-- The C string a buffer starts with: its bytes up to the first NUL. -/
def cstr (buf : List UInt8) : CStr := buf.takeWhile (· != 0)

/-! ## Integers of the target -/

/-- `LONG_MIN`, which is `INT_MIN`: `int` and `long` are both 32 bits. -/
def longMin : Int := -2 ^ 31

/-- `LONG_MAX`, which is `INT_MAX`. -/
def longMax : Int := 2 ^ 31 - 1

/-- What a 32-bit register holds of an integer. -/
def wrap32 (z : Int) : Int := (z + 2 ^ 31) % 2 ^ 32 - 2 ^ 31

theorem wrap32_of_bounds {z : Int} (h₁ : longMin ≤ z) (h₂ : z ≤ longMax) : wrap32 z = z := by
  simp only [longMin, longMax, wrap32] at *
  omega

/-- `strtol` returns the nearest `long` where the text names a larger
number. -/
def saturate (z : Int) : Int := max longMin (min z longMax)

theorem saturate_bounds (z : Int) : longMin ≤ saturate z ∧ saturate z ≤ longMax := by
  simp only [saturate, longMin, longMax]
  omega

/-- `isspace` in the C locale. -/
def isSpace (c : UInt8) : Bool := c == 32 || (9 ≤ c && c ≤ 13)

/-- `isdigit`. -/
def isDigit (c : UInt8) : Bool := 48 ≤ c && c ≤ 57

/-- The number a run of digits names. -/
def decimal (ds : CStr) : ℕ := ds.foldl (fun v c => 10 * v + (c.toNat - 48)) 0

/-- `strtol(s, NULL, 10)`. -/
def strtol (s : CStr) : Int :=
  match s.dropWhile isSpace with
  | 45 :: t => saturate (-(decimal (t.takeWhile isDigit) : Int))
  | 43 :: t => saturate (decimal (t.takeWhile isDigit))
  | t => saturate (decimal (t.takeWhile isDigit))

theorem strtol_bounds (s : CStr) : longMin ≤ strtol s ∧ strtol s ≤ longMax := by
  rw [strtol]
  split <;> exact saturate_bounds _

/-! ## Conversions of `sprintf` -/

/-- `%u`. -/
def dec (n : ℕ) : CStr :=
  if n = 0 then [48] else (Nat.digits 10 n).reverse.map fun d => UInt8.ofNat (48 + d)

/-- `%d`. -/
def decInt (z : Int) : CStr := if z < 0 then 45 :: dec z.natAbs else dec z.toNat

/-- A digit of `%x`. -/
def hexDigit (n : ℕ) : UInt8 := UInt8.ofNat (if n < 10 then 48 + n else 87 + n)

/-- `%02x` of a byte. -/
def hexByte (b : UInt8) : CStr := [hexDigit (b.toNat / 16), hexDigit (b.toNat % 16)]

/-- What `%u` prints is made of digits. -/
theorem isDigit_of_mem_dec {n : ℕ} {c : UInt8} (h : c ∈ dec n) : isDigit c = true := by
  rw [dec] at h
  split at h
  · rw [List.mem_singleton] at h
    rw [h]
    decide
  · simp only [List.mem_map, List.mem_reverse] at h
    obtain ⟨d, hd, rfl⟩ := h
    have hlt : d < 10 := Nat.digits_lt_base (by omega) hd
    interval_cases d <;> decide

theorem dec_ne_nil (n : ℕ) : dec n ≠ [] := by
  rw [dec]
  split
  · exact List.cons_ne_nil _ _
  · rename_i h
    simpa [Nat.digits_ne_nil_iff_ne_zero] using h

/-- How many digits a number has. -/
theorem length_dec_le {n k : ℕ} (hk : 0 < k) : (dec n).length ≤ k ↔ n < 10 ^ k := by
  rw [dec]
  split
  · rename_i hn
    rw [hn, List.length_singleton]
    exact iff_of_true hk (Nat.pow_pos (by decide))
  · rw [List.length_map, List.length_reverse, Nat.digits_length_le_iff (by decide)]

/-- A state of one digit is printed as one. -/
theorem length_decInt_le_one {z : Int} : (decInt z).length ≤ 1 ↔ 0 ≤ z ∧ z ≤ 9 := by
  rw [decInt]
  split
  · have hpos := List.length_pos_iff.2 (dec_ne_nil z.natAbs)
    rw [List.length_cons]
    omega
  · rw [length_dec_le Nat.one_pos]
    omega

/-- An `int` is printed in no more than eleven characters. -/
theorem length_decInt_le {z : Int} (h : z.natAbs < 10 ^ 10) : (decInt z).length ≤ 11 := by
  rw [decInt]
  split
  · rw [List.length_cons]
    exact Nat.succ_le_succ ((length_dec_le (by decide)).2 h)
  · have hle : (dec z.toNat).length ≤ 10 := (length_dec_le (by decide)).2 (by omega)
    omega

/-! ## Reading what was printed -/

/-- **The digits `%u` prints name the number printed.** -/
theorem decimal_dec (n : ℕ) : decimal (dec n) = n := by
  have hfold (l : List ℕ) (h : ∀ d ∈ l, d < 10) :
      l.foldr (fun d v => 10 * v + ((UInt8.ofNat (48 + d)).toNat - 48)) 0 = Nat.ofDigits 10 l := by
    induction l with
    | nil => rfl
    | cons d l ih =>
      have hd : d < 10 := h d (List.mem_cons_self ..)
      have hbyte : (UInt8.ofNat (48 + d)).toNat = 48 + d := by
        rw [UInt8.toNat_ofNat']
        omega
      rw [List.foldr_cons, ih fun d hd => h d (List.mem_cons_of_mem _ hd), hbyte, Nat.ofDigits_cons]
      omega
  rw [decimal, dec]
  by_cases hn : n = 0
  · rw [if_pos hn, hn]
    rfl
  · rw [if_neg hn, List.foldl_map, List.foldl_reverse,
      hfold _ fun d hd => Nat.digits_lt_base (by omega) hd, Nat.ofDigits_digits]

theorem isSpace_of_isDigit {c : UInt8} (h : isDigit c = true) : isSpace c = false := by
  simp only [isDigit, Bool.and_eq_true, decide_eq_true_eq, UInt8.le_iff_toNat_le] at h
  simp only [isSpace, Bool.or_eq_false_iff, Bool.and_eq_false_iff, beq_eq_false_iff_ne, ne_eq,
    ← UInt8.toNat_inj, decide_eq_false_iff_not, UInt8.le_iff_toNat_le]
  have h₉ : (13 : UInt8).toNat = 13 := rfl
  have h₃₂ : (32 : UInt8).toNat = 32 := rfl
  have h₄₈ : (48 : UInt8).toNat = 48 := rfl
  omega

theorem takeWhile_eq_self {p : UInt8 → Bool} {s : CStr} (h : ∀ c ∈ s, p c = true) :
    s.takeWhile p = s := by
  have hall : (s ++ []).takeWhile p = s ++ [].takeWhile p := List.takeWhile_append_of_pos h
  rwa [List.append_nil, List.takeWhile_nil, List.append_nil] at hall

/-- A run of digits is read as the number it names. -/
theorem strtol_of_digits {s : CStr} (hne : s ≠ []) (h : ∀ c ∈ s, isDigit c = true) :
    strtol s = saturate (decimal s) := by
  cases s with
  | nil => exact absurd rfl hne
  | cons c t =>
    have hc : isDigit c = true := h c (List.mem_cons_self ..)
    have hspace : isSpace c = false := isSpace_of_isDigit hc
    have hall : (c :: t).takeWhile isDigit = c :: t := takeWhile_eq_self h
    rw [strtol, List.dropWhile_cons_of_neg (by rw [hspace]; decide)]
    split
    · rename_i heq
      rw [(List.cons.inj heq).1] at hc
      exact absurd hc (by decide)
    · rename_i heq
      rw [(List.cons.inj heq).1] at hc
      exact absurd hc (by decide)
    · rw [hall]

theorem strtol_minus {s : CStr} (h : ∀ c ∈ s, isDigit c = true) :
    strtol (45 :: s) = saturate (-(decimal s : Int)) := by
  have hall : s.takeWhile isDigit = s := takeWhile_eq_self h
  rw [strtol, List.dropWhile_cons_of_neg (by decide)]
  simp only [hall]

/-- **What `%u` prints, `strtol` reads**, or the nearest `long`. -/
theorem strtol_dec (n : ℕ) : strtol (dec n) = saturate n := by
  rw [strtol_of_digits (dec_ne_nil n) fun c => isDigit_of_mem_dec, decimal_dec]

/-- **What `%d` prints, `strtol` reads.** -/
theorem strtol_decInt (z : Int) : strtol (decInt z) = saturate z := by
  rw [decInt]
  split
  · rw [strtol_minus fun c => isDigit_of_mem_dec, decimal_dec]
    congr 1
    omega
  · rw [strtol_dec]
    congr 1
    omega

theorem saturate_of_bounds {z : Int} (h₁ : longMin ≤ z) (h₂ : z ≤ longMax) : saturate z = z := by
  simp only [saturate, longMin, longMax] at *
  omega

theorem decInt_ne_nil (z : Int) : decInt z ≠ [] := by
  rw [decInt]
  split
  · exact List.cons_ne_nil _ _
  · exact dec_ne_nil _

/-- A number is printed without a space. -/
theorem space_notMem_dec (n : ℕ) : (32 : UInt8) ∉ dec n := fun h =>
  absurd (isDigit_of_mem_dec h) (by decide)

theorem space_notMem_decInt (z : Int) : (32 : UInt8) ∉ decInt z := by
  rw [decInt]
  split
  · exact fun h => (List.mem_cons.1 h).elim (by decide) (space_notMem_dec _)
  · exact space_notMem_dec _

/-! ## Comparison -/

/-- `strncmp(a, b, n) == 0`: the first `n` bytes agree, the terminating
NUL of either string included. -/
def strncmpEq (a b : CStr) (n : ℕ) : Bool := (a ++ [0]).take n == (b ++ [0]).take n

/-- As many bytes as `a` has: `b` starts with `a`. -/
theorem strncmpEq_length {a b : CStr} (ha : (0 : UInt8) ∉ a) :
    strncmpEq a b a.length = true ↔ a <+: b := by
  rw [strncmpEq, beq_iff_eq, List.take_left, ← List.prefix_iff_eq_take]
  refine ⟨fun h => ?_, fun h => h.trans (List.prefix_append _ _)⟩
  rcases List.prefix_concat_iff.1 h with rfl | h
  · exact absurd (List.mem_append_right b (List.mem_singleton_self 0)) ha
  · exact h

/-- More bytes than `a` has: `b` is `a`. -/
theorem strncmpEq_of_lt {a b : CStr} {n : ℕ} (hn : a.length < n) (hb : (0 : UInt8) ∉ b) :
    strncmpEq a b n = true ↔ b = a := by
  have hlength (p : CStr) (hp : p.length < n) : (p ++ [0]).take n = p ++ [0] :=
    List.take_of_length_le (by rw [List.length_append]; exact hp)
  rw [strncmpEq, beq_iff_eq, hlength a hn]
  constructor
  · intro h
    have hprefix : a ++ [0] <+: b ++ [0] := h ▸ List.take_prefix _ _
    rcases List.prefix_concat_iff.1 hprefix with heq | hin
    · exact (List.append_cancel_right heq).symm
    · exact absurd (hin.subset (List.mem_append_right a (List.mem_singleton_self 0))) hb
  · rintro rfl
    exact (hlength b hn).symm

/-! ## Splitting at a separator -/

/-- A token of `strtok`: the bytes skipped before it, the token, and what
the next call goes on with. -/
structure Tok where
  /-- How far into the string the token starts. -/
  off : ℕ
  word : CStr
  rest : CStr
  deriving DecidableEq, Repr

/-- One call of `strtok`: leading separators are skipped, and the token
ends at the next one, which is consumed. -/
def strtok (sep : UInt8) (s : CStr) : Option Tok :=
  match s.dropWhile (· == sep) with
  | [] => none
  | c :: t =>
    some ⟨s.length - (c :: t).length, (c :: t).takeWhile (· != sep),
      ((c :: t).dropWhile (· != sep)).drop 1⟩

/-- The words of a string: its maximal non-empty runs without the
separator. -/
def words (sep : UInt8) (s : CStr) : List CStr := (s.splitOn sep).filter (!·.isEmpty)

variable {sep : UInt8}

@[simp] theorem words_nil : words sep [] = [] := rfl

/-- A leading separator starts no word. -/
@[simp] theorem words_sep_cons (s : CStr) : words sep (sep :: s) = words sep s := by
  rw [words, words, List.splitOn_cons_eq_if_modifyHead]
  simp

theorem words_dropWhile (s : CStr) : words sep (s.dropWhile (· == sep)) = words sep s := by
  induction s with
  | nil => rfl
  | cons c s ih =>
    by_cases h : c = sep
    · subst h
      rw [List.dropWhile_cons_of_pos (by simp), words_sep_cons, ih]
    · rw [List.dropWhile_cons_of_neg (by simpa using h)]

/-- A run without the separator is one word. -/
theorem words_of_notMem {w : CStr} (hne : w ≠ []) (h : sep ∉ w) : words sep w = [w] := by
  rw [words, List.splitOn_eq_singleton h]
  simp [hne]

/-- A separator ends the words before it. -/
theorem words_append (s t : CStr) : words sep (s ++ sep :: t) = words sep s ++ words sep t := by
  rw [words, List.splitOn_append_cons_self, List.filter_append, words, words]

/-- A run up to a separator is the first word. -/
theorem words_append_sep {w s : CStr} (hne : w ≠ []) (h : sep ∉ w) :
    words sep (w ++ sep :: s) = w :: words sep s := by
  rw [words_append, words_of_notMem hne h]
  rfl

/-- **What `strtok` returns is the first word, and what it leaves has the
others.** -/
theorem words_eq_strtok (s : CStr) :
    words sep s = match strtok sep s with
      | none => []
      | some t => t.word :: words sep t.rest := by
  rw [← words_dropWhile s, strtok]
  rcases hd : s.dropWhile (· == sep) with - | ⟨c, t⟩
  · rfl
  · have hc : c ≠ sep := by
      have := List.head_dropWhile_not (· == sep) (l := s) (by simp [hd])
      simpa [hd] using this
    have hsplit := List.takeWhile_append_dropWhile (p := (· != sep)) (l := c :: t)
    have hne : (c :: t).takeWhile (· != sep) ≠ [] := by
      rw [List.takeWhile_cons_of_pos (by simpa using hc)]
      exact List.cons_ne_nil _ _
    have hnot : sep ∉ (c :: t).takeWhile (· != sep) := fun hm => by
      simpa using List.all_eq_true.1 List.all_takeWhile sep hm
    simp only
    generalize (c :: t).takeWhile (· != sep) = w at hsplit hne hnot ⊢
    rcases hr : (c :: t).dropWhile (· != sep) with - | ⟨d, r⟩
    · rw [hr, List.append_nil] at hsplit
      rw [← hsplit, words_of_notMem hne hnot]
      rfl
    · have hd' : d = sep := by
        have := List.head_dropWhile_not (· != sep) (l := c :: t) (by simp [hr])
        simpa [hr] using this
      rw [hr, hd'] at hsplit
      rw [← hsplit, words_append_sep hne hnot]
      rfl

/-- A string with words has a token: its first word, before the others. -/
theorem strtok_of_words {s w : CStr} {ws : List CStr} (h : words sep s = w :: ws) :
    ∃ t, strtok sep s = some t ∧ t.word = w ∧ words sep t.rest = ws := by
  rw [words_eq_strtok] at h
  rcases ht : strtok sep s with - | t
  · rw [ht] at h
    cases h
  · rw [ht] at h
    obtain ⟨hword, hrest⟩ := List.cons.inj h
    exact ⟨t, rfl, hword, hrest⟩

theorem strtok_eq_none_iff {s : CStr} : strtok sep s = none ↔ words sep s = [] := by
  rw [words_eq_strtok]
  rcases strtok sep s with - | t <;> simp

/-- How `strtok` cuts a string: the bytes it skips, the token, and the rest
behind the separator, if there is one. -/
theorem strtok_split {s : CStr} {t : Tok} (h : strtok sep s = some t) :
    ∃ pre tail, s = pre ++ (t.word ++ tail) ∧ pre.length = t.off ∧
      (tail = [] ∧ t.rest = [] ∨ tail = sep :: t.rest) := by
  rw [strtok] at h
  have hskip := List.takeWhile_append_dropWhile (p := (· == sep)) (l := s)
  rcases hd : s.dropWhile (· == sep) with - | ⟨c, r⟩
  · rw [hd] at h
    cases h
  · rw [hd] at h hskip
    obtain rfl := Option.some.inj h
    have hcut := List.takeWhile_append_dropWhile (p := (· != sep)) (l := c :: r)
    refine ⟨s.takeWhile (· == sep), (c :: r).dropWhile (· != sep), ?_, ?_, ?_⟩
    · rw [hcut, hskip]
    · have hlen := congrArg List.length hskip
      rw [List.length_append] at hlen
      simp only
      omega
    · rcases hr : (c :: r).dropWhile (· != sep) with - | ⟨d, rest⟩
      · exact .inl ⟨rfl, rfl⟩
      · have hd' : d = sep := by
          have := List.head_dropWhile_not (· != sep) (l := c :: r) (by simp [hr])
          simpa [hr] using this
        exact .inr (by rw [hd']; rfl)

/-- Words joined by single separators are the words of what they make. -/
theorem words_intercalate {l : List CStr} (h : ∀ w ∈ l, w ≠ [] ∧ sep ∉ w) :
    words sep (List.intercalate [sep] l) = l := by
  induction l with
  | nil => rfl
  | cons w l ih =>
    obtain ⟨hne, hnot⟩ := h w (List.mem_cons_self ..)
    cases l with
    | nil =>
      rw [List.intercalate_singleton]
      exact words_of_notMem hne hnot
    | cons u l =>
      rw [List.intercalate_cons_cons, List.append_assoc, List.singleton_append,
        words_append_sep hne hnot, ih fun v hv => h v (List.mem_cons_of_mem _ hv)]

/-! ## Strings in a buffer -/

/-- A string in front of other bytes goes on with what they start with. -/
theorem cstr_append {w : CStr} (h : (0 : UInt8) ∉ w) (r : List UInt8) :
    cstr (w ++ r) = w ++ cstr r :=
  List.takeWhile_append_of_pos fun c hc => by
    have hne : c ≠ 0 := fun heq => h (heq ▸ hc)
    simpa using hne

theorem cstr_eq_self {p : CStr} (h : (0 : UInt8) ∉ p) : cstr p = p :=
  takeWhile_eq_self fun _ hc => bne_iff_ne.2 fun heq => h (heq ▸ hc)

theorem zero_notMem_cstr (buf : List UInt8) : (0 : UInt8) ∉ cstr buf := fun h => by
  simpa using List.all_eq_true.1 List.all_takeWhile 0 h

/-- A buffer is its string, and bytes that start with none. -/
theorem exists_cstr_append (buf : List UInt8) : ∃ r, buf = cstr buf ++ r ∧ cstr r = [] := by
  refine ⟨buf.dropWhile (· != 0), List.takeWhile_append_dropWhile.symm, ?_⟩
  rcases hr : buf.dropWhile (· != 0) with - | ⟨d, r⟩
  · rfl
  · have hd : d = 0 := by
      have := List.head_dropWhile_not (· != 0) (l := buf) (by simp [hr])
      simpa [hr] using this
    rw [hd]
    rfl

end SmartLock
