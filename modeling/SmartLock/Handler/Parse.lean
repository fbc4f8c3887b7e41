import SmartLock.Handler.Register
import Mathlib.Tactic.IntervalCases

/-!
# The two readings of an `RNI`

An `RNI` is read twice: the character behind `RNI ` says how many arguments
are fetched, and the number at the start of the first argument says which
of them are fields of the invite. `Consistent` is that the two readings
agree, and that every place an argument is taken from is one there is.
-/

namespace SmartLock

open Prog

variable {W : World} {a cmd arg : CStr} {c : Tok} {s s' : Sys} {n : ℕ} {args : List CStr}
variable {userType : UserType} {i k : Int}

/-! ## The places that are read -/

/-- The places of the fields of an invite, by the type of user. -/
def validityIndices (userType : UserType) : List Int :=
  match userType with
  | UserType.tenant => [1, 2]
  | UserType.periodicUser => [1, 2, 3]
  | UserType.oneTimeUser => [1]
  | _ => []

/-- The places of the two timestamps and the nonce. -/
def stampIndices (firstArgsN : Int) : List Int :=
  [firstArgsN + 0, firstArgsN + 1, firstArgsN + 2]

/-- The number of arguments an invite of a type needs. -/
def argsNeeded (userType : UserType) : ℕ :=
  match userType with
  | UserType.admin => 4
  | UserType.owner => 4
  | UserType.tenant => 6
  | UserType.periodicUser => 7
  | UserType.oneTimeUser => 5
  | _ => 0

theorem argument_ne_none_iff : argument args i ≠ none ↔ 0 ≤ i ∧ i < args.length := by
  unfold argument
  by_cases hi : i < 0
  · rw [if_pos hi]
    exact ⟨fun h => absurd rfl h, fun h => by omega⟩
  · rw [if_neg hi, ne_eq, List.getElem?_eq_none_iff]
    omega

theorem argAt_returns_iff : Returns (argAt args i) s ↔ argument args i ≠ none := by
  rw [Option.ne_none_iff_exists']
  constructor
  · rintro ⟨arg, s', h⟩
    exact ⟨arg, (argAt_ok.1 h).1⟩
  · rintro ⟨arg, h⟩
    exact ⟨arg, s, argAt_ok.2 ⟨h, rfl⟩⟩

/-- A type without limits has no fields. -/
theorem validityIndices_other (htenant : userType = UserType.tenant → False)
    (hperiodic : userType = UserType.periodicUser → False)
    (hone : userType = UserType.oneTimeUser → False) : validityIndices userType = [] := by
  unfold validityIndices
  split
  · exact absurd rfl htenant
  · exact absurd rfl hperiodic
  · exact absurd rfl hone
  · rfl

/-- **The fields are read at their places**: the request is made exactly if
each of them is a place of an argument. -/
theorem rniRequest_returns_iff : Returns (rniRequest args userType) s ↔
    ∀ i ∈ validityIndices userType, argument args i ≠ none := by
  have hread {i : Int} {arg : CStr} {s s' : Sys} (h : (argAt args i).run s = (.ok arg, s')) :
      argument args i ≠ none := argAt_returns_iff.1 ⟨arg, s', h⟩
  have hgo {i : Int} {s : Sys} (h : argument args i ≠ none) : Returns (argAt args i) s :=
    argAt_returns_iff.2 h
  unfold rniRequest
  split
  · have hplaces : validityIndices UserType.tenant = [1, 2] := rfl
    simp only [hplaces, List.mem_cons, List.not_mem_nil, or_false, forall_eq_or_imp, forall_eq]
    constructor
    · rintro ⟨r, s', h⟩
      obtain ⟨_, _, hx, hrest⟩ := bind_ok.1 h
      obtain ⟨_, _, hy, _⟩ := bind_ok.1 hrest
      exact ⟨hread hx, hread hy⟩
    · rintro ⟨hx, hy⟩
      exact .bind (hgo hx) fun _ _ _ => .bind (hgo hy) fun _ _ _ => .pure _
  · have hplaces : validityIndices UserType.periodicUser = [1, 2, 3] := rfl
    simp only [hplaces, List.mem_cons, List.not_mem_nil, or_false, forall_eq_or_imp, forall_eq]
    constructor
    · rintro ⟨r, s', h⟩
      obtain ⟨_, _, hx, hrest⟩ := bind_ok.1 h
      obtain ⟨_, _, hy, hrest⟩ := bind_ok.1 hrest
      obtain ⟨_, _, hz, _⟩ := bind_ok.1 hrest
      exact ⟨hread hx, hread hy, hread hz⟩
    · rintro ⟨hx, hy, hz⟩
      exact .bind (hgo hx) fun _ _ _ => .bind (hgo hy) fun _ _ _ => .bind (hgo hz)
        fun _ _ _ => .pure _
  · have hplaces : validityIndices UserType.oneTimeUser = [1] := rfl
    simp only [hplaces, List.mem_cons, List.not_mem_nil, or_false, forall_eq]
    constructor
    · rintro ⟨r, s', h⟩
      obtain ⟨_, _, hx, _⟩ := bind_ok.1 h
      exact hread hx
    · exact fun hx => .bind (hgo hx) fun _ _ _ => .pure _
  · rename_i htenant hperiodic hone
    rw [validityIndices_other htenant hperiodic hone]
    exact ⟨fun _ i hi => absurd hi List.not_mem_nil, fun _ => .pure _⟩

/-- **The stamps are read at theirs.** -/
theorem verify_returns_iff : Returns (verifyTimestampsAndNonce W args k) s ↔
    ∀ i ∈ stampIndices k, argument args i ≠ none := by
  simp only [stampIndices, List.mem_cons, List.not_mem_nil, or_false, forall_eq_or_imp, forall_eq]
  constructor
  · rintro ⟨r, s', h⟩
    obtain ⟨x, s₁, hx, hrest⟩ := bind_ok.1 h
    obtain ⟨y, s₂, hy, hrest⟩ := bind_ok.1 hrest
    obtain ⟨z, s₃, hz, _⟩ := bind_ok.1 hrest
    exact ⟨argAt_returns_iff.1 ⟨x, s₁, hx⟩, argAt_returns_iff.1 ⟨y, s₂, hy⟩,
      argAt_returns_iff.1 ⟨z, s₃, hz⟩⟩
  · rintro ⟨hx, -, hz⟩
    exact verify_returns (by have := argument_ne_none_iff.1 hx; omega)
      (argument_ne_none_iff.1 hz).2

/-! ## The two readings -/

/-- What is fetched and what the first argument asks for agree: the type is
one of the five, and needs as many arguments; all that is read is there,
and nothing is both a field of the invite and a stamp. -/
structure Consistent (n : ℕ) (arg : CStr) : Prop where
  type : 0 ≤ strtol arg ∧ strtol arg ≤ 4
  arity : n = argsNeeded (rniType arg)
  inside : ∀ i ∈ 0 :: validityIndices (rniType arg) ++ stampIndices (n - 3), 0 ≤ i ∧ i < n
  apart : ∀ i ∈ validityIndices (rniType arg), i ∉ stampIndices (n - 3)

/-- The places follow from the number of arguments. -/
theorem consistent_iff :
    Consistent n arg ↔ (0 ≤ strtol arg ∧ strtol arg ≤ 4) ∧ n = argsNeeded (rniType arg) := by
  refine ⟨fun h => ⟨h.type, h.arity⟩, ?_⟩
  rintro ⟨⟨hlow, hhigh⟩, harity⟩
  suffices (∀ i ∈ 0 :: validityIndices (rniType arg) ++ stampIndices (n - 3), 0 ≤ i ∧ i < n) ∧
      ∀ i ∈ validityIndices (rniType arg), i ∉ stampIndices (n - 3) from
    ⟨⟨hlow, hhigh⟩, harity, this.1, this.2⟩
  rw [harity, rniType]
  generalize strtol arg = z at hlow hhigh
  interval_cases z <;> decide

/-- **What is read consistently is there to be read.** -/
theorem Consistent.returns (h : Consistent n arg) (hlen : args.length = n) :
    Returns (rniRequest args (rniType arg)) s ∧
      Returns (verifyTimestampsAndNonce W args (n - 3)) s := by
  have hthere (i : Int) (hi : i ∈ 0 :: validityIndices (rniType arg) ++ stampIndices (n - 3)) :
      argument args i ≠ none := by
    rw [argument_ne_none_iff, hlen]
    exact h.inside i hi
  exact ⟨rniRequest_returns_iff.2 fun i hi =>
      hthere i (List.mem_append_left _ (List.mem_cons_of_mem _ hi)),
    verify_returns_iff.2 fun i hi => hthere i (List.mem_append_right _ hi)⟩

/-! ## Every `RNI` -/

/-- An `RNI` is refused before an argument is read, or read in one way. -/
def ParsesOne (W : World) (cmd a : CStr) (s : Sys) : Prop :=
  ((getArgs W cmd (rniArgs cmd)).run s = (.ok none, s) ∧
    (checkCommand W cmd a).run s = (.ok (some nakMessage), s)) ∨
  ∃ args arg, (getArgs W cmd (rniArgs cmd)).run s = (.ok (some args), s) ∧
    argument args 0 = some arg ∧ Consistent (rniArgs cmd) arg

/-- There is nothing to fetch, or there are the arguments of the type the
first of them names. -/
def Alike (W : World) (cmd : CStr) : Prop :=
  NoArgs W cmd (rniArgs cmd) ∨
    (rniArgs cmd ≤ (arguments cmd).length ∧ ∃ arg, argument (arguments cmd) 0 = some arg ∧
      (0 ≤ strtol arg ∧ strtol arg ≤ 4) ∧ rniArgs cmd = argsNeeded (rniType arg))

theorem getArgs_of_noArgs (h : NoArgs W cmd n) : (getArgs W cmd n).run s = (.ok none, s) := by
  rcases h with ⟨hn, hnil⟩ | ⟨rfl, hzero⟩
  · rw [getArgs, hnil, List.take_nil, if_pos (by rw [List.length_nil]; omega)]
    rfl
  · rw [getArgs, if_neg (Nat.not_lt_zero _), if_pos ⟨rfl, hzero⟩]
    rfl

theorem getArgs_of_le (hn : n ≠ 0) (hle : n ≤ (arguments cmd).length) :
    (getArgs W cmd n).run s = (.ok (some ((arguments cmd).take n)), s) := by
  rw [getArgs, if_neg (by rw [List.length_take]; omega), if_neg (fun h => hn h.1)]
  rfl

theorem argument_take (hn : n ≠ 0) :
    argument ((arguments cmd).take n) 0 = argument (arguments cmd) 0 := by
  unfold argument
  rw [if_neg (by omega), if_neg (by omega), List.getElem?_take_of_lt (by omega)]

/-- The refusal of an `RNI` without arguments. -/
theorem checkCommand_of_noArgs (hc : getCommand cmd = some c) (hw : c.word = lit "RNI")
    (hoff : c.off = 0) (h : NoArgs W cmd (rniArgs cmd)) :
    (checkCommand W cmd a).run s = (.ok (some nakMessage), s) := by
  obtain ⟨c', hc', -, hdispatch⟩ := exists_dispatch (W := W) (a := a) (word_of_getCommand hc hw)
  obtain rfl := Option.some.inj (hc.symm.trans hc')
  have hrun : (commandRNI W c cmd a).run s = (.ok (some nakMessage), s) := by
    rw [commandRNI, run_bind_ok (getArgs_of_noArgs h)]
    exact run_bind_ok ((freeCommand_ok (u := ())).2 ⟨hoff, rfl⟩)
  rw [hdispatch]
  exact hrun

theorem ParsesOne.alike (h : ParsesOne W cmd a s) : Alike W cmd := by
  rcases h with ⟨hnone, -⟩ | ⟨args, arg, hargs, harg, hconsistent⟩
  · obtain ⟨-, ⟨-, hno⟩ | ⟨l, hl, -⟩⟩ := getArgs_ok hnone
    · exact Or.inl hno
    · cases hl
  · have hgiven := given_of_getArgs hargs
    exact Or.inr ⟨hgiven.le, arg, hgiven.argument harg, consistent_iff.1 hconsistent⟩

/-- **An `RNI` is one command exactly where its two readings are alike.** -/
theorem parsesOne_iff (hc : getCommand cmd = some c) (hw : c.word = lit "RNI")
    (hoff : c.off = 0) : ParsesOne W cmd a s ↔ Alike W cmd := by
  refine ⟨ParsesOne.alike, ?_⟩
  rintro (hno | ⟨hle, arg, harg, htype, harity⟩)
  · exact Or.inl ⟨getArgs_of_noArgs hno, checkCommand_of_noArgs hc hw hoff hno⟩
  · have hn : rniArgs cmd ≠ 0 := by
      rw [harity, rniType]
      obtain ⟨hlow, hhigh⟩ := htype
      generalize strtol arg = z at hlow hhigh
      interval_cases z <;> decide
    exact Or.inr ⟨_, arg, getArgs_of_le hn hle, by rw [argument_take hn, harg],
      consistent_iff.2 ⟨htype, harity⟩⟩

/-- The command of an owner is read in one way. -/
theorem parsesOne_owner :
    ParsesOne (World.still .esp32s3 100) (lit "RNI 1 90 200 1") (lit "192.168.1.5")
      adminAuthorized :=
  (parsesOne_iff (c := ⟨0, lit "RNI", lit "1 90 200 1"⟩) (by decide) rfl rfl).2
    (Or.inr ⟨by decide, lit "1", by decide, by decide, by decide⟩)

/-- **`RNI 02` fetches the arguments of one type and reads those of
another.** -/
theorem not_always_parsesOne :
    ¬ ∀ (W : World) (cmd a : CStr) (c : Tok) (s : Sys), getCommand cmd = some c →
      c.word = lit "RNI" → c.off = 0 → ParsesOne W cmd a s := by
  intro hall
  have hparses := hall (World.still .esp32s3 100) (lit "RNI 02 150 500 90 200 1")
    (lit "192.168.1.5") ⟨0, lit "RNI", lit "02 150 500 90 200 1"⟩ adminAuthorized (by decide)
    rfl rfl
  have hfour : rniArgs (lit "RNI 02 150 500 90 200 1") = 4 := by decide
  have hfirst : argument (arguments (lit "RNI 02 150 500 90 200 1")) 0 = some (lit "02") := by
    decide
  rcases hparses.alike with (⟨_, hnil⟩ | ⟨hzero, _⟩) | ⟨-, arg, harg, -, harity⟩
  · exact absurd hnil (by decide)
  · rw [hfour] at hzero
    cases hzero
  · rw [hfour, ← Option.some.inj (hfirst.symm.trans harg)] at harity
    exact absurd harity (by decide)

end SmartLock
