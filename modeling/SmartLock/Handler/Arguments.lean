import SmartLock.Model.Arguments

/-!
# Splitting a message

`strtok`, called again and again on a copy, gives the words of the string:
`todo` is what it has yet to give, and each call takes the first of it. So
`getArgs` copies the words behind the first, as many as it is asked for.
Where there are fewer, the clean-up frees the copies from the last but one
to the first, and then reads the element before the array.
-/

namespace SmartLock

open Prog

namespace Blocks

variable {b b' : Blocks} {str : List UInt8} {n i j k p : ℕ}

/-! ## What `strtok` has yet to give -/

/-- The string `strtok` goes on with. -/
def left (b : Blocks) : CStr :=
  match b.lasts with
  | none => []
  | some p => b.textAt p

/-- The words from the one `pt` points to. -/
def todo (b : Blocks) : List CStr :=
  match b.pt with
  | none => []
  | some p => b.textAt p :: words sep b.left

/-- What `strtok` leaves alone. -/
def aside (b : Blocks) : List UInt8 × List CStr × List (Option ℕ) × List Int × List Freed :=
  (b.str, b.copies, b.args, b.reads, b.freed)

/-- **A call of `strtok` gives the first word** of what it goes on with, and
goes on with the others. -/
theorem strtokNext_run (b : Blocks) : ∃ r b', strtokNext.run b = (.ok r, b') ∧
    b'.aside = b.aside ∧ words sep b.left = match r with
      | none => []
      | some p => b'.textAt p :: words sep b'.left := by
  rw [strtokNext, run_get_bind]
  rcases hlasts : b.lasts with - | p <;> simp only
  · refine ⟨none, b, rfl, rfl, ?_⟩
    rw [left, hlasts]
    rfl
  · have hleft : b.left = b.textAt p := by rw [left, hlasts]
    rw [hleft, words_eq_strtok]
    rcases ht : strtok sep (b.textAt p) with - | t <;> simp only
    · exact ⟨none, { b with lasts := none }, rfl, rfl, rfl⟩
    · obtain ⟨pre, tail, hsplit, hoff, htail⟩ := strtok_split ht
      obtain ⟨r, hdrop, hr⟩ := exists_cstr_append (b.cmd.drop p)
      have hcmd : b.cmd.drop p = pre ++ (t.word ++ (tail ++ r)) := by
        rw [hdrop, ← textAt, hsplit, List.append_assoc, List.append_assoc]
      have hnul : (0 : UInt8) ∉ b.textAt p := zero_notMem_cstr _
      rw [hsplit] at hnul
      simp only [List.mem_append, not_or] at hnul
      have hword (r' : List UInt8) (hr' : cstr r' = []) : cstr (t.word ++ r') = t.word := by
        rw [cstr_append hnul.2.1, hr', List.append_nil]
      have hlen := congrArg List.length hsplit
      simp only [List.length_append] at hlen
      -- the word goes to the end of the string, or to a separator that is overwritten
      rcases htail with ⟨rfl, hrest⟩ | rfl
      · refine ⟨some (p + t.off), { b with lasts := none }, ?_, rfl, ?_⟩
        · have hstop : p + t.off + t.word.length = p + (b.textAt p).length := by
            rw [hlen, hoff, List.length_nil]
            omega
          rw [if_pos hstop]
          rfl
        · have hat : textAt { b with lasts := none } (p + t.off) = t.word := by
            rw [textAt, ← List.drop_drop, hcmd, ← hoff, List.drop_left, List.nil_append, hword r hr]
          simp only [hat, hrest]
          rfl
      · let stop := p + t.off + t.word.length
        let b' : Blocks := { b with cmd := b.cmd.set stop 0, lasts := some (stop + 1) }
        refine ⟨some (p + t.off), b', ?_, rfl, ?_⟩
        · have hstop : ¬ p + t.off + t.word.length = p + (b.textAt p).length := by
            rw [hlen, hoff, List.length_cons]
            omega
          rw [if_neg hstop]
          rfl
        · have hfrom : b.cmd.drop (p + t.off) = t.word ++ (sep :: t.rest ++ r) := by
            rw [← List.drop_drop, hcmd, ← hoff, List.drop_left]
          have hat : b'.textAt (p + t.off) = t.word := by
            rw [textAt, List.drop_set, if_neg (by omega),
              show p + t.off + t.word.length - (p + t.off) = t.word.length by omega, hfrom,
              List.set_append_right _ _ (Nat.le_refl _), Nat.sub_self]
            exact hword _ rfl
          have hgo : b'.left = t.rest := by
            have hskip : (b.cmd.set stop 0).drop (stop + 1) = t.rest ++ r := by
              rw [List.drop_set, if_pos (by omega), ← List.drop_drop, ← List.drop_drop, hfrom,
                List.drop_left]
              rfl
            have hrest : (0 : UInt8) ∉ t.rest := fun h => hnul.2.2 (List.mem_cons_of_mem _ h)
            change cstr ((b.cmd.set stop 0).drop (stop + 1)) = t.rest
            rw [hskip, cstr_append hrest, hr, List.append_nil]
          simp only [hat, hgo]

/-- The next word is the first of what there was yet to give. -/
theorem nextWord_run (b : Blocks) : ∃ b', nextWord.run b = (.ok (), b') ∧ b'.aside = b.aside ∧
    b'.todo = words sep b.left := by
  obtain ⟨r, b', hrun, haside, hwords⟩ := strtokNext_run b
  refine ⟨{ b' with pt := r }, ?_, haside, ?_⟩
  · rw [nextWord, run_bind_ok hrun]
    rfl
  · rw [hwords]
    cases r <;> rfl

theorem todo_eq_cons (h : b.pt = some p) : b.todo = b.textAt p :: words sep b.left := by
  rw [todo, h]

theorem todo_eq_nil (h : b.pt = none) : b.todo = [] := by
  rw [todo, h]

/-! ## The array -/

/-- An array of which `i` elements were written, and `k` were not. -/
def written (i k : ℕ) : List (Option ℕ) := (List.range i).map some ++ List.replicate k none

theorem set_written (i k : ℕ) : (written i (k + 1)).set i (some i) = written (i + 1) k := by
  have hlen : ((List.range i).map some).length ≤ i := by rw [List.length_map, List.length_range]
  rw [written, List.set_append_right _ _ hlen, List.length_map, List.length_range, Nat.sub_self,
    List.replicate_succ, List.set_cons_zero, written, List.range_succ, List.map_append,
    List.append_assoc]
  rfl

theorem getElem?_written (h : j < i) : (written i k)[j]? = some (some j) := by
  rw [written, List.getElem?_append_left (by rwa [List.length_map, List.length_range]),
    List.getElem?_map, List.getElem?_range h]
  rfl

/-- **The loop copies the words there are**, up to the number asked for. -/
theorem argsLoop_run : ∀ k {i : ℕ} {b : Blocks}, b.copies.length = i → b.args = written i k →
    ∃ b', (argsLoop i k).run b = (.ok (i + min k b.todo.length), b') ∧ b'.str = b.str ∧
      b'.copies = b.copies ++ b.todo.take k ∧
      b'.args = written (i + min k b.todo.length) (k - min k b.todo.length) ∧
      b'.reads = b.reads ∧ b'.freed = b.freed := by
  intro k
  induction k with
  | zero =>
    intro i b _ hargs
    refine ⟨b, ?_, rfl, by simp, ?_, rfl, rfl⟩
    · rw [Nat.zero_min]
      rfl
    · rwa [Nat.zero_min]
  | succ k ih =>
    intro i b hlen hargs
    rw [argsLoop, run_get_bind]
    rcases hpt : b.pt with - | p
    · rw [todo_eq_nil hpt]
      exact ⟨b, rfl, rfl, by simp, hargs, rfl, rfl⟩
    · let c : Blocks := { b with
        copies := b.copies ++ [b.textAt p], args := b.args.set i (some b.copies.length) }
      obtain ⟨d, hnext, haside, htodo⟩ := nextWord_run c
      simp only [aside, Prod.mk.injEq] at haside
      obtain ⟨hstr, hcopies, hargs', hreads, hfreed⟩ := haside
      have htail : b.todo = b.textAt p :: d.todo := by
        rw [htodo, todo_eq_cons hpt]
        rfl
      have hd : d.args = written (i + 1) k := by
        rw [hargs']
        change b.args.set i (some b.copies.length) = _
        rw [hargs, hlen, set_written]
      obtain ⟨b', hrun, hstr', hcopies', hargs'', hreads', hfreed'⟩ :=
        ih (i := i + 1) (b := d) (by rw [hcopies]; simp [c, hlen]) hd
      have hmin : min (k + 1) b.todo.length = min k d.todo.length + 1 := by
        rw [htail, List.length_cons]
        omega
      refine ⟨b', ?_, hstr'.trans hstr, ?_, ?_, hreads'.trans hreads, hfreed'.trans hfreed⟩
      · have hcopy : (copyWord i p).run b = (.ok (), c) := rfl
        change (copyWord i p >>= fun _ => nextWord >>= fun _ => argsLoop (i + 1) k).run b = _
        rw [run_bind_ok hcopy, run_bind_ok hnext, hrun, hmin]
        congr 2
        omega
      · rw [hcopies', hcopies, htail]
        simp [c]
      · rw [hargs'', hmin]
        congr 1 <;> omega

/-! ## The clean-up -/

/-- **The clean-up starts at the last copy but one and ends before the
array**, where no pointer stands. -/
theorem cleanUp_run : ∀ {i : ℕ} {b : Blocks}, (∀ j, j < i → b.args[j]? = some (some j)) →
    (∀ j, j < i → .copy j ∉ b.freed) →
    (cleanUp (i + 1)).run b = (.error .badFree, { b with
      reads := b.reads ++ ((List.range i).reverse.map Int.ofNat ++ [-1])
      freed := b.freed ++ (List.range i).reverse.map .copy }) := by
  intro i
  induction i with
  | zero =>
    intro b _ _
    have hfree : (freeArg ((0 : ℕ) - 1 : Int)).run b =
        (.error .badFree, { b with reads := b.reads ++ [-1] }) := rfl
    rw [cleanUp, run_bind_error hfree]
    simp
  | succ i ih =>
    intro b hargs hfreed
    let c : Blocks := { b with
      reads := b.reads ++ [(i : Int)], freed := b.freed ++ [.copy i] }
    have hfree : (freeArg ((i + 1 : ℕ) - 1 : Int)).run b = (.ok (), c) := by
      have hindex : ((i + 1 : ℕ) - 1 : Int) = i := by omega
      rw [hindex, freeArg, run_bind, run_modify]
      simp only [run_get_bind, Int.toNat_natCast, hargs i (Nat.lt_succ_self i)]
      rw [if_neg (by omega)]
      simp only
      rw [if_neg (hfreed i (Nat.lt_succ_self i))]
      rfl
    rw [cleanUp, run_bind_ok hfree, ih (b := c) (fun j hj => hargs j (by omega)) fun j hj => ?_]
    · simp [c, List.range_succ]
    · rw [List.mem_append, List.mem_singleton, Freed.copy.injEq]
      exact fun h => h.elim (hfreed j (by omega)) (by omega)

/-! ## The calls -/

theorem cstr_copied (str : List UInt8) : cstr (cstr str ++ [0]) = cstr str := by
  rw [cstr_append (zero_notMem_cstr str)]
  exact List.append_nil _

/-- What the loop over the arguments starts from: the words behind the
first are to come, and nothing was written. -/
structure Fetching (str : List UInt8) (n : ℕ) (b : Blocks) : Prop where
  same : b.str = str
  todo : b.todo = (words sep (cstr str)).drop 1
  copies : b.copies = []
  args : b.args = written 0 n
  reads : b.reads = []
  freed : b.freed = []

/-- `getArgs`, from its loop on. -/
def finish (n i : ℕ) : Prog Blocks Fault (Option (List (Option ℕ))) :=
  if i < n then do
    cleanUp i
    Prog.modify fun b => { b with freed := b.freed ++ [.array] }
    return none
  else return some (← Prog.get).args

theorem getArgs_fetching (str : List UInt8) (n : ℕ) : ∃ b, Fetching str n b ∧
    (getArgs n).run (start str) = (argsLoop 0 n >>= finish n).run b := by
  let b₀ : Blocks :=
    { start str with cmd := cstr str ++ [0], lasts := some 0, args := List.replicate n none }
  have hleft : b₀.left = cstr str := cstr_copied str
  obtain ⟨b₁, hfirst, haside₁, htodo₁⟩ := nextWord_run b₀
  rw [hleft] at htodo₁
  have hrun : (getArgs n).run (start str) = (Prog.get >>= fun b : Blocks =>
      if b.pt ≠ none then nextWord >>= fun _ => argsLoop 0 n >>= finish n
      else argsLoop 0 n >>= finish n).run b₁ := by
    change (nextWord >>= fun _ => _).run b₀ = _
    rw [run_bind_ok hfirst]
    rfl
  rw [run_get_bind] at hrun
  rcases hpt : b₁.pt with - | p
  -- there is no word at all
  · rw [todo_eq_nil hpt] at htodo₁
    simp only [aside, Prod.mk.injEq] at haside₁
    obtain ⟨hstr, hcopies, hargs, hreads, hfreed⟩ := haside₁
    refine ⟨b₁, ⟨hstr, ?_, hcopies, hargs, hreads, hfreed⟩, ?_⟩
    · rw [todo_eq_nil hpt, ← htodo₁]
      rfl
    · rw [hrun, if_neg (by rw [hpt]; exact fun h => h rfl)]
  -- the command is skipped
  · obtain ⟨b₂, hsecond, haside₂, htodo₂⟩ := nextWord_run b₁
    have haside := haside₂.trans haside₁
    simp only [aside, Prod.mk.injEq] at haside
    obtain ⟨hstr, hcopies, hargs, hreads, hfreed⟩ := haside
    refine ⟨b₂, ⟨hstr, ?_, hcopies, hargs, hreads, hfreed⟩, ?_⟩
    · rw [htodo₂, ← htodo₁, todo_eq_cons hpt]
      rfl
    · rw [hrun, if_pos (by rw [hpt]; exact Option.some_ne_none p), run_bind_ok hsecond]

/-- **What a call of `getArgs` does**: it has copied the words behind the
first, as many as it was asked for. -/
theorem getArgs_run (str : List UInt8) (n : ℕ) : ∃ b, b.str = str ∧
    b.copies = ((words sep (cstr str)).drop 1).take n ∧
    (getArgs n).run (start str) = (finish n (min n ((words sep (cstr str)).drop 1).length)).run b ∧
    b.args = written (min n ((words sep (cstr str)).drop 1).length)
      (n - min n ((words sep (cstr str)).drop 1).length) ∧ b.reads = [] ∧ b.freed = [] := by
  obtain ⟨b, hb, hrun⟩ := getArgs_fetching str n
  obtain ⟨b', hloop, hstr, hcopies, hargs, hreads, hfreed⟩ :=
    argsLoop_run n (i := 0) (by rw [hb.copies]; rfl) hb.args
  rw [hb.todo] at hcopies hargs hloop
  rw [Nat.zero_add] at hargs hloop
  refine ⟨b', hstr.trans hb.same, ?_, ?_, hargs, hreads.trans hb.reads, hfreed.trans hb.freed⟩
  · rw [hcopies, hb.copies]
    rfl
  · rw [hrun, run_bind_ok hloop]

/-- Where there are words enough, the array points to their copies. -/
theorem getArgs_enough (h : n ≤ ((words sep (cstr str)).drop 1).length) : ∃ args b,
    (getArgs n).run (start str) = (.ok (some args), b) ∧ b.str = str ∧
      args.map b.pointsTo = (((words sep (cstr str)).drop 1).take n).map some := by
  obtain ⟨b, hstr, hcopies, hrun, hargs, -, -⟩ := getArgs_run str n
  rw [Nat.min_eq_left h] at hrun hargs
  rw [finish, if_neg (Nat.lt_irrefl n)] at hrun
  refine ⟨b.args, b, hrun, hstr, ?_⟩
  have hlen : b.copies.length = n := by rw [hcopies, List.length_take, Nat.min_eq_left h]
  rw [hargs, Nat.sub_self, written, List.replicate_zero, List.append_nil, List.map_map, ← hcopies]
  refine List.ext_getElem (by simp [hlen]) fun j hj _ => ?_
  rw [List.length_map, List.length_range] at hj
  simp [pointsTo, List.getElem?_eq_getElem (hlen ▸ hj)]

/-- Where there is no word to copy, there is none to free. -/
theorem getArgs_none (hn : 1 ≤ n) (h : (words sep (cstr str)).drop 1 = []) : ∃ b,
    (getArgs n).run (start str) = (.ok none, b) ∧ b.str = str ∧ b.reads = [] ∧
      b.freed = [.array] := by
  obtain ⟨b, hstr, -, hrun, -, hreads, hfreed⟩ := getArgs_run str n
  rw [h, List.length_nil, Nat.min_zero, finish, if_pos (show 0 < n from hn)] at hrun
  exact ⟨{ b with freed := b.freed ++ [.array] }, hrun, hstr, hreads, by rw [hfreed]; rfl⟩

/-- **Where there are some words but too few**, the clean-up leaves the last
copy, and frees what stands before the array. -/
theorem getArgs_few (hpos : 0 < ((words sep (cstr str)).drop 1).length)
    (h : ((words sep (cstr str)).drop 1).length < n) : ∃ b,
    (getArgs n).run (start str) = (.error .badFree, b) ∧ -1 ∈ b.reads ∧
      .copy (((words sep (cstr str)).drop 1).length - 1) ∉ b.freed := by
  obtain ⟨b, -, -, hrun, hargs, hreads, hfreed⟩ := getArgs_run str n
  obtain ⟨a, ha⟩ : ∃ a, ((words sep (cstr str)).drop 1).length = a + 1 :=
    ⟨_, (Nat.sub_add_cancel hpos).symm⟩
  rw [ha] at h hrun hargs ⊢
  rw [Nat.min_eq_right h.le] at hrun hargs
  have hclean := cleanUp_run (i := a) (b := b)
    (fun j hj => by rw [hargs]; exact getElem?_written (by omega))
    fun j _ => by rw [hfreed]; exact List.not_mem_nil
  rw [finish, if_pos h, run_bind_error hclean] at hrun
  refine ⟨_, hrun, ?_, ?_⟩
  · simp
  · simp [hfreed]

/-- **The handler takes what comes of it**: its arguments are the strings
the array points to. -/
theorem getArgs_refines {W : World} {cmd : CStr} {s : Sys} (hn : 1 ≤ n) (hcmd : cstr str = cmd) :
    ((getArgs n).run (start str)).1.map (Option.map (List.filterMap
      ((getArgs n).run (start str)).2.pointsTo)) = ((SmartLock.getArgs W cmd n).run s).1 := by
  subst hcmd
  rw [SmartLock.getArgs, arguments]
  by_cases henough : n ≤ ((words sep (cstr str)).drop 1).length
  · obtain ⟨args, b, hrun, -, hpoints⟩ := getArgs_enough henough
    have hfilter : args.filterMap b.pointsTo = ((words sep (cstr str)).drop 1).take n := by
      have h := congrArg (List.filterMap id) hpoints
      simpa [List.filterMap_map] using h
    rw [hrun, if_neg (by rw [List.length_take, Nat.min_eq_left henough]; omega),
      if_neg (by omega)]
    simp only [Except.map, Option.map, hfilter]
    rfl
  · have hlen : (((words sep (cstr str)).drop 1).take n).length =
        ((words sep (cstr str)).drop 1).length := by
      rw [List.length_take, Nat.min_eq_right (by omega)]
    rw [if_pos (by rw [hlen]; omega)]
    by_cases hnil : (words sep (cstr str)).drop 1 = []
    · obtain ⟨b, hrun, -⟩ := getArgs_none hn hnil
      rw [hrun, hnil, List.take_nil]
      rfl
    · have hpos : 0 < ((words sep (cstr str)).drop 1).length := List.length_pos_of_ne_nil hnil
      obtain ⟨b, hrun, -⟩ := getArgs_few hpos (Nat.lt_of_not_le henough)
      have hsome : (((words sep (cstr str)).drop 1).take n).length ≠ 0 := by
        rw [hlen]
        omega
      rw [hrun, faultIf, if_pos hsome]
      rfl

/-! ## Splitting exactly -/

/-- The number of words behind the command. -/
def argCount (str : List UInt8) : ℕ := ((words sep (cstr str)).drop 1).length

/-- `getCommand` gives the first word, if there is one, and `getArgs` the
`n` words behind it, or `NULL` where there are not as many; neither writes
to the string. -/
structure Splits (str : List UInt8) (n : ℕ) : Prop where
  command : ∃ pt b, getCommand.run (start str) = (.ok pt, b) ∧ b.str = str ∧
    pt.map b.textAt = (words sep (cstr str)).head?
  arguments : ∃ args b, (getArgs n).run (start str) = (.ok args, b) ∧ b.str = str ∧
    args.map (List.map b.pointsTo) = if (words sep (cstr str)).length < n + 1 then none
      else some ((((words sep (cstr str)).drop 1).take n).map some)

/-- Parsing a string gives the first of these words back, and `n` words
behind it. -/
structure Parses (str : List UInt8) (n : ℕ) (l : List CStr) : Prop where
  command : ∃ pt b, getCommand.run (start str) = (.ok pt, b) ∧ pt.map b.textAt = l.head?
  arguments : ∃ args b, (getArgs n).run (start str) = (.ok (some args), b) ∧
    args.map b.pointsTo = ((l.drop 1).take n).map some

/-- **The command is the first word.** -/
theorem getCommand_run (str : List UInt8) : ∃ pt b, getCommand.run (start str) = (.ok pt, b) ∧
    b.str = str ∧ pt.map b.textAt = (words sep (cstr str)).head? := by
  let b₀ : Blocks := { start str with cmd := cstr str ++ [0], lasts := some 0 }
  have hleft : b₀.left = cstr str := cstr_copied str
  obtain ⟨r, b, hrun, haside, hwords⟩ := strtokNext_run b₀
  refine ⟨r, b, hrun, congrArg Prod.fst haside, ?_⟩
  rw [← hleft, hwords]
  cases r <;> rfl

theorem Splits.parses {l : List CStr} (h : Splits str n) (hl : words sep (cstr str) = l)
    (hlen : n + 1 ≤ l.length) : Parses str n l := by
  obtain ⟨pt, b, hcommand, -, hword⟩ := h.command
  obtain ⟨args, c, hrun, -, hpoints⟩ := h.arguments
  rw [hl, if_neg (by omega)] at hpoints
  obtain ⟨args, rfl, hpoints⟩ := Option.map_eq_some_iff.1 hpoints
  exact ⟨⟨pt, b, hcommand, hl ▸ hword⟩, args, c, hrun, Option.some.inj hpoints⟩

/-- A call that returns splits the string, and it returns unless the
clean-up has something to free. -/
theorem splits_iff (hn : 1 ≤ n) : Splits str n ↔ ¬ (0 < argCount str ∧ argCount str < n) := by
  have hlen : argCount str = (words sep (cstr str)).length - 1 := List.length_drop
  constructor
  · rintro ⟨-, args, b, hrun, -⟩ ⟨hpos, hlt⟩
    obtain ⟨c, hfault, -⟩ := getArgs_few hpos hlt
    rw [hfault] at hrun
    cases hrun
  · intro h
    refine ⟨getCommand_run str, ?_⟩
    by_cases henough : n ≤ argCount str
    · obtain ⟨args, b, hrun, hstr, hpoints⟩ := getArgs_enough henough
      exact ⟨some args, b, hrun, hstr, by rw [if_neg (by omega), ← hpoints]; rfl⟩
    · have hnil : (words sep (cstr str)).drop 1 = [] := List.eq_nil_of_length_eq_zero (by
        change argCount str = 0
        omega)
      obtain ⟨b, hrun, hstr, -⟩ := getArgs_none hn hnil
      exact ⟨none, b, hrun, hstr, by rw [if_pos (by omega)]; rfl⟩

theorem zero_notMem_intercalate {l : List CStr} (h : ∀ w ∈ l, (0 : UInt8) ∉ w) :
    (0 : UInt8) ∉ List.intercalate [sep] l := by
  induction l with
  | nil => exact List.not_mem_nil
  | cons w l ih =>
    cases l with
    | nil =>
      rw [List.intercalate_singleton]
      exact h w (List.mem_cons_self ..)
    | cons u l =>
      rw [List.intercalate_cons_cons, List.mem_append, List.mem_append, not_or, not_or]
      exact ⟨⟨h w (List.mem_cons_self ..), by decide⟩,
        ih fun v hv => h v (List.mem_cons_of_mem _ hv)⟩

/-- **The tokeniser splits exactly but where there are arguments and too
few**; and words joined by single spaces are given back. -/
theorem getArgs_splits (hn : 1 ≤ n) :
    (∀ str, Splits str n ↔ ¬ (0 < argCount str ∧ argCount str < n)) ∧
    ∀ l : List CStr, n + 1 ≤ l.length → (∀ w ∈ l, w ≠ [] ∧ sep ∉ w ∧ 0 ∉ w) →
      Parses (List.intercalate [sep] l ++ [0]) n l := by
  refine ⟨fun str => splits_iff hn, fun l hlen hl => ?_⟩
  have hcstr : cstr (List.intercalate [sep] l ++ [0]) = List.intercalate [sep] l := by
    rw [cstr_append (zero_notMem_intercalate fun w hw => (hl w hw).2.2)]
    exact List.append_nil _
  have hwords : words sep (cstr (List.intercalate [sep] l ++ [0])) = l := by
    rw [hcstr]
    exact words_intercalate fun w hw => ⟨(hl w hw).1, (hl w hw).2.1⟩
  refine ((splits_iff hn).2 fun h => ?_).parses hwords hlen
  rw [argCount, hwords, List.length_drop] at h
  omega

/-- The theorem, for three arguments. -/
theorem getArgs_splits_three :
    (∀ str, Splits str 3 ↔ ¬ (0 < argCount str ∧ argCount str < 3)) ∧
    ∀ l : List CStr, 3 + 1 ≤ l.length → (∀ w ∈ l, w ≠ [] ∧ sep ∉ w ∧ 0 ∉ w) →
      Parses (List.intercalate [sep] l ++ [0]) 3 l :=
  getArgs_splits (by decide)

/-- **A command with one argument of three** makes the clean-up free what
stands before the array. -/
theorem not_always_splits : ¬ ∀ str n, 1 ≤ n → Splits str n := by
  intro h
  obtain ⟨-, args, b, hrun, -⟩ := h (lit "RUD 1" ++ [0]) 3 (by decide)
  have hfault : ((getArgs 3).run (start (lit "RUD 1" ++ [0]))).1 = .error .badFree := by
    decide +kernel
  rw [hrun] at hfault
  cases hfault

/-! ## Releasing cleanly -/

/-- `getArgs` returns `NULL`, reads only elements of the array that were
written, and frees each copy once and then the array. -/
def ReleasesCleanly (str : List UInt8) (n : ℕ) : Prop :=
  ∃ b, (getArgs n).run (start str) = (.ok none, b) ∧
    (∀ index ∈ b.reads, 0 ≤ index ∧ index < argCount str) ∧
    ∃ copies, copies.Perm ((List.range (argCount str)).map .copy) ∧ b.freed = copies ++ [.array]

/-- **Too few arguments are released cleanly only where there are none.** -/
theorem releasesCleanly_iff (h : argCount str < n) :
    ReleasesCleanly str n ↔ argCount str = 0 := by
  constructor
  · rintro ⟨b, hrun, -⟩
    by_contra hpos
    obtain ⟨c, hfault, -⟩ := getArgs_few (Nat.pos_of_ne_zero hpos) h
    rw [hfault] at hrun
    cases hrun
  · intro hzero
    obtain ⟨b, hrun, -, hreads, hfreed⟩ :=
      getArgs_none (Nat.one_le_of_lt h) (List.eq_nil_of_length_eq_zero hzero)
    refine ⟨b, hrun, by rw [hreads]; exact fun _ h => absurd h List.not_mem_nil, [], ?_, hfreed⟩
    rw [hzero]
    exact .refl _

/-- The theorem, of a command alone. -/
theorem releasesCleanly_iff_alone : argCount (lit "RUD" ++ [0]) < 3 ∧
    (ReleasesCleanly (lit "RUD" ++ [0]) 3 ↔ argCount (lit "RUD" ++ [0]) = 0) :=
  have h : argCount (lit "RUD" ++ [0]) < 3 := by decide +kernel
  ⟨h, releasesCleanly_iff h⟩

/-- **A command with two arguments of three**: the clean-up reads the
element before the array, and has left the second copy. -/
theorem not_always_releasesCleanly :
    argCount (lit "RUD 1 2" ++ [0]) < 3 ∧ ¬ ReleasesCleanly (lit "RUD 1 2" ++ [0]) 3 ∧
    ((getArgs 3).run (start (lit "RUD 1 2" ++ [0]))).2.reads = [0, -1] ∧
    ((getArgs 3).run (start (lit "RUD 1 2" ++ [0]))).2.freed = [.copy 0] := by
  refine ⟨by decide +kernel, fun ⟨b, hrun, _⟩ => ?_, by decide +kernel, by decide +kernel⟩
  have hfault : ((getArgs 3).run (start (lit "RUD 1 2" ++ [0]))).1 = .error .badFree := by
    decide +kernel
  rw [hrun] at hfault
  cases hfault

end Blocks

end SmartLock
