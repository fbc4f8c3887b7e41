import SmartLock.Footprint.Server

/-!
# What a command that returned has done

The inversion of the dispatcher: each command returned either because it
had no arguments to work on, or having gone through its checks, its effect
and the reset that ends it, in this order. The properties of the
dispatcher are read off these lemmas and nothing below them.
-/

namespace SmartLock

open Prog

variable {W : World} {a cmd : CStr} {c : Tok} {s s' : Sys} {r : Option CStr}

/-! ## The words of a message -/

/-- The command has the `n` arguments `args`. -/
structure Given (cmd : CStr) (n : ℕ) (args : List CStr) : Prop where
  eq : args = (arguments cmd).take n
  length : args.length = n

/-- A command that was given its arguments had as many. -/
theorem Given.le {n : ℕ} {args : List CStr} (h : Given cmd n args) :
    n ≤ (arguments cmd).length := by
  have := h.length
  rw [h.eq, List.length_take] at this
  omega

/-- What stands in the arguments stands there in the message. -/
theorem Given.argument {n : ℕ} {args : List CStr} {i : Int} {arg : CStr} (h : Given cmd n args)
    (harg : argument args i = some arg) : argument (arguments cmd) i = some arg := by
  rw [SmartLock.argument] at harg ⊢
  by_cases hi : i < 0
  · rw [if_pos hi] at harg
    cases harg
  · rw [if_neg hi, h.eq] at harg
    rw [if_neg hi]
    obtain ⟨hlt, heq⟩ := List.getElem?_eq_some_iff.1 harg
    rw [List.getElem_take] at heq
    exact List.getElem?_eq_some_iff.2 ⟨_, heq⟩

/-- A pointer that was followed is not null. -/
theorem deref_ok {α : Type} {p : Option α} {x : α} :
    (deref p).run s = (.ok x, s') ↔ p = some x ∧ s' = s := by
  cases p <;> simp [deref, eq_comm]

/-- A command word that was freed is where its block begins. -/
theorem freeCommand_ok {u : Unit} : (freeCommand c).run s = (.ok u, s') ↔ c.off = 0 ∧ s' = s := by
  rw [freeCommand, faultIf_ok, not_not]

variable (W) in
/-- `getArgs` returns nothing: there are no arguments, or none are asked
for and `malloc(0)` is null. -/
def NoArgs (cmd : CStr) (n : ℕ) : Prop := n ≠ 0 ∧ arguments cmd = [] ∨ n = 0 ∧ ¬ W.mallocZero

theorem NoArgs.arguments_eq {n : ℕ} (h : NoArgs W cmd n) (hn : n ≠ 0) : arguments cmd = [] :=
  (h.resolve_right fun h => hn h.1).2

/-- Too few arguments `getArgs` does not survive. -/
theorem getArgs_ok {n : ℕ} {args : Option (List CStr)}
    (h : (getArgs W cmd n).run s = (.ok args, s')) :
    s' = s ∧ ((args = none ∧ NoArgs W cmd n) ∨ ∃ l, args = some l ∧ Given cmd n l) := by
  rw [getArgs] at h
  by_cases hlen : ((arguments cmd).take n).length < n
  · simp only [if_pos hlen, bind_ok, faultIf_ok, not_not] at h
    obtain ⟨_, _, ⟨hnil, rfl⟩, h⟩ := h
    cases h
    rw [List.length_take] at hnil hlen
    refine ⟨rfl, .inl ⟨rfl, .inl ⟨by omega, List.length_eq_zero_iff.1 (by omega)⟩⟩⟩
  · rw [if_neg hlen] at h
    cases h
    refine ⟨rfl, ?_⟩
    by_cases hn : n = 0 ∧ ¬ W.mallocZero
    · exact .inl ⟨if_pos hn, .inr hn⟩
    · rw [if_neg hn]
      refine .inr ⟨_, rfl, rfl, ?_⟩
      rw [List.length_take] at hlen ⊢
      omega

/-- What `getArgs` returns are the first tokens of the message. -/
theorem given_of_getArgs {n : ℕ} {l : List CStr}
    (h : (getArgs W cmd n).run s = (.ok (some l), s')) : Given cmd n l := by
  obtain ⟨-, ⟨hnone, -⟩ | ⟨l', hl, hgiven⟩⟩ := getArgs_ok h
  · cases hnone
  · obtain rfl := Option.some.inj hl
    exact hgiven

/-- A command returned for want of arguments, or had them. -/
theorem withArgs_ok {n : ℕ} {m : M (Option CStr)} {k : List CStr → M (Option CStr)}
    (h : (getArgs W cmd n >>= fun args => match args with
      | none => m
      | some args => k args).run s = (.ok r, s')) :
    (NoArgs W cmd n ∧ m.run s = (.ok r, s')) ∨
      ∃ args, Given cmd n args ∧ (k args).run s = (.ok r, s') := by
  obtain ⟨args, s₁, hargs, h⟩ := bind_ok.1 h
  obtain ⟨rfl, ⟨rfl, hnone⟩ | ⟨l, rfl, hl⟩⟩ := getArgs_ok hargs
  · exact .inl ⟨hnone, h⟩
  · exact .inr ⟨l, hl, h⟩

/-- A refusal leaves the state as it was. -/
theorem nak_ok (h : (do freeCommand c; return some nakMessage : M (Option CStr)).run s =
    (.ok r, s')) : c.off = 0 ∧ s' = s ∧ r = some nakMessage := by
  simp only [bind_ok, freeCommand_ok] at h
  obtain ⟨_, _, ⟨hoff, rfl⟩, h⟩ := h
  cases h
  exact ⟨hoff, rfl, rfl⟩

/-! ## The commands -/

/-- The reply `ACK` or `NAK`. -/
def ackIf (ack : Bool) : Option CStr := some (if ack then ackMessage else nakMessage)

theorem ackIf_eq_ack {ack : Bool} : ackIf ack = some ackMessage ↔ ack = true := by
  cases ack <;> decide

/-- **What `SAC` can do**: refuse, or answer with its verdict. -/
theorem commandSAC_ok (h : (commandSAC W c cmd a).run s = (.ok r, s')) :
    c.off = 0 ∧ ((arguments cmd = [] ∧ s' = s ∧ r = some nakMessage) ∨
      ∃ args valid, Given cmd 5 args ∧ (sacValid W args a).run s = (.ok valid, s') ∧
        r = ackIf valid) := by
  rcases withArgs_ok h with ⟨hno, h⟩ | ⟨args, hargs, h⟩
  · exact ⟨(nak_ok h).1, .inl ⟨hno.arguments_eq (by decide), (nak_ok h).2⟩⟩
  · simp only [bind_ok, freeCommand_ok] at h
    obtain ⟨valid, s₁, hvalid, _, _, ⟨hoff, rfl⟩, h⟩ := h
    cases h
    exact ⟨hoff, .inr ⟨args, valid, hargs, hvalid, rfl⟩⟩

/-- **What `RUD` and `RLD` can do**: refuse without the reset, or answer
behind it. -/
theorem commandDoor_ok {act : M Unit} (h : (commandDoor W act c cmd a).run s = (.ok r, s')) :
    c.off = 0 ∧ ((arguments cmd = [] ∧ s' = s ∧ r = some nakMessage) ∨
      ∃ args ack s₁, Given cmd 3 args ∧ (doorAck W act args a).run s = (.ok ack, s₁) ∧
        (setBLEUserStateToConnecting W).run s₁ = (.ok (), s') ∧ r = ackIf ack) := by
  rcases withArgs_ok h with ⟨hno, h⟩ | ⟨args, hargs, h⟩
  · exact ⟨(nak_ok h).1, .inl ⟨hno.arguments_eq (by decide), (nak_ok h).2⟩⟩
  · simp only [bind_ok, freeCommand_ok] at h
    obtain ⟨ack, s₁, hack, _, _, ⟨hoff, rfl⟩, _, s₂, hreset, h⟩ := h
    cases h
    exact ⟨hoff, .inr ⟨args, ack, _, hargs, hack, hreset, rfl⟩⟩

/-- The number `RNI` gives for the type of user, as an unsigned one. -/
def rniType (arg : CStr) : UserType := (strtol arg % 2 ^ 32).toNat

/-- **What `RNI` can do**: refuse without the reset, or answer behind it. -/
theorem commandRNI_ok (h : (commandRNI W c cmd a).run s = (.ok r, s')) :
    c.off = 0 ∧ ((NoArgs W cmd (rniArgs cmd) ∧ s' = s ∧ r = some nakMessage) ∨
      ∃ args arg request response s₁ s₂, Given cmd (rniArgs cmd) args ∧
        argument args 0 = some arg ∧ (rniRequest args (rniType arg)).run s = (.ok request, s₁) ∧
        (checkedInvite W (lit "SNI") args (rniArgs cmd - 3) a request).run s₁ =
          (.ok response, s₂) ∧
        (setBLEUserStateToConnecting W).run s₂ = (.ok (), s') ∧ r = some response) := by
  rcases withArgs_ok h with ⟨hno, h⟩ | ⟨args, hargs, h⟩
  · exact ⟨(nak_ok h).1, .inl ⟨hno, (nak_ok h).2⟩⟩
  · simp only [bind_ok, freeCommand_ok, argAt_ok] at h
    obtain ⟨arg, _, ⟨harg, rfl⟩, request, s₁, hreq, response, s₂, hresp, _, _, ⟨hoff, rfl⟩, _, s₃,
      hreset, h⟩ := h
    cases h
    exact ⟨hoff, .inr ⟨args, arg, request, response, s₁, _, hargs, harg, hreq, hresp, hreset, rfl⟩⟩

/-- **What `RFI` can do**: refuse, registered or not, or answer. -/
theorem commandRFI_ok (h : (commandRFI W c cmd).run s = (.ok r, s')) :
    c.off = 0 ∧ ∃ status s₁, (getRegistrationStatus W).run s = (.ok status, s₁) ∧
      (((status ≠ registered ∨ arguments cmd = []) ∧ s' = s₁ ∧ r = some nakMessage) ∨
        ∃ args response, status = registered ∧ Given cmd 4 args ∧
          (rfiResponse W args).run s₁ = (.ok response, s') ∧ r = some response) := by
  obtain ⟨status, s₁, hstatus, h⟩ := bind_ok.1 h
  by_cases hreg : status ≠ registered
  · rw [if_pos hreg] at h
    exact ⟨(nak_ok h).1, status, s₁, hstatus, .inl ⟨.inl hreg, (nak_ok h).2⟩⟩
  · rw [if_neg hreg] at h
    rcases withArgs_ok h with ⟨hno, h⟩ | ⟨args, hargs, h⟩
    · exact ⟨(nak_ok h).1, status, s₁, hstatus,
        .inl ⟨.inr (hno.arguments_eq (by decide)), (nak_ok h).2⟩⟩
    · simp only [bind_ok, freeCommand_ok] at h
      obtain ⟨response, s₂, hresp, _, _, ⟨hoff, rfl⟩, h⟩ := h
      cases h
      exact ⟨hoff, status, s₁, hstatus, .inr ⟨args, response, not_not.1 hreg, hargs, hresp, rfl⟩⟩

/-! ## Who is asking -/

theorem derefUser_ok {x : UserInfo} :
    (derefUser a).run s = (.ok x, s') ↔ s.user a = some x ∧ s' = s := by
  rw [derefUser, run_get_bind]
  cases s.user a <;> simp [eq_comm]

theorem run_getUserAESCtx {x : UserInfo} (hx : s.user a = some x) :
    (getUserAESCtx a).run s = (.ok x.aesCtx, s) :=
  bind_ok.2 ⟨x, s, derefUser_ok.2 ⟨hx, rfl⟩, rfl⟩

/-- The state that was read is the one in the record. -/
theorem getUserState_ok {st : UserState} :
    (getUserState a).run s = (.ok st, s') ↔ (∃ x, s.user a = some x ∧ x.state = st) ∧ s' = s := by
  simp only [getUserState, bind_ok, derefUser_ok]
  constructor
  · rintro ⟨x, _, ⟨hx, rfl⟩, h⟩
    cases h
    exact ⟨⟨x, hx, rfl⟩, rfl⟩
  · rintro ⟨⟨x, hx, rfl⟩, rfl⟩
    exact ⟨x, s', ⟨hx, rfl⟩, rfl⟩

/-- A phone of no characters is read as none. -/
theorem getPhoneId_ok {p : Option CStr} :
    (getPhoneId a).run s = (.ok p, s') ↔
      (∃ x, s.user a = some x ∧ p = if x.phoneId.length ≠ 0 then some x.phoneId else none) ∧
        s' = s := by
  simp only [getPhoneId, bind_ok, derefUser_ok]
  constructor
  · rintro ⟨x, _, ⟨hx, rfl⟩, h⟩
    cases h
    exact ⟨⟨x, hx, rfl⟩, rfl⟩
  · rintro ⟨⟨x, hx, rfl⟩, rfl⟩
    exact ⟨x, s', ⟨hx, rfl⟩, rfl⟩

/-- The user of `a` is authorized, for the phone `p`. -/
structure AuthorizedFor (a p : CStr) (s : Sys) : Prop where
  user : ∃ x, s.user a = some x ∧ x.state = .authorized ∧ x.phoneId = p
  ne_nil : p ≠ []

/-- A user is authorized for one phone. -/
theorem AuthorizedFor.unique {p q : CStr} (hp : AuthorizedFor a p s) (hq : AuthorizedFor a q s) :
    q = p := by
  obtain ⟨x, hx, _, rfl⟩ := hp.user
  obtain ⟨y, hy, _, rfl⟩ := hq.user
  rw [hx] at hy
  cases hy
  rfl

/-- What the two getters say of an authorized user. -/
theorem AuthorizedFor.getters {p : CStr} (hp : AuthorizedFor a p s) :
    (getUserState a).run s = (.ok .authorized, s) ∧ (getPhoneId a).run s = (.ok (some p), s) := by
  obtain ⟨x, hx, hstate, rfl⟩ := hp.user
  have hlen : x.phoneId.length ≠ 0 := fun h => hp.ne_nil (List.length_eq_zero_iff.1 h)
  exact ⟨getUserState_ok.2 ⟨⟨x, hx, hstate⟩, rfl⟩,
    getPhoneId_ok.2 ⟨⟨x, hx, by rw [if_pos hlen]⟩, rfl⟩⟩

/-- The two getters that begin `canUseLock`, `canCreateInvite` and `RUI`:
they go on for an authorized user with a phone, and the state is as it
was. -/
theorem whenAuthorized_ok {α : Type} {x y : α} {k : CStr → M α} {z : α}
    (h : (do
      if (← getUserState a) ≠ .authorized then pure x
      else match ← getPhoneId a with
        | none => pure y
        | some p => k p : M α).run s = (.ok z, s')) :
    ((z = x ∨ z = y) ∧ s' = s ∧ ¬ ∃ p, AuthorizedFor a p s) ∨
      ∃ p, AuthorizedFor a p s ∧ (k p).run s = (.ok z, s') := by
  simp only [bind_ok, getUserState_ok] at h
  obtain ⟨st, _, ⟨⟨u, hu, rfl⟩, rfl⟩, h⟩ := h
  by_cases hst : u.state ≠ .authorized
  · rw [if_pos hst] at h
    cases h
    refine .inl ⟨.inl rfl, rfl, fun ⟨p, ⟨u', hu', hst', _⟩, _⟩ => hst ?_⟩
    rw [hu] at hu'
    cases hu'
    exact hst'
  · rw [if_neg hst] at h
    obtain ⟨p, _, hp, h⟩ := bind_ok.1 h
    obtain ⟨⟨u', hu', rfl⟩, rfl⟩ := getPhoneId_ok.1 hp
    rw [hu] at hu'
    cases hu'
    by_cases hlen : u.phoneId.length ≠ 0
    · rw [if_pos hlen] at h
      exact .inr ⟨u.phoneId, ⟨⟨u, hu, not_not.1 hst, rfl⟩, fun hnil => hlen (by rw [hnil]; rfl)⟩, h⟩
    · rw [if_neg hlen] at h
      cases h
      refine .inl ⟨.inr rfl, rfl, fun ⟨p, ⟨u', hu', _, hp'⟩, hnil⟩ => hlen ?_⟩
      rw [hu] at hu'
      cases hu'
      rw [hp']
      exact fun h => hnil (List.length_eq_zero_iff.1 h)

/-- **What `RUI` can do**: besides refusing and answering, return nothing to
a user who is not authorized. -/
theorem commandRUI_ok (h : (commandRUI W c cmd a).run s = (.ok r, s')) :
    (c.off = 0 ∧ arguments cmd = [] ∧ s' = s ∧ r = some nakMessage) ∨
      (4 ≤ (arguments cmd).length ∧ s' = s ∧ r = none ∧ ¬ ∃ p, AuthorizedFor a p s) ∨
      ∃ args p, Given cmd 4 args ∧ AuthorizedFor a p s ∧
        (((storedAuthorization W p).run s = (.ok none, s') ∧ r = none) ∨
          ∃ auth email request response s₁ s₂ s₃, c.off = 0 ∧
            (storedAuthorization W p).run s = (.ok (some auth), s₁) ∧ argument args 0 = some email ∧
            (ruiRequest W auth email).run s₁ = (.ok request, s₂) ∧
            (checkedInvite W (lit "SUI") args 1 a request).run s₂ = (.ok response, s₃) ∧
            (setBLEUserStateToConnecting W).run s₃ = (.ok (), s') ∧ r = some response) := by
  rcases withArgs_ok h with ⟨hno, h⟩ | ⟨args, hargs, h⟩
  · exact .inl ⟨(nak_ok h).1, hno.arguments_eq (by decide), (nak_ok h).2⟩
  · rcases whenAuthorized_ok h with ⟨hr, hs, hno⟩ | ⟨p, hp, h⟩
    · exact .inr (.inl ⟨hargs.le, hs, hr.elim id id, hno⟩)
    · refine .inr (.inr ⟨args, p, hargs, hp, ?_⟩)
      obtain ⟨auth, s₁, hauth, h⟩ := bind_ok.1 h
      cases auth with
      | none =>
        cases h
        exact .inl ⟨hauth, rfl⟩
      | some auth =>
        simp only [bind_ok, freeCommand_ok, argAt_ok] at h
        obtain ⟨email, _, ⟨hemail, rfl⟩, request, s₂, hreq, response, s₃, hresp, _, _, ⟨hoff, rfl⟩,
          _, s₄, hreset, h⟩ := h
        cases h
        exact .inr ⟨auth, email, request, response, _, s₂, _, hoff, hauth, hemail, hreq, hresp,
          hreset, rfl⟩

/-- **What `SNT` can do**: refuse, or answer. -/
theorem commandSNT_ok (h : (commandSNT W c cmd a).run s = (.ok r, s')) :
    c.off = 0 ∧ ((arguments cmd = [] ∧ s' = s ∧ r = some nakMessage) ∨
      ∃ args ack, Given cmd 4 args ∧ (sntAck W args a).run s = (.ok ack, s') ∧ r = ackIf ack) := by
  rcases withArgs_ok h with ⟨hno, h⟩ | ⟨args, hargs, h⟩
  · exact ⟨(nak_ok h).1, .inl ⟨hno.arguments_eq (by decide), (nak_ok h).2⟩⟩
  · simp only [bind_ok, freeCommand_ok] at h
    obtain ⟨ack, s₁, hack, _, _, ⟨hoff, rfl⟩, h⟩ := h
    cases h
    exact ⟨hoff, .inr ⟨args, ack, hargs, hack, rfl⟩⟩

/-- **What `RDS` can do**: refuse or answer, behind the reset either way. -/
theorem commandRDS_ok (h : (commandRDS W c cmd a).run s = (.ok r, s')) :
    c.off = 0 ∧ ((arguments cmd = [] ∧ (setBLEUserStateToConnecting W).run s = (.ok (), s') ∧
        r = some nakMessage) ∨
      ∃ args response s₁, Given cmd 3 args ∧ (rdsResponse W args a).run s = (.ok response, s₁) ∧
        (setBLEUserStateToConnecting W).run s₁ = (.ok (), s') ∧ r = some response) := by
  rcases withArgs_ok h with ⟨hno, h⟩ | ⟨args, hargs, h⟩
  · simp only [bind_ok, freeCommand_ok] at h
    obtain ⟨_, _, ⟨hoff, rfl⟩, _, s₁, hreset, h⟩ := h
    cases h
    exact ⟨hoff, .inl ⟨hno.arguments_eq (by decide), hreset, rfl⟩⟩
  · simp only [bind_ok, freeCommand_ok] at h
    obtain ⟨response, s₁, hresp, _, _, ⟨hoff, rfl⟩, _, s₂, hreset, h⟩ := h
    cases h
    exact ⟨hoff, .inr ⟨args, response, _, hargs, hresp, hreset, rfl⟩⟩

/-! ## The dispatcher -/

/-- The command a message names: its first word. -/
def word (cmd : CStr) : Option CStr := (getCommand cmd).map Tok.word

/-- The words that name commands. -/
def commandWords : List CStr :=
  [lit "SAC", lit "RUD", lit "RLD", lit "RNI", lit "RFI", lit "RUI", lit "SNT", lit "RDS"]

/-- **The dispatcher hands over to the command its message names.** -/
theorem checkCommand_ok (h : (checkCommand W cmd a).run s = (.ok r, s')) :
    ∃ c, getCommand cmd = some c ∧
      ((c.word = lit "SAC" ∧ (commandSAC W c cmd a).run s = (.ok r, s')) ∨
        (c.word = lit "RUD" ∧ (commandRUD W c cmd a).run s = (.ok r, s')) ∨
        (c.word = lit "RLD" ∧ (commandRLD W c cmd a).run s = (.ok r, s')) ∨
        (c.word = lit "RNI" ∧ (commandRNI W c cmd a).run s = (.ok r, s')) ∨
        (c.word = lit "RFI" ∧ (commandRFI W c cmd).run s = (.ok r, s')) ∨
        (c.word = lit "RUI" ∧ (commandRUI W c cmd a).run s = (.ok r, s')) ∨
        (c.word = lit "SNT" ∧ (commandSNT W c cmd a).run s = (.ok r, s')) ∨
        (c.word = lit "RDS" ∧ (commandRDS W c cmd a).run s = (.ok r, s')) ∨
        (c.word ∉ commandWords ∧ (setBLEUserStateToConnecting W).run s = (.ok (), s') ∧
          r = some nakMessage)) := by
  obtain ⟨c, s₁, hderef, hrun⟩ := bind_ok.1 h
  obtain ⟨hc, rfl⟩ := deref_ok.1 hderef
  refine ⟨c, hc, ?_⟩
  split_ifs at hrun with h₁ h₂ h₃ h₄ h₅ h₆ h₇ h₈
  · exact .inl ⟨h₁, hrun⟩
  · exact .inr (.inl ⟨h₂, hrun⟩)
  · exact .inr (.inr (.inl ⟨h₃, hrun⟩))
  · exact .inr (.inr (.inr (.inl ⟨h₄, hrun⟩)))
  · exact .inr (.inr (.inr (.inr (.inl ⟨h₅, hrun⟩))))
  · exact .inr (.inr (.inr (.inr (.inr (.inl ⟨h₆, hrun⟩)))))
  · exact .inr (.inr (.inr (.inr (.inr (.inr (.inl ⟨h₇, hrun⟩))))))
  · exact .inr (.inr (.inr (.inr (.inr (.inr (.inr (.inl ⟨h₈, hrun⟩)))))))
  · obtain ⟨_, s₂, hreset, hr⟩ := bind_ok.1 hrun
    cases hr
    refine .inr (.inr (.inr (.inr (.inr (.inr (.inr (.inr ⟨?_, hreset, rfl⟩)))))))
    simp only [commandWords, List.mem_cons, List.not_mem_nil, or_false, not_or]
    exact ⟨h₁, h₂, h₃, h₄, h₅, h₆, h₇, h₈⟩

end SmartLock
