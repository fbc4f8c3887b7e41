import SmartLock.Handler.Invite

/-!
# Registering an invite

The three commands that call `create_invite`, followed up to the call:
`ReachesInvite` gives the runs that lead there, and the request the call is
made with. From there on two things can go wrong. The encoder leaves out
the fields that are `-1`, whatever the type; and the reply is measured
before it is known whether there is one.
-/

namespace SmartLock

open Prog

variable {W : World} {a cmd code : CStr} {s s' s₁ t t' : Sys} {n : ℕ} {args : List CStr}
variable {r : InviteRequest} {e : Int} {k : Int} {c : Tok} {o : Obs} {pre : List Obs}

/-! ## The way to `create_invite` -/

/-- From `s` the checks of `RNI` and `RUI` are gone through, and the invite
is asked for in `t`. -/
def Cleared (W : World) (args : List CStr) (k : Int) (a : CStr) (r : InviteRequest) (e : Int)
    (s t : Sys) : Prop :=
  ∃ s₁ s₂ s₃, (verifyTimestampsAndNonce W args k).run s = (.ok true, s₁) ∧
    (canUseLock W a).run s₁ = (.ok true, s₂) ∧
    (canCreateInvite W a r.userType r.validFrom r.validUntil r.oneDay).run s₂ = (.ok true, s₃) ∧
    (getDefaultExpirationTimestamp W).run s₃ = (.ok e, t)

/-- A command of `a`, handled in `s`, calls `create_invite` in `t`. -/
inductive ReachesInvite (W : World) (cmd a : CStr) (s : Sys) :
    InviteRequest → Int → Sys → Prop
  | rni {c : Tok} {args : List CStr} {arg : CStr} {r : InviteRequest} {e : Int} {t : Sys}
    (hc : getCommand cmd = some c) (hw : c.word = lit "RNI")
    (hargs : (getArgs W cmd (rniArgs cmd)).run s = (.ok (some args), s))
    (harg : argument args 0 = some arg)
    (hrequest : (rniRequest args (rniType arg)).run s = (.ok r, s))
    (hcleared : Cleared W args (rniArgs cmd - 3) a r e s t) : ReachesInvite W cmd a s r e t
  | rui {c : Tok} {args : List CStr} {p email : CStr} {A : Authorization} {r : InviteRequest}
    {e : Int} {s₁ s₂ t : Sys} (hc : getCommand cmd = some c) (hw : c.word = lit "RUI")
    (hargs : (getArgs W cmd 4).run s = (.ok (some args), s)) (hp : AuthorizedFor a p s)
    (hstored : (storedAuthorization W p).run s = (.ok (some A), s₁))
    (hemail : argument args 0 = some email)
    (hrequest : (ruiRequest W A email).run s₁ = (.ok r, s₂))
    (hcleared : Cleared W args 1 a r e s₂ t) : ReachesInvite W cmd a s r e t
  | rfi {c : Tok} {args : List CStr} {e : Int} {s₁ s₂ t : Sys} (hc : getCommand cmd = some c)
    (hw : c.word = lit "RFI")
    (hstatus : (getRegistrationStatus W).run s = (.ok registered, s₁))
    (hargs : (getArgs W cmd 4).run s₁ = (.ok (some args), s₁))
    (hverify : (verifyTimestampsAndNonce W args 1).run s₁ = (.ok true, s₂))
    (hexpires : (getDefaultExpirationTimestamp W).run s₂ = (.ok e, t)) :
    ReachesInvite W cmd a s ⟨UserType.admin, -1, -1, none, -1, none⟩ e t

/-- The call is made with the log `pre`. -/
def AsksFor (W : World) (cmd a : CStr) (s : Sys) : Obs → List Obs → Prop
  | .createInvite e r, pre => ∃ t, ReachesInvite W cmd a s r e t ∧ t.log = pre
  | _, _ => True

theorem asksFor_of_ambient (h : o.ambient = true) : AsksFor W cmd a s o pre := by
  cases o <;> trivial

/-- A program that asks for no invite. -/
theorem makes_asksFor {α : Type} {m : M α} (hm : Within (.free (AsksFor W cmd a s)) m) :
    Makes (AsksFor W cmd a s) s₁ m :=
  .of_within hm fun _ ho _ => ho.elim asksFor_of_ambient fun h => h _

/-- **The call itself** is observed in the state it is made in. -/
theorem inviteResponse_asks
    (h : ∀ e t, (getDefaultExpirationTimestamp W).run s₁ = (.ok e, t) →
      ReachesInvite W cmd a s r e t) :
    Makes (AsksFor W cmd a s) s₁ (inviteResponse W code r) := by
  refine .bind (makes_asksFor getDefaultExpirationTimestamp_within) fun e t hexpires => ?_
  refine .bind (.bind (.observe ⟨t, h e t hexpires, rfl⟩) fun _ _ _ => ?_) fun id _ _ =>
    .bind (makes_asksFor deref_within) fun _ _ _ => makes_asksFor sprintf_within
  refine .bind (makes_asksFor tick_within) fun m _ _ => ?_
  cases W.inviteReply m (inviteJson W e r) with
  | failed => exact .pure _
  | body d => exact .pure _

theorem checkedInvite_asks
    (h : ∀ e t, Cleared W args k a r e s₁ t → ReachesInvite W cmd a s r e t) :
    Makes (AsksFor W cmd a s) s₁ (checkedInvite W code args k a r) := by
  refine .bind (makes_asksFor (verifyTimestampsAndNonce_within trivial)) fun ok s₂ hverify =>
    .ite (fun hok => ?_) fun _ => .pure _
  subst hok
  refine .bind (makes_asksFor (canUseLock_within fun _ => fun _ => trivial)) fun ok s₃ huse =>
    .ite (fun hok => ?_) fun _ => .pure _
  subst hok
  refine .bind (makes_asksFor canCreateInvite_within) fun ok s₄ hcan =>
    .ite (fun hok => ?_) fun _ => .pure _
  subst hok
  exact inviteResponse_asks fun e t hexpires => h e t ⟨s₂, s₃, s₄, hverify, huse, hcan, hexpires⟩

/-- A command that asks for invites with its arguments only. -/
theorem withArgs_asks {m : M (Option CStr)} {k : List CStr → M (Option CStr)}
    (hm : Makes (AsksFor W cmd a s) s₁ m)
    (hk : ∀ l, (getArgs W cmd n).run s₁ = (.ok (some l), s₁) →
      Makes (AsksFor W cmd a s) s₁ (k l)) :
    Makes (AsksFor W cmd a s) s₁ (getArgs W cmd n >>= fun args => match args with
      | none => m
      | some args => k args) :=
  fetched_makes (makes_asksFor getArgs_within) hm hk

theorem nak_asks {x : Option CStr} :
    Makes (AsksFor W cmd a s) s₁ (do freeCommand c; return x) :=
  makes_asksFor (.bind freeCommand_within fun _ => .pure _)

theorem reset_asks {x : Option CStr} : Makes (AsksFor W cmd a s) s₁
    (do freeCommand c; setBLEUserStateToConnecting W; return x) :=
  makes_asksFor (.bind freeCommand_within fun _ =>
    .bind (setBLEUserStateToConnecting_within trivial) fun _ => .pure _)

theorem commandRNI_asks (hc : getCommand cmd = some c) (hw : c.word = lit "RNI") :
    Makes (AsksFor W cmd a s) s (commandRNI W c cmd a) := by
  refine withArgs_asks nak_asks fun args hargs => .bind (makes_asksFor argAt_within)
    fun arg s₁ hread => ?_
  obtain ⟨harg, rfl⟩ := argAt_ok.1 hread
  refine .bind (makes_asksFor rniRequest_within) fun r s₂ hrequest =>
    .bind ?_ fun _ _ _ => reset_asks
  obtain ⟨rfl, -⟩ := rniRequest_ok hrequest
  exact checkedInvite_asks fun _ _ hcleared => .rni hc hw hargs harg hrequest hcleared

theorem commandRUI_asks (hc : getCommand cmd = some c) (hw : c.word = lit "RUI") :
    Makes (AsksFor W cmd a s) s (commandRUI W c cmd a) := by
  refine withArgs_asks nak_asks fun args hargs => .bind (makes_asksFor getUserState_within)
    fun state s₁ hstate => .ite (fun _ => .pure _) fun hauth => ?_
  obtain ⟨⟨x, hx, rfl⟩, rfl⟩ := getUserState_ok.1 hstate
  refine .bind (makes_asksFor getPhoneId_within) fun phone s₂ hphone => ?_
  obtain ⟨⟨y, hy, rfl⟩, rfl⟩ := getPhoneId_ok.1 hphone
  rw [hx, Option.some.injEq] at hy
  subst hy
  by_cases hlen : x.phoneId.length ≠ 0
  · have hp : AuthorizedFor a x.phoneId s₂ :=
      ⟨⟨x, hx, not_not.1 hauth, rfl⟩, fun hnil => hlen (by rw [hnil]; rfl)⟩
    rw [if_pos hlen]
    refine .bind (makes_asksFor storedAuthorization_within) fun A s₃ hstored => ?_
    cases A with
    | none => exact .pure _
    | some A =>
      refine .bind (makes_asksFor argAt_within) fun email s₄ hread => ?_
      obtain ⟨hemail, rfl⟩ := argAt_ok.1 hread
      refine .bind (makes_asksFor ruiRequest_within) fun r s₅ hrequest =>
        .bind ?_ fun _ _ _ => reset_asks
      exact checkedInvite_asks fun _ _ hcleared =>
        .rui hc hw hargs hp hstored hemail hrequest hcleared
  · rw [if_neg hlen]
    exact .pure _

theorem commandRFI_asks (hc : getCommand cmd = some c) (hw : c.word = lit "RFI") :
    Makes (AsksFor W cmd a s) s (commandRFI W c cmd) := by
  refine .bind (makes_asksFor (getRegistrationStatus_within trivial)) fun status s₁ hstatus =>
    .ite (fun _ => nak_asks) fun hregistered => ?_
  obtain rfl := not_not.1 hregistered
  refine withArgs_asks nak_asks fun args hargs => .bind ?_ fun _ _ _ => nak_asks
  refine .bind (makes_asksFor (verifyTimestampsAndNonce_within trivial)) fun ok s₂ hverify =>
    .ite (fun hok => ?_) fun _ => .pure _
  subst hok
  exact inviteResponse_asks fun e t hexpires => .rfi hc hw hstatus hargs hverify hexpires

/-- **Whoever asks for an invite has come the way there.** -/
theorem checkCommand_asks : Makes (AsksFor W cmd a s) s (checkCommand W cmd a) := by
  refine .bind (makes_asksFor deref_within) fun c s₁ hderef => ?_
  obtain ⟨hc, rfl⟩ := deref_ok.1 hderef
  refine .ite (fun _ => makes_asksFor (commandSAC_within trivial trivial trivial
    (fun _ _ _ => trivial) fun _ _ _ => trivial)) fun _ => ?_
  refine .ite (fun _ => makes_asksFor (commandDoor_within (unlockLock_within trivial fun _ =>
    trivial) trivial trivial fun _ _ => trivial)) fun _ => ?_
  refine .ite (fun _ => makes_asksFor (commandDoor_within (lockLock_within trivial fun _ =>
    trivial) trivial trivial fun _ _ => trivial)) fun _ => ?_
  refine .ite (fun hw => commandRNI_asks hc hw) fun _ => ?_
  refine .ite (fun hw => commandRFI_asks hc hw) fun _ => ?_
  refine .ite (fun hw => commandRUI_asks hc hw) fun _ => ?_
  refine .ite (fun _ => makes_asksFor (commandSNT_within trivial fun _ _ => trivial)) fun _ => ?_
  refine .ite (fun _ => makes_asksFor (commandRDS_within trivial trivial trivial fun _ =>
    trivial)) fun _ => ?_
  exact makes_asksFor (.bind (setBLEUserStateToConnecting_within trivial) fun _ => .pure _)

/-- The call of a run that made one. -/
theorem reaches_of_made {outcome : Except Fault (Option CStr)}
    (h : (checkCommand W cmd a).run s = (outcome, s'))
    (hmade : Made s s' (.createInvite e r) pre) :
    ∃ t, ReachesInvite W cmd a s r e t ∧ t.log = pre :=
  checkCommand_asks.of_run h hmade

/-- What a run from an empty log observed last. -/
theorem made_of_log {α : Type} {m : M α} (hs : s.log = []) (h : (m.run s).2.log = o :: pre) :
    Made s (m.run s).2 o pre :=
  ⟨hs ▸ List.nil_suffix, by rw [h]⟩

/-! ## The object posted -/

/-- The object holds this number under this name. -/
def Posts (W : World) (e : Int) (r : InviteRequest) (name : CStr) (v : Int) : Prop :=
  (name, Json.number v) ∈ inviteJson W e r

/-- The numbers of the object are the expiration, the type, and the fields
that are not left out. -/
theorem posts_iff {name : CStr} {v : Int} : Posts W e r name v ↔
    (name = lit "expiration" ∧ v = e) ∨ (name = lit "type" ∧ v = r.userType) ∨
      (r.validFrom ≠ -1 ∧ name = lit "valid_from" ∧ v = r.validFrom) ∨
      (r.validFrom ≠ -1 ∧ name = lit "valid_until" ∧ v = r.validUntil) ∨
      (r.oneDay ≠ -1 ∧ name = lit "one_day" ∧ v = r.oneDay) := by
  obtain ⟨userType, validFrom, validUntil, weekdaysStr, oneDay, emailLocked⟩ := r
  cases emailLocked <;> cases weekdaysStr <;>
    simp only [Posts, inviteJson, List.mem_append, List.mem_ite_nil_right, List.mem_cons,
      List.not_mem_nil, Prod.mk.injEq, Json.number.injEq, reduceCtorEq, and_false, or_false,
      false_or, or_assoc, ne_eq]

theorem posts_validFrom {v : Int} :
    Posts W e r (lit "valid_from") v ↔ r.validFrom ≠ -1 ∧ v = r.validFrom := by
  simp [posts_iff, lit]

/-- Whether there is an end is decided by the beginning. -/
theorem posts_validUntil {v : Int} :
    Posts W e r (lit "valid_until") v ↔ r.validFrom ≠ -1 ∧ v = r.validUntil := by
  simp [posts_iff, lit]

theorem posts_oneDay {v : Int} :
    Posts W e r (lit "one_day") v ↔ r.oneDay ≠ -1 ∧ v = r.oneDay := by
  simp [posts_iff, lit]

/-! ## The limits of an `RNI` -/

/-- The type of user an `RNI` names. -/
def rniNamed (cmd : CStr) : Option UserType := (argument (arguments cmd) 0).map rniType

/-- The object posted holds the numbers of the command: both ends of the
window for a tenant and a periodic user, and the day for a user of one
day. -/
structure CarriesLimits (W : World) (cmd : CStr) (e : Int) (r : InviteRequest) : Prop where
  window : rniNamed cmd = some UserType.tenant ∨ rniNamed cmd = some UserType.periodicUser →
    ∃ x y, argument (arguments cmd) 1 = some x ∧ argument (arguments cmd) 2 = some y ∧
      Posts W e r (lit "valid_from") (strtol x) ∧ Posts W e r (lit "valid_until") (strtol y)
  oneDay : rniNamed cmd = some UserType.oneTimeUser →
    ∃ x, argument (arguments cmd) 1 = some x ∧ Posts W e r (lit "one_day") (strtol x)

/-- The first number behind a type with limits is not `-1`. -/
def NoSentinel (cmd : CStr) : Prop :=
  (rniNamed cmd = some UserType.tenant ∨ rniNamed cmd = some UserType.periodicUser ∨
    rniNamed cmd = some UserType.oneTimeUser) →
  ∀ x, argument (arguments cmd) 1 = some x → strtol x ≠ -1

theorem Parsed.of_given {asked : UserType} (h : Parsed args asked r) (hargs : Given cmd n args) :
    Parsed (arguments cmd) asked r := by
  refine ⟨h.type, fun ht => ?_, fun ht => ?_, h.passed⟩
  · obtain ⟨x, y, hx, hy, hfields⟩ := h.window ht
    exact ⟨x, y, hargs.argument hx, hargs.argument hy, hfields⟩
  · obtain ⟨x, hx, hday⟩ := h.oneDay ht
    exact ⟨x, hargs.argument hx, hday⟩

/-- The invite an `RNI` asks for is the one its words name. -/
theorem ReachesInvite.parsed (h : ReachesInvite W cmd a s r e t)
    (hw : word cmd = some (lit "RNI")) :
    ∃ asked, rniNamed cmd = some asked ∧ Parsed (arguments cmd) asked r := by
  cases h with
  | rni hc _ hargs harg hrequest _ =>
    have hgiven := given_of_getArgs hargs
    refine ⟨_, ?_, (rniRequest_ok hrequest).2.of_given hgiven⟩
    rw [rniNamed, hgiven.argument harg]
    rfl
  | rui hc hword =>
    rw [word, hc, Option.map_some, hword] at hw
    exact absurd hw (by decide)
  | rfi hc hword =>
    rw [word, hc, Option.map_some, hword] at hw
    exact absurd hw (by decide)

/-- **The object carries the limits of the command exactly where no first
number is the sentinel.** -/
theorem carriesLimits_iff {outcome : Except Fault (Option CStr)}
    (hw : word cmd = some (lit "RNI")) (h : (checkCommand W cmd a).run s = (outcome, s'))
    (hmade : Made s s' (.createInvite e r) pre) : CarriesLimits W cmd e r ↔ NoSentinel cmd := by
  obtain ⟨t, hreach, -⟩ := reaches_of_made h hmade
  obtain ⟨asked, hasked, hparsed⟩ := hreach.parsed hw
  constructor
  · rintro ⟨hwindow, hday⟩ htype x hx
    rcases htype with htype | htype | htype
    · obtain ⟨x', y, hx', -, hpost, -⟩ := hwindow (Or.inl htype)
      obtain rfl := Option.some.inj (hx.symm.trans hx')
      obtain ⟨hne, heq⟩ := posts_validFrom.1 hpost
      rwa [heq]
    · obtain ⟨x', y, hx', -, hpost, -⟩ := hwindow (Or.inr htype)
      obtain rfl := Option.some.inj (hx.symm.trans hx')
      obtain ⟨hne, heq⟩ := posts_validFrom.1 hpost
      rwa [heq]
    · obtain ⟨x', hx', hpost⟩ := hday htype
      obtain rfl := Option.some.inj (hx.symm.trans hx')
      obtain ⟨hne, heq⟩ := posts_oneDay.1 hpost
      rwa [heq]
  · intro hno
    refine ⟨fun htype => ?_, fun htype => ?_⟩
    · rw [hasked, Option.some.injEq, Option.some.injEq] at htype
      obtain ⟨x, y, hx, hy, hfrom, huntil⟩ := hparsed.window htype
      have hne : strtol x ≠ -1 := by
        refine hno ?_ x hx
        rw [hasked, Option.some.injEq, Option.some.injEq]
        exact htype.elim Or.inl fun h => Or.inr (Or.inl h)
      exact ⟨x, y, hx, hy, posts_validFrom.2 ⟨hfrom ▸ hne, hfrom.symm⟩,
        posts_validUntil.2 ⟨hfrom ▸ hne, huntil.symm⟩⟩
    · have hone := hno (Or.inr (Or.inr htype))
      rw [hasked, Option.some.injEq] at htype
      obtain ⟨x, hx, hday⟩ := hparsed.oneDay htype
      exact ⟨x, hx, posts_oneDay.2 ⟨hday ▸ hone x hx, hday.symm⟩⟩

/-- The administrator asks for an invite of a tenant. -/
theorem asks_for_tenant :
    ((checkCommand (World.still .esp32s3 100) (lit "RNI 2 150 500 90 200 1")
      (lit "192.168.1.5")).run adminAuthorized).2.log =
      [.createInvite 3700 ⟨UserType.tenant, 150, 500, none, -1, none⟩, .consult (lit "phone")] := by
  decide +kernel

/-- Its window is posted. -/
theorem carriesLimits_tenant :
    CarriesLimits (World.still .esp32s3 100) (lit "RNI 2 150 500 90 200 1") 3700
      ⟨UserType.tenant, 150, 500, none, -1, none⟩ := by
  refine (carriesLimits_iff (by decide) Prod.mk.eta.symm (made_of_log rfl asks_for_tenant)).2
    fun _ x hx => ?_
  have harg : argument (arguments (lit "RNI 2 150 500 90 200 1")) 1 = some (lit "150") := by
    decide
  rw [← Option.some.inj (harg.symm.trans hx)]
  decide

theorem asks_from_sentinel :
    ((checkCommand (World.still .esp32s3 100) (lit "RNI 2 -1 500 90 200 1")
      (lit "192.168.1.5")).run adminAuthorized).2.log =
      [.createInvite 3700 ⟨UserType.tenant, -1, 500, none, -1, none⟩, .consult (lit "phone")] := by
  decide +kernel

/-- **A tenant asked for from `-1` to `500`** is posted without limits. -/
theorem not_always_carriesLimits :
    ¬ ∀ (W : World) (cmd a : CStr) (s s' : Sys) (outcome : Except Fault (Option CStr)) (e : Int)
      (r : InviteRequest) (pre : List Obs), word cmd = some (lit "RNI") →
      (checkCommand W cmd a).run s = (outcome, s') → Made s s' (.createInvite e r) pre →
      CarriesLimits W cmd e r := by
  intro hall
  have hcarries := hall _ _ _ _ _ _ _ _ _ (by decide) Prod.mk.eta.symm
    (made_of_log rfl asks_from_sentinel)
  obtain ⟨x, y, -, -, hpost, -⟩ := hcarries.window (Or.inl (by decide))
  exact absurd (posts_validFrom.1 hpost).1 (by decide)

/-! ## No invite -/

/-- The ways in which `create_invite` can fail: the request does, or the
answer is not a success, or has no identifier. -/
def FailedReply (reply : HttpReply InviteData) : Prop :=
  reply = .failed ∨ ∃ d, reply = .body d ∧ (d.success = false ∨ d.inviteID = none)

/-- **`create_invite` returns null exactly then.** -/
theorem createInvite_null_iff :
    (createInvite W e r).run t = (.ok none, (t.noted (.createInvite e r)).ticked) ↔
      FailedReply (W.inviteReply t.moment (inviteJson W e r)) := by
  rw [createInvite, run_observe_bind, run_tick_bind]
  rcases hreply : W.inviteReply t.moment (inviteJson W e r) with - | d
  · simp only [Sys.noted, hreply]
    exact ⟨fun _ => Or.inl rfl, fun _ => rfl⟩
  · simp only [Sys.noted, hreply, run_pure, Prod.mk.injEq, Except.ok.injEq]
    rcases hsuccess : d.success with _ | _
    · exact ⟨fun _ => Or.inr ⟨d, rfl, Or.inl hsuccess⟩, fun _ => ⟨rfl, trivial⟩⟩
    · constructor
      · rintro ⟨hnone, -⟩
        exact Or.inr ⟨d, rfl, Or.inr hnone⟩
      · rintro (hfailed | ⟨d', hd', hfails⟩)
        · cases hfailed
        · obtain rfl := HttpReply.body.inj hd'
          rw [hsuccess] at hfails
          exact ⟨hfails.resolve_left Bool.noConfusion, trivial⟩

/-- The reply is measured all the same. -/
theorem inviteResponse_fault (hexpires : (getDefaultExpirationTimestamp W).run s = (.ok e, t))
    (hfails : FailedReply (W.inviteReply t.moment (inviteJson W e r))) :
    (inviteResponse W code r).run s =
      (.error .nullDeref, (t.noted (.createInvite e r)).ticked) := by
  rw [inviteResponse, run_bind_ok hexpires, run_bind_ok (createInvite_null_iff.2 hfails)]
  rfl

theorem checkedInvite_fault (h : Cleared W args k a r e s t)
    (hfails : FailedReply (W.inviteReply t.moment (inviteJson W e r))) :
    (checkedInvite W code args k a r).run s =
      (.error .nullDeref, (t.noted (.createInvite e r)).ticked) := by
  obtain ⟨s₁, s₂, s₃, hverify, huse, hcan, hexpires⟩ := h
  rw [checkedInvite, run_bind_ok hverify, if_pos rfl, run_bind_ok huse, if_pos rfl,
    run_bind_ok hcan, if_pos rfl]
  exact inviteResponse_fault hexpires hfails

theorem word_of_getCommand {w : CStr} (hc : getCommand cmd = some c) (hw : c.word = w) :
    word cmd = some w := by
  rw [word, hc, Option.map_some, hw]

/-- **A command that reaches `create_invite` in vain ends the program.** -/
theorem ReachesInvite.fault (h : ReachesInvite W cmd a s r e t)
    (hfails : FailedReply (W.inviteReply t.moment (inviteJson W e r))) :
    (checkCommand W cmd a).run s = (.error .nullDeref, (t.noted (.createInvite e r)).ticked) := by
  cases h with
  | rni hc hw hargs harg hrequest hcleared =>
    obtain ⟨c, hc', -, hdispatch⟩ := exists_dispatch (W := W) (a := a) (word_of_getCommand hc hw)
    have hrun : (commandRNI W c cmd a).run s =
        (.error .nullDeref, (t.noted (.createInvite e r)).ticked) := by
      rw [commandRNI, run_bind_ok hargs, run_bind_ok (argAt_ok.2 ⟨harg, rfl⟩)]
      exact (run_bind_ok hrequest).trans (run_bind_error (checkedInvite_fault hcleared hfails))
    rw [hdispatch]
    exact hrun
  | rui hc hw hargs hp hstored hemail hrequest hcleared =>
    obtain ⟨c, hc', -, hdispatch⟩ := exists_dispatch (W := W) (a := a) (word_of_getCommand hc hw)
    obtain ⟨hstate, hphone⟩ := hp.getters
    have hrun : (commandRUI W c cmd a).run s =
        (.error .nullDeref, (t.noted (.createInvite e r)).ticked) := by
      rw [commandRUI, run_bind_ok hargs]
      dsimp only
      rw [run_bind_ok hstate, if_neg (not_not.2 rfl), run_bind_ok hphone]
      dsimp only
      rw [run_bind_ok hstored]
      dsimp only
      rw [run_bind_ok (argAt_ok.2 ⟨hemail, rfl⟩), run_bind_ok hrequest]
      exact run_bind_error (checkedInvite_fault hcleared hfails)
    rw [hdispatch]
    exact hrun
  | rfi hc hw hstatus hargs hverify hexpires =>
    obtain ⟨c, hc', -, hdispatch⟩ := exists_dispatch (W := W) (a := a) (word_of_getCommand hc hw)
    have hrun : (commandRFI W c cmd).run s =
        (.error .nullDeref, (t.noted (.createInvite e
          ⟨UserType.admin, -1, -1, none, -1, none⟩)).ticked) := by
      rw [commandRFI, run_bind_ok hstatus, if_neg (not_not.2 rfl), run_bind_ok hargs]
      dsimp only
      refine run_bind_error ?_
      rw [rfiResponse, run_bind_ok hverify, if_pos rfl]
      exact inviteResponse_fault hexpires hfails
    rw [hdispatch]
    exact hrun

/-- The failure is answered like every other refusal: the reply is `NAK`,
and the state is the one `create_invite` left, but for the reset that ends
an `RNI` and an `RUI`. -/
def AnswersNak (W : World) (cmd a : CStr) (s t' : Sys) : Prop :=
  ∃ s', (checkCommand W cmd a).run s = (.ok (some nakMessage), s') ∧
    if word cmd = some (lit "RFI") then s' = t'
    else (setBLEUserStateToConnecting W).run t' = (.ok (), s')

/-- **No failure of `create_invite` is answered with `NAK`**: every one
ends in a null pointer that is measured. -/
theorem failed_invite_not_answered (h : ReachesInvite W cmd a s r e t)
    (hfails : FailedReply (W.inviteReply t.moment (inviteJson W e r))) :
    (checkCommand W cmd a).run s = (.error .nullDeref, (t.noted (.createInvite e r)).ticked) ∧
      ¬ AnswersNak W cmd a s (t.noted (.createInvite e r)).ticked := by
  refine ⟨h.fault hfails, ?_⟩
  rintro ⟨s', hrun, -⟩
  rw [h.fault hfails] at hrun
  cases hrun

/-- The administrator asks for an invite, and reaches `create_invite`. -/
theorem reachesInvite_adminAuthorized :
    ∃ t, ReachesInvite (World.still .esp32s3 100) (lit "RNI 1 90 200 1") (lit "192.168.1.5")
      adminAuthorized ⟨UserType.owner, -1, -1, none, -1, none⟩ 3700 t := by
  obtain ⟨t, hreach, -⟩ := reaches_of_made Prod.mk.eta.symm
    (made_of_log rfl invite_adminAuthorized)
  exact ⟨t, hreach⟩

/-- The server does not answer, and the program ends. -/
theorem failed_invite_adminAuthorized :
    ∃ t', (checkCommand (World.still .esp32s3 100) (lit "RNI 1 90 200 1")
      (lit "192.168.1.5")).run adminAuthorized = (.error .nullDeref, t') ∧
      ¬ AnswersNak (World.still .esp32s3 100) (lit "RNI 1 90 200 1") (lit "192.168.1.5")
        adminAuthorized t' := by
  obtain ⟨t, hreach⟩ := reachesInvite_adminAuthorized
  exact ⟨_, failed_invite_not_answered hreach (Or.inl rfl)⟩

theorem not_always_answersNak :
    ¬ ∀ (W : World) (cmd a : CStr) (s t : Sys) (r : InviteRequest) (e : Int),
      ReachesInvite W cmd a s r e t → FailedReply (W.inviteReply t.moment (inviteJson W e r)) →
      AnswersNak W cmd a s (t.noted (.createInvite e r)).ticked := by
  intro hall
  obtain ⟨t, hreach⟩ := reachesInvite_adminAuthorized
  obtain ⟨s', hrun, -⟩ := hall _ _ _ _ _ _ _ hreach (Or.inl rfl)
  rw [hreach.fault (Or.inl rfl)] at hrun
  cases hrun

end SmartLock
