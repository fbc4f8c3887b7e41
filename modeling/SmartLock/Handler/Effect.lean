import SmartLock.Handler.Gate

/-!
# What a reply tells

A command that returned is read back from its reply: `ACK` says that the
effect took place, and nothing else does; what any other reply starts with
names the command. With the gate this is the whole of what a client may
conclude, and the last theorem puts it together.
-/

namespace SmartLock

open Prog

variable {W : World} {a b cmd code p : CStr} {c : Tok} {s s₁ s₂ s' : Sys} {n : ℕ}
variable {args : List CStr} {r : Option CStr} {o : Obs} {pre : List Obs} {P : Obs → Prop}

/-! ## Effects -/

/-- An observation of `P` was made. -/
def Did (P : Obs → Prop) (s s' : Sys) : Prop := ∃ o pre, P o ∧ Made s s' o pre

theorem not_did (h : Grows (fun o => ¬ P o) s s') : ¬ Did P s s' :=
  fun ⟨_, _, ho, hmade⟩ => h.of_made hmade ho

/-- The footprint of a program that makes none of the observations of
`P`. -/
def without (P : Obs → Prop) : Footprint :=
  ⟨fun _ => True, True, True, True, True, True, fun o => ¬ P o⟩

theorem without_grows (hP : ∀ o, o.ambient = true → ¬ P o) (h : (without P).Rel s s') :
    Grows (fun o => ¬ P o) s s' := h.log.mono fun o ho => ho.elim (hP o) id

/-- An effect took place exactly if the reply is `ACK`. -/
theorem ackIf_iff {ack : Bool} (hyes : ack = true → Did P s s')
    (hno : ack = false → Grows (fun o => ¬ P o) s s') :
    ackIf ack = some ackMessage ↔ Did P s s' := by
  rw [ackIf_eq_ack]
  refine ⟨hyes, fun hdid => ?_⟩
  by_contra hack
  exact not_did (hno (Bool.eq_false_iff.2 hack)) hdid

/-- Without arguments there is no effect and no `ACK`. -/
theorem nak_iff (hr : r = some nakMessage) (hs : s' = s) : r = some ackMessage ↔ Did P s s' := by
  subst hr hs
  exact ⟨fun h => absurd h (by decide), fun h => absurd h (not_did (Grows.refl _ _))⟩

/-! ## The commands answered by `ACK` -/

theorem doorAck_ok {act : M Unit} {ack : Bool} (h : (doorAck W act args a).run s = (.ok ack, s')) :
    (ack = false ∧ checking.Rel s s') ∨
      (ack = true ∧ ∃ s₁, checking.Rel s s₁ ∧ act.run s₁ = (.ok (), s')) := by
  obtain ⟨ok, s₁, hverify, h⟩ := bind_ok.1 h
  have h₁ : checking.Rel s s₁ := (verifyTimestampsAndNonce_within trivial).of_ok hverify
  cases ok with
  | false =>
    cases h
    exact .inl ⟨rfl, h₁⟩
  | true =>
    obtain ⟨ok, s₂, huse, h⟩ := bind_ok.1 h
    have h₂ := (canUseLock_within (F := checking) fun p => ⟨p, rfl⟩).of_ok huse
    cases ok with
    | false =>
      cases h
      exact .inl ⟨rfl, h₁.trans h₂⟩
    | true =>
      obtain ⟨_, s₃, hact, h⟩ := bind_ok.1 h
      cases h
      exact .inr ⟨rfl, s₂, h₁.trans h₂, hact⟩

/-- **`RUD` and `RLD` answer `ACK` exactly if they acted on the door.** -/
theorem commandDoor_ack {act : M Unit} {v : Int} (ho : o.ambient = false)
    (hc : ∀ p, Obs.consult p ≠ o)
    (hact : act = (do let _ ← setLockState W v; observe o))
    (h : (commandDoor W act c cmd a).run s = (.ok r, s')) :
    r = some ackMessage ↔ Did (· = o) s s' := by
  have hquiet : ∀ o', o'.ambient = true → ¬ o' = o := fun o' h heq => by
    rw [heq, ho] at h
    cases h
  rcases (commandDoor_ok h).2 with ⟨_, hs, hr⟩ | ⟨args, ack, s₁, _, hack, hreset, rfl⟩
  · exact nak_iff hr hs
  · have hlast : (without (· = o)).Rel s₁ s' :=
      (setBLEUserStateToConnecting_within trivial).of_ok hreset
    have hgrows {t : Sys} (h : checking.Rel s t) : Grows (fun o' => ¬ o' = o) s t :=
      h.log.mono fun o' ho' => ho'.elim (hquiet o') fun ⟨p, hp⟩ heq => hc p (hp ▸ heq)
    rcases doorAck_ok hack with ⟨rfl, h₁⟩ | ⟨rfl, s₂, h₂, hrun⟩
    · exact ackIf_iff nofun fun _ => (hgrows h₁).trans (without_grows hquiet hlast)
    · refine ackIf_iff (fun _ => ?_) nofun
      rw [hact] at hrun
      obtain ⟨_, s₃, hset, hobs⟩ := bind_ok.1 hrun
      cases hobs
      refine ⟨o, s₃.log, rfl, ?_, ?_⟩
      · exact (hgrows h₂).suffix.trans (setLockState_suffix hset)
      · exact (without_grows hquiet hlast).suffix

/-- What `SNT` may touch but for the notification. -/
theorem sntAck_ok {ack : Bool} (h : (sntAck W args a).run s = (.ok ack, s')) :
    (ack = false ∧ checking.Rel s s') ∨
      (ack = true ∧ ∃ devid s₁, checking.Rel s s₁ ∧ s' = s₁.noted (.notification devid)) := by
  obtain ⟨ok, s₁, hverify, h⟩ := bind_ok.1 h
  have h₁ : checking.Rel s s₁ := (verifyTimestampsAndNonce_within trivial).of_ok hverify
  cases ok with
  | false =>
    cases h
    exact .inl ⟨rfl, h₁⟩
  | true =>
    obtain ⟨state, s₂, hstate, hrest⟩ := bind_ok.1 h
    have h₂ := (getUserState_within (F := checking)).of_ok hstate
    by_cases hauth : state = .authorized
    · rw [if_pos hauth] at hrest
      simp only [bind_ok, argAt_ok] at hrest
      obtain ⟨devid, _, ⟨_, rfl⟩, _, s₃, hsend, hret⟩ := hrest
      cases hret
      obtain ⟨_, s₄, hurl, hobs⟩ := bind_ok.1 hsend
      cases hobs
      exact .inr ⟨rfl, devid, s₄, (h₁.trans h₂).trans (sprintf_within.of_ok hurl), rfl⟩
    · rw [if_neg hauth] at hrest
      cases hrest
      exact .inl ⟨rfl, h₁.trans h₂⟩

/-- **`SNT` answers `ACK` exactly if it sent the notification.** -/
theorem commandSNT_ack (h : (commandSNT W c cmd a).run s = (.ok r, s')) :
    r = some ackMessage ↔ Did (fun o => ∃ devid, o = .notification devid) s s' := by
  rcases (commandSNT_ok h).2 with ⟨_, hs, hr⟩ | ⟨args, ack, _, hack, rfl⟩
  · exact nak_iff hr hs
  · rcases sntAck_ok hack with ⟨rfl, h₁⟩ | ⟨rfl, devid, s₁, h₁, rfl⟩
    · refine ackIf_iff nofun fun _ => h₁.log.mono fun o ho => ?_
      rintro ⟨devid, rfl⟩
      rcases ho with ho | ⟨p, hp⟩
      · cases ho
      · cases hp
    · exact ackIf_iff (fun _ => ⟨_, s₁.log, ⟨devid, rfl⟩, h₁.log.suffix, List.suffix_refl _⟩) nofun

/-! ## `SAC` -/

/-- What `set_user_state` makes of the record of an accepted user. -/
def UserInfo.authorize (p : CStr) (x : UserInfo) : UserInfo :=
  { x with state := .authorized, phoneId := p }

/-- What `SAC` may touch but for the record it authorizes. -/
def codeChecking : Footprint :=
  ⟨fun _ => False, False, True, False, True, False, fun o => ∃ p k, o = .masterKey p k⟩

theorem genHmac32_ok {key : Vector UInt8 32} {seed : Option (Vector UInt8 10)}
    {hmac : Vector UInt8 32} (h : (genHmac32 W key seed).run s = (.ok (some hmac), s')) :
    (∃ b, seed = some b ∧ hmac = W.hmac key b) ∧ s' = s.ticked := by
  obtain ⟨t, s₁, ht, hrest⟩ := bind_ok.1 h
  cases ht
  by_cases hfails : W.hmacFails s.moment
  · rw [if_pos hfails] at hrest
    cases hrest
  · rw [if_neg hfails] at hrest
    cases seed with
    | none => cases hrest
    | some b =>
      cases hrest
      exact ⟨⟨b, rfl, rfl⟩, rfl⟩

/-- What the search for an authorization may touch. -/
def searching : Footprint := ⟨fun _ => False, False, False, False, True, False, fun _ => False⟩

/-- **A code is accepted if it is the HMAC of the seed under the key found
for the phone.** -/
theorem checkAuthorizationCode_ok {seed : Option (Vector UInt8 10)}
    (h : (checkAuthorizationCode W p code seed).run s = (.ok true, s')) :
    ∃ key b, seed = some b ∧ base64Encode (W.hmac key b).toList = some code ∧
      s'.trace = .masterKey p key :: s.trace := by
  obtain ⟨found, s₁, hfind, hrest⟩ := bind_ok.1 h
  have h₁ := (findAuthorization_within (F := searching) trivial).of_ok hfind
  cases found with
  | none => cases hrest
  | some auth =>
    obtain ⟨_, s₂, hnote, hgen⟩ := bind_ok.1 hrest
    cases hnote
    obtain ⟨hmac, s₃, hhmac, hcompare⟩ := bind_ok.1 hgen
    cases hmac with
    | none => cases hcompare
    | some hmac =>
      obtain ⟨⟨b, hb, rfl⟩, rfl⟩ := genHmac32_ok hhmac
      obtain ⟨text, s₄, hderef, hret⟩ := bind_ok.1 hcompare
      obtain ⟨htext, rfl⟩ := deref_ok.1 hderef
      have heq : (text == code) = true := Except.ok.inj (Prod.mk.inj hret).1
      have hs := (Prod.mk.inj hret).2.symm
      refine ⟨auth.masterKey, b, hb, by rw [htext, eq_of_beq heq], ?_⟩
      rw [hs, ← trace_eq (fun _ => id) h₁]
      exact trace_noted rfl

variable (W) in
/-- The code is the HMAC of the seed of the session. -/
def RightCode (a code : CStr) (key : Vector UInt8 32) (s : Sys) : Prop :=
  ∃ x b, s.user a = some x ∧ x.seed = some b ∧ base64Encode (W.hmac key b).toList = some code

/-- The verification of the stamps changes the nonce list at most. -/
def verifying : Footprint := ⟨fun _ => False, False, True, False, False, False, fun _ => False⟩

theorem sacValid_ok {valid : Bool} (h : (sacValid W args a).run s = (.ok valid, s')) :
    (valid = false ∧ codeChecking.Rel s s') ∨
      (valid = true ∧ ∃ p code key s₁ s₂, codeChecking.Rel s s₁ ∧ RightCode W a code key s ∧
        s₁.trace = .masterKey p key :: s.trace ∧
        (setUserState W a .authorized p).run s₁ = (.ok (), s₂) ∧
        s' = s₂.noted (.sac a p code)) := by
  simp only [sacValid, bind_ok, argAt_ok] at h
  obtain ⟨p, _, ⟨_, rfl⟩, code, _, ⟨_, rfl⟩, ok, s₁, hverify, hrest⟩ := h
  have h₁ := (verifyTimestampsAndNonce_within (F := codeChecking) trivial).of_ok hverify
  cases ok with
  | false =>
    cases hrest
    exact .inl ⟨rfl, h₁⟩
  | true =>
    obtain ⟨seed, s₂, hseed, hgoes⟩ := bind_ok.1 hrest
    obtain ⟨x, _, hx, hret⟩ := bind_ok.1 hseed
    obtain ⟨hx, rfl⟩ := derefUser_ok.1 hx
    cases hret
    obtain ⟨ok, s₃, hcheck, hdone⟩ := bind_ok.1 hgoes
    have h₃ := (checkAuthorizationCode_within (F := codeChecking) trivial
      fun k => ⟨p, k, rfl⟩).of_ok hcheck
    have hrel : codeChecking.Rel _ s₃ := h₁.trans h₃
    cases ok with
    | false =>
      cases hdone
      exact .inl ⟨rfl, hrel⟩
    | true =>
      obtain ⟨_, s₄, hset, hret⟩ := bind_ok.1 hdone
      cases hret
      obtain ⟨key, b, hb, hcode, htrace⟩ := checkAuthorizationCode_ok hcheck
      -- the verification before it leaves the session and the trace as they were
      have hquiet := (verifyTimestampsAndNonce_within (F := verifying) trivial).of_ok hverify
      rw [h₁.user_eq id fun h => h.1] at hx
      rw [trace_eq (fun _ => id) hquiet] at htrace
      exact .inr ⟨rfl, p, code, key, s₃, s₄, hrel, ⟨x, b, hx, hb, hcode⟩, htrace, hset, rfl⟩

/-- A `SAC` that returned was refused, and all sessions are as they were,
or was accepted, and its user is authorized. -/
theorem commandSAC_effect (h : (commandSAC W c cmd a).run s = (.ok r, s')) :
    (r = some nakMessage ∧ (∀ b, s'.user b = s.user b) ∧
        Grows (fun o => ¬ ∃ p code, o = .sac a p code) s s') ∨
      (r = some ackMessage ∧ ∃ p code key, RightCode W a code key s ∧
        s'.trace = .sac a p code :: .masterKey p key :: s.trace ∧
        (∃ pre, Made s s' (.sac a p code) pre) ∧
        (∀ b, hashKey b = hashKey a → s'.user b = (s.user b).map (UserInfo.authorize p)) ∧
        ∀ b, hashKey b ≠ hashKey a → s'.user b = s.user b) := by
  rcases (commandSAC_ok h).2 with ⟨_, rfl, rfl⟩ | ⟨args, valid, _, hvalid, rfl⟩
  · exact .inl ⟨rfl, fun _ => rfl, Grows.refl _ _⟩
  · rcases sacValid_ok hvalid with ⟨rfl, h₁⟩ |
      ⟨rfl, p, code, key, s₁, s₂, h₁, hev, htrace, hset, rfl⟩
    · refine .inl ⟨rfl, fun b => h₁.user_eq id fun h => h.1, h₁.log.mono fun o ho => ?_⟩
      rintro ⟨p, code, rfl⟩
      rcases ho with ho | ⟨q, k, hk⟩
      · cases ho
      · cases hk
    · have huser (b : CStr) : s₁.user b = s.user b := h₁.user_eq id fun h => h.1
      have h₂ := setUserState_writes hset
      have hwrote := setUserState_ok hset
      refine .inr ⟨rfl, p, code, key, hev, ?_,
        ⟨s₂.log, h₁.log.suffix.trans h₂.log.suffix, List.suffix_refl _⟩, fun b hb => ?_,
        fun b hb => ?_⟩
      · rw [trace_noted rfl, trace_eq (fun _ => id) h₂, htrace]
      · obtain ⟨x, b', hx, _⟩ := hev
        rw [user_noted, Sys.user_congr hb, hwrote.of_some (by rw [huser, hx]), Sys.user_congr hb, hx]
        rfl
      · rw [user_noted, hwrote.others b hb, huser]

/-! ## The sessions a command changes -/

/-- A message that names a command is handed over to it. -/
theorem exists_dispatch {w : CStr} (hw : word cmd = some w) :
    ∃ c, getCommand cmd = some c ∧ c.word = w ∧ checkCommand W cmd a =
      if w = lit "SAC" then commandSAC W c cmd a
      else if w = lit "RUD" then commandRUD W c cmd a
      else if w = lit "RLD" then commandRLD W c cmd a
      else if w = lit "RNI" then commandRNI W c cmd a
      else if w = lit "RFI" then commandRFI W c cmd
      else if w = lit "RUI" then commandRUI W c cmd a
      else if w = lit "SNT" then commandSNT W c cmd a
      else if w = lit "RDS" then commandRDS W c cmd a
      else do
        setBLEUserStateToConnecting W
        return some nakMessage := by
  obtain ⟨c, hc, rfl⟩ := Option.map_eq_some_iff.1 hw
  refine ⟨c, hc, rfl, ?_⟩
  rw [checkCommand, hc]
  rfl

/-- An accepted `SAC`. -/
def Obs.isSac : Obs → Bool
  | sac _ _ _ => true
  | _ => false

/-- What the commands other than `SAC` may touch: no record but that of
the BLE session, by its reset. -/
def unkeyed : Footprint := ⟨fun _ => False, True, True, True, False, True, fun o => o.isSac = false⟩

/-- **Only `SAC` changes a session, but for the reset.** -/
theorem checkCommand_unkeyed (h : (checkCommand W cmd a).run s = (.ok r, s'))
    (hw : word cmd ≠ some (lit "SAC")) : unkeyed.Rel s s' := by
  have hconsult (p : CStr) : unkeyed.obs (.consult p) := rfl
  have hinvite (e : Int) (q : InviteRequest) : unkeyed.obs (.createInvite e q) := rfl
  obtain ⟨c, hc, hcases⟩ := checkCommand_ok h
  rcases hcases with ⟨hsac, h⟩ | ⟨_, h⟩ | ⟨_, h⟩ | ⟨_, h⟩ | ⟨_, h⟩ | ⟨_, h⟩ | ⟨_, h⟩ | ⟨_, h⟩ |
    ⟨_, h, _⟩
  · exact absurd (by rw [word, hc, ← hsac]; rfl) hw
  · exact (commandDoor_within (unlockLock_within trivial rfl) trivial trivial hconsult).of_ok h
  · exact (commandDoor_within (lockLock_within trivial rfl) trivial trivial hconsult).of_ok h
  · exact (commandRNI_within trivial trivial hconsult hinvite).of_ok h
  · exact (commandRFI_within trivial trivial hinvite).of_ok h
  · exact (commandRUI_within trivial trivial hconsult hinvite).of_ok h
  · exact (commandSNT_within trivial fun _ => rfl).of_ok h
  · exact (commandRDS_within trivial trivial trivial rfl).of_ok h
  · exact (setBLEUserStateToConnecting_within trivial).of_ok h

/-- **An address becomes authorized only by an accepted `SAC`.** -/
theorem sac_of_authorized (h : (checkCommand W cmd a).run s = (.ok r, s'))
    (hafter : Authorized b s') (hbefore : ¬ Authorized b s) :
    hashKey b = hashKey a ∧ ∃ p code pre, Made s s' (.sac a p code) pre := by
  obtain ⟨x, hx, hstate⟩ := hafter
  by_cases hw : word cmd = some (lit "SAC")
  · obtain ⟨c, _, _, hdispatch⟩ := exists_dispatch hw
    rw [hdispatch] at h
    rcases commandSAC_effect h with ⟨_, huser, _⟩ |
      ⟨_, p, code, key, _, _, ⟨pre, hmade⟩, _, hothers⟩
    · exact absurd ⟨x, by rw [← huser, hx], hstate⟩ hbefore
    · refine ⟨?_, p, code, pre, hmade⟩
      by_contra hb
      exact hbefore ⟨x, by rw [← hothers b hb, hx], hstate⟩
  · rcases (checkCommand_unkeyed h hw).user b id with huser | ⟨_, _, huser⟩
    · exact absurd ⟨x, by rw [← huser, hx], hstate⟩ hbefore
    · rw [huser] at hx
      obtain ⟨y, _, rfl⟩ := Option.map_eq_some_iff.1 hx
      cases hstate

/-! ## Replies -/

theorem sprintf_ok {text t : CStr} (h : (sprintf n text).run s = (.ok t, s')) : t = text := by
  obtain ⟨_, s₁, _, h⟩ := bind_ok.1 h
  cases h
  rfl

theorem inviteResponse_ok {request : InviteRequest} {t : CStr}
    (h : (inviteResponse W code request).run s = (.ok t, s')) : ∃ x, t = code ++ lit " " ++ x := by
  obtain ⟨e, s₁, _, h⟩ := bind_ok.1 h
  obtain ⟨inviteId, s₂, _, h⟩ := bind_ok.1 h
  obtain ⟨x, s₃, _, h⟩ := bind_ok.1 h
  exact ⟨x, sprintf_ok h⟩

theorem checkedInvite_reply {k : Int} {request : InviteRequest} {t : CStr}
    (h : (checkedInvite W code args k a request).run s = (.ok t, s')) :
    t = nakMessage ∨ ∃ x, t = code ++ lit " " ++ x := by
  obtain ⟨_ | _, s₁, _, h⟩ := bind_ok.1 h
  · cases h
    exact .inl rfl
  · obtain ⟨_ | _, s₂, _, h⟩ := bind_ok.1 h
    · cases h
      exact .inl rfl
    · obtain ⟨_ | _, s₃, _, h⟩ := bind_ok.1 h
      · cases h
        exact .inl rfl
      · exact .inr (inviteResponse_ok h)

theorem rfiResponse_reply {t : CStr} (h : (rfiResponse W args).run s = (.ok t, s')) :
    t = nakMessage ∨ ∃ x, t = lit "SFI" ++ lit " " ++ x := by
  obtain ⟨_ | _, s₁, _, h⟩ := bind_ok.1 h
  · cases h
    exact .inl rfl
  · exact .inr (inviteResponse_ok h)

/-- `RDS` tells the state of the door to an authorized user whose stamps
are accepted, and to no one else. -/
theorem rdsResponse_reply (hargs : Given cmd 3 args) {t : CStr}
    (h : (rdsResponse W args a).run s = (.ok t, s')) :
    t = nakMessage ∨ (∃ d, t = lit "SDS " ++ decInt d) ∧ Authorized a s ∧
      ∃ s₁, Verified W cmd 3 s s₁ := by
  obtain ⟨ok, s₁, hverify, h⟩ := bind_ok.1 h
  cases ok with
  | false =>
    cases h
    exact .inl rfl
  | true =>
    have hverified : Verified W cmd 3 s s₁ := ⟨args, s, hargs, .refl s, hverify⟩
    obtain ⟨state, s₂, hstate, h⟩ := bind_ok.1 h
    by_cases hauth : state = .authorized
    · rw [if_pos hauth] at h
      obtain ⟨d, s₃, _, h⟩ := bind_ok.1 h
      subst hauth
      exact .inr ⟨⟨d, sprintf_ok h⟩, (authorized_of_getUserState hverified hstate).1, s₁, hverified⟩
    · rw [if_neg hauth] at h
      cases h
      exact .inl rfl

/-- The replies to a command. -/
inductive Reply (w : CStr) : CStr → Prop
  | nak : Reply w nakMessage
  | ack (h : w ∈ [lit "SAC", lit "RUD", lit "RLD", lit "SNT"]) : Reply w ackMessage
  | sni (h : w = lit "RNI") (x : CStr) : Reply w (lit "SNI " ++ x)
  | sfi (h : w = lit "RFI") (x : CStr) : Reply w (lit "SFI " ++ x)
  | sui (h : w = lit "RUI") (x : CStr) : Reply w (lit "SUI " ++ x)
  | sds (h : w = lit "RDS") (d : Int) : Reply w (lit "SDS " ++ decInt d)

theorem reply_ackIf {w : CStr} (h : w ∈ [lit "SAC", lit "RUD", lit "RLD", lit "SNT"]) {ack : Bool}
    {t : CStr} (ht : ackIf ack = some t) : Reply w t := by
  cases ack with
  | false =>
    cases ht
    exact .nak
  | true =>
    cases ht
    exact .ack h

/-- **Every reply is one of the protocol**, if there is one. -/
theorem checkCommand_reply {t : CStr}
    (h : (checkCommand W cmd a).run s = (.ok (some t), s')) :
    ∃ w, word cmd = some w ∧ Reply w t := by
  obtain ⟨c, hc, hcases⟩ := checkCommand_ok h
  refine ⟨c.word, by rw [word, hc]; rfl, ?_⟩
  have hnak (h : some t = some nakMessage) : Reply c.word t := by
    cases h
    exact .nak
  have hdoor {act : M Unit} (hw : c.word ∈ [lit "SAC", lit "RUD", lit "RLD", lit "SNT"])
      (h : (commandDoor W act c cmd a).run s = (.ok (some t), s')) : Reply c.word t := by
    rcases (commandDoor_ok h).2 with ⟨_, _, hr⟩ | ⟨_, ack, _, _, _, _, hr⟩
    · exact hnak hr
    · exact reply_ackIf hw hr.symm
  -- one goal per command word, in the order of the dispatcher, and the unknown word last
  rcases hcases with ⟨hw, h⟩ | ⟨hw, h⟩ | ⟨hw, h⟩ | ⟨hw, h⟩ | ⟨hw, h⟩ | ⟨hw, h⟩ | ⟨hw, h⟩ | ⟨hw, h⟩ |
    ⟨_, _, hr⟩
  · rcases (commandSAC_ok h).2 with ⟨_, _, hr⟩ | ⟨_, ack, _, _, hr⟩
    · exact hnak hr
    · exact reply_ackIf (by rw [hw]; decide) hr.symm
  · exact hdoor (by rw [hw]; decide) h
  · exact hdoor (by rw [hw]; decide) h
  · rcases (commandRNI_ok h).2 with ⟨_, _, hr⟩ | ⟨_, _, _, t', _, _, _, _, _, hresp, _, hr⟩
    · exact hnak hr
    · cases hr
      rcases checkedInvite_reply hresp with rfl | ⟨x, rfl⟩
      · exact .nak
      · exact .sni hw x
  · obtain ⟨_, _, _, _, ⟨_, _, hr⟩ | ⟨_, t', _, _, hresp, hr⟩⟩ := commandRFI_ok h
    · exact hnak hr
    · cases hr
      rcases rfiResponse_reply hresp with rfl | ⟨x, rfl⟩
      · exact .nak
      · exact .sfi hw x
  · rcases commandRUI_ok h with ⟨_, _, _, hr⟩ | ⟨_, _, hr, _⟩ | ⟨_, _, _, _, ⟨_, hr⟩ |
      ⟨_, _, _, t', _, _, _, _, _, _, _, hresp, _, hr⟩⟩
    · exact hnak hr
    · cases hr
    · cases hr
    · cases hr
      rcases checkedInvite_reply hresp with rfl | ⟨x, rfl⟩
      · exact .nak
      · exact .sui hw x
  · rcases (commandSNT_ok h).2 with ⟨_, _, hr⟩ | ⟨_, ack, _, _, hr⟩
    · exact hnak hr
    · exact reply_ackIf (by rw [hw]; decide) hr.symm
  · rcases (commandRDS_ok h).2 with ⟨_, _, hr⟩ | ⟨_, t', _, hargs, hresp, _, hr⟩
    · exact hnak hr
    · cases hr
      rcases rdsResponse_reply hargs hresp with rfl | ⟨⟨d, rfl⟩, _⟩
      · exact .nak
      · exact .sds hw d
  · exact hnak hr

/-- Only `RDS` tells the state of the door, and to whom it may. -/
theorem verified_of_sds {t : CStr}
    (h : (checkCommand W cmd a).run s = (.ok (some (lit "SDS " ++ t)), s')) :
    word cmd = some (lit "RDS") ∧ Authorized a s ∧ ∃ s₁, Verified W cmd 3 s s₁ := by
  obtain ⟨w, hw, hreply⟩ := checkCommand_reply h
  generalize ht : lit "SDS " ++ t = text at hreply
  have hrds : w = lit "RDS" := by
    cases hreply with
    | nak => exact absurd (congrArg (·[0]?) ht : some 83 = some (78 : UInt8)) (by decide)
    | ack _ => exact absurd (congrArg (·[0]?) ht : some 83 = some (65 : UInt8)) (by decide)
    | sni _ _ => exact absurd (congrArg (·[1]?) ht : some 68 = some (78 : UInt8)) (by decide)
    | sfi _ _ => exact absurd (congrArg (·[1]?) ht : some 68 = some (70 : UInt8)) (by decide)
    | sui _ _ => exact absurd (congrArg (·[1]?) ht : some 68 = some (85 : UInt8)) (by decide)
    | sds hw _ => exact hw
  subst hrds
  obtain ⟨c, _, _, hdispatch⟩ := exists_dispatch (W := W) (a := a) hw
  rw [hdispatch] at h
  have hnak (h : some (lit "SDS " ++ t) = some nakMessage) : False :=
    absurd (congrArg (·[0]?) (Option.some.inj h) : some 83 = some (78 : UInt8)) (by decide)
  rcases (commandRDS_ok h).2 with ⟨_, _, hr⟩ | ⟨_, t', _, hargs, hresp, _, hr⟩
  · exact (hnak hr).elim
  · cases hr
    rcases rdsResponse_reply hargs hresp with heq | ⟨_, hauth, hverified⟩
    · exact (hnak (congrArg some heq)).elim
    · exact ⟨hw, hauth, hverified⟩

/-! ## The gate, of a command that returned -/

variable (W) in
/-- What a command of `a` that returned `r` did to the state, and under
which checks. -/
structure Gated (cmd a : CStr) (s : Sys) (r : Option CStr) (s' : Sys) : Prop where
  /-- Whatever was done was done behind its checks. -/
  made : ∀ o pre, Made s s' o pre → Gate W cmd a s o pre
  /-- The state of the door is told behind its checks. -/
  sds : ∀ t, r = some (lit "SDS " ++ t) →
    word cmd = some (lit "RDS") ∧ Authorized a s ∧ ∃ s₁, Verified W cmd 3 s s₁
  /-- Who became authorized did so by an accepted `SAC`. -/
  authorized : ∀ b, Authorized b s' → ¬ Authorized b s →
    hashKey b = hashKey a ∧ ∃ p code pre, Made s s' (.sac a p code) pre
  sac : word cmd = some (lit "SAC") → (r = some ackMessage ↔
    ∃ p code pre, Made s s' (.sac a p code) pre ∧ s'.user a = (s.user a).map (UserInfo.authorize p))
  rud : word cmd = some (lit "RUD") → (r = some ackMessage ↔ ∃ pre, Made s s' .unlockLock pre)
  rld : word cmd = some (lit "RLD") → (r = some ackMessage ↔ ∃ pre, Made s s' .lockLock pre)
  snt : word cmd = some (lit "SNT") → (r = some ackMessage ↔
    ∃ devid pre, Made s s' (.notification devid) pre)

/-- **The authorization gate of the dispatcher**, for every state, every
outside and every message answered. -/
theorem checkCommand_gated (h : (checkCommand W cmd a).run s = (.ok r, s')) :
    Gated W cmd a s r s' where
  made _ _ hmade := checkCommand_makes.of_run h hmade
  sds _ hr := verified_of_sds (hr ▸ h)
  authorized _ hafter hbefore := sac_of_authorized h hafter hbefore
  sac hw := by
    obtain ⟨c, _, _, hdispatch⟩ := exists_dispatch (W := W) (a := a) hw
    rw [hdispatch] at h
    rcases commandSAC_effect h with ⟨rfl, _, hno⟩ | ⟨rfl, p, code, _, _, _, ⟨pre, hmade⟩, huser, _⟩
    · exact ⟨fun h => absurd h (by decide),
        fun ⟨p, code, _, hmade, _⟩ => absurd ⟨p, code, rfl⟩ (hno.of_made hmade)⟩
    · exact ⟨fun _ => ⟨p, code, pre, hmade, huser a rfl⟩, fun _ => rfl⟩
  rud hw := by
    obtain ⟨c, _, _, hdispatch⟩ := exists_dispatch (W := W) (a := a) hw
    rw [hdispatch] at h
    rw [commandDoor_ack (o := .unlockLock) rfl nofun rfl h]
    exact ⟨fun ⟨_, pre, rfl, hmade⟩ => ⟨pre, hmade⟩, fun ⟨pre, hmade⟩ => ⟨_, pre, rfl, hmade⟩⟩
  rld hw := by
    obtain ⟨c, _, _, hdispatch⟩ := exists_dispatch (W := W) (a := a) hw
    rw [hdispatch] at h
    rw [commandDoor_ack (o := .lockLock) rfl nofun rfl h]
    exact ⟨fun ⟨_, pre, rfl, hmade⟩ => ⟨pre, hmade⟩, fun ⟨pre, hmade⟩ => ⟨_, pre, rfl, hmade⟩⟩
  snt hw := by
    obtain ⟨c, _, _, hdispatch⟩ := exists_dispatch (W := W) (a := a) hw
    rw [hdispatch] at h
    rw [commandSNT_ack h]
    exact ⟨fun ⟨_, pre, ⟨devid, rfl⟩, hmade⟩ => ⟨devid, pre, hmade⟩,
      fun ⟨devid, pre, hmade⟩ => ⟨_, pre, ⟨devid, rfl⟩, hmade⟩⟩

/-- An administrator is authorized, and the store has their
authorization. -/
def adminAuthorized : Sys :=
  { Sys.initial with
    usersInfo := [⟨lit "192.168.1.5", lit "phone", .authorized, none, ⟨Vector.replicate 32 0⟩⟩]
    authorizations := fun _ => some ⟨Vector.replicate 16 0, UserType.admin, Vector.replicate 32 0,
      Vector.replicate 7 false, 0, 0, 0⟩ }

theorem unlock_adminAuthorized :
    ((checkCommand (World.still .esp32s3 100) (lit "RUD 90 200 1") (lit "192.168.1.5")).run
      adminAuthorized).1 = .ok (some ackMessage) := by decide +kernel

/-- The gate, of a command that unlocks the door. -/
theorem checkCommand_gated_unlock : Gated (World.still .esp32s3 100) (lit "RUD 90 200 1")
    (lit "192.168.1.5") adminAuthorized (some ackMessage)
    ((checkCommand (World.still .esp32s3 100) (lit "RUD 90 200 1") (lit "192.168.1.5")).run
      adminAuthorized).2 :=
  checkCommand_gated (Prod.ext unlock_adminAuthorized rfl)

end SmartLock
