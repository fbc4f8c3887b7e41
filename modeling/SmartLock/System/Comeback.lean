import SmartLock.Session.Isolation
import SmartLock.System.Dialogue
import SmartLock.System.Dispatch

/-!
# Coming back

A connection that begins brings the session of its address back from
`DISCONNECTED`. So do, with no connection, the reset of the BLE session,
whose guard compares the record found with `DISCONNECTED` and not its
state; a message of the first-invite mode, which no state is asked for; and
a connection of another address that has the same key. Where none of these
happens to an address, it comes back by connecting alone.
-/

namespace SmartLock

open Prog

variable {W : World} {a b cmd data : CStr} {s s₁ t u s' : Sys} {e : Event} {es : List Event}
variable {x : UserInfo} {r : Option Response} {reply : Option CStr} {received : List UInt8}

/-- The session of `b` is `DISCONNECTED`. -/
def Away (b : CStr) (s : Sys) : Prop := ∃ x, s.user b = some x ∧ x.state = .disconnected

variable (W) in
/-- Where the session of `b` is `DISCONNECTED`, it stays so, or `b`
connects at the event. -/
def BackByConnect (b : CStr) (e : Event) (s : Sys) : Prop :=
  Away b s → ∀ s', (step W e).run s = (.ok (), s') → Away b s' ∨ ∃ pre, Made s s' (.connect b) pre

/-- The address that connects, if the event is a connection: an accept of
TCP, a connection of BLE, or the line `+CONNECTED` that `echo_task` comes to
read. -/
def Event.connects (s : Sys) : Event → Option CStr
  | tcpAccept ip => some (inetNtoa ip)
  | bleConnect remoteBda => some (macText remoteBda)
  | uart received =>
    if s.data ≠ lit "PNG" ∧ s.wifiConnected = true ∧ received ≠ [] ∧
        strncmpEq (lit "+CONNECTED") (cstr received) 10 then some bleUser
    else none
  | _ => none

variable (W) in
/-- At the event `e` in `s`, the message `data` of `a` is taken for the
credentials of the first invite, in `t`, whatever the state of the session
of `a`. -/
inductive Introduces (s : Sys) : Event → CStr → CStr → Sys → Prop
  | uart {received : List UInt8} {t : Sys} (hbrings : Brings W s (.uart received) bleUser)
    (hstatus : (getRegistrationStatus W).run ((s.buffered received).noted (.message bleUser)) =
      (.ok registered, t)) (hflag : t.gotFirstInviteSessionKey = false) :
    Introduces s (.uart received) bleUser (restorePlus (cstr received)) t

variable (W) in
/-- The command is a `SAC` of `a` that authorizes a phone: it is signed, in
date and no replay, and its code is right for the seed of `a`. -/
def AcceptsSac (cmd a : CStr) (s : Sys) : Prop :=
  word cmd = some (lit "SAC") ∧ ∃ p code x s₁ s₂, argument (arguments cmd) 0 = some p ∧
    argument (arguments cmd) 1 = some code ∧ s.user a = some x ∧ Verified W cmd 5 s s₁ ∧
    (checkAuthorizationCode W p code x.seed).run s₁ = (.ok true, s₂)

variable (W) in
/-- No other address with the key of `b` connects, no command begins that
ends in the reset while the BLE session has that key, and for an address of
that key neither credentials of the first invite come nor a `SAC` begins
that is accepted. -/
structure LeftAway (b : CStr) (e : Event) (s : Sys) : Prop where
  key : e.enabled W s = true → ∀ a, e.connects s = some a → hashKey a = hashKey b → a = b
  reset : s.currentBLEAddr ≠ [] → hashKey s.currentBLEAddr = hashKey b →
    ∀ a cmd s₁, Begins W e s a cmd s₁ → ¬ Resets W cmd a s₁
  credentials : ∀ a data t, Introduces W s e a data t → hashKey a = hashKey b →
    ∀ ctx, ¬ Presents W data t.moment ctx
  sac : ∀ a cmd s₁, Begins W e s a cmd s₁ → hashKey a = hashKey b → ¬ AcceptsSac W cmd a s₁

variable (W) in
/-- While the session of `b` is `DISCONNECTED` nothing but a connection of
`b` touches it. -/
def Undisturbing (b : CStr) (e : Event) (s : Sys) : Prop := Away b s → LeftAway W b e s

/-! ## What leaves a session away -/

theorem Away.of_user (h : Away b s) (huser : t.user b = s.user b) : Away b t := by
  obtain ⟨x, hx, hstate⟩ := h
  exact ⟨x, huser.trans hx, hstate⟩

/-- A session is closed, or another one is written. -/
theorem Away.wrote {g : UserInfo → UserInfo} (h : Away b s) (hwrote : Wrote a g s t)
    (hg : hashKey a = hashKey b → ∀ x, (g x).state = .disconnected) : Away b t := by
  by_cases hkey : hashKey a = hashKey b
  · obtain ⟨x, hx, _⟩ := hwrote.self
    exact ⟨g x, by rw [← Sys.user_congr hkey, hx], hg hkey x⟩
  · exact h.of_user (hwrote.others b fun heq => hkey heq.symm)

theorem Away.quiet (h : Away b s) (hquiet : quiet.Rel s t) : Away b t :=
  h.of_user (quiet_user hquiet)

/-- The reset of another session. -/
theorem Away.reset (h : Away b s) (hrun : (setBLEUserStateToConnecting W).run s = (.ok (), t))
    (hother : s.currentBLEAddr ≠ [] → hashKey s.currentBLEAddr ≠ hashKey b) : Away b t := by
  rw [setBLEUserStateToConnecting, run_get_bind] at hrun
  by_cases hc : s.currentBLEAddr ≠ [] ∧ s.user s.currentBLEAddr ≠ none
  · rw [if_pos hc] at hrun
    exact h.wrote (setUserState_ok hrun) fun heq => absurd heq (hother hc.1)
  · rw [if_neg hc] at hrun
    cases hrun
    exact h

theorem not_made_of_log {o : Obs} {pre : List Obs} (h : t.log = s.log) :
    ¬ Made s t o pre := fun hmade =>
  (Grows.of_made (.of_log (fun _ => False) h) hmade).elim

/-- **A command leaves a session away** that it neither resets nor
authorizes. -/
theorem checkCommand_away (h : (checkCommand W cmd a).run s = (.ok reply, t)) (hb : Away b s)
    (hreset : s.currentBLEAddr ≠ [] → hashKey s.currentBLEAddr = hashKey b → ¬ Resets W cmd a s)
    (hsac : hashKey a = hashKey b → ¬ AcceptsSac W cmd a s) : Away b t := by
  rcases checkCommand_reset h with ⟨hresets, u, hu, hrun⟩ | ⟨_, hrel | ⟨hw, hrel⟩⟩
  · have hcur : u.currentBLEAddr = s.currentBLEAddr := Sys.currentBLEAddr_of_servers hu.servers
    refine (hb.of_user (recordless_user hu)).reset hrun fun hne heq => ?_
    rw [hcur] at hne heq
    exact hreset hne heq hresets
  · exact hb.of_user (recordless_user hrel)
  · by_cases hkey : hashKey a = hashKey b
    · have hrun := h
      obtain ⟨c, _, _, hdispatch⟩ := exists_dispatch hw
      rw [hdispatch] at h
      rcases commandSAC_effect h with ⟨_, huser, _⟩ | ⟨_, p, code, _, _, _, ⟨pre, hmade⟩, _⟩
      · exact hb.of_user (huser b)
      · -- a `SAC` that authorized someone had passed its checks
        obtain ⟨_, hword, hp, hcode, x, s₁, s₂, hx, hverified, hright⟩ :=
          checkCommand_makes.of_run hrun hmade
        exact absurd ⟨hword, p, code, x, s₁, s₂, hp, hcode, hx, hverified, hright⟩ (hsac hkey)
    · exact hb.of_user (hrel.user_eq (fun heq => hkey heq.symm) fun h => h.1)

/-- **A message of a session leaves another one away.** -/
theorem Exchange.away (h : Exchange W a data x s r t) (hx : s.user a = some x) (hb : Away b s)
    (hreset : s.currentBLEAddr ≠ [] → hashKey s.currentBLEAddr = hashKey b → ∀ cmd s₁,
      Open a s → Began W a data x.aesCtx cmd s s₁ → ¬ Resets W cmd a s₁) : Away b t := by
  -- a session that is away does not have the key of one that is not
  have hkey (hstate : x.state ≠ .disconnected) : hashKey a ≠ hashKey b := by
    intro heq
    obtain ⟨y, hy, haway⟩ := hb
    rw [← Sys.user_congr heq, hx, Option.some.injEq] at hy
    exact hstate (hy ▸ haway)
  cases h with
  | refused hstate huser _ => exact hb.of_user (huser b)
  | opened hstate _ hwrote _ =>
    exact hb.wrote hwrote fun heq => absurd heq (hkey (by rw [hstate]; decide))
  | command hstate hbegan hrun =>
    have hcur := Sys.currentBLEAddr_of_servers hbegan.servers
    refine checkCommand_away hrun (hb.of_user hbegan.user) (fun hne heq => ?_) fun heq => ?_
    · rw [hcur] at hne heq
      exact hreset hne heq _ _ ⟨x, hx, hstate⟩ hbegan
    · refine absurd heq (hkey ?_)
      rcases hstate with hstate | hstate <;> rw [hstate] <;> decide
  | ignored hstate => exact hb

theorem sessionResponse_away (h : (sessionResponse W a data).run s = (.ok r, t)) (hb : Away b s)
    (hreset : s.currentBLEAddr ≠ [] → hashKey s.currentBLEAddr = hashKey b → ∀ x cmd s₁,
      s.user a = some x → Open a s → Began W a data x.aesCtx cmd s s₁ → ¬ Resets W cmd a s₁) :
    Away b t := by
  obtain ⟨x, hx, hexchange⟩ := sessionResponse_ok h
  exact hexchange.away hx hb fun hne heq cmd s₁ => hreset hne heq x cmd s₁ hx

/-- **A message of the first-invite mode** leaves a session away for which
it is not accepted, and which its command does not reset. -/
theorem firstInvite_away (h : (firstInvite W bleUser data).run s = (.ok r, t)) (hb : Away b s)
    (hcommand : ∀ x cmd s₁, s.user bleUser = some x → s.gotFirstInviteSessionKey = true →
      Began W bleUser data x.aesCtx cmd { s with gotFirstInviteSessionKey := false } s₁ →
      (s.currentBLEAddr ≠ [] → hashKey s.currentBLEAddr = hashKey b → ¬ Resets W cmd bleUser s₁) ∧
        (hashKey bleUser = hashKey b → ¬ AcceptsSac W cmd bleUser s₁))
    (hcredentials : s.gotFirstInviteSessionKey = false → hashKey bleUser = hashKey b →
      ∀ ctx, ¬ Presents W data s.moment ctx) : Away b t := by
  rw [firstInvite, firstInviteResponse, run_get_bind] at h
  -- behind the credentials the message is a command, before them it is the credentials
  by_cases hflag : s.gotFirstInviteSessionKey
  · rw [if_pos hflag] at h
    obtain ⟨_, s₀, hmod, hresponds⟩ := bind_ok.1 h
    cases hmod
    obtain ⟨response, s₁, hresponse, hret⟩ := bind_ok.1 hresponds
    cases hret
    obtain ⟨x, cmd, s₁, reply, hx, hbegan, hrun, _⟩ := commandResponse_ok hresponse
    have hcur := Sys.currentBLEAddr_of_servers hbegan.servers
    obtain ⟨hreset, hsac⟩ := hcommand x cmd s₁ hx hflag hbegan
    refine checkCommand_away hrun (hb.of_user hbegan.user) (fun hne heq => ?_) hsac
    rw [hcur] at hne heq
    exact hreset hne heq
  · rw [if_neg hflag] at h
    obtain ⟨ok, s₁, hcred, hanswers⟩ := bind_ok.1 h
    rcases retrieveSessionCredentials_ok hcred with ⟨rfl, huser, _⟩ | ⟨rfl, ctx, hwrote, _⟩
    · cases hanswers
      exact hb.of_user (huser b)
    · obtain ⟨ctx', s₂, hctx, hsets⟩ := bind_ok.1 hanswers
      obtain ⟨y, s₃, hy, hret⟩ := bind_ok.1 hctx
      obtain ⟨_, rfl⟩ := derefUser_ok.1 hy
      cases hret
      obtain ⟨_, s₄, hmod, hret⟩ := bind_ok.1 hsets
      cases hmod
      cases hret
      obtain ⟨z, hz, _⟩ := hwrote.self
      have hpresents : Presents W data s.moment _ := presents_of_run hcred hz
      have hs₂ : Away b s₂ := hb.wrote hwrote fun heq =>
        absurd hpresents (hcredentials (Bool.eq_false_iff.2 hflag) heq _)
      exact hs₂

/-! ## The events -/

/-- The server ends a connection. -/
theorem hangUp_away (h : (hangUp W).run s = (.ok (), s')) (hb : Away b s) : Away b s' := by
  obtain ⟨t, hset, rfl⟩ := hangUp_ok h
  have ht : Away b t := hb.wrote (setUserState_ok hset) fun _ _ => rfl
  exact ht

/-- A message of TCP. -/
theorem doRetransmit_away (henabled : (Event.tcpRecv received).enabled W s = true)
    (h : (doRetransmit W received).run s = (.ok (), s')) (hb : Away b s)
    (hreset : s.currentBLEAddr ≠ [] → hashKey s.currentBLEAddr = hashKey b →
      ∀ a cmd s₁, Begins W (.tcpRecv received) s a cmd s₁ → ¬ Resets W cmd a s₁) : Away b s' := by
  obtain ⟨r, u, hresponse, hends⟩ := doRetransmit_ok h
  have hu : Away b u := sessionResponse_away hresponse hb fun hne heq x cmd s₁ hx hopen hbegan =>
    hreset hne heq _ cmd s₁ ⟨_, _, x, .tcp henabled hopen, hx, hbegan⟩
  rcases hends with ⟨_, hhang⟩ | ⟨response, text, sent, v, _, _, hquiet, hends⟩
  · exact hangUp_away hhang hu
  · have hv : Away b (v.noted (.reply s.addrStr response.aes text sent)) := hu.quiet (t := v) hquiet
    rcases hends with ⟨_, rfl⟩ | ⟨_, hhang⟩
    · exact hv
    · exact hangUp_away hhang hv

/-- A message of the UART. -/
theorem handleBleMessage_away (hbrings : Brings W s (.uart received) bleUser)
    (h : (handleBleMessage W (restorePlus (cstr received))).run (s.buffered received) = (.ok (), s'))
    (hb : Away b s) (hleft : LeftAway W b (.uart received) s) : Away b s' := by
  obtain ⟨status, t, r, u, hstatus, hresponse, hreplies⟩ := handleBleMessage_ok h
  have hasks : looking.Rel _ t := (getRegistrationStatus_within trivial).of_ok hstatus
  have hcur : t.currentBLEAddr = s.currentBLEAddr := Sys.currentBLEAddr_of_servers hasks.servers
  have ht : Away b t := hb.of_user (hasks.user_eq id fun h => h.1)
  -- a command the message holds is one the event dispatches, wherever it is taken
  have hreset (hne : t.currentBLEAddr ≠ []) (heq : hashKey t.currentBLEAddr = hashKey b) {v : Sys}
      (hd : Dispatch W s (.uart received) bleUser (restorePlus (cstr received)) v) {x : UserInfo}
      {cmd : CStr} {s₁ : Sys} (hx : v.user bleUser = some x)
      (hbegan : Began W bleUser (restorePlus (cstr received)) x.aesCtx cmd v s₁) :
      ¬ Resets W cmd bleUser s₁ := by
    rw [hcur] at hne heq
    exact hleft.reset hne heq _ cmd s₁ ⟨_, _, x, hd, hx, hbegan⟩
  have hlast (hu : Away b u) : Away b s' := by
    rcases hreplies with ⟨_, v, hset, rfl⟩ | ⟨response, _, hrel⟩
    · have hv : Away b v := hu.wrote (setUserState_ok hset) fun _ _ => rfl
      exact hv
    · exact hu.of_user (hrel.user_eq id fun h => h.1)
  refine hlast ?_
  -- the status decides between the first invite and the sessions
  by_cases hreg : status = registered
  · subst hreg
    rw [if_pos rfl] at hresponse
    refine firstInvite_away hresponse ht (fun x cmd s₁ hx hflag hbegan => ?_) fun hflag heq => ?_
    · have hd := Dispatch.invite hbrings hstatus hflag
      exact ⟨fun hne heq => hreset hne heq hd hx hbegan,
        fun heq => hleft.sac _ cmd s₁ ⟨_, _, x, hd, hx, hbegan⟩ heq⟩
    · exact hleft.credentials _ _ t (.uart hbrings hstatus hflag) heq
  · rw [if_neg hreg] at hresponse
    exact sessionResponse_away hresponse ht fun hne heq x cmd s₁ hx hopen hbegan =>
      hreset hne heq (.session hbrings hstatus hreg hopen) hx hbegan

/-- A turn of the loop of `echo_task`. -/
theorem echoTask_back (henabled : (Event.uart received).enabled W s = true)
    (h : (echoTask W received).run s = (.ok (), s')) (hb : Away b s)
    (hleft : LeftAway W b (.uart received) s) :
    Away b s' ∨ ∃ pre, Made s s' (.connect b) pre := by
  rcases echoTask_ok h with hping | rfl | hline | ⟨hbrings, hmessage⟩
  · obtain ⟨-, rfl⟩ := sendLOK_ok hping
    exact .inl hb
  · exact .inl hb
  · obtain ⟨⟨hping, hwifi, hbytes⟩, hline⟩ := hline
    have hbuffered : Away b { s with data := cstr received } := hb
    have hconnects : Away b (({ s with data := cstr received } : Sys).noted (.connect bleUser)) := hb
    rcases handleATCmd_ok hline with ⟨hname, t, hset, rfl⟩ | ⟨_, t, hset, rfl⟩ | rfl
    · -- the client that connects is `b`, or is of another key
      have hrel : (talking bleUser).Rel _ t := (setUserState_within rfl).of_ok hset
      have hmade : Made s t.uartConnected (.connect bleUser) s.log :=
        ⟨List.suffix_refl _, hrel.log.suffix⟩
      have hbegins : (Event.uart received).connects s = some bleUser :=
        if_pos ⟨hping, hwifi, hbytes, hname⟩
      by_cases hkey : hashKey bleUser = hashKey b
      · obtain rfl := hleft.key henabled _ hbegins hkey
        exact .inr ⟨_, hmade⟩
      · have ht : Away b t := hconnects.wrote (setUserState_ok hset) fun heq => absurd heq hkey
        exact .inl ht
    · have ht : Away b t := hbuffered.wrote (setUserState_ok hset) fun _ _ => rfl
      exact .inl ht
    · exact .inl hb
  · exact .inl (handleBleMessage_away (hbrings henabled) hmessage hb hleft)

/-- **At an event that does not disturb it** a session that is away comes
back by connecting alone. -/
theorem step_back (hW : W.target = .esp32s2) (h : Undisturbing W b e s) : BackByConnect W b e s := by
  intro hb s' hrun
  have hleft := h hb
  rw [step, run_get_bind] at hrun
  by_cases henabled : e.enabled W s
  · rw [if_pos henabled] at hrun
    cases e with
    | tcpAccept ip =>
      rw [SmartLock.handle, run_tcpAccept] at hrun
      have hrel : (talking (inetNtoa ip)).Rel _ s' := (setUserState_within rfl).of_ok hrun
      -- the client that connects is at its address, or is of another key
      have hmade : Made s s' (.connect (inetNtoa ip)) s.log :=
        ⟨List.suffix_refl _, hrel.log.suffix⟩
      by_cases hkey : hashKey (inetNtoa ip) = hashKey b
      · obtain rfl := hleft.key henabled _ rfl hkey
        exact .inr ⟨_, hmade⟩
      · exact .inl (hb.wrote (s := s.accepted ip) (setUserState_ok hrun) fun heq => absurd heq hkey)
    | tcpRecv received => exact .inl (doRetransmit_away henabled hrun hb hleft.reset)
    | tcpClose =>
      cases hrun
      exact .inl hb
    | bleConnect bda => exact absurd (enabled_bleConnect henabled) (by rw [hW]; decide)
    | bleDisconnect => exact absurd (enabled_ble henabled).1 (by rw [hW]; decide)
    | bleWrite value => exact absurd (enabled_ble henabled).1 (by rw [hW]; decide)
    | uart received => exact echoTask_back henabled hrun hb hleft
    | serverStatus status =>
      cases hrun
      exact .inl hb
    | initRsaKey =>
      have hrel : looking.Rel s s' := (initRsaKey_within trivial).of_ok hrun
      exact .inl (hb.of_user (hrel.user_eq id fun h => h.1))
    | setWifiConnected connected =>
      cases hrun
      exact .inl hb
    | serverOnline =>
      cases hrun
      exact .inl hb
  · rw [if_neg henabled] at hrun
    cases hrun
    exact .inl hb

/-! ## Runs -/

/-- **A `DISCONNECTED` address comes back only by connecting**, in every run
in which nothing else touches its session while it is away. -/
theorem back_by_connect (hW : W.target = .esp32s2)
    (h : Throughout (step W) (Undisturbing W b) es s) :
    Throughout (step W) (BackByConnect W b) es s :=
  Throughout.imp (I := fun _ => True) (fun _ _ _ _ _ _ => trivial) (fun _ _ _ => step_back hW)
    trivial h

/-- The S2 as it starts, with the record `ble_main` adds. -/
def uartBoot : Sys :=
  { Sys.initial with usersInfo := [⟨bleUser, [], .disconnected, none, ⟨Vector.replicate 32 0⟩⟩] }

/-- An outside in which a text is taken for credentials if its first byte
is nil. -/
def World.choosy : World :=
  { World.still .esp32s2 100 with
    rsaDecrypt := fun block => some (if block.head? = some 0 then lit "SSC AAAA" else lit "NO") }

theorem boot_uartBoot : Boot World.choosy uartBoot :=
  ⟨fun _ hr => by obtain rfl := List.mem_singleton.1 hr; exact ⟨rfl, rfl, rfl, rfl⟩,
    rfl, rfl, rfl, rfl, rfl, rfl, rfl, rfl⟩

/-- The word of the command a message of TCP holds, in an open session. -/
def World.commandWord (W : World) (received : List UInt8) (s : Sys) : Option CStr :=
  (s.user s.addrStr).bind fun x =>
    if x.state = .connected ∨ x.state = .authorized then
      (((decryptBase64AES W x.aesCtx (cstr received)).run
        ((s.noted (.message s.addrStr)).noted (.decrypt s.addrStr x.aesCtx))).1.toOption).bind word
    else none

/-- Whether an event leaves `b` away, as far as the lines of the BLE module
and the messages of clients of TCP go. -/
def World.leavesAway (W : World) (b : CStr) : Event → Sys → Bool
  | .tcpAccept ip, _ => hashKey (inetNtoa ip) != hashKey b
  | .tcpRecv received, s => hashKey s.addrStr != hashKey b &&
      (s.currentBLEAddr == [] || (W.commandWord received s).all (· == lit "SAC"))
  | .uart received, _ => bleUser == b && strncmpEq (lit "+") (cstr received) 1
  | .setWifiConnected _, _ => true
  | _, _ => false

theorem commandWord_of_begins (h : Begins W (.tcpRecv received) s a cmd s₁) :
    a = s.addrStr ∧ W.commandWord received s = word cmd := by
  obtain ⟨data, t, x, hd, hx, v, hdecrypt, _⟩ := h
  cases hd with
  | tcp henabled hopen =>
    have hx' : s.user s.addrStr = some x := hx
    obtain ⟨y, hy, hstate⟩ := hopen
    obtain rfl := Option.some.inj (hx'.symm.trans hy)
    refine ⟨rfl, ?_⟩
    rw [World.commandWord, hx', Option.bind_some, if_pos hstate, hdecrypt]
    rfl

theorem not_resets_sac (h : word cmd = some (lit "SAC")) : ¬ Resets W cmd a s := by
  rw [resets_iff h, if_neg (by decide), if_neg (by decide), if_neg (by decide)]
  exact fun hmem => hmem (by decide)

theorem leftAway_of_leavesAway (h : W.leavesAway b e s = true) : LeftAway W b e s := by
  cases e with
  | tcpAccept ip =>
    refine ⟨?_, ?_, ?_, ?_⟩
    · rintro _ _ ⟨⟩ heq
      exact absurd heq (bne_iff_ne.1 h)
    · rintro _ _ _ _ _ ⟨_, _, _, hd, _⟩
      cases hd
    · rintro _ _ _ ⟨⟩
    · rintro _ _ _ ⟨_, _, _, hd, _⟩
      cases hd
  | tcpRecv received =>
    obtain ⟨hkey, hword⟩ := Bool.and_eq_true_iff.1 h
    refine ⟨?_, fun hne _ a cmd s₁ hbegins => ?_, ?_, fun a cmd s₁ hbegins heq => ?_⟩
    · rintro _ _ ⟨⟩
    · rcases Bool.or_eq_true_iff.1 hword with hnil | hsac
      · exact absurd (eq_of_beq hnil) hne
      · obtain ⟨-, hcommand⟩ := commandWord_of_begins hbegins
        intro hresets
        have ⟨w, hw, _⟩ := hresets
        rw [hcommand, hw] at hsac
        exact not_resets_sac (hw.trans (congrArg some (eq_of_beq hsac))) hresets
    · rintro _ _ _ ⟨⟩
    · obtain ⟨rfl, -⟩ := commandWord_of_begins hbegins
      exact absurd heq (bne_iff_ne.1 hkey)
  | uart received =>
    obtain ⟨hb, hline⟩ := Bool.and_eq_true_iff.1 h
    have hno {a : CStr} (hbrings : Brings W s (.uart received) a) : False := by
      cases hbrings with
      | uart _ _ _ hmessage => exact hmessage (.inr hline)
    refine ⟨fun _ a hconnects _ => ?_, ?_, ?_, ?_⟩
    · rw [Event.connects, Option.ite_none_right_eq_some] at hconnects
      obtain rfl := Option.some.inj hconnects.2
      exact eq_of_beq hb
    · rintro _ _ _ _ _ ⟨_, _, _, hd, _⟩
      cases hd with
      | invite hbrings => exact (hno hbrings).elim
      | session hbrings => exact (hno hbrings).elim
    · rintro _ _ _ ⟨hbrings, _, _⟩
      exact (hno hbrings).elim
    · rintro _ _ _ ⟨_, _, _, hd, _⟩
      cases hd with
      | invite hbrings => exact (hno hbrings).elim
      | session hbrings => exact (hno hbrings).elim
  | setWifiConnected connected =>
    refine ⟨?_, ?_, ?_, ?_⟩
    · rintro _ _ ⟨⟩
    · rintro _ _ _ _ _ ⟨_, _, _, hd, _⟩
      cases hd
    · rintro _ _ _ ⟨⟩
    · rintro _ _ _ ⟨_, _, _, hd, _⟩
      cases hd
  | tcpClose => cases h
  | bleConnect _ => cases h
  | bleDisconnect => cases h
  | bleWrite _ => cases h
  | serverStatus _ => cases h
  | initRsaKey => cases h
  | serverOnline => cases h

/-- Whether `b` is away. -/
def Sys.away (b : CStr) (s : Sys) : Bool :=
  (s.user b).any fun x => x.state == .disconnected

theorem away_of_away (h : Away b s) : s.away b = true := by
  obtain ⟨x, hx, hstate⟩ := h
  rw [Sys.away, hx, Option.any_some, hstate]
  rfl

/-- A client of BLE is refused and comes back, while clients of TCP connect,
send a `SAC` that is refused, and send the command that ends in the reset. -/
def sentAwayAndBack : List Event :=
  [.setWifiConnected true, .uart (lit "+CONNECTED"), .uart (lit "BBBB"), .tcpAccept lanAddress,
    .tcpRecv (lit "AAAA"), .tcpRecv (sealedText (lit "SAC 1 AAAA 90 200 8")),
    .uart (lit "+CONNECTED"), .tcpAccept lanAddress, .tcpRecv (lit "AAAA"),
    .tcpRecv (sealedText (lit "X"))]

/-- The theorem, where `ble_user` is away at first, connects, is sent away
and connects again. -/
theorem back_by_connect_uartBoot : Boot World.choosy uartBoot ∧ Away bleUser uartBoot ∧
    Throughout (step World.choosy) (Undisturbing World.choosy bleUser) sentAwayAndBack uartBoot ∧
    Throughout (step World.choosy) (BackByConnect World.choosy bleUser) sentAwayAndBack uartBoot ∧
    ((run World.choosy sentAwayAndBack).run uartBoot).1 = .ok () := by
  have hchecked : checked (step World.choosy)
      (fun e s => !s.away bleUser || World.choosy.leavesAway bleUser e s) sentAwayAndBack
      uartBoot = true := by decide +kernel
  have hundisturbing : Throughout (step World.choosy) (Undisturbing World.choosy bleUser)
      sentAwayAndBack uartBoot := by
    refine Throughout.of_checked (fun e s h haway => leftAway_of_leavesAway ?_) hchecked
    rw [away_of_away haway] at h
    exact h
  exact ⟨boot_uartBoot, ⟨_, rfl, rfl⟩, hundisturbing, back_by_connect rfl hundisturbing,
    by decide +kernel⟩

/-- The server asks the module to end the connection of a client whose
credentials it refuses, and serves a client of TCP. -/
def sentAway : List Event :=
  [.setWifiConnected true, .uart (lit "+CONNECTED"), .uart (lit "BBBB"),
    .tcpAccept lanAddress, .tcpRecv (lit "AAAA")]

/-- **The reset brings back a client of BLE that was sent away**, at a
command of TCP. -/
theorem reset_brings_back : Boot World.choosy uartBoot ∧ ∃ s s',
    (run World.choosy sentAway).run uartBoot = (.ok (), s) ∧
    (step World.choosy (.tcpRecv (sealedText (lit "X")))).run s = (.ok (), s') ∧
    Away bleUser s ∧ ¬ Away bleUser s' ∧ ∀ pre, ¬ Made s s' (.connect bleUser) pre := by
  let e : Event := .tcpRecv (sealedText (lit "X"))
  have hreturns : ((run World.choosy (sentAway ++ [e])).run uartBoot).1 = .ok () := by decide +kernel
  have hbefore : (((run World.choosy sentAway).run uartBoot).2.user bleUser).map UserInfo.state =
      some .disconnected := by decide +kernel
  have hafter : (((run World.choosy (sentAway ++ [e])).run uartBoot).2.user bleUser).map
      UserInfo.state = some .connecting := by decide +kernel
  have hserving : ((run World.choosy sentAway).run uartBoot).2.serving = true := by decide +kernel
  obtain ⟨s, s', hfirst, hstep, hs, hs'⟩ := exists_last_step hreturns
  rw [hs] at hbefore hserving
  rw [hs'] at hafter
  refine ⟨boot_uartBoot, s, s', hfirst, hstep, ?_, ?_, fun pre hmade => ?_⟩
  · obtain ⟨x, hx, hstate⟩ := Option.map_eq_some_iff.1 hbefore
    exact ⟨x, hx, hstate⟩
  · rintro ⟨x, hx, hstate⟩
    rw [hx, Option.map_some, hstate] at hafter
    cases hafter
  · have hwired : Wired World.choosy s := Reachable.wired ⟨uartBoot, sentAway, boot_uartBoot, hfirst⟩
    obtain ⟨ip, hip⟩ := hwired.tcp hserving
    have haside : OverTcp (aside bleUser) ip :=
      aside_overTcp (hashKey_ipv4_ne (x := .bleUser) rfl ip)
    have hrel : (aside bleUser).rel s ((doRetransmit World.choosy (sealedText (lit "X"))).run s).2 :=
      haside.doRetransmit hip
    rw [step, run_get_bind] at hstep
    split at hstep
    · rw [show (doRetransmit World.choosy (sealedText (lit "X"))).run s = (.ok (), s') from hstep]
        at hrel
      exact hrel.2.2.of_made hmade rfl
    · cases hstep
      exact not_made_of_log rfl hmade

end SmartLock
