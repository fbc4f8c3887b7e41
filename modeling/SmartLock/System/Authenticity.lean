import SmartLock.System.Beside
import SmartLock.System.Unlocked

/-!
# Who opens the door

A session is bound to the connection it was opened on: what a record says
of its user was said on the connection that lasts. The records are shared
by both transports and found by four bytes of the address, and a command of
one transport may reset the session of the other; neither gives a session
what its own connection did not.
-/

namespace SmartLock

open Prog

variable {W : World} {a p data : CStr} {s₀ s t s' : Sys} {x : UserInfo} {r : Option Response}
variable {o : Obs} {log pre : List Obs} {e : Event} {es : List Event} {ip : Vector UInt8 4}
variable {Shown Shown' : CStr → CStr → List Obs → Prop}

/-! ## What was shown on a connection -/

/-- The seed of the session was drawn after its credentials were
accepted, on the connection that lasts. -/
def SeedDrawn (a : CStr) (x : UserInfo) (log : List Obs) : Prop :=
  ∃ ctx b, x.seed = some b ∧ [.seed a b, .credentials a ctx].Sublist (sinceConnect a log)

variable (W) in
/-- On the connection of `a` that lasts, credentials were accepted, a seed
was drawn, and a `SAC` for the phone `p` was accepted whose code is the HMAC
of the seed under the master key found for `p`. -/
def Authenticated (a p : CStr) (log : List Obs) : Prop :=
  ∃ ctx b key code, base64Encode (W.hmac key b).toList = some code ∧
    [.sac a p code, .masterKey p key, .seed a b, .credentials a ctx].Sublist (sinceConnect a log)

variable (W) in
/-- The same, and the master key is that of an authorization of `p` which
the store held between the two states, or which the server gave when it was
asked for `p`. -/
def Proven (s₀ s' : Sys) (a p : CStr) (log : List Obs) : Prop :=
  ∃ ctx b auth code, Returned W s₀ s' p auth ∧
    base64Encode (W.hmac auth.masterKey b).toList = some code ∧
      [.sac a p code, .masterKey p auth.masterKey, .seed a b, .credentials a ctx].Sublist
        (sinceConnect a log)

/-- A code is proof where each master key was returned. -/
theorem Authenticated.proven (h : Authenticated W a p log)
    (hkeys : ∀ q key, .masterKey q key ∈ log → ∃ auth, auth.masterKey = key ∧
      Returned W s₀ s' q auth) : Proven W s₀ s' a p log := by
  obtain ⟨ctx, b, key, code, hcode, hsub⟩ := h
  have hmem : .masterKey p key ∈ log := (List.takeWhile_sublist _).subset (hsub.subset
    (List.mem_cons_of_mem _ (List.mem_cons_self ..)))
  obtain ⟨auth, rfl, hreturned⟩ := hkeys p key hmem
  exact ⟨ctx, b, auth, code, hreturned, hcode, hsub⟩

theorem SeedDrawn.lasts (h : SeedDrawn a x s.log) (hst : Lasts a s t) : SeedDrawn a x t.log := by
  obtain ⟨ctx, b, hb, hsub⟩ := h
  exact ⟨ctx, b, hb, hst.sublist hsub⟩

theorem Authenticated.lasts (h : Authenticated W a p s.log) (hst : Lasts a s t) :
    Authenticated W a p t.log := by
  obtain ⟨ctx, b, key, code, hcode, hsub⟩ := h
  exact ⟨ctx, b, key, code, hcode, hst.sublist hsub⟩

variable (W) in
/-- The connection of `a` lasts, and what the record says was shown on
it. -/
structure Live (a : CStr) (s : Sys) : Prop where
  connected : Connected a s.log
  seeded : ∀ x, s.user a = some x → x.state = .connected ∨ x.state = .authorized →
    SeedDrawn a x s.log
  authenticated : ∀ x, s.user a = some x → x.state = .authorized →
    Authenticated W a x.phoneId s.log

/-- **A session outlives** whatever leaves its connection, and resets its
record at most. -/
theorem Live.lasts (h : Live W a s) (hst : Lasts a s t)
    (huser : t.user a = s.user a ∨ t.user a = (s.user a).map UserInfo.reset) : Live W a t := by
  refine ⟨hst.connected h.connected, fun x hx hstate => ?_, fun x hx hstate => ?_⟩
  · rcases huser with huser | huser
    · exact (h.seeded x (huser ▸ hx) hstate).lasts hst
    · rw [huser] at hx
      obtain ⟨y, _, rfl⟩ := Option.map_eq_some_iff.1 hx
      rcases hstate with hstate | hstate <;> cases hstate
  · rcases huser with huser | huser
    · exact (h.authenticated x (huser ▸ hx) hstate).lasts hst
    · rw [huser] at hx
      obtain ⟨y, _, rfl⟩ := Option.map_eq_some_iff.1 hx
      cases hstate

theorem Live.of_rel {F : Footprint} (h : Live W a s) (hst : F.Rel s t) (hkey : ¬ F.key (hashKey a))
    (hobs : ∀ o, F.obs o → o ≠ .connect a ∧ o ≠ .disconnect a) : Live W a t :=
  h.lasts (lasts_of_rel hst hobs) ((hst.user a hkey).imp id fun h => h.2.2)

/-- The session of a connection that just began. -/
theorem Live.of_connecting (hlog : s.log = .connect a :: log)
    (h : (setUserState W a .connecting []).run s = (.ok (), t)) : Live W a t := by
  have hrel := setUserState_writes h
  obtain ⟨y, hy, _⟩ := (setUserState_ok h).self
  have hconnected : Connected a s.log := by
    rw [hlog]
    exact connected_connect
  refine ⟨(lasts_of_rel hrel fun _ => False.elim).connected hconnected, fun x hx hstate => ?_,
    fun x hx hstate => ?_⟩
  · rw [hy, Option.some.injEq] at hx
    subst hx
    rcases hstate with hstate | hstate <;> cases hstate
  · rw [hy, Option.some.injEq] at hx
    subst hx
    cases hstate

/-! ## A message -/

theorem talking_lasts (h : (talking a).Rel s t) : Lasts a s t := lasts_of_rel h fun o ho => by
  constructor
  · rintro rfl
    cases ho.1
  · rintro rfl
    cases ho.1

/-- **A command** keeps the session what its connection made it: an accepted
`SAC` adds the code that shows who the user is. -/
theorem checkCommand_live {cmd : CStr} {reply : Option CStr} (h : Live W a s)
    (hx : s.user a = some x) (hstate : x.state = .connected ∨ x.state = .authorized)
    (hrun : (checkCommand W cmd a).run s = (.ok reply, t)) : Live W a t := by
  have hrel : (commanding a).Rel s t := checkCommand_within_commanding.of_ok hrun
  have hlasts : Lasts a s t := lasts_of_rel hrel fun o ho => by
    constructor
    · rintro rfl
      cases ho
    · rintro rfl
      cases ho
  -- only an accepted `SAC` makes the state authorized, and it shows its code
  by_cases hw : word cmd = some (lit "SAC")
  · obtain ⟨c, _, _, hdispatch⟩ := exists_dispatch hw
    rw [hdispatch] at hrun
    rcases commandSAC_effect hrun with ⟨_, huser, _⟩ |
      ⟨_, p, code, key, ⟨y, b, hy, hb, hcode⟩, htrace, _, huser, _⟩
    · exact h.lasts hlasts (.inl (huser a))
    · rw [hx, Option.some.injEq] at hy
      subst hy
      have hauthorized : t.user a = some (x.authorize p) := by
        rw [huser a rfl, hx]
        rfl
      refine ⟨hlasts.connected h.connected, fun y hy _ => ?_, fun y hy _ => ?_⟩
      · rw [hauthorized, Option.some.injEq] at hy
        subst hy
        obtain ⟨ctx, b', hb', hsub⟩ := h.seeded x hx hstate
        exact ⟨ctx, b', hb', hlasts.sublist hsub⟩
      · rw [hauthorized, Option.some.injEq] at hy
        subst hy
        obtain ⟨ctx, b', hb', hsub⟩ := h.seeded x hx hstate
        rw [hb, Option.some.injEq] at hb'
        subst hb'
        exact ⟨ctx, b, key, code, hcode, hlasts.sublist_append (m := [_, _]) htrace hsub⟩
  · exact h.lasts hlasts (((checkCommand_unkeyed hrun hw).user a id).imp id fun h => h.2.2)

theorem Began.live {ctx : AESContext} {cmd : CStr} {s₁ : Sys} (hbegan : Began W a data ctx cmd s s₁)
    (h : Live W a s) : Live W a s₁ := by
  obtain ⟨new, hnew, hamb⟩ := hbegan.log
  refine h.lasts ⟨.command a cmd :: new ++ [.decrypt a ctx], ?_, fun o ho => ?_⟩ (.inl hbegan.user)
  · rw [hnew, List.append_assoc]
    rfl
  · simp only [List.cons_append, List.mem_cons, List.mem_append, List.not_mem_nil, or_false] at ho
    rcases ho with rfl | ho | rfl
    · exact ⟨nofun, nofun⟩
    · constructor
      · rintro rfl
        cases hamb _ ho
      · rintro rfl
        cases hamb _ ho
    · exact ⟨nofun, nofun⟩

/-- **A message keeps the session** what its connection made it. -/
theorem sessionResponse_live (h : Live W a s)
    (hrun : (sessionResponse W a data).run s = (.ok r, t)) :
    Live W a t := by
  have hlasts : Lasts a s t :=
    talking_lasts ((sessionResponse_within (talking_serves a)).of_ok hrun)
  obtain ⟨x, hx, hexchange⟩ := sessionResponse_ok hrun
  cases hexchange with
  | refused _ huser _ => exact h.lasts hlasts (.inl (huser a))
  | @opened ctx seed _ _ _ _ hwrote htrace =>
    have hopened := hwrote.of_some hx
    refine ⟨hlasts.connected h.connected, fun y hy _ => ?_, fun y hy hstate => ?_⟩
    · rw [hopened, Option.some.injEq] at hy
      subst hy
      have hnew := hlasts.sublist_append
        (m := [.seed a seed, .credentials a ctx, .tryCredentials a]) htrace (List.nil_sublist _)
      rw [List.append_nil] at hnew
      exact ⟨ctx, seed, rfl, (List.sublist_append_left [_, _] [_]).trans hnew⟩
    · rw [hopened, Option.some.injEq] at hy
      subst hy
      cases hstate
  | command hstate hbegan hcheck =>
    exact checkCommand_live (hbegan.live h) (by rw [hbegan.user, hx]) hstate hcheck
  | ignored _ => exact h

/-! ## The events -/

theorem Live.noted (h : Live W a s) (hc : o ≠ .connect a) (hd : o ≠ .disconnect a) :
    Live W a (s.noted o) :=
  h.lasts ⟨[o], rfl, fun _ ho => List.mem_singleton.1 ho ▸ ⟨hc, hd⟩⟩ (.inl rfl)

theorem Live.replying (h : Live W a s) (hst : (replying a).Rel s t) : Live W a t :=
  h.of_rel hst id fun o ho => by
    constructor
    · rintro rfl
      cases ho.1
    · rintro rfl
      cases ho.1

theorem Live.looking (h : Live W a s) (hst : looking.Rel s t) : Live W a t :=
  h.of_rel hst id fun _ => False.elim

theorem Live.aside (h : Live W a s) (hst : (aside a).rel s t) : Live W a t := by
  obtain ⟨_, huser, hlog⟩ := hst
  refine h.lasts (hlog.mono fun o ho => ⟨?_, ?_⟩) huser
  · rintro rfl
    exact ho rfl
  · rintro rfl
    exact ho rfl

theorem Live.apart (h : Live W a s) (hcur : hashKey s.currentBLEAddr ≠ hashKey a)
    (hst : (apart a).rel s t) : Live W a t := by
  obtain ⟨_, huser, hlog⟩ := hst
  refine h.lasts (hlog.mono fun o ho => ⟨?_, ?_⟩) (.inl (huser hcur).2)
  · rintro rfl
    exact ho.1 rfl
  · rintro rfl
    exact ho.1 rfl

/-- The lock does not await its first invite, and takes nobody for it. -/
structure NotInviting (s : Sys) : Prop where
  cache : s.registrationStatus ≠ registered
  server : s.serverStatus ≠ registered

/-- While the server does not report `REGISTERED`, the cache does not
either. -/
theorem NotInviting.of_asked (h : NotInviting s) (hst : asked.rel s t) : NotInviting t := by
  obtain ⟨hserver, hcache⟩ := hst
  refine ⟨?_, by rw [hserver]; exact h.server⟩
  rcases hcache with hcache | hcache | hcache
  · rw [hcache]
    exact h.cache
  · rw [hcache]
    decide
  · rw [hcache]
    exact h.server

/-- No message is one of the first-invite mode. -/
theorem NotInviting.not_awaits (h : NotInviting s) :
    (awaitsFirstInviteS3 W).run s ≠ (.ok true, t) := by
  intro hrun
  rcases awaitsFirstInviteS3_ok hrun with ⟨s₁, _, hstatus, _⟩ | ⟨_, _, _, hno⟩
  · rcases cachedRegistered_of_run hstatus with hcache | ⟨_, hserver⟩
    · exact h.cache hcache
    · exact h.server hserver
  · cases hno

/-- **A value written to the S3** keeps its session. -/
theorem processNormalData_live (h : Live W s.bleUserAddr s) (hn : NotInviting s)
    (hrun : (processNormalData W data).run s = (.ok (), s')) : Live W s.bleUserAddr s' := by
  rcases processNormalData_ok hrun with hrel | ⟨awaits, t, r, u, hawaits, hsession, hrel⟩
  · exact h.replying hrel
  · cases awaits with
    | true => exact absurd hawaits (NotInviting.not_awaits (s := s.noted _) ⟨hn.cache, hn.server⟩)
    | false =>
      rw [if_neg (by decide)] at hsession
      have ht : Live W s.bleUserAddr t :=
        (h.noted (o := .message _) nofun nofun).looking
          ((awaitsFirstInviteS3_within trivial).of_ok hawaits)
      exact (sessionResponse_live ht hsession).replying hrel

/-- **A message of TCP** keeps its session, while the connection lasts. -/
theorem doRetransmit_live {received : List UInt8} (h : Live W s.addrStr s)
    (hrun : (doRetransmit W received).run s = (.ok (), s')) (hs : s'.serving = true) :
    Live W s'.addrStr s' := by
  obtain ⟨r, u, hresponse, hends⟩ := doRetransmit_ok hrun
  have hu : Live W s.addrStr u :=
    sessionResponse_live (h.noted (o := .message _) nofun nofun) hresponse
  have hangs {v : Sys} (hhang : (hangUp W).run v = (.ok (), s')) : Live W s'.addrStr s' := by
    obtain ⟨t, _, rfl⟩ := hangUp_ok hhang
    cases hs
  rcases hends with ⟨_, hhang⟩ | ⟨response, text, sent, v, _, _, hquiet, hends⟩
  · exact hangs hhang
  · rcases hends with ⟨_, rfl⟩ | ⟨_, hhang⟩
    · have hrel : (talking s.addrStr).Rel (s.noted (.message s.addrStr)) u :=
        (sessionResponse_within (talking_serves _)).of_ok hresponse
      have haddr : v.addrStr = s.addrStr := (Sys.addrStr_of_servers hquiet.servers).trans
        (Sys.addrStr_of_servers hrel.servers)
      have hv : Live W s.addrStr v := hu.of_rel hquiet id fun _ => False.elim
      rw [← haddr] at hv ⊢
      exact hv.noted nofun nofun
    · exact hangs hhang

variable (W) in
/-- **The invariant**: the session of each connection that lasts is what
its connection made it. -/
structure Sessions (s : Sys) : Prop where
  wired : Wired W s
  notInviting : NotInviting s
  tcp : s.serving = true → Live W s.addrStr s
  s3 : s.isConnected = true → Live W s.bleUserAddr s

/-- The session of TCP, while BLE is served. -/
theorem Sessions.tcp_of_apart (h : Sessions W s) (hst : ∀ ip, (apart (inetNtoa ip)).rel s s')
    (hs : s'.serving = true) : Live W s'.addrStr s' := by
  obtain ⟨⟨haddr, hserving⟩, _⟩ := hst #v[0, 0, 0, 0]
  rw [hserving] at hs
  obtain ⟨ip, hip⟩ := h.wired.tcp hs
  have hlive := h.tcp hs
  rw [hip] at hlive
  rw [haddr, hip]
  exact hlive.apart (h.wired.current_ne ip) (hst ip)

/-- The session of BLE, while TCP is served. -/
theorem Sessions.s3_of_aside (h : Sessions W s)
    (hst : ∀ x : Address, x.isBle = true → (aside x.text).rel s s') (hs : s'.isConnected = true) :
    Live W s'.bleUserAddr s' := by
  have hservers := (hst .bleUser rfl).1
  simp only [Sys.bleServers, Prod.mk.injEq] at hservers
  obtain ⟨haddr, hconn, _⟩ := hservers
  rw [hconn] at hs
  obtain ⟨⟨bda, hbda⟩, _⟩ := h.wired.s3 hs
  have hlive := h.s3 hs
  rw [hbda] at hlive
  rw [haddr, hbda]
  exact hlive.aside (hst (.ble bda) rfl)

/-- What neither transport has to do with. -/
theorem Sessions.lives (h : Sessions W s)
    (hservers : s'.addrStr = s.addrStr ∧ s'.serving = s.serving ∧
      s'.bleUserAddr = s.bleUserAddr ∧ s'.isConnected = s.isConnected)
    (huser : ∀ a, s'.user a = s.user a) (hlog : ∀ a, Lasts a s s') :
    (s'.serving = true → Live W s'.addrStr s') ∧
      (s'.isConnected = true → Live W s'.bleUserAddr s') := by
  obtain ⟨haddr, hserving, hble, hconn⟩ := hservers
  rw [haddr, hserving, hble, hconn]
  exact ⟨fun hs => (h.tcp hs).lasts (hlog _) (.inl (huser _)),
    fun hs => (h.s3 hs).lasts (hlog _) (.inl (huser _))⟩

/-- **Every event keeps the invariant**, unless the server now reports
`REGISTERED`. -/
theorem step_sessions (hW : W.target = .esp32s3) (h : Sessions W s)
    (he : e ≠ .serverStatus registered) (hrun : (step W e).run s = (.ok (), s')) :
    Sessions W s' := by
  have hwired : Wired W s' := (step_wired e).of_ok hrun h.wired
  -- the server moves its status by its own event only, which is not to `REGISTERED`
  have hnotInviting : NotInviting s' := by
    by_cases hstatus : ∃ status, e = .serverStatus status
    · obtain ⟨status, rfl⟩ := hstatus
      cases hrun
      exact ⟨h.notInviting.cache, fun heq => he (by rw [← heq])⟩
    · have hasked := asked_over.step h.wired fun status heq => hstatus ⟨status, heq⟩
      exact h.notInviting.of_asked (Frame.of_run hasked hrun)
  suffices hlives : (s'.serving = true → Live W s'.addrStr s') ∧
      (s'.isConnected = true → Live W s'.bleUserAddr s') from
    ⟨hwired, hnotInviting, hlives.1, hlives.2⟩
  rw [step, run_get_bind] at hrun
  by_cases henabled : e.enabled W s
  · rw [if_pos henabled] at hrun
    -- each event serves one transport and leaves the session of the other aside
    cases e with
    | tcpAccept ip =>
      refine ⟨fun _ => ?_, h.s3_of_aside fun x hx =>
        (aside_overTcp (hashKey_ipv4_ne hx ip)).tcpAccept.of_ok hrun⟩
      rw [SmartLock.handle, run_tcpAccept] at hrun
      have hrel : (talking (inetNtoa ip)).Rel _ s' := (setUserState_within rfl).of_ok hrun
      rw [Sys.addrStr_of_servers hrel.servers]
      exact .of_connecting (s := s.accepted ip) rfl hrun
    | tcpRecv received =>
      obtain ⟨ip, hip⟩ := h.wired.tcp (enabled_tcpRecv henabled)
      refine ⟨doRetransmit_live (h.tcp (enabled_tcpRecv henabled)) hrun,
        h.s3_of_aside fun x hx => ?_⟩
      exact Frame.of_run ((aside_overTcp (hashKey_ipv4_ne hx ip)).doRetransmit hip) hrun
    | tcpClose =>
      obtain ⟨ip, hip⟩ := h.wired.tcp henabled
      refine ⟨fun hs => ?_, h.s3_of_aside fun x hx => ?_⟩
      · cases hrun
        cases hs
      · exact Frame.of_run ((aside_overTcp (hashKey_ipv4_ne hx ip)).tcpEnd hip) hrun
    | bleConnect bda =>
      refine ⟨h.tcp_of_apart fun ip => (apart_overS3 ip bda).gattsConnect.of_ok hrun, fun _ => ?_⟩
      rw [SmartLock.handle, run_gattsConnect] at hrun
      have hrel : client.rel (s.gattsConnected bda) s' :=
        (client_talks.steps (a := macText bda) (setUserState_within rfl)).of_ok hrun
      rw [hrel.1]
      exact .of_connecting (s := s.gattsConnected bda) rfl hrun
    | bleDisconnect =>
      obtain ⟨⟨bda, hbda⟩, _⟩ := h.wired.s3 (enabled_bleDisconnect henabled)
      refine ⟨h.tcp_of_apart fun ip => ?_, fun hs => ?_⟩
      · exact Frame.of_run ((apart_overS3 ip bda).gattsDisconnect hbda) hrun
      · rw [SmartLock.handle, run_gattsDisconnect] at hrun
        obtain ⟨_, t, hset, hobs⟩ := bind_ok.1 hrun
        cases hobs
        have hrel : client.rel s.gattsDisconnected t :=
          (client_talks.steps (setUserState_within rfl)).of_ok hset
        exact absurd (hrel.2.symm.trans hs) Bool.false_ne_true
    | bleWrite value =>
      have hconnected := enabled_bleWrite henabled
      obtain ⟨⟨bda, hbda⟩, _⟩ := h.wired.s3 hconnected
      refine ⟨h.tcp_of_apart fun ip => ?_, fun _ => ?_⟩
      · exact Frame.of_run ((apart_overS3 ip bda).processNormalData hbda) hrun
      · have hrel : client.rel s s' :=
          Frame.of_run (processNormalData_rel client_talks (fun s _ => client.refl s) rfl) hrun
        rw [hrel.1]
        exact processNormalData_live (h.s3 hconnected) h.notInviting hrun
    | uart received => exact absurd (enabled_uart henabled) (by rw [hW]; decide)
    | serverStatus status =>
      cases hrun
      exact h.lives ⟨rfl, rfl, rfl, rfl⟩ (fun _ => rfl) fun _ => Grows.refl _ _
    | initRsaKey =>
      have hrel : looking.Rel s s' := (initRsaKey_within trivial).of_ok hrun
      have hservers := hrel.servers
      exact h.lives ⟨Sys.addrStr_of_servers hservers, Sys.serving_of_servers hservers,
          Sys.bleUserAddr_of_servers hservers, Sys.isConnected_of_servers hservers⟩
        (fun _ => hrel.user_eq id fun h => h.1) fun _ => lasts_of_rel hrel fun _ => False.elim
    | setWifiConnected connected =>
      cases hrun
      exact h.lives ⟨rfl, rfl, rfl, rfl⟩ (fun _ => rfl) fun _ => Grows.refl _ _
    | serverOnline =>
      cases hrun
      exact h.lives ⟨rfl, rfl, rfl, rfl⟩ (fun _ => rfl) fun _ => Grows.refl _ _
  · rw [if_neg henabled] at hrun
    cases hrun
    exact ⟨h.tcp, h.s3⟩

/-! ## The door -/

variable (W) in
/-- The command that acts on the door with the log at `pre`, at an event
that came in the state `s`. If it is an `RUD` or `RLD`, its connection lasts
and `Shown` what its user showed of a phone before; of this phone, and of no
other, an authorization was consulted, and what is stored under the phone
was judged to give the right. -/
def Authentic (Shown : CStr → CStr → List Obs → Prop) (s : Sys) (pre : List Obs) : Prop :=
  ∃ post a cmd rest, pre = post ++ .command a cmd :: rest ∧ (∀ o ∈ post, o.isCommand = false) ∧
    (word cmd = some (lit "RUD") ∨ word cmd = some (lit "RLD") → Connected a rest ∧
      ∃ p, .consult p ∈ post ∧ (∀ q, .consult q ∈ post → q = p) ∧
        (∃ auth k, s.authorizations p = some auth ∧ s.moment ≤ k ∧ JudgedBy Tested W auth k) ∧
        Shown a p rest)

theorem Authentic.imp (h : Authentic W Shown s pre)
    (himp : ∀ a p rest, rest <:+ pre → Shown a p rest → Shown' a p rest) :
    Authentic W Shown' s pre := by
  obtain ⟨post, a, cmd, rest, rfl, hpost, hdoor⟩ := h
  refine ⟨post, a, cmd, rest, rfl, hpost, fun hw => ?_⟩
  obtain ⟨hconnected, p, hmem, hall, hjudged, hshown⟩ := hdoor hw
  exact ⟨hconnected, p, hmem, hall, hjudged, himp a p rest
    ((List.suffix_cons _ _).trans (List.suffix_append _ _)) hshown⟩

/-- What is on the log above `l` was put there since. -/
theorem mem_of_suffix_append {new l mid : List Obs} (h₁ : l <:+ mid) (h₂ : o :: mid <:+ new ++ l) :
    o ∈ new := by
  obtain ⟨m, rfl⟩ := h₁
  obtain ⟨k, hk⟩ := h₂
  have hsplit : k ++ o :: m = new := by
    have hall : (k ++ o :: m) ++ l = new ++ l := by
      rw [List.append_assoc, List.cons_append]
      exact hk
    exact List.append_cancel_right hall
  rw [← hsplit]
  exact List.mem_append_right _ (List.mem_cons_self ..)

/-- What uses the lock has gone through the checks. -/
theorem During.mayUse {cmd : CStr} (h : During W cmd a s o pre)
    (ho : o = .unlockLock ∨ o = .lockLock)
    (hw : word cmd = some (lit "RUD") ∨ word cmd = some (lit "RLD")) :
    ∃ s₂, MayUse W cmd 3 a s s₂ ∧ s₂.log <:+ pre := by
  have hgate := h.gate
  rcases ho with rfl | rfl
  · exact hgate.2
  · rcases hgate with hgate | ⟨hrds, _⟩
    · exact hgate.2
    · rw [hrds] at hw
      exact absurd hw (by decide)

/-- **A command that acts on the door** in a session that is what its
connection made it. -/
theorem During.authentic {ctx : AESContext} {cmd : CStr} {s₁ : Sys} (h : During W cmd a s₁ o pre)
    (hd : Dispatch W s e a data t) (hbegan : Began W a data ctx cmd t s₁) (hlive : Live W a t)
    (ho : o = .unlockLock ∨ o = .lockLock) : Authentic W (Authenticated W) s pre := by
  obtain ⟨post, rfl, hpost⟩ := h.since
  obtain ⟨new, hlog, hamb⟩ := hbegan.log
  refine ⟨post, a, cmd, new ++ .decrypt a ctx :: t.log, ?_, fun o' ho' => ?_, fun hw => ?_⟩
  · rw [hlog]
    rfl
  · rcases hpost o' ho' with ho' | ho'
    · cases o' <;> first | rfl | cases ho'
    · cases o' <;> first | rfl | cases ho'
  obtain ⟨s₂, hmay, hs₂⟩ := h.mayUse ho hw
  obtain ⟨p, mid, ⟨⟨x, hx, hstate, hphone⟩, _⟩, hmid, hconsult⟩ := hmay.consult
  -- the log when the command was decrypted
  have hbefore : Lasts a t { t with log := new ++ .decrypt a ctx :: t.log } := by
    refine ⟨new ++ [.decrypt a ctx], by rw [List.append_assoc]; rfl, fun o' ho' => ?_⟩
    rcases List.mem_append.1 ho' with ho' | ho'
    · constructor
      · rintro rfl
        cases hamb _ ho'
      · rintro rfl
        cases hamb _ ho'
    · rw [List.mem_singleton.1 ho']
      exact ⟨nofun, nofun⟩
  have hx' : t.user a = some x := by rw [← hbegan.user, hx]
  refine ⟨hbefore.connected hlive.connected, p, mem_of_suffix_append hmid (hconsult.trans hs₂),
    fun q hq => ?_, ?_, ?_⟩
  · obtain ⟨_, ⟨y, hy, _, hq⟩, _⟩ := h.earlier post rfl _ hq
    rw [hx, Option.some.injEq] at hy
    subst hy
    exact hq.symm.trans hphone
  · obtain ⟨q, auth, k, ⟨⟨y, hy, _, hq⟩, _⟩, hstored, hk, hjudged⟩ := hmay.judged
    rw [hx, Option.some.injEq] at hy
    subst hy
    obtain rfl : p = q := hphone.symm.trans hq
    obtain ⟨hkept, hmoment, -⟩ := hd.stored hbegan
    exact ⟨auth, k, hkept.of_some hstored, hmoment.trans hk, hjudged⟩
  · rw [← hphone]
    exact (hlive.authenticated x hx' hstate).lasts hbefore

/-- The session in which a message is decrypted is what its connection made
it. -/
theorem Dispatch.live (hW : W.target = .esp32s3) (h : Sessions W s) (hd : Dispatch W s e a data t) :
    Live W a t := by
  cases hd with
  | tcp henabled _ => exact (h.tcp (enabled_tcpRecv henabled)).noted nofun nofun
  | inviteS3 _ hawaits _ =>
    exact absurd hawaits
      (NotInviting.not_awaits (s := s.noted _) ⟨h.notInviting.cache, h.notInviting.server⟩)
  | sessionS3 hbrings hawaits _ =>
    cases hbrings with
    | s3 henabled _ _ =>
      exact ((h.s3 (enabled_bleWrite henabled)).noted (o := .message _) nofun nofun).looking
        ((awaitsFirstInviteS3_within trivial).of_ok hawaits)
  | invite hbrings _ _ =>
    cases hbrings with
    | uart henabled _ _ _ => exact absurd (enabled_uart henabled) (by rw [hW]; decide)
  | session hbrings _ _ _ =>
    cases hbrings with
    | uart henabled _ _ _ => exact absurd (enabled_uart henabled) (by rw [hW]; decide)

/-- **At every event** the door is acted on for users who showed who they
are. -/
theorem step_authentic (hW : W.target = .esp32s3) (h : Sessions W s) :
    Makes (fun o pre => o = .unlockLock ∨ o = .lockLock → Authentic W (Authenticated W) s pre)
      s (step W e) := by
  refine step_makes ?_ fun a data t hd x hx => ⟨nofun, fun cmd s₁ hbegan o pre hduring ho => ?_⟩
  · rintro o hcommand _ pre (rfl | rfl)
    · cases hcommand
    · cases hcommand
  · exact hduring.authentic hd hbegan (hd.live hW h) ho

theorem Boot.sessions (h : Boot W s) (hserver : s.serverStatus ≠ registered) : Sessions W s where
  wired := h.wired
  notInviting := ⟨by rw [h.registrationStatus]; decide, hserver⟩
  tcp hs := absurd hs (by rw [h.serving]; decide)
  s3 hc := absurd hc (by rw [h.isConnected]; decide)

/-- Every run keeps the invariant. -/
theorem run_sessions (hW : W.target = .esp32s3) (hboot : Boot W s₀)
    (hserver : s₀.serverStatus ≠ registered) (hes : ∀ e ∈ es, e ≠ .serverStatus registered)
    (hrun : (run W es).run s₀ = (.ok (), s)) : Sessions W s :=
  exec_keeps_of_mem (fun _ _ _ he hs hstep => step_sessions hW hs he hstep) hes
    (hboot.sessions hserver) hrun

/-- **Whoever opens or locks the door has shown who they are**, on the very
connection and for the very phone whose stored authorization is consulted,
by the master key that the store or the server returned for this phone: at
every event, whatever its outcome, behind every run of TCP and the S3 in
which the server never reports `REGISTERED`. -/
theorem door_authentic {outcome : Except Fault Unit} (hW : W.target = .esp32s3)
    (hboot : Boot W s₀) (hserver : s₀.serverStatus ≠ registered)
    (hes : ∀ e ∈ es, e ≠ .serverStatus registered) (hrun : (run W es).run s₀ = (.ok (), s))
    (hstep : (step W e).run s = (outcome, s')) (hmade : Made s s' o pre)
    (ho : o = .unlockLock ∨ o = .lockLock) : Authentic W (Proven W s₀ s') s pre := by
  have hsessions : Sessions W s := run_sessions hW hboot hserver hes hrun
  have hauthentic : Authentic W (Authenticated W) s pre :=
    (step_authentic hW hsessions).of_run hstep hmade ho
  refine hauthentic.imp fun a p rest hrest hshown => hshown.proven fun q key hmem => ?_
  -- all that is on the log was observed since the start
  have hreturning : (returning W).rel s₀ s' := (returning W).trans
    ((returning_pieces.run es).of_ok hrun) (Frame.of_run (returning_pieces.step e s) hstep)
  obtain ⟨_, new, hnew, hkeys⟩ := hreturning
  have hmade' : .masterKey q key ∈ s'.log :=
    (((hrest.trans (List.suffix_cons o pre)).trans hmade.after).subset hmem)
  rw [hnew, hboot.log, List.append_nil] at hmade'
  exact hkeys _ hmade' q key rfl

/-! ## Runs on fixed inputs -/

/-- The lock as it starts, with an administrator in its store. -/
def adminStored : Sys :=
  { Sys.initial with authorizations := fun _ => some ⟨Vector.replicate 16 0, UserType.admin,
      Vector.replicate 32 0, Vector.replicate 7 false, 0, 0, 0⟩ }

theorem boot_adminStored : Boot W adminStored := ⟨nofun, rfl, rfl, rfl, rfl, rfl, rfl, rfl, rfl⟩

/-- The door is opened at the last event, and not before. -/
theorem exists_unlocking : ∃ s s' pre,
    (run (World.answering .esp32s3) unlocking.dropLast).run adminStored = (.ok (), s) ∧
      (step (World.answering .esp32s3) (.tcpRecv (sealedText (lit "RUD 90 200 8")))).run s =
        (.ok (), s') ∧ Made s s' .unlockLock pre := by
  obtain ⟨s, hs⟩ : ∃ s,
      ((run (World.answering .esp32s3) unlocking.dropLast).run adminStored).2 = s := ⟨_, rfl⟩
  obtain ⟨s', hs'⟩ : ∃ s', ((step (World.answering .esp32s3)
      (.tcpRecv (sealedText (lit "RUD 90 200 8")))).run s).2 = s' := ⟨_, rfl⟩
  have hrun : ((run (World.answering .esp32s3) unlocking.dropLast).run adminStored).1 = .ok () := by
    decide +kernel
  have hstep : ((step (World.answering .esp32s3)
      (.tcpRecv (sealedText (lit "RUD 90 200 8")))).run s).1 = .ok () := by
    rw [← hs]
    decide +kernel
  have hbefore : .unlockLock ∉ s.log := by
    rw [← hs]
    decide +kernel
  have hmem : .unlockLock ∈ s'.log := by
    rw [← hs', ← hs]
    decide +kernel
  have hgrows : (returning (World.answering .esp32s3)).rel s s' := by
    rw [← hs']
    exact returning_pieces.step _ s
  obtain ⟨post, pre, hlog⟩ := List.append_of_mem hmem
  have hmade : Made adminStored s' .unlockLock pre := ⟨List.nil_suffix, ⟨post, hlog.symm⟩⟩
  refine ⟨s, s', pre, Prod.ext hrun hs, Prod.ext hstep hs', ?_⟩
  refine (hmade.split hgrows.2.suffix).resolve_left fun h => hbefore ?_
  exact h.after.subset (List.mem_cons_self ..)

/-- The theorem, where a door is opened. -/
theorem door_authentic_unlocking : ∃ s s' pre,
    (run (World.answering .esp32s3) unlocking.dropLast).run adminStored = (.ok (), s) ∧
      Made s s' .unlockLock pre ∧
      Authentic (World.answering .esp32s3) (Proven (World.answering .esp32s3) adminStored s')
        s pre := by
  obtain ⟨s, s', pre, hrun, hstep, hmade⟩ := exists_unlocking
  exact ⟨s, s', pre, hrun, hmade, door_authentic rfl boot_adminStored (by decide)
    (by decide) hrun hstep hmade (.inl rfl)⟩

end SmartLock
