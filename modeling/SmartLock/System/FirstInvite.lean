import SmartLock.System.Beside
import SmartLock.System.Dispatch

/-!
# First-invite mode

While the lock awaits its first invite the BLE servers tell the credentials
of a client from its command by a flag, which a connection that begins or
ends leaves as it is. A client that leaves between the two messages leaves
the flag set, and the first message of the next client is decrypted, under
a key that client never sent. Where this does not happen, the flag and the
key go together.
-/

namespace SmartLock

open Prog

variable {W : World} {a data : CStr} {s t u s' : Sys} {e : Event} {es : List Event}
variable {log : List Obs} {ctx : AESContext}

/-! ## Messages of BLE -/

/-- No message was handled since the connection began. -/
def Fresh (a : CStr) (log : List Obs) : Prop := .message a ∉ sinceConnect a log

variable (W) in
/-- The server that handles the event takes the registration status for
`REGISTERED`. -/
def FirstInviteMode : Event → Sys → Prop
  | .bleWrite _, s => ∃ t, (awaitsFirstInviteS3 W).run (s.noted (.message s.bleUserAddr)) =
      (.ok true, t)
  | .uart received, s => ∃ t, (getRegistrationStatus W).run
      ((s.buffered received).noted (.message bleUser)) = (.ok registered, t)
  | _, _ => True

/-- The flag of the server that handles the event. -/
def Event.flag : Event → Sys → Bool
  | uart _, s => s.gotFirstInviteSessionKey
  | _, s => s.gotFirstInviteSessionKeyS3

variable (W) in
/-- The first message since a connection began does not find the flag the
last client left set. -/
def FlagClear (e : Event) (s : Sys) : Prop :=
  ∀ a, Brings W s e a → .connect a ∈ s.log → Fresh a s.log → e.flag s = false

variable (W) in
/-- First-invite mode is bound to the connection: the first message since it
began is taken for credentials, and what is decrypted is decrypted under a
context that credentials have set since. -/
def BoundToConnection (e : Event) (s : Sys) : Prop :=
  ∀ outcome s', (step W e).run s = (outcome, s') →
    (∀ a, Brings W s e a → .connect a ∈ s.log → Fresh a s.log →
      .tryCredentials a :: .message a :: s.log <:+ s'.log) ∧
    ∀ x : Address, x.isBle = true → ∀ ctx pre, Made s s' (.decrypt x.text ctx) pre →
      .connect x.text ∈ pre → .credentials x.text ctx ∈ sinceConnect x.text pre

/-! ## The flag and the key -/

/-- The flag is set only where no message was handled yet, or the context
of the session was set since the connection began. -/
def Held (a : CStr) (flag : Bool) (s : Sys) : Prop :=
  .connect a ∈ s.log → ∃ ctx, (s.user a).map UserInfo.aesCtx = some ctx ∧
    (flag = true → Fresh a s.log ∨ .credentials a ctx ∈ sinceConnect a s.log)

/-- What leaves the flags, the context of `a`, and the messages of `a`. -/
def calm (a : CStr) : Frame Sys where
  rel s t := t.bleServers = s.bleServers ∧
    ((s.user a).isSome → (t.user a).map UserInfo.aesCtx = (s.user a).map UserInfo.aesCtx) ∧
    Grows (fun o => o ≠ .connect a ∧ o ≠ .message a) s t
  refl s := ⟨rfl, fun _ => rfl, Grows.refl _ s⟩
  trans h₁ h₂ := by
    obtain ⟨hservers₁, huser₁, hlog₁⟩ := h₁
    obtain ⟨hservers₂, huser₂, hlog₂⟩ := h₂
    refine ⟨hservers₂.trans hservers₁, fun h => ?_, hlog₁.trans hlog₂⟩
    have huser := huser₁ h
    rw [← huser]
    refine huser₂ ?_
    rw [← Option.isSome_map (f := UserInfo.aesCtx), huser, Option.isSome_map]
    exact h

/-- **What is calm keeps the flag and the key together.** -/
theorem Held.calm {flag : Bool} (h : Held a flag s) (hcalm : (calm a).rel s t) : Held a flag t := by
  obtain ⟨_, huser, new, hnew, hp⟩ := hcalm
  have hconnect : .connect a ∉ new := fun hmem => (hp _ hmem).1 rfl
  intro hmem
  rw [hnew, List.mem_append] at hmem
  obtain ⟨ctx, hctx, hheld⟩ := h (hmem.resolve_left hconnect)
  refine ⟨ctx, ?_, fun hflag => ?_⟩
  · rw [huser, hctx]
    rw [← Option.isSome_map (f := UserInfo.aesCtx), hctx]
    rfl
  · rw [Fresh, hnew, sinceConnect_append hconnect]
    rcases hheld hflag with hfresh | hcred
    · refine .inl fun hmem => (List.mem_append.1 hmem).elim (fun hmem => (hp _ hmem).2 rfl) hfresh
    · exact .inr (List.mem_append_right _ hcred)

/-- What touches the session of `a` at most by the reset is calm. -/
theorem calm_of_rel {F : Footprint} (h : F.Rel s t) (hkey : ¬ F.key (hashKey a))
    (hobs : ∀ o, F.obs o → o ≠ .connect a ∧ o ≠ .message a) : (calm a).rel s t := by
  refine ⟨bleServers_of_servers h.servers, fun _ => ?_, ?_⟩
  · rcases h.user a hkey with huser | ⟨_, _, huser⟩
    · rw [huser]
    · rw [huser, Option.map_map]
      rfl
  · obtain ⟨new, hnew, hp⟩ := h.log
    refine ⟨new, hnew, fun o ho => (hp o ho).elim (fun ho => ⟨?_, ?_⟩) (hobs o)⟩
    · rintro rfl
      cases ho
    · rintro rfl
      cases ho

theorem setUserState_calm {state : UserState} {phone : CStr}
    (h : (setUserState W a state phone).run s = (.ok (), t)) : (calm a).rel s t := by
  have hrel := setUserState_writes h
  obtain ⟨r, hr, heq⟩ := (setUserState_ok h).self
  obtain ⟨new, hnew, hp⟩ := hrel.log
  refine ⟨bleServers_of_servers hrel.servers, fun hsome => ?_, new, hnew, fun o ho => ?_⟩
  · obtain ⟨r₀, hr₀⟩ := Option.isSome_iff_exists.1 hsome
    rw [hr, hr₀, heq r₀ hr₀]
    rfl
  · have hamb := (hp o ho).resolve_right id
    constructor
    · rintro rfl
      cases hamb
    · rintro rfl
      cases hamb

/-! ## A message in first-invite mode -/

/-- `setFlag` assigns the flag, which is the server's own. -/
structure FlagOf (flag : Sys → Bool) (setFlag : Bool → Sys → Sys) : Prop where
  set : ∀ b s, flag (setFlag b s) = b
  user : ∀ b s, (setFlag b s).user = s.user
  log : ∀ b s, (setFlag b s).log = s.log
  servers : ∀ s t : Sys, t.bleServers = s.bleServers → flag t = flag s

theorem flagOf_s3 : FlagOf Sys.gotFirstInviteSessionKeyS3
    fun b s => { s with gotFirstInviteSessionKeyS3 := b } :=
  ⟨fun _ _ => rfl, fun _ _ => rfl, fun _ _ => rfl, fun _ _ h => (Prod.mk.inj (Prod.mk.inj
    (Prod.mk.inj h).2).2).1⟩

theorem flagOf_uart : FlagOf Sys.gotFirstInviteSessionKey
    fun b s => { s with gotFirstInviteSessionKey := b } :=
  ⟨fun _ _ => rfl, fun _ _ => rfl, fun _ _ => rfl, fun _ _ h => (Prod.mk.inj (Prod.mk.inj
    (Prod.mk.inj h).2).2).2⟩

variable {flag : Sys → Bool} {setFlag : Bool → Sys → Sys} {r : Option Response}

/-- **A message in first-invite mode keeps the flag and the key together**,
whatever they were: it clears the flag, or finds it clear and sets it with
the key. -/
theorem firstInviteResponse_held (hflag : FlagOf flag setFlag)
    (h : (firstInviteResponse W flag setFlag a data).run t = (.ok r, u))
    (hknown : .connect a ∈ t.log → (t.user a).isSome) : Held a (flag u) u := by
  -- with the flag clear it is enough that the record is there
  have hclear {v : Sys} (hf : flag v = false) (hsome : .connect a ∈ v.log → (v.user a).isSome) :
      Held a (flag v) v := by
    intro hmem
    obtain ⟨x, hx⟩ := Option.isSome_iff_exists.1 (hsome hmem)
    exact ⟨x.aesCtx, by rw [hx]; rfl, fun hset => absurd (hset.symm.trans hf) (by decide)⟩
  have hgrown {v w : Sys} (hrel : (talking a).Rel v w) :
      .connect a ∈ w.log → .connect a ∈ v.log := by
    obtain ⟨new, hnew, hp⟩ := hrel.log
    rw [hnew, List.mem_append]
    refine Or.rec (fun hmem => ?_) id
    rcases hp _ hmem with ho | ho
    · cases ho
    · cases ho.1
  rw [firstInviteResponse, run_get_bind] at h
  by_cases hset : flag t
  · rw [if_pos hset] at h
    obtain ⟨_, t₁, hmod, hcommand⟩ := bind_ok.1 h
    cases hmod
    obtain ⟨response, t₂, hrun, hret⟩ := bind_ok.1 hcommand
    cases hret
    have hrel := (commandResponse_within (talking_serves a)).of_ok hrun
    refine hclear ?_ fun hmem => hrel.kept a ?_
    · rw [hflag.servers _ _ (bleServers_of_servers hrel.servers), hflag.set]
    · rw [hflag.user]
      exact hknown (by rw [← hflag.log false t]; exact hgrown hrel hmem)
  · rw [if_neg hset] at h
    obtain ⟨ok, t₁, hcred, hanswers⟩ := bind_ok.1 h
    have hrel := (credentials_within (talking_serves a)).of_ok hcred
    rcases retrieveSessionCredentials_ok hcred with ⟨rfl, _, _⟩ | ⟨rfl, ctx, hwrote, htrace⟩
    · cases hanswers
      refine hclear ?_ fun hmem => hrel.kept a (hknown (hgrown hrel hmem))
      rw [hflag.servers _ _ (bleServers_of_servers hrel.servers)]
      exact Bool.eq_false_iff.2 hset
    · obtain ⟨ctx', t₂, hctx, hsets⟩ := bind_ok.1 hanswers
      obtain ⟨x, t₃, hx, hret⟩ := bind_ok.1 hctx
      obtain ⟨_, rfl⟩ := derefUser_ok.1 hx
      cases hret
      obtain ⟨_, t₄, hmod, hret⟩ := bind_ok.1 hsets
      cases hmod
      cases hret
      obtain ⟨y, hy, _⟩ := hwrote.self
      obtain ⟨new, hnew, hsub⟩ := exists_sublist (l := [.credentials a ctx, .tryCredentials a])
        hrel.log.suffix htrace
      -- no connection begins in between, so the credentials are of this one
      have hconnect : .connect a ∉ new := by
        obtain ⟨new', hnew', hp⟩ := hrel.log
        rw [List.append_cancel_right (hnew.symm.trans hnew')]
        intro hmem
        rcases hp _ hmem with ho | ho
        · cases ho
        · cases ho.1
      refine fun _ => ⟨ctx, ?_, fun _ => .inr ?_⟩
      · rw [hflag.user, hy]
        rfl
      · rw [hflag.log, hnew, sinceConnect_append hconnect]
        exact List.mem_append_left _ (hsub.subset (List.mem_cons_self ..))

/-! ## The events -/

variable (W) in
/-- In every state the flag of a server and the key of its client go
together. -/
structure FlagHeld (s : Sys) : Prop where
  wired : Wired W s
  s3 : s.isConnected = true → Held s.bleUserAddr s.gotFirstInviteSessionKeyS3 s
  uart : W.target = .esp32s2 → Held bleUser s.gotFirstInviteSessionKey s

/-- What is calm for all clients of BLE. -/
theorem FlagHeld.calm (h : FlagHeld W s) (hw : Wired W t)
    (hcalm : ∀ x : Address, x.isBle = true → (calm x.text).rel s t) : FlagHeld W t := by
  have hservers := (hcalm .bleUser rfl).1
  simp only [Sys.bleServers, Prod.mk.injEq] at hservers
  obtain ⟨haddr, hconn, hs3, huart⟩ := hservers
  refine ⟨hw, fun hc => ?_, fun hW => ?_⟩
  · rw [hconn] at hc
    obtain ⟨⟨bda, hbda⟩, _⟩ := h.wired.s3 hc
    have hheld := h.s3 hc
    rw [haddr, hs3]
    rw [hbda] at hheld ⊢
    exact hheld.calm (hcalm (.ble bda) rfl)
  · rw [huart]
    exact (h.uart hW).calm (hcalm .bleUser rfl)

theorem calm_of_aside (h : (aside a).rel s t) : (calm a).rel s t := by
  obtain ⟨hservers, huser, new, hnew, hp⟩ := h
  refine ⟨hservers, fun _ => ?_, new, hnew, fun o ho => ⟨?_, ?_⟩⟩
  · rcases huser with huser | huser
    · rw [huser]
    · rw [huser, Option.map_map]
      rfl
  · rintro rfl
    exact hp _ ho rfl
  · rintro rfl
    exact hp _ ho rfl

theorem calm_of_tcp (x : Address) (hx : x.isBle = true) (ip : Vector UInt8 4) :
    OverTcp (aside x.text) ip := aside_overTcp (hashKey_ipv4_ne hx ip)

theorem calm_of_replying (h : (replying a).Rel s t) : (calm a).rel s t := by
  refine calm_of_rel h id fun o ho => ⟨?_, ho.2⟩
  rintro rfl
  cases ho.1

/-- The record of a connection that just began: its first message is still
to come. -/
theorem held_of_connect {state : UserState} {phone : CStr} {flag : Bool}
    (h : (setUserState W a state phone).run s = (.ok (), t))
    (hlog : ∃ new, s.log = new ++ .connect a :: log ∧ ∀ o ∈ new, o.ambient = true) :
    Held a flag t := by
  have hrel := setUserState_writes h
  obtain ⟨x, hx, _⟩ := (setUserState_ok h).self
  obtain ⟨new, hnew, hp⟩ := hrel.log
  obtain ⟨new', hnew', hamb⟩ := hlog
  have hall (o : Obs) (ho : o ∈ new ++ new') : o.ambient = true :=
    (List.mem_append.1 ho).elim (fun ho => (hp o ho).resolve_right id) (hamb o)
  refine fun _ => ⟨_, by rw [hx]; rfl, fun _ => .inl ?_⟩
  rw [Fresh, hnew, hnew', ← List.append_assoc, sinceConnect_append, sinceConnect_connect,
    List.append_nil]
  · exact fun hmem => Bool.false_ne_true (hall _ hmem)
  · exact fun hmem => Bool.false_ne_true (hall _ hmem)

/-- A connection of the S3 begins. -/
theorem gattsConnect_held {bda : Vector UInt8 6} (h : (gattsConnect W bda).run s = (.ok (), t)) :
    Held t.bleUserAddr t.gotFirstInviteSessionKeyS3 t := by
  rw [run_gattsConnect] at h
  rw [Sys.bleUserAddr_of_servers (setUserState_writes h).servers]
  exact held_of_connect h ⟨[], rfl, fun _ ho => absurd ho List.not_mem_nil⟩

/-- A message, from where the status was asked for. -/
theorem Held.message (hflag : FlagOf flag setFlag) {b : Bool} (hheld : Held a b s)
    (hrel : (talking a).Rel (s.noted (.message a)) t)
    (h : (firstInviteResponse W flag setFlag a data).run t = (.ok r, u)) : Held a (flag u) u := by
  refine firstInviteResponse_held hflag h fun hmem => hrel.kept a ?_
  obtain ⟨new, hnew, hp⟩ := hrel.log
  rw [hnew, List.mem_append] at hmem
  have hconnect : .connect a ∈ s.log := by
    rcases hmem with hmem | hmem
    · rcases hp _ hmem with ho | ho
      · cases ho
      · cases ho.1
    · exact (List.mem_cons.1 hmem).resolve_left nofun
  obtain ⟨ctx, hctx, _⟩ := hheld hconnect
  rw [user_noted, ← Option.isSome_map (f := UserInfo.aesCtx), hctx]
  rfl

/-- **A message of the S3.** -/
theorem processNormalData_held (hmode : ∃ t, (awaitsFirstInviteS3 W).run
    (s.noted (.message s.bleUserAddr)) = (.ok true, t))
    (h : (processNormalData W data).run s = (.ok (), s'))
    (hheld : Held s.bleUserAddr s.gotFirstInviteSessionKeyS3 s) :
    Held s.bleUserAddr s'.gotFirstInviteSessionKeyS3 s' := by
  have hlast {u : Sys} (hrel : (replying s.bleUserAddr).Rel u s')
      (hu : Held s.bleUserAddr u.gotFirstInviteSessionKeyS3 u) :
      Held s.bleUserAddr s'.gotFirstInviteSessionKeyS3 s' := by
    rw [flagOf_s3.servers _ _ (bleServers_of_servers hrel.servers)]
    exact hu.calm (calm_of_replying hrel)
  rcases processNormalData_ok h with hrel | ⟨awaits, t, r, u, hawaits, hinvite, hrel⟩
  · exact hlast hrel hheld
  · obtain ⟨t', hmode⟩ := hmode
    rw [hmode, Prod.mk.injEq, Except.ok.injEq] at hawaits
    obtain ⟨rfl, rfl⟩ := hawaits
    rw [if_pos rfl] at hinvite
    exact hlast hrel (hheld.message flagOf_s3 ((awaitsFirstInviteS3_within trivial).of_ok hmode)
      hinvite)

/-- A line of the BLE module. -/
theorem handleATCmd_held (h : (handleATCmd W data).run s = (.ok (), s'))
    (hheld : Held bleUser s.gotFirstInviteSessionKey s) :
    Held bleUser s'.gotFirstInviteSessionKey s' := by
  rcases handleATCmd_ok h with ⟨_, t, hset, rfl⟩ | ⟨_, t, hset, rfl⟩ | rfl
  · have ht : Held bleUser t.gotFirstInviteSessionKey t := held_of_connect hset
      ⟨[], rfl, fun _ ho => absurd ho List.not_mem_nil⟩
    exact ht.calm ⟨rfl, fun _ => rfl, [], rfl, nofun⟩
  · have hcalm := setUserState_calm hset
    have ht := hheld.calm hcalm
    rw [← flagOf_uart.servers _ _ hcalm.1] at ht
    refine ht.calm ⟨rfl, fun _ => rfl, [.disconnect bleUser], rfl, fun o ho => ?_⟩
    rw [List.mem_singleton.1 ho]
    exact ⟨nofun, nofun⟩
  · exact hheld

/-- **A message of the S2.** -/
theorem handleBleMessage_held
    (hmode : ∃ t, (getRegistrationStatus W).run (s.noted (.message bleUser)) = (.ok registered, t))
    (h : (handleBleMessage W data).run s = (.ok (), s'))
    (hheld : Held bleUser s.gotFirstInviteSessionKey s) :
    Held bleUser s'.gotFirstInviteSessionKey s' := by
  obtain ⟨status, t, r, u, hstatus, hinvite, hreplies⟩ := handleBleMessage_ok h
  obtain ⟨t', hmode⟩ := hmode
  rw [hmode, Prod.mk.injEq, Except.ok.injEq] at hstatus
  obtain ⟨rfl, rfl⟩ := hstatus
  rw [if_pos rfl] at hinvite
  have hu : Held bleUser u.gotFirstInviteSessionKey u :=
    hheld.message flagOf_uart ((getRegistrationStatus_within trivial).of_ok hmode) hinvite
  rcases hreplies with ⟨_, v, hset, rfl⟩ | ⟨response, _, hrel⟩
  · have hcalm := setUserState_calm hset
    have hv := hu.calm hcalm
    rw [← flagOf_uart.servers _ _ hcalm.1] at hv
    refine hv.calm ⟨rfl, fun _ => rfl, [_], rfl, fun o ho => ?_⟩
    rw [List.mem_singleton.1 ho]
    exact ⟨nofun, nofun⟩
  · have hv (text : CStr) : Held bleUser u.gotFirstInviteSessionKey { u with data := text } :=
      hu.calm ⟨rfl, fun _ => rfl, [], rfl, nofun⟩
    rw [flagOf_uart.servers _ _ (bleServers_of_servers hrel.servers)]
    exact (hv _).calm (calm_of_replying hrel)

/-- **A turn of the loop of `echo_task`.** -/
theorem echoTask_held {received : List UInt8}
    (hmode : FirstInviteMode W (.uart received) s)
    (h : (echoTask W received).run s = (.ok (), s'))
    (hheld : Held bleUser s.gotFirstInviteSessionKey s) :
    Held bleUser s'.gotFirstInviteSessionKey s' := by
  have hbuffered (text : CStr) : Held bleUser s.gotFirstInviteSessionKey { s with data := text } :=
    hheld.calm ⟨rfl, fun _ => rfl, [], rfl, nofun⟩
  rcases echoTask_ok h with hping | rfl | hline | ⟨_, hmessage⟩
  · obtain ⟨-, rfl⟩ := sendLOK_ok hping
    refine hheld.calm ⟨rfl, fun _ => rfl, _ :: overruns .., rfl, fun o ho => ?_⟩
    rcases List.mem_cons.1 ho with rfl | ho
    · exact ⟨nofun, nofun⟩
    · obtain ⟨-, rfl⟩ := mem_overruns.1 ho
      exact ⟨nofun, nofun⟩
  · exact hheld
  · exact handleATCmd_held hline.2 (hbuffered _)
  · exact handleBleMessage_held hmode hmessage (hbuffered _)

/-- **Every event in first-invite mode keeps the flags and the keys
together.** -/
theorem step_flagHeld (h : FlagHeld W s) (hmode : FirstInviteMode W e s)
    (hrun : (step W e).run s = (.ok (), s')) : FlagHeld W s' := by
  have hw : Wired W s' := (step_wired e).of_ok hrun h.wired
  rw [step, run_get_bind] at hrun
  by_cases henabled : e.enabled W s
  · rw [if_pos henabled] at hrun
    -- on the S3 the other server is not there, and on the S2 this one is not
    have hs3 (hc : s'.isConnected = true) (hW : W.target = .esp32s2) : False := by
      rw [(hw.s3 hc).2.2] at hW
      cases hW
    have tcp {m : M Unit} (hm : m.run s = (.ok (), s')) (haside : ∀ x : Address, x.isBle = true →
        (aside x.text).rel s (m.run s).2) : FlagHeld W s' := by
      rw [hm] at haside
      exact h.calm hw fun x hx => calm_of_aside (haside x hx)
    have silent (heq : s'.bleServers = s.bleServers) (husers : s'.usersInfo = s.usersInfo)
        (hlog : s'.log = s.log) : FlagHeld W s' :=
      h.calm hw fun x _ => ⟨heq, fun _ => by rw [Sys.user, Sys.user, husers], .of_log _ hlog⟩
    cases e with
    | tcpAccept ip => exact tcp hrun fun x hx => (calm_of_tcp x hx ip).tcpAccept s
    | tcpRecv received =>
      obtain ⟨ip, hip⟩ := h.wired.tcp (enabled_tcpRecv henabled)
      exact tcp hrun fun x hx => (calm_of_tcp x hx ip).doRetransmit hip
    | tcpClose =>
      obtain ⟨ip, hip⟩ := h.wired.tcp henabled
      exact tcp hrun fun x hx => (calm_of_tcp x hx ip).tcpEnd hip
    | bleConnect bda =>
      exact ⟨hw, fun _ => gattsConnect_held hrun,
        fun hW => absurd (enabled_bleConnect henabled) (by rw [hW]; decide)⟩
    | bleDisconnect =>
      obtain ⟨⟨bda, hbda⟩, _, hW⟩ := h.wired.s3 (enabled_bleDisconnect henabled)
      refine ⟨hw, fun hc => ?_, fun hW' => absurd hW (by rw [hW']; decide)⟩
      rw [SmartLock.handle, run_gattsDisconnect] at hrun
      obtain ⟨_, t, hset, hobs⟩ := bind_ok.1 hrun
      cases hobs
      have hservers := (setUserState_calm hset).1
      simp only [Sys.bleServers, Prod.mk.injEq] at hservers
      exact absurd (hservers.2.1.symm.trans hc) Bool.false_ne_true
    | bleWrite value =>
      obtain ⟨⟨bda, hbda⟩, _, hW⟩ := h.wired.s3 (enabled_bleWrite henabled)
      refine ⟨hw, fun hc => ?_, fun hW' => absurd hW (by rw [hW']; decide)⟩
      have hclient : client.rel s s' :=
        Frame.of_run (processNormalData_rel client_talks (fun s _ => client.refl s) rfl) hrun
      rw [hclient.1]
      exact processNormalData_held hmode hrun (h.s3 (enabled_bleWrite henabled))
    | uart received =>
      have hW := enabled_uart henabled
      exact ⟨hw, fun hc => (hs3 hc hW).elim, fun _ => echoTask_held hmode hrun (h.uart hW)⟩
    | serverStatus status =>
      cases hrun
      exact silent rfl rfl rfl
    | initRsaKey =>
      have hrel : looking.Rel s s' := (initRsaKey_within trivial).of_ok hrun
      exact h.calm hw fun x _ => calm_of_rel hrel id fun _ => False.elim
    | setWifiConnected connected =>
      cases hrun
      exact silent rfl rfl rfl
    | serverOnline =>
      cases hrun
      exact silent rfl rfl rfl
  · rw [if_neg henabled] at hrun
    cases hrun
    exact h

/-! ## The first message -/

/-- What a part observed, the whole did. -/
theorem suffix_bind {α β : Type} {m : M α} {f : α → M β} (hm : log <:+ (m.run s).2.log)
    (hf : ∀ x t, t.log <:+ ((f x).run t).2.log) : log <:+ ((m >>= f).run s).2.log := by
  rcases hrun : m.run s with ⟨_ | x, t⟩
  · rw [run_bind_error hrun]
    rwa [hrun] at hm
  · rw [run_bind_ok hrun]
    rw [hrun] at hm
    exact hm.trans (hf x t)

theorem suffix_of_within {α : Type} {m : M α} (hm : Within Footprint.all m) :
    s.log <:+ (m.run s).2.log := by
  have hrel : Footprint.all.Rel s (m.run s).2 := hm s
  exact hrel.log.suffix

theorem retrieveSessionCredentials_tries : .tryCredentials a :: s.log <:+
    ((retrieveSessionCredentials W data a).run s).2.log := by
  have hrest : Within Footprint.all (do
      let cred ← decryptBase64RSA W data
      let pt ← deref (strtok sep cred)
      if pt.word ≠ lit "SSC" then return false
      let pt ← deref (strtok sep pt.rest)
      let aes ← initAES W (base64Decode pt.word)
      setAESCtx W a aes
      setUserState W a .connected []
      observe (.credentials a aes)
      return true) :=
    .bind decryptBase64RSA_within fun _ => .bind deref_within fun _ => .ite (fun _ => .pure _)
      fun _ => .bind deref_within fun _ => .bind initAES_within fun _ =>
        .bind (setAESCtx_within trivial) fun _ => .bind (setUserState_within trivial) fun _ =>
          .bind (observe_within (.inr trivial)) fun _ => .pure _
  rw [retrieveSessionCredentials, run_observe_bind]
  exact suffix_of_within (s := s.noted (.tryCredentials a)) hrest

/-- With the flag clear a message is taken for credentials. -/
theorem firstInviteResponse_tries (W : World) (a data : CStr) (hflag : FlagOf flag setFlag)
    (hclear : flag s = false) :
    .tryCredentials a :: s.log <:+ ((firstInviteResponse W flag setFlag a data).run s).2.log := by
  rw [firstInviteResponse, run_get_bind, if_neg (by rw [hclear]; decide)]
  refine suffix_bind retrieveSessionCredentials_tries fun ok t => ?_
  cases ok with
  | false => exact List.suffix_refl _
  | true =>
    refine suffix_bind (suffix_of_within getUserAESCtx_within) fun ctx v => ?_
    show v.log <:+ (setFlag true v).log
    rw [hflag.log]

theorem getRegistrationStatus_log {status : Int}
    (h : (getRegistrationStatus W).run s = (.ok status, t)) : t.log = s.log := by
  rcases getRegistrationStatus_ok h with ⟨_, _, rfl⟩ | ⟨_, _, rfl⟩
  · rfl
  · rfl

theorem awaitsFirstInviteS3_log {awaits : Bool}
    (h : (awaitsFirstInviteS3 W).run s = (.ok awaits, t)) : t.log = s.log := by
  rcases awaitsFirstInviteS3_ok h with ⟨s₁, _, hstatus, hasked, _⟩ | ⟨_, _, hstatus, _⟩
  · rw [← getRegistrationStatus_log hstatus]
    exact getRegistrationStatus_log (s := { s₁ with registrationStatus := unknownStatus }) hasked
  · exact getRegistrationStatus_log hstatus

/-- **The first message of a connection of the S3.** -/
theorem processNormalData_tries (hping : data ≠ lit "PNG") (hwifi : s.wifiConnected = true)
    (hmode : ∃ t, (awaitsFirstInviteS3 W).run (s.noted (.message s.bleUserAddr)) = (.ok true, t))
    (hclear : s.gotFirstInviteSessionKeyS3 = false) :
    .tryCredentials s.bleUserAddr :: .message s.bleUserAddr :: s.log <:+
      ((processNormalData W data).run s).2.log := by
  obtain ⟨t, ht⟩ := hmode
  have hrel : Footprint.all.Rel (s.noted (.message s.bleUserAddr)) t :=
    (awaitsFirstInviteS3_within trivial).of_ok ht
  have hflag : t.gotFirstInviteSessionKeyS3 = false := by
    rw [flagOf_s3.servers _ _ (bleServers_of_servers hrel.servers)]
    exact hclear
  have htries := firstInviteResponse_tries W s.bleUserAddr data flagOf_s3 hflag
  rw [awaitsFirstInviteS3_log ht] at htries
  rw [processNormalData, run_get_bind, if_neg hping, if_pos hwifi, run_observe_bind,
    run_bind_ok ht, if_pos rfl]
  refine suffix_bind htries fun r v => ?_
  cases r with
  | none => exact List.suffix_cons _ _
  | some r =>
    exact suffix_of_within (.bind (replyBleS3_within fun _ _ => trivial) fun _ =>
      .bind (forceGetRegistrationStatus_within trivial) fun _ => .pure _)

/-- What the answer to a message observed, its handling did. -/
theorem handleBleMessage_suffix {x : UserInfo} (hx : s.user bleUser = some x)
    (h : log <:+ ((bleResponse W data).run (s.noted (.message bleUser))).2.log) :
    log <:+ ((handleBleMessage W data).run s).2.log := by
  rw [handleBleMessage, run_observe_bind, run_bind_ok (run_getUserAESCtx (by rwa [user_noted]))]
  refine suffix_bind h fun r v => ?_
  cases r with
  | none =>
    exact suffix_of_within (.bind (setUserState_within trivial) fun _ =>
      observe_within (.inr trivial))
  | some r =>
    refine suffix_bind (m := setData _) (List.suffix_refl _) fun _ w => ?_
    have hreply : Within Footprint.all (do
        let responseEnc ← sealResponse W r.aes r.response
        let text ← deref r.response
        sendData responseEnc.length responseEnc (.reply bleUser r.aes text)) :=
      .bind sealResponse_within fun _ => .bind deref_within fun _ => .bind sprintf_within fun _ =>
        observe_within (.inr trivial)
    exact suffix_of_within hreply

/-- **The first message of a connection of the S2.** -/
theorem handleBleMessage_tries (hknown : (s.user bleUser).isSome)
    (hmode : ∃ t, (getRegistrationStatus W).run (s.noted (.message bleUser)) = (.ok registered, t))
    (hclear : s.gotFirstInviteSessionKey = false) :
    .tryCredentials bleUser :: .message bleUser :: s.log <:+
      ((handleBleMessage W data).run s).2.log := by
  obtain ⟨t, ht⟩ := hmode
  obtain ⟨x, hx⟩ := Option.isSome_iff_exists.1 hknown
  have hrel : Footprint.all.Rel (s.noted (.message bleUser)) t :=
    (getRegistrationStatus_within trivial).of_ok ht
  have hflag : t.gotFirstInviteSessionKey = false := by
    rw [flagOf_uart.servers _ _ (bleServers_of_servers hrel.servers)]
    exact hclear
  have htries := firstInviteResponse_tries W bleUser data flagOf_uart hflag
  rw [getRegistrationStatus_log ht] at htries
  refine handleBleMessage_suffix hx ?_
  rw [bleResponse, run_bind_ok ht, if_pos rfl]
  exact htries

/-! ## The property -/

/-- What is decrypted for a client of BLE is decrypted under a context set
since its connection began. -/
def KeyOfConnection (o : Obs) (pre : List Obs) : Prop :=
  ∀ x : Address, x.isBle = true → ∀ ctx, o = .decrypt x.text ctx → .connect x.text ∈ pre →
    .credentials x.text ctx ∈ sinceConnect x.text pre

/-- The key of a message that is not the first. -/
theorem Held.credentials {flag : Bool} {x : UserInfo} (hheld : Held a flag s) (hset : flag = true)
    (hfresh : .connect a ∈ s.log → ¬ Fresh a s.log) (hlog : t.log = .message a :: s.log)
    (huser : t.user a = s.user a) (hx : t.user a = some x) (hmem : .connect a ∈ t.log) :
    .credentials a x.aesCtx ∈ sinceConnect a t.log := by
  rw [hlog] at hmem
  have hconnect : .connect a ∈ s.log := (List.mem_cons.1 hmem).resolve_left nofun
  obtain ⟨ctx, hctx, hcred⟩ := hheld hconnect
  rw [← huser, hx] at hctx
  cases hctx
  have hsince : sinceConnect a t.log = .message a :: sinceConnect a s.log := by
    have hne : .connect a ∉ [Obs.message a] := by simp
    rw [hlog]
    exact sinceConnect_append hne
  rw [hsince]
  exact List.mem_cons_of_mem _ ((hcred hset).resolve_left (hfresh hconnect))

/-- **What a command of an event is decrypted under.** -/
theorem Dispatch.admits (h : FlagHeld W s) (hmode : FirstInviteMode W e s)
    (hclear : FlagClear W e s) (hd : Dispatch W s e a data t) :
    Admits W KeyOfConnection a data t := by
  refine fun x hx => ⟨?_, fun cmd s₁ hbegan o pre hduring y _ ctx ho => ?_⟩
  swap
  · subst ho
    rcases hduring.obs with ho | ho <;> cases ho
  intro y hy ctx ho hmem
  rw [Obs.decrypt.injEq] at ho
  obtain ⟨haddr, rfl⟩ := ho
  rw [← haddr] at hmem ⊢
  -- what BLE decrypts in this mode it decrypts with the flag set, and so with the key held
  cases hd with
  | tcp henabled hopen =>
    obtain ⟨ip, hip⟩ := h.wired.tcp (enabled_tcpRecv henabled)
    exact absurd (congrArg hashKey (haddr.symm.trans hip)) (hashKey_ipv4_ne hy ip)
  | @inviteS3 value t hbrings hawaits hflag =>
    have hrel : looking.Rel (s.noted (.message s.bleUserAddr)) t :=
      (awaitsFirstInviteS3_within trivial).of_ok hawaits
    have hset : s.gotFirstInviteSessionKeyS3 = true := by
      rw [← hflag, flagOf_s3.servers _ _ (bleServers_of_servers hrel.servers)]
      rfl
    cases hbrings with
    | s3 henabled hping hwifi =>
      refine (h.s3 (enabled_bleWrite henabled)).credentials hset (fun hconnect hfresh => ?_)
        (awaitsFirstInviteS3_log hawaits) (hrel.user_eq id fun h => h.1) hx hmem
      have hunset := hclear _ (.s3 henabled hping hwifi) hconnect hfresh
      exact Bool.false_ne_true (hunset.symm.trans hset)
  | @sessionS3 value t hbrings hawaits hopen =>
    obtain ⟨t', hmode⟩ := hmode
    rw [hmode, Prod.mk.injEq, Except.ok.injEq] at hawaits
    cases hawaits.1
  | @invite received t hbrings hstatus hflag =>
    have hrel : looking.Rel ((s.buffered received).noted (.message bleUser)) t :=
      (getRegistrationStatus_within trivial).of_ok hstatus
    have hset : s.gotFirstInviteSessionKey = true := by
      rw [← hflag, flagOf_uart.servers _ _ (bleServers_of_servers hrel.servers)]
      rfl
    cases hbrings with
    | uart henabled hping hwifi hmessage =>
      refine (h.uart (enabled_uart henabled)).credentials hset (fun hconnect hfresh => ?_)
        (getRegistrationStatus_log hstatus) (hrel.user_eq id fun h => h.1) hx hmem
      have hunset := hclear _ (.uart henabled hping hwifi hmessage) hconnect hfresh
      exact Bool.false_ne_true (hunset.symm.trans hset)
  | session hbrings hstatus hunreg hopen =>
    obtain ⟨t', hmode⟩ := hmode
    rw [hmode, Prod.mk.injEq, Except.ok.injEq] at hstatus
    exact absurd hstatus.1.symm hunreg

/-- **At every event in first-invite mode whose first message finds the flag
clear**, the mode is bound to the connection. -/
theorem boundToConnection_of (h : FlagHeld W s) (hmode : FirstInviteMode W e s)
    (hclear : FlagClear W e s) : BoundToConnection W e s := by
  intro outcome s' hrun
  constructor
  · intro a hbrings hconnect hfresh
    have hflag := hclear a hbrings hconnect hfresh
    have hs' : ((step W e).run s).2 = s' := by rw [hrun]
    rw [← hs', step, run_get_bind]
    cases hbrings with
    | s3 henabled hping hwifi =>
      rw [if_pos henabled]
      exact processNormalData_tries hping hwifi hmode hflag
    | @uart received henabled hping hwifi hmessage =>
      obtain ⟨ctx, hctx, _⟩ := h.uart (enabled_uart henabled) hconnect
      have hknown : ((s.buffered received).user bleUser).isSome := by
        rw [← Option.isSome_map (f := UserInfo.aesCtx)]
        exact (congrArg Option.isSome hctx).trans rfl
      rw [if_pos henabled, SmartLock.handle, echoTask, run_get_bind, if_neg hping, if_pos hwifi]
      dsimp only
      rw [if_neg hmessage]
      exact handleBleMessage_tries hknown hmode hflag
  · intro x hx ctx pre hmade
    have hC : Unconcerned KeyOfConnection := fun o _ hd pre x _ ctx ho => absurd ho (hd _ _)
    exact (step_makes hC fun _ _ _ hd => hd.admits h hmode hclear).of_run hrun hmade x hx ctx rfl

/-- The state, watched from now on. -/
def Sys.watched (s : Sys) : Sys := { s with log := [] }

theorem flagHeld_watched (h : Wired W s) : FlagHeld W s.watched :=
  ⟨⟨h.tcp, h.ble, h.s3⟩, fun _ => nofun, fun _ => nofun⟩

/-- **First-invite mode is bound to the connection** in every run in which
no client leaves between its credentials and its command, from wherever the
lock is. -/
theorem firstInvite_bound (hs : Reachable W s)
    (hmode : Throughout (step W) (FirstInviteMode W) es s.watched)
    (hclear : Throughout (step W) (FlagClear W) es s.watched) :
    Throughout (step W) (BoundToConnection W) es s.watched :=
  Throughout.imp (I := FlagHeld W) (fun _ _ _ hheld hP hrun => step_flagHeld hheld hP.1 hrun)
    (fun _ _ hheld hP => boundToConnection_of hheld hP.1 hP.2) (flagHeld_watched hs.wired)
    (hmode.and hclear)

/-! ## While the server reports `REGISTERED` -/

/-- The server reports `REGISTERED`, and the cache nothing else. -/
def Awaiting (s : Sys) : Prop :=
  s.serverStatus = registered ∧
    (s.registrationStatus = unknownStatus ∨ s.registrationStatus = registered)

theorem Awaiting.getRegistrationStatus (h : Awaiting s) (hW : ∀ t, W.statusAnswered t = true) :
    ∃ t, (getRegistrationStatus W).run s = (.ok registered, t) ∧ Awaiting t := by
  obtain ⟨hserver, hcache⟩ := h
  rw [SmartLock.getRegistrationStatus, run_get_bind]
  rcases hcache with hcache | hcache
  · have hasked : (getRegistrationStatusServer W).run s = (.ok registered, s.ticked) := by
      show (Except.ok (if W.statusAnswered s.moment then s.serverStatus else unknownStatus), _) = _
      rw [if_pos (hW s.moment), hserver]
    rw [if_pos hcache, run_bind_ok hasked]
    exact ⟨_, rfl, hserver, .inr rfl⟩
  · rw [if_neg (by rw [hcache]; decide), hcache]
    exact ⟨s, rfl, hserver, .inr hcache⟩

/-- **A lock whose server reports `REGISTERED` is in first-invite mode.** -/
theorem Awaiting.firstInviteMode (h : Awaiting s) (hW : ∀ t, W.statusAnswered t = true) :
    FirstInviteMode W e s := by
  cases e with
  | bleWrite value =>
    have hnoted : Awaiting (s.noted (.message s.bleUserAddr)) := h
    obtain ⟨t, hstatus, ht⟩ := hnoted.getRegistrationStatus hW
    have hempty : Awaiting { t with registrationStatus := unknownStatus } := ⟨ht.1, .inl rfl⟩
    obtain ⟨u, hforce, _⟩ := hempty.getRegistrationStatus hW
    refine ⟨u, bind_ok.2 ⟨registered, t, hstatus, ?_⟩⟩
    rw [if_pos rfl]
    exact bind_ok.2 ⟨registered, u, hforce, rfl⟩
  | uart received =>
    have hnoted : Awaiting ((s.buffered received).noted (.message bleUser)) := h
    obtain ⟨t, hstatus, _⟩ := hnoted.getRegistrationStatus hW
    exact ⟨t, hstatus⟩
  | _ => trivial

/-- And it stays in it while the server does. -/
theorem Awaiting.throughout (h : Awaiting s) (hw : Wired W s)
    (hW : ∀ t, W.statusAnswered t = true) (hes : ∀ e ∈ es, ∀ status, e ≠ .serverStatus status) :
    Throughout (step W) (FirstInviteMode W) es s := by
  have hstays : Throughout (step W) (fun e _ => ∀ status, e ≠ .serverStatus status) es s :=
    .of_forall fun e he _ => hes e he
  refine hstays.imp (I := fun s => Awaiting s ∧ Wired W s) ?_
    (fun _ _ hI _ => hI.1.firstInviteMode hW) ⟨h, hw⟩
  rintro e s s' ⟨⟨hserver, hcache⟩, hwired⟩ he hrun
  have hasked : asked.rel s s' := Frame.of_run (asked_over.step hwired he) hrun
  refine ⟨⟨hasked.1.trans hserver, ?_⟩, (step_wired e).of_ok hrun hwired⟩
  rcases hasked.2 with hcache' | hcache' | hcache'
  · rwa [hcache']
  · exact .inl hcache'
  · exact .inr (hcache'.trans hserver)

/-! ## Runs on fixed inputs -/

/-- A client of BLE that sends its credentials. -/
def introduced : List Event :=
  [.setWifiConnected true, .bleConnect phoneAddress] ++ [.bleWrite (lit "AAAA")]

/-- A command, of a word that is none. -/
def strayMessage : Event := .bleWrite (sealedText (lit "X"))

theorem firstInviteMode_answering (hes : ∀ e ∈ es, ∀ status, e ≠ .serverStatus status) :
    Throughout (step (World.answering .esp32s3)) (FirstInviteMode (World.answering .esp32s3)) es
      awaitingFirstInvite.watched :=
  Awaiting.throughout ⟨rfl, .inl rfl⟩ boot_awaitingFirstInvite.wired (fun _ => rfl) hes

theorem flagClear_introduced : Throughout (step (World.answering .esp32s3))
    (FlagClear (World.answering .esp32s3)) (introduced ++ [strayMessage])
    awaitingFirstInvite.watched := by
  refine .concat (.concat (.of_forall fun e he s a hbrings => ?_) fun s hrun a hbrings _ _ => ?_)
    fun s hrun a hbrings _ hfresh => ?_
  · cases hbrings <;> simp at he
  · have hflag : ((run (World.answering .esp32s3)
        [.setWifiConnected true, .bleConnect phoneAddress]).run
        awaitingFirstInvite.watched).2.gotFirstInviteSessionKeyS3 = false := by decide +kernel
    rwa [show (run _ _).run _ = _ from hrun] at hflag
  · have hmessage : .message (lit "01:02:03:04:05:06") ∈ sinceConnect (lit "01:02:03:04:05:06")
        ((run (World.answering .esp32s3) introduced).run awaitingFirstInvite.watched).2.log := by
      decide +kernel
    have haddr : ((run (World.answering .esp32s3) introduced).run
        awaitingFirstInvite.watched).2.bleUserAddr = lit "01:02:03:04:05:06" := by decide +kernel
    rw [show (run _ _).run _ = _ from hrun] at hmessage haddr
    cases hbrings
    rw [haddr] at hfresh
    exact absurd hmessage hfresh

/-- The theorem, for a client that stays. -/
theorem firstInvite_bound_stay : Throughout (step (World.answering .esp32s3))
    (BoundToConnection (World.answering .esp32s3)) (introduced ++ [strayMessage])
    awaitingFirstInvite.watched :=
  firstInvite_bound ⟨_, [], boot_awaitingFirstInvite, rfl⟩
    (firstInviteMode_answering (by rintro _ he status rfl; simp [introduced, strayMessage] at he))
    flagClear_introduced

/-- A client that leaves between its credentials and its command, and the
next one, which has the same address. -/
def leaving : List Event :=
  introduced ++ [.bleDisconnect, .bleConnect phoneAddress]

theorem exists_stray_decrypt : ∃ s s' pre, (run (World.answering .esp32s3) leaving).run
    awaitingFirstInvite.watched = (.ok (), s) ∧
    (step (World.answering .esp32s3) strayMessage).run s = (.ok (), s') ∧
    Made s s' (.decrypt (lit "01:02:03:04:05:06") ⟨Vector.replicate 32 0⟩) pre ∧
    .connect (lit "01:02:03:04:05:06") ∈ pre ∧
    .credentials (lit "01:02:03:04:05:06") ⟨Vector.replicate 32 0⟩ ∉
      sinceConnect (lit "01:02:03:04:05:06") pre :=
  exists_last_event (k := 4) (Q := fun pre => _ ∈ pre ∧ _ ∉ sinceConnect _ pre) (by decide +kernel)
    (by decide +kernel) (by decide +kernel) (by decide +kernel)

/-- The first message of the next client is decrypted, under a key this
connection never set. -/
theorem stray_message_decrypted : ¬ ∀ (W : World) (s : Sys) (es : List Event), Reachable W s →
    Throughout (step W) (FirstInviteMode W) es s.watched →
    Throughout (step W) (BoundToConnection W) es s.watched := by
  intro h
  obtain ⟨s, s', pre, hrun, hstep, hmade, hconnect, hcredentials⟩ := exists_stray_decrypt
  have hall := h (World.answering .esp32s3) awaitingFirstInvite (leaving ++ [strayMessage])
    ⟨_, [], boot_awaitingFirstInvite, rfl⟩ (firstInviteMode_answering (by
      rintro _ he status rfl
      simp [leaving, introduced, strayMessage] at he))
  obtain ⟨_, hbound⟩ := hall.last hrun _ s' hstep
  exact hcredentials (hbound (.ble phoneAddress) rfl _ pre hmade hconnect)

end SmartLock
