import SmartLock.Session.Isolation
import SmartLock.System.Sleep
import SmartLock.System.Authenticity

/-!
# One command for a session key

The commands that concern the door are meant to end the session of BLE they
come over: the client is to send new credentials, and a new `SAC`, for the
next one. The reset that sees to it stands at the end of each branch, and
the returns before that end skip it: arguments that are missing, and for an
`RUI` a user without an authorization. `RDS` alone resets at every return.
-/

namespace SmartLock

open Prog

variable {W : World} {a cmd w : CStr} {s t s' : Sys} {e : Event}
variable {r : Option CStr} {received : List UInt8}

/-! ## The session of the BLE client -/

/-- The words of the commands that are meant to end the session. -/
def doorWords : List CStr := [lit "RUD", lit "RLD", lit "RNI", lit "RUI", lit "RDS"]

variable (W) in
/-- The address of the BLE user. -/
def Sys.bleAddress (s : Sys) : CStr :=
  match W.target with
  | .esp32s3 => s.bleUserAddr
  | .esp32s2 => bleUser

variable (W) in
/-- The BLE user is to send new credentials. -/
def AwaitsCredentials (s : Sys) : Prop :=
  ∃ x, s.user (s.bleAddress W) = some x ∧ x.state = .connecting ∧ x.phoneId = []

variable (W) in
/-- A BLE client that is connected has a record, under the address the reset
goes to. -/
structure Linked (s : Sys) : Prop where
  current : BleClient W s → s.currentBLEAddr = s.bleAddress W
  record : BleClient W s → (s.user (s.bleAddress W)).isSome

theorem bleAddress_s3 (hW : W.target = .esp32s3) : s.bleAddress W = s.bleUserAddr := by
  rw [Sys.bleAddress, hW]

theorem bleAddress_uart (hW : W.target = .esp32s2) : s.bleAddress W = bleUser := by
  rw [Sys.bleAddress, hW]

theorem bleAddress_of_eq (h : t.bleUserAddr = s.bleUserAddr) :
    t.bleAddress W = s.bleAddress W := by
  rw [Sys.bleAddress, Sys.bleAddress, h]

theorem macText_ne_nil (bda : Vector UInt8 6) : macText bda ≠ [] := by
  simp [macText, lit]

/-- The address of a connected client is not empty. -/
theorem bleAddress_ne_nil (hs : Wired W s) (hclient : BleClient W s) : s.bleAddress W ≠ [] := by
  cases hW : W.target with
  | esp32s3 =>
    rw [bleClient_s3 hW] at hclient
    obtain ⟨⟨bda, hbda⟩, _⟩ := hs.s3 hclient
    rw [bleAddress_s3 hW, hbda]
    exact macText_ne_nil bda
  | esp32s2 =>
    rw [bleAddress_uart hW]
    decide

/-! ## What leaves the link alone -/

/-- The records are kept, and so is the BLE client. -/
def linking : Frame Sys where
  rel s t := (t.currentBLEAddr = s.currentBLEAddr ∧ t.bleUserAddr = s.bleUserAddr ∧
    t.isConnected = s.isConnected) ∧ (∀ a, (s.user a).isSome → (t.user a).isSome) ∧
    Lasts bleUser s t
  refl s := ⟨⟨rfl, rfl, rfl⟩, fun _ => id, Grows.refl _ s⟩
  trans h₁ h₂ := by
    obtain ⟨⟨hcur₁, haddr₁, hconn₁⟩, hkept₁, hlog₁⟩ := h₁
    obtain ⟨⟨hcur₂, haddr₂, hconn₂⟩, hkept₂, hlog₂⟩ := h₂
    exact ⟨⟨hcur₂.trans hcur₁, haddr₂.trans haddr₁, hconn₂.trans hconn₁⟩,
      fun a h => hkept₂ a (hkept₁ a h), hlog₁.trans hlog₂⟩

theorem linking_talks : linking.Talks a := by
  intro s t h
  refine ⟨⟨Sys.currentBLEAddr_of_servers h.servers, Sys.bleUserAddr_of_servers h.servers,
    Sys.isConnected_of_servers h.servers⟩, h.kept, lasts_of_rel h fun o ho => ⟨?_, ?_⟩⟩
  · rintro rfl
    cases ho.1
  · rintro rfl
    cases ho.1

theorem linking_noted {o : Obs} (h : o ≠ .connect bleUser ∧ o ≠ .disconnect bleUser) :
    linking.rel s (s.noted o) :=
  ⟨⟨rfl, rfl, rfl⟩, fun _ => id, [o], rfl, fun _ ho => List.mem_singleton.1 ho ▸ h⟩

/-- **TCP leaves the link alone.** -/
theorem linking_overTcp (ip : Vector UInt8 4) : OverTcp linking ip := by
  have hne : inetNtoa ip ≠ bleUser := fun h =>
    hashKey_ipv4_ne (x := .bleUser) rfl ip (congrArg hashKey h.symm)
  refine ⟨linking_talks, fun s _ => linking.refl s, fun s => linking.refl s,
    fun s => linking_noted ⟨?_, nofun⟩, fun s => linking_noted ⟨nofun, nofun⟩,
    fun s => linking_noted ⟨nofun, ?_⟩, fun s => linking.refl s⟩
  · exact fun h => hne (Obs.connect.inj h)
  · exact fun h => hne (Obs.disconnect.inj h)

/-- A client stays connected. -/
theorem bleClient_of_linking (h : linking.rel s t) (hc : BleClient W s) : BleClient W t := by
  obtain ⟨⟨_, _, hconn⟩, _, hlog⟩ := h
  cases hW : W.target with
  | esp32s3 =>
    rw [bleClient_s3 hW] at hc ⊢
    rw [hconn, hc]
  | esp32s2 =>
    rw [bleClient_uart hW] at hc ⊢
    exact hlog.connected hc

/-- And none connects. -/
theorem bleClient_before_linking (h : linking.rel s t) (hc : BleClient W t) : BleClient W s := by
  obtain ⟨⟨_, _, hconn⟩, _, new, hnew, hp⟩ := h
  cases hW : W.target with
  | esp32s3 =>
    rw [bleClient_s3 hW] at hc ⊢
    rw [← hconn, hc]
  | esp32s2 =>
    rw [bleClient_uart hW] at hc ⊢
    rw [hnew] at hc
    exact (connected_append_iff (fun hmem => (hp _ hmem).1 rfl) fun hmem =>
      (hp _ hmem).2 rfl).1 hc

theorem Linked.of_linking (h : Linked W s) (hst : linking.rel s t) : Linked W t := by
  have haddr : t.bleAddress W = s.bleAddress W := bleAddress_of_eq hst.1.2.1
  refine ⟨fun hc => ?_, fun hc => ?_⟩
  · rw [haddr, hst.1.1]
    exact h.current (bleClient_before_linking hst hc)
  · rw [haddr]
    exact hst.2.1 _ (h.record (bleClient_before_linking hst hc))

/-! ## Runs -/

/-- A client that connects to the S3 is linked. -/
theorem gattsConnect_linked (hW : W.target = .esp32s3) {bda : Vector UInt8 6}
    (hrun : (gattsConnect W bda).run s = (.ok (), s')) : Linked W s' := by
  rw [run_gattsConnect] at hrun
  have hrel : linking.rel (s.gattsConnected bda) s' :=
    (linking_talks.steps (setUserState_within rfl)).of_ok hrun
  obtain ⟨x, hx, _⟩ := (setUserState_ok hrun).self
  have haddr : s'.bleAddress W = macText bda := (bleAddress_s3 hW).trans hrel.1.2.1
  refine ⟨fun _ => ?_, fun _ => ?_⟩
  · rw [haddr]
    exact hrel.1.1
  · rw [haddr, hx]
    rfl

/-- **A turn of `echo_task`** keeps the link, or makes it. -/
theorem echoTask_linked (hW : W.target = .esp32s2) (h : Linked W s)
    (hrun : (echoTask W received).run s = (.ok (), s')) : Linked W s' := by
  rcases echoTask_ok hrun with hping | rfl | hline | ⟨_, hmessage⟩
  · have hsteps : Steps linking (sendLOK W) :=
      sendLOK_steps linking_talks fun s _ => linking.refl s
    exact h.of_linking (hsteps.of_ok hping)
  · exact h
  · rcases handleATCmd_ok hline.2 with ⟨_, t, hset, rfl⟩ | ⟨_, t, hset, rfl⟩ | rfl
    · -- a client connects
      obtain ⟨x, hx, _⟩ := (setUserState_ok hset).self
      have haddr : t.uartConnected.bleAddress W = bleUser := bleAddress_uart hW
      refine ⟨fun _ => haddr.symm, fun _ => ?_⟩
      rw [haddr]
      exact Option.isSome_iff_exists.2 ⟨_, hx⟩
    · -- or leaves
      have hnot : ¬ BleClient W t.uartDisconnected := by
        rw [bleClient_uart hW]
        exact not_connected_disconnect
      exact ⟨fun hc => absurd hc hnot, fun hc => absurd hc hnot⟩
    · exact h.of_linking (linking.refl s)
  · have hsteps : Steps linking (handleBleMessage W (restorePlus (cstr received))) :=
      handleBleMessage_steps talking_answers linking_talks (fun s _ => linking.refl s)
        fun s _ => linking.refl s
    have hbuffer : linking.rel s (s.buffered received) := linking.refl s
    exact h.of_linking (linking.trans hbuffer (hsteps.of_ok hmessage))

/-- **Every event keeps the link.** -/
theorem step_linked (hw : Wired W s) (h : Linked W s) (hrun : (step W e).run s = (.ok (), s')) :
    Linked W s' := by
  rw [step, run_get_bind] at hrun
  by_cases henabled : e.enabled W s
  · rw [if_pos henabled] at hrun
    cases e with
    | tcpAccept ip => exact h.of_linking ((linking_overTcp ip).tcpAccept.of_ok hrun)
    | tcpRecv received =>
      obtain ⟨ip, hip⟩ := hw.tcp (enabled_tcpRecv henabled)
      exact h.of_linking (Frame.of_run ((linking_overTcp ip).doRetransmit hip) hrun)
    | tcpClose =>
      obtain ⟨ip, hip⟩ := hw.tcp henabled
      exact h.of_linking (Frame.of_run ((linking_overTcp ip).tcpEnd hip) hrun)
    | bleConnect bda => exact gattsConnect_linked (enabled_bleConnect henabled) hrun
    | bleDisconnect =>
      obtain ⟨_, _, hW⟩ := hw.s3 (enabled_bleDisconnect henabled)
      rw [SmartLock.handle, run_gattsDisconnect] at hrun
      obtain ⟨_, t, hset, hobs⟩ := bind_ok.1 hrun
      cases hobs
      have hrel : linking.rel s.gattsDisconnected t :=
        (linking_talks.steps (setUserState_within rfl)).of_ok hset
      have hnot : ¬ BleClient W (t.noted (.disconnect s.bleUserAddr)) := by
        rw [bleClient_s3 hW]
        exact fun hc => Bool.false_ne_true (hrel.1.2.2.symm.trans hc)
      exact ⟨fun hc => absurd hc hnot, fun hc => absurd hc hnot⟩
    | bleWrite value =>
      have hrel : linking.rel s s' := Frame.of_run
        (processNormalData_rel linking_talks (fun s _ => linking.refl s) rfl) hrun
      exact h.of_linking hrel
    | uart received => exact echoTask_linked (enabled_uart henabled) h hrun
    | serverStatus status =>
      cases hrun
      exact h.of_linking (linking.refl s)
    | initRsaKey =>
      have hsteps : Steps linking (initRsaKey W) :=
        (linking_talks (a := [])).steps (initRsaKey_within trivial)
      exact h.of_linking (hsteps.of_ok hrun)
    | setWifiConnected connected =>
      cases hrun
      exact h.of_linking (linking.refl s)
    | serverOnline =>
      cases hrun
      exact h.of_linking (linking.refl s)
  · rw [if_neg henabled] at hrun
    cases hrun
    exact h

/-- **In every reachable state a connected BLE client is linked.** -/
theorem Reachable.linked (h : Reachable W s) : Linked W s := by
  obtain ⟨s₀, es, hboot, hrun⟩ := h
  have hstart : Wired W s₀ ∧ Linked W s₀ :=
    ⟨hboot.wired, fun hc => absurd hc hboot.not_bleClient, fun hc => absurd hc hboot.not_bleClient⟩
  have hkeep : ∀ e s s', Wired W s ∧ Linked W s → (step W e).run s = (.ok (), s') →
      Wired W s' ∧ Linked W s' := fun e s s' hI hstep =>
    ⟨(step_wired e).of_ok hstep hI.1, step_linked hI.1 hI.2 hstep⟩
  exact (exec_keeps hkeep hstart hrun).2

/-! ## Where a command is handled -/

/-- A command of the client is handled in a state a run reaches, or where an
event has come to from there. -/
def HandledAt (W : World) (cmd : CStr) (s t : Sys) : Prop :=
  t = s ∨ ∃ e, Begins W e s (s.bleAddress W) cmd t

/-- Up to its command, a message leaves the link alone. -/
theorem linking_begins (h : Begins W e s a cmd t) : linking.rel s t := by
  obtain ⟨data, u, x, hdispatch, _, hbegan⟩ := h
  have hmessage {b : CStr} {s : Sys} : linking.rel s (s.noted (.message b)) :=
    linking_noted ⟨nofun, nofun⟩
  have hawaits {s t : Sys} {b : Bool} (h : (awaitsFirstInviteS3 W).run s = (.ok b, t)) :
      linking.rel s t :=
    ((linking_talks (a := [])).steps (awaitsFirstInviteS3_within trivial)).of_ok h
  have hstatus {s t : Sys} {b : Int} (h : (getRegistrationStatus W).run s = (.ok b, t)) :
      linking.rel s t :=
    ((linking_talks (a := [])).steps (getRegistrationStatus_within trivial)).of_ok h
  have hu : linking.rel s u := by
    cases hdispatch with
    | tcp _ _ => exact hmessage
    | inviteS3 _ h _ => exact linking.trans (linking.trans hmessage (hawaits h)) (linking.refl _)
    | sessionS3 _ h _ => exact linking.trans hmessage (hawaits h)
    | @invite received _ _ h _ =>
      have hbuffer : linking.rel s (s.buffered received) := linking.refl s
      exact linking.trans (linking.trans (linking.trans hbuffer hmessage) (hstatus h))
        (linking.refl _)
    | @session received _ _ _ h _ _ =>
      have hbuffer : linking.rel s (s.buffered received) := linking.refl s
      exact linking.trans (linking.trans hbuffer hmessage) (hstatus h)
  obtain ⟨v, hquiet, rfl⟩ := hbegan.rel
  have hdecrypt : linking.rel u (u.noted (.decrypt a x.aesCtx)) := linking_noted ⟨nofun, nofun⟩
  have hread : linking.rel (u.noted (.decrypt a x.aesCtx)) v :=
    linking_talks (a := []) _ _ (quiet_rel hquiet)
  exact linking.trans hu (linking.trans hdecrypt (linking.trans hread (linking_noted ⟨nofun, nofun⟩)))

theorem linking_handledAt (h : HandledAt W cmd s t) : linking.rel s t := by
  rcases h with rfl | ⟨e, hbegins⟩
  · exact linking.refl t
  · exact linking_begins hbegins

/-! ## The reset -/

/-- **A command of the BLE client** ends its session exactly if it reaches
the reset, or the session is ended already. -/
theorem checkCommand_awaits (hne : s.bleAddress W ≠ [])
    (hcur : s.currentBLEAddr = s.bleAddress W) (hrecord : (s.user (s.bleAddress W)).isSome)
    (hword : word cmd ≠ some (lit "SAC"))
    (hrun : (checkCommand W cmd (s.bleAddress W)).run s = (.ok r, s')) :
    AwaitsCredentials W s' ↔ Resets W cmd (s.bleAddress W) s ∨ AwaitsCredentials W s := by
  have hrel : (talking (s.bleAddress W)).Rel s s' :=
    (checkCommand_within_serves (talking_serves _)).of_ok hrun
  have haddr : s'.bleAddress W = s.bleAddress W :=
    bleAddress_of_eq (Sys.bleUserAddr_of_servers hrel.servers)
  rcases checkCommand_reset hrun with ⟨hresets, u, hu, hreset⟩ | ⟨hresets, hleft⟩
  · -- the reset finds the record of the client
    obtain ⟨x, hx⟩ := Option.isSome_iff_exists.1 hrecord
    have hcur' : u.currentBLEAddr = s.bleAddress W :=
      (Sys.currentBLEAddr_of_servers hu.servers).trans hcur
    have huser := setBLEUserStateToConnecting_ok hreset (by rwa [hcur'])
    rw [hcur', recordless_user hu, hx] at huser
    exact ⟨fun _ => .inl hresets, fun _ => ⟨x.reset, by rw [haddr, huser]; rfl, rfl, rfl⟩⟩
  · -- no reset, and no other command touches the record
    rcases hleft with hleft | ⟨hsac, _⟩
    · rw [AwaitsCredentials, AwaitsCredentials, haddr, recordless_user hleft]
      exact ⟨.inr, fun h => h.resolve_left hresets⟩
    · exact absurd hsac hword

/-- What awaits credentials takes the next message for them. -/
theorem AwaitsCredentials.refuses_commands {data : CStr} {response : Option Response}
    (h : AwaitsCredentials W s)
    (hrun : (sessionResponse W (s.bleAddress W) data).run s = (.ok response, s')) :
    ∀ answer, response = some answer → answer.decrypted = false := by
  obtain ⟨y, hy, hexchange⟩ := sessionResponse_ok hrun
  obtain ⟨x, hx, hstate, _⟩ := h
  rw [hx, Option.some.injEq] at hy
  subst hy
  intro answer hanswer
  cases hexchange with
  | refused => cases hanswer
  | opened =>
    cases hanswer
    rfl
  | command hopen =>
    rw [hstate] at hopen
    exact absurd hopen (by decide)
  | ignored => cases hanswer

/-- **One command for a session key**: in every reachable state with a BLE
client, a command that concerns the door, if it returns, leaves the client
to send new credentials exactly if it reaches the reset or finds nothing to
reset. -/
theorem oneCommand_iff (h : Reachable W s) (hclient : BleClient W s) (hat : HandledAt W cmd s t)
    (hword : word cmd = some w) (hw : w ∈ doorWords)
    (hrun : (checkCommand W cmd (s.bleAddress W)).run t = (.ok r, s')) :
    AwaitsCredentials W s' ↔ Resets W cmd (s.bleAddress W) t ∨ AwaitsCredentials W t := by
  have hst := linking_handledAt hat
  have haddr : t.bleAddress W = s.bleAddress W := bleAddress_of_eq hst.1.2.1
  have hlinked : Linked W t := h.linked.of_linking hst
  have hclient' : BleClient W t := bleClient_of_linking hst hclient
  have hne : t.bleAddress W ≠ [] := by
    rw [haddr]
    exact bleAddress_ne_nil h.wired hclient
  have hsac : word cmd ≠ some (lit "SAC") := by
    intro heq
    rw [hword, Option.some.injEq] at heq
    subst heq
    exact absurd hw (by decide)
  rw [← haddr] at hrun ⊢
  exact checkCommand_awaits hne (hlinked.current hclient') (hlinked.record hclient') hsac hrun

/-! ## Runs on fixed inputs -/

/-- An `RUD` without arguments is refused, and nothing else. -/
theorem checkCommand_bare : (checkCommand W (lit "RUD") a).run s = (.ok (some nakMessage), s) := rfl

/-- An administrator opens a session over BLE, and shows the code. -/
def showing : List Event :=
  [.setWifiConnected true, .bleConnect phoneAddress, .bleWrite (lit "AAAA"),
    .bleWrite (sealedText
      (lit "SAC phone AAAAAAAAAAAAAAAAAAAAAAAAAAAAAAAAAAAAAAAAAAA= 90 200 7"))]

theorem exists_shown : ∃ s, Reachable (World.answering .esp32s3) s ∧ s.isConnected = true ∧
    (s.user s.bleUserAddr).map UserInfo.state = some .authorized :=
  ⟨((run (World.answering .esp32s3) showing).run adminStored).2,
    boot_adminStored.reachable (by decide +kernel), by decide +kernel, by decide +kernel⟩

/-- An `RDS` without arguments is refused after the reset. -/
theorem checkCommand_bare_rds (hb : s.currentBLEAddr.length < 45) :
    ∃ s', (checkCommand W (lit "RDS") a).run s = (.ok (some nakMessage), s') := by
  obtain ⟨s', hreset⟩ := setBLEUserStateToConnecting_returns (W := W) hb
  have hdispatch : (checkCommand W (lit "RDS") a).run s = (do
      setBLEUserStateToConnecting W
      return some nakMessage).run s := rfl
  exact ⟨s', hdispatch.trans (bind_ok.2 ⟨(), s', hreset, rfl⟩)⟩

/-- The theorem, where an administrator sends an `RDS` without arguments. -/
theorem oneCommand_iff_shown : ∃ s s', Reachable (World.answering .esp32s3) s ∧
    (s.user s.bleUserAddr).map UserInfo.state = some .authorized ∧
    (checkCommand (World.answering .esp32s3) (lit "RDS")
      (s.bleAddress (World.answering .esp32s3))).run s = (.ok (some nakMessage), s') ∧
    AwaitsCredentials (World.answering .esp32s3) s' := by
  obtain ⟨s, hreach, hconnected, hstate⟩ := exists_shown
  obtain ⟨⟨bda, hbda⟩, hcur, _⟩ := hreach.wired.s3 hconnected
  have hb : s.currentBLEAddr.length < 45 := by
    rw [hcur, hbda]
    exact (Address.ble bda).text_length_lt
  obtain ⟨s', hrun⟩ := checkCommand_bare_rds (W := World.answering .esp32s3)
    (a := s.bleAddress (World.answering .esp32s3)) hb
  refine ⟨s, s', hreach, hstate, hrun, ?_⟩
  exact (oneCommand_iff (w := lit "RDS") hreach ((bleClient_s3 rfl).2 hconnected) (.inl rfl)
    (by decide) (by decide) hrun).2 (.inl (resets_other (w := lit "RDS") (by decide) (.inl rfl)))

/-- **An `RUD` without arguments is refused under the old key**: the user
stays authorized. -/
theorem refused_under_old_key : ¬ ∀ (W : World) (s : Sys), Reachable W s → BleClient W s →
    ∀ cmd w, word cmd = some w → w ∈ doorWords →
      ∀ r s', (checkCommand W cmd (s.bleAddress W)).run s = (.ok r, s') →
        AwaitsCredentials W s' := by
  intro h
  obtain ⟨s, hreach, hconnected, hstate⟩ := exists_shown
  obtain ⟨x, hx, hconnecting, _⟩ := h _ s hreach ((bleClient_s3 rfl).2 hconnected) (lit "RUD")
    (lit "RUD") (by decide) (by decide) _ _ checkCommand_bare
  rw [bleAddress_s3 rfl] at hx
  rw [hx] at hstate
  exact absurd (hconnecting.symm.trans (Option.some.inj hstate)) (by decide)

end SmartLock
