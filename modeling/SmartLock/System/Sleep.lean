import SmartLock.Handler.Bearable
import SmartLock.System.Beside
import SmartLock.System.Dispatch

/-!
# Deep sleep

Both transports start and cancel the one timer, on their own events and
without a look at each other. A connection that ends arms it, and nothing
else does; where the other transport has a client just then, the lock goes
to sleep under a live session.
-/

namespace SmartLock

open Prog

variable {W : World} {a data : CStr} {s t s' : Sys} {e : Event} {es : List Event}
variable {received : List UInt8}

variable (W) in
/-- A client of BLE is connected. -/
def BleClient (s : Sys) : Prop :=
  match W.target with
  | .esp32s3 => s.isConnected = true
  | .esp32s2 => Connected bleUser s.log

variable (W) in
/-- A client is connected, on either transport. -/
def Client (s : Sys) : Prop := s.serving = true ∨ BleClient W s

variable (W) in
/-- Where a client is connected the timer is not armed. -/
def Awake (s : Sys) : Prop := Client W s → s.deepSleepArmed = false

/-- The events of TCP. -/
def Event.overTcp : Event → Bool
  | tcpAccept _ => true
  | tcpRecv _ => true
  | tcpClose => true
  | _ => false

variable (W) in
/-- A client is connected on the transport the event is not of. -/
def OtherClient (e : Event) (s : Sys) : Prop :=
  if e.overTcp then BleClient W s else s.serving = true

variable (W) in
/-- The event ends a connection: a client leaves, or sends over TCP what is
no message of its session, or is answered by a `NAK`. -/
inductive Ends (s : Sys) : Event → Prop
  | tcpClose (hserving : s.serving = true) : Ends s .tcpClose
  | refused {received : List UInt8} {r : Option Response} {t : Sys}
    (henabled : (Event.tcpRecv received).enabled W s = true)
    (hresponse : (sessionResponse W s.addrStr (cstr received)).run (s.noted (.message s.addrStr)) =
      (.ok r, t))
    (hnak : ∀ response, r = some response → response.response = some nakMessage) :
    Ends s (.tcpRecv received)
  | bleDisconnect (henabled : Event.bleDisconnect.enabled W s = true) : Ends s .bleDisconnect
  | line {received : List UInt8} (henabled : (Event.uart received).enabled W s = true)
    (hping : s.data ≠ lit "PNG") (hwifi : s.wifiConnected = true)
    (hline : cstr received = lit "+DISCONNECT") : Ends s (.uart received)

variable (W) in
/-- If a connection ends at the event, no client is connected on the other
transport. -/
def EndsAlone (e : Event) (s : Sys) : Prop := Ends W s e → ¬ OtherClient W e s

variable (W) in
/-- The event leaves the timer as it has to be. -/
def LeavesAwake (e : Event) (s : Sys) : Prop :=
  ∀ s', (step W e).run s = (.ok (), s') → Awake W s'

/-! ## What an event does to the timer -/

theorem bleClient_s3 (hW : W.target = .esp32s3) : BleClient W s ↔ s.isConnected = true := by
  rw [BleClient, hW]

theorem bleClient_uart (hW : W.target = .esp32s2) : BleClient W s ↔ Connected bleUser s.log := by
  rw [BleClient, hW]

/-- TCP does nothing to the client of BLE. -/
theorem bleClient_of_aside (h : (aside bleUser).rel s t) : BleClient W t ↔ BleClient W s := by
  obtain ⟨hservers, _, new, hnew, hp⟩ := h
  simp only [Sys.bleServers, Prod.mk.injEq] at hservers
  cases hW : W.target with
  | esp32s3 => rw [bleClient_s3 hW, bleClient_s3 hW, hservers.2.1]
  | esp32s2 =>
    rw [bleClient_uart hW, bleClient_uart hW, hnew]
    exact connected_append_iff (fun hmem => hp _ hmem rfl) fun hmem => hp _ hmem rfl

/-- No connection begins or ends, and the timer is left alone. -/
def attended : Frame Sys where
  rel s t := (t.deepSleepArmed = s.deepSleepArmed ∧ t.serving = s.serving ∧
    t.isConnected = s.isConnected) ∧ Grows (fun o => o.isConnection = false) s t
  refl s := ⟨⟨rfl, rfl, rfl⟩, Grows.refl _ s⟩
  trans h₁ h₂ := by
    obtain ⟨⟨harmed₁, hserving₁, hconn₁⟩, hlog₁⟩ := h₁
    obtain ⟨⟨harmed₂, hserving₂, hconn₂⟩, hlog₂⟩ := h₂
    exact ⟨⟨harmed₂.trans harmed₁, hserving₂.trans hserving₁, hconn₂.trans hconn₁⟩,
      hlog₁.trans hlog₂⟩

theorem attended_talks : attended.Talks a := fun s t h => by
  refine ⟨⟨Sys.deepSleepArmed_of_servers h.servers, Sys.serving_of_servers h.servers,
    Sys.isConnected_of_servers h.servers⟩, h.log.mono ?_⟩
  rintro o (ho | ho)
  · cases o <;> first | rfl | cases ho
  · exact ho.1

variable (W) in
/-- What an event did: no connection ended, and the timer is as it has to
be; or one ended, the timer is armed, and who is left is the client of the
other transport. -/
inductive Rests (e : Event) (s s' : Sys) : Prop
  | lasts (hlog : Grows (fun o => ∀ a, o ≠ .disconnect a) s s') (hawake : Awake W s')
  | ends (hends : Ends W s e) (harmed : s'.deepSleepArmed = true)
    (hclient : Client W s' ↔ OtherClient W e s)

theorem Rests.of_attended (h : attended.rel s s') (hs : Awake W s) : Rests W e s s' := by
  obtain ⟨⟨harmed, hserving, hconn⟩, hlog⟩ := h
  have hne {o : Obs} (ho : o.isConnection = false) (a : CStr) : o ≠ .disconnect a := by
    rintro rfl
    cases ho
  refine .lasts (hlog.mono fun o ho => hne ho) fun hclient => ?_
  rw [harmed]
  refine hs (hclient.imp (fun h => hserving ▸ h) fun h => ?_)
  cases hW : W.target with
  | esp32s3 =>
    rw [bleClient_s3 hW] at h ⊢
    rwa [← hconn]
  | esp32s2 =>
    rw [bleClient_uart hW] at h ⊢
    obtain ⟨new, hnew, hp⟩ := hlog
    rw [hnew] at h
    refine (connected_append_iff (fun hmem => ?_) fun hmem => hne (hp _ hmem) _ rfl).1 h
    cases hp _ hmem

theorem grows_of_attended (h : attended.rel s t) : Grows (fun o => ∀ a, o ≠ .disconnect a) s t := by
  refine h.2.mono fun o ho a => ?_
  rintro rfl
  cases ho

/-- A connection that begins cancels the timer. -/
theorem Rests.of_connect {s₁ : Sys} (hlog : s₁.log = .connect a :: s.log)
    (harmed : s₁.deepSleepArmed = false) (h : attended.rel s₁ s') : Rests W e s s' := by
  have hbegins : Grows (fun o => ∀ a, o ≠ .disconnect a) s s₁ :=
    ⟨[.connect a], hlog, fun o ho => by rw [List.mem_singleton.1 ho]; exact nofun⟩
  exact .lasts (hbegins.trans (grows_of_attended h)) fun _ => h.1.1.trans harmed

/-- A connection of TCP that ends leaves the client of BLE. -/
theorem Rests.of_tcp (he : e.overTcp = true) (h : (aside bleUser).rel s s')
    (hserving : s'.serving = false) (harmed : s'.deepSleepArmed = true) (hends : Ends W s e) :
    Rests W e s s' := by
  refine .ends hends harmed ?_
  rw [Client, OtherClient, if_pos he, bleClient_of_aside h, hserving]
  simp

/-- One of BLE leaves the client of TCP. -/
theorem Rests.of_ble (he : e.overTcp = false) (hble : ¬ BleClient W s')
    (hserving : s'.serving = s.serving) (harmed : s'.deepSleepArmed = true) (hends : Ends W s e) :
    Rests W e s s' := by
  refine .ends hends harmed ?_
  rw [Client, OtherClient, if_neg (by rw [he]; decide), hserving, or_iff_left hble]

/-- A message of TCP. -/
theorem rests_doRetransmit (henabled : (Event.tcpRecv received).enabled W s = true)
    (haside : (aside bleUser).rel s s') (hs : Awake W s)
    (h : (doRetransmit W received).run s = (.ok (), s')) : Rests W (.tcpRecv received) s s' := by
  obtain ⟨r, u, hresponse, hends⟩ := doRetransmit_sends h
  -- the server ends the connection itself
  have hhangs {t : Sys} (hhang : (hangUp W).run t = (.ok (), s'))
      (hnak : ∀ response, r = some response → response.response = some nakMessage) :
      Rests W (.tcpRecv received) s s' := by
    obtain ⟨v, -, rfl⟩ := hangUp_ok hhang
    exact .of_tcp rfl haside rfl rfl (.refused henabled hresponse hnak)
  have htalks : attended.Talks s.addrStr := attended_talks
  have hu : attended.rel s u := attended.trans
    (htalks.steps (m := observe (.message s.addrStr)) (observe_within (.inr talking_message)) s)
    ((htalks.steps (sessionResponse_within (talking_serves _))).of_ok hresponse)
  rcases hends with ⟨rfl, hhang⟩ | ⟨response, text, sent, v, rfl, htext, hseal, hends⟩
  · exact hhangs hhang nofun
  · have hquiet : quiet.Rel u v := sealResponse_within.of_ok hseal
    have hreply : attended.rel v (v.noted (.reply s.addrStr response.aes text sent)) :=
      htalks.steps (m := observe (.reply s.addrStr response.aes text sent))
        (observe_within (.inr talking_reply)) v
    have hv : attended.rel s (v.noted (.reply s.addrStr response.aes text sent)) :=
      attended.trans (attended.trans hu (htalks _ _ (quiet_rel hquiet))) hreply
    rcases hends with ⟨_, rfl⟩ | ⟨rfl, hhang⟩
    · exact .of_attended hv hs
    · refine hhangs hhang fun response' heq => ?_
      cases heq
      exact htext

/-- A line of the BLE module, or a message of its client. -/
theorem rests_echoTask (henabled : (Event.uart received).enabled W s = true) (hs : Awake W s)
    (h : (echoTask W received).run s = (.ok (), s')) : Rests W (.uart received) s s' := by
  have hW : W.target = .esp32s2 := enabled_uart henabled
  have hserving : s'.serving = s.serving := by
    have hapart : (apart (inetNtoa #v[0, 0, 0, 0])).rel s s' :=
      (apart_overUart _).echoTask.of_ok h
    exact hapart.1.2
  -- a ping or nothing, a line that connects, disconnects or is neither, or a message
  rcases echoTask_ok h with hping | rfl | hline | ⟨_, hmessage⟩
  · have hsteps : Steps attended (sendLOK W) :=
      sendLOK_steps attended_talks fun s _ => ⟨⟨rfl, rfl, rfl⟩, Grows.refl _ s⟩
    exact .of_attended (hsteps.of_ok hping) hs
  · exact .of_attended (attended.refl s') hs
  · rcases handleATCmd_ok hline.2 with ⟨_, t, hset, rfl⟩ | ⟨⟨_, hgone⟩, t, hset, rfl⟩ | rfl
    · have hrel : attended.rel _ t :=
        (attended_talks (a := bleUser) |>.steps (setUserState_within rfl)).of_ok hset
      obtain ⟨new, hnew, hp⟩ := grows_of_attended hrel
      refine .lasts ⟨new ++ [.connect bleUser], ?_, fun o ho => ?_⟩ fun _ => rfl
      · rw [List.append_assoc]
        exact hnew
      · rcases List.mem_append.1 ho with ho | ho
        · exact hp o ho
        · rw [List.mem_singleton.1 ho]
          exact nofun
    · obtain ⟨⟨hping, hwifi, -⟩, -⟩ := hline
      refine .of_ble rfl ?_ hserving rfl (.line henabled hping hwifi
        ((strncmpEq_of_lt (by decide) (zero_notMem_cstr _)).1 hgone))
      rw [bleClient_uart hW]
      exact not_connected_disconnect
    · exact .of_attended ⟨⟨rfl, rfl, rfl⟩, .of_log _ rfl⟩ hs
  · have hsteps : Steps attended (handleBleMessage W (restorePlus (cstr received))) :=
      handleBleMessage_steps talking_answers attended_talks
        (fun s _ => ⟨⟨rfl, rfl, rfl⟩, Grows.refl _ s⟩) fun s _ => ⟨⟨rfl, rfl, rfl⟩, Grows.refl _ s⟩
    have hbuffer : attended.rel s (s.buffered received) := ⟨⟨rfl, rfl, rfl⟩, [], rfl, nofun⟩
    exact .of_attended (attended.trans hbuffer (hsteps.of_ok hmessage)) hs

/-- **What an event does to the timer.** -/
theorem step_rests (hw : Wired W s) (hs : Awake W s) (h : (step W e).run s = (.ok (), s')) :
    Rests W e s s' := by
  rw [step, run_get_bind] at h
  by_cases henabled : e.enabled W s
  · rw [if_pos henabled] at h
    have haside (ip : Vector UInt8 4) : OverTcp (aside bleUser) ip :=
      aside_overTcp (hashKey_ipv4_ne (x := .bleUser) rfl ip)
    -- a connection cancels the timer, a disconnection arms it, whoever else is there
    cases e with
    | tcpAccept ip =>
      rw [SmartLock.handle, run_tcpAccept] at h
      exact .of_connect rfl rfl ((attended_talks.steps (setUserState_within rfl)).of_ok h)
    | tcpRecv received =>
      obtain ⟨ip, hip⟩ := hw.tcp (enabled_tcpRecv henabled)
      exact rests_doRetransmit henabled (Frame.of_run ((haside ip).doRetransmit hip) h) hs h
    | tcpClose =>
      obtain ⟨ip, hip⟩ := hw.tcp henabled
      have hrel := (haside ip).tcpEnd hip
      cases h
      exact .of_tcp rfl hrel rfl rfl (.tcpClose henabled)
    | bleConnect bda =>
      rw [SmartLock.handle, run_gattsConnect] at h
      exact .of_connect rfl rfl ((attended_talks.steps (setUserState_within rfl)).of_ok h)
    | bleDisconnect =>
      obtain ⟨_, _, hW⟩ := hw.s3 (enabled_bleDisconnect henabled)
      rw [SmartLock.handle, run_gattsDisconnect] at h
      obtain ⟨_, t, hset, hobs⟩ := bind_ok.1 h
      cases hobs
      have hrel : attended.rel s.gattsDisconnected t :=
        (attended_talks.steps (setUserState_within rfl)).of_ok hset
      refine .of_ble rfl ?_ hrel.1.2.1 hrel.1.1 (.bleDisconnect henabled)
      rw [bleClient_s3 hW]
      exact fun hc => absurd (hrel.1.2.2.symm.trans hc) Bool.false_ne_true
    | bleWrite value =>
      have hrel : attended.rel s s' := Frame.of_run
        (processNormalData_rel attended_talks (fun s _ => ⟨⟨rfl, rfl, rfl⟩, Grows.refl _ s⟩) rfl) h
      exact .of_attended hrel hs
    | uart received => exact rests_echoTask henabled hs h
    | serverStatus status =>
      cases h
      exact .of_attended ⟨⟨rfl, rfl, rfl⟩, .of_log _ rfl⟩ hs
    | initRsaKey =>
      have hsteps : Steps attended (initRsaKey W) :=
        (attended_talks (a := [])).steps (initRsaKey_within trivial)
      exact .of_attended (hsteps.of_ok h) hs
    | setWifiConnected connected =>
      cases h
      exact .of_attended ⟨⟨rfl, rfl, rfl⟩, .of_log _ rfl⟩ hs
    | serverOnline =>
      cases h
      exact .of_attended ⟨⟨rfl, rfl, rfl⟩, .of_log _ rfl⟩ hs
  · rw [if_neg henabled] at h
    cases h
    exact .of_attended (attended.refl _) hs

/-! ## A connection that ends -/

/-- The server ends a connection, whatever it was. -/
theorem hangUp_ends (ha : s.addrStr.length < 45) :
    ∃ t : Sys, (hangUp W).run s = (.ok (), t.hungUp) ∧ s.log <:+ t.log := by
  obtain ⟨t, hset⟩ := setUserState_returns (W := W) (s := s) .disconnected [] ha (by decide)
  obtain ⟨x, hx, -⟩ := (setUserState_ok hset).self
  have hrel := setUserState_writes hset
  have haddr : t.addrStr = s.addrStr := Sys.addrStr_of_servers hrel.servers
  have hctx : (getUserAESCtx s.addrStr).run t = (.ok _, t) :=
    bind_ok.2 ⟨_, t, derefUser_ok.2 ⟨hx, rfl⟩, rfl⟩
  refine ⟨t, ?_, hrel.log.suffix⟩
  have hclose : (disconnectSock W).run s =
      (.ok (), { t with log := .close :: t.log, deepSleepArmed := true }) := by
    rw [disconnectSock, run_get_bind, run_bind_ok hset, run_bind_ok hctx]
    rfl
  exact bind_ok.2 ⟨(), _, hclose, rfl⟩

/-- A response that is none, or a `NAK`, ends the connection. -/
theorem Ends.doRetransmit {r : Option Response} (ha : s.addrStr.length < 45)
    (hresponse : (sessionResponse W s.addrStr (cstr received)).run (s.noted (.message s.addrStr)) =
      (.ok r, t)) (hnak : ∀ response, r = some response → response.response = some nakMessage) :
    ∃ s' b pre, (doRetransmit W received).run s = (.ok (), s') ∧ Made s s' (.disconnect b) pre := by
  have hrel : (talking s.addrStr).Rel (s.noted (.message s.addrStr)) t :=
    (sessionResponse_within (talking_serves _)).of_ok hresponse
  have hlog : s.log <:+ t.log := (List.suffix_cons _ _).trans hrel.log.suffix
  have haddr : t.addrStr = s.addrStr := Sys.addrStr_of_servers hrel.servers
  have hends {u : Sys} (hu : u.addrStr.length < 45) (hlog : s.log <:+ u.log) :
      ∃ s' b pre, (hangUp W).run u = (.ok (), s') ∧ Made s s' (.disconnect b) pre := by
    obtain ⟨v, hrun, hsuffix⟩ := hangUp_ends (W := W) hu
    exact ⟨_, _, _, hrun, (hlog.trans hsuffix).trans ⟨[.close, .close], rfl⟩, List.suffix_refl _⟩
  rw [SmartLock.doRetransmit, run_get_bind, run_observe_bind, run_bind_ok hresponse]
  cases r with
  | none => exact hends (haddr ▸ ha) hlog
  | some response =>
    have htext : response.response = some nakMessage := hnak response rfl
    obtain ⟨iv, u, hseal⟩ := sealResponse_brief (W := W) response.aes
      (by rw [Brief]; decide : Brief nakMessage) t
    have hquiet : quiet.Rel t u := sealResponse_within.of_ok hseal
    have haddr' : u.addrStr = s.addrStr := (Sys.addrStr_of_servers hquiet.servers).trans haddr
    dsimp only
    rw [htext, run_bind_ok hseal, run_bind_ok (deref_ok.2 ⟨rfl, rfl⟩), run_observe_bind, if_pos rfl]
    exact hends (by rw [show (u.noted _).addrStr = s.addrStr from haddr']; exact ha)
      ((hlog.trans hquiet.log.suffix).trans (List.suffix_cons _ _))

/-- **An event that ends a connection** returns, and the connection ends. -/
theorem Ends.made (hw : Wired W s) (h : Ends W s e) :
    ∃ s' b pre, (step W e).run s = (.ok (), s') ∧ Made s s' (.disconnect b) pre := by
  cases h with
  | tcpClose hserving =>
    have henabled : Event.tcpClose.enabled W s = true := hserving
    refine ⟨(tcpEnd.run s).2, s.addrStr, .close :: s.log, ?_, List.suffix_cons _ _,
      List.suffix_refl _⟩
    rw [step, run_get_bind, if_pos henabled]
    rfl
  | refused henabled hresponse hnak =>
    obtain ⟨ip, hip⟩ := hw.tcp (enabled_tcpRecv henabled)
    rw [step, run_get_bind, if_pos henabled]
    exact Ends.doRetransmit (hip ▸ (Address.ipv4 ip).text_length_lt) hresponse hnak
  | bleDisconnect henabled =>
    obtain ⟨⟨bda, hbda⟩, -⟩ := hw.s3 (enabled_bleDisconnect henabled)
    obtain ⟨t, hset⟩ := setUserState_returns (W := W) (s := s.gattsDisconnected) .disconnected []
      (hbda ▸ (Address.ble bda).text_length_lt : s.bleUserAddr.length < 45) (by decide)
    refine ⟨t.noted (.disconnect s.bleUserAddr), s.bleUserAddr, t.log, ?_,
      (setUserState_writes hset).log.suffix, List.suffix_refl _⟩
    rw [step, run_get_bind, if_pos henabled, SmartLock.handle, run_gattsDisconnect,
      run_bind_ok hset]
    rfl
  | @line received henabled hping hwifi hline =>
    have hreceived : received ≠ [] := by
      rintro rfl
      exact absurd hline (by decide)
    obtain ⟨t, hset⟩ := setUserState_returns (W := W) (s := { s with data := cstr received })
      (a := bleUser) .disconnected [] (by decide) (by decide)
    refine ⟨t.uartDisconnected, bleUser, t.log, ?_, (setUserState_writes hset).log.suffix,
      List.suffix_refl _⟩
    have hcmd : (handleATCmd W (cstr received)).run { s with data := cstr received } =
        (.ok (), t.uartDisconnected) := by
      rw [handleATCmd, if_neg (by rw [hline]; decide), if_pos (by rw [hline]; decide),
        run_bind_ok hset]
      rfl
    rw [step, run_get_bind, if_pos henabled, SmartLock.handle, echoTask, run_get_bind,
      if_neg hping, if_pos ⟨hwifi, hreceived⟩]
    dsimp only
    rw [if_pos (.inr (by rw [hline]; decide))]
    exact hcmd

/-! ## Runs -/

/-- **An event leaves the timer as it has to be** exactly if no connection
ends while the other transport has a client. -/
theorem leavesAwake_iff (hw : Wired W s) (hs : Awake W s) :
    LeavesAwake W e s ↔ EndsAlone W e s := by
  constructor
  · intro hleaves hends hother
    obtain ⟨s', b, pre, hrun, hmade⟩ := hends.made hw
    cases step_rests hw hs hrun with
    | lasts hlog _ => exact hlog.of_made hmade b rfl
    | ends _ harmed hclient =>
      exact Bool.false_ne_true ((hleaves s' hrun (hclient.2 hother)).symm.trans harmed)
  · intro halone s' hrun
    cases step_rests hw hs hrun with
    | lasts _ hawake => exact hawake
    | ends hends _ hclient => exact fun hc => (halone hends (hclient.1 hc)).elim

/-- At the start no client is there. -/
theorem Boot.not_bleClient (h : Boot W s) : ¬ BleClient W s := by
  intro hc
  cases hW : W.target with
  | esp32s3 => exact absurd ((bleClient_s3 hW).1 hc) (by rw [h.isConnected]; decide)
  | esp32s2 =>
    have hbegan := ((bleClient_uart hW).1 hc).began
    rw [h.log] at hbegan
    exact absurd hbegan List.not_mem_nil

theorem Boot.awake (h : Boot W s) : Awake W s := by
  rintro (hserving | hble)
  · exact absurd hserving (by rw [h.serving]; decide)
  · exact absurd hble h.not_bleClient

/-- **The lock never goes to sleep under a client**, in the runs, and only
in those, in which no connection ends while the other transport has a
client. -/
theorem awake_iff_endsAlone (h : Boot W s) :
    Throughout (step W) (LeavesAwake W) es s ↔ Throughout (step W) (EndsAlone W) es s := by
  constructor
  · refine Throughout.imp (I := fun s => Wired W s ∧ Awake W s) ?_ ?_ ⟨h.wired, h.awake⟩
    · exact fun e s s' hI hleaves hrun => ⟨(step_wired e).of_ok hrun hI.1, hleaves s' hrun⟩
    · exact fun e s hI => (leavesAwake_iff hI.1 hI.2).1
  · refine Throughout.imp (I := fun s => Wired W s ∧ Awake W s) ?_ ?_ ⟨h.wired, h.awake⟩
    · exact fun e s s' hI halone hrun =>
        ⟨(step_wired e).of_ok hrun hI.1, (leavesAwake_iff hI.1 hI.2).2 halone s' hrun⟩
    · exact fun e s hI => (leavesAwake_iff hI.1 hI.2).2

/-- A client of BLE connects, and one of TCP comes and goes. -/
def visit : List Event := [.bleConnect phoneAddress, .tcpAccept #v[10, 0, 0, 7], .tcpClose]

/-- **A client of TCP that leaves puts the lock to sleep** under the client
of BLE. -/
theorem visit_puts_to_sleep : Boot (World.still .esp32s3 0) Sys.initial ∧
    ((run (World.still .esp32s3 0) visit).run Sys.initial).1 = .ok () ∧
    ¬ Awake (World.still .esp32s3 0) ((run (World.still .esp32s3 0) visit).run Sys.initial).2 := by
  have hend : ((run (World.still .esp32s3 0) visit).run Sys.initial).2.isConnected = true ∧
      ((run (World.still .esp32s3 0) visit).run Sys.initial).2.deepSleepArmed = true := by
    decide +kernel
  refine ⟨boot_initial, by decide +kernel, fun hawake => ?_⟩
  exact Bool.false_ne_true ((hawake (.inr hend.1)).symm.trans hend.2)

/-- At an event of a transport the other has no client, if a connection can
end at it. -/
def alone : Event → Sys → Bool
  | .tcpAccept _, _ => true
  | .bleConnect _, _ => true
  | e, s => if e.overTcp then !s.isConnected else !s.serving

theorem endsAlone_of_alone (hW : W.target = .esp32s3) (h : alone e s = true) :
    EndsAlone W e s := by
  have htcp (halone : (!s.isConnected) = true) : ¬ BleClient W s := by
    rw [bleClient_s3 hW]
    simpa using halone
  have hble (halone : (!s.serving) = true) : ¬ s.serving = true := by simpa using halone
  intro hends
  cases hends with
  | tcpClose => exact htcp h
  | refused => exact htcp h
  | bleDisconnect => exact hble h
  | line => exact hble h

/-- A client of BLE comes and goes; one of TCP comes, and the server hangs
up on it behind a `NAK`; then both are there. -/
def aloneVisit : List Event :=
  [.bleConnect phoneAddress, .bleDisconnect, .tcpAccept lanAddress, .tcpRecv (lit "AAAA"),
    .tcpRecv (sealedText (lit "X")), .tcpAccept lanAddress, .bleConnect phoneAddress]

/-- The theorem, where each connection ends alone. -/
theorem awake_iff_endsAlone_visit :
    ((run (World.answering .esp32s3) aloneVisit).run Sys.initial).1 = .ok () ∧
      Throughout (step (World.answering .esp32s3)) (EndsAlone (World.answering .esp32s3))
        aloneVisit Sys.initial ∧
      Throughout (step (World.answering .esp32s3)) (LeavesAwake (World.answering .esp32s3))
        aloneVisit Sys.initial := by
  have hchecked : checked (step (World.answering .esp32s3)) alone aloneVisit Sys.initial = true := by
    decide +kernel
  have halone : Throughout (step (World.answering .esp32s3)) (EndsAlone (World.answering .esp32s3))
      aloneVisit Sys.initial := .of_checked (fun _ _ => endsAlone_of_alone rfl) hchecked
  exact ⟨by decide +kernel, halone, (awake_iff_endsAlone boot_initial).2 halone⟩

end SmartLock
