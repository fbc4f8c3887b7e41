import SmartLock.Footprint.Server

/-!
# Frames over the servers

What a frame has to allow for every event of a transport to move within
it. A server does three things: what a message does, which the footprint
`talking` bounds; the assignments to its own globals; and the observations
that a connection begins or ends. A frame that allows these is respected by
all the server does, whatever the outcome.
-/

namespace SmartLock

open Prog

variable {W : World} {F : Frame Sys} {a data : CStr} {s t : Sys} {received : List UInt8}

/-- The frame moves by all that a message of `a` does. -/
def Prog.Frame.Talks (F : Frame Sys) (a : CStr) : Prop := ∀ s t, (talking a).Rel s t → F.rel s t

/-- What stays within the footprint moves by the frame. -/
theorem Prog.Frame.Talks.steps {α : Type} {m : M α} (h : F.Talks a) (hm : Within (talking a) m) :
    Steps F m := hm.mono h

/-- A message is noted as it comes. -/
theorem talking_message : (talking a).obs (.message a) := talking_obs rfl (.inr rfl)

/-- An answer goes out. -/
theorem talking_reply {ctx : AESContext} {text sent : CStr} :
    (talking a).obs (.reply a ctx text sent) := talking_obs rfl (.inr rfl)

/-! ## TCP -/

/-- The frame allows what TCP does with a connection from `ip`. -/
structure OverTcp (F : Frame Sys) (ip : Vector UInt8 4) : Prop where
  talks : F.Talks (inetNtoa ip)
  sleep : ∀ s armed, F.rel s { s with deepSleepArmed := armed }
  accept : ∀ s, F.rel s { s with addrStr := inetNtoa ip, serving := true }
  connect : ∀ s, F.rel s (s.noted (.connect (inetNtoa ip)))
  close : ∀ s, F.rel s (s.noted .close)
  disconnect : ∀ s, F.rel s (s.noted (.disconnect (inetNtoa ip)))
  leave : ∀ s, F.rel s { s with serving := false }

/-- The frame, of the states in which `addr_str` is `a`. -/
def Prog.Frame.serving (F : Frame Sys) (a : CStr) : Frame Sys where
  rel s t := s.addrStr = a → t.addrStr = a ∧ F.rel s t
  refl s h := ⟨h, F.refl s⟩
  trans h₁ h₂ h := by
    obtain ⟨ha, h₁⟩ := h₁ h
    obtain ⟨ha', h₂⟩ := h₂ ha
    exact ⟨ha', F.trans h₁ h₂⟩

namespace OverTcp

variable {ip : Vector UInt8 4}

/-- While `addr_str` is the connection's, what a message does moves by the
frame. -/
theorem within {α : Type} {m : M α} (h : OverTcp F ip) (hm : Within (talking (inetNtoa ip)) m) :
    Steps (F.serving (inetNtoa ip)) m :=
  hm.mono fun s t hst ha => ⟨(Sys.addrStr_of_servers hst.servers).trans ha, h.talks s t hst⟩

/-- `disconnect_sock` writes the record of `addr_str`, which stands while it
runs, and starts the timer. -/
theorem disconnectSock_steps (h : OverTcp F ip) :
    Steps (F.serving (inetNtoa ip)) (disconnectSock W) := by
  intro s hs
  have hrest : Steps (F.serving (inetNtoa ip)) (do
      setUserState W (inetNtoa ip) .disconnected []
      let _ ← getUserAESCtx (inetNtoa ip)
      observe .close
      startDeepSleepTimer) :=
    .bind (h.within (setUserState_within rfl)) fun _ =>
      .bind (h.within getUserAESCtx_within) fun _ =>
        .bind (.modify fun s hs => ⟨hs, h.close s⟩) fun _ => .modify fun s hs => ⟨hs, h.sleep s true⟩
  rw [disconnectSock, run_get_bind, hs]
  exact hrest s hs

/-- The end of a connection is the same whichever way it came. -/
theorem tcpEnd_steps (h : OverTcp F ip) : Steps (F.serving (inetNtoa ip)) tcpEnd := by
  intro s hs
  have hrest : Steps (F.serving (inetNtoa ip)) (do
      startDeepSleepTimer
      observe .close
      observe (.disconnect (inetNtoa ip))
      Prog.modify fun s => { s with serving := false }) :=
    .bind (.modify fun s hs => ⟨hs, h.sleep s true⟩) fun _ =>
      .bind (.modify fun s hs => ⟨hs, h.close s⟩) fun _ =>
        .bind (.modify fun s hs => ⟨hs, h.disconnect s⟩) fun _ => .modify fun s hs => ⟨hs, h.leave s⟩
  rw [tcpEnd, run_get_bind, hs]
  exact hrest s hs

/-- **The frame of a message of TCP.** -/
theorem doRetransmit (h : OverTcp F ip) (hs : s.addrStr = inetNtoa ip) :
    F.rel s ((doRetransmit W received).run s).2 := by
  have hhangUp : Steps (F.serving (inetNtoa ip)) (do disconnectSock W; tcpEnd) :=
    .bind h.disconnectSock_steps fun _ => h.tcpEnd_steps
  rw [SmartLock.doRetransmit, run_get_bind, hs]
  refine (Steps.bind (F := F.serving (inetNtoa ip))
    (h.within (observe_within (.inr talking_message))) (fun _ =>
      .bind (h.within (sessionResponse_within (talking_serves _))) fun r => ?_) s hs).2
  cases r with
  | none => exact hhangUp
  | some r =>
    exact .bind (h.within sealResponse_within) fun _ => .bind (h.within deref_within) fun _ =>
      .bind (h.within (observe_within (.inr talking_reply))) fun _ =>
        .ite (fun _ => hhangUp) fun _ => .pure ()

/-- The frame of the end of a connection. -/
theorem tcpEnd (h : OverTcp F ip) (hs : s.addrStr = inetNtoa ip) : F.rel s (tcpEnd.run s).2 :=
  (h.tcpEnd_steps s hs).2

/-- The frame of a new connection: `addr_str` is its own from here on. -/
theorem tcpAccept (h : OverTcp F ip) : Steps F (tcpAccept W ip) :=
  .bind (.modify h.accept) fun _ => .bind (.modify h.connect) fun _ =>
    .bind (.modify fun s => h.sleep s false) fun _ => h.talks.steps (setUserState_within rfl)

end OverTcp

/-! ## The BLE server of the S3 -/

/-- What `ESP_GATTS_CONNECT_EVT` has done when it calls
`set_user_state`. -/
def Sys.gattsConnected (bda : Vector UInt8 6) (s : Sys) : Sys :=
  { s with
    isConnected := true
    deepSleepArmed := false
    bleUserAddr := macText bda
    currentBLEAddr := macText bda
    log := .connect (macText bda) :: s.log }

/-- Only the record is left to write. -/
theorem run_gattsConnect (bda : Vector UInt8 6) : (gattsConnect W bda).run s =
    (setUserState W (macText bda) .connecting []).run (s.gattsConnected bda) := rfl

/-- What `ESP_GATTS_DISCONNECT_EVT` has done when it calls
`set_user_state`. -/
def Sys.gattsDisconnected (s : Sys) : Sys :=
  { s with isConnected := false, deepSleepArmed := true, currentBLEAddr := [] }

/-- The record of the client that was connected is written last. -/
theorem run_gattsDisconnect : (gattsDisconnect W).run s = (do
    setUserState W s.bleUserAddr .disconnected []
    observe (.disconnect s.bleUserAddr)).run s.gattsDisconnected := rfl

/-- The frame allows what the BLE server of the S3 does with a connection
from `bda`. -/
structure OverS3 (F : Frame Sys) (bda : Vector UInt8 6) : Prop where
  talks : F.Talks (macText bda)
  connect : ∀ s, F.rel s (s.gattsConnected bda)
  disconnect : ∀ s, F.rel s s.gattsDisconnected
  disconnected : ∀ s, F.rel s (s.noted (.disconnect (macText bda)))
  flag : ∀ s b, F.rel s { s with gotFirstInviteSessionKeyS3 := b }

/-- A message in first-invite mode: the flag, and either a command or
credentials. -/
theorem firstInviteResponse_steps {G : Footprint} {flag : Sys → Bool}
    {setFlag : Bool → Sys → Sys} (hG : G.Serves a) (h : ∀ s t, G.Rel s t → F.rel s t)
    (hset : ∀ s b, F.rel s (setFlag b s)) : Steps F (firstInviteResponse W flag setFlag a data) :=
  .bind .get fun _ => .ite
    (fun _ => .bind (.modify fun s => hset s false) fun _ =>
      .bind ((commandResponse_within hG).mono h) fun _ => .pure _)
    fun _ => .bind ((credentials_within hG).mono h) fun _ => .ite
      (fun _ => .bind (getUserAESCtx_within.mono h) fun _ =>
        .bind (.modify fun s => hset s true) fun _ => .pure _) fun _ => .pure _

/-- A frame goes out while a client is connected, and not otherwise. -/
theorem sendDataBleS3_within {F : Footprint} {n : ℕ} {sent : CStr → Obs}
    (h : ∀ text, F.obs (sent text)) : Within F (sendDataBleS3 n data sent) :=
  .bind .get fun _ => .ite (fun _ => .bind sprintf_within fun _ => observe_within (.inr (h _)))
    fun _ => .pure ()

/-- A reply is sealed, and framed if a client is connected. -/
theorem replyBleS3_within {F : Footprint} {r : Response}
    (h : ∀ text sent, F.obs (.reply a r.aes text sent)) : Within F (replyBleS3 W a r) :=
  .bind sealResponse_within fun _ => .bind deref_within fun _ => sendDataBleS3_within (h _)

/-- Whether the lock awaits its first invite is asked of the server anew. -/
theorem awaitsFirstInviteS3_within {F : Footprint} (h : F.status) :
    Within F (awaitsFirstInviteS3 W) :=
  .bind (getRegistrationStatus_within h) fun _ => .ite
    (fun _ => .bind (forceGetRegistrationStatus_within h) fun _ => .pure _) fun _ => .pure _

/-- **The frame of a value written to the data characteristic.** -/
theorem processNormalData_rel (h : F.Talks a)
    (hflag : ∀ s b, F.rel s { s with gotFirstInviteSessionKeyS3 := b }) (hs : s.bleUserAddr = a) :
    F.rel s ((processNormalData W data).run s).2 := by
  have hreply (r : Response) : Steps F (replyBleS3 W a r) :=
    h.steps (replyBleS3_within fun _ _ => talking_reply)
  have hgap : Steps F disconnectBleS3 :=
    h.steps (observe_within (.inr (talking_obs rfl (.inl rfl))))
  rw [processNormalData, run_get_bind, hs]
  split
  · exact h.steps (sendDataBleS3_within fun _ => talking_obs rfl (.inl rfl)) s
  · split
    · refine Steps.bind (h.steps (observe_within (.inr talking_message))) (fun _ =>
        .bind (h.steps (awaitsFirstInviteS3_within trivial)) fun _ => .ite
          (fun _ => .bind (firstInviteResponse_steps (talking_serves a) h hflag) fun r => ?_)
          fun _ => .bind (h.steps (sessionResponse_within (talking_serves _))) fun r => ?_) s
      · cases r with
        | none => exact hgap
        | some r =>
          exact .bind (hreply r) fun _ =>
            .bind (h.steps (forceGetRegistrationStatus_within trivial)) fun _ => .pure _
      · cases r with
        | none => exact hgap
        | some r => exact hreply r
    · exact F.refl s

namespace OverS3

variable {bda : Vector UInt8 6}

/-- The frame of a client that connects. -/
theorem gattsConnect (h : OverS3 F bda) : Steps F (gattsConnect W bda) := by
  intro s
  rw [run_gattsConnect]
  exact F.trans (h.connect s) (h.talks.steps (setUserState_within rfl) _)

/-- The frame of a client that goes. -/
theorem gattsDisconnect (h : OverS3 F bda) (hs : s.bleUserAddr = macText bda) :
    F.rel s ((gattsDisconnect W).run s).2 := by
  have hrest : Steps F (do
      setUserState W (macText bda) .disconnected []
      observe (.disconnect (macText bda))) :=
    .bind (h.talks.steps (setUserState_within rfl)) fun _ => .modify h.disconnected
  rw [run_gattsDisconnect, hs]
  exact F.trans (h.disconnect s) (hrest _)

/-- The frame of a value written, in a connection from `bda`. -/
theorem processNormalData (h : OverS3 F bda) (hs : s.bleUserAddr = macText bda) :
    F.rel s ((processNormalData W data).run s).2 := processNormalData_rel h.talks h.flag hs

end OverS3

/-! ## The BLE server of the S2 -/

/-- `LOK` is sent from a literal, which the framing changes. -/
theorem sendLOK_steps (h : F.Talks bleUser)
    (hliteral : ∀ s text, F.rel s { s with lokLiteral := text }) :
    Steps F (sendLOK W) :=
  .bind (h.steps faultIf_within) fun _ => .bind .get fun _ =>
    .bind (h.steps sprintf_within) fun _ => .bind (.modify fun s => hliteral s _) fun _ =>
      h.steps (observe_within (.inr (talking_obs rfl (.inl rfl))))

/-- What a message of the UART is observed to do besides what every message
does. -/
structure Footprint.Answers (G : Footprint) : Prop where
  serves : G.Serves bleUser
  message : G.obs (.message bleUser)
  disc : G.obs (.uartText (lit "AT+DISC\r\n"))
  reply : ∀ ctx text sent, G.obs (.reply bleUser ctx text sent)

/-- The footprint of a message allows the answers of the UART. -/
theorem talking_answers : (talking bleUser).Answers where
  serves := talking_serves _
  message := talking_message
  disc := talking_obs rfl (.inl rfl)
  reply _ _ _ := talking_reply

/-- **The frame of a message of the UART.** -/
theorem handleBleMessage_steps {G : Footprint} (hG : G.Answers) (h : ∀ s t, G.Rel s t → F.rel s t)
    (hflag : ∀ s b, F.rel s { s with gotFirstInviteSessionKey := b })
    (hbuffer : ∀ s data, F.rel s { s with data := data }) : Steps F (handleBleMessage W data) := by
  have hresponse : Steps F (bleResponse W data) :=
    .bind ((getRegistrationStatus_within hG.serves.status).mono h) fun _ => .ite
      (fun _ => firstInviteResponse_steps hG.serves h hflag)
      fun _ => (sessionResponse_within hG.serves).mono h
  refine .bind ((observe_within (.inr hG.message)).mono h) fun _ =>
    .bind (getUserAESCtx_within.mono h) fun _ => .bind hresponse fun r => ?_
  cases r with
  | none =>
    exact .bind ((setUserState_within hG.serves.key).mono h) fun _ =>
      (observe_within (.inr hG.disc)).mono h
  | some r =>
    exact .bind (.modify fun s => hbuffer s _) fun _ =>
      .bind (sealResponse_within.mono h) fun _ => .bind (deref_within.mono h) fun _ =>
        .bind (sprintf_within.mono h) fun _ =>
          (observe_within (.inr (hG.reply _ _ _))).mono h

/-- The frame allows what the BLE server of the S2 does. -/
structure OverUart (F : Frame Sys) : Prop where
  talks : F.Talks bleUser
  sleep : ∀ s armed, F.rel s { s with deepSleepArmed := armed }
  connect : ∀ s, F.rel s (s.noted (.connect bleUser))
  disconnect : ∀ s, F.rel s (s.noted (.disconnect bleUser))
  current : ∀ s addr, addr = [] ∨ addr = bleUser → F.rel s { s with currentBLEAddr := addr }
  flag : ∀ s b, F.rel s { s with gotFirstInviteSessionKey := b }
  buffer : ∀ s data, F.rel s { s with data := data }
  literal : ∀ s text, F.rel s { s with lokLiteral := text }

namespace OverUart

/-- The frame of a line of the module: a connection begins, or ends. -/
theorem handleATCmd (h : OverUart F) : Steps F (handleATCmd W data) :=
  .ite (fun _ => .bind (.modify h.connect) fun _ =>
      .bind (h.talks.steps (setUserState_within rfl)) fun _ =>
        .bind (.modify fun s => h.sleep s false) fun _ => .modify fun s => h.current s _ (.inr rfl))
    fun _ => .ite (fun _ => .bind (h.talks.steps (setUserState_within rfl)) fun _ =>
      .bind (.modify fun s => h.current s _ (.inl rfl)) fun _ =>
        .bind (.modify fun s => h.sleep s true) fun _ => .modify h.disconnect) fun _ => .pure ()

/-- The frame of a ping. -/
theorem sendLOK (h : OverUart F) : Steps F (sendLOK W) := sendLOK_steps h.talks h.literal

/-- The frame of a message of the UART, without regard to the record it
writes. -/
theorem handleBleMessage (h : OverUart F) : Steps F (handleBleMessage W data) :=
  handleBleMessage_steps talking_answers h.talks h.flag h.buffer

/-- **The frame of a turn of the loop of `echo_task`.** -/
theorem echoTask (h : OverUart F) : Steps F (echoTask W received) :=
  .bind .get fun _ => .ite (fun _ => h.sendLOK) fun _ => .ite
    (fun _ => .ite (fun _ => .bind (.modify fun s => h.buffer s _) fun _ => h.handleATCmd)
      fun _ => .bind (.modify fun s => h.buffer s _) fun _ => h.handleBleMessage)
    fun _ => .pure ()

end OverUart

/-! ## The other events -/

/-- `init_rsa_key` asks for the registration status, and again where the
lock is not registered. -/
theorem initRsaKey_within {F : Footprint} (h : F.status) : Within F (initRsaKey W) :=
  .bind (getRegistrationStatus_within h) fun _ => .ite
    (fun _ => .bind (forceGetRegistrationStatus_within h) fun _ => .pure _) fun _ => .pure ()

end SmartLock
