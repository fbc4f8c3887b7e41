import SmartLock.System.Exchange
import SmartLock.System.Wiring

/-!
# Which messages are commands

Each server decides on its own whether it takes a message for a command:
by the state of the session, or by the flag of the first-invite mode.
`Dispatch` lists these decisions, and the state the command is decrypted
in. What an event is observed to do is then a matter of the commands
alone.
-/

namespace SmartLock

open Prog

variable {W : World} {a data : CStr} {s t : Sys} {e : Event} {C : Obs → List Obs → Prop}
variable {received value : List UInt8}

/-- A command may come in this session. -/
def Open (a : CStr) (s : Sys) : Prop :=
  ∃ x, s.user a = some x ∧ (x.state = .connected ∨ x.state = .authorized)

/-- The state in which `echo_task` handles a message. -/
def Sys.buffered (received : List UInt8) (s : Sys) : Sys :=
  { s with data := restorePlus (cstr received) }

variable (W) in
/-- The event brings a message of the BLE client `a`. -/
inductive Brings (s : Sys) : Event → CStr → Prop
  | s3 {value : List UInt8} (henabled : (Event.bleWrite value).enabled W s = true)
    (hping : cstr value ≠ lit "PNG") (hwifi : s.wifiConnected = true) :
    Brings s (.bleWrite value) s.bleUserAddr
  | uart {received : List UInt8} (henabled : (Event.uart received).enabled W s = true)
    (hping : s.data ≠ lit "PNG") (hwifi : s.wifiConnected = true ∧ received ≠ [])
    (hmessage : ¬ (strncmpEq (lit "AT+") (cstr received) 3 ∨ strncmpEq (lit "+") (cstr received) 1)) :
    Brings s (.uart received) bleUser

variable (W) in
/-- At the event `e` in `s`, the message `data` of `a` is decrypted as a
command, in `t`. -/
inductive Dispatch (s : Sys) : Event → CStr → CStr → Sys → Prop
  | tcp {received : List UInt8} (henabled : (Event.tcpRecv received).enabled W s = true)
    (hopen : Open s.addrStr s) :
    Dispatch s (.tcpRecv received) s.addrStr (cstr received) (s.noted (.message s.addrStr))
  | inviteS3 {value : List UInt8} {t : Sys} (hbrings : Brings W s (.bleWrite value) s.bleUserAddr)
    (hawaits : (awaitsFirstInviteS3 W).run (s.noted (.message s.bleUserAddr)) = (.ok true, t))
    (hflag : t.gotFirstInviteSessionKeyS3 = true) :
    Dispatch s (.bleWrite value) s.bleUserAddr (cstr value)
      { t with gotFirstInviteSessionKeyS3 := false }
  | sessionS3 {value : List UInt8} {t : Sys} (hbrings : Brings W s (.bleWrite value) s.bleUserAddr)
    (hawaits : (awaitsFirstInviteS3 W).run (s.noted (.message s.bleUserAddr)) = (.ok false, t))
    (hopen : Open s.bleUserAddr t) :
    Dispatch s (.bleWrite value) s.bleUserAddr (cstr value) t
  | invite {received : List UInt8} {t : Sys} (hbrings : Brings W s (.uart received) bleUser)
    (hstatus : (getRegistrationStatus W).run ((s.buffered received).noted (.message bleUser)) =
      (.ok registered, t)) (hflag : t.gotFirstInviteSessionKey = true) :
    Dispatch s (.uart received) bleUser (restorePlus (cstr received))
      { t with gotFirstInviteSessionKey := false }
  | session {received : List UInt8} {status : Int} {t : Sys}
    (hbrings : Brings W s (.uart received) bleUser)
    (hstatus : (getRegistrationStatus W).run ((s.buffered received).noted (.message bleUser)) =
      (.ok status, t)) (hunregistered : status ≠ registered) (hopen : Open bleUser t) :
    Dispatch s (.uart received) bleUser (restorePlus (cstr received)) t

variable (W) in
/-- At the event `e` in `s`, `checkCommand` is called for `cmd` of `a`, in
`s₁`. -/
def Begins (e : Event) (s : Sys) (a cmd : CStr) (s₁ : Sys) : Prop :=
  ∃ data t x, Dispatch W s e a data t ∧ t.user a = some x ∧ Began W a data x.aesCtx cmd t s₁

/-! ## The servers -/

section

variable (hC : Unconcerned C)
include hC

theorem setUserState_makes {state : UserState} {phone : CStr} :
    Makes C s (setUserState W a state phone) := hC.makes (setUserState_within trivial)

theorem plain_makes {o : Obs} (ho : o.ofCommand = false) (hd : ∀ a ctx, o ≠ .decrypt a ctx) :
    Makes C s (observe o) := .observe (hC o ho hd _)

theorem tcpAccept_makes {ip : Vector UInt8 4} : Makes C s (tcpAccept W ip) :=
  .bind (.modify rfl) fun _ _ _ => .bind (plain_makes hC rfl nofun) fun _ _ _ =>
    .bind (.modify rfl) fun _ _ _ => setUserState_makes hC

theorem tcpEnd_makes : Makes C s tcpEnd :=
  .get_bind <| .bind (.modify rfl) fun _ _ _ => .bind (plain_makes hC rfl nofun) fun _ _ _ =>
    .bind (plain_makes hC rfl nofun) fun _ _ _ => .modify rfl

theorem disconnectSock_makes : Makes C s (disconnectSock W) :=
  .get_bind <| .bind (setUserState_makes hC) fun _ _ _ =>
    .bind (hC.makes getUserAESCtx_within) fun _ _ _ =>
      .bind (plain_makes hC rfl nofun) fun _ _ _ => .modify rfl

theorem hangUp_makes : Makes C s (do disconnectSock W; tcpEnd) :=
  .bind (disconnectSock_makes hC) fun _ _ _ => tcpEnd_makes hC

theorem doRetransmit_makes
    (h : Open s.addrStr s → Admits W C s.addrStr (cstr received) (s.noted (.message s.addrStr))) :
    Makes C s (doRetransmit W received) := by
  refine .get_bind <| .bind (plain_makes hC rfl nofun) fun _ s₁ hnote => ?_
  cases hnote
  refine .bind (sessionResponse_makes hC fun x hx hstate => h ⟨x, hx, hstate⟩) fun r s₂ _ => ?_
  cases r with
  | none => exact hangUp_makes hC
  | some r =>
    exact .bind (hC.makes sealResponse_within) fun _ _ _ =>
      .bind (hC.makes deref_within) fun _ _ _ => .bind (plain_makes hC rfl nofun) fun _ _ _ =>
        .ite (fun _ => hangUp_makes hC) fun _ => .pure _

theorem gattsConnect_makes {bda : Vector UInt8 6} : Makes C s (gattsConnect W bda) :=
  .bind (.modify rfl) fun _ _ _ => .bind (.modify rfl) fun _ _ _ => .bind (.modify rfl) fun _ _ _ =>
    .bind (plain_makes hC rfl nofun) fun _ _ _ => .bind (.modify rfl) fun _ _ _ =>
      setUserState_makes hC

theorem gattsDisconnect_makes : Makes C s (gattsDisconnect W) :=
  .get_bind <| .bind (.modify rfl) fun _ _ _ => .bind (.modify rfl) fun _ _ _ =>
    .bind (.modify rfl) fun _ _ _ => .bind (setUserState_makes hC) fun _ _ _ =>
      plain_makes hC rfl nofun

theorem firstInviteResponse_makes {flag : Sys → Bool} {setFlag : Bool → Sys → Sys}
    (hset : ∀ b s, (setFlag b s).log = s.log)
    (h : flag s = true → Admits W C a data (setFlag false s)) :
    Makes C s (firstInviteResponse W flag setFlag a data) := by
  refine .get_bind <| .ite (fun hflag => .bind (.modify (hset _ _)) fun _ s₁ hmod => ?_) fun _ => ?_
  · cases hmod
    exact .bind (commandResponse_makes hC (h hflag)) fun _ _ _ => .pure _
  · refine .bind (retrieveSessionCredentials_makes hC) fun ok _ _ => .ite (fun _ => ?_)
      fun _ => .pure _
    exact .bind (hC.makes getUserAESCtx_within) fun _ _ _ =>
      .bind (.modify (hset _ _)) fun _ _ _ => .pure _

theorem replyBleS3_makes {r : Response} : Makes C s (replyBleS3 W a r) :=
  hC.makes (replyBleS3_within fun _ _ => hC _ rfl nofun)

theorem processNormalData_makes
    (hinvite : ∀ t, data ≠ lit "PNG" → s.wifiConnected = true →
      (awaitsFirstInviteS3 W).run (s.noted (.message s.bleUserAddr)) = (.ok true, t) →
      t.gotFirstInviteSessionKeyS3 = true →
      Admits W C s.bleUserAddr data { t with gotFirstInviteSessionKeyS3 := false })
    (hsession : ∀ t, data ≠ lit "PNG" → s.wifiConnected = true →
      (awaitsFirstInviteS3 W).run (s.noted (.message s.bleUserAddr)) = (.ok false, t) →
      Open s.bleUserAddr t → Admits W C s.bleUserAddr data t) :
    Makes C s (processNormalData W data) := by
  refine .get_bind <| .ite
    (fun _ => hC.makes (sendDataBleS3_within fun _ => hC _ rfl nofun)) fun hping =>
      .ite (fun hwifi => .bind (plain_makes hC rfl nofun) fun _ s₁ hnote => ?_) fun _ => .pure _
  cases hnote
  refine .bind (hC.makes (awaitsFirstInviteS3_within trivial)) fun awaits t hawaits => ?_
  -- the two places a command may come from, each with the state it is read in
  cases awaits with
  | true =>
    refine .bind (firstInviteResponse_makes hC (fun _ _ => rfl) (hinvite t hping hwifi hawaits))
      fun r _ _ => ?_
    cases r with
    | none => exact plain_makes hC rfl nofun
    | some r =>
      exact .bind (replyBleS3_makes hC) fun _ _ _ =>
        .bind (hC.makes (forceGetRegistrationStatus_within trivial)) fun _ _ _ => .pure _
  | false =>
    refine .bind (sessionResponse_makes hC fun x hx hstate =>
      hsession t hping hwifi hawaits ⟨x, hx, hstate⟩)
      fun r _ _ => ?_
    cases r with
    | none => exact plain_makes hC rfl nofun
    | some r => exact replyBleS3_makes hC

theorem handleATCmd_makes : Makes C s (handleATCmd W data) :=
  .ite (fun _ => .bind (plain_makes hC rfl nofun) fun _ _ _ =>
      .bind (setUserState_makes hC) fun _ _ _ => .bind (.modify rfl) fun _ _ _ => .modify rfl)
    fun _ => .ite (fun _ => .bind (setUserState_makes hC) fun _ _ _ =>
      .bind (.modify rfl) fun _ _ _ => .bind (.modify rfl) fun _ _ _ => plain_makes hC rfl nofun)
      fun _ => .pure _

theorem sendLOK_makes : Makes C s (sendLOK W) :=
  .bind (hC.makes faultIf_within) fun _ _ _ => .get_bind <|
    .bind (hC.makes sprintf_within) fun _ _ _ => .bind (.modify rfl) fun _ _ _ =>
      plain_makes hC rfl nofun

theorem bleResponse_makes
    (hinvite : ∀ t, (getRegistrationStatus W).run s = (.ok registered, t) →
      t.gotFirstInviteSessionKey = true →
      Admits W C bleUser data { t with gotFirstInviteSessionKey := false })
    (hsession : ∀ status t, (getRegistrationStatus W).run s = (.ok status, t) →
      status ≠ registered → Open bleUser t → Admits W C bleUser data t) :
    Makes C s (bleResponse W data) := by
  refine .bind (hC.makes (getRegistrationStatus_within trivial)) fun status t hstatus =>
    .ite (fun hreg => ?_) fun hunreg => ?_
  · rw [hreg] at hstatus
    exact firstInviteResponse_makes hC (fun _ _ => rfl) (hinvite t hstatus)
  · exact sessionResponse_makes hC fun x hx hstate =>
      hsession status t hstatus hunreg ⟨x, hx, hstate⟩

theorem handleBleMessage_makes
    (h : Makes C (s.noted (.message bleUser)) (bleResponse W data)) :
    Makes C s (handleBleMessage W data) := by
  refine .bind (plain_makes hC rfl nofun) fun _ s₁ hnote => ?_
  cases hnote
  refine .bind (hC.makes getUserAESCtx_within) fun ctx s₂ hctx => ?_
  obtain ⟨x, s₃, hx, hret⟩ := bind_ok.1 hctx
  obtain ⟨_, rfl⟩ := derefUser_ok.1 hx
  cases hret
  refine .bind h fun r _ _ => ?_
  cases r with
  | none => exact .bind (setUserState_makes hC) fun _ _ _ => plain_makes hC rfl nofun
  | some r =>
    exact .bind (.modify rfl) fun _ _ _ => .bind (hC.makes sealResponse_within) fun _ _ _ =>
      .bind (hC.makes deref_within) fun _ _ _ => .bind (hC.makes sprintf_within) fun _ _ _ =>
        plain_makes hC rfl nofun

theorem echoTask_makes
    (h : s.data ≠ lit "PNG" → s.wifiConnected = true ∧ received ≠ [] →
      ¬ (strncmpEq (lit "AT+") (cstr received) 3 ∨ strncmpEq (lit "+") (cstr received) 1) →
      Makes C ((s.buffered received).noted (.message bleUser))
        (bleResponse W (restorePlus (cstr received)))) :
    Makes C s (echoTask W received) := by
  refine .get_bind <| .ite (fun _ => sendLOK_makes hC) fun hping => .ite
    (fun hwifi => .ite (fun _ => .bind (.modify rfl) fun _ _ _ => handleATCmd_makes hC)
      fun hmessage => ?_) fun _ => .pure _
  refine .bind (.modify rfl) fun _ s₁ hmod => ?_
  cases hmod
  exact handleBleMessage_makes hC (h hping hwifi hmessage)

/-- **What an event is observed to do meets `C`** if what its command does,
if there is one, does. -/
theorem step_makes (h : ∀ a data t, Dispatch W s e a data t → Admits W C a data t) :
    Makes C s (step W e) := by
  refine .get_bind <| .ite (fun henabled => ?_) fun _ => .pure _
  cases e with
  | tcpAccept ip => exact tcpAccept_makes hC
  | tcpRecv received =>
    exact doRetransmit_makes hC fun hopen => h _ _ _ (.tcp henabled hopen)
  | tcpClose => exact tcpEnd_makes hC
  | bleConnect bda => exact gattsConnect_makes hC
  | bleDisconnect => exact gattsDisconnect_makes hC
  | bleWrite value =>
    exact processNormalData_makes hC
      (fun t hping hwifi hawaits hflag =>
        h _ _ _ (.inviteS3 (.s3 henabled hping hwifi) hawaits hflag))
      fun t hping hwifi hawaits hopen =>
        h _ _ _ (.sessionS3 (.s3 henabled hping hwifi) hawaits hopen)
  | uart received =>
    refine echoTask_makes hC fun hping hwifi hmessage => bleResponse_makes hC ?_ ?_
    · intro t hstatus hflag
      exact h _ _ _ (.invite (.uart henabled hping hwifi hmessage) hstatus hflag)
    · intro status t hstatus hunreg hopen
      exact h _ _ _ (.session (.uart henabled hping hwifi hmessage) hstatus hunreg hopen)
  | serverStatus status => exact .modify rfl
  | initRsaKey => exact hC.makes (initRsaKey_within trivial)
  | setWifiConnected connected => exact .modify rfl
  | serverOnline => exact .modify rfl

end

/-! ## TCP -/

/-- What the accept loop has done when it calls `set_user_state`. -/
def Sys.accepted (ip : Vector UInt8 4) (s : Sys) : Sys :=
  { s with
    addrStr := inetNtoa ip
    serving := true
    deepSleepArmed := false
    log := .connect (inetNtoa ip) :: s.log }

theorem run_tcpAccept (ip : Vector UInt8 4) : (tcpAccept W ip).run s =
    (setUserState W (inetNtoa ip) .connecting []).run (s.accepted ip) := rfl

variable (W) in
/-- What the server does to end the connection itself. -/
def hangUp : M Unit := do
  disconnectSock W
  tcpEnd

/-- What `hangUp` makes of the state, from where the session is closed. -/
def Sys.hungUp (s : Sys) : Sys :=
  { s with
    deepSleepArmed := true
    serving := false
    log := .disconnect s.addrStr :: .close :: .close :: s.log }

/-- **The server ends a connection** by closing the session first. -/
theorem hangUp_ok {s' : Sys} (h : (hangUp W).run s = (.ok (), s')) :
    ∃ t, (setUserState W s.addrStr .disconnected []).run s = (.ok (), t) ∧ s' = t.hungUp := by
  obtain ⟨_, u, hclose, hend⟩ := bind_ok.1 h
  rw [disconnectSock, run_get_bind] at hclose
  obtain ⟨_, t, hstate, hfree⟩ := bind_ok.1 hclose
  obtain ⟨_, v, hctx, hcloses⟩ := bind_ok.1 hfree
  obtain ⟨x, w, hx, hret⟩ := bind_ok.1 hctx
  obtain ⟨_, rfl⟩ := derefUser_ok.1 hx
  cases hret
  cases hcloses
  cases hend
  exact ⟨_, hstate, rfl⟩

/-- **A message of TCP** is answered, or the connection ends: without an
answer, or behind a `NAK`. -/
theorem doRetransmit_sends {s' : Sys} (h : (doRetransmit W received).run s = (.ok (), s')) :
    ∃ r u, (sessionResponse W s.addrStr (cstr received)).run (s.noted (.message s.addrStr)) =
        (.ok r, u) ∧
      ((r = none ∧ (hangUp W).run u = (.ok (), s')) ∨
        ∃ response text sent v, r = some response ∧ response.response = some text ∧
          (sealResponse W response.aes response.response).run u = (.ok sent, v) ∧
          ((text ≠ nakMessage ∧ s' = v.noted (.reply s.addrStr response.aes text sent)) ∨
            (text = nakMessage ∧
              (hangUp W).run (v.noted (.reply s.addrStr response.aes text sent)) =
                (.ok (), s')))) := by
  rw [doRetransmit, run_get_bind, run_observe_bind] at h
  obtain ⟨r, u, hresponse, hanswers⟩ := bind_ok.1 h
  refine ⟨r, u, hresponse, ?_⟩
  cases r with
  | none => exact .inl ⟨rfl, hanswers⟩
  | some response =>
    obtain ⟨sent, u₁, hseal, hreads⟩ := bind_ok.1 hanswers
    obtain ⟨text, u₂, hderef, hreplies⟩ := bind_ok.1 hreads
    obtain ⟨htext, rfl⟩ := deref_ok.1 hderef
    rw [run_observe_bind] at hreplies
    refine .inr ⟨response, text, sent, u₂, rfl, htext, hseal, ?_⟩
    -- the reply is sent either way, and a `NAK` is the last one
    by_cases hnak : text = nakMessage
    · rw [if_pos hnak] at hreplies
      exact .inr ⟨hnak, hreplies⟩
    · rw [if_neg hnak] at hreplies
      cases hreplies
      exact .inl ⟨hnak, rfl⟩

/-- To seal a response is quiet. -/
theorem doRetransmit_ok {s' : Sys} (h : (doRetransmit W received).run s = (.ok (), s')) :
    ∃ r u, (sessionResponse W s.addrStr (cstr received)).run (s.noted (.message s.addrStr)) =
        (.ok r, u) ∧
      ((r = none ∧ (hangUp W).run u = (.ok (), s')) ∨
        ∃ response text sent v, r = some response ∧ response.response = some text ∧
          quiet.Rel u v ∧
          ((text ≠ nakMessage ∧ s' = v.noted (.reply s.addrStr response.aes text sent)) ∨
            (text = nakMessage ∧
              (hangUp W).run (v.noted (.reply s.addrStr response.aes text sent)) =
                (.ok (), s')))) := by
  obtain ⟨r, u, hresponse, hends⟩ := doRetransmit_sends h
  refine ⟨r, u, hresponse, hends.imp id ?_⟩
  rintro ⟨response, text, sent, v, hr, htext, hseal, hsends⟩
  exact ⟨response, text, sent, v, hr, htext, sealResponse_within.of_ok hseal, hsends⟩

/-! ## A value written to the S3 -/

/-- What the S3 does around a message of `a`: it asks for the status, and
sends what there is to send. -/
def replying (a : CStr) : Footprint :=
  ⟨fun _ => False, False, False, True, False, False,
    fun o => o.isConnection = false ∧ o ≠ .message a⟩

theorem disconnectBleS3_replying : Within (replying a) disconnectBleS3 :=
  observe_within (.inr ⟨rfl, nofun⟩)

theorem sendDataBleS3_replying {n : ℕ} {text : CStr} :
    Within (replying a) (sendDataBleS3 n text .bleText) :=
  sendDataBleS3_within fun _ => ⟨rfl, nofun⟩

theorem replyBleS3_replying {r : Response} : Within (replying a) (replyBleS3 W a r) :=
  replyBleS3_within fun _ _ => ⟨rfl, nofun⟩

/-- **What the test for first-invite mode does**: it asks the cache, and
where that says yes the server. -/
theorem awaitsFirstInviteS3_ok {awaits : Bool}
    (h : (awaitsFirstInviteS3 W).run s = (.ok awaits, t)) :
    (∃ s₁ status, (getRegistrationStatus W).run s = (.ok registered, s₁) ∧
        (getRegistrationStatus W).run { s₁ with registrationStatus := unknownStatus } =
          (.ok status, t) ∧ awaits = (status == registered)) ∨
      ∃ status, status ≠ registered ∧ (getRegistrationStatus W).run s = (.ok status, t) ∧
        awaits = false := by
  obtain ⟨status, s₁, hstatus, hrest⟩ := bind_ok.1 h
  by_cases hreg : status = registered
  · rw [if_pos hreg] at hrest
    obtain ⟨forced, s₂, hforce, hret⟩ := bind_ok.1 hrest
    cases hret
    obtain ⟨_, s₃, hempty, hasked⟩ := bind_ok.1 hforce
    cases hempty
    exact .inl ⟨s₁, forced, hreg ▸ hstatus, hasked, rfl⟩
  · rw [if_neg hreg] at hrest
    cases hrest
    exact .inr ⟨status, hreg, hstatus, rfl⟩

/-- **A value written to the data characteristic** is a message, or next to
nothing. -/
theorem processNormalData_ok {s' : Sys} (h : (processNormalData W data).run s = (.ok (), s')) :
    (replying s.bleUserAddr).Rel s s' ∨
      ∃ awaits t r u,
        (awaitsFirstInviteS3 W).run (s.noted (.message s.bleUserAddr)) = (.ok awaits, t) ∧
        (if awaits = true then firstInviteS3 W s.bleUserAddr data
          else sessionResponse W s.bleUserAddr data).run t = (.ok r, u) ∧
        (replying s.bleUserAddr).Rel u s' := by
  rw [processNormalData, run_get_bind] at h
  -- a ping is answered at once, and without Wi-Fi nothing is
  by_cases hping : data = lit "PNG"
  · rw [if_pos hping] at h
    exact .inl (sendDataBleS3_replying.of_ok h)
  rw [if_neg hping] at h
  by_cases hwifi : s.wifiConnected
  · rw [if_pos hwifi, run_observe_bind] at h
    obtain ⟨awaits, t, hawaits, hrest⟩ := bind_ok.1 h
    refine .inr ⟨awaits, t, ?_⟩
    cases awaits with
    | true =>
      obtain ⟨r, u, hinvite, hreplies⟩ := bind_ok.1 hrest
      refine ⟨r, u, hawaits, hinvite, ?_⟩
      cases r with
      | none => exact disconnectBleS3_replying.of_ok hreplies
      | some r =>
        obtain ⟨_, v, hreply, hforces⟩ := bind_ok.1 hreplies
        obtain ⟨_, w, hforce, hret⟩ := bind_ok.1 hforces
        cases hret
        exact (replyBleS3_replying.of_ok hreply).trans
          ((forceGetRegistrationStatus_within trivial).of_ok hforce)
    | false =>
      obtain ⟨r, u, hsession, hreplies⟩ := bind_ok.1 hrest
      refine ⟨r, u, hawaits, hsession, ?_⟩
      cases r with
      | none => exact disconnectBleS3_replying.of_ok hreplies
      | some r => exact replyBleS3_replying.of_ok hreplies
  · rw [if_neg hwifi] at h
    cases h
    exact .inl (Footprint.Rel.refl _ s)

/-! ## A turn of `echo_task` -/

/-- What a connection of the UART makes of the state, from where its
session is opened. -/
def Sys.uartConnected (s : Sys) : Sys :=
  { s with deepSleepArmed := false, currentBLEAddr := bleUser }

/-- What its end makes of the state, from where its session is closed. -/
def Sys.uartDisconnected (s : Sys) : Sys :=
  { s with currentBLEAddr := [], deepSleepArmed := true, log := .disconnect bleUser :: s.log }

/-- **A line of the BLE module** begins a connection, ends one, or is
nothing to the lock. -/
theorem handleATCmd_ok {s' : Sys} (h : (handleATCmd W data).run s = (.ok (), s')) :
    (strncmpEq (lit "+CONNECTED") data 10 ∧
        ∃ t, (setUserState W bleUser .connecting []).run (s.noted (.connect bleUser)) =
          (.ok (), t) ∧ s' = t.uartConnected) ∨
      ((¬ strncmpEq (lit "+CONNECTED") data 10 ∧ strncmpEq (lit "+DISCONNECT") data 13) ∧
        ∃ t, (setUserState W bleUser .disconnected []).run s = (.ok (), t) ∧
          s' = t.uartDisconnected) ∨ s' = s := by
  rw [handleATCmd] at h
  by_cases hconnected : strncmpEq (lit "+CONNECTED") data 10
  · rw [if_pos hconnected, run_observe_bind] at h
    obtain ⟨_, t, hset, hrest⟩ := bind_ok.1 h
    cases hrest
    exact .inl ⟨hconnected, t, hset, rfl⟩
  · rw [if_neg hconnected] at h
    by_cases hdisconnect : strncmpEq (lit "+DISCONNECT") data 13
    · rw [if_pos hdisconnect] at h
      obtain ⟨_, t, hset, hrest⟩ := bind_ok.1 h
      cases hrest
      exact .inr (.inl ⟨⟨hconnected, hdisconnect⟩, t, hset, rfl⟩)
    · rw [if_neg hdisconnect] at h
      cases h
      exact .inr (.inr rfl)

/-- A ping is answered with the literal as the answers before have left
it. -/
theorem sendLOK_ok {s' : Sys} (h : (sendLOK W).run s = (.ok (), s')) :
    W.literalsWritable ∧
      s' = { s with
        lokLiteral := s.lokLiteral ++ [4]
        log := .uartText (s.lokLiteral ++ [4]) :: (overruns 4 (s.lokLiteral ++ [4]) ++ s.log) } := by
  obtain ⟨_, s₁, hguard, hsends⟩ := bind_ok.1 h
  obtain ⟨hwritable, rfl⟩ := faultIf_ok.1 hguard
  rw [run_get_bind, run_bind_ok (run_sprintf ..)] at hsends
  cases hsends
  exact ⟨not_not.1 hwritable, rfl⟩

/-- **A turn of the loop of `echo_task`** answers a ping, waits, or takes a
line of the BLE module or a message. -/
theorem echoTask_ok {s' : Sys} (h : (echoTask W received).run s = (.ok (), s')) :
    (sendLOK W).run s = (.ok (), s') ∨ s' = s ∨
      ((s.data ≠ lit "PNG" ∧ s.wifiConnected = true ∧ received ≠ []) ∧
        (handleATCmd W (cstr received)).run { s with data := cstr received } = (.ok (), s')) ∨
      (((Event.uart received).enabled W s = true → Brings W s (.uart received) bleUser) ∧
        (handleBleMessage W (restorePlus (cstr received))).run (s.buffered received) =
          (.ok (), s')) := by
  rw [echoTask, run_get_bind] at h
  by_cases hping : s.data = lit "PNG"
  · rw [if_pos hping] at h
    exact .inl h
  rw [if_neg hping] at h
  by_cases hwifi : s.wifiConnected ∧ received ≠ []
  · rw [if_pos hwifi] at h
    dsimp only at h
    by_cases hline : strncmpEq (lit "AT+") (cstr received) 3 ∨ strncmpEq (lit "+") (cstr received) 1
    · rw [if_pos hline] at h
      exact .inr (.inr (.inl ⟨⟨hping, hwifi⟩, h⟩))
    · rw [if_neg hline] at h
      exact .inr (.inr (.inr ⟨fun henabled => .uart henabled hping hwifi hline, h⟩))
  · rw [if_neg hwifi] at h
    cases h
    exact .inr (.inl rfl)

/-- **A message of the UART** is answered, or the server asks the module to
end the connection. -/
theorem handleBleMessage_ok {s' : Sys} (h : (handleBleMessage W data).run s = (.ok (), s')) :
    ∃ status t r u,
      (getRegistrationStatus W).run (s.noted (.message bleUser)) = (.ok status, t) ∧
      (if status = registered then firstInvite W bleUser data
        else sessionResponse W bleUser data).run t = (.ok r, u) ∧
      ((r = none ∧ ∃ v, (setUserState W bleUser .disconnected []).run u = (.ok (), v) ∧
          s' = v.noted (.uartText (lit "AT+DISC\r\n"))) ∨
        ∃ response, r = some response ∧ (replying bleUser).Rel
          { u with data := if response.decrypted then strtokResidue data else data } s') := by
  obtain ⟨_, s₁, hnote, hasks⟩ := bind_ok.1 h
  cases hnote
  obtain ⟨ctx, s₂, hctx, hresponds⟩ := bind_ok.1 hasks
  obtain ⟨x, s₃, hx, hret⟩ := bind_ok.1 hctx
  obtain ⟨_, rfl⟩ := derefUser_ok.1 hx
  cases hret
  obtain ⟨r, u, hresponse, hreplies⟩ := bind_ok.1 hresponds
  obtain ⟨status, t, hstatus, hinvite⟩ := bind_ok.1 hresponse
  refine ⟨status, t, r, u, hstatus, hinvite, ?_⟩
  cases r with
  | none =>
    obtain ⟨_, v, hset, hsends⟩ := bind_ok.1 hreplies
    cases hsends
    exact .inl ⟨rfl, v, hset, rfl⟩
  | some response =>
    obtain ⟨_, v, hbuffer, hseals⟩ := bind_ok.1 hreplies
    cases hbuffer
    have hreply : Within (replying bleUser) (do
        let responseEnc ← sealResponse W response.aes response.response
        let text ← deref response.response
        sendData responseEnc.length responseEnc (.reply bleUser response.aes text)) :=
      .bind sealResponse_within fun _ => .bind deref_within fun _ => .bind sprintf_within fun _ =>
        observe_within (.inr ⟨rfl, nofun⟩)
    exact .inr ⟨response, rfl, hreply.of_ok hseals⟩

end SmartLock
