import SmartLock.Handler.Bearable
import SmartLock.Handler.Door
import SmartLock.System.Dialogue
import SmartLock.System.OneCommand
import SmartLock.System.Disconnect

/-!
# What brings the lock down

A fault ends the program, and with it the service of every client. Here is
for each event, and from there for each run, whether it does: of a client
that has no credentials, and of one that has, and of everything else that
happens to the lock. That the flash driver and the server answer is assumed
throughout; what they answer where they do is the subject of other modules.
-/

namespace SmartLock

open Prog

variable {W : World} {a data : CStr} {s t s' : Sys} {e : Event} {received value : List UInt8}

/-! ## Answers -/

/-- A program that responds, and what is done with its response. -/
theorem answering_returns_iff {m : M (Option Response)} {k : Option Response → M Unit}
    (hnone : ∀ t, m.run s = (.ok none, t) → Returns (k none) t)
    (hsome : ∀ r t, m.run s = (.ok (some r), t) →
      (Returns (k (some r)) t ↔ r.response ≠ none)) :
    Returns (m >>= k) s ↔ Answers m s := by
  rw [Returns.bind_iff]
  constructor
  · rintro ⟨r, t, hm, hk⟩
    refine ⟨r, t, hm, ?_⟩
    rintro r rfl
    exact (hsome r t hm).1 hk
  · rintro ⟨_ | r, t, hm, hr⟩
    · exact ⟨none, t, hm, hnone t hm⟩
    · exact ⟨some r, t, hm, (hsome r t hm).2 (hr r rfl)⟩

/-- What goes on where a response was sealed. -/
theorem returns_of_rest {α β : Type} {m : M α} {f : α → M β} (hf : ∀ x t, Returns (f x) t) :
    Returns (m >>= f) s ↔ Returns m s := by
  rw [Returns.bind_iff]
  constructor
  · rintro ⟨x, t, hm, -⟩
    exact ⟨x, t, hm⟩
  · rintro ⟨x, t, hm⟩
    exact ⟨x, t, hm, hf x t⟩

theorem user_isSome_of_rel {F : Footprint} (h : F.Rel s t) (hx : (s.user a).isSome) :
    (t.user a).isSome := h.kept a hx

/-! ## Messages -/

/-- A message that is taken: of whom, what it reads, whether the first
invite is awaited, and then the flag of that mode, and the states in which
it would be taken for credentials and for a command. -/
structure Incoming where
  addr : CStr
  data : CStr
  awaits : Bool
  flag : Bool
  asCredentials : Sys
  asCommand : Sys

variable (W) in
/-- The message is borne as what it is taken for: which of the two is told
by the flag where the first invite is awaited, and by the session
elsewhere. -/
def Incoming.Borne (m : Incoming) : Prop :=
  if m.awaits = true then (m.flag = false → Presentable W m.data m.asCredentials.moment) ∧
    (m.flag = true → Bearable W m.addr m.data m.asCommand)
  else (Unopened m.addr m.asCredentials → Presentable W m.data m.asCredentials.moment) ∧
    (Open m.addr m.asCredentials → Bearable W m.addr m.data m.asCredentials)

/-- A value written to the S3. -/
def Incoming.s3 (data : CStr) (awaits : Bool) (t : Sys) : Incoming where
  addr := t.bleUserAddr
  data := data
  awaits := awaits
  flag := t.gotFirstInviteSessionKeyS3
  asCredentials := t
  asCommand := { t with gotFirstInviteSessionKeyS3 := false }

/-- A line of the UART. -/
def Incoming.uart (data : CStr) (awaits : Bool) (t : Sys) : Incoming where
  addr := bleUser
  data := data
  awaits := awaits
  flag := t.gotFirstInviteSessionKey
  asCredentials := t
  asCommand := { t with gotFirstInviteSessionKey := false }

/-- Bytes of TCP, where no first invite is awaited. -/
def Incoming.tcp (data : CStr) (t : Sys) : Incoming where
  addr := t.addrStr
  data := data
  awaits := false
  flag := false
  asCredentials := t
  asCommand := t

/-! ## TCP -/

theorem hangUp_returns (hx : (s.user s.addrStr).isSome) :
    Returns (do disconnectSock W; tcpEnd) s := by
  obtain ⟨x, hrecord⟩ := Option.isSome_iff_exists.1 hx
  obtain ⟨s₁, hset⟩ := setUserState_returns_of_some (W := W) hrecord .disconnected [] (by decide)
  obtain ⟨y, hy, -⟩ := (setUserState_ok hset).self
  have hctx : (getUserAESCtx s.addrStr).run s₁ = (.ok y.aesCtx, s₁) :=
    bind_ok.2 ⟨_, s₁, derefUser_ok.2 ⟨hy, rfl⟩, rfl⟩
  have hclose : Returns (disconnectSock W) s :=
    .step rfl (.step hset (.step hctx ⟨_, _, rfl⟩))
  exact .bind hclose fun _ _ _ => ⟨_, _, rfl⟩

theorem doRetransmit_returns_iff (hW : Answering W) (hinvites : W.BriefInvites)
    (hs : s.IntDoor) (hx : (s.user s.addrStr).isSome) :
    Returns (doRetransmit W received) s ↔
      (Incoming.tcp (cstr received) (s.noted (.message s.addrStr))).Borne W := by
  have hsession := sessionResponse_answers_iff (W := W) (cstr received)
    (s := s.noted (.message s.addrStr)) hW hx
  have hnoted : (s.noted (.message s.addrStr)).IntDoor := hs.of_eq rfl
  have hrel {r : Option Response} {t : Sys} (h : (sessionResponse W s.addrStr (cstr received)).run
      (s.noted (.message s.addrStr)) = (.ok r, t)) :
      t.addrStr = s.addrStr ∧ (t.user s.addrStr).isSome :=
    have hrel := (sessionResponse_within (talking_serves _)).of_ok h
    ⟨Sys.addrStr_of_servers hrel.servers, user_isSome_of_rel hrel hx⟩
  rw [doRetransmit, Returns.get_bind_iff, observe, Returns.modify_bind_iff]
  refine Iff.trans (answering_returns_iff (fun t hm => ?_) fun r t hm => ?_) hsession
  · obtain ⟨haddr, hx⟩ := hrel hm
    exact hangUp_returns (by rwa [haddr])
  · obtain ⟨haddr, hx⟩ := hrel hm
    refine sealing_returns_iff (fun text htext => sessionResponse_brief hW hinvites hnoted r t text
      hm htext) fun sent text u hquiet => .step rfl (.ite (fun _ => ?_) fun _ => .pure _)
    have haddr' : u.addrStr = s.addrStr := (Sys.addrStr_of_servers hquiet.servers).trans haddr
    have hx' : (u.user s.addrStr).isSome := user_isSome_of_rel hquiet hx
    exact hangUp_returns (haddr'.symm ▸ hx')

/-! ## The BLE server of the S3 -/

theorem sendDataBleS3_returns {n : ℕ} {sent : CStr → Obs} : Returns (sendDataBleS3 n data sent) s :=
  .step rfl (.ite (fun _ => .bind sprintf_returns fun _ _ _ => ⟨_, _, rfl⟩) fun _ => .pure _)

theorem replyBleS3_returns_iff {r : Response}
    (hbrief : ∀ text, r.response = some text → Brief text) :
    Returns (replyBleS3 W a r) s ↔ r.response ≠ none :=
  sealing_returns_iff hbrief fun _ _ _ _ => sendDataBleS3_returns

theorem forceGetRegistrationStatus_returns : Returns (forceGetRegistrationStatus W) s :=
  .step rfl getRegistrationStatus_returns

theorem awaitsFirstInviteS3_returns : Returns (awaitsFirstInviteS3 W) s :=
  .bind getRegistrationStatus_returns fun _ _ _ =>
    .ite (fun _ => .bind forceGetRegistrationStatus_returns fun _ _ _ => .pure _) fun _ => .pure _

theorem processNormalData_returns_iff (hW : Answering W) (hinvites : W.BriefInvites)
    (hs : s.IntDoor) (hx : (s.user s.bleUserAddr).isSome) (hping : data ≠ lit "PNG")
    (hwifi : s.wifiConnected = true) {awaits : Bool}
    (hawaits : (awaitsFirstInviteS3 W).run (s.noted (.message s.bleUserAddr)) = (.ok awaits, t)) :
    Returns (processNormalData W data) s ↔ (Incoming.s3 data awaits t).Borne W := by
  have hrel : elsewhere.Rel (s.noted (.message s.bleUserAddr)) t :=
    (awaitsFirstInviteS3_within trivial).of_ok hawaits
  have hdoor : t.IntDoor := intDoor_of_rel id hrel (hs.of_eq rfl)
  have haddr : t.bleUserAddr = s.bleUserAddr := Sys.bleUserAddr_of_servers hrel.servers
  have hx : (t.user t.bleUserAddr).isSome := haddr ▸ user_isSome_of_rel hrel hx
  have hnone (u : Sys) : Returns disconnectBleS3 u := ⟨_, _, rfl⟩
  rw [processNormalData, Returns.get_bind_iff, if_neg hping, if_pos hwifi, observe,
    Returns.modify_bind_iff, Returns.step_iff hawaits, ← haddr, Incoming.Borne, Incoming.s3]
  cases awaits with
  | true =>
    rw [if_pos rfl, if_pos rfl]
    refine Iff.trans (answering_returns_iff (fun u _ => hnone u) fun r u hm => ?_)
      (firstInviteResponse_answers_iff hW hx)
    refine Iff.trans (returns_of_rest fun _ _ => .bind forceGetRegistrationStatus_returns
      fun _ _ _ => .pure _) (replyBleS3_returns_iff fun text htext => ?_)
    exact firstInviteResponse_brief hW hinvites hdoor rfl r u text hm htext
  | false =>
    rw [if_neg Bool.false_ne_true, if_neg Bool.false_ne_true]
    refine Iff.trans (answering_returns_iff (fun u _ => hnone u) fun r u hm =>
      replyBleS3_returns_iff fun text htext => ?_) (sessionResponse_answers_iff _ hW hx)
    exact sessionResponse_brief hW hinvites hdoor r u text hm htext

/-! ## The BLE server of the S2 -/

theorem setUserState_returns_of_short (state : UserState) (ha : a.length < 45) :
    Returns (setUserState W a state []) s := by
  obtain ⟨s', h⟩ := setUserState_returns (W := W) (s := s) state [] ha (by decide)
  exact ⟨(), s', h⟩

theorem bleUser_short : bleUser.length < 45 := by decide

theorem disconnectBle_returns : Returns (disconnectBle W) s :=
  .bind (setUserState_returns_of_short _ bleUser_short) fun _ _ _ => ⟨_, _, rfl⟩

theorem handleATCmd_returns : Returns (handleATCmd W data) s :=
  .ite (fun _ => .step rfl (.bind (setUserState_returns_of_short _ bleUser_short)
      fun _ _ _ => ⟨_, _, rfl⟩))
    fun _ => .ite (fun _ => .bind (setUserState_returns_of_short _ bleUser_short)
      fun _ _ _ => ⟨_, _, rfl⟩) fun _ => .pure _

theorem handleBleMessage_returns_iff (hW : Answering W) (hinvites : W.BriefInvites)
    (hs : s.IntDoor) {status : Int}
    (hstatus : (getRegistrationStatus W).run (s.noted (.message bleUser)) = (.ok status, t)) :
    Returns (handleBleMessage W data) s ↔ (s.user bleUser).isSome ∧
      (Incoming.uart data (status == registered) t).Borne W := by
  have hrel : elsewhere.Rel (s.noted (.message bleUser)) t :=
    (getRegistrationStatus_within trivial).of_ok hstatus
  have hdoor : t.IntDoor := intDoor_of_rel id hrel (hs.of_eq rfl)
  rw [handleBleMessage, observe, Returns.modify_bind_iff]
  cases hrecord : s.user bleUser with
  | none =>
    refine iff_of_false (fun h => ?_) fun h => Bool.noConfusion h.1
    obtain ⟨ctx, u, hctx, -⟩ := Returns.bind_iff.1 h
    obtain ⟨x, v, hx, -⟩ := bind_ok.1 hctx
    obtain ⟨hx, -⟩ := derefUser_ok.1 hx
    rw [user_noted, hrecord] at hx
    cases hx
  | some x =>
    have hctx : (getUserAESCtx bleUser).run (s.noted (.message bleUser)) =
        (.ok x.aesCtx, s.noted (.message bleUser)) :=
      bind_ok.2 ⟨x, _, derefUser_ok.2 ⟨hrecord, rfl⟩, rfl⟩
    have hx : (t.user bleUser).isSome :=
      user_isSome_of_rel hrel (Option.isSome_iff_exists.2 ⟨x, hrecord⟩)
    have hreply {r : Response} {u : Sys} (hbrief : ∀ text, r.response = some text → Brief text) :
        Returns (do
          setData (if r.decrypted then strtokResidue data else data)
          let responseEnc ← sealResponse W r.aes r.response
          let text ← deref r.response
          sendData responseEnc.length responseEnc (.reply bleUser r.aes text)) u ↔
          r.response ≠ none := by
      rw [setData, Returns.modify_bind_iff]
      exact sealing_returns_iff hbrief fun _ _ _ _ => .bind sprintf_returns fun _ _ _ => ⟨_, _, rfl⟩
    have hbrief (r : Response) (u : Sys)
        (hm : (bleResponse W data).run (s.noted (.message bleUser)) = (.ok (some r), u))
        (text : CStr) (htext : r.response = some text) : Brief text := by
      rw [bleResponse, run_bind_ok hstatus] at hm
      by_cases hreg : status = registered
      · rw [if_pos hreg] at hm
        exact firstInviteResponse_brief hW hinvites hdoor rfl r u text hm htext
      · rw [if_neg hreg] at hm
        exact sessionResponse_brief hW hinvites hdoor r u text hm htext
    rw [Returns.step_iff hctx, Incoming.Borne, Incoming.uart]
    refine Iff.trans (answering_returns_iff (fun _ _ => disconnectBle_returns) fun r u hm =>
      hreply (hbrief r u hm)) (Iff.trans ?_ (and_iff_right rfl).symm)
    by_cases hreg : status = registered
    · have hrun : (bleResponse W data).run (s.noted (.message bleUser)) =
          (firstInvite W bleUser data).run t := by
        rw [bleResponse, run_bind_ok hstatus, if_pos hreg]
      rw [if_pos (beq_iff_eq.2 hreg)]
      exact Iff.trans (answers_congr hrun) (firstInviteResponse_answers_iff hW hx)
    · have hrun : (bleResponse W data).run (s.noted (.message bleUser)) =
          (sessionResponse W bleUser data).run t := by
        rw [bleResponse, run_bind_ok hstatus, if_neg hreg]
      rw [if_neg (mt beq_iff_eq.1 hreg)]
      exact Iff.trans (answers_congr hrun) (sessionResponse_answers_iff _ hW hx)

/-! ## What an event has to be like -/

variable (W) in
/-- At the event `e` in `s` the message is taken. -/
inductive Takes (s : Sys) : Event → Incoming → Prop
  | tcp {received : List UInt8} (henabled : (Event.tcpRecv received).enabled W s = true) :
    Takes s (.tcpRecv received) (.tcp (cstr received) (s.noted (.message s.addrStr)))
  | s3 {value : List UInt8} {awaits : Bool} {t : Sys}
    (hbrings : Brings W s (.bleWrite value) s.bleUserAddr)
    (hawaits : (awaitsFirstInviteS3 W).run (s.noted (.message s.bleUserAddr)) = (.ok awaits, t)) :
    Takes s (.bleWrite value) (.s3 (cstr value) awaits t)
  | uart {received : List UInt8} {status : Int} {t : Sys}
    (hbrings : Brings W s (.uart received) bleUser)
    (hstatus : (getRegistrationStatus W).run ((s.buffered received).noted (.message bleUser)) =
      (.ok status, t)) :
    Takes s (.uart received) (.uart (restorePlus (cstr received)) (status == registered) t)

variable (W) in
/-- The event does not end the program. -/
structure Survivable (e : Event) (s : Sys) : Prop where
  /-- A ping of the UART is answered by appending to a literal. -/
  ping : ∀ received, e = .uart received → e.enabled W s = true → s.data = lit "PNG" →
    W.literalsWritable = true
  /-- Who sends a line over the UART has a record. -/
  known : ∀ received, e = .uart received → Brings W s e bleUser → (s.user bleUser).isSome
  message : ∀ m, Takes W s e m → m.Borne W

theorem Takes.enabled {m : Incoming} (h : Takes W s e m) : e.enabled W s = true := by
  cases h with
  | tcp henabled => exact henabled
  | s3 hbrings _ => exact hbrings.enabled
  | uart hbrings _ => exact hbrings.enabled

theorem survivable_of_disabled (h : ¬ e.enabled W s = true) : Survivable W e s where
  ping _ _ henabled := absurd henabled h
  known _ _ hbrings := absurd hbrings.enabled h
  message _ htakes := absurd htakes.enabled h

/-- An event that brings no message, and is not a ping. -/
theorem survivable_of_mute (huart : ∀ received, e ≠ .uart received)
    (hmute : ∀ m, ¬ Takes W s e m) : Survivable W e s where
  ping received he := absurd he (huart received)
  known received he := absurd he (huart received)
  message m htakes := absurd htakes (hmute m)

/-! ## Which events end the program -/

theorem tcpRecv_returns_iff (hW : Answering W) (hinvites : W.BriefInvites) (hs : s.IntDoor)
    (hx : (s.user s.addrStr).isSome) (henabled : (Event.tcpRecv received).enabled W s = true) :
    Returns (doRetransmit W received) s ↔ Survivable W (.tcpRecv received) s := by
  rw [doRetransmit_returns_iff hW hinvites hs hx]
  constructor
  · intro h
    refine ⟨fun _ he => Event.noConfusion he, fun _ he => Event.noConfusion he, ?_⟩
    rintro m ⟨_⟩
    exact h
  · intro h
    exact h.message _ (.tcp henabled)

theorem bleWrite_returns_iff (hW : Answering W) (hinvites : W.BriefInvites) (hs : s.IntDoor)
    (hx : (s.user s.bleUserAddr).isSome) (henabled : (Event.bleWrite value).enabled W s = true) :
    Returns (processNormalData W (cstr value)) s ↔ Survivable W (.bleWrite value) s := by
  have hno {P : Prop} {received : List UInt8} (he : Event.bleWrite value = .uart received) : P :=
    Event.noConfusion he
  -- what brings no message is answered at once, or not at all
  by_cases hbrings : Brings W s (.bleWrite value) s.bleUserAddr
  · obtain ⟨awaits, t, hawaits⟩ := awaitsFirstInviteS3_returns (W := W)
      (s := s.noted (.message s.bleUserAddr))
    have hcases := hbrings
    rcases hcases with ⟨-, hping, hwifi⟩
    rw [processNormalData_returns_iff hW hinvites hs hx hping hwifi hawaits]
    constructor
    · intro h
      refine ⟨fun _ he => hno he, fun _ he => hno he, ?_⟩
      rintro m htakes
      cases htakes with
      | s3 _ hawaits' =>
        rw [hawaits] at hawaits'
        cases hawaits'
        exact h
    · intro h
      exact h.message _ (.s3 hbrings hawaits)
  · refine iff_of_true (.step rfl (.ite (fun _ => sendDataBleS3_returns) fun hping =>
      .ite (fun hwifi => absurd (.s3 henabled hping hwifi) hbrings) fun _ => .pure _))
      (survivable_of_mute (fun _ he => hno he) ?_)
    rintro m htakes
    cases htakes with
    | s3 hbrings' _ => exact hbrings hbrings'

theorem sendLOK_returns_iff : Returns (sendLOK W) s ↔ W.literalsWritable = true := by
  constructor
  · rintro ⟨_, s', h⟩
    exact (sendLOK_ok h).1
  · intro h
    exact .step (run_faultIf_of_not (not_not.2 h) _ _) (.step rfl (.bind sprintf_returns
      fun _ _ _ => ⟨_, _, rfl⟩))

theorem uart_returns_iff (hW : Answering W) (hinvites : W.BriefInvites) (hs : s.IntDoor)
    (henabled : (Event.uart received).enabled W s = true) :
    Returns (echoTask W received) s ↔ Survivable W (.uart received) s := by
  -- without a message the only harm is that of a ping
  have hmute (hno : ¬ Brings W s (.uart received) bleUser) :
      Survivable W (.uart received) s ↔ (s.data = lit "PNG" → W.literalsWritable = true) := by
    constructor
    · exact fun h => h.ping received rfl henabled
    · intro h
      refine ⟨fun _ _ _ => h, fun _ _ hbrings => absurd hbrings hno, fun m htakes => ?_⟩
      cases htakes with
      | uart hbrings _ => exact absurd hbrings hno
  rw [echoTask, Returns.get_bind_iff]
  by_cases hping : s.data = lit "PNG"
  · rw [if_pos hping, sendLOK_returns_iff, hmute]
    · exact ⟨fun h _ => h, fun h => h hping⟩
    · rintro ⟨⟩
      contradiction
  rw [if_neg hping]
  by_cases hwifi : s.wifiConnected ∧ received ≠ []
  · rw [if_pos hwifi]
    dsimp only
    by_cases hline : strncmpEq (lit "AT+") (cstr received) 3 ∨ strncmpEq (lit "+") (cstr received) 1
    · rw [if_pos hline, hmute]
      · exact iff_of_true (.step rfl handleATCmd_returns) fun h => absurd h hping
      · rintro ⟨⟩
        contradiction
    · have hbrings : Brings W s (.uart received) bleUser := .uart henabled hping hwifi hline
      obtain ⟨status, t, hstatus⟩ := getRegistrationStatus_returns (W := W)
        (s := (s.buffered received).noted (.message bleUser))
      rw [if_neg hline, setData, Returns.modify_bind_iff]
      refine Iff.trans (handleBleMessage_returns_iff (s := s.buffered received) hW hinvites
        (hs.of_eq rfl) hstatus) ?_
      constructor
      · rintro ⟨hknown, hborne⟩
        refine ⟨fun _ _ _ h => absurd h hping, fun _ _ _ => hknown, fun m htakes => ?_⟩
        cases htakes with
        | uart _ hstatus' =>
          rw [hstatus] at hstatus'
          cases hstatus'
          exact hborne
      · intro h
        exact ⟨h.known received rfl hbrings, h.message _ (.uart hbrings hstatus)⟩
  · rw [if_neg hwifi, hmute]
    · exact iff_of_true (.pure _) fun h => absurd h hping
    · rintro ⟨⟩
      contradiction

variable (W) in
/-- What an event finds in a state that a run reaches. -/
structure Steady (s : Sys) : Prop where
  spoken : ∃ frames, Spoken W frames s
  /-- The S2 goes on with its client behind a deep sleep. -/
  linked : W.target = .esp32s3 → Linked W s
  door : s.IntDoor

theorem Steady.wired (h : Steady W s) : Wired W s := by
  obtain ⟨frames, hspoken⟩ := h.spoken
  exact hspoken.wired

/-- The connection served has a record. -/
theorem Steady.known (h : Steady W s) (hserving : s.serving = true) :
    (s.user s.addrStr).isSome := by
  obtain ⟨frames, hspoken⟩ := h.spoken
  obtain ⟨ip, hip⟩ := hspoken.wired.tcp hserving
  obtain ⟨phase, -, hholds⟩ := hspoken.dialogue ip hip (.inl hserving)
  obtain ⟨x, hx, -⟩ := hholds.not_disconnected hserving
  exact Option.isSome_iff_exists.2 ⟨x, hx⟩

/-- And so has a BLE client of the S3. -/
theorem Steady.linked_s3 (h : Steady W s) (hconnected : s.isConnected = true) :
    (s.user s.bleUserAddr).isSome := by
  obtain ⟨-, -, hW⟩ := h.wired.s3 hconnected
  rw [← bleAddress_s3 hW]
  exact (h.linked hW).record (by rwa [BleClient, hW])

/-- **Which events end the program.** -/
theorem step_returns_iff (hW : Answering W) (hinvites : W.BriefInvites) (hs : Steady W s) :
    Returns (step W e) s ↔ Survivable W e s := by
  rw [step, Returns.get_bind_iff]
  by_cases henabled : e.enabled W s = true
  · rw [if_pos henabled]
    cases e with
    | tcpAccept ip =>
      exact iff_of_true (.step rfl (.step rfl (.step rfl
        (setUserState_returns_of_short _ (Address.ipv4 ip).text_length_lt))))
        (survivable_of_mute (fun _ => Event.noConfusion) fun _ h => by cases h)
    | tcpRecv received =>
      exact tcpRecv_returns_iff hW hinvites hs.door (hs.known (enabled_tcpRecv henabled)) henabled
    | tcpClose =>
      exact iff_of_true ⟨_, _, rfl⟩
        (survivable_of_mute (fun _ => Event.noConfusion) fun _ h => by cases h)
    | bleConnect bda =>
      exact iff_of_true (.step rfl (.step rfl (.step rfl (.step rfl (.step rfl
        (setUserState_returns_of_short _ (Address.ble bda).text_length_lt))))))
        (survivable_of_mute (fun _ => Event.noConfusion) fun _ h => by cases h)
    | bleDisconnect =>
      obtain ⟨⟨bda, hbda⟩, -⟩ := hs.wired.s3 (enabled_bleDisconnect henabled)
      have hshort : s.bleUserAddr.length < 45 := hbda ▸ (Address.ble bda).text_length_lt
      exact iff_of_true (.step rfl (.step rfl (.step rfl (.step rfl
        (.bind (setUserState_returns_of_short _ hshort) fun _ _ _ => ⟨_, _, rfl⟩)))))
        (survivable_of_mute (fun _ => Event.noConfusion) fun _ h => by cases h)
    | bleWrite value =>
      exact bleWrite_returns_iff hW hinvites hs.door
        (hs.linked_s3 (enabled_bleWrite henabled)) henabled
    | uart received => exact uart_returns_iff hW hinvites hs.door henabled
    | serverStatus status =>
      exact iff_of_true ⟨_, _, rfl⟩
        (survivable_of_mute (fun _ => Event.noConfusion) fun _ h => by cases h)
    | initRsaKey =>
      exact iff_of_true (.bind getRegistrationStatus_returns fun _ _ _ => .ite
        (fun _ => .bind forceGetRegistrationStatus_returns fun _ _ _ => .pure _) fun _ => .pure _)
        (survivable_of_mute (fun _ => Event.noConfusion) fun _ h => by cases h)
    | setWifiConnected connected =>
      exact iff_of_true ⟨_, _, rfl⟩
        (survivable_of_mute (fun _ => Event.noConfusion) fun _ h => by cases h)
    | serverOnline =>
      exact iff_of_true ⟨_, _, rfl⟩
        (survivable_of_mute (fun _ => Event.noConfusion) fun _ h => by cases h)
  · rw [if_neg henabled]
    exact iff_of_true (.pure _) (survivable_of_disabled henabled)

/-! ## Runs -/

/-- A state of the door that is stored is an `int`. -/
theorem intDoor_setLockState {state : Int} (hstate : longMin ≤ state ∧ state ≤ longMax) :
    Keeps Sys.IntDoor (setLockState W state) := by
  intro s _ s' hs hrun
  obtain ⟨-, hstored | hstands⟩ := setLockState_steps.of_ok hrun
  · intro v hv
    rw [hstored, Option.some.injEq] at hv
    exact hv ▸ hstate
  · rcases hstands with heq | ⟨-, hnone⟩
    · exact hs.of_eq heq
    · intro v hv
      rw [hnone] at hv
      cases hv

/-- **Every piece stores an `int`**, if it stores a state of the door. -/
theorem intDoor_pieces : Pieces W anyEnd fun (α : Type) (m : M α) => Keeps Sys.IntDoor m :=
  .of_indoors (Keeps.hereditary _) (fun hF hm _ _ _ hs hrun => intDoor_of_rel hF (hm.of_ok hrun) hs)
    (fun hf => .of_steps (.modify fun s hs => hs.of_eq (hf.lockState s))) fun hact => by
      have hstores {state : Int} (o : Obs) (hstate : longMin ≤ state ∧ state ≤ longMax) :
          Keeps Sys.IntDoor (do let _ ← setLockState W state; observe o) :=
        (Keeps.hereditary _).bind (intDoor_setLockState hstate) fun _ _ _ _ =>
          .of_steps (.modify fun _ hs => hs)
      rcases hact with rfl | rfl
      · exact hstores .lockLock (by decide)
      · exact hstores .unlockLock (by decide)

/-- Behind a deep sleep the S3 has no client. -/
theorem deepSleep_unlinked (hW : W.target = .esp32s3)
    (hrun : (deepSleepTimerCallback W).run s = (.ok (), s')) : Linked W s' := by
  have hnone := deepSleep_leaves (W := W) (I := fun s => s.isConnected = false) (fun _ => rfl)
    (fun hm => hm.mono fun _ _ h hs => (Sys.isConnected_of_servers h.servers).trans hs) s
  rw [hrun] at hnone
  have hclient : ¬ BleClient W s' := by
    rw [bleClient_s3 hW]
    exact fun hc => Bool.false_ne_true (hnone.symm.trans hc)
  exact ⟨fun hc => absurd hc hclient, fun hc => absurd hc hclient⟩

/-- **The program keeps what its events find.** -/
theorem Steady.mainStep {e : MainEvent} (h : Steady W s)
    (hrun : (mainStep W e).run s = (.ok (), s')) : Steady W s' := by
  have hspoken : ∃ frames, Spoken W frames s' :=
    h.spoken.elim fun _ hspoken => mainStep_spoken hspoken hrun
  have hdoor : s'.IntDoor := intDoor_pieces.mainStep (.of_steps (.modify fun _ hs => hs))
    (fun e' _ => intDoor_pieces.step e') s () s' h.door hrun
  refine ⟨hspoken, fun hW => ?_, hdoor⟩
  have hlinked := h.linked hW
  have hbeside (hserver : ∀ e', e ≠ .server e') (hawake : e ≠ .deepSleep) : Linked W s' :=
    hlinked.of_linking ((mainStep_beside (linking_talks (a := [])) (fun s => linking.refl s)
      (fun s => linking.refl s) hserver hawake).of_ok hrun)
  cases e with
  | server e' => exact step_linked h.wired hlinked hrun
  | deepSleep =>
    rw [SmartLock.mainStep, run_get_bind] at hrun
    split at hrun
    · exact deepSleep_unlinked hW hrun
    · cases hrun
      exact hlinked
  | _ => exact hbeside (fun _ => MainEvent.noConfusion) MainEvent.noConfusion

theorem Boot.steady (hboot : Boot W s) (hs : s.IntDoor) : Steady W s where
  spoken := ⟨[], hboot.spoken⟩
  linked _ := ⟨fun hc => absurd hc hboot.not_bleClient, fun hc => absurd hc hboot.not_bleClient⟩
  door := hs

variable (W) in
/-- The event does not end the program: of what is not of the servers, the
`LOK` of a start is appended to a literal for a client that is connected. -/
structure MainSurvivable (e : MainEvent) (s : Sys) : Prop where
  server : ∀ e', e = .server e' → Survivable W e' s
  online : e = .online → e.enabled W s = true → s.isConnected = true → W.literalsWritable = true

theorem goOnline_returns_iff :
    Returns (goOnline W) s ↔ (s.isConnected = true → W.literalsWritable = true) := by
  rw [goOnline, Returns.modify_bind_iff, Returns.get_bind_iff]
  constructor
  · rintro ⟨_, _, h⟩ hconnected
    obtain ⟨_, _, hguard, -⟩ := bind_ok.1 h
    exact not_not.1 fun hliterals => (faultIf_ok.1 hguard).1 ⟨hconnected, hliterals⟩
  · intro h
    refine .step (run_faultIf_of_not ?_ _ _) sendDataBleS3_returns
    exact fun hfault => hfault.2 (h hfault.1)

/-- **Which events end the program**, whatever they are of. -/
theorem mainStep_returns_iff {e : MainEvent} (hW : Answering W) (hinvites : W.BriefInvites)
    (hs : Steady W s) : Returns (mainStep W e) s ↔ MainSurvivable W e s := by
  -- what is no event of the servers and appends to no literal returns
  have hmute (h : Returns (mainHandle W e) s) (hserver : ∀ e', e ≠ .server e') (ho : e ≠ .online) :
      Returns (mainStep W e) s ↔ MainSurvivable W e s := by
    rw [mainStep, Returns.get_bind_iff]
    exact iff_of_true (.ite (fun _ => h) fun _ => .pure _)
      ⟨fun e' he => absurd he (hserver e'), fun he => absurd he ho⟩
  cases e with
  | server e' =>
    have hiff : Returns (step W e') s ↔ Survivable W e' s := step_returns_iff hW hinvites hs
    refine Iff.trans hiff ⟨fun h => ⟨fun _ he => ?_, fun he => MainEvent.noConfusion he⟩,
      fun h => h.server e' rfl⟩
    cases he
    exact h
  | online =>
    rw [mainStep, Returns.get_bind_iff]
    by_cases henabled : MainEvent.online.enabled W s = true
    · rw [if_pos henabled]
      exact Iff.trans goOnline_returns_iff ⟨fun h => ⟨fun _ he => MainEvent.noConfusion he,
        fun _ _ => h⟩, fun h => h.online rfl henabled⟩
    · rw [if_neg henabled]
      exact iff_of_true (.pure _) ⟨fun _ he => MainEvent.noConfusion he,
        fun _ h => absurd h henabled⟩
  | initLedLockState =>
    have hreturns : Returns (initLedLockState W) s := .bind (getLockState_returns hW) fun _ _ _ =>
      .ite (fun _ => lockLock_returns hW) fun _ => .ite (fun _ => unlockLock_returns hW)
        fun _ => .pure _
    exact hmute hreturns (fun _ => MainEvent.noConfusion) MainEvent.noConfusion
  | startTimer =>
    have hreturns : Returns (startTimerIfComplete W) s :=
      .bind getRegistrationStatus_returns fun _ _ _ => .ite (fun _ => ⟨_, _, rfl⟩) fun _ => .pure _
    exact hmute hreturns (fun _ => MainEvent.noConfusion) MainEvent.noConfusion
  | deepSleep =>
    have hreturns : Returns (deepSleepTimerCallback W) s :=
      .step rfl (.step (nvsCall_run hW.nvs _) (.step rfl (.ite
        (fun _ => setUserState_returns_of_short _ bleUser_short) fun _ => .pure _)))
    exact hmute hreturns (fun _ => MainEvent.noConfusion) MainEvent.noConfusion

/-- **Which runs end the program**: of any events of the servers, starts and
deep sleeps, in any order, those in which a message comes that is not borne
as what it is taken for, or over the UART a message before the session has
a record, or, where literals cannot be written, a ping, or a start goes on
line while a BLE client is connected. -/
theorem run_returns_iff (hW : Answering W) (hinvites : W.BriefInvites) (hboot : Boot W s)
    (hdoor : s.IntDoor) (es : List MainEvent) :
    Returns (mainRun W es) s ↔ Throughout (mainStep W) (MainSurvivable W) es s :=
  exec_returns_iff (fun _ _ _ hs hrun => hs.mainStep hrun)
    (fun _ _ hs => mainStep_returns_iff hW hinvites hs) (hboot.steady hdoor)

theorem returns_iff_fst {α : Type} {m : M α} : Returns m s ↔ ∃ x, (m.run s).1 = .ok x := by
  constructor
  · rintro ⟨x, t, h⟩
    exact ⟨x, congrArg Prod.fst h⟩
  · rintro ⟨x, h⟩
    exact ⟨x, (m.run s).2, Prod.ext h rfl⟩

/-- A client with a session sends the text, encrypted, while a start goes
on line. -/
def sends (text : CStr) : List MainEvent :=
  [.server (.tcpAccept lanAddress), .online, .server (.tcpRecv (lit "AAAA")), .initLedLockState,
    .server (.tcpRecv (sealedText text))]

/-- A start goes on line behind the connection of a BLE client. -/
def greets : List MainEvent := [.server (.bleConnect phoneAddress), .online]

/-- An outside that answers, in which literals are what they are on the
chip. -/
def World.literal : World := { World.answering .esp32s3 with literalsWritable := false }

/-- It answers as the other does. -/
theorem answering_literal : Answering World.literal :=
  have h := answering_answering .esp32s3
  ⟨h.nvs, h.status, h.invite, nofun⟩

/-- The theorem, of a message that names a command and of a blank one, and of
a start behind the connection of a BLE client. -/
theorem run_returns_iff_blank :
    Throughout (mainStep World.literal) (MainSurvivable World.literal) (sends (lit "RUD"))
      Sys.initial ∧
    ¬ Throughout (mainStep World.literal) (MainSurvivable World.literal) (sends (lit " "))
      Sys.initial ∧
    ¬ Throughout (mainStep World.literal) (MainSurvivable World.literal) greets Sys.initial := by
  have hinvites : World.literal.BriefInvites := by
    intro m json d inviteId hreply hid
    cases hreply
    cases hid
    decide
  have hdoor : Sys.initial.IntDoor := fun v hv => by cases hv
  have hiff (es : List MainEvent) := run_returns_iff answering_literal hinvites boot_initial hdoor es
  have hfirst : ((mainRun World.literal (sends (lit "RUD"))).run Sys.initial).1 = .ok () := by
    decide +kernel
  have hblank : ((mainRun World.literal (sends (lit " "))).run Sys.initial).1 =
      .error .nullDeref := by decide +kernel
  have hgreets : ((mainRun World.literal greets).run Sys.initial).1 = .error .overflow := by
    decide +kernel
  refine ⟨(hiff _).1 (returns_iff_fst.2 ⟨_, hfirst⟩), fun h => ?_, fun h => ?_⟩
  · obtain ⟨_, hreturns⟩ := returns_iff_fst.1 ((hiff _).2 h)
    rw [hblank] at hreturns
    cases hreturns
  · obtain ⟨_, hreturns⟩ := returns_iff_fst.1 ((hiff _).2 h)
    rw [hgreets] at hreturns
    cases hreturns

end SmartLock
