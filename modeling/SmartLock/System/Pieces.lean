import SmartLock.Common.Hereditary
import SmartLock.Handler.Effect
import SmartLock.System.Frames

/-!
# What the servers put together

Whatever happens to the lock, its records are written by four pieces of the
program: a state that is set, credentials that are taken, a session that is
opened by them, and the authorization of a phone, which alone may store an
authorization. All else looks up, resets the BLE session, and assigns to
the globals of the servers. A property that sequences inherit and these
pieces have is a property of every event.
-/

namespace SmartLock

open Prog

variable {W : World} {a cmd data : CStr}

/-- A client is sent something. -/
def Obs.isSent : Obs → Bool
  | reply _ _ _ _ => true
  | bleText _ => true
  | _ => false

/-- Only a piece makes it: a client is sent something, or the master key of
a phone is found. -/
def Obs.byPiece : Obs → Bool
  | masterKey _ _ => true
  | o => o.isSent

theorem Obs.not_sent_of_byPiece {o : Obs} (h : o.byPiece = false) : o.isSent = false := by
  cases o <;> first | rfl | cases h

/-- What writes no record, but for the reset of the BLE session, stores
neither an authorization nor the state of the door, sends nothing, and
looks for no master key. -/
def elsewhere : Footprint :=
  ⟨fun _ => False, True, True, True, False, False, fun o => o.byPiece = false⟩

variable (W) in
/-- What is sent is the text with its stamps, encrypted. -/
def Sealed (aes : AESContext) (text sent : CStr) : Prop :=
  ∃ s s', (sealResponse W aes (some text)).run s = (.ok sent, s')

/-- What touches the door. -/
theorem door_within {F : Footprint} {act : M Unit} (hact : act = lockLock W ∨ act = unlockLock W)
    (hd : F.door) (hlock : F.obs .lockLock) (hunlock : F.obs .unlockLock) : Within F act := by
  rcases hact with rfl | rfl
  · exact lockLock_within hd hlock
  · exact unlockLock_within hd hunlock

/-- What leaves the state of the door. -/
def indoors : Footprint := ⟨fun _ => True, True, True, True, True, False, fun _ => True⟩

/-- An argument is a word. -/
theorem Given.ne_nil {n : ℕ} {args : List CStr} {arg : CStr} (h : Given cmd n args)
    (harg : arg ∈ args) : arg ≠ [] := by
  rw [h.eq] at harg
  have hword := (List.mem_filter.1 (List.mem_of_mem_drop (List.mem_of_mem_take harg))).2
  rintro rfl
  cases hword

/-! ## What a message makes the servers do -/

variable (W) in
/-- The loop of `do_retransmit` on the address it was called with. -/
def answerTcp (a : CStr) (received : List UInt8) : M Unit := do
  observe (.message a)
  match ← sessionResponse W a (cstr received) with
  | none => do
    disconnectSock W
    tcpEnd
  | some r => do
    let responseEnc ← sealResponse W r.aes r.response
    let text ← deref r.response
    observe (.reply a r.aes text responseEnc)
    if text = nakMessage then
      disconnectSock W
      tcpEnd

variable (W) in
/-- `process_normal_data` in the state it is called in. -/
def answerS3 (s : Sys) (data : CStr) : M Unit :=
  if data = lit "PNG" then
    sendDataBleS3 4 (if s.serverOnline then lit "LOK" else lit "LNO") .bleText
  else if s.wifiConnected then do
    observe (.message s.bleUserAddr)
    if ← awaitsFirstInviteS3 W then
      match ← firstInviteS3 W s.bleUserAddr data with
      | none => disconnectBleS3
      | some r => do
        replyBleS3 W s.bleUserAddr r
        let _ ← forceGetRegistrationStatus W
    else
      match ← sessionResponse W s.bleUserAddr data with
      | none => disconnectBleS3
      | some r => replyBleS3 W s.bleUserAddr r
  else return ()

variable (W) in
/-- An event in the state it finds. -/
def handleAt (s : Sys) : Event → M Unit
  | .tcpRecv received => answerTcp W s.addrStr received
  | .bleWrite value => answerS3 W s (cstr value)
  | e => handle W e

/-- An event that is not enabled does nothing. -/
theorem step_run (e : Event) (s : Sys) : (SmartLock.step W e).run s =
    (if e.enabled W s then handleAt W s e else pure ()).run s := by
  rw [SmartLock.step, run_get_bind]
  split
  · cases e <;> rfl
  · rfl

/-- What is stored, and what was observed until when. -/
def Sys.tables (s : Sys) :
    List UserInfo × (CStr → Option Authorization) × Option Int × ℕ × List Obs :=
  (s.usersInfo, s.authorizations, s.lockState, s.moment, s.log)

/-- Nothing of this is assigned to. -/
def LeavesTables (f : Sys → Sys) : Prop := ∀ s, (f s).tables = s.tables

section

variable {f : Sys → Sys}

theorem LeavesTables.usersInfo (h : LeavesTables f) (s : Sys) : (f s).usersInfo = s.usersInfo :=
  congrArg Prod.fst (h s)

theorem LeavesTables.authorizations (h : LeavesTables f) (s : Sys) :
    (f s).authorizations = s.authorizations := congrArg (·.2.1) (h s)

theorem LeavesTables.lockState (h : LeavesTables f) (s : Sys) : (f s).lockState = s.lockState :=
  congrArg (·.2.2.1) (h s)

theorem LeavesTables.moment (h : LeavesTables f) (s : Sys) : (f s).moment = s.moment :=
  congrArg (·.2.2.2.1) (h s)

theorem LeavesTables.log (h : LeavesTables f) (s : Sys) : (f s).log = s.log :=
  congrArg (·.2.2.2.2) (h s)

end

/-- Whom a reply may be sent to, and what it may end with. -/
def anyEnd (_ : CStr) (eot : List UInt8) : Prop := eot = [] ∨ eot = [4]

variable (W) in
/-- The property is inherited, and the pieces of the program have it: of
the replies, those that are addressed and end as `A` says. -/
structure Pieces (A : CStr → List UInt8 → Prop) (P : ∀ α : Type, M α → Prop) : Prop where
  hereditary : Hereditary P
  elsewhere : ∀ {α : Type} {m : M α}, Within elsewhere m → P α m
  assign : ∀ {f : Sys → Sys}, LeavesTables f → P Unit (Prog.modify f)
  setUserState : ∀ (a : CStr) {state : UserState}, state ≠ .authorized →
    P Unit (setUserState W a state [])
  credentials : ∀ a data, P Bool (retrieveSessionCredentials W data a)
  opening : ∀ a data, P (Option Response) (do
    if ← retrieveSessionCredentials W data a then
      let response ← racResponse W a
      let aes ← getUserAESCtx a
      return some ⟨false, aes, some response⟩
    else return none)
  /-- Arguments are words, and so not empty. -/
  sac : ∀ args a, (∀ arg ∈ args, arg ≠ []) → P Bool (sacValid W args a)
  /-- The door is locked, or unlocked. -/
  door : ∀ {act : M Unit}, act = lockLock W ∨ act = unlockLock W → P Unit act
  /-- On BLE a reply ends with `EOT`. -/
  reply : ∀ (a : CStr) {aes : AESContext} {text sent : CStr} {eot : List UInt8},
    Sealed W aes text sent → A a eot → P Unit (SmartLock.observe (.reply a aes text (sent ++ eot)))
  /-- And so does the answer to a ping. -/
  ping : ∀ {text : CStr}, text = lit "LOK" ∨ text = lit "LNO" →
    P Unit (SmartLock.observe (.bleText (text ++ [4])))

namespace Pieces

variable {A : CStr → List UInt8 → Prop} {P : ∀ α : Type, M α → Prop}

/-- A property that all has which leaves the door alone: it is left to show
for the door. -/
theorem of_indoors (hP : Hereditary P)
    (hindoors : ∀ {F : Footprint} {α : Type} {m : M α}, ¬ F.door → Within F m → P α m)
    (hassign : ∀ {f : Sys → Sys}, LeavesTables f → P Unit (Prog.modify f))
    (hdoor : ∀ {act : M Unit}, act = SmartLock.lockLock W ∨ act = SmartLock.unlockLock W →
      P Unit act) : Pieces W A P :=
  have hin {α : Type} {m : M α} (hm : Within indoors m) : P α m := hindoors id hm
  have htakes (a data : CStr) : Within indoors (retrieveSessionCredentials W data a) :=
    retrieveSessionCredentials_within trivial trivial fun _ => trivial
  { hereditary := hP
    elsewhere := hindoors id
    assign := hassign
    setUserState := fun _ _ _ => hin (setUserState_within trivial)
    credentials := fun a data => hin (htakes a data)
    opening := fun a data => hin (.bind (htakes a data) fun _ => .ite
      (fun _ => .bind (racResponse_within trivial fun _ => trivial) fun _ =>
        .bind getUserAESCtx_within fun _ => .pure _) fun _ => .pure _)
    sac := fun _ _ _ => hin (sacValid_within trivial trivial trivial (fun _ _ => trivial)
      fun _ _ => trivial)
    door := hdoor
    reply := fun _ _ _ _ _ _ _ => hin (observe_within (.inr trivial))
    ping := fun _ => hin (observe_within (.inr trivial)) }

/-- Pieces in a row. -/
theorem bind (h : Pieces W A P) {α β : Type} {m : M α} {f : α → M β} (hm : P α m)
    (hf : ∀ x, P β (f x)) : P β (m >>= f) := h.hereditary.bind hm fun x _ _ _ => hf x

/-! ## A message -/

theorem observe (h : Pieces W A P) {o : Obs} (ho : o.byPiece = false) :
    P Unit (SmartLock.observe o) := h.elsewhere (observe_within (.inr ho))

theorem lockLock (h : Pieces W A P) : P Unit (lockLock W) := h.door (.inl rfl)

theorem unlockLock (h : Pieces W A P) : P Unit (unlockLock W) := h.door (.inr rfl)

/-- A state that is not there is stored as locked. -/
theorem getLockState (h : Pieces W A P) : P Int (getLockState W) :=
  h.bind (h.elsewhere initAndOpen_within) fun _ => of_branches (h.hereditary.pure _)
    (h.bind (h.elsewhere nvsGetLockState_within) fun _ => of_branches
      (h.bind h.lockLock fun _ => h.hereditary.pure _) (h.hereditary.pure _))

/-- A command of arguments that are words, which then is freed. -/
theorem withArgs (h : Pieces W A P) {n : ℕ} {m : M (Option CStr)} {k : List CStr → M (Option CStr)}
    (hm : P (Option CStr) m) (hk : ∀ args, (∀ arg ∈ args, arg ≠ []) → P (Option CStr) (k args)) :
    P (Option CStr) (do
      match ← getArgs W cmd n with
      | none => m
      | some args => k args) := by
  refine h.hereditary.bind (h.elsewhere getArgs_within) fun args s s' hargs => ?_
  cases args with
  | none => exact hm
  | some args =>
    obtain ⟨rfl, -⟩ := getArgs_ok hargs
    exact hk args fun _ => (given_of_getArgs hargs).ne_nil

/-- The reset of the BLE session in front of a response. -/
theorem reset (h : Pieces W A P) {response : Option CStr} : P (Option CStr) (do
    setBLEUserStateToConnecting W
    return response) :=
  h.bind (h.elsewhere (setBLEUserStateToConnecting_within trivial)) fun _ => h.hereditary.pure _

theorem commandDoor (h : Pieces W A P) {act : M Unit} (hact : P Unit act) (c : Tok) :
    P (Option CStr) (commandDoor W act c cmd a) := by
  refine h.withArgs (h.elsewhere nak_within) fun args _ => h.bind ?_ fun ack =>
    h.bind (h.elsewhere freeCommand_within) fun _ => h.reset
  exact h.bind (h.elsewhere (verifyTimestampsAndNonce_within trivial)) fun _ => of_branches
    (h.bind (h.elsewhere (canUseLock_within fun _ => rfl)) fun _ => of_branches
      (h.bind hact fun _ => h.hereditary.pure _) (h.hereditary.pure _)) (h.hereditary.pure _)

theorem commandRDS (h : Pieces W A P) (c : Tok) : P (Option CStr) (commandRDS W c cmd a) := by
  refine h.withArgs (h.bind (h.elsewhere freeCommand_within) fun _ => h.reset) fun args _ =>
    h.bind ?_ fun response => h.bind (h.elsewhere freeCommand_within) fun _ => h.reset
  exact h.bind (h.elsewhere (verifyTimestampsAndNonce_within trivial)) fun _ => of_branches
    (h.bind (h.elsewhere getUserState_within) fun _ => of_branches
      (h.bind h.getLockState fun _ => h.elsewhere sprintf_within) (h.hereditary.pure _))
    (h.hereditary.pure _)

/-- The pieces of a command, whichever it is. -/
theorem checkCommand (h : Pieces W A P) : P (Option CStr) (checkCommand W cmd a) := by
  have hsac (c : Tok) : P (Option CStr) (commandSAC W c cmd a) :=
    h.withArgs (h.elsewhere nak_within) fun args hargs => h.bind (h.sac args a hargs) fun _ =>
      h.bind (h.elsewhere freeCommand_within) fun _ => h.hereditary.pure _
  exact h.bind (h.elsewhere deref_within) fun c => of_branches (hsac c) <|
    of_branches (h.commandDoor h.unlockLock c) <| of_branches (h.commandDoor h.lockLock c) <|
    of_branches (h.elsewhere (commandRNI_within trivial trivial (fun _ => rfl) fun _ _ => rfl)) <|
    of_branches (h.elsewhere (commandRFI_within trivial trivial fun _ _ => rfl)) <|
    of_branches (h.elsewhere (commandRUI_within trivial trivial (fun _ => rfl) fun _ _ => rfl)) <|
    of_branches (h.elsewhere (commandSNT_within trivial fun _ => rfl)) <|
    of_branches (h.commandRDS c) h.reset

/-- The pieces of a message with a command. -/
theorem commandResponse (h : Pieces W A P) : P Response (commandResponse W a data) :=
  h.bind (h.elsewhere getUserAESCtx_within) fun _ => h.bind (h.observe rfl) fun _ =>
    h.bind (h.elsewhere decryptBase64AES_within) fun _ => h.bind (h.observe rfl) fun _ =>
      h.bind h.checkCommand fun _ => h.hereditary.pure _

/-- **A message of a session.** -/
theorem sessionResponse (h : Pieces W A P) : P (Option Response) (sessionResponse W a data) :=
  h.bind (h.elsewhere getUserState_within) fun _ => of_branches (h.opening a data)
    (of_branches (h.bind h.commandResponse fun _ => h.hereditary.pure _) (h.hereditary.pure _))

/-- The pieces of a message in first-invite mode. -/
theorem firstInviteResponse (h : Pieces W A P) {flag : Sys → Bool} {setFlag : Bool → Sys → Sys}
    (hflag : ∀ b, LeavesTables (setFlag b)) :
    P (Option Response) (firstInviteResponse W flag setFlag a data) :=
  h.bind h.hereditary.get fun _ => of_branches
    (h.bind (h.assign (hflag false)) fun _ => h.bind h.commandResponse fun _ =>
      h.hereditary.pure _)
    (h.bind (h.credentials a data) fun _ => of_branches
      (h.bind (h.elsewhere getUserAESCtx_within) fun _ => h.bind (h.assign (hflag true))
        fun _ => h.hereditary.pure _)
      (h.hereditary.pure _))

/-- What is done with a response once it is sealed. -/
theorem sealing (h : Pieces W A P) {α : Type} {r : Response} {k : CStr → CStr → M α}
    (hk : ∀ text sent, Sealed W r.aes text sent → P α (k text sent)) : P α (do
      let sent ← sealResponse W r.aes r.response
      let text ← deref r.response
      k text sent) := by
  refine h.hereditary.bind (h.elsewhere sealResponse_within) fun sent s s' hseal => ?_
  refine h.hereditary.bind (h.elsewhere deref_within) fun text t t' htext => hk text sent ?_
  exact ⟨s, s', by rwa [(deref_ok.1 htext).1] at hseal⟩

/-! ## TCP -/

/-- The pieces of a TCP connection that begins. -/
theorem tcpAccept (h : Pieces W A P) (ip : Vector UInt8 4) : P Unit (tcpAccept W ip) :=
  h.bind (h.assign fun _ => rfl) fun _ => h.bind (h.observe rfl) fun _ =>
    h.bind (h.assign fun _ => rfl) fun _ => h.setUserState _ (by decide)

theorem tcpEnd (h : Pieces W A P) : P Unit tcpEnd :=
  h.bind h.hereditary.get fun _ => h.bind (h.assign fun _ => rfl) fun _ =>
    h.bind (h.observe rfl) fun _ => h.bind (h.observe rfl) fun _ => h.assign fun _ => rfl

/-- The pieces of the lock hanging up. -/
theorem hangUp (h : Pieces W A P) : P Unit (do disconnectSock W; SmartLock.tcpEnd) :=
  h.bind (h.bind h.hereditary.get fun _ => h.bind (h.setUserState _ (by decide)) fun _ =>
    h.bind (h.elsewhere getUserAESCtx_within) fun _ => h.bind (h.observe rfl) fun _ =>
      h.assign fun _ => rfl) fun _ => h.tcpEnd

theorem answerTcp (h : Pieces W A P) (ha : A a []) (received : List UInt8) :
    P Unit (answerTcp W a received) := by
  refine h.bind (h.observe rfl) fun _ => h.bind h.sessionResponse fun r => ?_
  cases r with
  | none => exact h.hangUp
  | some r =>
    exact h.sealing fun text sent hsealed => by
      have hreply := h.reply a hsealed ha
      rw [List.append_nil] at hreply
      exact h.bind hreply fun _ => of_branches h.hangUp (h.hereditary.pure _)

/-! ## The BLE server of the S3 -/

/-- The BLE server sends what it builds while it is connected. -/
theorem sendDataBleS3 (h : Pieces W A P) {n : ℕ} {sent : CStr → Obs}
    (hsent : P Unit (SmartLock.observe (sent (data ++ [4])))) :
    P Unit (sendDataBleS3 n data sent) :=
  h.bind h.hereditary.get fun _ => of_branches
    (h.hereditary.bind (h.elsewhere sprintf_within) fun _ _ _ hbuilt => by
      rw [sprintf_ok hbuilt]
      exact hsent) (h.hereditary.pure _)

theorem replyBleS3 (h : Pieces W A P) (ha : A a [4]) (r : Response) :
    P Unit (replyBleS3 W a r) :=
  h.sealing fun _ _ hsealed => h.sendDataBleS3 (h.reply a hsealed ha)

theorem answerS3 (h : Pieces W A P) {s : Sys} (ha : A s.bleUserAddr [4]) (data : CStr) :
    P Unit (answerS3 W s data) := by
  refine of_branches ?_ (of_branches ?_ (h.hereditary.pure _))
  · cases s.serverOnline with
    | true => exact h.sendDataBleS3 (h.ping (.inl rfl))
    | false => exact h.sendDataBleS3 (h.ping (.inr rfl))
  refine h.bind (h.observe rfl) fun _ => h.bind (h.elsewhere (awaitsFirstInviteS3_within trivial))
    fun _ => of_branches (h.bind (h.firstInviteResponse fun _ _ => rfl) fun r => ?_)
      (h.bind h.sessionResponse fun r => ?_)
  · cases r with
    | none => exact h.observe rfl
    | some r =>
      exact h.bind (h.replyBleS3 ha r) fun _ =>
        h.bind (h.elsewhere (forceGetRegistrationStatus_within trivial)) fun _ =>
          h.hereditary.pure _
  · cases r with
    | none => exact h.observe rfl
    | some r => exact h.replyBleS3 ha r

/-- The pieces of a BLE connection that begins. -/
theorem gattsConnect (h : Pieces W A P) (bda : Vector UInt8 6) : P Unit (gattsConnect W bda) :=
  h.bind (h.assign fun _ => rfl) fun _ =>
    h.bind (h.assign fun _ => rfl) fun _ =>
      h.bind (h.assign fun _ => rfl) fun _ => h.bind (h.observe rfl) fun _ =>
        h.bind (h.assign fun _ => rfl) fun _ => h.setUserState _ (by decide)

theorem gattsDisconnect (h : Pieces W A P) : P Unit (gattsDisconnect W) :=
  h.bind h.hereditary.get fun _ => h.bind (h.assign fun _ => rfl) fun _ =>
    h.bind (h.assign fun _ => rfl) fun _ =>
      h.bind (h.assign fun _ => rfl) fun _ =>
        h.bind (h.setUserState _ (by decide)) fun _ => h.observe rfl

/-! ## The BLE server of the S2 -/

/-- The pieces of a line of the module. -/
theorem handleATCmd (h : Pieces W A P) (data : CStr) : P Unit (handleATCmd W data) :=
  of_branches (h.bind (h.observe rfl) fun _ => h.bind (h.setUserState _ (by decide)) fun _ =>
      h.bind (h.assign fun _ => rfl) fun _ =>
        h.assign fun _ => rfl)
    (of_branches (h.bind (h.setUserState _ (by decide)) fun _ =>
        h.bind (h.assign fun _ => rfl) fun _ =>
          h.bind (h.assign fun _ => rfl) fun _ => h.observe rfl)
      (h.hereditary.pure _))

/-- The pieces of a message over the UART. -/
theorem handleBleMessage (h : Pieces W A P) (ha : A bleUser [4]) (data : CStr) :
    P Unit (handleBleMessage W data) := by
  have hresponse : P (Option Response) (bleResponse W data) :=
    h.bind (h.elsewhere (getRegistrationStatus_within trivial)) fun _ => of_branches
      (h.firstInviteResponse fun _ _ => rfl) h.sessionResponse
  refine h.bind (h.observe rfl) fun _ => h.bind (h.elsewhere getUserAESCtx_within) fun _ =>
    h.bind hresponse fun r => ?_
  cases r with
  | none => exact h.bind (h.setUserState _ (by decide)) fun _ => h.observe rfl
  | some r =>
    exact h.bind (h.assign fun _ => rfl) fun _ => h.sealing fun _ _ hsealed =>
      h.hereditary.bind (h.elsewhere sprintf_within) fun _ _ _ hbuilt => by
        rw [sprintf_ok hbuilt]
        exact h.reply bleUser hsealed ha

/-- The pieces of what the UART delivered. -/
theorem echoTask (h : Pieces W A P) (ha : A bleUser [4]) (received : List UInt8) :
    P Unit (echoTask W received) :=
  h.bind h.hereditary.get fun _ => of_branches
    (h.bind (h.elsewhere faultIf_within) fun _ => h.bind h.hereditary.get fun _ =>
      h.bind (h.elsewhere sprintf_within) fun _ => h.bind (h.assign fun _ => rfl)
        fun _ => h.observe rfl)
    (of_branches (of_branches (h.bind (h.assign fun _ => rfl) fun _ => h.handleATCmd _)
        (h.bind (h.assign fun _ => rfl) fun _ => h.handleBleMessage ha _))
      (h.hereditary.pure _))

/-! ## The events -/

/-- **What the pieces have, every event has** where its replies are as
`A` says. -/
theorem handleAt (h : Pieces W A P) {s : Sys} {e : Event}
    (htcp : ∀ received, e = .tcpRecv received → A s.addrStr [])
    (hs3 : ∀ value, e = .bleWrite value → A s.bleUserAddr [4])
    (huart : ∀ received, e = .uart received → A bleUser [4]) : P Unit (handleAt W s e) := by
  cases e with
  | tcpAccept ip => exact h.tcpAccept ip
  | tcpRecv received => exact h.answerTcp (htcp received rfl) received
  | tcpClose => exact h.tcpEnd
  | bleConnect bda => exact h.gattsConnect bda
  | bleDisconnect => exact h.gattsDisconnect
  | bleWrite value => exact h.answerS3 (hs3 value rfl) _
  | uart received => exact h.echoTask (huart received rfl) received
  | serverStatus status => exact h.assign fun _ => rfl
  | initRsaKey => exact h.elsewhere (initRsaKey_within trivial)
  | setWifiConnected connected => exact h.assign fun _ => rfl
  | serverOnline => exact h.assign fun _ => rfl

/-- **The pieces of an event**, of every transport. -/
theorem step (h : Pieces W anyEnd P) (e : Event) : P Unit (step W e) := by
  refine h.bind h.hereditary.get fun s => of_branches ?_ (h.hereditary.pure _)
  have hat (s : Sys) : P Unit (SmartLock.handleAt W s e) :=
    h.handleAt (fun _ _ => .inl rfl) (fun _ _ => .inr rfl) fun _ _ => .inr rfl
  cases e with
  | tcpRecv received => exact h.bind h.hereditary.get hat
  | bleWrite value => exact h.bind h.hereditary.get hat
  | _ => exact hat s

/-- **And every run.** -/
theorem run (h : Pieces W anyEnd P) (es : List Event) : P Unit (run W es) :=
  h.hereditary.exec h.step es

end Pieces

end SmartLock
