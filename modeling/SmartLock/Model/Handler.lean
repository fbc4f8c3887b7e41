import SmartLock.Model.Database

/-!
# `tcp_server_handler.c`

The dispatcher of decrypted messages. `checkCommand` reads the command
from a copy of the message and hands over to one function for each
command; a reply of `none` is the null pointer some of them return.

`free` of the command word is modelled where it can go wrong: the word is
the start of its block only if the message has no leading separator. The
arguments are each the start of a block, so `free_args` cannot fail and is
left out.
-/

namespace SmartLock

variable (W : World)

/-- `NAK_MESSAGE`. -/
def nakMessage : CStr := lit "NAK"

/-- `ACK_MESSAGE`. -/
def ackMessage : CStr := lit "ACK"

/-! ## The words of a message -/

/-- `getCommand`: the first token of a copy of the message. -/
def getCommand (str : CStr) : Option Tok := strtok sep str

/-- `free(c)`, of the token of a block. -/
def freeCommand (c : Tok) : M Unit := faultIf (c.off ≠ 0) .badFree

/-- The tokens behind the first. -/
def arguments (str : CStr) : List CStr := (words sep str).drop 1

/-- `getArgs`: a copy of the `n` tokens behind the command. -/
def getArgs (str : CStr) (n : ℕ) : M (Option (List CStr)) := do
  let args := (arguments str).take n
  if args.length < n then
    -- the clean-up frees `args[i-1]` after `i--`, and so ends at `args[-1]`
    faultIf (args.length ≠ 0) .badFree
    return none
  -- `malloc(0)` may be null
  else return if n = 0 ∧ ¬ W.mallocZero then none else some args

/-- The element of an array at an index, if it has one there. -/
def argument (args : List CStr) (i : Int) : Option CStr := if i < 0 then none else args[i.toNat]?

/-- `args[i]`. -/
def argAt (args : List CStr) (i : Int) : M CStr :=
  match argument args i with
  | none => Prog.fail .outOfBounds
  | some arg => pure arg

theorem argAt_ok {args : List CStr} {i : Int} {arg : CStr} {s s' : Sys} :
    (argAt args i).run s = (.ok arg, s') ↔ argument args i = some arg ∧ s' = s := by
  rw [argAt]
  cases argument args i <;> simp [eq_comm]

/-! ## The checks -/

/-- The body of `verifyTimestampsAndNonce`, once the numbers are read. -/
def acceptMessage (ts1 ts2 nonce : Int) : M Bool := do
  let nowTs ← getNowTimestamp W
  if ts1 ≤ nowTs ∧ nowTs ≤ ts2 then
    if ← checkNonce W nonce then
      -- `ts2 + 10` is computed as an `int`
      addNonceSorted nonce (wrap32 (ts2 + 10))
      return true
    else return false
  else return false

/-- `verifyTimestampsAndNonce`. -/
def verifyTimestampsAndNonce (args : List CStr) (firstArgsN : Int) : M Bool := do
  let ts1 ← argAt args (firstArgsN + 0)
  let ts2 ← argAt args (firstArgsN + 1)
  let nonce ← argAt args (firstArgsN + 2)
  -- `int` and `long` are both 32 bits wide, and `strtol` saturates
  acceptMessage W (strtol ts1) (strtol ts2) (strtol nonce)

/-- The interval test of a tenant, as the source has it. -/
def tenantPermitted (auth : Authorization) : M Bool := do
  let todayTs ← getTodayTimestamp W
  if auth.validFromTs < todayTs then return false
  if auth.validUntilTs > todayTs then return false
  return true

/-- The `switch` of `canUseLock`; a periodic user falls through to a
tenant. -/
def usePermitted (auth : Authorization) : M Bool :=
  match auth.userType with
  | UserType.admin => return true
  | UserType.owner => return true
  | UserType.periodicUser => do
    let weekday ← getTodayWeekday W
    if ¬ auth.weekdays[weekday] then return false
    tenantPermitted W auth
  | UserType.tenant => tenantPermitted W auth
  | UserType.oneTimeUser => do
    let todayTs ← getTodayTimestamp W
    return auth.oneDayTs == todayTs
  | _ => return false

/-- The start of `canUseLock` and of `canCreateInvite`: what is stored
under the phone of an authorized user. -/
def storedAuthorization (phoneId : CStr) : M (Option Authorization) := do
  let (res, auth) ← getAuthorization W phoneId (W.freshAuthorization (← tick))
  if res ≠ espOk then return none
  return some (← deref auth)

/-- `canUseLock`. -/
def canUseLock (userIp : CStr) : M Bool := do
  if (← getUserState userIp) ≠ .authorized then return false
  match ← getPhoneId userIp with
  | none => return false
  | some phoneId => do
    observe (.consult phoneId)
    match ← storedAuthorization W phoneId with
    | none => return false
    | some auth => usePermitted W auth

/-- The `switch` of `canCreateInvite`. -/
def invitePermitted (auth : Authorization) (validFrom validUntil oneDay : Int) : Bool :=
  match auth.userType with
  | UserType.admin => true
  | UserType.owner => true
  | UserType.tenant =>
    -- `-1`, for a field the request does not carry, is compared like any number
    if validFrom < auth.validFromTs then false
    else if validFrom > auth.validUntilTs then false
    else if validUntil < auth.validFromTs then false
    else if validUntil > auth.validUntilTs then false
    else if oneDay < auth.validFromTs then false
    else if oneDay > auth.validUntilTs then false
    else true
  | _ => false

/-- `canCreateInvite`. -/
def canCreateInvite (userIp : CStr) (userType : UserType) (validFrom validUntil oneDay : Int) :
    M Bool := do
  if (← getUserState userIp) ≠ .authorized then return false
  match ← getPhoneId userIp with
  | none => return false
  | some phoneId =>
    match ← storedAuthorization W phoneId with
    | none => return false
    | some auth =>
      if auth.userType > userType then return false
      return invitePermitted auth validFrom validUntil oneDay

/-! ## The commands -/

/-- What decides a `SAC`: the stamps, then the code. -/
def sacValid (args : List CStr) (userIp : CStr) : M Bool := do
  let phoneId ← argAt args 0
  let authCode ← argAt args 1
  if ← verifyTimestampsAndNonce W args 2 then
    let authSeed ← getUserSeed userIp
    if ← checkAuthorizationCode W phoneId authCode authSeed then
      setUserState W userIp .authorized phoneId
      observe (.sac userIp phoneId authCode)
      return true
    else return false
  else return false

/-- `SAC`: the authorization credentials of a phone. -/
def commandSAC (c : Tok) (cmd userIp : CStr) : M (Option CStr) := do
  match ← getArgs W cmd 5 with
  | none => do
    freeCommand c
    return some nakMessage
  | some args => do
    let isValid ← sacValid W args userIp
    freeCommand c
    -- `SAC` leaves the session of BLE alone
    return some (if isValid then ackMessage else nakMessage)

/-- The checks of `RUD` and `RLD`, and what they do to the door. -/
def doorAck (act : M Unit) (args : List CStr) (userIp : CStr) : M Bool := do
  if ← verifyTimestampsAndNonce W args 0 then
    if ← canUseLock W userIp then
      act
      return true
    else return false
  else return false

/-- `RUD` and `RLD`, which differ in what they do to the door. -/
def commandDoor (act : M Unit) (c : Tok) (cmd userIp : CStr) : M (Option CStr) := do
  match ← getArgs W cmd 3 with
  | none => do
    freeCommand c
    return some nakMessage
  | some args => do
    let ack ← doorAck W act args userIp
    freeCommand c
    -- the session of BLE, whichever transport the command came over
    setBLEUserStateToConnecting W
    return some (if ack then ackMessage else nakMessage)

/-- `RUD`: unlock the door. -/
def commandRUD (c : Tok) (cmd userIp : CStr) : M (Option CStr) :=
  commandDoor W (unlockLock W) c cmd userIp

/-- `RLD`: lock the door. -/
def commandRLD (c : Tok) (cmd userIp : CStr) : M (Option CStr) :=
  commandDoor W (lockLock W) c cmd userIp

/-- The call of `create_invite` and the reply built from what it returns,
whose length is taken before it is compared with `NULL`. -/
def inviteResponse (code : CStr) (r : InviteRequest) : M CStr := do
  let inviteId ← createInvite W (← getDefaultExpirationTimestamp W) r
  let inviteId ← deref inviteId
  sprintf (4 + inviteId.length + 1) (code ++ lit " " ++ inviteId)

/-- The checks `RNI` and `RUI` make before they ask for an invite. -/
def checkedInvite (code : CStr) (args : List CStr) (firstArgsN : Int) (userIp : CStr)
    (r : InviteRequest) : M CStr := do
  if ← verifyTimestampsAndNonce W args firstArgsN then
    if ← canUseLock W userIp then
      if ← canCreateInvite W userIp r.userType r.validFrom r.validUntil r.oneDay then
        inviteResponse W code r
      else return nakMessage
    else return nakMessage
  else return nakMessage

/-- The number of arguments an `RNI` is taken to have. -/
def rniArgs (cmd : CStr) : ℕ :=
  if strncmpEq (lit "RNI 0") cmd 5 then 4
  else if strncmpEq (lit "RNI 1") cmd 5 then 4
  else if strncmpEq (lit "RNI 2") cmd 5 then 6
  else if strncmpEq (lit "RNI 3") cmd 5 then 7
  else if strncmpEq (lit "RNI 4") cmd 5 then 5
  else 0

/-- The invite the arguments of an `RNI` ask for. -/
def rniRequest (args : List CStr) (userType : UserType) : M InviteRequest :=
  match userType with
  | UserType.tenant => do
    let validFrom := strtol (← argAt args 1)
    let validUntil := strtol (← argAt args 2)
    return ⟨userType, validFrom, validUntil, none, -1, none⟩
  | UserType.periodicUser => do
    let validFrom := strtol (← argAt args 1)
    let validUntil := strtol (← argAt args 2)
    let weekdaysStr ← argAt args 3
    return ⟨userType, validFrom, validUntil, some weekdaysStr, -1, none⟩
  | UserType.oneTimeUser => do
    let oneDay := strtol (← argAt args 1)
    return ⟨userType, -1, -1, none, oneDay, none⟩
  | _ => return ⟨userType, -1, -1, none, -1, none⟩

/-- `RNI`: a new invite. -/
def commandRNI (c : Tok) (cmd userIp : CStr) : M (Option CStr) := do
  let nArgs := rniArgs cmd
  match ← getArgs W cmd nArgs with
  | none => do
    freeCommand c
    return some nakMessage
  | some args => do
    -- `enum userType` is unsigned
    let userType : UserType := (strtol (← argAt args 0) % 2 ^ 32).toNat
    let request ← rniRequest args userType
    -- an unrecognised type has no arguments, and its stamps are at `args[-3]`
    let response ← checkedInvite W (lit "SNI") args (nArgs - 3) userIp request
    freeCommand c
    setBLEUserStateToConnecting W
    return some response

/-- The checks `RFI` makes before it asks for an invite. -/
def rfiResponse (args : List CStr) : M CStr := do
  if ← verifyTimestampsAndNonce W args 1 then
    inviteResponse W (lit "SFI") ⟨UserType.admin, -1, -1, none, -1, none⟩
  else return nakMessage

/-- `RFI`: the first invite. -/
def commandRFI (c : Tok) (cmd : CStr) : M (Option CStr) := do
  -- the cached status, before anything is read of the message
  if (← getRegistrationStatus W) ≠ registered then
    freeCommand c
    return some nakMessage
  match ← getArgs W cmd 4 with
  | none => do
    freeCommand c
    return some nakMessage
  | some args => do
    let response ← rfiResponse W args
    freeCommand c
    return some response

/-- The digits of the weekdays set, from `1`. -/
def weekdayDigits (weekdays : Vector Bool 7) : CStr :=
  (List.finRange 7).flatMap fun i => if weekdays[i] then dec (i + 1) else []

/-- The invite an `RUI` asks for: what is stored for the user. The string
of the weekdays is appended to what its block of eight bytes held. -/
def ruiRequest (auth : Authorization) (email : CStr) : M InviteRequest :=
  match auth.userType with
  | UserType.periodicUser => do
    let weekdaysStr ← sprintf 8 (W.freshString (← tick) ++ weekdayDigits auth.weekdays)
    return ⟨auth.userType, auth.validFromTs, auth.validUntilTs, some weekdaysStr, -1,
      some email⟩
  | UserType.tenant =>
    return ⟨auth.userType, auth.validFromTs, auth.validUntilTs, none, -1, some email⟩
  | UserType.oneTimeUser =>
    return ⟨auth.userType, -1, -1, none, auth.oneDayTs, some email⟩
  | _ => return ⟨auth.userType, -1, -1, none, -1, some email⟩

/-- `RUI`: an invite like the user's own. It returns `false`, a null
reply, where the user has no authorization. -/
def commandRUI (c : Tok) (cmd userIp : CStr) : M (Option CStr) := do
  match ← getArgs W cmd 4 with
  | none => do
    freeCommand c
    return some nakMessage
  | some args => do
    -- these three returns free nothing, and skip the reset
    if (← getUserState userIp) ≠ .authorized then return none
    match ← getPhoneId userIp with
    | none => return none
    | some phoneId =>
      match ← storedAuthorization W phoneId with
      | none => return none
      | some auth => do
        let request ← ruiRequest W auth (← argAt args 0)
        let response ← checkedInvite W (lit "SUI") args 1 userIp request
        freeCommand c
        setBLEUserStateToConnecting W
        return some response

/-- `send_notification`: the URL is built without room for its NUL. -/
def sendNotification (devid : CStr) : M Unit := do
  let baseUrl := lit "http://api.pushingbox.com/pushingbox?devid="
  let _ ← sprintf (baseUrl.length + devid.length) (baseUrl ++ devid)
  observe (.notification devid)

/-- The checks of `SNT`, and the notification. -/
def sntAck (args : List CStr) (userIp : CStr) : M Bool := do
  if ← verifyTimestampsAndNonce W args 1 then
    if (← getUserState userIp) = .authorized then
      sendNotification (← argAt args 0)
      return true
    else return false
  else return false

/-- `SNT`: a notification. -/
def commandSNT (c : Tok) (cmd userIp : CStr) : M (Option CStr) := do
  match ← getArgs W cmd 4 with
  | none => do
    freeCommand c
    return some nakMessage
  | some args => do
    let ack ← sntAck W args userIp
    freeCommand c
    return some (if ack then ackMessage else nakMessage)

/-- The checks of `RDS`, and its reply. -/
def rdsResponse (args : List CStr) (userIp : CStr) : M CStr := do
  if ← verifyTimestampsAndNonce W args 0 then
    if (← getUserState userIp) = .authorized then
      -- an error code of the flash driver is printed like a state
      let lockState ← getLockState W
      sprintf 6 (lit "SDS " ++ decInt lockState)
    else return nakMessage
  else return nakMessage

/-- `RDS`: the state of the door. -/
def commandRDS (c : Tok) (cmd userIp : CStr) : M (Option CStr) := do
  match ← getArgs W cmd 3 with
  | none => do
    freeCommand c
    -- here alone the reset is made for a message that is too short
    setBLEUserStateToConnecting W
    return some nakMessage
  | some args => do
    let response ← rdsResponse W args userIp
    freeCommand c
    setBLEUserStateToConnecting W
    return some response

/-- `checkCommand`. A second test for `RLD`, after the first, is never
reached. -/
def checkCommand (cmd userIp : CStr) : M (Option CStr) := do
  let c ← deref (getCommand cmd)
  if c.word = lit "SAC" then commandSAC W c cmd userIp
  else if c.word = lit "RUD" then commandRUD W c cmd userIp
  else if c.word = lit "RLD" then commandRLD W c cmd userIp
  else if c.word = lit "RNI" then commandRNI W c cmd userIp
  else if c.word = lit "RFI" then commandRFI W c cmd
  else if c.word = lit "RUI" then commandRUI W c cmd userIp
  else if c.word = lit "SNT" then commandSNT W c cmd userIp
  else if c.word = lit "RDS" then commandRDS W c cmd userIp
  else do
    -- `c` is not freed
    setBLEUserStateToConnecting W
    return some nakMessage

end SmartLock
