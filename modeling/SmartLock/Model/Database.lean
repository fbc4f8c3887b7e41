import SmartLock.Model.Nonce
import SmartLock.Model.Nvs
import SmartLock.Model.UserInfo

/-!
# `database_util.c`, `authorization.c` and `utils.c`

The requests to the server, the check of an authorization code, the
session credentials and the cached registration status.
-/

namespace SmartLock

variable (W : World)

/-- `sprintf(mac, "%02x:%02x:%02x:%02x:%02x:%02x", ...)`. -/
def macText (mac : Vector UInt8 6) : CStr :=
  hexByte mac[0] ++ lit ":" ++ hexByte mac[1] ++ lit ":" ++ hexByte mac[2] ++ lit ":" ++
    hexByte mac[3] ++ lit ":" ++ hexByte mac[4] ++ lit ":" ++ hexByte mac[5]

/-! ## Invites -/

/-- The object `create_invite` signs and posts. -/
def inviteJson (expiration : Int) (r : InviteRequest) : List (CStr × Json) :=
  [(lit "smart_lock_MAC", .string (macText W.mac)), (lit "expiration", .number expiration)] ++
  (match r.emailLocked with
    | none => []
    | some email => [(lit "email_locked", .string email)]) ++
  [(lit "type", .number r.userType)] ++
  (if r.validFrom ≠ -1 then [(lit "valid_from", .number r.validFrom)] else []) ++
  -- `valid_from` is what is tested here too
  (if r.validFrom ≠ -1 then [(lit "valid_until", .number r.validUntil)] else []) ++
  (match r.weekdaysStr with
    | none => []
    | some str => [(lit "weekdays_str", .string str)]) ++
  (if r.oneDay ≠ -1 then [(lit "one_day", .number r.oneDay)] else [])

/-- `create_invite`: `none` where the server registered no invite. -/
def createInvite (expiration : Int) (r : InviteRequest) : M (Option CStr) := do
  observe (.createInvite expiration r)
  match W.inviteReply (← tick) (inviteJson W expiration r) with
  | .failed => return none
  | .body d => return if d.success then d.inviteID else none

/-! ## Authorizations of the server -/

/-- `strcpy` into `char phone_id[16]`, of a string that fits. -/
def strcpyPhone (buf : Vector UInt8 16) (str : CStr) : Vector UInt8 16 :=
  Vector.ofFn fun i => if i < str.length then str.getD i 0 else if i = str.length then 0 else buf[i]

/-- The first bytes of a block replaced. -/
def memcpyKey (buf : Vector UInt8 32) (src : List UInt8) : Vector UInt8 32 :=
  Vector.ofFn fun i => src.getD i buf[i]

/-- Byte `k` of a 32-bit word set to one. -/
def pokeWord (x k : ℕ) : ℕ := x - x / 256 ^ k % 256 * 256 ^ k + 256 ^ k

/-- Byte `k` of an `int` set to one. -/
def pokeInt (z : Int) (k : ℕ) : Int := wrap32 (pokeWord (z % 2 ^ 32).toNat k)

/-- `auth->weekdays[index] = true`, for any index: `weekdays` is at offset
52 of the 72 bytes of an `authorization`, behind `phone_id`, `user_type`
and `master_key`, and before a byte of padding and three `int`s. -/
def Authorization.storeWeekday (auth : Authorization) (index : Int) : Option Authorization :=
  let off := (index + 52).toNat
  if index + 52 < 0 then none
  else if h : off < 16 then some { auth with phoneId := auth.phoneId.set off 1 }
  else if off < 20 then some { auth with userType := pokeWord auth.userType (off - 16) }
  else if h : off < 52 then some { auth with masterKey := auth.masterKey.set (off - 20) 1 }
  else if h : off < 59 then some { auth with weekdays := auth.weekdays.set (off - 52) true }
  else if off < 60 then some auth
  else if off < 64 then some { auth with validFromTs := pokeInt auth.validFromTs (off - 60) }
  else if off < 68 then some { auth with validUntilTs := pokeInt auth.validUntilTs (off - 64) }
  else if off < 72 then some { auth with oneDayTs := pokeInt auth.oneDayTs (off - 68) }
  else none

/-- The loop over the weekdays of the answer. -/
def storeWeekdays (auth : Authorization) : List Int → Option Authorization
  | [] => some auth
  | day :: days =>
    match auth.storeWeekday (day - 1) with
    | none => none
    | some auth => storeWeekdays auth days

/-- The fields the answer gives for its kind of user. -/
def fillValidity (d : AuthData) (auth : Authorization) : Option Authorization :=
  let interval (a : Authorization) : Authorization :=
    { a with validFromTs := d.validFrom, validUntilTs := d.validUntil }
  match auth.userType with
  | UserType.periodicUser =>
    (storeWeekdays { auth with weekdays := Vector.replicate 7 false } d.weekdays).map interval
  | UserType.tenant => some (interval auth)
  | UserType.oneTimeUser => some { auth with oneDayTs := d.oneDay }
  | _ => some auth

/-- `ESP_FAIL`. -/
def espFail : Int := -1

/-- `ERR_ARG`. -/
def errArg : Int := -16

/-- `get_authorization_db`: the error, and the caller's block. -/
def getAuthorizationDb (phoneId : CStr) (auth : Authorization) : M (Int × Authorization) := do
  match W.authReply (← tick) phoneId with
  | .failed => return (espFail, auth)
  | .body d => do
    if ¬ d.success then return (errArg, auth)
    -- the strings of the answer are not checked for being there
    let phone ← deref d.phoneId
    faultIf (phone.length ≥ 16) .overflow
    let masterKeyBase64 ← decryptBase64RSA W (← deref d.masterKeyEncryptedLock)
    let masterKey ← deref (base64Decode masterKeyBase64)
    faultIf (masterKey.length > 32) .overflow
    let auth := { auth with
      phoneId := strcpyPhone auth.phoneId phone
      userType := d.type
      masterKey := memcpyKey auth.masterKey masterKey }
    match fillValidity d auth with
    | none => Prog.fail .overflow
    | some auth => do
      let err ← setAuthorization W auth
      return (err, auth)

/-- The authorization `check_authorization_code` works with, from the
store or else from the server. -/
def findAuthorization (phoneId : CStr) : M (Option Authorization) := do
  let (err, auth) ← getAuthorization W phoneId (W.freshAuthorization (← tick))
  match auth with
  -- `get_authorization` freed the block that is written to next
  | none => Prog.fail .useAfterFree
  | some auth => do
    if err = espOk then return some auth
    let (err, auth) ← getAuthorizationDb W phoneId auth
    return if err = espOk then some auth else none

/-- `check_authorization_code`. -/
def checkAuthorizationCode (phoneId authCodeBase64 : CStr) (seed : Option (Vector UInt8 10)) :
    M Bool := do
  match ← findAuthorization W phoneId with
  | none => return false
  | some auth => do
    observe (.masterKey phoneId auth.masterKey)
    match ← genHmac32 W auth.masterKey seed with
    | none => return false
    | some hmac => do
      let hmacBase64 ← deref (base64Encode hmac.toList)
      return hmacBase64 == authCodeBase64

/-! ## Registration status -/

/-- `UNKNOWN_STATUS`. -/
def unknownStatus : Int := -1

/-- `REGISTERED`. -/
def registered : Int := 1

/-- `get_registration_status_server`. -/
def getRegistrationStatusServer : M Int := do
  let t ← tick
  let s ← Prog.get
  return if W.statusAnswered t then s.serverStatus else unknownStatus

/-- `get_registration_status`. -/
def getRegistrationStatus : M Int := do
  let s ← Prog.get
  if s.registrationStatus = unknownStatus then
    let status ← getRegistrationStatusServer W
    Prog.modify fun s => { s with registrationStatus := status }
    return status
  else return s.registrationStatus

/-- `force_get_registration_status`. -/
def forceGetRegistrationStatus : M Int := do
  Prog.modify fun s => { s with registrationStatus := unknownStatus }
  getRegistrationStatus W

/-- `getDefaultExpirationTimestamp`. -/
def getDefaultExpirationTimestamp : M Int := do
  return wrap32 ((← getNowTimestamp W) + 3600)

/-! ## Session credentials -/

/-- `retrieve_session_credentials`. -/
def retrieveSessionCredentials (credEnc userAddr : CStr) : M Bool := do
  observe (.tryCredentials userAddr)
  let cred ← decryptBase64RSA W credEnc
  let pt ← deref (strtok sep cred)
  if pt.word ≠ lit "SSC" then return false
  -- `strlen` is given what `strtok` returned
  let pt ← deref (strtok sep pt.rest)
  let aes ← initAES W (base64Decode pt.word)
  setAESCtx W userAddr aes
  setUserState W userAddr .connected []
  observe (.credentials userAddr aes)
  return true

end SmartLock
