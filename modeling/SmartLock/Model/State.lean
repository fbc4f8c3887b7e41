import SmartLock.Common.Prog
import SmartLock.Common.CString
import Mathlib.Logic.Function.Basic

/-!
# The state of the lock, and what lies outside it

`Sys` gathers the globals of the program: the session table, the nonce
list, the cached registration status, the flash store, and the state of
the two BLE servers and of the TCP server. It also carries `log`, the
observations made so far, newest first, which no function of the program
reads; the properties of runs are about it.

`World` is what the program asks of the outside: the clock, random draws,
the flash driver, RSA, AES, HMAC, the answers of the server, and what
freshly allocated memory happens to hold. An answer that may differ from
call to call is indexed by `moment`, which every such call advances.
-/

namespace SmartLock

/-! ## Session table -/

/-- `user_state_t`, in its order of permissions. -/
inductive UserState
  | disconnected
  | connecting
  | connected
  | authorized
  deriving DecidableEq, Repr

/-- The number of a state. -/
def UserState.num : UserState → ℕ
  | disconnected => 0
  | connecting => 1
  | connected => 2
  | authorized => 3

/-- `esp_aes_context`, as far as it decides what is encrypted. -/
structure AESContext where
  key : Vector UInt8 32
  deriving DecidableEq, Repr

/-- `user_info_hash_t`. The seed is `none` where the pointer was never
assigned. -/
structure UserInfo where
  userIp : CStr
  phoneId : CStr
  state : UserState
  seed : Option (Vector UInt8 10)
  aesCtx : AESContext
  deriving DecidableEq, Repr

/-- `nonce_t`, the link to the next node being the place in the list. -/
structure Nonce where
  nonce : Int
  expires : Int
  deriving DecidableEq, Repr

/-! ## Authorizations -/

/-- `enum userType`, an unsigned number of which five values have names. -/
abbrev UserType := ℕ

namespace UserType

@[match_pattern] abbrev admin : UserType := 0
@[match_pattern] abbrev owner : UserType := 1
@[match_pattern] abbrev tenant : UserType := 2
@[match_pattern] abbrev periodicUser : UserType := 3
@[match_pattern] abbrev oneTimeUser : UserType := 4

end UserType

/-- `authorization`. `phone_id` is the raw buffer. -/
structure Authorization where
  phoneId : Vector UInt8 16
  userType : UserType
  masterKey : Vector UInt8 32
  weekdays : Vector Bool 7
  validFromTs : Int
  validUntilTs : Int
  oneDayTs : Int
  deriving DecidableEq, Repr

/-- An invite, as `create_invite` is asked for it, but for the expiration
of the invite itself. -/
structure InviteRequest where
  userType : UserType
  validFrom : Int
  validUntil : Int
  weekdaysStr : Option CStr
  oneDay : Int
  emailLocked : Option CStr
  deriving DecidableEq, Repr

/-! ## The outside -/

/-- `CONFIG_IDF_TARGET`: the chip decides which BLE server is built. -/
inductive Target
  | esp32s2
  | esp32s3
  deriving DecidableEq, Repr

/-- `ESP_OK`. -/
def espOk : Int := 0

/-- `ESP_ERR_NVS_NOT_FOUND`. -/
def espErrNvsNotFound : Int := 0x1102

/-- `ESP_ERR_NVS_NO_FREE_PAGES`. -/
def espErrNvsNoFreePages : Int := 0x110d

/-- `ESP_ERR_NVS_NEW_VERSION_FOUND`. -/
def espErrNvsNewVersionFound : Int := 0x1110

/-- An error of the flash driver: neither success nor the answer for a
key that is not stored. -/
structure NvsError where
  code : Int
  ne_ok : code ≠ espOk
  ne_notFound : code ≠ espErrNvsNotFound

/-- The outcome of an HTTP request: `esp_http_client_perform` failed, or
it gave a body, parsed. -/
inductive HttpReply (α : Type)
  | failed
  | body (content : α)

/-- What `cJSON` finds in the answer to `/request-authorization`; a
missing string is `none`. -/
structure AuthData where
  success : Bool
  phoneId : Option CStr
  type : UserType
  masterKeyEncryptedLock : Option CStr
  weekdays : List Int
  validFrom : Int
  validUntil : Int
  oneDay : Int

/-- The values of the JSON objects the lock posts. -/
inductive Json
  | string (text : CStr)
  | number (value : Int)
  deriving DecidableEq, Repr

/-- What `cJSON` finds in the answer to `/register-invite`. -/
structure InviteData where
  success : Bool
  inviteID : Option CStr

/-- The outside of the program. -/
structure World where
  target : Target
  /-- `esp_read_mac`. -/
  mac : Vector UInt8 6
  /-- The clock, at each moment it is read. -/
  clock : ℕ → Int
  /-- `localtime_r`, midnight, `mktime`. -/
  localDay : Int → Int
  /-- `tm_wday`. -/
  localWeekday : Int → Fin 7
  /-- `esp_fill_random`. -/
  fillRandom : ℕ → (n : ℕ) → Vector UInt8 n
  /-- `esp_random`. -/
  random : ℕ → UInt32
  /-- The bytes found past the end of a heap block, or in a block nothing
  was written to. -/
  heap : ℕ → ℕ → UInt8
  /-- The string a block nothing was written to happens to hold. -/
  freshString : ℕ → CStr
  /-- An `int` that was never assigned. -/
  junkInt : ℕ → Int
  /-- Whether `malloc(0)` returns a block. -/
  mallocZero : Bool
  /-- Whether a store into a string literal goes through. -/
  literalsWritable : Bool
  /-- An allocated record, before it is written. -/
  freshUser : ℕ → UserInfo
  freshAuthorization : ℕ → Authorization
  /-- The error a call of the flash driver meets, if any. -/
  nvsError : ℕ → Option NvsError
  /-- RSA-OAEP decryption of a block of 256 bytes with the lock's key. -/
  rsaDecrypt : List UInt8 → Option (List UInt8)
  /-- `esp_aes_crypt_cbc`, on whole blocks. -/
  aesEncrypt : AESContext → Vector UInt8 16 → List UInt8 → List UInt8
  aesDecrypt : AESContext → Vector UInt8 16 → List UInt8 → List UInt8
  aesEncrypt_length : ∀ ctx iv data, (aesEncrypt ctx iv data).length = data.length
  aesDecrypt_length : ∀ ctx iv data, (aesDecrypt ctx iv data).length = data.length
  /-- HMAC-SHA256 of a seed. -/
  hmac : Vector UInt8 32 → Vector UInt8 10 → Vector UInt8 32
  /-- Whether the HMAC computation fails. -/
  hmacFails : ℕ → Bool
  /-- The answers of the server. -/
  authReply : ℕ → CStr → HttpReply AuthData
  inviteReply : ℕ → List (CStr × Json) → HttpReply InviteData
  /-- Whether the server answers a request for the registration status. -/
  statusAnswered : ℕ → Bool

/-- An outside where nothing happens: the clock stands, the flash driver
never fails, the server never answers, and encryption is the identity. -/
def World.still (target : Target) (now : Int) : World where
  target := target
  mac := Vector.replicate 6 0
  clock := fun _ => now
  localDay := id
  localWeekday := fun _ => 0
  fillRandom := fun _ n => Vector.replicate n 0
  random := fun _ => 0
  heap := fun _ _ => 0
  freshString := fun _ => []
  junkInt := fun _ => 0
  mallocZero := false
  literalsWritable := true
  freshUser := fun _ => ⟨[], [], .disconnected, none, ⟨Vector.replicate 32 0⟩⟩
  freshAuthorization := fun _ =>
    ⟨Vector.replicate 16 0, 0, Vector.replicate 32 0, Vector.replicate 7 false, 0, 0, 0⟩
  nvsError := fun _ => none
  rsaDecrypt := some
  aesEncrypt := fun _ _ data => data
  aesDecrypt := fun _ _ data => data
  aesEncrypt_length := fun _ _ _ => rfl
  aesDecrypt_length := fun _ _ _ => rfl
  hmac := fun _ _ => Vector.replicate 32 0
  hmacFails := fun _ => false
  authReply := fun _ _ => .failed
  inviteReply := fun _ _ => .failed
  statusAnswered := fun _ => false

/-! ## Observations -/

/-- What a run of the program can be observed to do. -/
inductive Obs
  /-- A connection from `addr` begins, on either transport. -/
  | connect (addr : CStr)
  /-- A connection of `addr` ends. -/
  | disconnect (addr : CStr)
  /-- `close` of an accepted socket. -/
  | close
  /-- A message of `addr` is handled. -/
  | message (addr : CStr)
  /-- A message of `addr` is taken for session credentials. -/
  | tryCredentials (addr : CStr)
  /-- Session credentials of `addr` are accepted and set this context. -/
  | credentials (addr : CStr) (ctx : AESContext)
  /-- A seed is drawn for `addr`. -/
  | seed (addr : CStr) (bytes : Vector UInt8 10)
  /-- The store or the server returned this master key for `phone`. -/
  | masterKey (phone : CStr) (key : Vector UInt8 32)
  /-- A SAC of `addr` is accepted for `phone`. -/
  | sac (addr phone code : CStr)
  /-- A message of `addr` is decrypted. -/
  | decrypt (addr : CStr) (ctx : AESContext)
  /-- `checkCommand` is called, for `addr`. -/
  | command (addr cmd : CStr)
  /-- `canUseLock` consults what is stored under `phone`. -/
  | consult (phone : CStr)
  | unlockLock
  | lockLock
  | createInvite (expiration : Int) (request : InviteRequest)
  | notification (devid : CStr)
  /-- The reply `text` goes out to `addr` as `sent`: with timestamps and a
  nonce, and encrypted under `ctx`. -/
  | reply (addr : CStr) (ctx : AESContext) (text sent : CStr)
  /-- The flash store is erased. -/
  | nvsErased
  /-- `lock_state` is read from the flash store. -/
  | lockStateRead (value : Option Int)
  /-- A string of `written` bytes is built in a block of `allocated`. -/
  | overrun (allocated written : ℕ)
  /-- The UART module is sent an unencrypted text. -/
  | uartText (text : CStr)
  /-- The BLE client is sent an unencrypted text. -/
  | bleText (text : CStr)
  /-- The BLE stack is asked to end the connection. -/
  | gapDisconnect
  deriving DecidableEq, Repr

/-! ## The state -/

/-- The globals of the program, the flash store, the status the server
would report, and the observations so far. -/
structure Sys where
  /-- `users_info`, in the order the records were added. -/
  usersInfo : List UserInfo
  /-- `current_BLE_addr`. -/
  currentBLEAddr : CStr
  /-- The nonce list from `head`. -/
  head : List Nonce
  /-- `registration_status`, the cache. -/
  registrationStatus : Int
  /-- What the registration server would report. -/
  serverStatus : Int
  /-- The blobs stored under `authorizations`. -/
  authorizations : CStr → Option Authorization
  /-- `lock_state` under `saved_params`. -/
  lockState : Option Int
  /-- Handles of the flash store not yet closed. -/
  openHandles : ℕ
  /-- `isConnected` of `wifi_connect_util.c`. -/
  wifiConnected : Bool
  /-- Whether the deep-sleep timer is armed. -/
  deepSleepArmed : Bool
  /-- `addr_str`. -/
  addrStr : CStr
  /-- `do_retransmit` is serving an accepted socket. -/
  serving : Bool
  /-- `ble_user_addr`. -/
  bleUserAddr : CStr
  /-- `is_connected`. -/
  isConnected : Bool
  /-- `server_online`. -/
  serverOnline : Bool
  /-- `got_first_invite_session_key_s3`. -/
  gotFirstInviteSessionKeyS3 : Bool
  /-- `got_first_invite_session_key`. -/
  gotFirstInviteSessionKey : Bool
  /-- The buffer of `echo_task`. -/
  data : CStr
  /-- The literal `"LOK"` of `echo_task`, which `sendData` appends to. -/
  lokLiteral : CStr
  moment : ℕ
  log : List Obs

/-- A state with empty tables, an empty store and nothing observed. -/
def Sys.initial : Sys where
  usersInfo := []
  currentBLEAddr := []
  head := []
  registrationStatus := -1
  serverStatus := -1
  authorizations := fun _ => none
  lockState := none
  openHandles := 0
  wifiConnected := false
  deepSleepArmed := false
  addrStr := []
  serving := false
  bleUserAddr := []
  isConnected := false
  serverOnline := false
  gotFirstInviteSessionKeyS3 := false
  gotFirstInviteSessionKey := false
  data := []
  lokLiteral := lit "LOK"
  moment := 0
  log := []

/-- Why a run stops. -/
inductive Fault
  /-- A null pointer is dereferenced or passed to a string function. -/
  | nullDeref
  /-- `free` of a pointer `malloc` did not return. -/
  | badFree
  /-- An element outside an array is used. -/
  | outOfBounds
  /-- A store reaches past its object into other data. -/
  | overflow
  /-- A pointer that was never assigned is dereferenced. -/
  | uninitialised
  /-- A block is used after it was freed. -/
  | useAfterFree
  /-- `exit`, or a failed `ESP_ERROR_CHECK`. -/
  | abort
  deriving DecidableEq, Repr

/-- The programs of the lock. -/
abbrev M := Prog Sys Fault

/-- One more observation. -/
def Sys.noted (o : Obs) (s : Sys) : Sys := { s with log := o :: s.log }

/-- The next moment. -/
def Sys.ticked (s : Sys) : Sys := { s with moment := s.moment + 1 }

/-- Note an observation. -/
def observe (o : Obs) : M Unit := Prog.modify (Sys.noted o)

/-- The present moment, which passes. -/
def tick : M ℕ := do
  let s ← Prog.get
  Prog.modify Sys.ticked
  return s.moment

@[simp] theorem run_observe (o : Obs) (s : Sys) : (observe o).run s = (.ok (), s.noted o) := rfl

@[simp] theorem run_tick (s : Sys) : tick.run s = (.ok s.moment, s.ticked) := rfl

@[simp] theorem run_tick_bind {α : Type} (f : ℕ → M α) (s : Sys) :
    (tick >>= f).run s = (f s.moment).run s.ticked := rfl

@[simp] theorem run_observe_bind {α : Type} (o : Obs) (f : Unit → M α) (s : Sys) :
    (observe o >>= f).run s = (f ()).run (s.noted o) := rfl

/-- Note an observation where `c` holds. -/
def observeIf (c : Prop) [Decidable c] (o : Obs) : M Unit := if c then observe o else pure ()

/-- A use that goes wrong where `c` holds. -/
def faultIf (c : Prop) [Decidable c] (e : Fault) : M Unit := if c then Prog.fail e else pure ()

theorem run_faultIf_of_not {c : Prop} [Decidable c] (h : ¬ c) (e : Fault) (s : Sys) :
    (faultIf c e).run s = (.ok (), s) := by
  rw [faultIf, if_neg h]
  rfl

/-- What is guarded went well exactly if nothing was wrong. -/
theorem faultIf_ok {c : Prop} [Decidable c] {e : Fault} {s s' : Sys} {u : Unit} :
    (faultIf c e).run s = (.ok u, s') ↔ ¬ c ∧ s' = s := by
  by_cases h : c
  · rw [faultIf, if_pos h]
    simp [h]
  · rw [run_faultIf_of_not h]
    simp [h, eq_comm]

/-- `sprintf` into a block of `allocated` bytes. -/
def sprintf (allocated : ℕ) (text : CStr) : M CStr := do
  observeIf (allocated < text.length + 1) (.overrun allocated (text.length + 1))
  return text

/-- What a `sprintf` is observed to do. -/
def overruns (allocated : ℕ) (text : CStr) : List Obs :=
  if allocated < text.length + 1 then [.overrun allocated (text.length + 1)] else []

theorem mem_overruns {allocated : ℕ} {text : CStr} {o : Obs} :
    o ∈ overruns allocated text ↔
      allocated < text.length + 1 ∧ o = .overrun allocated (text.length + 1) := by
  rw [overruns]
  split <;> simp [*]

theorem run_sprintf (allocated : ℕ) (text : CStr) (s : Sys) :
    (sprintf allocated text).run s =
      (.ok text, { s with log := overruns allocated text ++ s.log }) := by
  by_cases h : allocated < text.length + 1
  · rw [sprintf, observeIf, overruns, if_pos h, if_pos h]
    rfl
  · rw [sprintf, observeIf, overruns, if_neg h, if_neg h]
    rfl

end SmartLock
