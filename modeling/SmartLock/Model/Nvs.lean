import SmartLock.Model.Crypto

/-!
# `nvs_util.c` and `lock_status.c`

The flash store: authorizations under the phone they belong to, and the
state of the door. Every call of the flash driver may fail. Where a call
fails after the store was opened, the functions return without closing it.
-/

namespace SmartLock

variable (W : World)

/-! ## The flash driver -/

/-- A call of the flash driver that changes the store by `f` where it
succeeds. -/
def nvsCall (f : Sys → Sys) : M Int := do
  match W.nvsError (← tick) with
  | some e => return e.code
  | none => do
    Prog.modify f
    return espOk

/-- `ESP_ERROR_CHECK`. -/
def espErrorCheck (err : Int) : M Unit :=
  if err = espOk then pure () else Prog.fail .abort

/-- `nvs_flash_erase`. -/
def nvsFlashErase : M Int := do
  let err ← nvsCall W fun s => { s with authorizations := fun _ => none, lockState := none }
  observeIf (err = espOk) .nvsErased
  return err

/-- The longest key, without its NUL: `NVS_KEY_NAME_MAX_SIZE` is 16. -/
def nvsKeyMax : ℕ := 15

/-- `ESP_ERR_NVS_INVALID_NAME`. -/
def espErrNvsInvalidName : Int := 0x1106

/-- `nvs_get_blob`: the error, and the blob where there is none. -/
def nvsGetBlob (key : CStr) : M (Int × Option Authorization) := do
  match W.nvsError (← tick) with
  | some e => return (e.code, none)
  | none => do
    let s ← Prog.get
    if nvsKeyMax < key.length then return (espErrNvsInvalidName, none)
    match s.authorizations key with
    | none => return (espErrNvsNotFound, none)
    | some auth => return (espOk, some auth)

/-- `ESP_ERR_NVS_KEY_TOO_LONG`. -/
def espErrNvsKeyTooLong : Int := 0x1109

/-- `nvs_set_blob`. -/
def nvsSetBlob (key : CStr) (auth : Authorization) : M Int :=
  if nvsKeyMax < key.length then return espErrNvsKeyTooLong
  else nvsCall W fun s =>
    { s with authorizations := Function.update s.authorizations key (some auth) }

/-- `nvs_get_i32` of `lock_state`: what an error leaves unwritten is what
the stack held. -/
def nvsGetLockState : M (Int × Int) := do
  let t ← tick
  let junk := W.junkInt t
  match W.nvsError t with
  | some e => return (e.code, junk)
  | none => do
    let s ← Prog.get
    observe (.lockStateRead s.lockState)
    match s.lockState with
    | none => return (espErrNvsNotFound, junk)
    | some v => return (espOk, v)

/-! ## Opening the store -/

/-- `init_nvs`. -/
def initNvs : M Int := do
  let err ← nvsCall W id
  if err = espErrNvsNoFreePages ∨ err = espErrNvsNewVersionFound then
    espErrorCheck (← nvsFlashErase W)
    let err ← nvsCall W id
    espErrorCheck err
    return err
  else
    espErrorCheck err
    return err

/-- `open_nvs`. -/
def openNvs : M Int :=
  nvsCall W fun s => { s with openHandles := s.openHandles + 1 }

/-- `nvs_close`. -/
def nvsClose : M Unit :=
  Prog.modify fun s => { s with openHandles := s.openHandles - 1 }

/-- `init_nvs` and `open_nvs`, as every function below begins. -/
def initAndOpen : M Int := do
  let err ← initNvs W
  if err ≠ espOk then return err
  openNvs W

/-! ## Authorizations -/

/-- `get_authorization`: the error, and what the caller's block then
holds; `none` is a block that was freed. -/
def getAuthorization (phoneId : CStr) (auth : Authorization) :
    M (Int × Option Authorization) := do
  let err ← initAndOpen W
  if err ≠ espOk then return (err, some auth)
  let (err, blob) ← nvsGetBlob W phoneId
  if err ≠ espOk ∧ err ≠ espErrNvsNotFound then return (err, some auth)
  -- `required_size` stays zero where nothing is stored
  if blob = none then return (err, some auth)
  let (err, blob) ← nvsGetBlob W phoneId
  -- `free(auth)`, of the caller's block
  if err ≠ espOk then return (err, none)
  return (err, blob)

/-- The string in `phone_id`. -/
def Authorization.phone (auth : Authorization) : CStr := cstr auth.phoneId.toList

/-- A store, `nvs_commit` and `nvs_close`, once the store is open. -/
def nvsStore (write : M Int) : M Int := do
  let err ← initAndOpen W
  if err ≠ espOk then return err
  let err ← write
  -- here and below the store is left open
  if err ≠ espOk then return err
  let err ← nvsCall W id
  if err ≠ espOk then return err
  nvsClose
  return err

/-- `set_authorization`. -/
def setAuthorization (auth : Authorization) : M Int :=
  nvsStore W (nvsSetBlob W auth.phone auth)

/-! ## The state of the door -/

/-- `locked`. -/
def locked : Int := 0

/-- `unlocked`. -/
def unlocked : Int := 1

/-- `set_lock_state`. -/
def setLockState (lockState : Int) : M Int :=
  nvsStore W (nvsCall W fun s => { s with lockState := some lockState })

/-- `lock_lock`. -/
def lockLock : M Unit := do
  -- the error is dropped
  let _ ← setLockState W locked
  observe .lockLock

/-- `unlock_lock`. -/
def unlockLock : M Unit := do
  let _ ← setLockState W unlocked
  observe .unlockLock

/-- `get_lock_state`: the errors of opening the store are returned as the
state. -/
def getLockState : M Int := do
  let err ← initAndOpen W
  if err ≠ espOk then return err
  let (err, lockState) ← nvsGetLockState W
  if err = espErrNvsNotFound then do
    lockLock W
    return locked
  -- on any other error, what the variable held
  else return lockState

end SmartLock
