import SmartLock.Common.Ledger
import SmartLock.Model.Nvs

/-!
# `nvs_util.c`, with its handles

All functions of `nvs_util.c`, each with the handle it was given. A handle
is the number of handles given before it. The driver's calls are those of
the store the lock runs on; what is added to it here is `saved_wifi` and the
ledger of the handles.
-/

namespace SmartLock

namespace Nvs

variable (W : World)

/-- The fields of `wifi_config_t` that are set. -/
structure WifiConfig where
  ssid : Vector UInt8 32
  password : Vector UInt8 64
  deriving DecidableEq, Repr

/-- The flash store, with the lock it belongs to. -/
structure NvsSys where
  sys : Sys
  /-- `saved_wifi` under `saved_params`. -/
  savedWifi : Option WifiConfig
  ledger : Ledger

/-- A program of the lock. -/
def onLock {α : Type} (m : M α) : Prog NvsSys Fault α :=
  Prog.zoom NvsSys.sys (fun sys n => { n with sys := sys }) m

/-! ## The flash driver -/

/-- A call of the flash driver that changes the store by `f` where it
succeeds. -/
def nvsCall (f : NvsSys → NvsSys) : Prog NvsSys Fault Int := do
  match W.nvsError (← onLock tick) with
  | some e => return e.code
  | none => do
    Prog.modify f
    return espOk

/-- `nvs_flash_erase`. -/
def nvsFlashErase : Prog NvsSys Fault Int := do
  let err ← onLock (SmartLock.nvsFlashErase W)
  if err = espOk then Prog.modify fun n => { n with savedWifi := none }
  return err

/-- `nvs_get_blob` of `saved_wifi`: the error, and the blob where there is
none. -/
def nvsGetSavedWifi : Prog NvsSys Fault (Int × Option WifiConfig) := do
  match W.nvsError (← onLock tick) with
  | some e => return (e.code, none)
  | none => do
    let n ← Prog.get
    match n.savedWifi with
    | none => return (espErrNvsNotFound, none)
    | some wifiConfig => return (espOk, some wifiConfig)

/-- `nvs_erase_key`: whether the key is there, and what erasing it does. -/
def nvsEraseKey (stored : NvsSys → Bool) (erase : NvsSys → NvsSys) : Prog NvsSys Fault Int := do
  match W.nvsError (← onLock tick) with
  | some e => return e.code
  | none => do
    let n ← Prog.get
    if stored n then do
      Prog.modify erase
      return espOk
    else return espErrNvsNotFound

/-! ## Opening the store -/

/-- `init_nvs`. -/
def initNvs : Prog NvsSys Fault Int := do
  let err ← nvsCall W id
  if err = espErrNvsNoFreePages ∨ err = espErrNvsNewVersionFound then do
    let erased ← nvsFlashErase W
    onLock (espErrorCheck erased)
    let err ← nvsCall W id
    onLock (espErrorCheck err)
    return err
  else do
    onLock (espErrorCheck err)
    return err

/-- `open_nvs`: the error, and `my_handle`. -/
def openNvs : Prog NvsSys Fault (Int × ℕ) := do
  let n ← Prog.get
  let err ← onLock (SmartLock.openNvs W)
  if err = espOk then Prog.modify fun n => { n with ledger := n.ledger.give }
  return (err, n.ledger.given)

/-- `nvs_close`. -/
def nvsClose (myHandle : ℕ) : Prog NvsSys Fault Unit := do
  onLock SmartLock.nvsClose
  Prog.modify fun n => { n with ledger := n.ledger.close myHandle }

/-- `init_nvs` and `open_nvs`, as every function below begins. -/
def initAndOpen : Prog NvsSys Fault (Int × ℕ) := do
  let err ← initNvs W
  if err ≠ espOk then do
    let n ← Prog.get
    return (err, n.ledger.given)
  else openNvs W

/-! ## The functions -/

/-- Reading a blob: its length, and then the blob. `read` is `nvs_get_blob`;
`kept` is what the caller's block held, and `left` what it holds after an
error of the second call. -/
def nvsLoad {β : Type} (read : Prog NvsSys Fault (Int × Option β)) (kept left : Option β) :
    Prog NvsSys Fault (Int × Option β) := do
  let (err, _) ← initAndOpen W
  if err ≠ espOk then return (err, kept)
  -- on no path from here is the handle closed
  let (err, blob) ← read
  if err ≠ espOk ∧ err ≠ espErrNvsNotFound then return (err, kept)
  if blob = none then return (err, kept)
  let (err, blob) ← read
  if err ≠ espOk then return (err, left)
  return (err, blob)

/-- A call that writes, `nvs_commit` and `nvs_close`, once the store is
open. -/
def nvsStore (write : Prog NvsSys Fault Int) : Prog NvsSys Fault Int := do
  let (err, myHandle) ← initAndOpen W
  if err ≠ espOk then return err
  let err ← write
  -- here and below the handle is left open
  if err ≠ espOk then return err
  let err ← nvsCall W id
  if err ≠ espOk then return err
  nvsClose myHandle
  return err

/-- `get_authorization`: `free(auth)` frees the caller's block. -/
def getAuthorization (phoneId : CStr) (auth : Authorization) :
    Prog NvsSys Fault (Int × Option Authorization) :=
  nvsLoad W (onLock (nvsGetBlob W phoneId)) (some auth) none

/-- `set_authorization`. -/
def setAuthorization (auth : Authorization) : Prog NvsSys Fault Int :=
  nvsStore W (onLock (nvsSetBlob W auth.phone auth))

/-- An authorization erased. -/
def NvsSys.eraseAuthorization (phoneId : CStr) (n : NvsSys) : NvsSys :=
  { n with sys.authorizations := Function.update n.sys.authorizations phoneId none }

/-- `delete_authorization`. -/
def deleteAuthorization (phoneId : CStr) : Prog NvsSys Fault Int :=
  nvsStore W (nvsEraseKey W (fun n => (n.sys.authorizations phoneId).isSome)
    (NvsSys.eraseAuthorization phoneId))

/-- `get_saved_wifi`. -/
def getSavedWifi (wifiConfig : WifiConfig) : Prog NvsSys Fault (Int × Option WifiConfig) :=
  nvsLoad W (nvsGetSavedWifi W) (some wifiConfig) (some wifiConfig)

/-- `set_saved_wifi`. -/
def setSavedWifi (wifiConfig : WifiConfig) : Prog NvsSys Fault Int :=
  nvsStore W (nvsCall W fun n => { n with savedWifi := some wifiConfig })

/-- `delete_saved_wifi`. -/
def deleteSavedWifi : Prog NvsSys Fault Int :=
  nvsStore W (nvsEraseKey W (fun n => n.savedWifi.isSome) fun n => { n with savedWifi := none })

/-- `set_lock_state`. -/
def setLockState (lockState : Int) : Prog NvsSys Fault Int :=
  nvsStore W (onLock (SmartLock.nvsCall W fun s => { s with lockState := some lockState }))

/-- `lock_lock`. -/
def lockLock : Prog NvsSys Fault Unit := do
  let _ ← setLockState W locked
  onLock (observe .lockLock)

/-- `get_lock_state`: the handle is not closed, and where no state is stored
`lock_lock` opens another. -/
def getLockState : Prog NvsSys Fault Int := do
  let (err, _) ← initAndOpen W
  if err ≠ espOk then return err
  let (err, lockState) ← onLock (nvsGetLockState W)
  if err = espErrNvsNotFound then do
    lockLock W
    return locked
  else return lockState

/-- The calls of `nvs_util.c`. -/
inductive NvsCall
  | getAuthorization (phoneId : CStr) (auth : Authorization)
  | setAuthorization (auth : Authorization)
  | deleteAuthorization (phoneId : CStr)
  | getSavedWifi (wifiConfig : WifiConfig)
  | setSavedWifi (wifiConfig : WifiConfig)
  | deleteSavedWifi
  | getLockState
  | setLockState (lockState : Int)
  deriving DecidableEq, Repr

/-- A program, whose result is dropped. -/
def discard {α : Type} (m : Prog NvsSys Fault α) : Prog NvsSys Fault Unit := do
  let _ ← m
  return ()

/-- One call. -/
def serve : NvsCall → Prog NvsSys Fault Unit
  | .getAuthorization phoneId auth => discard (getAuthorization W phoneId auth)
  | .setAuthorization auth => discard (setAuthorization W auth)
  | .deleteAuthorization phoneId => discard (deleteAuthorization W phoneId)
  | .getSavedWifi wifiConfig => discard (getSavedWifi W wifiConfig)
  | .setSavedWifi wifiConfig => discard (setSavedWifi W wifiConfig)
  | .deleteSavedWifi => discard (deleteSavedWifi W)
  | .getLockState => discard (getLockState W)
  | .setLockState lockState => discard (setLockState W lockState)

/-- A blob. -/
inductive NvsValue
  | authorization (auth : Authorization)
  | wifi (wifiConfig : WifiConfig)
  deriving DecidableEq, Repr

/-- What a call returns, and what the caller's block then holds. -/
structure NvsResult where
  err : Int
  block : Option NvsValue
  deriving DecidableEq, Repr

/-- One call, with its result. -/
def answer : NvsCall → Prog NvsSys Fault NvsResult
  | .getAuthorization phoneId auth => do
    let r ← getAuthorization W phoneId auth
    return ⟨r.1, r.2.map .authorization⟩
  | .setAuthorization auth => do return ⟨← setAuthorization W auth, none⟩
  | .deleteAuthorization phoneId => do return ⟨← deleteAuthorization W phoneId, none⟩
  | .getSavedWifi wifiConfig => do
    let r ← getSavedWifi W wifiConfig
    return ⟨r.1, r.2.map .wifi⟩
  | .setSavedWifi wifiConfig => do return ⟨← setSavedWifi W wifiConfig, none⟩
  | .deleteSavedWifi => do return ⟨← deleteSavedWifi W, none⟩
  -- `get_lock_state` returns the state, or the error in its place
  | .getLockState => do return ⟨← getLockState W, none⟩
  | .setLockState lockState => do return ⟨← setLockState W lockState, none⟩

end Nvs

end SmartLock
