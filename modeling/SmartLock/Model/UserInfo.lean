import SmartLock.Common.Keyed
import SmartLock.Model.State

/-!
# `user_info.c`

The session table. `HASH_FIND_INT` and `HASH_ADD_INT` are given the
address string where they expect an `int`: a record is added and found by
the first four bytes of its address.
-/

namespace SmartLock

variable (W : World)

/-- The bytes `HASH_FIND_INT` hashes and compares: `sizeof(int)` bytes at
the start of the address. -/
def hashKey (userIp : CStr) : List UInt8 := (userIp ++ [0, 0, 0, 0]).take 4

/-- The key of a record. -/
def UserInfo.key (r : UserInfo) : List UInt8 := hashKey r.userIp

/-- The record `HASH_FIND_INT` finds for an address. -/
def Sys.user (s : Sys) (userIp : CStr) : Option UserInfo :=
  Keyed.lookup UserInfo.key (hashKey userIp) s.usersInfo

/-- The table with one record more. -/
def Sys.addUser (r : UserInfo) (s : Sys) : Sys := { s with usersInfo := s.usersInfo ++ [r] }

/-- The table with the record of an address changed. -/
def Sys.updateUser (userIp : CStr) (f : UserInfo → UserInfo) (s : Sys) : Sys :=
  { s with usersInfo := Keyed.update UserInfo.key (hashKey userIp) f s.usersInfo }

/-- The record of an address, added by `HASH_ADD_INT` where none is found.
Its other fields are what the allocation held. -/
def findOrAdd (userIp : CStr) : M Unit := do
  let s ← Prog.get
  if s.user userIp = none then
    let t ← tick
    faultIf (userIp.length ≥ 45) .overflow
    Prog.modify (Sys.addUser { W.freshUser t with userIp := userIp })

/-- A store into the record of an address. -/
def writeUser (userIp : CStr) (f : UserInfo → UserInfo) : M Unit :=
  Prog.modify (Sys.updateUser userIp f)

@[simp] theorem run_writeUser_bind {α : Type} (userIp : CStr) (f : UserInfo → UserInfo)
    (k : Unit → M α) (s : Sys) :
    (writeUser userIp f >>= k).run s = (k ()).run (s.updateUser userIp f) := rfl

/-! ## Setters -/

/-- `set_user_state`. -/
def setUserState (userIp : CStr) (state : UserState) (phoneId : CStr) : M Unit := do
  findOrAdd W userIp
  writeUser userIp fun r => { r with state := state }
  -- `strcpy` into `char phone_id[16]`, in front of `state`
  faultIf (phoneId.length ≥ 16) .overflow
  writeUser userIp fun r => { r with phoneId := phoneId }

/-- `generate_random_seed`. -/
def generateRandomSeed (userIp : CStr) : M (Vector UInt8 10) := do
  findOrAdd W userIp
  let t ← tick
  let seed := W.fillRandom t 10
  writeUser userIp fun r => { r with seed := some seed }
  observe (.seed userIp seed)
  return seed

/-- `set_AES_ctx`. -/
def setAESCtx (userIp : CStr) (ctx : AESContext) : M Unit := do
  findOrAdd W userIp
  writeUser userIp fun r => { r with aesCtx := ctx }

/-- `get_user_info`. -/
def getUserInfo (userIp : CStr) : M (Option UserInfo) := do
  let s ← Prog.get
  return s.user userIp

/-- `set_BLE_user_state_to_connecting`. The record is compared with
`DISCONNECTED`, which is the null pointer: any record passes. -/
def setBLEUserStateToConnecting : M Unit := do
  let s ← Prog.get
  if s.currentBLEAddr ≠ [] ∧ s.user s.currentBLEAddr ≠ none then
    setUserState W s.currentBLEAddr .connecting []

/-- `set_current_BLE_addr`. -/
def setCurrentBLEAddr (addr : CStr) : M Unit := do
  -- `strcpy` into `char current_BLE_addr[18]`
  faultIf (addr.length ≥ 18) .overflow
  Prog.modify fun s => { s with currentBLEAddr := addr }

/-! ## Getters -/

/-- The record of an address, which the getters dereference unchecked. -/
def derefUser (userIp : CStr) : M UserInfo := do
  match (← Prog.get).user userIp with
  | none => Prog.fail .nullDeref
  | some r => return r

/-- `get_user_state`. -/
def getUserState (userIp : CStr) : M UserState := do
  return (← derefUser userIp).state

/-- `get_phone_id`: `NULL` where the stored id is empty. -/
def getPhoneId (userIp : CStr) : M (Option CStr) := do
  let r ← derefUser userIp
  return if r.phoneId.length ≠ 0 then some r.phoneId else none

/-- `get_user_seed`. -/
def getUserSeed (userIp : CStr) : M (Option (Vector UInt8 10)) := do
  return (← derefUser userIp).seed

/-- `get_user_AES_ctx`. -/
def getUserAESCtx (userIp : CStr) : M AESContext := do
  return (← derefUser userIp).aesCtx

end SmartLock
