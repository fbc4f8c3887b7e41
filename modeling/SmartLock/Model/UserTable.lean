import SmartLock.Model.UserInfo
import SmartLock.Model.UTHash

/-!
# `user_info.c`, in memory

The session table as it is built: records in blocks of their own, put into
the hash table of `uthash.h` under the first four bytes of their address,
and written through the pointers it finds. The rest of the lock is as it is
elsewhere, and the table there is not looked at.
-/

namespace SmartLock

/-- The blocks that hold records. From `top` on none is in use. -/
structure Records where
  block : ℕ → Option UserInfo
  top : ℕ
  free : ∀ a, top ≤ a → block a = none

/-- A record is written into a block. -/
def Records.store (m : Records) (a : ℕ) (r : UserInfo) : Records where
  block := Function.update m.block a (some r)
  top := max m.top (a + 1)
  free b hb := by
    rw [Function.update_of_ne (by omega)]
    exact m.free b (by omega)

/-- The hash `users_info` and the records, beside the rest of the lock. -/
structure UserSys where
  sys : Sys
  usersInfo : UTHash
  records : Records

/-- Before the first call. -/
def UserSys.boot (s : Sys) : UserSys := ⟨s, .empty, fun _ => none, 0, fun _ _ => rfl⟩

/-- Turns enough for the loops of the macros. -/
def UserSys.turns (t : UserSys) : ℕ := t.usersInfo.count.getD 0 + 2

namespace UserTable

/-- A program of the rest of the lock. -/
def onLock {α : Type} (m : M α) : Prog UserSys Fault α :=
  Prog.zoom UserSys.sys (fun s t => { t with sys := s }) m

variable (W : World) (malloc : UserSys → Option ℕ)

/-- `HASH_FIND_INT(users_info, user_ip, user_info)`. -/
def hashFindInt (userIp : CStr) : Prog UserSys Fault (Option ℕ) := do
  let t ← Prog.get
  match t.usersInfo.find t.turns (hashKey userIp) with
  | none => Prog.fail .nullDeref
  | some userInfo => return userInfo

/-- `HASH_ADD_INT(users_info, user_ip, user_info)`, of a record with this
address. -/
def hashAddInt (userInfo : ℕ) (userIp : CStr) : Prog UserSys Fault Unit := do
  let t ← Prog.get
  match t.usersInfo.add t.turns true userInfo (hashKey userIp) with
  | none => Prog.fail .nullDeref
  | some usersInfo => Prog.modify fun t => { t with usersInfo := usersInfo }

/-- The record a pointer leads to. -/
def readRecord (userInfo : Option ℕ) : Prog UserSys Fault UserInfo := do
  let t ← Prog.get
  match userInfo.bind t.records.block with
  | none => Prog.fail .nullDeref
  | some r => return r

/-- A store into the record a pointer leads to. -/
def writeRecord (userInfo : ℕ) (f : UserInfo → UserInfo) : Prog UserSys Fault Unit := do
  let r ← readRecord (some userInfo)
  Prog.modify fun t => { t with records := t.records.store userInfo (f r) }

/-- A block is made this record, which `strcpy` gives its address, and is
added. -/
def addRecord (userInfo : ℕ) (r : UserInfo) : Prog UserSys Fault Unit := do
  onLock (faultIf (r.userIp.length ≥ 45) .overflow)
  Prog.modify fun t => { t with records := t.records.store userInfo r }
  hashAddInt userInfo r.userIp

/-- The record of an address, added where none is found. -/
def findOrAdd (userIp : CStr) : Prog UserSys Fault ℕ := do
  match ← hashFindInt userIp with
  | some userInfo => return userInfo
  | none => do
    let moment ← onLock tick
    let t ← Prog.get
    match malloc t with
    | none => Prog.fail .nullDeref
    | some userInfo => do
      addRecord userInfo { W.freshUser moment with userIp := userIp }
      return userInfo

/-! ## Setters -/

/-- `set_user_state`. -/
def setUserState (userIp : CStr) (state : UserState) (phoneId : CStr) :
    Prog UserSys Fault Unit := do
  let userInfo ← findOrAdd W malloc userIp
  writeRecord userInfo fun r => { r with state := state }
  onLock (faultIf (phoneId.length ≥ 16) .overflow)
  writeRecord userInfo fun r => { r with phoneId := phoneId }

/-- `generate_random_seed`. -/
def generateRandomSeed (userIp : CStr) : Prog UserSys Fault (Vector UInt8 10) := do
  let userInfo ← findOrAdd W malloc userIp
  let moment ← onLock tick
  let seed := W.fillRandom moment 10
  writeRecord userInfo fun r => { r with seed := some seed }
  onLock (observe (.seed userIp seed))
  return seed

/-- `set_AES_ctx`. -/
def setAESCtx (userIp : CStr) (ctx : AESContext) : Prog UserSys Fault Unit := do
  let userInfo ← findOrAdd W malloc userIp
  writeRecord userInfo fun r => { r with aesCtx := ctx }

/-- `get_user_info`. -/
def getUserInfo (userIp : CStr) : Prog UserSys Fault (Option ℕ) := hashFindInt userIp

/-- `set_BLE_user_state_to_connecting`. -/
def setBLEUserStateToConnecting : Prog UserSys Fault Unit := do
  let t ← Prog.get
  if t.sys.currentBLEAddr = [] then return ()
  else
    match ← getUserInfo t.sys.currentBLEAddr with
    | none => return ()
    | some _ => setUserState W malloc t.sys.currentBLEAddr .connecting []

/-- `set_current_BLE_addr`. -/
def setCurrentBLEAddr (addr : CStr) : Prog UserSys Fault Unit :=
  onLock (SmartLock.setCurrentBLEAddr addr)

/-! ## Getters -/

/-- `get_user_state`. -/
def getUserState (userIp : CStr) : Prog UserSys Fault UserState := do
  let userInfo ← hashFindInt userIp
  return (← readRecord userInfo).state

/-- `get_phone_id`. -/
def getPhoneId (userIp : CStr) : Prog UserSys Fault (Option CStr) := do
  let userInfo ← hashFindInt userIp
  let r ← readRecord userInfo
  return if r.phoneId.length ≠ 0 then some r.phoneId else none

/-- `get_user_seed`. -/
def getUserSeed (userIp : CStr) : Prog UserSys Fault (Option (Vector UInt8 10)) := do
  let userInfo ← hashFindInt userIp
  return (← readRecord userInfo).seed

/-- `get_user_AES_ctx`. -/
def getUserAESCtx (userIp : CStr) : Prog UserSys Fault AESContext := do
  let userInfo ← hashFindInt userIp
  return (← readRecord userInfo).aesCtx

/-- `get_current_BLE_addr`. -/
def getCurrentBLEAddr : Prog UserSys Fault CStr := do
  let t ← Prog.get
  return t.sys.currentBLEAddr

/-! ## Delete -/

/-- `delete_user`, of the record a pointer leads to. -/
def deleteUser (userInfo : Option ℕ) : Prog UserSys Fault Unit := do
  let t ← Prog.get
  match userInfo.bind fun userInfo => t.usersInfo.delete userInfo with
  | none => Prog.fail .nullDeref
  | some usersInfo => Prog.modify fun t => { t with usersInfo := usersInfo }

end UserTable

/-! ## Calls -/

/-- A call of one of the functions, or what the rest of the lock does to the
rest of the state between two of them. A record is deleted by the pointer
that `get_user_info` finds. -/
inductive UserCall
  | setUserState (userIp : CStr) (state : UserState) (phoneId : CStr)
  | generateRandomSeed (userIp : CStr)
  | setAESCtx (userIp : CStr) (ctx : AESContext)
  | setBLEUserStateToConnecting
  | setCurrentBLEAddr (addr : CStr)
  | getUserInfo (userIp : CStr)
  | getUserState (userIp : CStr)
  | getPhoneId (userIp : CStr)
  | getUserSeed (userIp : CStr)
  | getUserAESCtx (userIp : CStr)
  | getCurrentBLEAddr
  | deleteUser (userIp : CStr)
  | elsewhere (rest : Sys)

/-- What a call returns. -/
inductive UserResult
  | void
  | info (r : Option UserInfo)
  | state (state : UserState)
  | phoneId (phoneId : Option CStr)
  | seed (seed : Option (Vector UInt8 10))
  | ctx (ctx : AESContext)
  | addr (addr : CStr)
  deriving DecidableEq, Repr

/-- `delete_user`, over a list of records. -/
def deleteUser (userIp : CStr) : M Unit := do
  let s ← Prog.get
  match s.user userIp with
  | none => Prog.fail .nullDeref
  | some _ =>
    Prog.modify fun s =>
      { s with usersInfo := s.usersInfo.filter fun r => r.key ≠ hashKey userIp }

namespace UserCall

variable (W : World) (malloc : UserSys → Option ℕ)

/-- A call, in memory. What `get_user_info` points to is looked at. -/
def inMemory : UserCall → Prog UserSys Fault UserResult
  | setUserState userIp state phoneId => do
    UserTable.setUserState W malloc userIp state phoneId
    return .void
  | generateRandomSeed userIp => do
    let seed ← UserTable.generateRandomSeed W malloc userIp
    return .seed (some seed)
  | setAESCtx userIp ctx => do
    UserTable.setAESCtx W malloc userIp ctx
    return .void
  | setBLEUserStateToConnecting => do
    UserTable.setBLEUserStateToConnecting W malloc
    return .void
  | setCurrentBLEAddr addr => do
    UserTable.setCurrentBLEAddr addr
    return .void
  | getUserInfo userIp => do
    let userInfo ← UserTable.getUserInfo userIp
    let t ← Prog.get
    return .info (userInfo.bind t.records.block)
  | getUserState userIp => do
    let state ← UserTable.getUserState userIp
    return .state state
  | getPhoneId userIp => do
    let phoneId ← UserTable.getPhoneId userIp
    return .phoneId phoneId
  | getUserSeed userIp => do
    let seed ← UserTable.getUserSeed userIp
    return .seed seed
  | getUserAESCtx userIp => do
    let ctx ← UserTable.getUserAESCtx userIp
    return .ctx ctx
  | getCurrentBLEAddr => do
    let addr ← UserTable.getCurrentBLEAddr
    return .addr addr
  | deleteUser userIp => do
    let userInfo ← UserTable.getUserInfo userIp
    UserTable.deleteUser userInfo
    return .void
  | elsewhere rest => do
    Prog.modify fun t => { t with sys := rest }
    return .void

/-- A call, over a list of records. -/
def onList : UserCall → M UserResult
  | setUserState userIp state phoneId => do
    SmartLock.setUserState W userIp state phoneId
    return .void
  | generateRandomSeed userIp => do
    let seed ← SmartLock.generateRandomSeed W userIp
    return .seed (some seed)
  | setAESCtx userIp ctx => do
    SmartLock.setAESCtx W userIp ctx
    return .void
  | setBLEUserStateToConnecting => do
    SmartLock.setBLEUserStateToConnecting W
    return .void
  | setCurrentBLEAddr addr => do
    SmartLock.setCurrentBLEAddr addr
    return .void
  | getUserInfo userIp => do
    let userInfo ← SmartLock.getUserInfo userIp
    return .info userInfo
  | getUserState userIp => do
    let state ← SmartLock.getUserState userIp
    return .state state
  | getPhoneId userIp => do
    let phoneId ← SmartLock.getPhoneId userIp
    return .phoneId phoneId
  | getUserSeed userIp => do
    let seed ← SmartLock.getUserSeed userIp
    return .seed seed
  | getUserAESCtx userIp => do
    let ctx ← SmartLock.getUserAESCtx userIp
    return .ctx ctx
  | getCurrentBLEAddr => do
    let s ← Prog.get
    return .addr s.currentBLEAddr
  | deleteUser userIp => do
    SmartLock.deleteUser userIp
    return .void
  | elsewhere rest => do
    Prog.modify fun s => { rest with usersInfo := s.usersInfo }
    return .void

end UserCall

end SmartLock
