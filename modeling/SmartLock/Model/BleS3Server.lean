import SmartLock.Model.TcpServer

/-!
# `ble_s3_server.c`

The BLE server of the chips with a radio of their own. The stack reports
a connection, its end, and each value written to the data characteristic;
`process_normal_data` handles such a value.
-/

namespace SmartLock

variable (W : World)

/-- `send_data_ble_s3`, but for cutting the data to the size of a packet:
`EOT` is appended in the caller's buffer, of `allocated` bytes. -/
def sendDataBleS3 (allocated : ℕ) (data : CStr) (sent : CStr → Obs) : M Unit := do
  let s ← Prog.get
  if s.isConnected then
    observe (sent (← sprintf allocated (data ++ [4])))

/-- `disconnect_ble_s3`. -/
def disconnectBleS3 : M Unit := observe .gapDisconnect

/-- What the BLE servers do with a message while the lock awaits its
first invite: a flag tells the credentials from the command. -/
def firstInviteResponse (flag : Sys → Bool) (setFlag : Bool → Sys → Sys) (addr data : CStr) :
    M (Option Response) := do
  let s ← Prog.get
  -- the state of the session is not asked for
  if flag s then
    Prog.modify (setFlag false)
    return some (← commandResponse W addr data)
  else if ← retrieveSessionCredentials W data addr then
    let aes ← getUserAESCtx addr
    Prog.modify (setFlag true)
    return some ⟨false, aes, some ackMessage⟩
  else return none

/-- The first-invite mode of `process_normal_data`. -/
def firstInviteS3 : CStr → CStr → M (Option Response) :=
  firstInviteResponse W Sys.gotFirstInviteSessionKeyS3
    fun b s => { s with gotFirstInviteSessionKeyS3 := b }

/-- The test for first-invite mode: the cache is trusted only to say
no. -/
def awaitsFirstInviteS3 : M Bool := do
  if (← getRegistrationStatus W) = registered then
    return (← forceGetRegistrationStatus W) == registered
  else return false

/-- `response_enc`, on its way to the client. -/
def replyBleS3 (addr : CStr) (r : Response) : M Unit := do
  let responseEnc ← sealResponse W r.aes r.response
  let text ← deref r.response
  sendDataBleS3 responseEnc.length responseEnc (.reply addr r.aes text)

/-- `process_normal_data`. -/
def processNormalData (data : CStr) : M Unit := do
  let s ← Prog.get
  if data = lit "PNG" then
    sendDataBleS3 4 (if s.serverOnline then lit "LOK" else lit "LNO") .bleText
  else if s.wifiConnected then
    observe (.message s.bleUserAddr)
    if ← awaitsFirstInviteS3 W then
      match ← firstInviteS3 W s.bleUserAddr data with
      | none => disconnectBleS3
      | some r => do
        replyBleS3 W s.bleUserAddr r
        -- the command may have been the `RFI` that changes the status
        let _ ← forceGetRegistrationStatus W
    else
      match ← sessionResponse W s.bleUserAddr data with
      | none => disconnectBleS3
      | some r => replyBleS3 W s.bleUserAddr r

/-- `ESP_GATTS_CONNECT_EVT`. -/
def gattsConnect (remoteBda : Vector UInt8 6) : M Unit := do
  let addr := macText remoteBda
  Prog.modify fun s => { s with isConnected := true }
  cancelDeepSleepTimer
  Prog.modify fun s => { s with bleUserAddr := addr }
  observe (.connect addr)
  -- the flag of the first-invite mode stays as the last client left it
  setCurrentBLEAddr addr
  setUserState W addr .connecting []

/-- `ESP_GATTS_DISCONNECT_EVT`. -/
def gattsDisconnect : M Unit := do
  let s ← Prog.get
  Prog.modify fun s => { s with isConnected := false }
  startDeepSleepTimer
  setCurrentBLEAddr []
  setUserState W s.bleUserAddr .disconnected []
  observe (.disconnect s.bleUserAddr)

end SmartLock
