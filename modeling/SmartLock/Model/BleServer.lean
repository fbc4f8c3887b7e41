import SmartLock.Model.BleS3Server

/-!
# `ble_server.c`

The BLE server of the chips without a radio, which talk to a BLE module
over a UART. The module announces a connection and its end in the same
stream as the messages, so that `echo_task` takes all of its input from
one buffer.
-/

namespace SmartLock

variable (W : World)

/-- `ble_user`. -/
def bleUser : CStr := lit "BLE_USER"

/-- `sendATCmd`. -/
def sendATCmd (atCmd : CStr) : M Unit := observe (.uartText atCmd)

/-- `sendData` of a reply: `EOT` is appended in its block. -/
def sendData (allocated : ℕ) (data : CStr) (sent : CStr → Obs) : M Unit := do
  observe (sent (← sprintf allocated (data ++ [4])))

/-- `sendData("LOK")`, which appends to the literal itself, an array of
four bytes. -/
def sendLOK : M Unit := do
  faultIf (¬ W.literalsWritable) .overflow
  let s ← Prog.get
  let text ← sprintf 4 (s.lokLiteral ++ [4])
  Prog.modify fun s => { s with lokLiteral := text }
  observe (.uartText text)

/-- `init`. -/
def bleInit : M Unit := setUserState W bleUser .disconnected []

/-- `disconnect`. -/
def disconnectBle : M Unit := do
  setUserState W bleUser .disconnected []
  sendATCmd (lit "AT+DISC\r\n")

/-- The first-invite mode of `echo_task`. -/
def firstInvite : CStr → CStr → M (Option Response) :=
  firstInviteResponse W Sys.gotFirstInviteSessionKey
    fun b s => { s with gotFirstInviteSessionKey := b }

/-- A line of the BLE module itself. -/
def handleATCmd (data : CStr) : M Unit := do
  if strncmpEq (lit "+CONNECTED") data 10 then
    observe (.connect bleUser)
    setUserState W bleUser .connecting []
    cancelDeepSleepTimer
    setCurrentBLEAddr bleUser
  -- thirteen bytes of eleven and a NUL: the line is `+DISCONNECT` and no more
  else if strncmpEq (lit "+DISCONNECT") data 13 then
    setUserState W bleUser .disconnected []
    setCurrentBLEAddr []
    startDeepSleepTimer
    observe (.disconnect bleUser)

/-- A base64 text that starts with `+` is sent with `-` in its place. -/
def restorePlus : CStr → CStr
  | 45 :: t => 43 :: t
  | data => data

/-- What a message of the BLE client is answered with. -/
def bleResponse (data : CStr) : M (Option Response) := do
  if (← getRegistrationStatus W) = registered then firstInvite W bleUser data
  else sessionResponse W bleUser data

/-- The buffer of `echo_task`. -/
def setData (data : CStr) : M Unit := Prog.modify fun s => { s with data := data }

/-- A message of the BLE client. Where it was decrypted, `strtok` has cut
the buffer it stood in. -/
def handleBleMessage (data : CStr) : M Unit := do
  observe (.message bleUser)
  let _ ← getUserAESCtx bleUser
  match ← bleResponse W data with
  | none => disconnectBle W
  | some r => do
    setData (if r.decrypted then strtokResidue data else data)
    let responseEnc ← sealResponse W r.aes r.response
    let text ← deref r.response
    sendData responseEnc.length responseEnc (.reply bleUser r.aes text)

/-- One turn of the loop of `echo_task`, to which the UART has these
bytes to give. -/
def echoTask (received : List UInt8) : M Unit := do
  let s ← Prog.get
  -- `continue` without a read: at the next turn the buffer is the same
  if s.data = lit "PNG" then sendLOK W
  else if s.wifiConnected ∧ received ≠ [] then
    let data := cstr received
    if strncmpEq (lit "AT+") data 3 ∨ strncmpEq (lit "+") data 1 then
      setData data
      handleATCmd W data
    else
      let data := restorePlus data
      setData data
      handleBleMessage W data

end SmartLock
