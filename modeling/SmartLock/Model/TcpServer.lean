import SmartLock.Model.Handler

/-!
# `tcp_server.c` and `power_util.c`

The TCP server, which serves one connection at a time: what `accept`
does, one turn of the loop of `do_retransmit`, and the end of a
connection. What a server answers to a message of a session is the same
on every transport and stands here once.
-/

namespace SmartLock

variable (W : World)

/-! ## Deep sleep -/

/-- `cancel_deep_sleep_timer`. -/
def cancelDeepSleepTimer : M Unit := Prog.modify fun s => { s with deepSleepArmed := false }

/-- `start_deep_sleep_timer`. -/
def startDeepSleepTimer : M Unit := Prog.modify fun s => { s with deepSleepArmed := true }

/-! ## A message of a session -/

/-- What a message is answered with. -/
structure Response where
  /-- The message was decrypted, as a command. -/
  decrypted : Bool
  /-- The context the answer is encrypted under. -/
  aes : AESContext
  response : Option CStr

/-- Accepted credentials are answered with a fresh seed. -/
def racResponse (addr : CStr) : M CStr := do
  let authSeed ← generateRandomSeed W addr
  let seedBase64 ← deref (base64Encode authSeed.toList)
  sprintf (5 + seedBase64.length) (lit "RAC " ++ seedBase64)

/-- A command is decrypted under the context of its session and
dispatched. -/
def commandResponse (addr data : CStr) : M Response := do
  let aes ← getUserAESCtx addr
  observe (.decrypt addr aes)
  let cmd ← decryptBase64AES W aes data
  observe (.command addr cmd)
  let response ← checkCommand W cmd addr
  return ⟨true, aes, response⟩

/-- What a message is answered with in the state its session is in;
`none` where the server disconnects instead. -/
def sessionResponse (addr data : CStr) : M (Option Response) := do
  let state ← getUserState addr
  if state = .connecting then
    -- whatever comes is taken for credentials
    if ← retrieveSessionCredentials W data addr then
      let response ← racResponse W addr
      let aes ← getUserAESCtx addr
      return some ⟨false, aes, some response⟩
    else return none
  -- the order of permissions: connected, or authorized
  else if UserState.connected.num ≤ state.num then
    return some (← commandResponse W addr data)
  else return none

/-- A response with its timestamps and nonce, encrypted. -/
def sealResponse (aes : AESContext) (response : Option CStr) : M CStr := do
  let responseTs ← addTimestampsAndNonceToMsg W response
  encryptStrAES W aes responseTs

/-! ## The connection -/

/-- `inet_ntoa_r`. -/
def inetNtoa (ip : Vector UInt8 4) : CStr :=
  dec ip[0].toNat ++ lit "." ++ dec ip[1].toNat ++ lit "." ++ dec ip[2].toNat ++ lit "." ++
    dec ip[3].toNat

/-- The accept loop, up to the call of `do_retransmit`. -/
def tcpAccept (ip : Vector UInt8 4) : M Unit := do
  let addrStr := inetNtoa ip
  Prog.modify fun s => { s with addrStr := addrStr, serving := true }
  observe (.connect addrStr)
  cancelDeepSleepTimer
  setUserState W addrStr .connecting []

/-- The accept loop, behind the call of `do_retransmit`. -/
def tcpEnd : M Unit := do
  let s ← Prog.get
  startDeepSleepTimer
  observe .close
  observe (.disconnect s.addrStr)
  Prog.modify fun s => { s with serving := false }

/-- `disconnect_sock`. -/
def disconnectSock : M Unit := do
  let s ← Prog.get
  setUserState W s.addrStr .disconnected []
  -- `free_AES` of the context
  let _ ← getUserAESCtx s.addrStr
  observe .close
  startDeepSleepTimer

/-- The loop of `do_retransmit` on received bytes, which it reads as a
string. The loop of `send` in it is taken as one step that ends: which
sockets make it end is in `Transport.Send`. -/
def doRetransmit (received : List UInt8) : M Unit := do
  let s ← Prog.get
  observe (.message s.addrStr)
  match ← sessionResponse W s.addrStr (cstr received) with
  | none => do
    -- the accept loop, returned to, ends the connection once more
    disconnectSock W
    tcpEnd
  | some r => do
    let responseEnc ← sealResponse W r.aes r.response
    let text ← deref r.response
    -- the loop of `send`, as far as it ends
    observe (.reply s.addrStr r.aes text responseEnc)
    if text = nakMessage then
      disconnectSock W
      tcpEnd

end SmartLock
