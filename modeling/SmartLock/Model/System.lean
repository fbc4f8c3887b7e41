import SmartLock.Model.BleServer

/-!
# The servers of the lock

The events the tasks of the lock react to, each handled in one piece, and
the runs they make. An event that cannot occur in a state, such as a
message on a connection that is not there, does nothing. These are the runs
of one start; what `app_main` does besides, and the deep sleep that ends a
start, are in `Model.Main`.
-/

namespace SmartLock

variable (W : World)

/-- What can happen to the servers. -/
inductive Event
  /-- The accept loop gets a connection from this address. -/
  | tcpAccept (ip : Vector UInt8 4)
  /-- `recv` gets bytes of the connection served. -/
  | tcpRecv (received : List UInt8)
  /-- `recv` reports the end of the connection, or an error. -/
  | tcpClose
  | bleConnect (remoteBda : Vector UInt8 6)
  | bleDisconnect
  /-- A value is written to the data characteristic. -/
  | bleWrite (value : List UInt8)
  /-- The loop of `echo_task` makes a turn, with these bytes to read. -/
  | uart (received : List UInt8)
  /-- The registration status on the server changes. -/
  | serverStatus (status : Int)
  /-- The start of the lock asks for the registration status. -/
  | initRsaKey
  /-- `setWifiConnected`. -/
  | setWifiConnected (connected : Bool)
  /-- `server_online` is set: of what `app_main` then does, all that the
  servers read. -/
  | serverOnline
  deriving DecidableEq, Repr

/-- The size of `rx_buffer`. -/
def rxBufferSize : ℕ := 512

/-- Whether an event can occur: TCP serves one connection at a time, the
BLE stack has one connection at a time, and the chip decides which of the
two BLE servers runs. -/
def Event.enabled : Event → Sys → Bool
  | tcpAccept _, s => !s.serving
  | tcpRecv received, s => s.serving && received.length != 0 && received.length < rxBufferSize
  | tcpClose, s => s.serving
  | bleConnect _, s => W.target == .esp32s3 && !s.isConnected
  | bleDisconnect, s => W.target == .esp32s3 && s.isConnected
  | bleWrite _, s => W.target == .esp32s3 && s.isConnected
  | uart _, _ => W.target == .esp32s2
  | _, _ => true

/-- `NOT_REGISTERED`. -/
def notRegistered : Int := 0

/-- `init_rsa_key`, as far as the registration status goes. -/
def initRsaKey : M Unit := do
  if (← getRegistrationStatus W) = notRegistered then
    let _ ← forceGetRegistrationStatus W

/-- `init_led_lock_state`, at the end of a start: the state the store tells
of is stored again. -/
def initLedLockState : M Unit := do
  let lockState ← getLockState W
  if lockState = locked then lockLock W
  else if lockState = unlocked then unlockLock W

/-- What the servers do at an event. -/
def handle : Event → M Unit
  | .tcpAccept ip => tcpAccept W ip
  | .tcpRecv received => doRetransmit W received
  | .tcpClose => tcpEnd
  | .bleConnect remoteBda => gattsConnect W remoteBda
  | .bleDisconnect => gattsDisconnect W
  | .bleWrite value => processNormalData W (cstr value)
  | .uart received => echoTask W received
  | .serverStatus status => Prog.modify fun s => { s with serverStatus := status }
  | .initRsaKey => initRsaKey W
  | .setWifiConnected connected => Prog.modify fun s => { s with wifiConnected := connected }
  | .serverOnline => Prog.modify fun s => { s with serverOnline := true }

/-- One event. -/
def step (e : Event) : M Unit := do
  let s ← Prog.get
  if e.enabled W s then handle W e

/-- A run: the events of a list, in order, until one faults. -/
def run (es : List Event) : M Unit := Prog.exec (step W) es

/-- The state the servers start from. What the flash store and the server
hold is anything. -/
structure Boot (s : Sys) : Prop where
  /-- `ble_main` has added the record of `ble_user`. -/
  usersInfo : ∀ r ∈ s.usersInfo,
    W.target = .esp32s2 ∧ r.userIp = bleUser ∧ r.state = .disconnected ∧ r.phoneId = []
  currentBLEAddr : s.currentBLEAddr = []
  head : s.head = []
  registrationStatus : s.registrationStatus = unknownStatus
  serving : s.serving = false
  isConnected : s.isConnected = false
  gotFirstInviteSessionKeyS3 : s.gotFirstInviteSessionKeyS3 = false
  gotFirstInviteSessionKey : s.gotFirstInviteSessionKey = false
  log : s.log = []

end SmartLock
