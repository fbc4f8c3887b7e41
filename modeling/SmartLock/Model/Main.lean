import SmartLock.Model.System

/-!
# `main.c`

The program around its servers: what `app_main` does once they run, and the
deep sleep the timer brings, from which the program starts anew with what
the flash store holds. The tasks of the servers go on in between, so these
are events beside those of the servers, in any order.
-/

namespace SmartLock

variable (W : World)

/-- What can happen to the program. -/
inductive MainEvent
  /-- Something happens to a server. -/
  | server (e : Event)
  /-- `server_online` is set, and a BLE client of the S3 is told. -/
  | online
  /-- `init_led_lock_state`. -/
  | initLedLockState
  /-- The last line of `app_main`. -/
  | startTimer
  /-- `deep_sleep_timer_callback`. -/
  | deepSleep
  deriving DecidableEq, Repr

/-- `COMPLETE`. -/
def complete : Int := 2

/-- `server_online` is set, once in a start, and `send_data_ble_s3("LOK")`
appends to the literal, an array of four bytes, if a client is connected.
Behind a sleep none is, and `ble_s3_main` is called in its place. -/
def goOnline : M Unit := do
  Prog.modify fun s => { s with serverOnline := true }
  let s ← Prog.get
  faultIf (s.isConnected ∧ ¬ W.literalsWritable) .overflow
  sendDataBleS3 4 (lit "LOK") .bleText

/-- The timer is started at once where the lock is registered for good. -/
def startTimerIfComplete : M Unit := do
  if (← getRegistrationStatus W) = complete then startDeepSleepTimer

/-- What is left of the program behind a deep sleep: the flash store. -/
def Sys.restarted (s : Sys) : Sys :=
  { Sys.initial with
    serverStatus := s.serverStatus
    authorizations := s.authorizations
    lockState := s.lockState
    moment := s.moment
    log := s.log }

/-- `deep_sleep_timer_callback`, and `app_main` from there, up to where the
servers run. -/
def deepSleepTimerCallback : M Unit := do
  Prog.modify Sys.restarted
  -- `nvs_flash_init`
  espErrorCheck (← nvsCall W id)
  if W.target = .esp32s2 then bleInit W

/-- Whether an event can occur: a start goes on line once, and the timer
fires while it is armed. -/
def MainEvent.enabled : MainEvent → Sys → Bool
  | online, s => W.target == .esp32s3 && !s.serverOnline
  | deepSleep, s => s.deepSleepArmed
  | _, _ => true

/-- What the program does at an event. -/
def mainHandle : MainEvent → M Unit
  | .server e => step W e
  | .online => goOnline W
  | .initLedLockState => SmartLock.initLedLockState W
  | .startTimer => startTimerIfComplete W
  | .deepSleep => deepSleepTimerCallback W

/-- One event of the program. -/
def mainStep (e : MainEvent) : M Unit := do
  let s ← Prog.get
  if e.enabled W s then mainHandle W e

/-- A run of the program. -/
def mainRun (es : List MainEvent) : M Unit := Prog.exec (mainStep W) es

end SmartLock
