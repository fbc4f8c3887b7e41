import SmartLock.Model.System

/-!
# `wifi_connect_util.c`

The connection to the access point: the handler of the Wi-Fi events, the
wait for its first outcome, and the flag the BLE servers ask. The flag is
set where the wait ends, and the handler does not touch it.
-/

namespace SmartLock

variable (W : World)

/-- `EXAMPLE_ESP_MAXIMUM_RETRY`. -/
def maximumRetry : Int := 5

/-- The events of `WIFI_EVENT` and `IP_EVENT`, as the handler tells them
apart. -/
inductive WifiEvent
  | staStart
  | staDisconnected
  | gotIp
  | other
  deriving DecidableEq, Repr

/-- What can be observed: an event, whoever handles it, and a call of the
handler. -/
inductive WifiObs
  | came (e : WifiEvent)
  | espWifiConnect
  deriving DecidableEq, Repr

/-- The globals of `wifi_connect_util.c`, with the lock they belong to,
and the observations so far, newest first. -/
structure WifiSys where
  /-- `isConnected` is `wifiConnected` of it. -/
  sys : Sys
  /-- `s_retry_num`. -/
  sRetryNum : Int
  /-- `WIFI_CONNECTED_BIT` of `s_wifi_event_group`. -/
  connectedBit : Bool
  /-- `WIFI_FAIL_BIT`. -/
  failBit : Bool
  /-- The handler is registered. -/
  registered : Bool
  wifiLog : List WifiObs

/-- One more observation. -/
def WifiSys.observed (o : WifiObs) (s : WifiSys) : WifiSys := { s with wifiLog := o :: s.wifiLog }

/-- `isWifiConnected`. -/
def WifiSys.isWifiConnected (s : WifiSys) : Bool := s.sys.wifiConnected

/-- `event_handler`. -/
def wifiEventHandler (e : WifiEvent) (s : WifiSys) : WifiSys :=
  match e with
  | .staStart => s.observed .espWifiConnect
  | .staDisconnected =>
    -- the flag stays as it is on either branch
    if s.sRetryNum < maximumRetry then
      { s.observed .espWifiConnect with sRetryNum := s.sRetryNum + 1 }
    else { s with failBit := true }
  | .gotIp => { s with sRetryNum := 0, connectedBit := true }
  | .other => s

/-- The event loop: the handler gets an event while it is registered. Behind
`terminate_wifi` the events are those of ESP-Touch, whose handler knows
nothing of the flag. -/
def deliver (e : WifiEvent) (s : WifiSys) : WifiSys :=
  let s := s.observed (.came e)
  if s.registered then wifiEventHandler e s else s

/-- A step of the whole: an event of the network, or one of the lock. -/
inductive WifiStep
  | wifi (e : WifiEvent)
  | lock (e : Event)
  deriving DecidableEq, Repr

/-- A program of the lock. -/
def onLock {α : Type} (m : M α) : Prog WifiSys Fault α :=
  Prog.zoom WifiSys.sys (fun sys s => { s with sys := sys }) m

/-- One step. -/
def wifiStep : WifiStep → Prog WifiSys Fault Unit
  | .wifi e => Prog.modify (deliver e)
  | .lock e => onLock (step W e)

/-- `wifi_init_sta`, while whose wait these steps are taken: `none` where
the wait goes on. -/
def wifiInitSta (during : List WifiStep) : Prog WifiSys Fault (Option Bool) := do
  -- the number of retries is not set anew
  Prog.modify fun s => { s with connectedBit := false, failBit := false, registered := true }
  Prog.exec (wifiStep W) during
  let s ← Prog.get
  if s.connectedBit then return some true
  else if s.failBit then do
    -- `terminate_wifi`
    Prog.modify fun s => { s with registered := false }
    return some false
  else return none

/-- `setWifiConnected`, and the assignment at the end of
`connect_to_wifi`. -/
def setWifiConnected (connected : Bool) : Prog WifiSys Fault Unit :=
  Prog.modify fun s => { s with sys := { s.sys with wifiConnected := connected } }

/-- `connect_to_wifi`. -/
def connectToWifi (during : List WifiStep) : Prog WifiSys Fault (Option Bool) := do
  match ← wifiInitSta W during with
  | none => return none
  | some connected => do
    setWifiConnected connected
    return some connected

end SmartLock
