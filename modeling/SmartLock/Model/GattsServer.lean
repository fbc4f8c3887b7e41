import SmartLock.Model.System

/-!
# `gatts_profile_event_handler`

The events of the GATT server, as the stack hands them over: a write is
looked up by its handle, and its value is a pointer and a length, with
other memory behind it. Of the globals of `ble_s3_server.c` those are here
that only this handler uses; the rest is the state of the lock.
-/

namespace SmartLock

variable (W : World)

/-- The attributes of the service, in their order. -/
inductive SppIdx
  | svc
  | dataRecvChar
  | dataRecvVal
  | dataNotifyChar
  | dataNtyVal
  | dataNtfCfg
  | commandChar
  | commandVal
  | statusChar
  | statusVal
  | statusCfg
  deriving DecidableEq, Repr

/-- From `SPP_IDX_SVC` to `SPP_IDX_NB`. -/
def SppIdx.all : List SppIdx :=
  [svc, dataRecvChar, dataRecvVal, dataNotifyChar, dataNtyVal, dataNtfCfg, commandChar, commandVal,
    statusChar, statusVal, statusCfg]

/-- What the branch of the command value does with memory it should have. -/
inductive CmdUse
  /-- `memcpy` of `len` bytes into a block of `allocated`. -/
  | copy (allocated len : ℕ)
  /-- `xQueueSend`, to a queue that was created or not. -/
  | queueSend (created : Bool)
  deriving DecidableEq, Repr

/-- The globals of `ble_s3_server.c` that only the handler uses, with the
lock they belong to, and the uses of memory so far, newest first. -/
structure GattsSys where
  sys : Sys
  /-- `spp_handle_table`. -/
  sppHandleTable : SppIdx → UInt16
  /-- `spp_mtu_size`. -/
  sppMtuSize : UInt16
  /-- `cmd_cmd_queue`, with the blocks in it; `none` is `NULL`. -/
  cmdCmdQueue : Option (List (List UInt8))
  /-- `enable_data_ntf`. -/
  enableDataNtf : Bool
  uses : List CmdUse

/-- `ESP_GATTS_WRITE_EVT`: what the stack says of a write, the memory behind
the value, and whether a `malloc` for it finds memory. -/
structure WriteEvt where
  handle : UInt16
  isPrep : Bool
  value : List UInt8
  behind : List UInt8
  mallocGives : Bool
  deriving DecidableEq, Repr

/-- `find_char_and_desr_index`: `none` is `0xff`. -/
def findCharAndDesrIndex (g : GattsSys) (handle : UInt16) : Option SppIdx :=
  SppIdx.all.find? fun i => handle == g.sppHandleTable i

/-- A program of the lock. -/
def onGatts {α : Type} (m : M α) : Prog GattsSys Fault α :=
  Prog.zoom GattsSys.sys (fun sys g => { g with sys := sys }) m

/-- Note a use of memory. -/
def noteUse (u : CmdUse) : Prog GattsSys Fault Unit :=
  Prog.modify fun g => { g with uses := u :: g.uses }

/-- `spp_task_init`, which `ble_s3_main` does not call. -/
def sppTaskInit : Prog GattsSys Fault Unit :=
  Prog.modify fun g => { g with cmdCmdQueue := some [] }

/-- The length of the queue. -/
def cmdQueueLength : ℕ := 10

/-- `xQueueSend`: a null queue fails its assertion, and a full one is
waited for in vain. -/
def xQueueSend (buff : List UInt8) : Prog GattsSys Fault Unit := do
  let g ← Prog.get
  noteUse (.queueSend g.cmdCmdQueue.isSome)
  if g.cmdCmdQueue = none then Prog.fail .nullDeref
  else Prog.modify fun g =>
    { g with cmdCmdQueue := g.cmdCmdQueue.map fun queue =>
        if queue.length < cmdQueueLength then queue ++ [buff] else queue }

/-- A write of the command value. -/
def writeCommand (w : WriteEvt) : Prog GattsSys Fault Unit := do
  let g ← Prog.get
  -- an MTU below three is a size no `malloc` gives
  if w.mallocGives ∧ 3 ≤ g.sppMtuSize.toNat then do
    let allocated := g.sppMtuSize.toNat - 3
    -- the length of the value is not compared with that of the block
    noteUse (.copy allocated w.value.length)
    xQueueSend (w.value ++ List.replicate (allocated - w.value.length) 0)

/-- A write of the configuration of the notifications. -/
def writeDataNtfCfg (value : List UInt8) (enabled : Bool) : Bool :=
  if value = [1, 0] then true
  else if value = [0, 0] then false
  else enabled

/-- The message `process_normal_data` is handed: the value, as a string. -/
def WriteEvt.data (w : WriteEvt) : CStr := cstr (w.value ++ w.behind)

/-- `ESP_GATTS_WRITE_EVT`. -/
def gattsWrite (w : WriteEvt) : Prog GattsSys Fault Unit := do
  let g ← Prog.get
  if w.isPrep then pure ()
  else match findCharAndDesrIndex g w.handle with
    | some .commandVal => writeCommand w
    | some .dataNtfCfg =>
      Prog.modify fun g => { g with enableDataNtf := writeDataNtfCfg w.value g.enableDataNtf }
    | some .dataRecvVal => onGatts (processNormalData W w.data)
    | _ => pure ()

/-- The events of the GATT server that the handler does something at. -/
inductive GattsEvent
  | write (w : WriteEvt)
  | mtu (mtu : UInt16)
  | connect (remoteBda : Vector UInt8 6)
  | disconnect
  /-- `ESP_GATTS_CREAT_ATTR_TAB_EVT`. -/
  | creatAttrTab (statusOk : Bool) (handles : List UInt16)
  | other
  deriving DecidableEq, Repr

/-- `gatts_profile_event_handler`. -/
def gattsProfileEventHandler : GattsEvent → Prog GattsSys Fault Unit
  | .write w => gattsWrite W w
  | .mtu mtu => Prog.modify fun g => { g with sppMtuSize := mtu }
  | .connect remoteBda => onGatts (gattsConnect W remoteBda)
  | .disconnect => do
    Prog.modify fun g => { g with enableDataNtf := false }
    onGatts (gattsDisconnect W)
  | .creatAttrTab statusOk handles =>
    if statusOk ∧ handles.length = SppIdx.all.length then
      Prog.modify fun g =>
        { g with sppHandleTable := fun i => handles.getD (SppIdx.all.idxOf i) 0 }
    else pure ()
  | .other => pure ()

/-- A step of the whole: an event of the GATT server, or another of the
lock. -/
inductive GattsStep
  | gatts (e : GattsEvent)
  | lock (e : Event)
  deriving DecidableEq, Repr

/-- One step. -/
def gattsStep : GattsStep → Prog GattsSys Fault Unit
  | .gatts e => gattsProfileEventHandler W e
  | .lock e => onGatts (step W e)

/-- The state `ble_s3_main` leaves. -/
structure GattsBoot (g : GattsSys) : Prop where
  sys : Boot W g.sys
  target : W.target = .esp32s3
  sppHandleTable : g.sppHandleTable = fun _ => 0
  sppMtuSize : g.sppMtuSize = 123
  cmdCmdQueue : g.cmdCmdQueue = none
  enableDataNtf : g.enableDataNtf = false
  uses : g.uses = []

end SmartLock
