import SmartLock.Model.Database

/-!
# `_http_event_handler`

The handler of `database_util.c` to which the HTTP client passes every
event of every request, with its two static variables. A call of it is
taken as one step. The blocks it writes to are apart: what lies around the
buffer of a request is not modelled.
-/

namespace SmartLock

/-! ## Blocks -/

/-- What was written to a block, at each offset from its start. -/
abbrev BlockBytes := Int → Option UInt8

/-- `memcpy(block + off, data, data_len)`. -/
def memcpy (off : Int) (data : List UInt8) (block : BlockBytes) : BlockBytes := fun i =>
  if off ≤ i ∧ i < off + data.length then data[(i - off).toNat]? else block i

/-! ## Requests -/

/-- What the handler is told of a request: whether the response is chunked,
its content length, and the size of the buffer that is its `user_data`, if
that is not null. -/
structure HttpRequest where
  isChunkedResponse : Bool
  contentLength : Int
  userData : Option ℕ

/-- `esp_http_client_event_id_t`, with the `data` of the event. -/
inductive HttpEvent
  | error
  | onConnected
  | headerSent
  | onHeader
  | onData (data : List UInt8)
  | onFinish
  | disconnected

/-- A call of the handler: the request, by its number, the event, and
whether `malloc` has a block should it be asked for one. -/
structure HttpCall where
  request : ℕ
  event : HttpEvent
  mallocGives : Bool := true

/-- The static variables of the handler, and what is written behind each
`user_data`; and the body of each request, as far as the client has passed
it on. -/
structure HttpState where
  /-- `output_buffer`: its size, and what was written to it. -/
  outputBuffer : Option (Int × BlockBytes)
  /-- `output_len`. -/
  outputLen : Int
  userData : ℕ → BlockBytes
  body : ℕ → List UInt8

/-- At start-up: the static variables are zero. -/
def HttpState.initial : HttpState := ⟨none, 0, fun _ _ => none, fun _ => []⟩

/-- `output_buffer + output_len`, written to. -/
def HttpState.appendOutput (data : List UInt8) (s : HttpState) : HttpState :=
  { s with outputBuffer := s.outputBuffer.map fun b => (b.1, memcpy s.outputLen data b.2) }

/-- `evt->user_data + output_len`, written to. -/
def HttpState.appendUserData (r : ℕ) (data : List UInt8) (s : HttpState) : HttpState :=
  { s with userData := Function.update s.userData r (memcpy s.outputLen data (s.userData r)) }

variable (req : ℕ → HttpRequest)

/-- `_http_event_handler`. -/
def httpEventHandler (c : HttpCall) : Prog HttpState Empty Int :=
  match c.event with
  | .onData data => do
    if (req c.request).isChunkedResponse then return espOk
    match (req c.request).userData with
    | some _ => Prog.modify (HttpState.appendUserData c.request data)
    | none => do
      let s ← Prog.get
      if s.outputBuffer = none then
        -- here too the count restarts
        Prog.modify fun s => { s with outputLen := 0 }
        if ¬ c.mallocGives then return espFail
        Prog.modify fun s =>
          { s with outputBuffer := some ((req c.request).contentLength, fun _ => none) }
      Prog.modify (HttpState.appendOutput data)
    Prog.modify fun s => { s with outputLen := wrap32 (s.outputLen + data.length) }
    return espOk
  | .onFinish => do
    Prog.modify fun s => { s with outputBuffer := none, outputLen := 0 }
    return espOk
  -- an aborted request, among others: the count is left as it is
  | _ => return espOk

/-- The client passes on the data of an event. -/
def HttpState.passOn (c : HttpCall) (s : HttpState) : HttpState :=
  match c.event with
  | .onData data => { s with body := Function.update s.body c.request (s.body c.request ++ data) }
  | _ => s

/-- An event of the client: the handler is called with it. -/
def httpStep (c : HttpCall) : Prog HttpState Empty Unit := do
  let _ ← httpEventHandler req c
  Prog.modify (HttpState.passOn c)

end SmartLock
