import SmartLock.Model.State

/-!
# `nonce.c` and `time_util.c`

The list of nonces seen, and the check against it. Both walk the list
from `head`; the check also frees nodes as it walks, re-pointing `head`
past each expired node it meets.
-/

namespace SmartLock

variable (W : World)

/-! ## Time -/

/-- `getNowTimestamp`. -/
def getNowTimestamp : M Int := do
  return W.clock (← tick)

/-- `getTodayTimestamp`. -/
def getTodayTimestamp : M Int := do
  return W.localDay (← getNowTimestamp W)

/-- `getTodayWeekday`. -/
def getTodayWeekday : M (Fin 7) := do
  return W.localWeekday (← getTodayTimestamp W)

/-! ## The list -/

/-- The walk of `addNonceSorted`, at `temp` with `rest` behind it: on
while the node does not outlive the new one, which then goes behind the
node the walk stopped at. -/
def insertAfter (n temp : Nonce) : List Nonce → List Nonce
  | [] => [temp, n]
  | u :: rest =>
    -- behind `temp` where it outlives the new node, not in front of it
    if temp.expires ≤ n.expires then temp :: insertAfter n u rest else temp :: n :: u :: rest

/-- The list `addNonceSorted` leaves. -/
def insertNonce (n : Nonce) : List Nonce → List Nonce
  | [] => [n]
  | temp :: rest => insertAfter n temp rest

/-- `head`, re-pointed. -/
def Sys.setHead (head : List Nonce) (s : Sys) : Sys := { s with head := head }

/-- `addNonceSorted`. -/
def addNonceSorted (nonce expires : Int) : M Unit :=
  Prog.modify fun s => s.setHead (insertNonce ⟨nonce, expires⟩ s.head)

/-- What the loop of `checkNonce` works on: the verdict, the list from
`head`, and the nodes freed. -/
structure NonceWalk where
  valid : Bool
  head : List Nonce
  freed : List Nonce
  deriving DecidableEq, Repr

/-- The loop of `checkNonce`, with the list from `temp`. A node with none
behind it ends the loop without being looked at. -/
def checkLoop (nonce now : Int) (w : NonceWalk) : List Nonce → NonceWalk
  | temp :: u :: rest =>
    let valid := w.valid && temp.nonce != nonce
    if temp.expires ≤ now then
      -- `to_delete = head; head = temp->next`
      checkLoop nonce now ⟨valid, u :: rest, w.freed ++ w.head.take 1⟩ (u :: rest)
    else if valid then checkLoop nonce now { w with valid := valid } (u :: rest)
    else { w with valid := valid }
  | _ => w

/-- What `checkNonce` returns and leaves of a list. -/
def checkList (nonce now : Int) : List Nonce → NonceWalk
  | [] => ⟨true, [], []⟩
  | temp :: rest => checkLoop nonce now ⟨temp.nonce != nonce, temp :: rest, []⟩ (temp :: rest)

/-- `checkNonce`. -/
def checkNonce (nonce : Int) : M Bool := do
  let now ← getNowTimestamp W
  let s ← Prog.get
  -- what is purged is purged also where the verdict is no
  let w := checkList nonce now s.head
  Prog.modify (Sys.setHead w.head)
  return w.valid

/-- `addTimestampsAndNonceToMsg`: `none` is a null message, which
`strlen` is given. -/
def addTimestampsAndNonceToMsg (msg : Option CStr) : M CStr := do
  let now ← getNowTimestamp W
  let ts1 ← sprintf 21 (decInt (wrap32 (now - 30)))
  let ts2 ← sprintf 21 (decInt (wrap32 (now + 30)))
  let nonce ← sprintf 21 (dec (W.random (← tick)).toNat)
  match msg with
  | none => Prog.fail .nullDeref
  | some msg =>
    sprintf (msg.length + ts1.length + ts2.length + nonce.length + 4)
      (msg ++ lit " " ++ ts1 ++ lit " " ++ ts2 ++ lit " " ++ nonce)

end SmartLock
