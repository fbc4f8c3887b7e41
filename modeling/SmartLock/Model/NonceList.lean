import SmartLock.Common.Linked
import SmartLock.Common.Loop
import SmartLock.Model.Nonce

/-!
# The nonce list, in memory

The list of `nonce.c` as it is built: nodes linked from `head` on, one of
them put in behind the node at which the walk of `addNonceSorted` stops,
and some given back as `checkNonce` goes along. A pointer that is null or
dangling is a fault where it is followed, or given back.
-/

namespace SmartLock

/-- `head`, and the nodes allocated. -/
structure NonceMem where
  head : Option ℕ
  nodes : Linked.Heap Nonce

/-- A block from `malloc`: its address, and what stands where `next` will
be. -/
structure NonceBlock where
  addr : ℕ
  next : Option ℕ
  deriving DecidableEq, Repr

/-- The variables of the walk: the nodes, `temp`, and whether the function
has returned. -/
structure AddWalk where
  nodes : Linked.Heap Nonce
  temp : ℕ
  returned : Bool

/-- `while (temp->expires <= expires)`. A `temp` that dangles faults in the
body here. -/
def addLoop (newNonce : ℕ) (expires : Int) : Loop AddWalk where
  cond w := !w.returned && (w.nodes w.temp).all fun temp => temp.val.expires ≤ expires
  body w := do
    let temp ← w.nodes w.temp
    match temp.next with
    | some next => return { w with temp := next }
    | none => do
      let nodes ← Linked.link w.nodes newNonce none
      let nodes ← Linked.link nodes w.temp (some newNonce)
      return { w with nodes := nodes, returned := true }

/-- What follows the loop, unless it has returned: the new node goes behind
`temp`. -/
def AddWalk.insert (newNonce : ℕ) (w : AddWalk) : Option (Linked.Heap Nonce) :=
  if w.returned then some w.nodes
  else do
    let temp ← w.nodes w.temp
    let nodes ← Linked.link w.nodes newNonce temp.next
    Linked.link nodes w.temp (some newNonce)

/-- `addNonceSorted`, given what `malloc` returned, for a number of turns of
its loop: `none` where it faults or has not ended. -/
def NonceMem.addNonceSorted (turns : ℕ) (malloc : Option NonceBlock) (nonce expires : Int)
    (m : NonceMem) : Option NonceMem := do
  -- the block is written to unchecked
  let newNonce ← malloc
  let nodes := Linked.write m.nodes newNonce.addr ⟨⟨nonce, expires⟩, newNonce.next⟩
  match m.head with
  | none => do
    let nodes ← Linked.link nodes newNonce.addr none
    return ⟨some newNonce.addr, nodes⟩
  | some temp => do
    let w ← (addLoop newNonce.addr expires).run turns ⟨nodes, temp, false⟩
    return ⟨m.head, ← w.insert newNonce.addr⟩

/-! ## `checkNonce` -/

/-- The variables of the walk: the nodes, `head`, `temp`, the verdict, and
whether the loop was left by `break`. -/
structure CheckWalk where
  nodes : Linked.Heap Nonce
  head : Option ℕ
  temp : ℕ
  valid : Bool
  broken : Bool

/-- `while (temp->next != NULL)`. A `temp` that dangles faults in the body
here. -/
def purgeLoop (nonce now : Int) : Loop CheckWalk where
  cond w := !w.broken && (w.nodes w.temp).all fun temp => temp.next.isSome
  body w := do
    let temp ← w.nodes w.temp
    let next ← temp.next
    let valid := w.valid && temp.val.nonce != nonce
    if temp.val.expires ≤ now then
      -- what is freed is the old head, which `temp` may have left behind
      let nodes ← match w.head with
        | none => some w.nodes
        | some toDelete => Linked.free w.nodes toDelete
      return ⟨nodes, some next, next, valid, false⟩
    else if valid then return { w with temp := next, valid := valid }
    else return { w with valid := valid, broken := true }

/-- `checkNonce`, at a time and for a number of turns of its loop: its
verdict and the memory it leaves, `none` where it faults or has not
ended. -/
def NonceMem.checkNonce (turns : ℕ) (nonce now : Int) (m : NonceMem) : Option (Bool × NonceMem) :=
  match m.head with
  | none => some (true, m)
  | some a => do
    let temp ← m.nodes a
    let w ← (purgeLoop nonce now).run turns ⟨m.nodes, m.head, a, temp.val.nonce != nonce, false⟩
    return (w.valid, ⟨w.head, w.nodes⟩)

end SmartLock
