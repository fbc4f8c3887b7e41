import SmartLock.Model.Handler

/-!
# `getCommand` and `getArgs`, in the blocks they work in

`tcp_server_handler.c` splits a message with `strtok`, which writes to the
block it splits and goes on from a static pointer. The handler takes what
comes of it; here are the two functions over their blocks: the caller's
string, the copy, the array of arguments, and the copies of the arguments,
with every element of the array the clean-up reads and every block it
frees.
-/

namespace SmartLock

/-- What `getArgs` frees: the copy of an argument, by the order in which
they were allocated, or the array. -/
inductive Freed
  | copy (id : ℕ)
  | array
  deriving DecidableEq, Repr

/-- The blocks and the variables of a call. -/
structure Blocks where
  /-- The caller's block. -/
  str : List UInt8
  /-- `cmd`, the copy. -/
  cmd : List UInt8
  /-- Where `strtok` goes on, an offset into `cmd`. -/
  lasts : Option ℕ
  /-- `pt`, an offset into `cmd`. -/
  pt : Option ℕ
  /-- The copies of the arguments, in the order they were allocated. -/
  copies : List CStr
  /-- `args`: its elements point to copies, or were not written. -/
  args : List (Option ℕ)
  /-- The elements of `args` the clean-up read. -/
  reads : List Int
  freed : List Freed
  deriving DecidableEq, Repr

namespace Blocks

/-- A call on a string, before anything is done. -/
def start (str : List UInt8) : Blocks := ⟨str, [], none, none, [], [], [], []⟩

/-- The string at an offset into `cmd`. -/
def textAt (b : Blocks) (p : ℕ) : CStr := cstr (b.cmd.drop p)

/-- `malloc` and `strcpy` of the caller's string. -/
def copyStr : Prog Blocks Fault Unit :=
  Prog.modify fun b => { b with cmd := cstr b.str ++ [0], lasts := some 0 }

/-- `strtok`, from where it goes on: its word is ended by a NUL, and at the
end of the string there is nowhere to go on. -/
def strtokNext : Prog Blocks Fault (Option ℕ) := do
  let b ← Prog.get
  match b.lasts with
  | none => return none
  | some p =>
    match strtok sep (b.textAt p) with
    | none => do
      Prog.modify fun b => { b with lasts := none }
      return none
    | some t => do
      let stop := p + t.off + t.word.length
      if stop = p + (b.textAt p).length then Prog.modify fun b => { b with lasts := none }
      else Prog.modify fun b => { b with cmd := b.cmd.set stop 0, lasts := some (stop + 1) }
      return some (p + t.off)

/-- `getCommand`. -/
def getCommand : Prog Blocks Fault (Option ℕ) := do
  copyStr
  strtokNext

/-- `pt = strtok(NULL, SEP)`. -/
def nextWord : Prog Blocks Fault Unit := do
  let pt ← strtokNext
  Prog.modify fun b => { b with pt := pt }

/-- `args[i] = malloc(...)`, and `strcpy` of the word. -/
def copyWord (i pt : ℕ) : Prog Blocks Fault Unit :=
  Prog.modify fun b =>
    { b with copies := b.copies ++ [b.textAt pt], args := b.args.set i (some b.copies.length) }

/-- `while (pt != NULL && i<n)`, with `n - i` elements to go: the number of
elements written. -/
def argsLoop (i : ℕ) : ℕ → Prog Blocks Fault ℕ
  | 0 => return i
  | k + 1 => do
    match (← Prog.get).pt with
    | none => return i
    | some pt => do
      copyWord i pt
      nextWord
      argsLoop (i + 1) k

/-- `free(args[index])`. -/
def freeArg (index : Int) : Prog Blocks Fault Unit := do
  Prog.modify fun b => { b with reads := b.reads ++ [index] }
  let b ← Prog.get
  match if index < 0 then none else b.args[index.toNat]? with
  | some (some id) =>
    if .copy id ∈ b.freed then Prog.fail .badFree
    else Prog.modify fun b => { b with freed := b.freed ++ [.copy id] }
  -- not written, or not an element: no pointer `malloc` returned
  | _ => Prog.fail .badFree

/-- `while (i--)`: the index is one less than the counter, which is one
less than it was tested as. -/
def cleanUp : ℕ → Prog Blocks Fault Unit
  | 0 => return ()
  | i + 1 => do
    freeArg ((i : Int) - 1)
    cleanUp i

/-- `getArgs`: `none` is `NULL`. -/
def getArgs (n : ℕ) : Prog Blocks Fault (Option (List (Option ℕ))) := do
  copyStr
  Prog.modify fun b => { b with args := List.replicate n none }
  nextWord
  if (← Prog.get).pt ≠ none then nextWord
  let i ← argsLoop 0 n
  if i < n then
    cleanUp i
    Prog.modify fun b => { b with freed := b.freed ++ [.array] }
    return none
  else return some (← Prog.get).args

/-- The string an element of `args` points to. -/
def pointsTo (b : Blocks) (arg : Option ℕ) : Option CStr := arg.bind (b.copies[·]?)

end Blocks

end SmartLock
