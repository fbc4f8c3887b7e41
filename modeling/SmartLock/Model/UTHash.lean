import SmartLock.Common.Doubly

/-!
# `uthash.h`

The hash table under `users_info`: the elements linked in the order they
were added, and linked once more in the chain of the bucket their hash
value picks. Only the macros `user_info.c` expands are here, as they
stand without `HASH_BLOOM`, `HASH_NONFATAL_OOM` and `HASH_EMIT_KEYS`, and
`HASH_FSCK` as it stands with `HASH_DEBUG`.

An element and its handle have one address. Where a macro follows a null
or dangling pointer, leaves the buckets, or ends the program, its result is
`none`; a `turns` bounds its loops.
-/

namespace SmartLock

/-! ## The hash function -/

/-- `HASH_JEN_MIX`. -/
def hashJenMix (a b c : UInt32) : UInt32 × UInt32 × UInt32 :=
  let a := (a - b - c) ^^^ (c >>> 13)
  let b := (b - c - a) ^^^ (a <<< 8)
  let c := (c - a - b) ^^^ (b >>> 13)
  let a := (a - b - c) ^^^ (c >>> 12)
  let b := (b - c - a) ^^^ (a <<< 16)
  let c := (c - a - b) ^^^ (b >>> 5)
  let a := (a - b - c) ^^^ (c >>> 3)
  let b := (b - c - a) ^^^ (a <<< 10)
  let c := (c - a - b) ^^^ (b >>> 15)
  (a, b, c)

/-- `(unsigned)key[i] << shift`, zero where there is no such byte. -/
def keyByte (key : List UInt8) (i : ℕ) (shift : UInt32) : UInt32 :=
  (key.getD i 0).toUInt32 <<< shift

/-- Four bytes of a key. -/
def keyWord (key : List UInt8) (i : ℕ) : UInt32 :=
  keyByte key i 0 + keyByte key (i + 1) 8 + keyByte key (i + 2) 16 + keyByte key (i + 3) 24

/-- The loop of `HASH_JEN`, for a number of blocks of twelve bytes. -/
def hashJenBlocks : ℕ → List UInt8 → UInt32 × UInt32 × UInt32 → UInt32 × UInt32 × UInt32
  | 0, _, r => r
  | n + 1, key, (i, j, hashv) =>
    hashJenBlocks n (key.drop 12)
      (hashJenMix (i + keyWord key 0) (j + keyWord key 4) (hashv + keyWord key 8))

/-- `HASH_JEN`. -/
def hashJen (key : List UInt8) : UInt32 :=
  let blocks := key.length / 12
  let (i, j, hashv) := hashJenBlocks blocks key (0x9e3779b9, 0x9e3779b9, 0xfeedbeef)
  -- the cases of the switch fall through, each for one byte there is
  let rest := key.drop (12 * blocks)
  let hashv := hashv + key.length.toUInt32 + keyByte rest 8 8 + keyByte rest 9 16 + keyByte rest 10 24
  (hashJenMix (i + keyWord rest 0) (j + keyWord rest 4) hashv).2.2

/-- `HASH_TO_BKT`. -/
def hashToBkt (hashv : UInt32) (numBkts : ℕ) : ℕ := hashv.toNat &&& (numBkts - 1)

/-! ## The table -/

/-- `UT_hash_bucket`. -/
structure UTHashBucket where
  hhHead : Option ℕ
  count : ℕ
  expandMult : ℕ
  deriving DecidableEq, Repr

/-- `UT_hash_table`. -/
structure UTHashTable where
  buckets : List UTHashBucket
  numBuckets : ℕ
  log2NumBuckets : ℕ
  numItems : ℕ
  tail : ℕ
  idealChainMaxlen : ℕ
  nonidealItems : ℕ
  ineffExpands : ℕ
  noexpand : Bool
  deriving DecidableEq, Repr

/-- What a handle tells of its element: the bytes of the key, `keylen` of
them, and `hashv`. -/
structure UTKey where
  key : List UInt8
  hashv : UInt32
  deriving DecidableEq, Repr

/-- The head, the table that the handles point to, and the handles: `prev`
and `next`, `hh_prev` and `hh_next`, and the keys. -/
structure UTHash where
  head : Option ℕ
  tbl : Option UTHashTable
  app : Doubly.Links
  hh : Doubly.Links
  keys : ℕ → Option UTKey

/-- `HASH_INITIAL_NUM_BUCKETS`. -/
def hashInitialNumBuckets : ℕ := 32

/-- `HASH_INITIAL_NUM_BUCKETS_LOG2`. -/
def hashInitialNumBucketsLog2 : ℕ := 5

/-- `HASH_BKT_CAPACITY_THRESH`. -/
def hashBktCapacityThresh : ℕ := 10

/-- A bucket as `uthash_bzero` leaves it. -/
def UTHashBucket.zero : UTHashBucket := ⟨none, 0, 0⟩

/-- `HASH_MAKE_TABLE`. What `uthash_malloc` does not get ends the
program. -/
def hashMakeTable (malloc : Bool) (head : ℕ) : Option UTHashTable :=
  if malloc then
    some
      { buckets := List.replicate hashInitialNumBuckets .zero
        numBuckets := hashInitialNumBuckets
        log2NumBuckets := hashInitialNumBucketsLog2
        numItems := 0
        tail := head
        idealChainMaxlen := 0
        nonidealItems := 0
        ineffExpands := 0
        noexpand := false }
  else none

/-! ## Expansion -/

/-- The variables of the walks of `HASH_EXPAND_BUCKETS`. -/
structure ExpandWalk where
  hh : Doubly.Links
  newBuckets : List UTHashBucket
  nonidealItems : ℕ
  thh : Option ℕ

/-- A new bucket, with one item more. -/
def UTHashBucket.moved (ideal thh : ℕ) (b : UTHashBucket) : UTHashBucket :=
  { hhHead := some thh
    count := b.count + 1
    expandMult :=
      if b.count + 1 > ideal ∧ b.count + 1 > b.expandMult * ideal then b.expandMult + 1
      else b.expandMult }

/-- The walk over the chain of one old bucket: every item goes in front of
the chain of its new one. -/
def expandLoop (keys : ℕ → Option UTKey) (numBuckets ideal : ℕ) : Loop ExpandWalk where
  cond w := w.thh.isSome
  body w := do
    let thh ← w.thh
    let handle ← w.hh thh
    let k ← keys thh
    let i := hashToBkt k.hashv (numBuckets * 2)
    let newbkt ← w.newBuckets[i]?
    let hh ← Doubly.pushFront w.hh newbkt.hhHead thh
    return {
      hh := hh
      newBuckets := w.newBuckets.set i (newbkt.moved ideal thh)
      nonidealItems := if newbkt.count + 1 > ideal then w.nonidealItems + 1 else w.nonidealItems
      thh := handle.next }

/-- `HASH_EXPAND_BUCKETS`: the table and the handles it leaves. -/
def hashExpandBuckets (turns : ℕ) (malloc : Bool) (keys : ℕ → Option UTKey) (tbl : UTHashTable)
    (hh : Doubly.Links) : Option (UTHashTable × Doubly.Links) := do
  let newBuckets ←
    if malloc then some (List.replicate (tbl.numBuckets * 2) UTHashBucket.zero) else none
  let ideal := (tbl.numItems >>> (tbl.log2NumBuckets + 1)) +
    if tbl.numItems &&& (tbl.numBuckets * 2 - 1) ≠ 0 then 1 else 0
  let w ← (List.range tbl.numBuckets).foldlM (fun w i => do
    let bucket ← tbl.buckets[i]?
    (expandLoop keys tbl.numBuckets ideal).run turns { w with thh := bucket.hhHead })
    ⟨hh, newBuckets, 0, none⟩
  let ineff := if w.nonidealItems > tbl.numItems >>> 1 then tbl.ineffExpands + 1 else 0
  return (
    { tbl with
      buckets := w.newBuckets
      numBuckets := tbl.numBuckets * 2
      log2NumBuckets := tbl.log2NumBuckets + 1
      idealChainMaxlen := ideal
      nonidealItems := w.nonidealItems
      ineffExpands := ineff
      noexpand := tbl.noexpand || decide (ineff > 1) }, w.hh)

/-! ## The macros -/

namespace UTHash

/-- An empty hash, with nothing allocated. -/
def empty : UTHash := ⟨none, none, fun _ => none, fun _ => none, fun _ => none⟩

/-- `HASH_ADD_TO_BKT`, on the bucket of an index. -/
def addToBkt (turns : ℕ) (malloc : Bool) (i add : ℕ) (tbl : UTHashTable) (t : UTHash) :
    Option UTHash := do
  let head ← tbl.buckets[i]?
  let hh ← Doubly.pushFront t.hh head.hhHead add
  let tbl := { tbl with buckets := tbl.buckets.set i ⟨some add, head.count + 1, head.expandMult⟩ }
  if head.count + 1 ≥ (head.expandMult + 1) * hashBktCapacityThresh ∧ tbl.noexpand = false then
    let (tbl, hh) ← hashExpandBuckets turns malloc t.keys tbl hh
    return { t with tbl := some tbl, hh := hh }
  else return { t with tbl := some tbl, hh := hh }

/-- `HASH_ADD_TO_TABLE`. -/
def addToTable (turns : ℕ) (malloc : Bool) (hashv : UInt32) (add : ℕ) (t : UTHash) :
    Option UTHash := do
  let tbl ← t.tbl
  addToBkt turns malloc (hashToBkt hashv tbl.numBuckets) add
    { tbl with numItems := tbl.numItems + 1 } t

/-- `HASH_ADD`, of an allocated element. -/
def add (turns : ℕ) (malloc : Bool) (add : ℕ) (key : List UInt8) (t : UTHash) :
    Option UTHash := do
  let hashv := hashJen key
  let keys := Function.update t.keys add (some ⟨key, hashv⟩)
  match t.head with
  | none => do
    let tbl ← hashMakeTable malloc add
    let app := Doubly.write t.app add ⟨none, none⟩
    addToTable turns malloc hashv add
      { t with head := some add, tbl := some tbl, app := app, keys := keys }
  | some _ => do
    let tbl ← t.tbl
    let app ← Doubly.append t.app tbl.tail add
    addToTable turns malloc hashv add
      { t with tbl := some { tbl with tail := add }, app := app, keys := keys }

/-- The comparison of `HASH_FIND_IN_BKT`, at an element. -/
def hit (t : UTHash) (key : List UInt8) (hashv : UInt32) (out : ℕ) : Bool :=
  (t.keys out).any fun k => k.hashv == hashv && k.key.length == key.length && k.key == key

/-- `HASH_FIND`: the element it finds, if any. -/
def find (turns : ℕ) (key : List UInt8) (t : UTHash) : Option (Option ℕ) :=
  match t.head with
  | none => some none
  | some _ => do
    let hashv := hashJen key
    let tbl ← t.tbl
    let bucket ← tbl.buckets[hashToBkt hashv tbl.numBuckets]?
    (Doubly.findLoop t.hh (t.hit key hashv)).run turns bucket.hhHead

/-- `HASH_DEL_IN_BKT`, on the bucket of an index. -/
def delInBkt (i del : ℕ) (tbl : UTHashTable) (t : UTHash) : Option UTHash := do
  let head ← tbl.buckets[i]?
  let handle ← t.hh del
  let hhHead := if head.hhHead = some del then handle.next else head.hhHead
  let hh ← Doubly.unlink t.hh del
  let buckets := tbl.buckets.set i ⟨hhHead, head.count - 1, head.expandMult⟩
  return { t with tbl := some { tbl with buckets := buckets, numItems := tbl.numItems - 1 }, hh := hh }

/-- `HASH_DELETE`. The table goes with its last element. -/
def delete (del : ℕ) (t : UTHash) : Option UTHash := do
  let handle ← t.app del
  let tbl ← t.tbl
  if handle.prev = none ∧ handle.next = none then
    return { t with head := none, tbl := none }
  else
    let tail ← (if del = tbl.tail then handle.prev else some tbl.tail)
    let app ← Doubly.unlink t.app del
    let head := if handle.prev = none then handle.next else t.head
    let k ← t.keys del
    delInBkt (hashToBkt k.hashv tbl.numBuckets) del { tbl with tail := tail }
      { t with head := head, app := app }

/-- `HASH_COUNT`. -/
def count (t : UTHash) : Option ℕ :=
  match t.head with
  | none => some 0
  | some _ => t.tbl.map UTHashTable.numItems

/-- `HASH_FSCK`. Where a check fails, `HASH_OOPS` ends the program. -/
def fsck (turns : ℕ) (t : UTHash) : Option Unit :=
  match t.head with
  | none => some ()
  | some _ => do
    let tbl ← t.tbl
    let count ← (List.range tbl.numBuckets).foldlM (fun count i => do
      let bucket ← tbl.buckets[i]?
      let s ← (Doubly.checkLoop t.hh).run turns ⟨bucket.hhHead, none, 0⟩
      if bucket.count = s.count then some (count + s.count) else none) 0
    if count = tbl.numItems then
      let s ← (Doubly.checkLoop t.app).run turns ⟨t.head, none, 0⟩
      if s.count = tbl.numItems then some () else none
    else none

end UTHash

end SmartLock
