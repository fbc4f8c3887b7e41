import SmartLock.Model.UTHash
import Mathlib.Algebra.BigOperators.Group.List.Basic
import Mathlib.Algebra.GroupWithZero.Nat

/-!
# The hash table under the session table

What the macros of `uthash.h` keep: the elements are linked in the order
they were added, the chain of each bucket has the elements whose hash
values pick it, and every count is the count of something. Expansion moves
every element into the bucket its hash value picks among twice as many.
Over any run of additions, deletions and searches nothing faults,
`HASH_FSCK` has nothing to report, and a search finds an element of its key
exactly if there is one.
-/

namespace SmartLock

open Doubly

variable {keys : ℕ → Option UTKey} {hh hh' app : Links} {buckets : List UTHashBucket}
  {items items' rest : List ℕ} {chain : ℕ → List ℕ} {head : UTHashBucket}
  {a b i n ideal turns : ℕ} {malloc : Bool} {tbl : UTHashTable} {t t' : UTHash} {key : List UInt8}

/-! ## Buckets -/

/-- The bucket an element belongs to, among `n`. -/
def bktOf (keys : ℕ → Option UTKey) (n a : ℕ) : ℕ :=
  hashToBkt (((keys a).map UTKey.hashv).getD 0) n

theorem bktOf_eq {k : UTKey} (ha : keys a = some k) : bktOf keys n a = hashToBkt k.hashv n := by
  rw [bktOf, ha]
  rfl

theorem hashToBkt_lt (hashv : UInt32) (hn : 0 < n) : hashToBkt hashv n < n :=
  Nat.lt_of_le_of_lt (show _ &&& _ ≤ _ from Nat.and_le_right) (Nat.sub_lt hn Nat.one_pos)

/-- The chain of every bucket has the elements that belong to it, and its
count is their number. -/
structure Chained (keys : ℕ → Option UTKey) (hh : Links) (buckets : List UTHashBucket)
    (items : List ℕ) (chain : ℕ → List ℕ) : Prop where
  bucket : ∀ i b, buckets[i]? = some b → Chain hh b.hhHead (chain i) ∧ b.count = (chain i).length
  mem : ∀ i a, a ∈ chain i ↔ a ∈ items ∧ bktOf keys buckets.length a = i

namespace Chained

/-- Which elements there are is all that counts. -/
theorem congr (h : Chained keys hh buckets items chain) (hitems : ∀ a, a ∈ items ↔ a ∈ items') :
    Chained keys hh buckets items' chain :=
  ⟨h.bucket, fun i a => (h.mem i a).trans (and_congr_left' (hitems a))⟩

/-- Empty buckets have no elements. -/
theorem zero (n : ℕ) :
    Chained keys hh (List.replicate n UTHashBucket.zero) [] fun _ => [] := by
  refine ⟨fun i b hb => ?_, fun i a => by simp⟩
  rw [List.eq_of_mem_replicate (List.mem_of_getElem? hb)]
  exact ⟨Chain.nil, rfl⟩

theorem length_le (h : Chained keys hh buckets items chain) (hbucket : buckets[i]? = some head) :
    (chain i).length ≤ items.length :=
  (List.subperm_of_subset (h.bucket i head hbucket).1.nodup fun a ha =>
    ((h.mem i a).1 ha).1).length_le

/-- The key of a new element is none of theirs. -/
theorem addKey (h : Chained keys hh buckets items chain) (hb : b ∉ items) (k : UTKey) :
    Chained (Function.update keys b (some k)) hh buckets items chain := by
  refine ⟨h.bucket, fun i a => (h.mem i a).trans (and_congr_right fun ha => ?_)⟩
  rw [bktOf, bktOf, Function.update_of_ne (ne_of_mem_of_not_mem ha hb)]

/-- **An element is put in front of the chain of its bucket.** -/
theorem push (h : Chained keys hh buckets items chain) (hb : b ∉ items)
    (hbucket : buckets[i]? = some head) (hi : bktOf keys buckets.length b = i) (mult : ℕ) :
    ∃ hh', pushFront hh head.hhHead b = some hh' ∧
      Chained keys hh' (buckets.set i ⟨some b, head.count + 1, mult⟩) (items ++ [b])
        (Function.update chain i (b :: chain i)) ∧
      ∀ j, j ≠ b → j ∉ items → hh' j = hh j := by
  obtain ⟨hchain, hcount⟩ := h.bucket i head hbucket
  have hsub (j : ℕ) : ∀ a ∈ chain j, a ∈ items := fun a ha => ((h.mem j a).1 ha).1
  obtain ⟨hh', hpush, hchain', hframe⟩ := hchain.pushFront fun ha => hb (hsub i b ha)
  refine ⟨hh', hpush, ⟨fun j c hc => ?_, fun j a => ?_⟩,
    fun j hjb hj => hframe j hjb fun hmem => hj (hsub i j hmem)⟩
  · rcases eq_or_ne j i with rfl | hji
    · rw [List.getElem?_set_self (List.getElem?_eq_some_iff.1 hbucket).1, Option.some.injEq] at hc
      rw [← hc, Function.update_self]
      exact ⟨hchain', by rw [hcount, List.length_cons]⟩
    -- the chains have no element in common
    · rw [List.getElem?_set_ne hji.symm] at hc
      rw [Function.update_of_ne hji]
      refine ⟨(h.bucket j c hc).1.frame fun a ha => hframe a ?_ fun hai => ?_, (h.bucket j c hc).2⟩
      · exact ne_of_mem_of_not_mem (hsub j a ha) hb
      · exact hji (((h.mem j a).1 ha).2.symm.trans ((h.mem i a).1 hai).2)
  · rw [List.length_set]
    rcases eq_or_ne j i with rfl | hji
    · rw [Function.update_self, List.mem_cons, h.mem, List.mem_append, List.mem_singleton]
      constructor
      · rintro (rfl | ⟨ha, hai⟩)
        · exact ⟨.inr rfl, hi⟩
        · exact ⟨.inl ha, hai⟩
      · rintro ⟨ha | rfl, hai⟩
        · exact .inr ⟨ha, hai⟩
        · exact .inl rfl
    · rw [Function.update_of_ne hji, h.mem, List.mem_append, List.mem_singleton]
      constructor
      · exact fun ⟨ha, haj⟩ => ⟨.inl ha, haj⟩
      · rintro ⟨ha | rfl, haj⟩
        · exact ⟨ha, haj⟩
        · exact absurd (haj.symm.trans hi) hji

/-- **An element is taken out of the chain of its bucket.** -/
theorem unlink (h : Chained keys hh buckets items chain) (hnodup : items.Nodup) (ha : a ∈ items)
    (hbucket : buckets[i]? = some head) (hi : bktOf keys buckets.length a = i) :
    ∃ handle hh' chain', hh a = some handle ∧ unlink hh a = some hh' ∧
      Chained keys hh' (buckets.set i ⟨if head.hhHead = some a then handle.next else head.hhHead,
        head.count - 1, head.expandMult⟩) (items.erase a) chain' := by
  obtain ⟨hchain, hcount⟩ := h.bucket i head hbucket
  obtain ⟨pre, post, hsplit⟩ := List.append_of_mem ((h.mem i a).2 ⟨ha, hi⟩)
  have hcnodup := hchain.nodup
  rw [hsplit] at hchain hcount hcnodup
  obtain ⟨hh', hunlink, hchain', hframe⟩ := hchain.unlink
  have hout : a ∉ pre ++ post := (List.nodup_middle.1 hcnodup).notMem
  have hrest (b : ℕ) : b ∈ pre ++ post ↔ b ∈ chain i ∧ b ≠ a := by
    rw [hsplit, List.mem_append, List.mem_append, List.mem_cons]
    constructor
    · intro hb
      exact ⟨hb.imp id .inr, ne_of_mem_of_not_mem (List.mem_append.2 hb) hout⟩
    · rintro ⟨hb | hb | hb, hne⟩
      · exact .inl hb
      · exact absurd hb hne
      · exact .inr hb
  refine ⟨_, hh', Function.update chain i (pre ++ post), hchain.link, hunlink,
    ⟨fun j c hc => ?_, fun j b => ?_⟩⟩
  · rcases eq_or_ne j i with rfl | hji
    · rw [List.getElem?_set_self (List.getElem?_eq_some_iff.1 hbucket).1, Option.some.injEq] at hc
      rw [← hc, Function.update_self]
      constructor
      · have hhead := hchain.head_eq
        rw [hhead] at hchain' ⊢
        rcases pre with - | ⟨d, pre⟩
        · rw [if_pos rfl] at hchain'
          simpa using hchain'
        · have hda : d ≠ a := fun heq => hout (heq ▸ List.mem_cons_self)
          simpa [hda] using hchain'
      · simp only [List.length_append, List.length_cons] at hcount ⊢
        omega
    · rw [List.getElem?_set_ne hji.symm] at hc
      rw [Function.update_of_ne hji]
      refine ⟨(h.bucket j c hc).1.frame fun b hb => hframe b fun hmem => ?_, (h.bucket j c hc).2⟩
      exact hji (((h.mem j b).1 hb).2.symm.trans ((h.mem i b).1 ((hrest b).1 hmem).1).2)
  · rw [List.length_set, hnodup.mem_erase_iff]
    rcases eq_or_ne j i with rfl | hji
    · rw [Function.update_self, hrest, h.mem]
      tauto
    · rw [Function.update_of_ne hji, h.mem]
      constructor
      · rintro ⟨hb, hbj⟩
        exact ⟨⟨fun heq => hji (hbj.symm.trans (heq ▸ hi)), hb⟩, hbj⟩
      · exact fun ⟨⟨_, hb⟩, hbj⟩ => ⟨hb, hbj⟩

end Chained

/-! ## Expansion -/

/-- How many items of the buckets stand behind the ideal length of their
chain. -/
def excess (ideal : ℕ) (buckets : List UTHashBucket) : ℕ :=
  (buckets.map fun b => b.count - ideal).sum

theorem excess_set (ideal : ℕ) (c : UTHashBucket) (hbucket : buckets[i]? = some head) :
    excess ideal (buckets.set i c) + (head.count - ideal) =
      excess ideal buckets + (c.count - ideal) := by
  induction buckets generalizing i with
  | nil => cases hbucket
  | cons b buckets ih =>
    cases i with
    | zero =>
      obtain rfl : b = head := Option.some.inj hbucket
      simp only [excess, List.set_cons_zero, List.map_cons, List.sum_cons]
      omega
    | succ i =>
      have hrest := ih (i := i) hbucket
      simp only [excess, List.set_cons_succ, List.map_cons, List.sum_cons] at hrest ⊢
      omega

theorem excess_zero (n : ℕ) : excess ideal (List.replicate n UTHashBucket.zero) = 0 := by
  rw [excess, List.map_replicate, List.sum_replicate]
  simp [UTHashBucket.zero]

/-- What the walks have moved so far: the new chains have the elements of
`items`, and what stands behind the ideal length has been counted. -/
structure ExpandWalk.Moved (w : ExpandWalk) (keys : ℕ → Option UTKey) (n ideal : ℕ)
    (items : List ℕ) : Prop where
  chained : ∃ chain, Chained keys w.hh w.newBuckets items chain
  length : w.newBuckets.length = n * 2
  excess : w.nonidealItems = excess ideal w.newBuckets

variable {w : ExpandWalk}

/-- One turn moves one element. -/
theorem ExpandWalk.Moved.turn {handle : Link} (h : w.Moved keys n ideal items) (hn : 0 < n)
    (ha : a ∉ items) (hkey : keys a ≠ none) (hthh : w.thh = some a)
    (hhandle : w.hh a = some handle) :
    ∃ w', (expandLoop keys n ideal).Turn w w' ∧ w'.Moved keys n ideal (items ++ [a]) ∧
      w'.thh = handle.next ∧ ∀ j, j ≠ a → j ∉ items → w'.hh j = w.hh j := by
  obtain ⟨chain, hchained⟩ := h.chained
  obtain ⟨k, hk⟩ := Option.ne_none_iff_exists'.1 hkey
  have hi : bktOf keys w.newBuckets.length a = hashToBkt k.hashv (n * 2) := by
    rw [bktOf_eq hk, h.length]
  have hlt : hashToBkt k.hashv (n * 2) < w.newBuckets.length := by
    rw [h.length]
    exact hashToBkt_lt _ (by omega)
  obtain ⟨head, hhead⟩ : ∃ head, w.newBuckets[hashToBkt k.hashv (n * 2)]? = some head :=
    ⟨_, List.getElem?_eq_getElem hlt⟩
  obtain ⟨hh', hpush, hchained', hframe⟩ :=
    hchained.push ha hhead hi (head.moved ideal a).expandMult
  have hcond : (expandLoop keys n ideal).cond w = true := by
    change w.thh.isSome = true
    rw [hthh, Option.isSome_some]
  refine ⟨⟨hh', w.newBuckets.set _ (head.moved ideal a),
    if head.count + 1 > ideal then w.nonidealItems + 1 else w.nonidealItems, handle.next⟩,
    ⟨hcond, ?_⟩, ⟨⟨_, hchained'⟩, ?_, ?_⟩, rfl, hframe⟩
  · simp only [expandLoop, hthh, hhandle, hk, hhead, hpush, Option.bind_eq_bind, Option.bind_some]
    rfl
  · rw [List.length_set, h.length]
  · have hset := excess_set ideal (head.moved ideal a) hhead
    have hcount : (head.moved ideal a).count = head.count + 1 := rfl
    rw [h.excess]
    dsimp only
    split <;> omega

/-- **The walk over an old chain moves its elements**, and leaves the other
old chains. -/
theorem ExpandWalk.Moved.walk (h : w.Moved keys n ideal items) (hn : 0 < n)
    (hnexts : Nexts w.hh w.thh rest) (hnodup : rest.Nodup) (hkeys : ∀ a ∈ rest, keys a ≠ none)
    (hapart : ∀ a ∈ rest, a ∉ items) (hturns : rest.length < turns) :
    ∃ w', (expandLoop keys n ideal).run turns w = some w' ∧
      w'.Moved keys n ideal (items ++ rest) ∧
      ∀ j, j ∉ rest → j ∉ items → w'.hh j = w.hh j := by
  induction rest generalizing w items turns with
  | nil =>
    obtain ⟨turns, rfl⟩ : ∃ n, turns = n + 1 := ⟨turns - 1, by omega⟩
    have hthh : w.thh = none := hnexts
    refine ⟨w, ?_, by rwa [List.append_nil], fun _ _ _ => rfl⟩
    rw [Loop.run, if_neg]
    simp [expandLoop, hthh]
  | cons a rest ih =>
    obtain ⟨turns, rfl⟩ : ∃ n, turns = n + 1 := ⟨turns - 1, by omega⟩
    rw [List.length_cons, Nat.add_lt_add_iff_right] at hturns
    obtain ⟨hthh, handle, hhandle, hnexts⟩ := hnexts
    obtain ⟨har, hnodup⟩ := List.nodup_cons.1 hnodup
    obtain ⟨w₁, hturn, hmoved, hthh₁, hframe₁⟩ := h.turn hn (hapart a List.mem_cons_self)
      (hkeys a List.mem_cons_self) hthh hhandle
    have hapart₁ : ∀ b ∈ rest, b ∉ items ++ [a] := fun b hb hmem => by
      rcases List.mem_append.1 hmem with hmem | hmem
      · exact hapart b (List.mem_cons_of_mem a hb) hmem
      · exact har (List.mem_singleton.1 hmem ▸ hb)
    rw [← hthh₁] at hnexts
    have hnexts₁ := hnexts.frame fun b hb =>
      hframe₁ b (ne_of_mem_of_not_mem hb har) (hapart b (List.mem_cons_of_mem a hb))
    obtain ⟨w₂, hrun, hmoved₂, hframe₂⟩ := ih hmoved hnexts₁ hnodup
      (fun b hb => hkeys b (List.mem_cons_of_mem a hb)) hapart₁ hturns
    refine ⟨w₂, ?_, by rwa [List.append_assoc] at hmoved₂, fun j hj hji => ?_⟩
    · rw [Loop.run, if_pos hturn.1, hturn.2]
      exact hrun
    · rw [List.mem_cons, not_or] at hj
      rw [hframe₂ j hj.2 (by simp [hj.1, hji]), hframe₁ j hj.1 hji]

/-- What an expansion leaves of a table: twice as many buckets, the ideal
chain length the number of items over that of buckets, rounded up, the
items behind it counted, and a second ineffective expansion in a row the
last. -/
structure UTHashTable.Expanded (tbl tbl' : UTHashTable) : Prop where
  numBuckets : tbl'.numBuckets = tbl.numBuckets * 2
  length : tbl'.buckets.length = tbl'.numBuckets
  log2 : tbl'.log2NumBuckets = tbl.log2NumBuckets + 1
  numItems : tbl'.numItems = tbl.numItems
  tail : tbl'.tail = tbl.tail
  ideal : tbl.numBuckets = 2 ^ tbl.log2NumBuckets →
    tbl'.idealChainMaxlen = (tbl.numItems + (tbl'.numBuckets - 1)) / tbl'.numBuckets
  nonideal : tbl'.nonidealItems = excess tbl'.idealChainMaxlen tbl'.buckets
  ineff : tbl'.ineffExpands =
    if tbl'.nonidealItems > tbl.numItems / 2 then tbl.ineffExpands + 1 else 0
  noexpand : tbl'.noexpand = (tbl.noexpand || decide (1 < tbl'.ineffExpands))

/-- The quotient rounded up, as the shift and the mask have it. -/
theorem ceil_shift (m k : ℕ) :
    (m >>> k + if m &&& (2 ^ k - 1) ≠ 0 then 1 else 0) = (m + (2 ^ k - 1)) / 2 ^ k := by
  have hpos : 0 < 2 ^ k := Nat.two_pow_pos k
  rw [Nat.shiftRight_eq_div_pow, Nat.and_two_pow_sub_one_eq_mod]
  have hm := Nat.div_add_mod' m (2 ^ k)
  have hlt := Nat.mod_lt m hpos
  generalize 2 ^ k = b at *
  by_cases hr : m % b = 0
  · rw [if_neg (not_not.2 hr), Nat.add_zero]
    exact (Nat.div_eq_of_lt_le (by omega) (by rw [Nat.add_mul, Nat.one_mul]; omega)).symm
  · rw [if_pos hr]
    refine (Nat.div_eq_of_lt_le ?_ ?_).symm
    · rw [Nat.add_mul, Nat.one_mul]
      omega
    · rw [Nat.add_mul, Nat.add_mul, Nat.one_mul]
      omega

/-- **Expansion moves every element into its bucket**, and keeps its
books. -/
theorem hashExpandBuckets_spec (turns : ℕ) (h : Chained keys hh tbl.buckets items chain)
    (hlength : tbl.buckets.length = tbl.numBuckets) (hpos : 0 < tbl.numBuckets)
    (hkeys : ∀ a ∈ items, keys a ≠ none) (hturns : items.length < turns) :
    ∃ tbl' hh' chain', hashExpandBuckets turns true keys tbl hh = some (tbl', hh') ∧
      Chained keys hh' tbl'.buckets items chain' ∧ tbl.Expanded tbl' := by
  obtain ⟨ideal, hideal⟩ : ∃ ideal, ideal = (tbl.numItems >>> (tbl.log2NumBuckets + 1)) +
      if tbl.numItems &&& (tbl.numBuckets * 2 - 1) ≠ 0 then 1 else 0 := ⟨_, rfl⟩
  have hmem' (i a : ℕ) : a ∈ (List.range i).flatMap chain ↔
      a ∈ items ∧ bktOf keys tbl.numBuckets a < i := by
    simp only [List.mem_flatMap, List.mem_range, h.mem, hlength]
    exact ⟨fun ⟨j, hj, ha, hja⟩ => ⟨ha, hja ▸ hj⟩, fun ⟨ha, hi⟩ => ⟨_, hi, ha, rfl⟩⟩
  -- the old chains from `i` on are as they were, the others have been moved
  obtain ⟨w, hrun, hmoved, -⟩ := forRange_some (n := tbl.numBuckets)
    (f := fun (w : ExpandWalk) i => (tbl.buckets[i]?).bind fun bucket =>
      (expandLoop keys tbl.numBuckets ideal).run turns { w with thh := bucket.hhHead })
    (b := ⟨hh, List.replicate (tbl.numBuckets * 2) UTHashBucket.zero, 0, none⟩)
    (I := fun i w => w.Moved keys tbl.numBuckets ideal ((List.range i).flatMap chain) ∧
      ∀ j, i ≤ j → ∀ a ∈ chain j, w.hh a = hh a)
    ⟨⟨⟨_, Chained.zero _⟩, List.length_replicate .., (excess_zero _).symm⟩, fun _ _ _ _ => rfl⟩
    fun i hi w ⟨hmoved, hold⟩ => by
      obtain ⟨bucket, hbucket⟩ : ∃ bucket, tbl.buckets[i]? = some bucket :=
        ⟨_, List.getElem?_eq_getElem (hlength ▸ hi)⟩
      have hchain := (h.bucket i bucket hbucket).1
      have hmoved' : ({ w with thh := bucket.hhHead } : ExpandWalk).Moved keys tbl.numBuckets ideal
          ((List.range i).flatMap chain) := ⟨hmoved.chained, hmoved.length, hmoved.excess⟩
      have hnexts : Nexts w.hh bucket.hhHead (chain i) :=
        hchain.nexts.frame fun a ha => hold i (Nat.le_refl i) a ha
      obtain ⟨w', hrun, hmoved', hframe⟩ := hmoved'.walk hpos hnexts hchain.nodup
        (fun a ha => hkeys a ((h.mem i a).1 ha).1)
        (fun a ha hmem => by
          have hlt := ((hmem' i a).1 hmem).2
          have heq := ((h.mem i a).1 ha).2
          rw [hlength] at heq
          omega) (Nat.lt_of_le_of_lt (h.length_le hbucket) hturns)
      refine ⟨w', by rw [hbucket]; exact hrun, ?_, fun j hj a ha => ?_⟩
      · rw [List.range_succ, List.flatMap_append]
        simpa using hmoved'
      · have heq := ((h.mem j a).1 ha).2
        rw [hlength] at heq
        rw [hframe a (fun hmem => ?_) fun hmem => ?_]
        · exact hold j (by omega) a ha
        · have heq' := ((h.mem i a).1 hmem).2
          rw [hlength] at heq'
          omega
        · have hlt := ((hmem' i a).1 hmem).2
          omega
  obtain ⟨chain', hchained⟩ := hmoved.chained
  let ineff := if w.nonidealItems > tbl.numItems >>> 1 then tbl.ineffExpands + 1 else 0
  let tbl' : UTHashTable :=
    { tbl with
      buckets := w.newBuckets
      numBuckets := tbl.numBuckets * 2
      log2NumBuckets := tbl.log2NumBuckets + 1
      idealChainMaxlen := ideal
      nonidealItems := w.nonidealItems
      ineffExpands := ineff
      noexpand := tbl.noexpand || decide (ineff > 1) }
  refine ⟨tbl', w.hh, chain', ?_, hchained.congr fun a => ?_, rfl, hmoved.length, rfl, rfl, rfl,
    fun hlog => ?_, hmoved.excess, rfl, rfl⟩
  · simp only [hashExpandBuckets, if_true, Option.bind_eq_bind, Option.bind_some, ← hideal, hrun]
    rfl
  -- every element is in an old chain
  · rw [hmem']
    refine and_iff_left_of_imp fun ha => ?_
    rw [← hlength]
    exact hashToBkt_lt _ (hlength ▸ hpos)
  · have hdouble : tbl.numBuckets * 2 = 2 ^ (tbl.log2NumBuckets + 1) := by rw [hlog, pow_succ]
    change ideal = (tbl.numItems + (tbl.numBuckets * 2 - 1)) / (tbl.numBuckets * 2)
    rw [hideal, hdouble, ceil_shift]

/-! ## The macros -/

namespace UTHash

/-- A table of these elements, in the order they were added. -/
structure Sound (t : UTHash) (tbl : UTHashTable) (items : List ℕ) (chain : ℕ → List ℕ) : Prop where
  table : t.tbl = some tbl
  app : Chain t.app t.head items
  tail : items.getLast? = some tbl.tail
  numItems : tbl.numItems = items.length
  length : tbl.buckets.length = tbl.numBuckets
  log2 : tbl.numBuckets = 2 ^ tbl.log2NumBuckets
  keyed : ∀ a ∈ items, ∃ key, t.keys a = some ⟨key, hashJen key⟩
  chained : Chained t.keys t.hh tbl.buckets items chain

/-- A hash of these elements: without any there is no table. -/
def Holds (t : UTHash) (items : List ℕ) : Prop :=
  (items = [] ∧ t.head = none) ∨ ∃ tbl chain, t.Sound tbl items chain

theorem Sound.pos (h : t.Sound tbl items chain) : 0 < tbl.numBuckets := by
  rw [h.log2]
  exact Nat.two_pow_pos _

theorem Sound.head_ne_none (h : t.Sound tbl items chain) : t.head ≠ none := by
  rw [h.app.head_eq]
  intro heq
  have htail := h.tail
  rw [List.head?_eq_none_iff.1 heq] at htail
  cases htail

/-- The bucket of an index below the number of buckets. -/
theorem Sound.exists_bucket (h : t.Sound tbl items chain) (hi : i < tbl.numBuckets) :
    ∃ bucket, tbl.buckets[i]? = some bucket :=
  ⟨_, List.getElem?_eq_getElem (h.length.symm ▸ hi)⟩

theorem Holds.nodup (h : t.Holds items) : items.Nodup := by
  rcases h with ⟨rfl, -⟩ | ⟨tbl, chain, h⟩
  · exact List.nodup_nil
  · exact h.app.nodup

/-- A table whose last element is linked in, but in no bucket. -/
structure Linked (t : UTHash) (tbl : UTHashTable) (items : List ℕ) (chain : ℕ → List ℕ) (a : ℕ)
    (key : List UInt8) : Prop where
  table : t.tbl = some tbl
  app : Chain t.app t.head (items ++ [a])
  tail : tbl.tail = a
  numItems : tbl.numItems = items.length
  length : tbl.buckets.length = tbl.numBuckets
  log2 : tbl.numBuckets = 2 ^ tbl.log2NumBuckets
  keyed : ∀ b ∈ items, ∃ key, t.keys b = some ⟨key, hashJen key⟩
  key : t.keys a = some ⟨key, hashJen key⟩
  chained : Chained t.keys t.hh tbl.buckets items chain

/-- **The last element goes into its bucket**, and the buckets are expanded
where that one has grown too long. -/
theorem Linked.addToTable (h : t.Linked tbl items chain a key) (hturns : items.length + 1 < turns) :
    ∃ t', addToTable turns true (hashJen key) a t = some t' ∧ t'.Holds (items ++ [a]) ∧
      t'.keys = t.keys := by
  have hnew : a ∉ items := fun ha =>
    (List.nodup_append.1 h.app.nodup).2.2 a ha a (List.mem_singleton_self a) rfl
  have hpos : 0 < tbl.numBuckets := by
    rw [h.log2]
    exact Nat.two_pow_pos _
  have hkeyed : ∀ b ∈ items ++ [a], ∃ key, t.keys b = some ⟨key, hashJen key⟩ := fun b hb => by
    rcases List.mem_append.1 hb with hb | hb
    · exact h.keyed b hb
    · rw [List.mem_singleton.1 hb]
      exact ⟨key, h.key⟩
  obtain ⟨head, hhead⟩ : ∃ head, tbl.buckets[hashToBkt (hashJen key) tbl.numBuckets]? = some head :=
    ⟨_, List.getElem?_eq_getElem (h.length.symm ▸ hashToBkt_lt _ hpos)⟩
  have hi : bktOf t.keys tbl.buckets.length a = hashToBkt (hashJen key) tbl.numBuckets := by
    rw [bktOf_eq h.key, h.length]
  obtain ⟨hh', hpush, hchained, -⟩ := h.chained.push hnew hhead hi head.expandMult
  obtain ⟨tbl₁, htbl₁⟩ : ∃ tbl₁ : UTHashTable, tbl₁ = { tbl with
      numItems := tbl.numItems + 1
      buckets := tbl.buckets.set (hashToBkt (hashJen key) tbl.numBuckets)
        ⟨some a, head.count + 1, head.expandMult⟩ } := ⟨_, rfl⟩
  have hlength₁ : tbl₁.buckets.length = tbl₁.numBuckets := by
    rw [htbl₁, List.length_set]
    exact h.length
  have hitems₁ : tbl₁.numItems = (items ++ [a]).length := by
    rw [htbl₁, List.length_append, List.length_singleton, h.numItems]
  have hbuckets₁ : tbl.buckets.set (hashToBkt (hashJen key) tbl.numBuckets)
      ⟨some a, head.count + 1, head.expandMult⟩ = tbl₁.buckets := by rw [htbl₁]
  have htail₁ : (items ++ [a]).getLast? = some tbl₁.tail := by
    rw [List.getLast?_concat, htbl₁, h.tail]
  have hlog₁ : tbl₁.numBuckets = 2 ^ tbl₁.log2NumBuckets := by
    rw [htbl₁]
    exact h.log2
  rw [hbuckets₁] at hchained
  simp only [UTHash.addToTable, addToBkt, h.table, hhead, hpush, Option.bind_eq_bind,
    Option.bind_some, ← htbl₁]
  split
  · obtain ⟨tbl', hh'', chain', hrun, hchained', hexpanded⟩ :=
      hashExpandBuckets_spec turns hchained hlength₁ (by rw [htbl₁]; exact hpos)
      (fun b hb => by obtain ⟨key, hb⟩ := hkeyed b hb; rw [hb]; exact Option.some_ne_none _)
      (by rwa [List.length_append, List.length_singleton])
    refine ⟨{ t with tbl := some tbl', hh := hh'' }, by rw [hrun]; rfl,
      .inr ⟨tbl', chain', rfl, h.app, ?_, ?_, hexpanded.length, ?_, hkeyed, hchained'⟩, rfl⟩
    · rw [htail₁, hexpanded.tail]
    · rw [hexpanded.numItems, hitems₁]
    · rw [hexpanded.numBuckets, hexpanded.log2, hlog₁, pow_succ]
  · exact ⟨_, rfl, .inr ⟨tbl₁, _, rfl, h.app, htail₁, hitems₁, hlength₁, hlog₁, hkeyed, hchained⟩,
      rfl⟩

/-- **An element is added**, as the last one. -/
theorem Holds.add (h : t.Holds items) (ha : a ∉ items) (hturns : items.length + 1 < turns)
    (key : List UInt8) :
    ∃ t', t.add turns true a key = some t' ∧ t'.Holds (items ++ [a]) ∧
      t'.keys = Function.update t.keys a (some ⟨key, hashJen key⟩) := by
  rcases h with ⟨rfl, hhead⟩ | ⟨tbl, chain, h⟩
  · have hlinked : Linked
        { t with
          head := some a
          tbl := hashMakeTable true a
          app := write t.app a ⟨none, none⟩
          keys := Function.update t.keys a (some ⟨key, hashJen key⟩) }
        _ [] _ a key :=
      ⟨rfl, ⟨⟨_, Seg.cons (write_self ..) Seg.nil⟩, List.nodup_singleton a⟩, rfl, rfl,
        List.length_replicate .., rfl, nofun, Function.update_self .., Chained.zero _⟩
    obtain ⟨t', hrun, hholds, hkeys⟩ := hlinked.addToTable hturns
    refine ⟨t', ?_, hholds, hkeys⟩
    rw [← hrun, UTHash.add, hhead]
    rfl
  · obtain ⟨app', happend, happ, -⟩ := h.app.append h.tail ha
    have hkeyed : ∀ b ∈ items, ∃ key',
        Function.update t.keys a (some ⟨key, hashJen key⟩) b = some ⟨key', hashJen key'⟩ :=
      fun b hb => by
        rw [Function.update_of_ne (ne_of_mem_of_not_mem hb ha)]
        exact h.keyed b hb
    have hlinked : Linked
        { t with
          tbl := some { tbl with tail := a }
          app := app'
          keys := Function.update t.keys a (some ⟨key, hashJen key⟩) }
        _ items chain a key :=
      ⟨rfl, happ, rfl, h.numItems, h.length, h.log2, hkeyed, Function.update_self ..,
        h.chained.addKey ha _⟩
    obtain ⟨t', hrun, hholds, hkeys⟩ := hlinked.addToTable hturns
    obtain ⟨first, hfirst⟩ := Option.ne_none_iff_exists'.1 h.head_ne_none
    refine ⟨t', ?_, hholds, hkeys⟩
    simp only [UTHash.add, hfirst, h.table, happend, Option.bind_eq_bind, Option.bind_some]
    rw [← hfirst]
    exact hrun

/-- What the comparison of a search asks of an element. -/
theorem hit_eq_true {hashv : UInt32} :
    t.hit key hashv a = true ↔ t.keys a = some ⟨key, hashv⟩ := by
  rw [hit]
  cases t.keys a with
  | none => simp
  | some k =>
    obtain ⟨key', hashv'⟩ := k
    simp only [Option.any_some, Bool.and_eq_true, beq_iff_eq, Option.some.injEq, UTKey.mk.injEq]
    constructor
    · exact fun ⟨⟨hhash, _⟩, hkey⟩ => ⟨hkey, hhash⟩
    · rintro ⟨rfl, rfl⟩
      exact ⟨⟨rfl, rfl⟩, rfl⟩

/-- **A search finds an element of its key**, exactly if there is one. -/
theorem Holds.find (h : t.Holds items) (hturns : items.length < turns) (key : List UInt8) :
    ∃ out, t.find turns key = some out ∧
      (∀ a, out = some a → a ∈ items ∧ t.keys a = some ⟨key, hashJen key⟩) ∧
      (out = none → ∀ a ∈ items, t.keys a ≠ some ⟨key, hashJen key⟩) := by
  rcases h with ⟨rfl, hhead⟩ | ⟨tbl, chain, h⟩
  · exact ⟨none, by rw [UTHash.find, hhead], nofun, fun _ => nofun⟩
  · obtain ⟨bucket, hbucket⟩ := h.exists_bucket (hashToBkt_lt (hashJen key) h.pos)
    have hfind := (h.chained.bucket _ bucket hbucket).1.nexts.find (t.hit key (hashJen key))
      (Nat.lt_of_le_of_lt (h.chained.length_le hbucket) hturns)
    obtain ⟨first, hfirst⟩ := Option.ne_none_iff_exists'.1 h.head_ne_none
    refine ⟨(chain (hashToBkt (hashJen key) tbl.numBuckets)).find? (t.hit key (hashJen key)), ?_,
      fun a ha => ?_, fun hnone a ha hkey => ?_⟩
    · simp only [UTHash.find, hfirst, h.table, hbucket, Option.bind_eq_bind, Option.bind_some]
      exact hfind
    · exact ⟨((h.chained.mem _ a).1 (List.mem_of_find?_eq_some ha)).1,
        hit_eq_true.1 (List.find?_some ha)⟩
    -- an element of the key would be in the chain searched
    · have hchain := (h.chained.mem (hashToBkt (hashJen key) tbl.numBuckets) a).2
        ⟨ha, by rw [bktOf_eq hkey, h.length]⟩
      exact List.find?_eq_none.1 hnone a hchain (hit_eq_true.2 hkey)

/-- **An element is deleted**, and the others stay in their order. -/
theorem Holds.delete (h : t.Holds items) (ha : a ∈ items) :
    ∃ t', t.delete a = some t' ∧ t'.Holds (items.erase a) ∧ t'.keys = t.keys := by
  rcases h with ⟨rfl, -⟩ | ⟨tbl, chain, h⟩
  · cases ha
  obtain ⟨pre, post, rfl⟩ := List.append_of_mem ha
  have hnodup := h.app.nodup
  have hout : a ∉ pre ++ post := (List.nodup_middle.1 hnodup).notMem
  have herase : (pre ++ a :: post).erase a = pre ++ post := by
    rw [List.erase_append_right _ fun hmem => hout (List.mem_append_left _ hmem),
      List.erase_cons_head]
  have hlink := h.app.link
  by_cases hlast : pre = [] ∧ post = []
  · obtain ⟨rfl, rfl⟩ := hlast
    refine ⟨{ t with head := none, tbl := none }, ?_, .inl ⟨herase, rfl⟩, rfl⟩
    simp only [UTHash.delete, hlink, h.table, Option.bind_eq_bind, Option.bind_some]
    rfl
  · obtain ⟨app', hunlink, happ, -⟩ := h.app.unlink
    obtain ⟨key, hkey⟩ := h.keyed a ha
    obtain ⟨bucket, hbucket⟩ := h.exists_bucket (hashToBkt_lt (hashJen key) h.pos)
    have hi : bktOf t.keys tbl.buckets.length a = hashToBkt (hashJen key) tbl.numBuckets := by
      rw [bktOf_eq hkey, h.length]
    obtain ⟨handle, hh', chain', hhandle, hunlink', hchained⟩ :=
      h.chained.unlink hnodup ha hbucket hi
    -- the last element is the tail, and nothing else is
    obtain ⟨tail, htail, hgetLast⟩ : ∃ tail,
        (if a = tbl.tail then pre.getLast? else some tbl.tail) = some tail ∧
          (pre ++ post).getLast? = some tail := by
      have hold := h.tail
      rcases List.eq_nil_or_concat post with rfl | ⟨post, d, rfl⟩
      · rw [List.getLast?_concat, Option.some.injEq] at hold
        obtain ⟨tail, htail⟩ : ∃ tail, pre.getLast? = some tail :=
          Option.ne_none_iff_exists'.1 fun hnone =>
            hlast ⟨List.getLast?_eq_none_iff.1 hnone, rfl⟩
        exact ⟨tail, by rw [if_pos hold, htail], by rw [List.append_nil, htail]⟩
      · rw [List.concat_eq_append, ← List.cons_append, ← List.append_assoc, List.getLast?_concat,
          Option.some.injEq] at hold
        have hne : a ≠ tbl.tail := fun heq => hout (by rw [heq, ← hold]; simp)
        exact ⟨d, by rw [if_neg hne, hold], by simp⟩
    have hboth : ¬ (pre.getLast? = none ∧ post.head? = none) := fun hboth =>
      hlast ⟨List.getLast?_eq_none_iff.1 hboth.1, List.head?_eq_none_iff.1 hboth.2⟩
    have hhead : (if pre.getLast? = none then post.head? else t.head) =
        if pre = [] then post.head? else t.head := by
      simp only [List.getLast?_eq_none_iff]
    let tbl' : UTHashTable :=
      { tbl with
        tail := tail
        buckets := tbl.buckets.set (hashToBkt (hashJen key) tbl.numBuckets)
          ⟨if bucket.hhHead = some a then handle.next else bucket.hhHead, bucket.count - 1,
            bucket.expandMult⟩
        numItems := tbl.numItems - 1 }
    refine ⟨{ t with
        head := if pre = [] then post.head? else t.head
        tbl := some tbl'
        app := app'
        hh := hh' }, ?_, .inr ⟨tbl', chain', rfl, ?_, ?_, ?_, ?_, h.log2, ?_, hchained⟩, rfl⟩
    · simp only [UTHash.delete, hlink, h.table, if_neg hboth, htail, hunlink, hkey, delInBkt,
        hbucket, hhandle, hunlink', hhead, Option.bind_eq_bind, Option.bind_some]
      rfl
    · rw [herase]
      exact happ
    · rw [herase]
      exact hgetLast
    · rw [List.length_erase_of_mem ha, ← h.numItems]
    · rw [List.length_set]
      exact h.length
    · exact fun b hb => h.keyed b (List.mem_of_mem_erase hb)

/-! ## The check of the table -/

/-- Every element is in one of the chains. -/
theorem Sound.perm (h : t.Sound tbl items chain) :
    ((List.range tbl.numBuckets).flatMap chain).Perm items := by
  refine (List.perm_ext_iff_of_nodup ?_ h.app.nodup).2 fun a => ?_
  · refine List.nodup_flatMap.2 ⟨fun i hi => ?_, ?_⟩
    · obtain ⟨bucket, hbucket⟩ := h.exists_bucket (List.mem_range.1 hi)
      exact (h.chained.bucket i bucket hbucket).1.nodup
    · refine List.nodup_range.imp fun {i j} hne a hi hj => hne ?_
      exact ((h.chained.mem i a).1 hi).2.symm.trans ((h.chained.mem j a).1 hj).2
  · simp only [List.mem_flatMap, List.mem_range, h.chained.mem]
    refine ⟨fun ⟨_, _, ha, _⟩ => ha, fun ha => ⟨_, ?_, ha, rfl⟩⟩
    rw [h.length]
    exact hashToBkt_lt _ h.pos

/-- **The check has nothing to report** of a hash that holds its
elements. -/
theorem Holds.fsck (h : t.Holds items) (hturns : items.length < turns) :
    t.fsck turns = some () := by
  rcases h with ⟨rfl, hhead⟩ | ⟨tbl, chain, h⟩
  · rw [UTHash.fsck, hhead]
  · obtain ⟨first, hfirst⟩ := Option.ne_none_iff_exists'.1 h.head_ne_none
    obtain ⟨count, hcount, rfl⟩ := forRange_some (n := tbl.numBuckets) (b := 0)
      (f := fun count i => (tbl.buckets[i]?).bind fun bucket =>
        ((Doubly.checkLoop t.hh).run turns ⟨bucket.hhHead, none, 0⟩).bind fun s =>
          if bucket.count = s.count then some (count + s.count) else none)
      (I := fun i count => count = ((List.range i).flatMap chain).length) rfl
      fun i hi count hI => by
        obtain ⟨bucket, hbucket⟩ := h.exists_bucket hi
        obtain ⟨hchain, hlen⟩ := h.chained.bucket i bucket hbucket
        have hcheck := hchain.check (Nat.lt_of_le_of_lt (h.chained.length_le hbucket) hturns)
        refine ⟨count + (chain i).length, ?_, ?_⟩
        · rw [hbucket, Option.bind_some, hcheck, Option.bind_some, if_pos hlen]
        · rw [List.range_succ, List.flatMap_append, List.length_append, hI]
          simp
    rw [h.perm.length_eq] at hcount
    have happ := h.app.check hturns
    rw [hfirst] at happ
    simp only [UTHash.fsck, hfirst, h.table, Option.bind_eq_bind, Option.bind_some, hcount,
      if_pos h.numItems.symm, happ]

/-- The number of elements, as the table has it. -/
theorem Holds.count (h : t.Holds items) : t.count = some items.length := by
  rcases h with ⟨rfl, hhead⟩ | ⟨tbl, chain, h⟩
  · rw [UTHash.count, hhead]
    rfl
  · obtain ⟨first, hfirst⟩ := Option.ne_none_iff_exists'.1 h.head_ne_none
    rw [UTHash.count, hfirst, h.table, ← h.numItems]
    rfl

end UTHash

/-! ## Runs of the macros -/

/-- A use of one of the macros. -/
inductive UTOp
  | add (a : ℕ) (key : List UInt8)
  | delete (a : ℕ)
  | find (key : List UInt8)
  deriving DecidableEq, Repr

namespace UTOp

/-- What a macro finds, if it searches, and the hash it leaves. -/
def exec (turns : ℕ) : UTOp → UTHash → Option (Option ℕ × UTHash)
  | add a key, t => (t.add turns true a key).map fun t => (none, t)
  | delete a, t => (t.delete a).map fun t => (none, t)
  | find key, t => (t.find turns key).map fun out => (out, t)

/-- The elements behind a macro, each with its key. -/
def onElements : UTOp → List (ℕ × List UInt8) → List (ℕ × List UInt8)
  | add a key, els => els ++ [(a, key)]
  | delete a, els => els.filter fun e => e.1 ≠ a
  | find _, els => els

/-- What is added is not in the hash, and what is deleted is. -/
def Fits (els : List (ℕ × List UInt8)) : UTOp → Prop
  | add a _ => a ∉ els.map Prod.fst
  | delete a => a ∈ els.map Prod.fst
  | find _ => True

/-- What a search finds is an element of its key, if there is one. -/
def Finds (els : List (ℕ × List UInt8)) (out : Option ℕ) : UTOp → Prop
  | find key => (∀ a, out = some a → (a, key) ∈ els) ∧ (out = none → key ∉ els.map Prod.snd)
  | _ => out = none

end UTOp

/-- The elements behind a run of macros from an empty hash. -/
def elements (ops : List UTOp) : List (ℕ × List UInt8) := ops.foldl (fun els op => op.onElements els) []

@[simp] theorem elements_concat (ops : List UTOp) (op : UTOp) :
    elements (ops ++ [op]) = op.onElements (elements ops) := by
  rw [elements, List.foldl_append]
  rfl

/-- The runs of macros from an empty hash, each used as it may be and given
turns for every element. -/
inductive UTRun : List UTOp → UTHash → Prop
  | empty : UTRun [] UTHash.empty
  | op {ops : List UTOp} {t t' : UTHash} {out : Option ℕ} (op : UTOp) (turns : ℕ) : UTRun ops t →
      op.Fits (elements ops) → (elements ops).length + 1 < turns →
      op.exec turns t = some (out, t') → UTRun (ops ++ [op]) t'

/-- A hash of these elements and keys. -/
structure UTHash.Tracks (t : UTHash) (els : List (ℕ × List UInt8)) : Prop where
  holds : t.Holds (els.map Prod.fst)
  keys : ∀ e ∈ els, t.keys e.1 = some ⟨e.2, hashJen e.2⟩

variable {els : List (ℕ × List UInt8)} {op : UTOp} {ops : List UTOp}

/-- **A macro does to the table what it does to the elements.** -/
theorem UTHash.Tracks.exec (h : t.Tracks els) (hfits : op.Fits els)
    (hturns : els.length + 1 < turns) :
    ∃ out t', op.exec turns t = some (out, t') ∧ t'.Tracks (op.onElements els) ∧
      op.Finds els out := by
  rw [← List.length_map (f := Prod.fst)] at hturns
  cases op with
  | add a key =>
    obtain ⟨t', hrun, hholds, hkeys⟩ := h.holds.add hfits hturns key
    refine ⟨none, t', Option.map_eq_some_iff.2 ⟨t', hrun, rfl⟩, ⟨?_, fun e he => ?_⟩, rfl⟩
    · rw [UTOp.onElements, List.map_append]
      exact hholds
    · rw [hkeys]
      rcases List.mem_append.1 he with he | he
      · rw [Function.update_of_ne (ne_of_mem_of_not_mem (List.mem_map_of_mem he) hfits)]
        exact h.keys e he
      · rw [List.mem_singleton.1 he, Function.update_self]
  | delete a =>
    obtain ⟨t', hrun, hholds, hkeys⟩ := h.holds.delete hfits
    refine ⟨none, t', Option.map_eq_some_iff.2 ⟨t', hrun, rfl⟩, ⟨?_, fun e he => ?_⟩, rfl⟩
    · rw [h.holds.nodup.erase_eq_filter, List.filter_map] at hholds
      convert hholds using 2
      rw [UTOp.onElements]
      congr 1
      funext e
      simp [bne, BEq.beq]
    · rw [hkeys]
      exact h.keys e (List.mem_of_mem_filter he)
  | find key =>
    obtain ⟨out, hrun, hsome, hnone⟩ := h.holds.find (Nat.lt_of_succ_lt hturns) key
    refine ⟨out, t, Option.map_eq_some_iff.2 ⟨out, hrun, rfl⟩, h, fun a ha => ?_, fun ho hmem => ?_⟩
    · obtain ⟨hmem, hkey⟩ := hsome a ha
      obtain ⟨⟨b, key'⟩, he, rfl⟩ := List.mem_map.1 hmem
      have hkey' := h.keys _ he
      rw [hkey, Option.some.injEq, UTKey.mk.injEq] at hkey'
      rwa [hkey'.1]
    · obtain ⟨⟨b, key'⟩, he, rfl⟩ := List.mem_map.1 hmem
      exact hnone ho b (List.mem_map_of_mem he) (h.keys _ he)

theorem UTRun.tracks (h : UTRun ops t) : t.Tracks (elements ops) := by
  induction h with
  | empty => exact ⟨.inl ⟨rfl, rfl⟩, nofun⟩
  | op op turns _ hfits hturns hrun ih =>
    obtain ⟨out, t', hrun', htracks, -⟩ := ih.exec hfits hturns
    rw [hrun, Option.some.injEq, Prod.mk.injEq] at hrun'
    rw [elements_concat, hrun'.2]
    exact htracks

/-- **Over any run of the macros** nothing faults, the check of the table
has nothing to report, the number of elements is right, and a search finds
an element of its key exactly if there is one. -/
theorem UTRun.sound (h : UTRun ops t) (hturns : (elements ops).length + 1 < turns) :
    t.fsck turns = some () ∧ t.count = some (elements ops).length ∧
      ∀ op : UTOp, op.Fits (elements ops) →
        ∃ out t', op.exec turns t = some (out, t') ∧ UTRun (ops ++ [op]) t' ∧
          op.Finds (elements ops) out := by
  have htracks := h.tracks
  refine ⟨htracks.holds.fsck ?_, ?_, fun op hfits => ?_⟩
  · rw [List.length_map]
    omega
  · rw [htracks.holds.count, List.length_map]
  · obtain ⟨out, t', hrun, -, hfinds⟩ := htracks.exec hfits hturns
    exact ⟨out, t', hrun, h.op op turns hfits hturns hrun, hfinds⟩

/-- Two elements of one key and one of another, and the first is deleted. -/
def sharedKey : List UTOp :=
  [.add 1 [49, 57, 50, 46], .add 2 [49, 57, 50, 46], .add 3 [97, 98, 58, 99], .delete 1]

theorem exists_utRun_sharedKey : ∃ t, UTRun sharedKey t := by
  have h₁ := UTRun.op (.add 1 [49, 57, 50, 46]) 9 .empty (show _ ∉ _ by decide) (by decide) rfl
  have h₂ := UTRun.op (.add 2 [49, 57, 50, 46]) 9 h₁ (show _ ∉ _ by decide) (by decide) rfl
  have h₃ := UTRun.op (.add 3 [97, 98, 58, 99]) 9 h₂ (show _ ∉ _ by decide) (by decide) rfl
  exact ⟨_, UTRun.op (.delete 1) 9 h₃ (show _ ∈ _ by decide) (by decide) rfl⟩

/-- The run is sound. -/
theorem sound_sharedKey : ∃ t, UTRun sharedKey t ∧ t.fsck 9 = some () ∧
    t.count = some (elements sharedKey).length ∧
      ∀ op : UTOp, op.Fits (elements sharedKey) →
        ∃ out t', op.exec 9 t = some (out, t') ∧ UTRun (sharedKey ++ [op]) t' ∧
          op.Finds (elements sharedKey) out := by
  obtain ⟨t, hrun⟩ := exists_utRun_sharedKey
  exact ⟨t, hrun, UTRun.sound hrun (by decide)⟩

end SmartLock
