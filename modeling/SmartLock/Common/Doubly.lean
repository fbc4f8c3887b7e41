import SmartLock.Common.Loop
import Mathlib.Data.List.Nodup
import Mathlib.Logic.Function.Basic

/-!
# Doubly linked lists in memory

The pointers of items that are linked both ways, and the chains they make:
every item of a chain knows the one in front and the one behind. An item is
put in front of a chain, behind its last one, or taken out by the patch-up
of its neighbours, and no pointer outside the chain changes. A search
along a chain finds what a search of the list does, and the check that
every item knows its neighbours passes. Nothing here knows what the items
are.
-/

namespace SmartLock

namespace Doubly

/-- The two pointers of an item. A pointer is an address, and `none` the
null one. -/
structure Link where
  prev : Option ℕ
  next : Option ℕ
  deriving DecidableEq, Repr

/-- The pointers of the item at each address. -/
abbrev Links : Type := ℕ → Option Link

variable {h h' : Links} {q p q' p' r s : Option ℕ} {l l' pre post : List ℕ} {a b : ℕ} {c : Link}

/-- The pointers of an item, written. -/
def write (h : Links) (a : ℕ) (c : Link) : Links := Function.update h a (some c)

@[simp] theorem write_self (h : Links) (a : ℕ) (c : Link) : write h a c a = some c :=
  Function.update_self ..

theorem write_of_ne (c : Link) (hne : b ≠ a) : write h a c b = h b := Function.update_of_ne hne ..

/-- The pointer to the next item, set; it faults where there is no item. -/
def setNext (h : Links) (a : ℕ) (next : Option ℕ) : Option Links :=
  (h a).map fun c => write h a ⟨c.prev, next⟩

/-- The pointer to the previous item, set. -/
def setPrev (h : Links) (a : ℕ) (prev : Option ℕ) : Option Links :=
  (h a).map fun c => write h a ⟨prev, c.next⟩

theorem setNext_eq (ha : h a = some c) (next : Option ℕ) :
    setNext h a next = some (write h a ⟨c.prev, next⟩) := by
  rw [setNext, ha, Option.map_some]

theorem setPrev_eq (ha : h a = some c) (prev : Option ℕ) :
    setPrev h a prev = some (write h a ⟨prev, c.next⟩) := by
  rw [setPrev, ha, Option.map_some]

/-- The pointer to the next item, set if there is an item. -/
def linkNext (h : Links) (p next : Option ℕ) : Option Links :=
  match p with
  | none => some h
  | some a => setNext h a next

/-- The pointer to the previous item, set if there is an item. -/
def linkPrev (h : Links) (p prev : Option ℕ) : Option Links :=
  match p with
  | none => some h
  | some a => setPrev h a prev

/-- An item put in front of a chain. -/
def pushFront (h : Links) (head : Option ℕ) (b : ℕ) : Option Links :=
  linkPrev (write h b ⟨none, head⟩) head (some b)

/-- An item put behind the last one. -/
def append (h : Links) (tail b : ℕ) : Option Links :=
  setNext (write h b ⟨some tail, none⟩) tail (some b)

/-- The patch-up of the neighbours of an item that is taken out. -/
def unlink (h : Links) (a : ℕ) : Option Links := do
  let c ← h a
  let h ← linkNext h c.prev c.next
  linkPrev h c.next c.prev

/-! ## Segments -/

/-- The items from `p` on, with `q` in front of the first: the last one of
them is `q'`, and `p'` comes behind it. -/
def Seg (h : Links) : Option ℕ → Option ℕ → List ℕ → Option ℕ → Option ℕ → Prop
  | q, p, [], q', p' => q = q' ∧ p = p'
  | q, p, a :: l, q', p' => p = some a ∧ ∃ next, h a = some ⟨q, next⟩ ∧ Seg h (some a) next l q' p'

namespace Seg

theorem nil : Seg h q p [] q p := ⟨rfl, rfl⟩

theorem cons (ha : h a = some ⟨q, p⟩) (hseg : Seg h (some a) p l q' p') :
    Seg h q (some a) (a :: l) q' p' := ⟨rfl, p, ha, hseg⟩

theorem append_iff : Seg h q p (l ++ l') q' p' ↔
    ∃ r s, Seg h q p l r s ∧ Seg h r s l' q' p' := by
  induction l generalizing q p with
  | nil => exact ⟨fun hseg => ⟨q, p, nil, hseg⟩, fun ⟨_, _, ⟨hq, hp⟩, hseg⟩ => hq ▸ hp ▸ hseg⟩
  | cons a l ih =>
    constructor
    · rintro ⟨hp, next, ha, hseg⟩
      obtain ⟨r, s, hleft, hright⟩ := ih.1 hseg
      exact ⟨r, s, ⟨hp, next, ha, hleft⟩, hright⟩
    · rintro ⟨r, s, ⟨hp, next, ha, hleft⟩, hright⟩
      exact ⟨hp, next, ha, ih.2 ⟨r, s, hleft, hright⟩⟩

/-- What is written elsewhere leaves a segment as it was. -/
theorem frame (hagree : ∀ a ∈ l, h' a = h a) (hseg : Seg h q p l q' p') : Seg h' q p l q' p' := by
  induction l generalizing q p with
  | nil => exact hseg
  | cons a l ih =>
    obtain ⟨hp, next, ha, hseg⟩ := hseg
    refine ⟨hp, next, ?_, ih (fun b hb => hagree b (List.mem_cons_of_mem a hb)) hseg⟩
    rw [hagree a List.mem_cons_self, ha]

/-- The first item of a segment is the one its pointer leads to. -/
theorem head_eq (hseg : Seg h q p l q' none) : p = l.head? := by
  cases l with
  | nil => exact hseg.2
  | cons a l => exact hseg.1

/-- Where nothing is in front, the last item is the last of the list. -/
theorem last_eq (hseg : Seg h none p l q' p') : q' = l.getLast? := by
  rcases List.eq_nil_or_concat l with rfl | ⟨l, a, rfl⟩
  · exact hseg.1.symm
  · rw [List.concat_eq_append] at hseg ⊢
    obtain ⟨r, s, -, -, next, -, hq, -⟩ := append_iff.1 hseg
    rw [← hq, List.getLast?_concat]

/-- The pointer behind a segment, set at its last item; where there is none
the segment is empty. -/
theorem relinkNext (hseg : Seg h none p l r s) (hnodup : l.Nodup) (next : Option ℕ) :
    ∃ h', linkNext h r next = some h' ∧
      Seg h' none (if l = [] then next else p) l r next ∧ ∀ i ∉ l, h' i = h i := by
  rcases List.eq_nil_or_concat l with rfl | ⟨l, a, rfl⟩
  · obtain ⟨rfl, rfl⟩ := hseg
    exact ⟨h, rfl, nil, fun _ _ => rfl⟩
  · rw [List.concat_eq_append] at hseg hnodup ⊢
    obtain ⟨r₀, s₀, hleft, rfl, next₀, ha, rfl, -⟩ := append_iff.1 hseg
    have hal : a ∉ l := fun hmem =>
      (List.nodup_append.1 hnodup).2.2 a hmem a (List.mem_singleton_self a) rfl
    refine ⟨_, setNext_eq ha next, ?_, fun i hi => write_of_ne _ ?_⟩
    · rw [if_neg (by simp)]
      refine append_iff.2 ⟨r₀, some a, hleft.frame fun b hb => ?_, cons (write_self ..) nil⟩
      exact write_of_ne _ (ne_of_mem_of_not_mem hb hal)
    · exact fun heq => hi (by simp [heq])

/-- The pointer in front of a segment, set at its first item. -/
theorem relinkPrev (hseg : Seg h q p l q' none) (hnodup : l.Nodup) (prev : Option ℕ) :
    ∃ h', linkPrev h p prev = some h' ∧
      Seg h' prev p l (if l = [] then prev else q') none ∧ ∀ i ∉ l, h' i = h i := by
  cases l with
  | nil =>
    obtain ⟨rfl, rfl⟩ := hseg
    exact ⟨h, rfl, nil, fun _ _ => rfl⟩
  | cons a l =>
    obtain ⟨rfl, next, ha, hseg⟩ := hseg
    have hal := (List.nodup_cons.1 hnodup).1
    refine ⟨_, setPrev_eq ha prev, ?_, fun i hi => write_of_ne _ ?_⟩
    · rw [if_neg (List.cons_ne_nil a l)]
      exact cons (write_self ..)
        (hseg.frame fun b hb => write_of_ne _ (ne_of_mem_of_not_mem hb hal))
    · exact fun heq => hi (heq ▸ List.mem_cons_self)

end Seg

/-! ## Chains -/

/-- The items of a chain from `head` on, each linked with the one in front
and the one behind. -/
structure Chain (h : Links) (head : Option ℕ) (l : List ℕ) : Prop where
  seg : ∃ last, Seg h none head l last none
  nodup : l.Nodup

namespace Chain

theorem nil : Chain h none [] := ⟨⟨none, Seg.nil⟩, List.nodup_nil⟩

theorem head_eq (hchain : Chain h p l) : p = l.head? := by
  obtain ⟨last, hseg⟩ := hchain.seg
  exact hseg.head_eq

/-- Nothing but its items makes a chain. -/
theorem frame (hagree : ∀ a ∈ l, h' a = h a) (hchain : Chain h p l) : Chain h' p l := by
  obtain ⟨last, hseg⟩ := hchain.seg
  exact ⟨⟨last, hseg.frame hagree⟩, hchain.nodup⟩

/-- An item knows its neighbours. -/
theorem link (hchain : Chain h p (pre ++ a :: post)) :
    h a = some ⟨pre.getLast?, post.head?⟩ := by
  obtain ⟨last, hseg⟩ := hchain.seg
  obtain ⟨r, s, hleft, -, next, ha, hright⟩ := Seg.append_iff.1 hseg
  rw [ha, hleft.last_eq, hright.head_eq]

/-- **An item is put in front**, and no pointer outside the chain
changes. -/
theorem pushFront (hchain : Chain h p l) (hb : b ∉ l) :
    ∃ h', pushFront h p b = some h' ∧ Chain h' (some b) (b :: l) ∧
      ∀ i, i ≠ b → i ∉ l → h' i = h i := by
  obtain ⟨last, hseg⟩ := hchain.seg
  have hnodup : (b :: l).Nodup := List.nodup_cons.2 ⟨hb, hchain.nodup⟩
  have hwritten : Seg (write h b ⟨none, p⟩) none p l last none :=
    hseg.frame fun a ha => write_of_ne _ (ne_of_mem_of_not_mem ha hb)
  obtain ⟨h', hlink, hseg', hframe⟩ := hwritten.relinkPrev hchain.nodup (some b)
  refine ⟨h', hlink, ⟨⟨_, Seg.cons ?_ hseg'⟩, hnodup⟩, fun i hib hil => ?_⟩
  · rw [hframe b hb, write_self]
  · rw [hframe i hil, write_of_ne _ hib]

/-- **An item is put behind the last one.** -/
theorem append (hchain : Chain h p l) (hlast : l.getLast? = some a) (hb : b ∉ l) :
    ∃ h', append h a b = some h' ∧ Chain h' p (l ++ [b]) ∧
      ∀ i, i ≠ b → i ∉ l → h' i = h i := by
  obtain ⟨last, hseg⟩ := hchain.seg
  obtain rfl : last = some a := hseg.last_eq.trans hlast
  have hnodup : (l ++ [b]).Nodup := List.nodup_append.2 ⟨hchain.nodup, List.nodup_singleton b,
    fun i hi j hj heq => hb (by rwa [← List.mem_singleton.1 hj, ← heq])⟩
  have hwritten : Seg (write h b ⟨some a, none⟩) none p l (some a) none :=
    hseg.frame fun i hi => write_of_ne _ (ne_of_mem_of_not_mem hi hb)
  obtain ⟨h', hlink, hseg', hframe⟩ := hwritten.relinkNext hchain.nodup (some b)
  have hne : l ≠ [] := fun heq => by
    rw [heq] at hlast
    cases hlast
  rw [if_neg hne] at hseg'
  refine ⟨h', hlink, ⟨⟨_, Seg.append_iff.2 ⟨_, _, hseg', Seg.cons ?_ Seg.nil⟩⟩, hnodup⟩,
    fun i hib hil => ?_⟩
  · rw [hframe b hb, write_self]
  · rw [hframe i hil, write_of_ne _ hib]

/-- **An item is taken out**, and the chain closes behind it. -/
theorem unlink (hchain : Chain h p (pre ++ a :: post)) :
    ∃ h', unlink h a = some h' ∧ Chain h' (if pre = [] then post.head? else p) (pre ++ post) ∧
      ∀ i ∉ pre ++ post, h' i = h i := by
  obtain ⟨last, hseg⟩ := hchain.seg
  obtain ⟨hpre, hpost, happart⟩ := List.nodup_append.1 hchain.nodup
  obtain ⟨r, s, hleft, rfl, next, ha, hright⟩ := Seg.append_iff.1 hseg
  have hdisjoint : ∀ i ∈ pre, i ∉ post := fun i hi hmem =>
    happart i hi i (List.mem_cons_of_mem a hmem) rfl
  have hnodup : (pre ++ post).Nodup := List.nodup_append.2 ⟨hpre, (List.nodup_cons.1 hpost).2,
    fun i hi j hj heq => hdisjoint i hi (heq ▸ hj)⟩
  obtain ⟨h₁, hlink₁, hleft₁, hframe₁⟩ := hleft.relinkNext hpre next
  have hright₁ := hright.frame fun i hi => hframe₁ i fun hmem => hdisjoint i hmem hi
  obtain ⟨h₂, hlink₂, hright₂, hframe₂⟩ := hright₁.relinkPrev (List.nodup_cons.1 hpost).2 r
  have hleft₂ := hleft₁.frame fun i hi => hframe₂ i (hdisjoint i hi)
  refine ⟨h₂, ?_, ⟨⟨_, Seg.append_iff.2 ⟨r, next, ?_, hright₂⟩⟩, hnodup⟩, fun i hi => ?_⟩
  · simp only [Doubly.unlink, ha, Option.bind_eq_bind, Option.bind_some, hlink₁, hlink₂]
  · rw [hright.head_eq] at hleft₂
    rw [hright.head_eq]
    exact hleft₂
  · rw [List.mem_append, not_or] at hi
    rw [hframe₂ i hi.2, hframe₁ i hi.1]

end Chain

/-! ## Walks -/

/-- The items from `p` on, as the pointers to the next ones lead. -/
def Nexts (h : Links) : Option ℕ → List ℕ → Prop
  | p, [] => p = none
  | p, a :: l => p = some a ∧ ∃ c, h a = some c ∧ Nexts h c.next l

theorem Nexts.frame (hagree : ∀ a ∈ l, h' a = h a) (hnexts : Nexts h p l) : Nexts h' p l := by
  induction l generalizing p with
  | nil => exact hnexts
  | cons a l ih =>
    obtain ⟨hp, c, ha, hnexts⟩ := hnexts
    refine ⟨hp, c, ?_, ih (fun b hb => hagree b (List.mem_cons_of_mem a hb)) hnexts⟩
    rw [hagree a List.mem_cons_self, ha]

theorem Seg.nexts (hseg : Seg h q p l q' none) : Nexts h p l := by
  induction l generalizing q p with
  | nil => exact hseg.2
  | cons a l ih =>
    obtain ⟨hp, next, ha, hseg⟩ := hseg
    exact ⟨hp, _, ha, ih hseg⟩

theorem Chain.nexts (hchain : Chain h p l) : Nexts h p l := by
  obtain ⟨last, hseg⟩ := hchain.seg
  exact hseg.nexts

/-- The search from an item on for the first that `hit` holds of. -/
def findLoop (h : Links) (hit : ℕ → Bool) : Loop (Option ℕ) where
  cond out := out.any fun a => !hit a
  body out := do
    let a ← out
    let c ← h a
    return c.next

/-- **The search along the pointers finds what the search of the list
does**, in a turn for each item. -/
theorem Nexts.find (hit : ℕ → Bool) {turns : ℕ} (hnexts : Nexts h p l) (hturns : l.length < turns) :
    (findLoop h hit).run turns p = some (l.find? hit) := by
  induction l generalizing p turns with
  | nil =>
    obtain rfl : p = none := hnexts
    obtain ⟨turns, rfl⟩ : ∃ n, turns = n + 1 := ⟨turns - 1, by omega⟩
    rfl
  | cons a l ih =>
    obtain ⟨rfl, c, ha, hnexts⟩ := hnexts
    obtain ⟨turns, rfl⟩ : ∃ n, turns = n + 1 := ⟨turns - 1, by omega⟩
    rw [List.length_cons, Nat.add_lt_add_iff_right] at hturns
    rw [Loop.run, List.find?_cons]
    cases hhit : hit a with
    | true => simp [findLoop, hhit]
    | false => simpa [findLoop, hhit, ha] using ih hnexts hturns

/-- The variables of the check of a chain: the item to check, the one in
front of it, and the number of items so far. -/
structure CheckState where
  item : Option ℕ
  prev : Option ℕ
  count : ℕ
  deriving DecidableEq, Repr

/-- The check that every item knows the one in front of it, which faults
where one does not. -/
def checkLoop (h : Links) : Loop CheckState where
  cond s := s.item.isSome
  body s := do
    let a ← s.item
    let c ← h a
    if c.prev = s.prev then return ⟨c.next, some a, s.count + 1⟩ else none

theorem Seg.check {n turns : ℕ} (hseg : Seg h q p l q' none) (hturns : l.length < turns) :
    (checkLoop h).run turns ⟨p, q, n⟩ = some ⟨none, q', n + l.length⟩ := by
  induction l generalizing q p n turns with
  | nil =>
    obtain ⟨rfl, rfl⟩ := hseg
    obtain ⟨turns, rfl⟩ : ∃ n, turns = n + 1 := ⟨turns - 1, by omega⟩
    rfl
  | cons a l ih =>
    obtain ⟨rfl, next, ha, hseg⟩ := hseg
    obtain ⟨turns, rfl⟩ : ∃ n, turns = n + 1 := ⟨turns - 1, by omega⟩
    rw [List.length_cons, Nat.add_lt_add_iff_right] at hturns
    have hrest := ih (n := n + 1) hseg hturns
    rw [Nat.add_right_comm, Nat.add_assoc, ← List.length_cons (a := a)] at hrest
    have hbody : (checkLoop h).body ⟨some a, q, n⟩ = some ⟨next, some a, n + 1⟩ := by
      simp [checkLoop, ha]
    rw [Loop.run, hbody]
    exact hrest

/-- **A chain passes its check**, which counts its items. -/
theorem Chain.check {turns : ℕ} (hchain : Chain h p l) (hturns : l.length < turns) :
    (checkLoop h).run turns ⟨p, none, 0⟩ = some ⟨none, l.getLast?, l.length⟩ := by
  obtain ⟨last, hseg⟩ := hchain.seg
  rw [hseg.check hturns, hseg.last_eq, Nat.zero_add]

end Doubly

end SmartLock
