import SmartLock.Model.NonceList
import SmartLock.Nonce.Expiry

/-!
# The order of the nonce list

`addNonceSorted` stops at the first node that outlives the new one and puts
the new one behind it. `Inserted` is what the walk leaves of the list in
memory, and the list is then the one `insertNonce` gives: the old nodes and
the new one, in whatever order. An ordered list stays ordered exactly where
the walk runs to its end.
-/

namespace SmartLock

open Linked

variable {n : Nonce} {l : List Nonce}

/-! ## Lists -/

theorem insertAfter_sorted_iff {temp : Nonce} (h : SortedByExpiry (temp :: l)) :
    SortedByExpiry (insertAfter n temp l) ↔ ∀ x ∈ temp :: l, x.expires ≤ n.expires := by
  induction l generalizing temp with
  | nil => simp [insertAfter, SortedByExpiry]
  | cons u rest ih =>
    obtain ⟨htemp, hrest⟩ := List.pairwise_cons.1 h
    rw [insertAfter]
    split
    · rename_i hle
      rw [SortedByExpiry, List.pairwise_cons, List.forall_mem_cons]
      refine and_congr ⟨fun _ => hle, fun _ x hx => ?_⟩ (ih hrest)
      rcases List.mem_cons.1 ((insertAfter_perm n u rest).mem_iff.1 hx) with rfl | hx
      · exact hle
      · exact htemp x hx
    -- behind a node that outlives it the new one is out of order
    · rename_i hlt
      refine iff_of_false (fun hsorted => hlt ?_) fun hall => hlt (hall temp List.mem_cons_self)
      exact (List.pairwise_cons.1 hsorted).1 n List.mem_cons_self

/-- **An ordered list stays ordered exactly if no node outlives the new
one.** -/
theorem insertNonce_sorted_iff (h : SortedByExpiry l) :
    SortedByExpiry (insertNonce n l) ↔ ∀ x ∈ l, x.expires ≤ n.expires := by
  cases l with
  | nil => simp [insertNonce, SortedByExpiry]
  | cons temp rest => exact insertAfter_sorted_iff h

/-! ## The walk -/

variable {h h' : Heap Nonce} {a b : ℕ} {x : Nonce} {expires : Int} {p q : Option ℕ}
  {rest nodes : List (ℕ × Nonce)}

/-- What the walk leaves from `temp` on, a node `x` at `a` with `rest`
behind it: a list of the same nodes and the new one, as `insertAfter` has
it, and every other node as it was. -/
structure Inserted (h h' : Heap Nonce) (b : ℕ) (n : Nonce) (a : ℕ) (x : Nonce)
    (rest nodes : List (ℕ × Nonce)) : Prop where
  path : Path h' (some a) nodes none
  values : nodes.map Prod.snd = insertAfter n x (rest.map Prod.snd)
  perm : nodes.Perm ((b, n) :: (a, x) :: rest)
  frame : ∀ i, i ≠ b → i ∉ ((a, x) :: rest).map Prod.fst → h' i = h i

theorem addLoop_cond (ha : h a = some ⟨x, p⟩) :
    (addLoop b expires).cond ⟨h, a, false⟩ = decide (x.expires ≤ expires) := by
  simp [addLoop, ha]

/-- A turn to the next node. -/
theorem addLoop_next {u : ℕ} (ha : h a = some ⟨x, some u⟩) (hle : x.expires ≤ expires) :
    (addLoop b expires).Turn ⟨h, a, false⟩ ⟨h, u, false⟩ := by
  refine ⟨?_, ?_⟩
  · rw [addLoop_cond ha, decide_eq_true hle]
  · simp [addLoop, ha]

/-- The turn at the last node appends the new one and returns. -/
theorem addLoop_append (ha : h a = some ⟨x, none⟩) (hle : x.expires ≤ expires)
    (hlink : ((link h b none).bind fun h => link h a (some b)) = some h') :
    (addLoop b expires).Ends ⟨h, a, false⟩ ⟨h', a, true⟩ := by
  obtain ⟨h₁, hb, hlink⟩ := Option.bind_eq_some_iff.1 hlink
  refine .of_turn (t := ⟨h', a, true⟩) ⟨?_, ?_⟩ (.here rfl)
  · rw [addLoop_cond ha, decide_eq_true hle]
  · simp [addLoop, ha, hb, hlink]

/-- The loop stops at a node that outlives the new one. -/
theorem addLoop_stop (ha : h a = some ⟨x, p⟩) (hlt : ¬ x.expires ≤ expires) :
    (addLoop b expires).Ends ⟨h, a, false⟩ ⟨h, a, false⟩ :=
  .here (by rw [addLoop_cond ha, decide_eq_false hlt])

theorem AddWalk.insert_stopped (ha : h a = some ⟨x, p⟩) :
    AddWalk.insert b ⟨h, a, false⟩ = (link h b p).bind fun h => link h a (some b) := by
  simp [AddWalk.insert, ha]

/-- **The walk ends, and leaves the new node in the list.** -/
theorem addLoop_inserts (hpath : Path h (some a) ((a, x) :: rest) none)
    (hb : h b = some ⟨n, q⟩) (hnew : b ∉ ((a, x) :: rest).map Prod.fst) :
    ∃ w h' nodes, (addLoop b n.expires).Ends ⟨h, a, false⟩ w ∧ w.insert b = some h' ∧
      Inserted h h' b n a x rest nodes := by
  -- on the nodes behind `temp`: each is one turn, or the place of the new node
  induction rest generalizing a x with
  | nil =>
    obtain ⟨-, next, ha, rfl⟩ := hpath
    obtain ⟨h', hlink, hpath', hframe⟩ := (Path.cons ha Path.nil).link_behind ha hb hnew
    have hinserted : Inserted h h' b n a x [] [(a, x), (b, n)] := by
      refine ⟨hpath', rfl, List.Perm.swap .., fun i hib hi => hframe i ?_ hib⟩
      exact fun heq => hi (heq ▸ List.mem_cons_self)
    by_cases hle : x.expires ≤ n.expires
    · exact ⟨_, h', _, addLoop_append ha hle hlink, rfl, hinserted⟩
    · exact ⟨_, h', _, addLoop_stop ha hle, (AddWalk.insert_stopped ha).trans hlink, hinserted⟩
  | cons c rest ih =>
    obtain ⟨u, y⟩ := c
    have hnodup := (List.nodup_cons.1 hpath.nodup).1
    obtain ⟨-, next, ha, hrest⟩ := hpath
    obtain rfl := hrest.1
    by_cases hle : x.expires ≤ n.expires
    · obtain ⟨w, h', nodes, hends, hinsert, hleft⟩ :=
        ih hrest fun hmem => hnew (List.mem_cons_of_mem a hmem)
      have hab : a ≠ b := fun heq => hnew (heq ▸ List.mem_cons_self)
      refine ⟨w, h', (a, x) :: nodes, .of_turn (addLoop_next ha hle) hends, hinsert, ?_⟩
      refine ⟨.cons ((hleft.frame a hab hnodup).trans ha) hleft.path, ?_, ?_, fun i hib hi => ?_⟩
      · rw [List.map_cons, List.map_cons, insertAfter, if_pos hle, hleft.values]
      · exact (hleft.perm.cons (a, x)).trans (List.Perm.swap ..)
      · exact hleft.frame i hib fun hmem => hi (List.mem_cons_of_mem a hmem)
    · obtain ⟨h', hlink, hpath', hframe⟩ := (Path.cons ha hrest).link_behind ha hb hnew
      refine ⟨_, h', _, addLoop_stop ha hle, (AddWalk.insert_stopped ha).trans hlink, hpath', ?_,
        List.Perm.swap .., fun i hib hi => hframe i ?_ hib⟩
      · simp only [List.map_cons, insertAfter, if_neg hle]
      · exact fun heq => hi (heq ▸ List.mem_cons_self)

/-! ## The function -/

/-- `head` leads to these nodes, each with its address. -/
def NonceMem.Holds (m : NonceMem) (nodes : List (ℕ × Nonce)) : Prop :=
  Path m.nodes m.head nodes none

variable {m m' : NonceMem} {nodes' : List (ℕ × Nonce)} {block : NonceBlock}
  {malloc : Option NonceBlock} {nonce : Int} {turns turns' : ℕ}

/-- **`addNonceSorted` ends, and adds one node**: the list of `insertNonce`,
of the old nodes and the new one, and no node beside the list has
changed. -/
theorem NonceMem.addNonceSorted_spec (hlist : m.Holds nodes) (hnew : m.nodes block.addr = none)
    (nonce expires : Int) :
    ∃ turns m' nodes', m.addNonceSorted turns (some block) nonce expires = some m' ∧
      m'.Holds nodes' ∧
      nodes'.map Prod.snd = insertNonce ⟨nonce, expires⟩ (nodes.map Prod.snd) ∧
      nodes'.Perm ((block.addr, ⟨nonce, expires⟩) :: nodes) ∧
      ∀ i, i ≠ block.addr → i ∉ nodes.map Prod.fst → m'.nodes i = m.nodes i := by
  have hfresh : block.addr ∉ nodes.map Prod.fst := Path.fresh hlist hnew
  -- the block is written before the list is looked at
  have hwritten : Path (write m.nodes block.addr ⟨⟨nonce, expires⟩, block.next⟩) m.head nodes
      none := by
    refine Path.frame (fun c hc => write_of_ne _ ?_) hlist
    exact ne_of_mem_of_not_mem (List.mem_map_of_mem hc) hfresh
  cases nodes with
  | nil =>
    have hhead : m.head = none := hlist
    let nodes := write (write m.nodes block.addr ⟨⟨nonce, expires⟩, block.next⟩) block.addr
      ⟨⟨nonce, expires⟩, none⟩
    refine ⟨0, ⟨some block.addr, nodes⟩, [(block.addr, ⟨nonce, expires⟩)], ?_,
      Path.cons (write_self ..) Path.nil, rfl, List.Perm.refl _, fun i hi _ => ?_⟩
    · simp only [NonceMem.addNonceSorted, hhead, Option.bind_eq_bind, Option.bind_some,
        link_eq (write_self ..)]
      rfl
    · exact (write_of_ne _ hi).trans (write_of_ne _ hi)
  | cons c rest =>
    obtain ⟨a, x⟩ := c
    have hhead : m.head = some a := hlist.1
    rw [hhead] at hwritten
    obtain ⟨w, h', nodes', hends, hinsert, hleft⟩ :=
      addLoop_inserts hwritten (write_self ..) hfresh
    obtain ⟨turns, hturns⟩ := Loop.ends_iff_run.1 hends
    refine ⟨turns, ⟨m.head, h'⟩, nodes', ?_, ?_, hleft.values, hleft.perm, fun i hib hi => ?_⟩
    · simp only [NonceMem.addNonceSorted, hhead, Option.bind_eq_bind, Option.bind_some, hturns,
        hinsert]
      rfl
    · rw [NonceMem.Holds, hhead]
      exact hleft.path
    · exact (hleft.frame i hib hi).trans (write_of_ne _ hib)

/-- More turns than enough change nothing. -/
theorem NonceMem.addNonceSorted_mono
    (hrun : m.addNonceSorted turns malloc nonce expires = some m') (hle : turns ≤ turns') :
    m.addNonceSorted turns' malloc nonce expires = some m' := by
  simp only [NonceMem.addNonceSorted, Option.bind_eq_bind, Option.bind_eq_some_iff] at hrun ⊢
  obtain ⟨block, hblock, hrun⟩ := hrun
  refine ⟨block, hblock, ?_⟩
  cases hhead : m.head with
  | none =>
    rw [hhead] at hrun
    exact hrun
  | some temp =>
    simp only [hhead, Option.bind_eq_some_iff] at hrun ⊢
    obtain ⟨w, hw, hrest⟩ := hrun
    exact ⟨w, Loop.run_mono hw hle, hrest⟩

/-- It leaves one memory. -/
theorem NonceMem.addNonceSorted_unique {m'' : NonceMem}
    (hrun : m.addNonceSorted turns malloc nonce expires = some m')
    (hrun' : m.addNonceSorted turns' malloc nonce expires = some m'') : m' = m'' := by
  have hmax := addNonceSorted_mono hrun (le_max_left turns turns')
  rw [addNonceSorted_mono hrun' (le_max_right turns turns')] at hmax
  exact (Option.some.inj hmax).symm

/-- What `addNonceSorted` is named for: it ends, and leaves the nodes that
were there and the new one, in order. -/
def AddsInOrder (malloc : Option NonceBlock) (nonce expires : Int) (m : NonceMem)
    (nodes : List (ℕ × Nonce)) : Prop :=
  ∃ turns m' nodes' addr, m.addNonceSorted turns malloc nonce expires = some m' ∧
    m'.Holds nodes' ∧ nodes'.Perm ((addr, ⟨nonce, expires⟩) :: nodes) ∧
    SortedByExpiry (nodes'.map Prod.snd)

/-- Given a block it does, as far as `insertNonce` does. -/
theorem addsInOrder_some_iff (hlist : m.Holds nodes) (hnew : m.nodes block.addr = none) :
    AddsInOrder (some block) nonce expires m nodes ↔
      SortedByExpiry (insertNonce ⟨nonce, expires⟩ (nodes.map Prod.snd)) := by
  obtain ⟨turns, m', nodes', hrun, hholds, hvalues, hperm, -⟩ :=
    NonceMem.addNonceSorted_spec hlist hnew nonce expires
  rw [← hvalues]
  constructor
  · rintro ⟨turns', m'', nodes'', addr, hrun', hholds', -, hsorted⟩
    obtain rfl := NonceMem.addNonceSorted_unique hrun hrun'
    rwa [hholds.unique hholds']
  · exact fun hsorted => ⟨turns, m', nodes', block.addr, hrun, hholds, hperm, hsorted⟩

/-- **`addNonceSorted` keeps an ordered list in order exactly if no node of
it outlives the new one**, and it is given a block to put it in. -/
theorem addsInOrder_iff (hlist : m.Holds nodes) (hsorted : SortedByExpiry (nodes.map Prod.snd))
    (hmalloc : ∀ block ∈ malloc, m.nodes block.addr = none) :
    AddsInOrder malloc nonce expires m nodes ↔
      malloc ≠ none ∧ ∀ c ∈ nodes, c.2.expires ≤ expires := by
  cases malloc with
  | none => exact iff_of_false (fun ⟨_, _, _, _, hrun, _⟩ => by cases hrun) fun h => h.1 rfl
  | some block =>
    rw [addsInOrder_some_iff hlist (hmalloc block rfl), insertNonce_sorted_iff hsorted,
      List.forall_mem_map]
    exact (and_iff_right (Option.some_ne_none block)).symm

/-- One node, at 1, that lasts until 210. -/
def NonceMem.one : NonceMem := ⟨some 1, fun a => if a = 1 then some ⟨⟨1, 210⟩, none⟩ else none⟩

theorem NonceMem.one_holds : NonceMem.one.Holds [(1, ⟨1, 210⟩)] := Path.cons rfl Path.nil

/-- A nonce that lasts longer is appended. -/
theorem addsInOrder_longer : AddsInOrder (some ⟨2, none⟩) 2 220 NonceMem.one [(1, ⟨1, 210⟩)] :=
  (addsInOrder_iff NonceMem.one_holds (List.pairwise_singleton _ _)
    fun block hblock => by cases hblock; rfl).2 ⟨Option.some_ne_none _, by decide⟩

/-- A nonce that expires before the only node goes behind it all the
same. -/
theorem shorter_nonce_out_of_order : ¬ ∀ (m : NonceMem) (nodes : List (ℕ × Nonce))
    (block : NonceBlock) (nonce expires : Int), m.Holds nodes →
      SortedByExpiry (nodes.map Prod.snd) → m.nodes block.addr = none →
        AddsInOrder (some block) nonce expires m nodes := by
  intro h
  have hadds := h NonceMem.one [(1, ⟨1, 210⟩)] ⟨2, none⟩ 2 200 NonceMem.one_holds
    (List.pairwise_singleton _ _) rfl
  have hsorted := (addsInOrder_some_iff NonceMem.one_holds rfl).1 hadds
  have hle := (insertNonce_sorted_iff (List.pairwise_singleton _ _)).1 hsorted ⟨1, 210⟩
    List.mem_cons_self
  exact absurd hle (by decide)

end SmartLock
