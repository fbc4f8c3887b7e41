import SmartLock.Nonce.Sorted

/-!
# The nonce list in memory

`checkNonce` gives nodes back while it walks, and what it gives back is the
old head and not the node it stands at. It faults nowhere all the same:
over any run of the two functions from the empty list no node is followed
or given back that is not allocated, and the list in memory is the one the
walks over lists make. What is lost is memory: a node is left allocated and
off the list exactly where a walk drops one that has not expired.
-/

namespace SmartLock

open Linked

variable {h h' : Heap Nonce} {head : Option ℕ} {a : ℕ} {x : Nonce} {nonce now : Int} {valid : Bool}
  {cells front rest dropped freed kept : List (ℕ × Nonce)} {w : CheckWalk} {w₀ : NonceWalk}

/-! ## The walk of `checkNonce` -/

/-- What a walk does to the nodes of a list: it drops some off the front,
gives some of these back, and changes no other. It gives all of them back
exactly if they had expired. -/
structure Purge (now : Int) (h h' : Heap Nonce) (cells dropped freed kept : List (ℕ × Nonce)) :
    Prop where
  split : cells = dropped ++ kept
  sublist : freed.Sublist dropped
  memory : ∀ i, h' i = if i ∈ freed.map Prod.fst then none else h i
  exact : freed = dropped ↔ ∀ c ∈ dropped, c.2.expires ≤ now

/-- A walk that has ended agrees with one over a list of nonces. -/
structure CheckWalk.Agrees (w : CheckWalk) (w₀ : NonceWalk) (before : List Nonce)
    (freed kept : List (ℕ × Nonce)) : Prop where
  path : Path w.nodes w.head kept none
  valid : w.valid = w₀.valid
  head : kept.map Prod.snd = w₀.head
  freed : w₀.freed = before ++ freed.map Prod.snd

theorem Purge.none : Purge now h h cells [] [] cells :=
  ⟨rfl, List.Sublist.refl _, fun _ => rfl, iff_of_true rfl nofun⟩

theorem purgeLoop_cond {next : Option ℕ} (ha : h a = some ⟨x, next⟩) :
    (purgeLoop nonce now).cond ⟨h, head, a, valid, false⟩ = next.isSome := by
  simp [purgeLoop, ha]

/-- The turn at an expired node gives the old head back. -/
theorem purgeLoop_expired {u c : ℕ} {cell : Cell Nonce} (ha : h a = some ⟨x, some u⟩)
    (hexp : x.expires ≤ now) (hc : h c = some cell) :
    (purgeLoop nonce now).Turn ⟨h, some c, a, valid, false⟩
      ⟨Function.update h c none, some u, u, valid && x.nonce != nonce, false⟩ :=
  ⟨purgeLoop_cond ha, by simp [purgeLoop, ha, hexp, free_eq hc]⟩

/-- The turn past a node that lasts. -/
theorem purgeLoop_lasting {u : ℕ} (ha : h a = some ⟨x, some u⟩) (hexp : ¬ x.expires ≤ now)
    (hvalid : (valid && x.nonce != nonce) = true) :
    (purgeLoop nonce now).Turn ⟨h, head, a, valid, false⟩ ⟨h, head, u, true, false⟩ :=
  ⟨purgeLoop_cond ha, by
    simp only [purgeLoop, ha, Option.bind_eq_bind, Option.bind_some, if_neg hexp, hvalid]; rfl⟩

/-- The turn that leaves the loop. -/
theorem purgeLoop_breaks {u : ℕ} (ha : h a = some ⟨x, some u⟩) (hexp : ¬ x.expires ≤ now)
    (hvalid : (valid && x.nonce != nonce) = false) :
    (purgeLoop nonce now).Ends ⟨h, head, a, valid, false⟩ ⟨h, head, a, false, true⟩ :=
  .of_turn ⟨purgeLoop_cond ha, by
    simp only [purgeLoop, ha, Option.bind_eq_bind, Option.bind_some, if_neg hexp, hvalid]
    rfl⟩ (.here rfl)

/-- The old head goes, and with it every node up to an expired one. -/
theorem Purge.expired {c : ℕ × Nonce} {tl : List (ℕ × Nonce)} (hfront : front ++ [(a, x)] = c :: tl)
    (hlasting : ∀ d ∈ front, now < d.2.expires) (hexp : x.expires ≤ now)
    (hrest : Purge now (Function.update h c.1 Option.none) h' rest dropped freed kept) :
    Purge now h h' (front ++ (a, x) :: rest) (c :: tl ++ dropped) (c :: freed) kept := by
  refine ⟨?_, ?_, fun i => ?_, ?_⟩
  · rw [List.append_assoc, ← hrest.split, ← hfront, List.append_assoc]
    rfl
  · exact (hrest.sublist.trans (List.sublist_append_right tl dropped)).cons_cons c
  · rw [hrest.memory]
    by_cases hi : i = c.1
    · rw [hi, Function.update_self, ite_self, List.map_cons,
        if_pos (List.mem_cons_self ..)]
    · simp only [Function.update_of_ne hi, List.map_cons, List.mem_cons, hi, false_or]
  · cases front with
    -- the expired node is the old head
    | nil =>
      obtain ⟨rfl, rfl⟩ := List.cons.inj hfront
      rw [List.cons_append, List.cons.injEq, and_iff_right rfl, List.nil_append, hrest.exact,
        List.forall_mem_cons, and_iff_right hexp]
    -- the old head lasts, and more is dropped than given back
    | cons d front =>
      rw [List.cons_append, List.cons.injEq] at hfront
      obtain ⟨rfl, rfl⟩ := hfront
      refine iff_of_false (fun heq => ?_) fun hall => ?_
      · have hle := hrest.sublist.length_le
        have hlen := congrArg List.length heq
        simp only [List.length_cons, List.length_append, List.length_nil] at hlen
        omega
      · exact absurd (hall d List.mem_cons_self) (hlasting d List.mem_cons_self).not_ge

/-- **The walk ends**, wherever it stands: it agrees with the walk over the
list of the nonces, and purges the nodes. -/
theorem purgeLoop_walks (front : List (ℕ × Nonce)) (w₀ : NonceWalk)
    (hpath : Path h head (front ++ (a, x) :: rest) none)
    (hlasting : ∀ c ∈ front, now < c.2.expires) (hvalid : w₀.valid = valid)
    (hhead : w₀.head = (front ++ (a, x) :: rest).map Prod.snd) :
    ∃ w dropped freed kept, (purgeLoop nonce now).Ends ⟨h, head, a, valid, false⟩ w ∧
      Purge now h w.nodes (front ++ (a, x) :: rest) dropped freed kept ∧
      w.Agrees (checkLoop nonce now w₀ (((a, x) :: rest).map Prod.snd)) w₀.freed freed kept := by
  -- on the nodes behind `temp`; `front` are those since the head was last moved
  induction rest generalizing a x front h head valid w₀ with
  | nil =>
    obtain ⟨r, -, -, next, ha, rfl⟩ := path_append.1 hpath
    refine ⟨_, [], [], _, .here (purgeLoop_cond ha), .none, hpath, hvalid.symm, hhead.symm, ?_⟩
    exact (List.append_nil _).symm
  | cons d rest ih =>
    obtain ⟨u, y⟩ := d
    obtain ⟨r, -, -, next, ha, hrest⟩ := path_append.1 hpath
    obtain rfl := hrest.1
    have hnext : front ++ (a, x) :: (u, y) :: rest = (front ++ [(a, x)]) ++ (u, y) :: rest := by
      rw [List.append_assoc]
      rfl
    simp only [List.map_cons, checkLoop]
    by_cases hexp : x.expires ≤ now
    · obtain ⟨c, tl, hfront⟩ : ∃ c tl, front ++ [(a, x)] = c :: tl :=
        List.exists_cons_of_ne_nil (by simp)
      rw [hnext, hfront, List.cons_append] at hpath
      have hnodup := hpath.nodup
      obtain ⟨rfl, next, hc, -⟩ := hpath
      have hcrest : c.1 ∉ ((u, y) :: rest).map Prod.fst := fun hmem => by
        rw [List.map_cons, List.map_append] at hnodup
        exact (List.nodup_cons.1 hnodup).1 (List.mem_append_right _ hmem)
      have hold : w₀.head.take 1 = [c.2] := by
        rw [hhead, hnext, hfront]
        rfl
      rw [if_pos hexp, hold]
      obtain ⟨w, dropped, freed, kept, hends, hpurge, hagrees⟩ :=
        ih [] ⟨w₀.valid && x.nonce != nonce, y :: rest.map Prod.snd, w₀.freed ++ [c.2]⟩
          (hrest.free hcrest) (fun _ hc => absurd hc List.not_mem_nil) (by rw [hvalid]) rfl
      refine ⟨w, _, _, kept, .of_turn (purgeLoop_expired ha hexp hc) hends,
        hpurge.expired hfront hlasting hexp, hagrees.path, hagrees.valid, hagrees.head, ?_⟩
      exact hagrees.freed.trans (List.append_assoc ..)
    · rw [if_neg hexp, hvalid]
      cases hv : valid && x.nonce != nonce with
      | false =>
        refine ⟨_, [], [], _, purgeLoop_breaks ha hexp hv, .none, hpath, rfl, ?_, ?_⟩
        · exact hhead.symm
        · exact (List.append_nil _).symm
      | true =>
        rw [hnext] at hpath ⊢
        have hlasting' : ∀ c ∈ front ++ [(a, x)], now < c.2.expires := fun c hc => by
          rcases List.mem_append.1 hc with hc | hc
          · exact hlasting c hc
          · rw [List.mem_singleton.1 hc]
            exact not_le.1 hexp
        obtain ⟨w, dropped, freed, kept, hends, hpurge, hagrees⟩ :=
          ih _ { w₀ with valid := true } hpath hlasting' rfl (by rw [hhead, hnext])
        exact ⟨w, dropped, freed, kept, .of_turn (purgeLoop_lasting ha hexp hv) hends, hpurge,
          hagrees⟩

/-! ## The function -/

variable {m m' : NonceMem} {nodes : List (ℕ × Nonce)} {turns turns' : ℕ}

/-- **`checkNonce` ends, and does to the nodes what the walk over the list
of their nonces does.** -/
theorem NonceMem.checkNonce_spec (hlist : m.Holds nodes) (nonce now : Int) :
    ∃ turns m' dropped freed kept,
      m.checkNonce turns nonce now =
        some ((checkList nonce now (nodes.map Prod.snd)).valid, m') ∧
      m'.Holds kept ∧ kept.map Prod.snd = (checkList nonce now (nodes.map Prod.snd)).head ∧
      Purge now m.nodes m'.nodes nodes dropped freed kept := by
  cases nodes with
  | nil =>
    have hhead : m.head = none := hlist
    refine ⟨0, m, [], [], [], ?_, hlist, rfl, .none⟩
    rw [NonceMem.checkNonce, hhead]
    rfl
  | cons c rest =>
    obtain ⟨a, x⟩ := c
    have hhead : m.head = some a := hlist.1
    obtain ⟨next, ha, -⟩ := hlist.2
    obtain ⟨w, dropped, freed, kept, hends, hpurge, hagrees⟩ :=
      purgeLoop_walks [] ⟨x.nonce != nonce, x :: rest.map Prod.snd, []⟩ hlist nofun rfl rfl
    obtain ⟨turns, hturns⟩ := Loop.ends_iff_run.1 hends
    refine ⟨turns, ⟨w.head, w.nodes⟩, dropped, freed, kept, ?_, hagrees.path, hagrees.head, hpurge⟩
    simp only [NonceMem.checkNonce, hhead] at hturns ⊢
    simp only [ha, Option.bind_eq_bind, Option.bind_some, hturns, hagrees.valid]
    rfl

/-- More turns than enough change nothing. -/
theorem NonceMem.checkNonce_mono {r : Bool × NonceMem}
    (hrun : m.checkNonce turns nonce now = some r) (hle : turns ≤ turns') :
    m.checkNonce turns' nonce now = some r := by
  rw [NonceMem.checkNonce] at hrun ⊢
  cases hhead : m.head with
  | none =>
    rw [hhead] at hrun
    exact hrun
  | some a =>
    simp only [hhead, Option.bind_eq_bind, Option.bind_eq_some_iff] at hrun ⊢
    obtain ⟨temp, htemp, w, hw, hrest⟩ := hrun
    exact ⟨temp, htemp, w, Loop.run_mono hw hle, hrest⟩

/-! ## Runs of the two functions -/

/-- A call of one of the two functions, with what `malloc` returns in it or
the time it reads. -/
inductive NonceCall
  | add (block : NonceBlock) (nonce expires : Int)
  | check (nonce now : Int)
  deriving DecidableEq, Repr

namespace NonceCall

/-- The verdict of a call, if it gives one, and the memory it leaves. -/
def exec (turns : ℕ) : NonceCall → NonceMem → Option (Option Bool × NonceMem)
  | add block nonce expires, m =>
    (m.addNonceSorted turns (some block) nonce expires).map fun m => (none, m)
  | check nonce now, m => (m.checkNonce turns nonce now).map fun r => (some r.1, r.2)

/-- What `malloc` returns is not allocated. -/
def Fresh (m : NonceMem) : NonceCall → Prop
  | add block _ _ => m.nodes block.addr = none
  | check _ _ => True

/-- The verdict of a call over a list, and the list it leaves. -/
def onList : NonceCall → List Nonce → Option Bool × List Nonce
  | add _ nonce expires, l => (none, insertNonce ⟨nonce, expires⟩ l)
  | check nonce now, l => (some (checkList nonce now l).valid, (checkList nonce now l).head)

/-- The call drops a node that has not expired. -/
def DropsLasting (l : List Nonce) : NonceCall → Prop
  | add .. => False
  | check nonce now => ∃ dropped, l = dropped ++ (checkList nonce now l).head ∧
      ∃ x ∈ dropped, now < x.expires

variable {c : NonceCall} {calls : List NonceCall} {r r' : Option Bool × NonceMem}
  {leaked : List ℕ}

theorem exec_mono (hrun : c.exec turns m = some r) (hle : turns ≤ turns') :
    c.exec turns' m = some r := by
  cases c with
  | add block nonce expires =>
    obtain ⟨m', hm', heq⟩ := Option.map_eq_some_iff.1 hrun
    exact Option.map_eq_some_iff.2 ⟨m', NonceMem.addNonceSorted_mono hm' hle, heq⟩
  | check nonce now =>
    obtain ⟨v, hv, heq⟩ := Option.map_eq_some_iff.1 hrun
    exact Option.map_eq_some_iff.2 ⟨v, NonceMem.checkNonce_mono hv hle, heq⟩

/-- A call has one outcome. -/
theorem exec_unique (hrun : c.exec turns m = some r) (hrun' : c.exec turns' m = some r') :
    r = r' := by
  have hmax := exec_mono hrun (le_max_left turns turns')
  rw [exec_mono hrun' (le_max_right turns turns')] at hmax
  exact (Option.some.inj hmax).symm

end NonceCall

/-- The runs of calls from the empty list, given what `malloc` may
return. -/
inductive MemRun : List NonceCall → NonceMem → Prop
  | empty : MemRun [] ⟨none, fun _ => none⟩
  | call {calls : List NonceCall} {m m' : NonceMem} {verdict : Option Bool} (c : NonceCall)
      (turns : ℕ) : MemRun calls m → c.Fresh m → c.exec turns m = some (verdict, m') →
      MemRun (calls ++ [c]) m'

/-- The list a run of calls leaves, over lists. -/
def nonceList (calls : List NonceCall) : List Nonce := calls.foldl (fun l c => (c.onList l).2) []

@[simp] theorem nonceList_concat (calls : List NonceCall) (c : NonceCall) :
    nonceList (calls ++ [c]) = (c.onList (nonceList calls)).2 := by
  rw [nonceList, List.foldl_append]
  rfl

/-- What is allocated is on the list or lost. -/
structure NonceMem.Accounts (m : NonceMem) (nodes : List (ℕ × Nonce)) (lost : List ℕ) : Prop where
  holds : m.Holds nodes
  allocated : ∀ i, m.nodes i ≠ none ↔ i ∈ nodes.map Prod.fst ∨ i ∈ lost
  apart : ∀ i ∈ lost, i ∉ nodes.map Prod.fst

variable {calls : List NonceCall} {c : NonceCall} {lost : List ℕ} {verdict : Option Bool}

theorem Purge.lost_iff (hpurge : Purge now h h' nodes dropped freed kept)
    (hnodup : (nodes.map Prod.fst).Nodup) :
    (dropped.map Prod.fst).filter (fun i => i ∉ freed.map Prod.fst) = [] ↔
      ∀ c ∈ dropped, c.2.expires ≤ now := by
  rw [← hpurge.exact, List.filter_eq_nil_iff]
  constructor
  · intro hall
    have hsub : dropped.map Prod.fst ⊆ freed.map Prod.fst := fun i hi => by simpa using hall i hi
    rw [hpurge.split, List.map_append] at hnodup
    have hle := (List.subperm_of_subset hnodup.of_append_left hsub).length_le
    rw [List.length_map, List.length_map] at hle
    exact hpurge.sublist.eq_of_length_le hle
  · rintro rfl i hi
    simp [hi]

/-- A new node goes on the list. -/
theorem NonceMem.Accounts.add {block : NonceBlock} {expires : Int} (h : m.Accounts nodes lost)
    (hnew : m.nodes block.addr = none)
    (hrun : m.addNonceSorted turns (some block) nonce expires = some m') :
    ∃ nodes', m'.Accounts nodes' lost ∧
      nodes'.map Prod.snd = insertNonce ⟨nonce, expires⟩ (nodes.map Prod.snd) := by
  obtain ⟨turns', m'', nodes', hrun', hholds, hvalues, hperm, hframe⟩ :=
    addNonceSorted_spec h.holds hnew nonce expires
  obtain rfl := addNonceSorted_unique hrun hrun'
  have hmem (i : ℕ) : i ∈ nodes'.map Prod.fst ↔ i = block.addr ∨ i ∈ nodes.map Prod.fst := by
    rw [(hperm.map Prod.fst).mem_iff, List.map_cons, List.mem_cons]
  refine ⟨nodes', ⟨hholds, fun i => ?_, fun i hi => ?_⟩, hvalues⟩
  · by_cases hi : i ∈ nodes'.map Prod.fst
    · obtain ⟨⟨a, x⟩, hx, rfl⟩ := List.mem_map.1 hi
      obtain ⟨next, ha⟩ := Path.allocated hholds hx
      exact iff_of_true (by rw [ha]; exact Option.some_ne_none _) (.inl hi)
    · have hout := not_or.1 (mt (hmem i).2 hi)
      rw [hframe i hout.1 hout.2, h.allocated]
      exact or_congr (iff_of_false hout.2 hi) Iff.rfl
  · rw [hmem, not_or]
    refine ⟨fun heq => ?_, h.apart i hi⟩
    exact (h.allocated i).2 (.inr hi) (heq ▸ hnew)

/-- A check loses the nodes it drops and does not give back. -/
theorem NonceMem.Accounts.check (valid : Bool) (h : m.Accounts nodes lost)
    (hrun : m.checkNonce turns nonce now = some (valid, m')) :
    ∃ kept dropped gone, m'.Accounts kept (lost ++ gone) ∧
      kept.map Prod.snd = (checkList nonce now (nodes.map Prod.snd)).head ∧
      nodes = dropped ++ kept ∧ (gone = [] ↔ ∀ c ∈ dropped, c.2.expires ≤ now) := by
  obtain ⟨turns', m'', dropped, freed, kept, hrun', hholds, hvalues, hpurge⟩ :=
    checkNonce_spec h.holds nonce now
  obtain rfl : m' = m'' := congrArg Prod.snd (NonceCall.exec_unique (c := .check nonce now)
    (Option.map_eq_some_iff.2 ⟨_, hrun, rfl⟩) (Option.map_eq_some_iff.2 ⟨_, hrun', rfl⟩))
  have hnodup := Path.nodup h.holds
  rw [hpurge.split, List.map_append, List.nodup_append] at hnodup
  refine ⟨kept, dropped, _, ⟨hholds, fun i => ?_, fun i hi => ?_⟩, hvalues, hpurge.split,
    hpurge.lost_iff (Path.nodup h.holds)⟩
  · have hfreed : i ∈ freed.map Prod.fst → i ∈ dropped.map Prod.fst :=
      fun hi => (hpurge.sublist.map Prod.fst).subset hi
    rw [hpurge.memory, List.mem_append, List.mem_filter, decide_eq_true_iff]
    by_cases hi : i ∈ freed.map Prod.fst
    · rw [if_pos hi]
      refine iff_of_false (fun hne => hne rfl) ?_
      rintro (hkept | hlost | ⟨-, hno⟩)
      · exact hnodup.2.2 i (hfreed hi) i hkept rfl
      · refine h.apart i hlost ?_
        rw [hpurge.split, List.map_append]
        exact List.mem_append_left _ (hfreed hi)
      · exact hno hi
    · rw [if_neg hi, h.allocated, hpurge.split, List.map_append, List.mem_append]
      simp only [hi, not_false_eq_true, and_true]
      tauto
  · intro hkept
    rcases List.mem_append.1 hi with hi | hi
    · refine h.apart i hi ?_
      rw [hpurge.split, List.map_append]
      exact List.mem_append_right _ hkept
    · exact hnodup.2.2 i (List.mem_filter.1 hi).1 i hkept rfl

/-- The nodes a check drops are those in front of the list it leaves. -/
theorem NonceCall.dropsLasting_check_iff {l dropped : List Nonce}
    (hsplit : l = dropped ++ (checkList nonce now l).head) :
    (NonceCall.check nonce now).DropsLasting l ↔ ¬ ∀ x ∈ dropped, x.expires ≤ now := by
  rw [DropsLasting]
  constructor
  · rintro ⟨dropped', hsplit', x, hx, hlt⟩ hall
    obtain rfl := List.append_cancel_right (hsplit'.symm.trans hsplit)
    exact absurd (hall x hx) hlt.not_ge
  · intro h
    push Not at h
    exact ⟨dropped, hsplit, h⟩

/-- Nothing is lost until a check drops a node that has not expired. -/
def NeverDropsLasting (calls : List NonceCall) : Prop :=
  ∀ pre c post, calls = pre ++ c :: post → ¬ c.DropsLasting (nonceList pre)

theorem neverDropsLasting_concat : NeverDropsLasting (calls ++ [c]) ↔
    NeverDropsLasting calls ∧ ¬ c.DropsLasting (nonceList calls) := by
  constructor
  · refine fun h => ⟨fun pre d post heq => ?_, h calls c [] rfl⟩
    exact h pre d (post ++ [c]) (by rw [heq, List.append_assoc, List.cons_append])
  · rintro ⟨hcalls, hc⟩ pre d post heq
    rcases List.eq_nil_or_concat post with rfl | ⟨post, e, rfl⟩
    · obtain ⟨rfl, hcd⟩ := List.append_inj' heq rfl
      rwa [← (List.cons.inj hcd).1]
    · rw [List.concat_eq_append, ← List.cons_append, ← List.append_assoc] at heq
      exact hcalls pre d post (List.append_inj' heq rfl).1

/-- **The account of a run**: what is allocated is on the list, which is the
one the walks over lists make, or was lost by a check. -/
theorem MemRun.accounts (h : MemRun calls m) : ∃ nodes lost, m.Accounts nodes lost ∧
    nodes.map Prod.snd = nonceList calls ∧ (lost = [] ↔ NeverDropsLasting calls) := by
  induction h with
  | empty =>
    refine ⟨[], [], ⟨Path.nil, fun i => ?_, nofun⟩, rfl, iff_of_true rfl fun pre c post heq => ?_⟩
    · exact iff_of_false (fun hne => hne rfl) (by simp)
    · exact absurd heq (by simp)
  | @call calls m m' verdict c turns _ hfresh hrun ih =>
    obtain ⟨nodes, lost, haccounts, hlist, hlost⟩ := ih
    cases c with
    | add block nonce expires =>
      obtain ⟨m₁, hadd, heq⟩ := Option.map_eq_some_iff.1 hrun
      obtain rfl : m₁ = m' := congrArg Prod.snd heq
      obtain ⟨nodes', haccounts', hlist'⟩ := haccounts.add hfresh hadd
      refine ⟨nodes', lost, haccounts', ?_, ?_⟩
      · rw [nonceList_concat, hlist', hlist]
        rfl
      · rw [neverDropsLasting_concat, hlost]
        exact (and_iff_left id).symm
    | check nonce now =>
      obtain ⟨r, hcheck, heq⟩ := Option.map_eq_some_iff.1 hrun
      obtain ⟨kept, dropped, gone, haccounts', hlist', hsplit, hgone⟩ :=
        haccounts.check r.1 hcheck
      obtain rfl : r.2 = m' := congrArg Prod.snd heq
      refine ⟨kept, _, haccounts', ?_, ?_⟩
      · rw [nonceList_concat, hlist', hlist]
        rfl
      · have hdrops : nonceList calls = dropped.map Prod.snd ++
            (checkList nonce now (nonceList calls)).head := by
          rw [← hlist, ← hlist', hsplit, List.map_append]
        rw [List.append_eq_nil_iff, neverDropsLasting_concat, hlost, hgone,
          NonceCall.dropsLasting_check_iff hdrops, not_not, List.forall_mem_map]

/-- **Any run of the two functions is safe**: every next call ends without
following, or giving back, a pointer that is null or dangling, and gives
the verdict of the walk over the list. -/
theorem MemRun.safe (h : MemRun calls m) :
    (∃ nodes, m.Holds nodes ∧ nodes.map Prod.snd = nonceList calls) ∧
      ∀ c : NonceCall, c.Fresh m →
        ∃ m', (∃ turns, c.exec turns m = some ((c.onList (nonceList calls)).1, m')) ∧
          ∀ turns r, c.exec turns m = some r → r = ((c.onList (nonceList calls)).1, m') := by
  obtain ⟨nodes, lost, haccounts, hlist, -⟩ := h.accounts
  refine ⟨⟨nodes, haccounts.holds, hlist⟩, fun c hfresh => ?_⟩
  obtain ⟨turns, m', hrun⟩ :
      ∃ turns m', c.exec turns m = some ((c.onList (nonceList calls)).1, m') := by
    rw [← hlist]
    cases c with
    | add block nonce expires =>
      obtain ⟨turns, m', -, hrun, -⟩ :=
        NonceMem.addNonceSorted_spec haccounts.holds hfresh nonce expires
      exact ⟨turns, m', Option.map_eq_some_iff.2 ⟨m', hrun, rfl⟩⟩
    | check nonce now =>
      obtain ⟨turns, m', -, -, -, hrun, -⟩ := NonceMem.checkNonce_spec haccounts.holds nonce now
      exact ⟨turns, m', Option.map_eq_some_iff.2 ⟨_, hrun, rfl⟩⟩
  exact ⟨m', ⟨turns, hrun⟩, fun turns' r hr => NonceCall.exec_unique hr hrun⟩

/-- **Memory is lost by a run** exactly if one of its checks dropped a node
that had not expired. -/
theorem MemRun.leaks_iff (h : MemRun calls m) :
    (∃ i, m.nodes i ≠ none ∧ ∀ nodes, m.Holds nodes → i ∉ nodes.map Prod.fst) ↔
      ∃ pre c post, calls = pre ++ c :: post ∧ c.DropsLasting (nonceList pre) := by
  obtain ⟨nodes, lost, haccounts, -, hlost⟩ := h.accounts
  have hnever : (∃ pre c post, calls = pre ++ c :: post ∧ c.DropsLasting (nonceList pre)) ↔
      lost ≠ [] := by
    rw [ne_eq, hlost, NeverDropsLasting]
    push Not
    rfl
  rw [hnever]
  constructor
  · rintro ⟨i, halloc, hout⟩ rfl
    exact ((haccounts.allocated i).1 halloc).elim (hout nodes haccounts.holds) nofun
  · intro hne
    obtain ⟨i, hi⟩ := List.exists_mem_of_ne_nil lost hne
    refine ⟨i, (haccounts.allocated i).2 (.inr hi), fun nodes' hholds => ?_⟩
    rw [hholds.unique haccounts.holds]
    exact haccounts.apart i hi

/-- A nonce that expires at 110 behind one that lasts until 310, a third
behind both, and a check at 200. -/
def lastingInFront : List NonceCall :=
  [.add ⟨1, none⟩ 1 310, .add ⟨2, none⟩ 2 110, .add ⟨3, none⟩ 3 400, .check 4 200]

theorem exists_memRun_lastingInFront : ∃ m, MemRun lastingInFront m := by
  have h₁ := MemRun.call (.add ⟨1, none⟩ 1 310) 0 .empty rfl rfl
  have h₂ := MemRun.call (.add ⟨2, none⟩ 2 110) 1 h₁ rfl rfl
  have h₃ := MemRun.call (.add ⟨3, none⟩ 3 400) 3 h₂ rfl rfl
  exact ⟨_, MemRun.call (.check 4 200) 3 h₃ trivial rfl⟩

/-- The run is safe. -/
theorem safe_lastingInFront : ∃ m, MemRun lastingInFront m ∧
    (∃ nodes, m.Holds nodes ∧ nodes.map Prod.snd = nonceList lastingInFront) ∧
      ∀ c : NonceCall, c.Fresh m →
        ∃ m', (∃ turns, c.exec turns m = some ((c.onList (nonceList lastingInFront)).1, m')) ∧
          ∀ turns r, c.exec turns m = some r →
            r = ((c.onList (nonceList lastingInFront)).1, m') := by
  obtain ⟨m, hrun⟩ := exists_memRun_lastingInFront
  exact ⟨m, hrun, MemRun.safe hrun⟩

/-- The run loses a node: the check drops two and gives one back. -/
theorem leaks_lastingInFront : ∃ m, MemRun lastingInFront m ∧
    ∃ i, m.nodes i ≠ none ∧ ∀ nodes, m.Holds nodes → i ∉ nodes.map Prod.fst := by
  obtain ⟨m, hrun⟩ := exists_memRun_lastingInFront
  refine ⟨m, hrun, (MemRun.leaks_iff hrun).2 ⟨lastingInFront.take 3, .check 4 200, [], rfl, ?_⟩⟩
  exact ⟨[⟨1, 310⟩, ⟨2, 110⟩], by decide, ⟨1, 310⟩, by decide, by decide⟩

end SmartLock
