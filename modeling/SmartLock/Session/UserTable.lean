import SmartLock.Common.Couples
import SmartLock.Model.UserTable
import SmartLock.Session.HashTable

/-!
# The session table in memory is the list of records

The functions of `user_info.c` run on blocks of memory, a hash table and
pointers into it; elsewhere they run on a list of records. Side by side,
over any run of calls, they return the same and fault alike, and the table
holds the records of the list, no two of one key. `malloc` has only to find
a block that is not in use.
-/

namespace SmartLock

open Prog

variable {W : World} {malloc : UserSys → Option ℕ} {t : UserSys} {s : Sys} {userIp : CStr}
  {els : List (ℕ × UserInfo)} {e : ℕ × UserInfo} {p : Option ℕ} {a : ℕ}

/-! ## The relation -/

/-- The blocks and the records in them, in the order they were added. No
two records are of one key. -/
structure UserSys.Shows (t : UserSys) (els : List (ℕ × UserInfo)) : Prop where
  holds : t.usersInfo.Holds (els.map Prod.fst)
  records : ∀ e ∈ els, t.records.block e.1 = some e.2
  keys : ∀ e ∈ els, t.usersInfo.keys e.1 = some ⟨e.2.key, hashJen e.2.key⟩
  distinct : (els.map fun e => e.2.key).Nodup

/-- The table in memory shows the list of records, and the rest of the lock
is the same. -/
def UserSys.Refines (t : UserSys) (s : Sys) : Prop :=
  ∃ els, t.Shows els ∧ s = { t.sys with usersInfo := els.map Prod.snd }

/-- The first of the records that has the key of an address. -/
def ofAddress (userIp : CStr) (els : List (ℕ × UserInfo)) : Option (ℕ × UserInfo) :=
  els.find? fun e => e.2.key = hashKey userIp

/-- The pointer leads to the record of an address, if there is one. -/
def Points (userIp : CStr) (p : Option ℕ) (t : UserSys) (s : Sys) : Prop :=
  ∃ els, t.Shows els ∧ s = { t.sys with usersInfo := els.map Prod.snd } ∧
    p = (ofAddress userIp els).map Prod.fst

theorem Points.refines (h : Points userIp p t s) : t.Refines s := by
  obtain ⟨els, hshows, heq, -⟩ := h
  exact ⟨els, hshows, heq⟩

theorem mem_of_ofAddress (h : ofAddress userIp els = some e) :
    e ∈ els ∧ e.2.key = hashKey userIp :=
  ⟨List.mem_of_find?_eq_some h, by simpa using List.find?_some h⟩

theorem user_eq_ofAddress (l : Sys) : Sys.user { l with usersInfo := els.map Prod.snd } userIp =
    (ofAddress userIp els).map Prod.snd := by
  rw [Sys.user, Keyed.lookup, List.find?_map]
  rfl

namespace UserSys.Shows

theorem turns (h : t.Shows els) : (els.map Prod.fst).length + 1 < t.turns := by
  rw [UserSys.turns, h.holds.count]
  exact Nat.lt_succ_self _

/-- A key has one record. -/
theorem unique (h : t.Shows els) {d : ℕ × UserInfo} (hd : d ∈ els) (he : e ∈ els)
    (hkey : d.2.key = e.2.key) : d = e :=
  List.inj_on_of_nodup_map h.distinct hd he hkey

/-- A block has one record. -/
theorem unique_block (h : t.Shows els) {d : ℕ × UserInfo} (hd : d ∈ els) (he : e ∈ els)
    (hblock : d.1 = e.1) : d = e :=
  List.inj_on_of_nodup_map h.holds.nodup hd he hblock

/-- **The macro finds the record of an address.** -/
theorem find_eq (h : t.Shows els) (userIp : CStr) :
    t.usersInfo.find t.turns (hashKey userIp) = some ((ofAddress userIp els).map Prod.fst) := by
  obtain ⟨out, hrun, hsome, hnone⟩ :=
    h.holds.find (Nat.lt_of_succ_lt h.turns) (hashKey userIp)
  rw [hrun]
  congr 1
  cases hof : ofAddress userIp els with
  | none =>
    cases out with
    | none => rfl
    | some a =>
      obtain ⟨ha, hkey⟩ := hsome a rfl
      obtain ⟨d, hd, rfl⟩ := List.mem_map.1 ha
      rw [h.keys d hd, Option.some.injEq, UTKey.mk.injEq] at hkey
      exact absurd hkey.1 (by simpa using List.find?_eq_none.1 hof d hd)
  | some e =>
    obtain ⟨he, hekey⟩ := mem_of_ofAddress hof
    cases out with
    | none =>
      refine absurd ?_ (hnone rfl e.1 (List.mem_map_of_mem he))
      rw [h.keys e he, hekey]
    | some a =>
      obtain ⟨ha, hkey⟩ := hsome a rfl
      obtain ⟨d, hd, rfl⟩ := List.mem_map.1 ha
      rw [h.keys d hd, Option.some.injEq, UTKey.mk.injEq] at hkey
      rw [h.unique hd he (hkey.1.trans hekey.symm)]
      rfl

/-- What is stored in the record of a block. -/
theorem update (h : t.Shows els) (he : e ∈ els) {f : UserInfo → UserInfo}
    (hf : ∀ r, (f r).userIp = r.userIp) :
    ({ t with records := t.records.store e.1 (f e.2) } : UserSys).Shows
      (els.map fun d => if d.1 = e.1 then (d.1, f d.2) else d) := by
  have hkey (r : UserInfo) : (f r).key = r.key := by rw [UserInfo.key, UserInfo.key, hf]
  have hfst : (els.map fun d => if d.1 = e.1 then (d.1, f d.2) else d).map Prod.fst =
      els.map Prod.fst := by
    rw [List.map_map]
    exact List.map_congr_left fun d _ => by simp only [Function.comp_apply]; split <;> rfl
  refine ⟨by rw [hfst]; exact h.holds, fun d hd => ?_, fun d hd => ?_, ?_⟩
  · obtain ⟨c, hc, rfl⟩ := List.mem_map.1 hd
    by_cases hce : c.1 = e.1
    · rw [if_pos hce, hce, h.unique_block hc he hce]
      exact Function.update_self ..
    · rw [if_neg hce]
      exact (Function.update_of_ne hce ..).trans (h.records c hc)
  · obtain ⟨c, hc, rfl⟩ := List.mem_map.1 hd
    by_cases hce : c.1 = e.1
    · rw [if_pos hce, hkey]
      exact h.keys c hc
    · rw [if_neg hce]
      exact h.keys c hc
  · have hkeys : (els.map fun d => if d.1 = e.1 then (d.1, f d.2) else d).map
        (fun d => d.2.key) = els.map fun d => d.2.key := by
      rw [List.map_map]
      refine List.map_congr_left fun d _ => ?_
      simp only [Function.comp_apply]
      split
      · exact hkey d.2
      · rfl
    rw [hkeys]
    exact h.distinct

end UserSys.Shows

/-- The list, with the record of an address changed. -/
theorem update_ofAddress (hnodup : (els.map Prod.fst).Nodup) (hof : ofAddress userIp els = some e)
    (f : UserInfo → UserInfo) :
    Keyed.update UserInfo.key (hashKey userIp) f (els.map Prod.snd) =
      (els.map fun d => if d.1 = e.1 then (d.1, f d.2) else d).map Prod.snd := by
  induction els with
  | nil => cases hof
  | cons d els ih =>
    rw [List.map_cons, List.nodup_cons] at hnodup
    rw [ofAddress, List.find?_cons] at hof
    simp only [List.map_cons, Keyed.update]
    by_cases hd : d.2.key = hashKey userIp
    · rw [decide_eq_true hd, Option.some.injEq] at hof
      subst hof
      rw [if_pos hd, if_pos rfl, List.map_map]
      refine congrArg _ (List.map_congr_left fun c hc => ?_)
      rw [Function.comp_apply, if_neg]
      exact fun heq => hnodup.1 (heq ▸ List.mem_map_of_mem hc)
    · rw [decide_eq_false hd] at hof
      have hne : d.1 ≠ e.1 := fun heq =>
        hnodup.1 (heq ▸ List.mem_map_of_mem (List.mem_of_find?_eq_some hof))
      rw [if_neg hd, if_neg hne, ih hnodup.2 hof]

theorem ofAddress_update {f : UserInfo → UserInfo} (hf : ∀ r, (f r).userIp = r.userIp)
    (hof : ofAddress userIp els = some e) :
    ofAddress userIp (els.map fun d => if d.1 = e.1 then (d.1, f d.2) else d) =
      some (e.1, f e.2) := by
  have hkey (r : UserInfo) : (f r).key = r.key := by rw [UserInfo.key, UserInfo.key, hf]
  have hsame : ((fun d : ℕ × UserInfo => decide (d.2.key = hashKey userIp)) ∘
      fun d => if d.1 = e.1 then (d.1, f d.2) else d) =
        fun d => decide (d.2.key = hashKey userIp) := by
    funext d
    simp only [Function.comp_apply]
    split
    · rw [hkey]
    · rfl
  rw [ofAddress] at hof ⊢
  rw [List.find?_map, hsame, hof, Option.map_some, if_pos rfl]

/-! ## The macros and the stores -/

open UserTable

/-- A program that does not look at the table does the same on both
sides. -/
theorem onLock_couples {α : Type} {m : M α}
    (hm : ∀ (l : List UserInfo) (s : Sys), m.run { s with usersInfo := l } =
      ((m.run s).1, { (m.run s).2 with usersInfo := l })) :
    Couples (Points userIp p) UserSys.Refines (UserTable.onLock m) m
      fun b b₀ t s => b = b₀ ∧ Points userIp p t s := by
  rintro t s ⟨els, hshows, rfl, hp⟩
  have hrun : (UserTable.onLock m).run t =
      ((m.run t.sys).1, { t with sys := (m.run t.sys).2 }) := rfl
  have hshows' (s' : Sys) : ({ t with sys := s' } : UserSys).Shows els :=
    ⟨hshows.holds, hshows.records, hshows.keys, hshows.distinct⟩
  rw [hrun, hm (els.map Prod.snd) t.sys]
  rcases (m.run t.sys).1 with e | b
  · exact ⟨rfl, els, hshows' _, rfl⟩
  · exact ⟨rfl, els, hshows' _, rfl, hp⟩

theorem faultIf_blind {c : Prop} [Decidable c] {e : Fault} (l : List UserInfo) (s : Sys) :
    (faultIf c e).run { s with usersInfo := l } =
      (((faultIf c e).run s).1, { ((faultIf c e).run s).2 with usersInfo := l }) := by
  rw [faultIf]
  split <;> rfl

/-- **The search of the table finds what the search of the list does.** -/
theorem hashFindInt_couples (userIp : CStr) :
    Couples UserSys.Refines UserSys.Refines (hashFindInt userIp) (SmartLock.getUserInfo userIp)
      fun p r t s => Points userIp p t s ∧ p.bind t.records.block = r := by
  rintro t s ⟨els, hshows, rfl⟩
  have hrun : (hashFindInt userIp).run t = (.ok ((ofAddress userIp els).map Prod.fst), t) := by
    rw [hashFindInt, run_get_bind, hshows.find_eq]
    rfl
  have hrun₀ : (SmartLock.getUserInfo userIp).run { t.sys with usersInfo := els.map Prod.snd } =
      (.ok ((ofAddress userIp els).map Prod.snd),
        { t.sys with usersInfo := els.map Prod.snd }) := by
    rw [← user_eq_ofAddress t.sys]
    rfl
  rw [hrun, hrun₀]
  refine ⟨⟨els, hshows, rfl, rfl⟩, ?_⟩
  cases hof : ofAddress userIp els with
  | none => rfl
  | some e => exact hshows.records e (mem_of_ofAddress hof).1

/-- A record is read through its pointer. -/
theorem readRecord_couples : Couples (Points userIp p) UserSys.Refines (readRecord p)
    (derefUser userIp) fun r r₀ t s => r = r₀ ∧ t.Refines s := by
  rintro t s ⟨els, hshows, rfl, rfl⟩
  have hrefines : t.Refines { t.sys with usersInfo := els.map Prod.snd } := ⟨els, hshows, rfl⟩
  rw [readRecord, derefUser, run_get_bind, run_get_bind, user_eq_ofAddress]
  cases hof : ofAddress userIp els with
  | none => exact ⟨rfl, hrefines⟩
  | some e =>
    rw [Option.map_some, Option.bind_some, hshows.records e (mem_of_ofAddress hof).1]
    exact ⟨rfl, hrefines⟩

/-- **A store through the pointer is a store into the record of the
address.** -/
theorem writeRecord_couples {f : UserInfo → UserInfo} (hf : ∀ r, (f r).userIp = r.userIp) :
    Couples (Points userIp (some a)) UserSys.Refines (writeRecord a f) (writeUser userIp f)
      fun _ _ t s => Points userIp (some a) t s := by
  rintro t s ⟨els, hshows, rfl, hp⟩
  obtain ⟨e, hof, rfl⟩ := Option.map_eq_some_iff.1 hp.symm
  have hrecord := hshows.records e (mem_of_ofAddress hof).1
  have hrun : (writeRecord e.1 f).run t =
      (.ok (), { t with records := t.records.store e.1 (f e.2) }) := by
    rw [writeRecord, readRecord, run_bind_bind, run_get_bind, Option.bind_some, hrecord]
    rfl
  rw [hrun]
  refine ⟨_, hshows.update (mem_of_ofAddress hof).1 hf, ?_, ?_⟩
  · rw [← update_ofAddress hshows.holds.nodup hof]
    rfl
  · rw [ofAddress_update hf hof]
    rfl

/-- A record is added in a block of its own. -/
theorem UserSys.Shows.add {r : UserInfo} (h : t.Shows els) (hblock : t.records.block a = none)
    (hr : ofAddress r.userIp els = none) :
    ∃ hash, t.usersInfo.add t.turns true a r.key = some hash ∧
      ({ t with
        usersInfo := hash
        records := t.records.store a r } : UserSys).Shows (els ++ [(a, r)]) := by
  have hnew : a ∉ els.map Prod.fst := fun hmem => by
    obtain ⟨e, he, rfl⟩ := List.mem_map.1 hmem
    rw [h.records e he] at hblock
    cases hblock
  obtain ⟨hash, hadd, hholds, hkeys⟩ := h.holds.add hnew h.turns r.key
  refine ⟨hash, hadd, ?_, fun e he => ?_, fun e he => ?_, ?_⟩
  · rw [List.map_append]
    exact hholds
  · rcases List.mem_append.1 he with he | he
    · have hne := ne_of_mem_of_not_mem (List.mem_map_of_mem (f := Prod.fst) he) hnew
      exact (Function.update_of_ne hne ..).trans (h.records e he)
    · rw [List.mem_singleton.1 he]
      exact Function.update_self ..
  · rw [hkeys]
    rcases List.mem_append.1 he with he | he
    · rw [Function.update_of_ne (ne_of_mem_of_not_mem (List.mem_map_of_mem he) hnew)]
      exact h.keys e he
    · rw [List.mem_singleton.1 he, Function.update_self]
  · rw [List.map_append, List.nodup_append]
    refine ⟨h.distinct, List.nodup_singleton _, fun k hk k' hk' heq => ?_⟩
    obtain ⟨e, he, rfl⟩ := List.mem_map.1 hk
    rw [List.mem_singleton.1 hk'] at heq
    exact List.find?_eq_none.1 hr e he (decide_eq_true heq)

theorem hashAddInt_run {hash : UTHash}
    (h : t.usersInfo.add t.turns true a (hashKey userIp) = some hash) :
    (hashAddInt a userIp).run t = (.ok (), { t with usersInfo := hash }) := by
  rw [hashAddInt, run_get_bind, h]
  rfl

/-- A record is added on both sides. -/
theorem addRecord_agree {r : UserInfo} (h : t.Shows els) (hblock : t.records.block a = none)
    (hr : ofAddress r.userIp els = none) :
    Agree UserSys.Refines (fun _ _ t s => Points r.userIp (some a) t s) ((addRecord a r).run t)
      ((do faultIf (r.userIp.length ≥ 45) .overflow; Prog.modify (Sys.addUser r) : M Unit).run
        { t.sys with usersInfo := els.map Prod.snd }) := by
  rw [addRecord, faultIf]
  by_cases hlen : r.userIp.length ≥ 45
  · rw [if_pos hlen]
    exact ⟨rfl, els, h, rfl⟩
  · obtain ⟨hash, hadd, hshows⟩ := h.add hblock hr
    have hrun := hashAddInt_run (t := { t with records := t.records.store a r }) hadd
    rw [if_neg hlen]
    change Agree _ _ ((hashAddInt a r.userIp).run
      { t with records := t.records.store a r }) _
    rw [hrun]
    refine ⟨_, hshows, ?_, ?_⟩
    · rw [List.map_append]
      rfl
    · rw [ofAddress, List.find?_append, ← ofAddress, hr, Option.none_or, List.find?_cons]
      rw [decide_eq_true (show r.key = hashKey r.userIp from rfl)]
      rfl

/-- **The record of an address is found, or added, on both sides.** -/
theorem findOrAdd_couples (hmalloc : ∀ t, ∃ a, malloc t = some a ∧ t.records.block a = none) :
    Couples UserSys.Refines UserSys.Refines (UserTable.findOrAdd W malloc userIp)
      (SmartLock.findOrAdd W userIp) fun a _ t s => Points userIp (some a) t s := by
  rintro t s ⟨els, hshows, rfl⟩
  have hfind : (hashFindInt userIp).run t = (.ok ((ofAddress userIp els).map Prod.fst), t) := by
    rw [hashFindInt, run_get_bind, hshows.find_eq]
    rfl
  rw [UserTable.findOrAdd, run_bind_ok hfind, SmartLock.findOrAdd, run_get_bind, user_eq_ofAddress]
  cases hof : ofAddress userIp els with
  | some e =>
    rw [if_neg (by simp)]
    exact ⟨els, hshows, rfl, by rw [hof]; rfl⟩
  | none =>
    obtain ⟨a, ha, hblock⟩ := hmalloc { t with sys := t.sys.ticked }
    have htick : (UserTable.onLock tick).run t =
        (.ok t.sys.moment, { t with sys := t.sys.ticked }) := rfl
    have hshows' : ({ t with sys := t.sys.ticked } : UserSys).Shows els :=
      ⟨hshows.holds, hshows.records, hshows.keys, hshows.distinct⟩
    have hagree := addRecord_agree (r := { W.freshUser t.sys.moment with userIp := userIp })
      hshows' hblock hof
    rw [Option.map_none, Option.map_none, if_pos rfl, run_tick_bind]
    dsimp only
    rw [run_bind_ok htick, run_get_bind, ha]
    exact hagree.map_left

/-! ## The functions -/

/-- What is done to the record of an address that is found or added. -/
theorem findOrAdd_then {α β : Type} {k : ℕ → Prog UserSys Fault α} {k₀ : M β}
    {Q : α → β → UserSys → Sys → Prop}
    (hmalloc : ∀ t, ∃ a, malloc t = some a ∧ t.records.block a = none)
    (hk : ∀ a, Couples (Points userIp (some a)) UserSys.Refines (k a) k₀ Q) :
    Couples UserSys.Refines UserSys.Refines (UserTable.findOrAdd W malloc userIp >>= k)
      (SmartLock.findOrAdd W userIp >>= fun _ => k₀) Q :=
  (findOrAdd_couples hmalloc).bind fun a _ => hk a

/-- The last store of a function. -/
theorem writeRecord_last {f : UserInfo → UserInfo} (hf : ∀ r, (f r).userIp = r.userIp) :
    Couples (Points userIp (some a)) UserSys.Refines (writeRecord a f) (writeUser userIp f)
      fun _ _ t s => t.Refines s :=
  (writeRecord_couples hf).conseq (fun _ _ => id) fun _ _ _ _ h => h.refines

theorem setUserState_couples (hmalloc : ∀ t, ∃ a, malloc t = some a ∧ t.records.block a = none)
    {state : UserState} {phoneId : CStr} :
    Couples UserSys.Refines UserSys.Refines (UserTable.setUserState W malloc userIp state phoneId)
      (SmartLock.setUserState W userIp state phoneId) fun _ _ t s => t.Refines s :=
  findOrAdd_then hmalloc fun _ => .bind (writeRecord_couples fun _ => rfl) fun _ _ =>
    .bind (onLock_couples faultIf_blind) fun _ _ =>
      (writeRecord_last (f := fun r => { r with phoneId := phoneId }) fun _ => rfl).conseq
        (fun _ _ h => h.2) fun _ _ _ _ => id

theorem generateRandomSeed_couples
    (hmalloc : ∀ t, ∃ a, malloc t = some a ∧ t.records.block a = none) :
    Couples UserSys.Refines UserSys.Refines (UserTable.generateRandomSeed W malloc userIp)
      (SmartLock.generateRandomSeed W userIp) fun r r₀ t s => r = r₀ ∧ t.Refines s := by
  refine findOrAdd_then hmalloc fun a => .bind (onLock_couples fun _ _ => rfl) fun m m₀ => ?_
  rintro t s ⟨rfl, hpoints⟩
  refine ((writeRecord_couples (f := fun r => { r with seed := some (W.fillRandom m 10) })
    fun _ => rfl) t s hpoints).bind fun _ _ t s hpoints => ?_
  refine (onLock_couples (m := observe _) (fun _ _ => rfl) t s hpoints).bind fun _ _ t s h => ?_
  exact ⟨rfl, h.2.refines⟩

theorem setAESCtx_couples (hmalloc : ∀ t, ∃ a, malloc t = some a ∧ t.records.block a = none)
    {ctx : AESContext} :
    Couples UserSys.Refines UserSys.Refines (UserTable.setAESCtx W malloc userIp ctx)
      (SmartLock.setAESCtx W userIp ctx) fun _ _ t s => t.Refines s :=
  findOrAdd_then hmalloc fun _ => writeRecord_last fun _ => rfl

/-- **The reset of the BLE session**: the record is looked for before the
state is set. -/
theorem setBLEUserStateToConnecting_couples
    (hmalloc : ∀ t, ∃ a, malloc t = some a ∧ t.records.block a = none) :
    Couples UserSys.Refines UserSys.Refines (UserTable.setBLEUserStateToConnecting W malloc)
      (SmartLock.setBLEUserStateToConnecting W) fun _ _ t s => t.Refines s := by
  rintro t s ⟨els, hshows, rfl⟩
  have hrefines : t.Refines { t.sys with usersInfo := els.map Prod.snd } := ⟨els, hshows, rfl⟩
  rw [UserTable.setBLEUserStateToConnecting, SmartLock.setBLEUserStateToConnecting, run_get_bind,
    run_get_bind]
  by_cases hcur : t.sys.currentBLEAddr = []
  · rw [if_pos hcur, if_neg fun h => h.1 hcur]
    exact hrefines
  · have hfind : (UserTable.getUserInfo t.sys.currentBLEAddr).run t =
        (.ok ((ofAddress t.sys.currentBLEAddr els).map Prod.fst), t) := by
      rw [UserTable.getUserInfo, hashFindInt, run_get_bind, hshows.find_eq]
      rfl
    rw [if_neg hcur, run_bind_ok hfind, user_eq_ofAddress]
    cases hof : ofAddress t.sys.currentBLEAddr els with
    | none =>
      rw [Option.map_none, Option.map_none, if_neg fun h => h.2 rfl]
      exact hrefines
    | some e =>
      rw [if_pos ⟨hcur, Option.some_ne_none _⟩]
      exact setUserState_couples hmalloc _ _ hrefines

/-- A getter reads the record its pointer leads to. -/
theorem getter_couples {α : Type} {g : UserInfo → α} :
    Couples UserSys.Refines UserSys.Refines
      (hashFindInt userIp >>= fun p => readRecord p >>= fun r => pure (g r))
      (derefUser userIp >>= fun r => pure (g r)) fun r r₀ t s => r = r₀ ∧ t.Refines s := by
  have hget : Couples UserSys.Refines UserSys.Refines (hashFindInt userIp) (pure () : M Unit)
      fun p _ t s => Points userIp p t s := by
    intro t s hrefines
    have hfind := hashFindInt_couples userIp t s hrefines
    rcases hrun : (hashFindInt userIp).run t with ⟨e | p, t'⟩ <;> rw [hrun] at hfind
    · exact hfind
    · exact hfind.1
  refine hget.bind_left fun p => readRecord_couples.bind fun r r₀ => ?_
  exact .pure fun t s ⟨hr, hrefines⟩ => ⟨by rw [hr], hrefines⟩

/-- **A record is deleted on both sides.** -/
theorem deleteUser_couples (userIp : CStr) :
    Couples UserSys.Refines UserSys.Refines
      (UserTable.getUserInfo userIp >>= fun p => UserTable.deleteUser p)
      (SmartLock.deleteUser userIp) fun _ _ t s => t.Refines s := by
  rintro t s ⟨els, hshows, rfl⟩
  have hfind : (UserTable.getUserInfo userIp).run t =
      (.ok ((ofAddress userIp els).map Prod.fst), t) := by
    rw [UserTable.getUserInfo, hashFindInt, run_get_bind, hshows.find_eq]
    rfl
  rw [run_bind_ok hfind, UserTable.deleteUser, SmartLock.deleteUser, run_get_bind, run_get_bind,
    user_eq_ofAddress]
  cases hof : ofAddress userIp els with
  | none => exact ⟨rfl, els, hshows, rfl⟩
  | some e =>
    obtain ⟨he, hkey⟩ := mem_of_ofAddress hof
    obtain ⟨hash, hdelete, hholds, hkeys⟩ := hshows.holds.delete (List.mem_map_of_mem he)
    rw [Option.map_some, Option.map_some, Option.bind_some, hdelete]
    have hfst : (els.filter fun d => d.1 ≠ e.1).map Prod.fst = (els.map Prod.fst).erase e.1 := by
      rw [hshows.holds.nodup.erase_eq_filter, List.filter_map]
      congr 1
      exact List.filter_congr fun d _ => by simp [bne, BEq.beq]
    have hsnd : (els.filter fun d => d.1 ≠ e.1).map Prod.snd =
        (els.map Prod.snd).filter fun r => r.key ≠ hashKey userIp := by
      rw [List.filter_map]
      congr 1
      refine List.filter_congr fun d hd => ?_
      rw [Function.comp_apply, decide_eq_decide, not_iff_not]
      constructor
      · exact fun heq => by rw [hshows.unique_block hd he heq, hkey]
      · exact fun heq => by rw [hshows.unique hd he (heq.trans hkey.symm)]
    refine ⟨els.filter fun d => d.1 ≠ e.1, ⟨by rw [hfst]; exact hholds, fun d hd => ?_,
      fun d hd => ?_, ?_⟩, by rw [hsnd]⟩
    · exact hshows.records d (List.mem_of_mem_filter hd)
    · rw [hkeys]
      exact hshows.keys d (List.mem_of_mem_filter hd)
    · exact hshows.distinct.sublist (List.filter_sublist.map _)

/-! ## Calls -/

/-- A function that returns nothing, as a call. -/
theorem void_couples {m : Prog UserSys Fault Unit} {m₀ : M Unit}
    (h : Couples UserSys.Refines UserSys.Refines m m₀ fun _ _ t s => t.Refines s) :
    Couples UserSys.Refines UserSys.Refines (m >>= fun _ => pure .void)
      (m₀ >>= fun _ => pure UserResult.void) fun r r₀ t s => r = r₀ ∧ t.Refines s :=
  h.bind fun _ _ => .pure fun _ _ hrefines => ⟨rfl, hrefines⟩

/-- A function that returns the same on both sides, as a call. -/
theorem result_couples {α : Type} {m : Prog UserSys Fault α} {m₀ : M α} (g : α → UserResult)
    (h : Couples UserSys.Refines UserSys.Refines m m₀ fun r r₀ t s => r = r₀ ∧ t.Refines s) :
    Couples UserSys.Refines UserSys.Refines (m >>= fun a => pure (g a))
      (m₀ >>= fun a => pure (g a)) fun r r₀ t s => r = r₀ ∧ t.Refines s :=
  h.bind fun _ _ => .pure fun _ _ ⟨hr, hrefines⟩ => ⟨by rw [hr], hrefines⟩

/-- The address of the BLE user is copied beside the table. -/
theorem setCurrentBLEAddr_couples {addr : CStr} :
    Couples UserSys.Refines UserSys.Refines (UserTable.setCurrentBLEAddr addr)
      (SmartLock.setCurrentBLEAddr addr) fun _ _ t s => t.Refines s := by
  rintro t s ⟨els, hshows, rfl⟩
  have hmemory : (UserTable.setCurrentBLEAddr addr).run t =
      (((SmartLock.setCurrentBLEAddr addr).run t.sys).1,
        { t with sys := ((SmartLock.setCurrentBLEAddr addr).run t.sys).2 }) := rfl
  rw [hmemory, SmartLock.setCurrentBLEAddr]
  by_cases hlong : addr.length ≥ 18
  · rw [faultIf, if_pos hlong]
    exact ⟨rfl, els, ⟨hshows.holds, hshows.records, hshows.keys, hshows.distinct⟩, rfl⟩
  · rw [faultIf, if_neg hlong]
    exact ⟨els, ⟨hshows.holds, hshows.records, hshows.keys, hshows.distinct⟩, rfl⟩

/-- **Every call does in memory what it does over the list.** -/
theorem UserCall.couples (hmalloc : ∀ t, ∃ a, malloc t = some a ∧ t.records.block a = none)
    (c : UserCall) :
    Couples UserSys.Refines UserSys.Refines (c.inMemory W malloc) (c.onList W)
      fun r r₀ t s => r = r₀ ∧ t.Refines s := by
  cases c with
  | setUserState => exact void_couples (setUserState_couples hmalloc)
  | generateRandomSeed => exact result_couples _ (generateRandomSeed_couples hmalloc)
  | setAESCtx => exact void_couples (setAESCtx_couples hmalloc)
  | setBLEUserStateToConnecting =>
    exact void_couples (setBLEUserStateToConnecting_couples hmalloc)
  | setCurrentBLEAddr addr => exact void_couples setCurrentBLEAddr_couples
  | getUserInfo =>
    refine (hashFindInt_couples _).bind fun p r => ?_
    rintro t s ⟨hpoints, rfl⟩
    exact ⟨rfl, hpoints.refines⟩
  | getUserState => exact result_couples _ getter_couples
  | getPhoneId => exact result_couples _ getter_couples
  | getUserSeed => exact result_couples _ getter_couples
  | getUserAESCtx => exact result_couples _ getter_couples
  | getCurrentBLEAddr =>
    rintro t s ⟨els, hshows, rfl⟩
    exact ⟨rfl, els, hshows, rfl⟩
  | deleteUser userIp =>
    intro t s hrefines
    have h := void_couples (deleteUser_couples userIp) t s hrefines
    rw [run_bind_bind] at h
    exact h
  | elsewhere rest =>
    rintro t s ⟨els, hshows, rfl⟩
    exact ⟨rfl, els, ⟨hshows.holds, hshows.records, hshows.keys, hshows.distinct⟩, rfl⟩

theorem boot_refines (s : Sys) (h : s.usersInfo = []) : (UserSys.boot s).Refines s := by
  refine ⟨[], ⟨.inl ⟨rfl, rfl⟩, ?_, ?_, List.nodup_nil⟩, ?_⟩
  · exact fun e he => absurd he List.not_mem_nil
  · exact fun e he => absurd he List.not_mem_nil
  · exact congrArg (fun l => { s with usersInfo := l }) h

/-- **The session table in memory refines the list of records**: from an
empty table, whatever is called in whatever order, both return the same
results and reach states that show the same records, or both stop with the
same fault. -/
theorem userTable_refines (hmalloc : ∀ t, ∃ a, malloc t = some a ∧ t.records.block a = none)
    (calls : List UserCall) (s : Sys) (h : s.usersInfo = []) :
    Agree UserSys.Refines (fun r r₀ t s => r = r₀ ∧ t.Refines s)
      ((results (UserCall.inMemory W malloc) calls).run (UserSys.boot s))
      ((results (UserCall.onList W) calls).run s) :=
  Couples.results (UserCall.couples hmalloc) calls _ _ (boot_refines s h)

/-- One address is registered, looked up and deleted. -/
theorem userTable_refines_lookup :
    Agree UserSys.Refines (fun r r₀ t s => r = r₀ ∧ t.Refines s)
      ((results (UserCall.inMemory (World.still .esp32s3 0) fun t => some t.records.top)
        [.setUserState [49, 46, 50] .connecting [], .getUserState [49, 46, 50], .deleteUser [49, 46, 50],
          .getUserInfo [49, 46, 50]]).run (UserSys.boot Sys.initial))
      ((results (UserCall.onList (World.still .esp32s3 0))
        [.setUserState [49, 46, 50] .connecting [], .getUserState [49, 46, 50], .deleteUser [49, 46, 50],
          .getUserInfo [49, 46, 50]]).run Sys.initial) :=
  userTable_refines (fun t => ⟨_, rfl, t.records.free _ (Nat.le_refl _)⟩) _ _ rfl

end SmartLock
