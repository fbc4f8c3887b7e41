import SmartLock.Model.System
import Mathlib.Data.Set.Function

/-!
# The session table as a map

What the writers of `user_info.c` do to the records the getters find. A
writer changes the record of its address and the record of no address with
another key, and this is the whole of what the later modules use.

Whether the table is a map of the addresses themselves is then a matter of
keys: it is one on a set of addresses exactly if no two of them share their
first four bytes.
-/

namespace SmartLock

open Prog

variable {W : World} {a b : CStr} {s s' : Sys}

/-! ## What a writer does -/

@[simp] theorem user_noted (o : Obs) : (s.noted o).user b = s.user b := rfl

theorem user_addUser_self {r : UserInfo} (h : s.user r.userIp = none) :
    (s.addUser r).user r.userIp = some r := Keyed.lookup_append_self h rfl

theorem user_addUser_of_ne {r : UserInfo} (h : hashKey b ≠ r.key) :
    (s.addUser r).user b = s.user b := Keyed.lookup_append_of_ne h.symm _

/-- A record found stays found. -/
theorem isSome_user_addUser {r : UserInfo} (h : (s.user b).isSome) :
    ((s.addUser r).user b).isSome := by
  rw [Sys.user, Keyed.lookup, List.find?_isSome] at h ⊢
  obtain ⟨x, hx, hk⟩ := h
  exact ⟨x, List.mem_append_left _ hx, hk⟩

theorem isSome_user_updateUser {g : UserInfo → UserInfo} (hg : ∀ r, (g r).userIp = r.userIp)
    (h : (s.user b).isSome) : ((s.updateUser a g).user b).isSome := by
  have hkey (r : UserInfo) : UserInfo.key (g r) = UserInfo.key r := by
    rw [UserInfo.key, UserInfo.key, hg]
  by_cases hb : hashKey b = hashKey a
  · rw [Sys.user, hb] at h ⊢
    rw [Sys.updateUser, Keyed.lookup_update_self hkey, Option.isSome_map]
    exact h
  · rw [Sys.user, Sys.updateUser, Keyed.lookup_update_of_ne hkey hb]
    exact h

/-- Addresses of one key find the same record. -/
theorem Sys.user_congr (h : hashKey a = hashKey b) : s.user a = s.user b := by
  rw [Sys.user, Sys.user, h]

/-- The record of `a` was changed by `g`, having been added where there
was none, and no record of another key was. -/
structure Wrote (a : CStr) (g : UserInfo → UserInfo) (s s' : Sys) : Prop where
  self : ∃ r, s'.user a = some (g r) ∧ ∀ r₀, s.user a = some r₀ → r = r₀
  others : ∀ b, hashKey b ≠ hashKey a → s'.user b = s.user b

/-- The record a writer found is the one it changed. -/
theorem Wrote.of_some {g : UserInfo → UserInfo} {r : UserInfo} (h : Wrote a g s s')
    (hr : s.user a = some r) : s'.user a = some (g r) := by
  obtain ⟨r', h', heq⟩ := h.self
  rw [h', heq r hr]

/-- Only the table counts. -/
theorem Wrote.congr {g : UserInfo → UserInfo} {t : Sys} (h : Wrote a g s s')
    (ht : t.usersInfo = s'.usersInfo) : Wrote a g s t := by
  have huser (b : CStr) : t.user b = s'.user b := by rw [Sys.user, Sys.user, ht]
  obtain ⟨r, hr, heq⟩ := h.self
  exact ⟨⟨r, by rw [huser, hr], heq⟩, fun b hb => by rw [huser, h.others b hb]⟩

/-- A store into a record that is there. -/
theorem Wrote.updateUser {f : UserInfo → UserInfo} (g : UserInfo → UserInfo)
    (hg : ∀ r, (g r).userIp = r.userIp) (h : Wrote a f s s') :
    Wrote a (fun r => g (f r)) s (s'.updateUser a g) := by
  have hkey (r : UserInfo) : UserInfo.key (g r) = UserInfo.key r := by
    rw [UserInfo.key, UserInfo.key, hg]
  obtain ⟨r, hr, heq⟩ := h.self
  refine ⟨⟨r, ?_, heq⟩, fun b hb => ?_⟩
  · rw [Sys.user, Sys.updateUser, Keyed.lookup_update_self hkey]
    exact congrArg (Option.map g) hr
  · rw [Sys.user, Sys.updateUser, Keyed.lookup_update_of_ne hkey hb]
    exact h.others b hb

/-- Two changes of one record are one. -/
theorem Wrote.trans {f g : UserInfo → UserInfo} {t : Sys} (h : Wrote a f s s')
    (h' : Wrote a g s' t) :
    Wrote a (fun r => g (f r)) s t := by
  obtain ⟨r, hr, heq⟩ := h.self
  exact ⟨⟨r, h'.of_some hr, heq⟩, fun b hb => (h'.others b hb).trans (h.others b hb)⟩

/-- What was done in between left all records alone. -/
theorem Wrote.of_user {g : UserInfo → UserInfo} {t : Sys} (h : Wrote a g s s')
    (ht : ∀ b, s.user b = t.user b) : Wrote a g t s' := by
  obtain ⟨r, hr, heq⟩ := h.self
  exact ⟨⟨r, hr, fun r₀ hr₀ => heq r₀ (by rw [ht, hr₀])⟩,
    fun b hb => (h.others b hb).trans (ht b)⟩

/-- **What the common beginning of the setters does**: it finds a record,
or adds one where the address fits. -/
theorem findOrAdd_iff : (findOrAdd W a).run s = (.ok (), s') ↔
    (s.user a ≠ none ∧ s' = s) ∨ (s.user a = none ∧ a.length < 45 ∧
      s' = s.ticked.addUser { W.freshUser s.moment with userIp := a }) := by
  rw [findOrAdd, run_get_bind]
  by_cases hs : s.user a = none
  · rw [if_pos hs, run_tick_bind, bind_ok]
    constructor
    · rintro ⟨_, s₁, hlen, hadd⟩
      obtain ⟨hfits, rfl⟩ := faultIf_ok.1 hlen
      cases hadd
      exact .inr ⟨hs, Nat.lt_of_not_le hfits, rfl⟩
    · rintro (⟨hne, _⟩ | ⟨_, hfits, rfl⟩)
      · exact absurd hs hne
      · exact ⟨(), s.ticked, faultIf_ok.2 ⟨Nat.not_le_of_lt hfits, rfl⟩, rfl⟩
  · rw [if_neg hs]
    constructor
    · intro hret
      cases hret
      exact .inl ⟨hs, rfl⟩
    · rintro (⟨_, rfl⟩ | ⟨hnone, _⟩)
      · rfl
      · exact absurd hnone hs

theorem findOrAdd_ok (h : (findOrAdd W a).run s = (.ok (), s')) : Wrote a id s s' := by
  rcases findOrAdd_iff.1 h with ⟨hs, rfl⟩ | ⟨hs, _, rfl⟩
  · obtain ⟨r, hr⟩ := Option.ne_none_iff_exists'.1 hs
    exact ⟨⟨r, hr, fun r₀ hr₀ => by rwa [hr, Option.some.injEq] at hr₀⟩, fun _ _ => rfl⟩
  · have hnone : s.ticked.user a = none := hs
    refine ⟨⟨_, user_addUser_self hnone, fun r₀ hr => ?_⟩, fun b hb => user_addUser_of_ne hb⟩
    rw [hs] at hr
    cases hr

/-- **What `set_user_state` does.** -/
theorem setUserState_ok {state : UserState} {phone : CStr}
    (h : (setUserState W a state phone).run s = (.ok (), s')) :
    Wrote a (fun r => { r with state := state, phoneId := phone }) s s' := by
  simp only [setUserState, bind_ok, faultIf_ok] at h
  obtain ⟨_, s₁, hadd, _, _, ⟨⟩, _, _, ⟨_, rfl⟩, ⟨⟩⟩ := h
  exact ((findOrAdd_ok hadd).updateUser (fun r => { r with state := state }) fun _ => rfl).updateUser
    (fun r => { r with phoneId := phone }) fun _ => rfl

theorem findOrAdd_returns (ha : a.length < 45) : ∃ s', (findOrAdd W a).run s = (.ok (), s') := by
  by_cases hs : s.user a = none
  · exact ⟨_, findOrAdd_iff.2 (.inr ⟨hs, ha, rfl⟩)⟩
  · exact ⟨_, findOrAdd_iff.2 (.inl ⟨hs, rfl⟩)⟩

/-- A call whose arguments fit in the record returns. -/
theorem setUserState_returns (state : UserState) (phone : CStr) (ha : a.length < 45)
    (hp : phone.length < 16) : ∃ s', (setUserState W a state phone).run s = (.ok (), s') := by
  obtain ⟨s₁, h⟩ := findOrAdd_returns (W := W) (s := s) ha
  rw [setUserState, run_bind_ok h, run_writeUser_bind,
    run_bind_ok (run_faultIf_of_not (by omega) _ _)]
  exact ⟨_, rfl⟩

/-- A call for a record that is there returns, whatever its address. -/
theorem setUserState_returns_of_some {x : UserInfo} (hx : s.user a = some x) (state : UserState)
    (phone : CStr) (hp : phone.length < 16) :
    ∃ s', (setUserState W a state phone).run s = (.ok (), s') := by
  have hfind : (findOrAdd W a).run s = (.ok (), s) :=
    findOrAdd_iff.2 (.inl ⟨by rw [hx]; exact Option.some_ne_none x, rfl⟩)
  rw [setUserState, run_bind_ok hfind, run_writeUser_bind,
    run_bind_ok (run_faultIf_of_not (by omega) _ _)]
  exact ⟨_, rfl⟩

/-- **What `generate_random_seed` does.** -/
theorem generateRandomSeed_ok {seed : Vector UInt8 10}
    (h : (generateRandomSeed W a).run s = (.ok seed, s')) :
    Wrote a (fun r => { r with seed := some seed }) s s' := by
  simp only [generateRandomSeed, bind_ok, run_tick] at h
  obtain ⟨_, s₁, hadd, _, _, ⟨⟩, _, _, ⟨⟩, _, _, ⟨⟩, ⟨⟩⟩ := h
  exact ((findOrAdd_ok hadd).updateUser
    (fun r => { r with seed := some (W.fillRandom s₁.moment 10) }) fun _ => rfl).congr rfl

/-- **What `set_AES_ctx` does.** -/
theorem setAESCtx_ok {ctx : AESContext} (h : (setAESCtx W a ctx).run s = (.ok (), s')) :
    Wrote a (fun r => { r with aesCtx := ctx }) s s' := by
  simp only [setAESCtx, bind_ok] at h
  obtain ⟨_, s₁, hadd, ⟨⟩⟩ := h
  exact (findOrAdd_ok hadd).updateUser (fun r => { r with aesCtx := ctx }) fun _ => rfl

/-! ## Addresses -/

/-- The addresses the servers name their sessions by. -/
inductive Address
  | ipv4 (ip : Vector UInt8 4)
  | ble (bda : Vector UInt8 6)
  | bleUser
  deriving DecidableEq, Repr

/-- The text of an address. -/
def Address.text : Address → CStr
  | ipv4 ip => inetNtoa ip
  | ble bda => macText bda
  | bleUser => SmartLock.bleUser

theorem dec_length_le (n : UInt8) : (dec n.toNat).length ≤ 3 :=
  (length_dec_le (by decide)).2 (lt_of_lt_of_le n.toNat_lt (by decide))

/-- Every address fits in `user_ip`. -/
theorem Address.text_length_lt (a : Address) : a.text.length < 45 := by
  cases a with
  | ipv4 ip =>
    have h₀ := dec_length_le ip[0]
    have h₁ := dec_length_le ip[1]
    have h₂ := dec_length_le ip[2]
    have h₃ := dec_length_le ip[3]
    have hdot : (lit ".").length = 1 := rfl
    simp only [Address.text, inetNtoa, List.length_append, hdot]
    omega
  | ble bda => exact Nat.lt_of_le_of_lt (Nat.le_of_eq rfl) (by decide : 17 < 45)
  | bleUser => decide

/-! ## The map -/

/-- What was last written to each field of the record of an address. -/
structure Written where
  state : Option UserState
  phoneId : Option CStr
  seed : Option (Vector UInt8 10)
  aesCtx : Option AESContext

/-- A record to which nothing was written. -/
def Written.none : Written := ⟨.none, .none, .none, .none⟩

/-- The record holds what was last written to it. -/
structure Written.Agrees (w : Written) (r : UserInfo) : Prop where
  state : ∀ v, w.state = some v → r.state = v
  phoneId : ∀ v, w.phoneId = some v → r.phoneId = v
  seed : ∀ v, w.seed = some v → r.seed = some v
  aesCtx : ∀ v, w.aesCtx = some v → r.aesCtx = v

variable (W)

/-- A call of a writer for an address that returned, and what it wrote. -/
inductive Write (a : CStr) : (Written → Written) → Sys → Sys → Prop
  | setUserState {state : UserState} {phone : CStr} {s s' : Sys}
    (h : (setUserState W a state phone).run s = (.ok (), s')) :
    Write a (fun w => { w with state := some state, phoneId := some phone }) s s'
  | generateRandomSeed {seed : Vector UInt8 10} {s s' : Sys}
    (h : (generateRandomSeed W a).run s = (.ok seed, s')) :
    Write a (fun w => { w with seed := some seed }) s s'
  | setAESCtx {ctx : AESContext} {s s' : Sys} (h : (setAESCtx W a ctx).run s = (.ok (), s')) :
    Write a (fun w => { w with aesCtx := some ctx }) s s'

/-- The tables the writers build for addresses of `A` from the empty one,
with the map from whole addresses to what was last written. -/
inductive TableRun (A : Set Address) : (CStr → Option Written) → Sys → Prop
  | empty {s : Sys} (h : s.usersInfo = []) : TableRun A (fun _ => none) s
  | write {m : CStr → Option Written} {s s' : Sys} {a : Address} {f : Written → Written}
    (h : TableRun A m s) (ha : a ∈ A) (hw : Write W a.text f s s') :
    TableRun A (Function.update m a.text (some (f ((m a.text).getD Written.none)))) s'

/-- Every getter returns what was last written for exactly this address,
and `get_user_info` finds nothing where nothing was. -/
structure Holds (w : Option Written) (a : CStr) (s : Sys) : Prop where
  info : ∀ r, (getUserInfo a).run s = (.ok r, s) → (r = none ↔ w = none)
  state : ∀ v, w.bind Written.state = some v → (getUserState a).run s = (.ok v, s)
  phoneId : ∀ v, w.bind Written.phoneId = some v →
    (getPhoneId a).run s = (.ok (if v.length ≠ 0 then some v else none), s)
  seed : ∀ v, w.bind Written.seed = some v → (getUserSeed a).run s = (.ok (some v), s)
  aesCtx : ∀ v, w.bind Written.aesCtx = some v → (getUserAESCtx a).run s = (.ok v, s)

/-- The table is a map on the addresses of `A`: the getters read what was
last written, and a write for one address leaves what is read for every
other. -/
structure TableIsMap (A : Set Address) : Prop where
  holds : ∀ m s, TableRun W A m s → ∀ a ∈ A, Holds (m a.text) a.text s
  frame : ∀ m s, TableRun W A m s → ∀ a ∈ A, ∀ f s', Write W a.text f s s' →
    ∀ b ∈ A, b.text ≠ a.text → s'.user b.text = s.user b.text

variable {W}

/-- A writer changes a record as it changes what was last written to
it. -/
theorem Write.wrote {f : Written → Written} (h : Write W a f s s') :
    ∃ g, Wrote a g s s' ∧ ∀ w r, Written.Agrees w r → (f w).Agrees (g r) := by
  cases h with
  | setUserState h =>
    refine ⟨_, setUserState_ok h, fun w r hw => ⟨?_, ?_, hw.seed, hw.aesCtx⟩⟩
    · exact fun v hv => Option.some.inj hv
    · exact fun v hv => Option.some.inj hv
  | generateRandomSeed h =>
    exact ⟨_, generateRandomSeed_ok h,
      fun w r hw => ⟨hw.state, hw.phoneId, fun v hv => hv, hw.aesCtx⟩⟩
  | setAESCtx h =>
    exact ⟨_, setAESCtx_ok h,
      fun w r hw => ⟨hw.state, hw.phoneId, hw.seed, fun v hv => Option.some.inj hv⟩⟩

/-- The getters read what the record found agrees with. -/
theorem holds_of_agrees {w : Written} {r : UserInfo} (hr : s.user a = some r) (hw : w.Agrees r) :
    Holds (some w) a s := by
  have hderef : (derefUser a).run s = (.ok r, s) := by rw [derefUser, run_get_bind, hr]; rfl
  refine ⟨fun r' h => ?_, fun v hv => ?_, fun v hv => ?_, fun v hv => ?_, fun v hv => ?_⟩
  · cases h
    simp [hr]
  · rw [getUserState, run_bind_ok hderef, hw.state v hv]
    rfl
  · rw [getPhoneId, run_bind_ok hderef, hw.phoneId v hv]
    rfl
  · rw [getUserSeed, run_bind_ok hderef, hw.seed v hv]
    rfl
  · rw [getUserAESCtx, run_bind_ok hderef, hw.aesCtx v hv]
    rfl

/-- Where keys tell the addresses apart, each address finds a record
exactly if something was written for it, and the record agrees. -/
theorem TableRun.user {A : Set Address} (hA : ∀ a ∈ A, ∀ b ∈ A, a.text ≠ b.text →
    hashKey a.text ≠ hashKey b.text) {m : CStr → Option Written} (h : TableRun W A m s) :
    ∀ a ∈ A, (m a.text = none ∧ s.user a.text = none) ∨
      ∃ w r, m a.text = some w ∧ s.user a.text = some r ∧ w.Agrees r := by
  induction h with
  | empty hs =>
    refine fun a _ => .inl ⟨rfl, ?_⟩
    rw [Sys.user, hs, Keyed.lookup_nil]
  | @write m s s' a f _ ha hw ih =>
    intro b hb
    obtain ⟨g, hg, hfg⟩ := hw.wrote
    by_cases hab : b.text = a.text
    · obtain ⟨r, hr, heq⟩ := hg.self
      rw [hab, Function.update_self]
      refine .inr ⟨_, _, rfl, hr, hfg _ _ ?_⟩
      rcases ih a ha with ⟨hm, _⟩ | ⟨w, r₀, hm, hr₀, hw⟩
      · rw [hm]
        exact ⟨nofun, nofun, nofun, nofun⟩
      · rwa [hm, heq r₀ hr₀]
    · rw [Function.update_of_ne hab, hg.others _ (hA b hb a ha hab)]
      exact ih b hb

/-- **The session table is a map from addresses to records exactly where
their first four bytes tell the addresses apart.** -/
theorem tableIsMap_iff (A : Set Address) :
    TableIsMap W A ↔ ∀ a ∈ A, ∀ b ∈ A, a.text ≠ b.text → hashKey a.text ≠ hashKey b.text := by
  constructor
  · intro h a ha b hb hne hkey
    -- a first write for `a` is read for `b`, for which nothing was written
    obtain ⟨s', hrun⟩ := setUserState_returns (W := W) (s := Sys.initial) .connecting []
      a.text_length_lt (by decide)
    have hb' := h.frame _ _ (TableRun.empty rfl) a ha _ s' (.setUserState hrun) b hb hne.symm
    obtain ⟨r, hr, _⟩ := (setUserState_ok hrun).self
    rw [Sys.user, ← hkey] at hb'
    rw [Sys.user, hb'] at hr
    cases hr
  · intro hA
    refine ⟨fun m s h a ha => ?_, fun m s _ a ha f s' hw b hb hne => ?_⟩
    · rcases h.user hA a ha with ⟨hm, hs⟩ | ⟨w, r, hm, hr, hw⟩
      · rw [hm]
        refine ⟨fun r h => ?_, nofun, nofun, nofun, nofun⟩
        cases h
        simp [hs]
      · rw [hm]
        exact holds_of_agrees hr hw
    · obtain ⟨g, hg, _⟩ := hw.wrote
      exact hg.others _ (hA b hb a ha hne)

/-- Two neighbours of one subnet share a record: the second one to connect
takes the first one's authorization away. -/
theorem not_tableIsMap_of_neighbours :
    ¬ TableIsMap (World.still .esp32s3 0)
      {.ipv4 #v[192, 168, 1, 5], .ipv4 #v[192, 168, 1, 6]} := by
  intro h
  have hkey : hashKey (Address.ipv4 #v[192, 168, 1, 6]).text =
    hashKey (Address.ipv4 #v[192, 168, 1, 5]).text := by decide
  obtain ⟨s₁, h₁⟩ := setUserState_returns (W := World.still .esp32s3 0) (s := Sys.initial)
    .authorized (lit "phone") (Address.ipv4 #v[192, 168, 1, 5]).text_length_lt (by decide)
  obtain ⟨s₂, h₂⟩ := setUserState_returns (W := World.still .esp32s3 0) (s := s₁) .connecting []
    (Address.ipv4 #v[192, 168, 1, 6]).text_length_lt (by decide)
  have hframe := h.frame _ _ (.write (.empty rfl) (.inl rfl) (.setUserState h₁)) _ (.inr rfl) _ _
    (.setUserState h₂) _ (.inl rfl) (by decide)
  obtain ⟨r₁, hr₁, _⟩ := (setUserState_ok h₁).self
  obtain ⟨r₂, hr₂, _⟩ := (setUserState_ok h₂).self
  rw [Sys.user, hkey] at hr₂
  rw [hr₁, Sys.user, hr₂] at hframe
  exact nomatch congrArg UserInfo.state (Option.some.inj hframe)

end SmartLock
