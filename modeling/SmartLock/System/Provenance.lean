import SmartLock.Handler.Vouched
import SmartLock.Handler.Weekdays
import SmartLock.System.Main

/-!
# Where rights come from

The lock makes no right of its own. An authorization in its store was there
at the start or is what `get_authorization_db` made of an answer of the
run, and the master key a code is checked under is that of such an
authorization.
-/

namespace SmartLock

open Prog

variable {W : World} {a p q phone : CStr} {s s' t : Sys} {auth auth' : Authorization}
  {d : AuthData} {key : List UInt8} {G : CStr → Authorization → Prop}

/-! ## Answers of the server -/

/-- `get_authorization_db` makes this authorization of the answer, in some
block: what the answer does not give is as the block held it. -/
def Filled (W : World) (d : AuthData) (phone : CStr) (key : List UInt8) (auth : Authorization) :
    Prop :=
  ∃ block s t, d.Gives W s phone key ∧ (fillAuthorization W d block).run s = (.ok auth, t)

/-- The answer gives a string, a whole key and, of the weekdays, none that
is stored in front of them. -/
structure AuthData.Orderly (d : AuthData) (phone : CStr) (key : List UInt8) : Prop where
  phone : (0 : UInt8) ∉ phone
  key : key.length = 32
  weekdays : d.type = UserType.periodicUser → ∀ day ∈ d.weekdays, 1 ≤ day

/-- The authorization has all that the answer gives for its kind of user. -/
structure TakenOver (d : AuthData) (phone : CStr) (key : List UInt8) (auth : Authorization) :
    Prop where
  phone : auth.phone = phone
  userType : auth.userType = d.type
  masterKey : auth.masterKey.toList = key
  weekdays : d.type = UserType.periodicUser →
    ∀ (i : ℕ) (_ : i < 7), auth.weekdays[i] = true ↔ (i : Int) + 1 ∈ d.weekdays
  interval : d.type = UserType.periodicUser ∨ d.type = UserType.tenant →
    auth.validFromTs = d.validFrom ∧ auth.validUntilTs = d.validUntil
  oneDay : d.type = UserType.oneTimeUser → auth.oneDayTs = d.oneDay

/-- A day that is not before the first is stored behind the phone, the kind
of user and the key. -/
theorem storeWeekdays_behind {days : List Int} (hdays : ∀ day ∈ days, 1 ≤ day) :
    ∀ {auth : Authorization}, storeWeekdays auth days = some auth' →
      auth'.phoneId = auth.phoneId ∧ auth'.userType = auth.userType ∧
        auth'.masterKey = auth.masterKey := by
  induction days with
  | nil =>
    intro auth h
    cases h
    exact ⟨rfl, rfl, rfl⟩
  | cons day days ih =>
    intro auth h
    have hday := hdays day (List.mem_cons_self ..)
    have hrest {b : Authorization} (hb : storeWeekdays b days = some auth') :=
      ih (fun day' hmem => hdays day' (List.mem_cons_of_mem _ hmem)) hb
    rw [storeWeekdays] at h
    unfold Authorization.storeWeekday at h
    rw [if_neg (by omega), dif_neg (by omega), if_neg (by omega), dif_neg (by omega)] at h
    split at h
    · cases h
    · rename_i stored hstored
      obtain ⟨hphone, htype, hkey⟩ := hrest h
      split_ifs at hstored <;> cases hstored <;> exact ⟨hphone, htype, hkey⟩

/-- What is filled in comes of the fields that depend on the kind of user. -/
theorem fillAuthorization_ok {block : Authorization}
    (h : (fillAuthorization W d block).run s = (.ok auth, t)) :
    ∃ phone key, d.Gives W s phone key ∧ phone.length < 16 ∧ fillValidity d { block with
      phoneId := strcpyPhone block.phoneId phone
      userType := d.type
      masterKey := memcpyKey block.masterKey key } = some auth := by
  obtain ⟨phone, s₁, hderef, h₁⟩ := bind_ok.1 h
  obtain ⟨hphone, rfl⟩ := deref_ok.1 hderef
  obtain ⟨_, s₂, hguard, h₂⟩ := bind_ok.1 h₁
  obtain ⟨hlen, rfl⟩ := faultIf_ok.1 hguard
  obtain ⟨enc, s₃, hderef, h₃⟩ := bind_ok.1 h₂
  obtain ⟨henc, rfl⟩ := deref_ok.1 hderef
  obtain ⟨text, s₄, htext, h₄⟩ := bind_ok.1 h₃
  obtain ⟨key, s₅, hderef, h₅⟩ := bind_ok.1 h₄
  obtain ⟨hkey, _⟩ := deref_ok.1 hderef
  obtain ⟨_, s₆, _, h₆⟩ := bind_ok.1 h₅
  refine ⟨phone, key, ⟨hphone, enc, text, s₄, henc, htext, hkey⟩, not_le.1 hlen, ?_⟩
  cases hfill : fillValidity d { block with
      phoneId := strcpyPhone block.phoneId phone
      userType := d.type
      masterKey := memcpyKey block.masterKey key } with
  | none =>
    rw [hfill] at h₆
    cases h₆
  | some filled =>
    rw [hfill] at h₆
    cases h₆
    rfl

/-- **What the answer gives is taken over**, where it is orderly. -/
theorem Filled.takenOver (h : Filled W d phone key auth) (hd : d.Orderly phone key) :
    TakenOver d phone key auth := by
  obtain ⟨block, s, t, hgives, hfill⟩ := h
  obtain ⟨phone', key', hgives', hlen, hvalidity⟩ := fillAuthorization_ok hfill
  obtain ⟨rfl, rfl⟩ := hgives.unique hgives'
  have hphone {a : Authorization} (ha : a.phoneId = strcpyPhone block.phoneId phone) :
      a.phone = phone := by
    rw [Authorization.phone, ha]
    exact phone_strcpyPhone _ hlen hd.phone
  have hkey : (memcpyKey block.masterKey key).toList = key := by
    obtain ⟨k, rfl⟩ : ∃ k : Vector UInt8 32, k.toList = key :=
      ⟨⟨key.toArray, by simp [hd.key]⟩, by simp⟩
    rw [memcpyKey_eq]
  rw [fillValidity] at hvalidity
  -- one case for each kind of user
  split at hvalidity
  · rename_i htype
    obtain ⟨a, hstore, rfl⟩ := Option.map_eq_some_iff.1 hvalidity
    obtain ⟨hid, huser, hmaster⟩ := storeWeekdays_behind (hd.weekdays htype) hstore
    refine ⟨hphone hid, huser, (congrArg Vector.toList hmaster).trans hkey, fun _ i hi => ?_,
      fun _ => ⟨rfl, rfl⟩, fun hone => ?_⟩
    · refine (storeWeekdays_weekdays hstore hi).trans (or_iff_right ?_)
      simp
    · exact absurd (htype.symm.trans hone) (by decide)
  · rename_i htype
    cases hvalidity
    exact ⟨hphone rfl, rfl, hkey, fun h => absurd (htype.symm.trans h) (by decide),
      fun _ => ⟨rfl, rfl⟩, fun h => absurd (htype.symm.trans h) (by decide)⟩
  · rename_i htype
    cases hvalidity
    refine ⟨hphone rfl, rfl, hkey, fun h => absurd (htype.symm.trans h) (by decide), fun h => ?_,
      fun _ => rfl⟩
    rcases h with h | h
    · exact absurd (htype.symm.trans h) (by decide)
    · exact absurd (htype.symm.trans h) (by decide)
  · rename_i hperiodic htenant hone
    cases hvalidity
    exact ⟨hphone rfl, rfl, hkey, fun h => absurd h hperiodic,
      fun h => (h.elim hperiodic htenant).elim, fun h => absurd h hone⟩

/-- At the moment `m` the server, asked for the phone `asked`, gave an
answer of which this authorization is made. -/
def AnsweredWith (W : World) (m : ℕ) (asked : CStr) (auth : Authorization) : Prop :=
  ∃ d phone key, W.authReply m asked = .body d ∧ d.success = true ∧ Filled W d phone key auth

/-- At the moment `m` the server granted this authorization, of the phone
`q`, whichever it was asked for. -/
def Granted (W : World) (m : ℕ) (q : CStr) (auth : Authorization) : Prop :=
  auth.phone = q ∧ ∃ asked, AnsweredWith W m asked auth

/-! ## The store -/

/-- What is stored was stored, or `G` holds of it. -/
def filling (G : CStr → Authorization → Prop) : Frame Sys where
  rel s t := s.moment ≤ t.moment ∧ ∀ q auth, t.authorizations q = some auth →
    s.authorizations q = some auth ∨ G q auth
  refl _ := ⟨le_rfl, fun _ _ => .inl⟩
  trans h₁ h₂ := by
    refine ⟨h₁.1.trans h₂.1, fun q auth h => ?_⟩
    rcases h₂.2 q auth h with h | h
    · exact h₁.2 q auth h
    · exact .inr h

/-- What is stored was stored, or granted in between. -/
def granting (W : World) : Frame Sys where
  rel s t := s.moment ≤ t.moment ∧ ∀ q auth, t.authorizations q = some auth →
    s.authorizations q = some auth ∨ ∃ m, s.moment ≤ m ∧ m < t.moment ∧ Granted W m q auth
  refl _ := ⟨le_rfl, fun _ _ => .inl⟩
  trans h₁ h₂ := by
    refine ⟨h₁.1.trans h₂.1, fun q auth h => ?_⟩
    rcases h₂.2 q auth h with h | ⟨m, hle, hlt, h⟩
    · rcases h₁.2 q auth h with h | ⟨m, hle, hlt, h⟩
      · exact .inl h
      · exact .inr ⟨m, hle, hlt.trans_le h₂.1, h⟩
    · exact .inr ⟨m, h₁.1.trans hle, hlt, h⟩

/-- What stores no authorization. -/
def unstoring : Footprint := ⟨fun _ => True, True, True, True, False, True, fun _ => True⟩

theorem filling_of_unstoring (h : unstoring.Rel s t) : (filling G).rel s t :=
  ⟨h.moment, fun _ _ hq => .inl ((h.store.resolve_left id).of_some hq)⟩

theorem granting_of_unstoring (h : unstoring.Rel s t) : (granting W).rel s t :=
  ⟨h.moment, fun _ _ hq => .inl ((h.store.resolve_left id).of_some hq)⟩

/-- **What `set_authorization` stores** is the authorization, under the
phone it names. -/
theorem setAuthorization_filling (h : G auth.phone auth) :
    Steps (filling G) (setAuthorization W auth) := by
  have hquiet {α : Type} {m : M α} (hm : Within unstoring m) : Steps (filling G) m :=
    hm.mono fun _ _ => filling_of_unstoring
  have hwrite : Steps (filling G) (nvsSetBlob W auth.phone auth) := by
    refine .ite (fun _ => .pure _) fun _ => .bind (hquiet tick_within) fun m => ?_
    cases W.nvsError m with
    | some e => exact .pure _
    | none =>
      refine .bind (.modify fun s => ⟨le_rfl, fun q auth' hq => ?_⟩) fun _ => .pure _
      rcases eq_or_ne q auth.phone with rfl | hne
      · change Function.update _ _ _ _ = _ at hq
        rw [Function.update_self, Option.some.injEq] at hq
        exact .inr (hq ▸ h)
      · change Function.update _ _ _ _ = _ at hq
        rw [Function.update_of_ne hne] at hq
        exact .inl hq
  exact .bind (hquiet initAndOpen_within) fun _ => .ite (fun _ => .pure _) fun _ =>
    .bind hwrite fun _ => .ite (fun _ => .pure _) fun _ => .bind (hquiet nvsInit_within) fun _ =>
      .ite (fun _ => .pure _) fun _ => .bind (hquiet nvsClose_within) fun _ => .pure _

/-- What fills the store from the answer the server gives now is granted. -/
theorem granting_of_filling {α : Type} {m : M α} (hreply : W.authReply s.moment phone = .body d)
    (hsuccess : d.success = true) (hm : Steps (filling fun q auth =>
      auth.phone = q ∧ ∃ phone key, Filled W d phone key auth) m) :
    (granting W).rel s (m.run s.ticked).2 := by
  obtain ⟨hmoment, hstored⟩ := hm s.ticked
  refine ⟨(Nat.le_succ _).trans hmoment, fun q auth hq => (hstored q auth hq).imp id ?_⟩
  rintro ⟨hphone, phone', key, hfilled⟩
  exact ⟨s.moment, le_rfl, Nat.lt_of_succ_le hmoment, hphone, phone, d, phone', key, hreply,
    hsuccess, hfilled⟩

theorem fillAuthorization_within {F : Footprint} : Within F (fillAuthorization W d auth) := by
  refine .bind deref_within fun _ => .bind faultIf_within fun _ => .bind deref_within fun _ =>
    .bind decryptBase64RSA_within fun _ => .bind deref_within fun _ =>
      .bind faultIf_within fun _ => ?_
  split
  · exact .fail _
  · exact .pure _

/-- **What `get_authorization_db` stores the server granted.** -/
theorem getAuthorizationDb_granting (phone : CStr) (auth : Authorization) :
    Steps (granting W) (getAuthorizationDb W phone auth) := by
  intro s
  have htick : (granting W).rel s s.ticked := granting_of_unstoring (tick_within s)
  cases hreply : W.authReply s.moment phone with
  | failed =>
    rw [getAuthorizationDb, run_tick_bind, hreply]
    exact htick
  | body d =>
    by_cases hsuccess : d.success = true
    · rw [getAuthorizationDb_run hreply hsuccess]
      refine granting_of_filling hreply hsuccess ((Steps.hereditary _).bind ?_
        fun filled s₁ s₂ hfill => .bind (setAuthorization_filling ?_) fun _ => .pure _)
      · exact fillAuthorization_within.mono fun _ _ => filling_of_unstoring
      · obtain ⟨phone', key, hgives, _⟩ := fillAuthorization_ok hfill
        exact ⟨rfl, phone', key, auth, s₁, s₂, hgives, hfill⟩
    · rw [getAuthorizationDb, run_tick_bind, hreply]
      dsimp only
      rw [if_pos hsuccess]
      exact htick

/-! ## What is found for a phone -/

/-- Between the two states the store held this authorization of `p`, or the
server was asked for `p` and gave it. -/
def Returned (W : World) (s t : Sys) (p : CStr) (auth : Authorization) : Prop :=
  s.authorizations p = some auth ∨ ∃ m, s.moment ≤ m ∧ m < t.moment ∧
    (Granted W m p auth ∨ AnsweredWith W m p auth)

/-- Nothing is stored but what was granted, and each master key found is
that of an authorization of its phone which was returned. -/
def returning (W : World) : Frame Sys where
  rel s t := (granting W).rel s t ∧ Grows (fun o => ∀ p key, o = .masterKey p key →
    ∃ auth, auth.masterKey = key ∧ Returned W s t p auth) s t
  refl _ := ⟨(granting W).refl _, Grows.refl _ _⟩
  trans {s t u} h₁ h₂ := by
    refine ⟨(granting W).trans h₁.1 h₂.1, (h₁.2.mono fun o ho p key heq => ?_).trans
      (h₂.2.mono fun o ho p key heq => ?_)⟩
    · obtain ⟨auth, hkey, hreturned⟩ := ho p key heq
      refine ⟨auth, hkey, hreturned.imp id ?_⟩
      rintro ⟨m, hle, hlt, h⟩
      exact ⟨m, hle, hlt.trans_le h₂.1.1, h⟩
    · obtain ⟨auth, hkey, hstored | ⟨m, hle, hlt, h⟩⟩ := ho p key heq
      · refine ⟨auth, hkey, (h₁.1.2 p auth hstored).imp id ?_⟩
        rintro ⟨m, hle, hlt, h⟩
        exact ⟨m, hle, hlt.trans_le h₂.1.1, .inl h⟩
      · exact ⟨auth, hkey, .inr ⟨m, h₁.1.1.trans hle, hlt, h⟩⟩

/-- The master key of a phone is found. -/
def Obs.isMasterKey : Obs → Bool
  | masterKey _ _ => true
  | _ => false

theorem returning_of_granting (hg : (granting W).rel s t)
    (hlog : Grows (fun o => o.isMasterKey = false) s t) : (returning W).rel s t := by
  refine ⟨hg, hlog.mono fun o ho p key heq => ?_⟩
  rw [heq] at ho
  cases ho

/-- What finds no master key, and stores at most what it is allowed to. -/
def keyless (store : Prop) : Footprint :=
  ⟨fun _ => True, True, True, True, store, True, fun o => o.isMasterKey = false⟩

theorem keyless_log {store : Prop} (h : (keyless store).Rel s t) :
    Grows (fun o => o.isMasterKey = false) s t := by
  refine h.log.mono fun o ho => ho.elim (fun hambient => ?_) id
  cases o <;> first | rfl | cases hambient

theorem returning_of_keyless (h : (keyless False).Rel s t) : (returning W).rel s t :=
  returning_of_granting ⟨h.moment, fun _ _ hq => .inl ((h.store.resolve_left id).of_some hq)⟩
    (keyless_log h)

/-- **What `get_authorization_db` returns** the server gave. -/
theorem getAuthorizationDb_answered {block : Authorization}
    (h : (getAuthorizationDb W p block).run s = (.ok (espOk, auth), t)) :
    s.moment < t.moment ∧ AnsweredWith W s.moment p auth := by
  cases hreply : W.authReply s.moment p with
  | failed =>
    rw [getAuthorizationDb, run_tick_bind, hreply] at h
    cases h
  | body d =>
    by_cases hsuccess : d.success = true
    · rw [getAuthorizationDb_run hreply hsuccess] at h
      obtain ⟨filled, s₁, hfill, hrest⟩ := bind_ok.1 h
      obtain ⟨err, s₂, hset, hret⟩ := bind_ok.1 hrest
      cases hret
      have hfills : Footprint.all.Rel s.ticked s₁ := fillAuthorization_within.of_ok hfill
      have hsets : Footprint.all.Rel s₁ t := (setAuthorization_within trivial).of_ok hset
      obtain ⟨phone, key, hgives, _⟩ := fillAuthorization_ok hfill
      exact ⟨Nat.lt_of_succ_le (hfills.moment.trans hsets.moment), d, phone, key, hreply, hsuccess,
        block, s.ticked, s₁, hgives, hfill⟩
    · rw [getAuthorizationDb, run_tick_bind, hreply] at h
      dsimp only at h
      rw [if_pos hsuccess] at h
      cases h

/-- **What `check_authorization_code` works with** the store held, or the
server gave when it was asked for the phone. -/
theorem findAuthorization_returned
    (h : (findAuthorization W p).run s = (.ok (some auth), t)) : Returned W s t p auth := by
  rw [findAuthorization, run_tick_bind] at h
  obtain ⟨⟨err, found⟩, s₁, hget, hrest⟩ := bind_ok.1 h
  have hlooks : looking.Rel s.ticked s₁ := getAuthorization_within.of_ok hget
  cases found with
  | none => cases hrest
  | some block =>
    dsimp only at hrest
    by_cases herr : err = espOk
    · rw [if_pos herr] at hrest
      cases hrest
      exact .inl (getAuthorization_ok hget herr).2
    · rw [if_neg herr] at hrest
      obtain ⟨⟨err', filled⟩, s₂, hdb, hret⟩ := bind_ok.1 hrest
      dsimp only at hret
      by_cases herr' : err' = espOk
      · subst herr'
        cases hret
        obtain ⟨hlt, hanswered⟩ := getAuthorizationDb_answered hdb
        exact .inr ⟨s₁.moment, (Nat.le_succ _).trans hlooks.moment, hlt, .inr hanswered⟩
      · rw [if_neg herr'] at hret
        cases hret

theorem findAuthorization_granting : Steps (granting W) (findAuthorization W p) := by
  refine .bind (tick_within.mono fun _ _ => granting_of_unstoring) fun _ =>
    .bind (getAuthorization_within.mono fun _ _ => granting_of_unstoring) fun ⟨err, auth⟩ => ?_
  cases auth with
  | none => exact .fail _
  | some auth =>
    exact .ite (fun _ => .pure _) fun _ =>
      .bind (getAuthorizationDb_granting p auth) fun _ => .pure _

/-- **The check of a code** finds the master key so. -/
theorem checkAuthorizationCode_returning {code : CStr} {seed : Option (Vector UInt8 10)} :
    Steps (returning W) (checkAuthorizationCode W p code seed) := by
  intro s
  have hquiet {α : Type} {m : M α} (hm : Within (keyless False) m) : Steps (returning W) m :=
    hm.mono fun _ _ => returning_of_keyless
  have hkeyless : (keyless True).Rel s ((findAuthorization W p).run s).2 :=
    findAuthorization_within trivial s
  have hfinds : (returning W).rel s ((findAuthorization W p).run s).2 :=
    returning_of_granting (findAuthorization_granting s) (keyless_log hkeyless)
  rcases hfind : (findAuthorization W p).run s with ⟨e | found, s₁⟩
  · rw [hfind] at hfinds
    rw [checkAuthorizationCode, run_bind_error hfind]
    exact hfinds
  rw [hfind] at hfinds
  rw [checkAuthorizationCode, run_bind_ok hfind]
  cases found with
  | none => exact hfinds
  | some auth =>
    -- the key is noted, and is that of what was found
    have hfound : Returned W s s₁ p auth := findAuthorization_returned hfind
    have hnoted : (returning W).rel s (s₁.noted (.masterKey p auth.masterKey)) := by
      obtain ⟨hgranting, new, hnew, hkeys⟩ := hfinds
      refine ⟨hgranting, .masterKey p auth.masterKey :: new, congrArg (List.cons _) hnew, ?_⟩
      intro o ho q key heq
      rcases List.mem_cons.1 ho with rfl | ho
      · cases heq
        exact ⟨auth, rfl, hfound⟩
      · exact hkeys o ho q key heq
    dsimp only
    rw [run_observe_bind]
    refine (returning W).trans hnoted (Steps.bind (hquiet genHmac32_within)
      (fun hmac => ?_) _)
    cases hmac with
    | none => exact .pure _
    | some hmac => exact .bind (hquiet deref_within) fun _ => .pure _

/-- **Every piece stores only what the server granted**, and finds master
keys so. -/
theorem returning_pieces :
    Pieces W anyEnd fun (α : Type) (m : M α) => Steps (returning W) m where
  hereditary := Steps.hereditary _
  elsewhere hm := hm.mono fun s t h => returning_of_granting
    ⟨h.moment, fun _ _ hq => .inl ((h.store.resolve_left id).of_some hq)⟩
    (h.log.mono fun o ho => by
      rcases ho with ho | ho
      · cases o <;> first | rfl | cases ho
      · cases o <;> first | rfl | cases ho)
  assign hf := .modify fun s => ⟨⟨(hf.moment s).ge, fun q auth hq =>
    .inl (by rwa [hf.authorizations] at hq)⟩, .of_log _ (hf.log s)⟩
  setUserState _ _ _ := (setUserState_within trivial).mono fun _ _ => returning_of_keyless
  credentials _ _ := (retrieveSessionCredentials_within trivial rfl fun _ => rfl).mono
    fun _ _ => returning_of_keyless
  opening _ _ := .bind ((retrieveSessionCredentials_within trivial rfl fun _ => rfl).mono
      fun _ _ => returning_of_keyless) fun _ => .ite
    (fun _ => .bind ((racResponse_within trivial fun _ => rfl).mono
      fun _ _ => returning_of_keyless) fun _ =>
        .bind (getUserAESCtx_within.mono fun _ _ => returning_of_keyless) fun _ => .pure _)
    fun _ => .pure _
  sac args a _ := by
    have hquiet {α : Type} {m : M α} (hm : Within (keyless False) m) : Steps (returning W) m :=
      hm.mono fun _ _ => returning_of_keyless
    exact .bind (hquiet argAt_within) fun _ => .bind (hquiet argAt_within) fun _ =>
      .bind (hquiet (verifyTimestampsAndNonce_within trivial)) fun _ => .ite
        (fun _ => .bind (hquiet getUserSeed_within) fun _ =>
          .bind checkAuthorizationCode_returning fun _ => .ite
            (fun _ => .bind (hquiet (setUserState_within trivial)) fun _ =>
              .bind (hquiet (observe_within (.inr rfl))) fun _ => .pure _)
            fun _ => .pure _) fun _ => .pure _
  door hact := (door_within hact trivial rfl rfl).mono fun _ _ => returning_of_keyless
  reply _ _ _ _ _ _ _ := (observe_within (.inr rfl)).mono fun _ _ => returning_of_keyless
  ping _ := (observe_within (.inr rfl)).mono fun _ _ => returning_of_keyless

/-- A program that starts anew finds what it had stored. -/
theorem restart_returning : Steps (returning W) (Prog.modify Sys.restarted : M Unit) :=
  .modify fun _ => ⟨⟨le_rfl, fun _ _ => .inl⟩, .of_log _ rfl⟩

/-- **The store is the server's**: after any run of the program, whatever its
outcome, what is stored was stored at its start, or `get_authorization_db`
made it in the run of an answer of the server, and has all that an orderly
answer gives. -/
theorem stored_granted {es : List MainEvent} {outcome : Except Fault Unit}
    (hrun : (mainRun W es).run s = (outcome, t)) (hq : t.authorizations q = some auth) :
    s.authorizations q = some auth ∨ ∃ m asked d phone key, s.moment ≤ m ∧ m < t.moment ∧
      W.authReply m asked = .body d ∧ d.success = true ∧ Filled W d phone key auth ∧
        auth.phone = q ∧ (d.Orderly phone key → TakenOver d phone key auth) := by
  have hgranting : (granting W).rel s t :=
    (Frame.of_run (returning_pieces.mainRun restart_returning es s) hrun).1
  rcases hgranting.2 q auth hq with h | ⟨m, hle, hlt, hphone, asked, d, phone, key, h⟩
  · exact .inl h
  · exact .inr ⟨m, asked, d, phone, key, hle, hlt, h.1, h.2.1, h.2.2, hphone, h.2.2.takenOver⟩

/-! ## A run on a fixed input -/

/-- An administrator opens a session, shows the code, and opens the door. -/
def unlocking : List Event :=
  [.tcpAccept lanAddress, .tcpRecv (lit "AAAA"),
    .tcpRecv (sealedText
      (lit "SAC phone AAAAAAAAAAAAAAAAAAAAAAAAAAAAAAAAAAAAAAAAAAA= 90 200 7")),
    .tcpRecv (sealedText (lit "RUD 90 200 8"))]

/-- An outside that answers, and knows an administrator. Its texts decrypt
to credentials, but for those of a key. -/
def World.administered : World :=
  { World.still .esp32s3 100 with
    rsaDecrypt := fun block =>
      some (if block.head? = some 255 then lit "AAAAAAAAAAAAAAAAAAAAAAAAAAAAAAAAAAAAAAAAAAA="
        else lit "SSC AAAA")
    authReply := fun _ _ =>
      .body ⟨true, some (lit "phone"), UserType.admin, some (lit "////"), [], 0, 0, 0⟩ }

/-- The program starts, the administrator opens the door and leaves, and the
program sleeps and starts again. -/
def administering : List MainEvent :=
  [.online, .initLedLockState, .startTimer] ++ unlocking.map .server ++
    [.server .tcpClose, .deepSleep, .online, .initLedLockState]

/-- What is then stored under a phone of which the lock knew nothing. -/
theorem exists_administered : ∃ t auth,
    (mainRun World.administered administering).run Sys.initial = (.ok (), t) ∧
      t.authorizations (lit "phone") = some auth := by
  have hrun : ((mainRun World.administered administering).run Sys.initial).1 = .ok () := by
    decide +kernel
  have hstored : ((mainRun World.administered administering).run Sys.initial).2.authorizations
      (lit "phone") ≠ none := by decide +kernel
  obtain ⟨t, ht⟩ : ∃ t, ((mainRun World.administered administering).run Sys.initial).2 = t :=
    ⟨_, rfl⟩
  rw [ht] at hstored
  obtain ⟨auth, hauth⟩ := Option.ne_none_iff_exists'.1 hstored
  exact ⟨t, auth, Prod.ext hrun ht, hauth⟩

/-- The key it gives is one of zeros. -/
theorem administered_gives (h : AuthData.Gives World.administered
      ⟨true, some (lit "phone"), UserType.admin, some (lit "////"), [], 0, 0, 0⟩ s phone key) :
    phone = lit "phone" ∧ key = List.replicate 32 0 := by
  obtain ⟨hphone, enc, text, u, henc, htext, hkey⟩ := h
  cases hphone
  cases henc
  have hdecoded : base64Decode (lit "////") = some [255, 255, 255] := by decide
  have htext' : text = lit "AAAAAAAAAAAAAAAAAAAAAAAAAAAAAAAAAAAAAAAAAAA=" := by
    have hread : (readBytes World.administered [255, 255, 255] keySizeBytesRSA).run s =
        (.ok (Vector.ofFn fun i => [255, 255, 255].getD i 0), s.ticked) := rfl
    have hfirst : (Vector.ofFn fun i : Fin keySizeBytesRSA =>
        ([255, 255, 255] : List UInt8).getD i 0).toList.head? = some 255 := by
      rw [List.head?_eq_getElem?, Vector.getElem?_toList, Vector.getElem?_ofFn,
        dif_pos (by decide : 0 < keySizeBytesRSA)]
      rfl
    have hopened : World.administered.rsaDecrypt (Vector.ofFn fun i : Fin keySizeBytesRSA =>
        ([255, 255, 255] : List UInt8).getD i 0).toList =
          some (lit "AAAAAAAAAAAAAAAAAAAAAAAAAAAAAAAAAAAAAAAAAAA=") :=
      congrArg some (if_pos hfirst)
    rw [decryptBase64RSA, run_bind_ok (deref_ok.2 ⟨hdecoded, rfl⟩), run_bind_ok hread,
      run_bind_ok (deref_ok.2 ⟨hopened, rfl⟩)] at htext
    have hcstr : cstr (lit "AAAAAAAAAAAAAAAAAAAAAAAAAAAAAAAAAAAAAAAAAAA=") =
        lit "AAAAAAAAAAAAAAAAAAAAAAAAAAAAAAAAAAAAAAAAAAA=" := by decide
    exact (Except.ok.inj (Prod.mk.inj htext).1).symm.trans hcstr
  have hzeros : base64Decode (lit "AAAAAAAAAAAAAAAAAAAAAAAAAAAAAAAAAAAAAAAAAAA=") =
      some (List.replicate 32 0) := by decide
  rw [htext', hzeros] at hkey
  exact ⟨rfl, (Option.some.inj hkey).symm⟩

/-- What the server granted is stored, with the key and the kind of user it
gave. -/
theorem stored_granted_administered : ∃ t auth,
    (mainRun World.administered administering).run Sys.initial = (.ok (), t) ∧
      t.authorizations (lit "phone") = some auth ∧
      auth.masterKey.toList = List.replicate 32 0 ∧ auth.userType = UserType.admin := by
  obtain ⟨t, auth, hrun, hauth⟩ := exists_administered
  refine ⟨t, auth, hrun, hauth, ?_⟩
  rcases stored_granted hrun hauth with h |
    ⟨m, asked, d, phone, key, -, -, hreply, -, hfilled, -, htaken⟩
  · cases h
  · cases hreply
    obtain ⟨_, u, _, hgives, _⟩ := hfilled
    obtain ⟨rfl, rfl⟩ := administered_gives hgives
    have htaken := htaken ⟨by decide, by decide, nofun⟩
    exact ⟨htaken.masterKey, htaken.userType⟩

end SmartLock
