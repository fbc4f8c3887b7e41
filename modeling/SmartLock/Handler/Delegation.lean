import SmartLock.Handler.Effect

/-!
# What an invite can pass on

A user who asks for an invite passes on no more than what is stored for
them: no lower type, and of a tenant no time outside of their window. The
new holder may ask for invites in turn, so the bound is carried along
chains of delegations of any length.
-/

namespace SmartLock

open Prog

variable {W : World} {a cmd p : CStr} {s s' : Sys} {n : ℕ} {A B : Authorization}
variable {request : InviteRequest}

/-! ## What is stored for the user -/

/-- What the store returns is what it holds. -/
theorem nvsGetBlob_ok {err : Int} {blob : Option Authorization}
    (h : (nvsGetBlob W p).run s = (.ok (err, blob), s')) (herr : err = espOk) :
    blob ≠ none ∧ s.authorizations p = blob := by
  rw [nvsGetBlob, run_tick_bind] at h
  rcases he : W.nvsError s.moment with _ | e
  · simp only [he, run_get_bind] at h
    by_cases hlen : nvsKeyMax < p.length
    · rw [if_pos hlen] at h
      cases h
      exact absurd herr (by decide)
    · rw [if_neg hlen] at h
      rcases hauth : s.authorizations p with _ | auth
      · simp only [Sys.ticked, hauth] at h
        cases h
        exact absurd herr (by decide)
      · simp only [Sys.ticked, hauth] at h
        cases h
        exact ⟨Option.some_ne_none auth, rfl⟩
  · simp only [he] at h
    cases h
    exact absurd herr e.ne_ok

theorem getAuthorization_ok {auth₀ : Authorization} {err : Int} {auth : Option Authorization}
    (h : (getAuthorization W p auth₀).run s = (.ok (err, auth), s')) (herr : err = espOk) :
    auth ≠ none ∧ s.authorizations p = auth := by
  subst herr
  obtain ⟨err₁, s₁, hopen, h⟩ := bind_ok.1 h
  have h₁ : looking.Rel s s₁ := initAndOpen_within.of_ok hopen
  by_cases herr₁ : err₁ ≠ espOk
  · rw [if_pos herr₁] at h
    cases h
    exact absurd rfl herr₁
  rw [if_neg herr₁] at h
  obtain ⟨⟨err₂, blob₂⟩, s₂, hsize, h⟩ := bind_ok.1 h
  have h₂ : looking.Rel s₁ s₂ := nvsGetBlob_within.of_ok hsize
  dsimp only at h
  by_cases herr₂ : err₂ ≠ espOk ∧ err₂ ≠ espErrNvsNotFound
  · rw [if_pos herr₂] at h
    cases h
    exact absurd rfl herr₂.1
  rw [if_neg herr₂] at h
  by_cases hblob : blob₂ = none
  · rw [if_pos hblob] at h
    cases h
    exact absurd hblob (nvsGetBlob_ok hsize rfl).1
  rw [if_neg hblob] at h
  obtain ⟨⟨err₃, blob₃⟩, s₃, hread, h⟩ := bind_ok.1 h
  dsimp only at h
  by_cases herr₃ : err₃ ≠ espOk
  · rw [if_pos herr₃] at h
    cases h
    exact absurd rfl herr₃
  rw [if_neg herr₃] at h
  cases h
  obtain ⟨hsome, hstored⟩ := nvsGetBlob_ok hread rfl
  obtain ⟨auth', rfl⟩ := Option.ne_none_iff_exists'.1 hsome
  -- opening the store may have erased it, and did not
  have hkept : Shrinks s s₂ :=
    (h₁.store.resolve_left id).trans (h₂.store.resolve_left id)
  exact ⟨hsome, hkept.of_some hstored⟩

/-- **What a permission is judged by is what is stored for the phone.** -/
theorem storedAuthorization_ok (h : (storedAuthorization W p).run s = (.ok (some A), s')) :
    s.authorizations p = some A := by
  obtain ⟨t, s₁, htick, h⟩ := bind_ok.1 h
  have h₁ : looking.Rel s s₁ := tick_within.of_ok htick
  obtain ⟨⟨res, auth⟩, s₂, hget, h⟩ := bind_ok.1 h
  dsimp only at h
  by_cases hres : res ≠ espOk
  · rw [if_pos hres] at h
    cases h
  rw [if_neg hres] at h
  obtain ⟨A', s₃, hderef, hret⟩ := bind_ok.1 h
  obtain ⟨rfl, _⟩ := deref_ok.1 hderef
  cases hret
  exact (h₁.store.resolve_left id).of_some (getAuthorization_ok hget (not_not.1 hres)).2

/-! ## One invite -/

/-- The invite passes on no more than the authorization gives. -/
structure Attenuates (A : Authorization) (request : InviteRequest) : Prop where
  type : A.userType = UserType.admin ∨ A.userType = UserType.owner ∨ A.userType = UserType.tenant
  le : A.userType ≤ request.userType
  window : A.userType = UserType.tenant →
    ∀ t ∈ [request.validFrom, request.validUntil, request.oneDay],
      A.validFromTs ≤ t ∧ t ≤ A.validUntilTs

theorem attenuates_of_invitePermitted (hle : ¬ A.userType > request.userType)
    (h : invitePermitted A request.validFrom request.validUntil request.oneDay = true) :
    Attenuates A request := by
  rw [not_lt] at hle
  rw [invitePermitted] at h
  split at h
  · rename_i htype
    exact ⟨.inl htype, hle, fun ht => absurd (htype.symm.trans ht) (by decide)⟩
  · rename_i htype
    exact ⟨.inr (.inl htype), hle, fun ht => absurd (htype.symm.trans ht) (by decide)⟩
  · rename_i htype
    refine ⟨.inr (.inr htype), hle, fun _ => ?_⟩
    split_ifs at h with h₁ h₂ h₃ h₄ h₅ h₆
    simp only [List.mem_cons, List.not_mem_nil, or_false, forall_eq_or_imp, forall_eq]
    omega
  · cases h

theorem canCreateInvite_ok {request : InviteRequest}
    (h : (canCreateInvite W a request.userType request.validFrom request.validUntil
      request.oneDay).run s = (.ok true, s')) :
    ∃ p A, AuthorizedFor a p s ∧ s.authorizations p = some A ∧ Attenuates A request := by
  rcases whenAuthorized_ok h with ⟨hr, _⟩ | ⟨p, hp, hrest⟩
  · exact absurd hr (by decide)
  obtain ⟨auth, s₁, hauth, hrest⟩ := bind_ok.1 hrest
  cases auth with
  | none => cases hrest
  | some A =>
    dsimp only at hrest
    by_cases hle : A.userType > request.userType
    · rw [if_pos hle] at hrest
      cases hrest
    · rw [if_neg hle] at hrest
      have hpermitted := Except.ok.inj (Prod.mk.inj hrest).1
      exact ⟨p, A, hp, storedAuthorization_ok hauth, attenuates_of_invitePermitted hle hpermitted⟩

/-- The user who may ask for an invite is the one the command found. -/
theorem MayInvite.attenuates (h : MayInvite W cmd n a request s) :
    ∃ p A, AuthorizedFor a p s ∧ s.authorizations p = some A ∧ Attenuates A request := by
  obtain ⟨s₂, s₃, ⟨_, s₁, hverified, huse⟩, hinvite⟩ := h
  have h₂ := (canUseLock_within (F := checking) fun p => ⟨p, rfl⟩).of_ok huse
  obtain ⟨p, A, ⟨⟨x, hx, hstate, hphone⟩, hne⟩, hstored, hatt⟩ := canCreateInvite_ok hinvite
  rw [h₂.user_eq id fun h => h.1, hverified.user] at hx
  have hshrinks : Shrinks s s₂ := hverified.store.trans (h₂.store.resolve_left id)
  exact ⟨p, A, ⟨⟨x, hx, hstate, hphone⟩, hne⟩, hshrinks.of_some hstored, hatt⟩

/-- **No invite passes on more than is stored for who asks for it**, of
any command that gets as far as `create_invite`, whatever comes after. -/
theorem createInvite_attenuates {outcome : Except Fault (Option CStr)} {e : Int} {pre : List Obs}
    (hw : word cmd = some (lit "RNI") ∨ word cmd = some (lit "RUI"))
    (h : (checkCommand W cmd a).run s = (outcome, s'))
    (hmade : Made s s' (.createInvite e request) pre) :
    ∃ p A, AuthorizedFor a p s ∧ s.authorizations p = some A ∧ Attenuates A request := by
  have hgate : Gate W cmd a s (.createInvite e request) pre := checkCommand_makes.of_run h hmade
  rcases hgate with ⟨_, hmay⟩ | ⟨_, hmay⟩ | ⟨hrfi, _⟩
  · exact hmay.attenuates
  · exact hmay.attenuates
  · rw [hrfi] at hw
    exact absurd hw (by decide)

/-! ## Chains -/

/-- The holder has exactly the type and the window that were asked for. -/
structure Holder (B : Authorization) (request : InviteRequest) : Prop where
  userType : B.userType = request.userType
  validFromTs : B.validFromTs = request.validFrom
  validUntilTs : B.validUntilTs = request.validUntil

/-- The holder of `A` asked, by `RNI` or `RUI`, for the invite that `B`
came from. -/
def Delegates (A B : Authorization) : Prop :=
  ∃ (W : World) (cmd a p : CStr) (s s' : Sys) (outcome : Except Fault (Option CStr)) (e : Int)
    (request : InviteRequest) (pre : List Obs),
    (word cmd = some (lit "RNI") ∨ word cmd = some (lit "RUI")) ∧
    (checkCommand W cmd a).run s = (outcome, s') ∧ Made s s' (.createInvite e request) pre ∧
    AuthorizedFor a p s ∧ s.authorizations p = some A ∧ Holder B request

/-- A request that a log starts with. -/
theorem Delegates.of_log {e : Int} {pre : List Obs}
    (hw : word cmd = some (lit "RNI") ∨ word cmd = some (lit "RUI")) (hs : s.log = [])
    (hlog : ((checkCommand W cmd a).run s).2.log = .createInvite e request :: pre)
    (hp : AuthorizedFor a p s) (hA : s.authorizations p = some A) (hB : Holder B request) :
    Delegates A B :=
  ⟨W, cmd, a, p, s, _, _, e, request, pre, hw, rfl,
    ⟨hs ▸ List.nil_suffix, hlog ▸ List.suffix_rfl⟩, hp, hA, hB⟩

theorem Delegates.attenuates (h : Delegates A B) : ∃ request, Holder B request ∧
    Attenuates A request := by
  obtain ⟨W, cmd, a, p, s, s', outcome, e, request, pre, hw, hrun, hmade, hp, hA, hB⟩ := h
  obtain ⟨p', A', hp', hA', hatt⟩ := createInvite_attenuates hw hrun hmade
  rw [hp.unique hp', hA] at hA'
  cases hA'
  exact ⟨request, hB, hatt⟩

/-- What `B` has is within what `A` has: no lower type, and no time
outside of the window where both are tenants. -/
structure Bounded (A B : Authorization) : Prop where
  le : A.userType ≤ B.userType
  window : A.userType = UserType.tenant → B.userType = UserType.tenant →
    A.validFromTs ≤ B.validFromTs ∧ B.validUntilTs ≤ A.validUntilTs

theorem Bounded.refl (A : Authorization) : Bounded A A := ⟨le_rfl, fun _ _ => ⟨le_rfl, le_rfl⟩⟩

/-- One more delegation stays within the bound: who delegates under a
tenant is a tenant. -/
theorem Bounded.delegates {C : Authorization} (h : Bounded A B) (hBC : Delegates B C) :
    Bounded A C := by
  obtain ⟨request, hC, hatt⟩ := hBC.attenuates
  refine ⟨?_, fun hA _ => ?_⟩
  · rw [hC.userType]
    exact h.le.trans hatt.le
  · have hle : A.userType ≤ B.userType := h.le
    have hB : B.userType = UserType.tenant := by
      rcases hatt.type with hB | hB | hB
      · rw [hA, hB] at hle
        exact absurd hle (by decide)
      · rw [hA, hB] at hle
        exact absurd hle (by decide)
      · exact hB
    obtain ⟨hfrom, huntil⟩ := h.window hA hB
    have hwindow := hatt.window hB
    simp only [List.mem_cons, List.not_mem_nil, or_false, forall_eq_or_imp, forall_eq] at hwindow
    rw [hC.validFromTs, hC.validUntilTs]
    exact ⟨hfrom.trans hwindow.1.1, hwindow.2.1.2.trans huntil⟩

/-- **No privilege escalation through invites.** A command that gets as
far as `create_invite` passes on no more than is stored for who asks, and
so does no chain of delegations, however long. -/
theorem no_escalation :
    (∀ (W : World) (cmd a : CStr) (s s' : Sys) (outcome : Except Fault (Option CStr)) (e : Int)
      (request : InviteRequest) (pre : List Obs),
      (word cmd = some (lit "RNI") ∨ word cmd = some (lit "RUI")) →
      (checkCommand W cmd a).run s = (outcome, s') → Made s s' (.createInvite e request) pre →
      ∃ p A, AuthorizedFor a p s ∧ s.authorizations p = some A ∧ Attenuates A request) ∧
    ∀ A B, Relation.ReflTransGen Delegates A B → Bounded A B := by
  refine ⟨fun W cmd a s s' outcome e request pre => createInvite_attenuates, fun A B hchain => ?_⟩
  induction hchain with
  | refl => exact .refl A
  | tail _ hBC ih => exact ih.delegates hBC

/-- An authorization of this type, for this window. -/
def authorizationOf (userType : UserType) (validFrom validUntil : Int) : Authorization :=
  ⟨Vector.replicate 16 0, userType, Vector.replicate 32 0, Vector.replicate 7 false, validFrom,
    validUntil, 0⟩

/-- The user of `adminAuthorized`, with this authorization in the store. -/
def authorizedWith (A : Authorization) : Sys :=
  { adminAuthorized with authorizations := fun _ => some A }

/-- An administrator asks for an invite of an owner, and the server does
not answer. -/
theorem invite_adminAuthorized :
    ((checkCommand (World.still .esp32s3 100) (lit "RNI 1 90 200 1") (lit "192.168.1.5")).run
      adminAuthorized).2.log =
      [.createInvite 3700 ⟨UserType.owner, -1, -1, none, -1, none⟩, .consult (lit "phone")] := by
  decide +kernel

/-- The owner asks for an invite of a tenant. -/
theorem invite_ownerAuthorized :
    ((checkCommand (World.still .esp32s3 100) (lit "RNI 2 110 150 90 200 2")
      (lit "192.168.1.5")).run (authorizedWith (authorizationOf UserType.owner (-1) (-1)))).2.log =
      [.createInvite 3700 ⟨UserType.tenant, 110, 150, none, -1, none⟩,
        .consult (lit "phone")] := by
  decide +kernel

theorem delegates_owner :
    Delegates (authorizationOf UserType.admin 0 0) (authorizationOf UserType.owner (-1) (-1)) :=
  .of_log (.inl (by decide)) rfl invite_adminAuthorized ⟨⟨_, rfl, rfl, rfl⟩, by decide⟩ rfl
    ⟨rfl, rfl, rfl⟩

theorem delegates_tenant : Delegates (authorizationOf UserType.owner (-1) (-1))
    (authorizationOf UserType.tenant 110 150) :=
  .of_log (.inl (by decide)) rfl invite_ownerAuthorized ⟨⟨_, rfl, rfl, rfl⟩, by decide⟩ rfl
    ⟨rfl, rfl, rfl⟩

/-- The bound, of the first invite, and of the tenant at the end of the
chain. -/
theorem no_escalation_adminAuthorized :
    (∃ p A, AuthorizedFor (lit "192.168.1.5") p adminAuthorized ∧
      adminAuthorized.authorizations p = some A ∧
      Attenuates A ⟨UserType.owner, -1, -1, none, -1, none⟩) ∧
    Bounded (authorizationOf UserType.admin 0 0) (authorizationOf UserType.tenant 110 150) := by
  refine ⟨?_, no_escalation.2 _ _ (.tail (.single delegates_owner) delegates_tenant)⟩
  let run := (checkCommand (World.still .esp32s3 100) (lit "RNI 1 90 200 1")
    (lit "192.168.1.5")).run adminAuthorized
  refine no_escalation.1 (World.still .esp32s3 100) (lit "RNI 1 90 200 1") (lit "192.168.1.5")
    adminAuthorized run.2 run.1 3700 _ [.consult (lit "phone")] (.inl (by decide)) rfl
    ⟨List.nil_suffix, ?_⟩
  rw [invite_adminAuthorized]

end SmartLock
