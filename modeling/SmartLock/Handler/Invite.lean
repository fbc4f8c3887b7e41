import SmartLock.Handler.Permission

/-!
# The invites that are asked for

What `RNI` and `RUI` pass on to `canCreateInvite`: the fields of the type
of user, and `-1` for every other. `canCreateInvite` compares all three
with the window of a tenant, the absent ones included, so that a tenant is
refused what is `Delegable` as well.
-/

namespace SmartLock

open Prog

variable {W : World} {a p email : CStr} {s s' : Sys} {A : Authorization} {args : List CStr}
variable {r : InviteRequest} {userType : UserType}

/-! ## The requests -/

/-- The fields the type of the request does not carry are `-1`. -/
structure InviteRequest.Passed (r : InviteRequest) : Prop where
  oneDay : r.userType ≠ UserType.oneTimeUser → r.oneDay = -1
  window : r.userType ≠ UserType.tenant → r.userType ≠ UserType.periodicUser →
    r.validFrom = -1 ∧ r.validUntil = -1

/-- The fields of an `RNI` are the numbers its arguments name. -/
structure Parsed (args : List CStr) (asked : UserType) (r : InviteRequest) : Prop where
  type : r.userType = asked
  window : asked = UserType.tenant ∨ asked = UserType.periodicUser →
    ∃ x y, argument args 1 = some x ∧ argument args 2 = some y ∧
      r.validFrom = strtol x ∧ r.validUntil = strtol y
  oneDay : asked = UserType.oneTimeUser → ∃ x, argument args 1 = some x ∧ r.oneDay = strtol x
  passed : r.Passed

/-- **What an `RNI` asks for.** -/
theorem rniRequest_ok (h : (rniRequest args userType).run s = (.ok r, s')) :
    s' = s ∧ Parsed args userType r := by
  unfold rniRequest at h
  split at h
  · simp only [bind_ok, argAt_ok] at h
    obtain ⟨x, _, ⟨hx, rfl⟩, y, _, ⟨hy, rfl⟩, hret⟩ := h
    cases hret
    exact ⟨rfl, rfl, fun _ => ⟨x, y, hx, hy, rfl, rfl⟩, fun ht => absurd ht (by decide),
      fun _ => rfl, fun ht => absurd rfl ht⟩
  · simp only [bind_ok, argAt_ok] at h
    obtain ⟨x, _, ⟨hx, rfl⟩, y, _, ⟨hy, rfl⟩, _, _, ⟨_, rfl⟩, hret⟩ := h
    cases hret
    exact ⟨rfl, rfl, fun _ => ⟨x, y, hx, hy, rfl, rfl⟩, fun ht => absurd ht (by decide),
      fun _ => rfl, fun _ ht => absurd rfl ht⟩
  · simp only [bind_ok, argAt_ok] at h
    obtain ⟨x, _, ⟨hx, rfl⟩, hret⟩ := h
    cases hret
    exact ⟨rfl, rfl, fun ht => absurd ht (by decide), fun _ => ⟨x, hx, rfl⟩,
      fun ht => absurd rfl ht, fun _ _ => ⟨rfl, rfl⟩⟩
  · rename_i htenant hperiodic honeTime
    cases h
    exact ⟨rfl, rfl, fun ht => (ht.elim htenant hperiodic).elim, fun ht => (honeTime ht).elim,
      fun _ => rfl, fun _ _ => ⟨rfl, rfl⟩⟩

/-- What an `RUI` asks for has the type that is stored, and no more
fields than that. -/
theorem ruiRequest_ok (h : (ruiRequest W A email).run s = (.ok r, s')) :
    r.userType = A.userType ∧ r.Passed := by
  unfold ruiRequest at h
  split at h
  · rename_i htype
    obtain ⟨_, _, _, hrest⟩ := bind_ok.1 h
    obtain ⟨_, _, _, hret⟩ := bind_ok.1 hrest
    cases hret
    exact ⟨rfl, fun _ => rfl, fun _ ht => absurd htype ht⟩
  · rename_i htype
    cases h
    exact ⟨rfl, fun _ => rfl, fun ht => absurd htype ht⟩
  · rename_i htype
    cases h
    exact ⟨rfl, fun ht => absurd htype ht, fun _ _ => ⟨rfl, rfl⟩⟩
  · cases h
    exact ⟨rfl, fun _ => rfl, fun _ _ => ⟨rfl, rfl⟩⟩

/-! ## What a tenant has -/

/-- The instant is in the window of the authorization. -/
def Authorization.Within (A : Authorization) (t : Int) : Prop :=
  A.validFromTs ≤ t ∧ t ≤ A.validUntilTs

instance (t : Int) : Decidable (A.Within t) := inferInstanceAs (Decidable (_ ∧ _))

/-- What a tenant should be able to pass on: their window or a part of it,
to a tenant or a periodic user, and a day in it to a user of one day. -/
def Delegable (A : Authorization) (r : InviteRequest) : Prop :=
  ((r.userType = UserType.tenant ∨ r.userType = UserType.periodicUser) ∧
      A.Within r.validFrom ∧ A.Within r.validUntil) ∨
    (r.userType = UserType.oneTimeUser ∧ A.Within r.oneDay)

instance : Decidable (Delegable A r) := inferInstanceAs (Decidable (_ ∨ _))

/-- What the source compares, of every request. -/
theorem invitePermitted_tenant (hA : A.userType = UserType.tenant) {x y z : Int} :
    invitePermitted A x y z = true ↔ A.Within x ∧ A.Within y ∧ A.Within z := by
  simp only [invitePermitted, hA, Authorization.Within]
  split_ifs <;> simp <;> omega

/-- **A window of real instants permits nothing that is passed**: no
request carries all three fields. -/
theorem invitePermitted_passed (hA : A.userType = UserType.tenant) (hfrom : 0 ≤ A.validFromTs)
    (hr : r.Passed) : invitePermitted A r.validFrom r.validUntil r.oneDay = false := by
  by_contra hyes
  rw [Bool.not_eq_false, invitePermitted_tenant hA] at hyes
  obtain ⟨⟨hlow, _⟩, -, hday, _⟩ := hyes
  by_cases hone : r.userType = UserType.oneTimeUser
  · have hwindow := hr.window (by rw [hone]; decide) (by rw [hone]; decide)
    omega
  · have hnone := hr.oneDay hone
    omega

/-- `canCreateInvite`, of an authorized user whose authorization is
found. -/
theorem canCreateInvite_run (hp : AuthorizedFor a p s)
    (hstored : (storedAuthorization W p).run s = (.ok (some A), s')) {x y z : Int} :
    (canCreateInvite W a userType x y z).run s =
      (.ok (!decide (A.userType > userType) && invitePermitted A x y z), s') := by
  obtain ⟨hstate, hphone⟩ := hp.getters
  rw [canCreateInvite, run_bind_ok hstate, if_neg (not_not.2 rfl), run_bind_ok hphone]
  dsimp only
  rw [run_bind_ok hstored]
  dsimp only
  by_cases hle : A.userType > userType
  · rw [if_pos hle, decide_eq_true hle]
    rfl
  · rw [if_neg hle, decide_eq_false hle]
    rfl

/-- **A tenant can delegate what they have exactly where they have nothing
to delegate**: `canCreateInvite` says no to every request. -/
theorem tenant_delegates_iff (hA : A.userType = UserType.tenant) (hfrom : 0 ≤ A.validFromTs)
    (hp : AuthorizedFor a p s)
    (hstored : (storedAuthorization W p).run s = (.ok (some A), s')) (hr : r.Passed) :
    ((canCreateInvite W a r.userType r.validFrom r.validUntil r.oneDay).run s).1 =
      .ok (decide (Delegable A r)) ↔ ¬ Delegable A r := by
  rw [canCreateInvite_run hp hstored, invitePermitted_passed hA hfrom hr, Bool.and_false,
    Except.ok.injEq, eq_comm, decide_eq_false_iff_not]

/-- The authorization of `tenantAuthorized`. -/
def tenantWindow : Authorization :=
  ⟨Vector.replicate 16 0, UserType.tenant, Vector.replicate 32 0, Vector.replicate 7 false, 0,
    1000, 0⟩

theorem authorizedFor_tenantAuthorized :
    AuthorizedFor (lit "192.168.1.5") (lit "phone") tenantAuthorized :=
  ⟨⟨_, rfl, rfl, rfl⟩, by decide⟩

/-- An invite of an owner is refused, and is not for a tenant to ask for. -/
theorem tenant_delegates_owner :
    ((canCreateInvite (World.still .esp32s3 100) (lit "192.168.1.5") UserType.owner (-1) (-1)
      (-1)).run tenantAuthorized).1 =
      .ok (decide (Delegable tenantWindow ⟨UserType.owner, -1, -1, none, -1, none⟩)) :=
  (tenant_delegates_iff (r := ⟨UserType.owner, -1, -1, none, -1, none⟩) rfl (by decide)
    authorizedFor_tenantAuthorized rfl ⟨fun _ => rfl, fun _ _ => ⟨rfl, rfl⟩⟩).2 (by decide)

/-- **A tenant from 0 to 1000 is refused an invite of a tenant from 90 to
200.** -/
theorem tenant_cannot_delegate :
    ¬ ∀ (W : World) (A : Authorization) (a p : CStr) (s s' : Sys) (r : InviteRequest),
      A.userType = UserType.tenant → 0 ≤ A.validFromTs → A.validFromTs ≤ A.validUntilTs →
      AuthorizedFor a p s → (storedAuthorization W p).run s = (.ok (some A), s') → r.Passed →
      ((canCreateInvite W a r.userType r.validFrom r.validUntil r.oneDay).run s).1 =
        .ok (decide (Delegable A r)) := by
  intro hall
  have hyes := hall (World.still .esp32s3 100) tenantWindow _ _ tenantAuthorized _
    ⟨UserType.tenant, 90, 200, none, -1, none⟩ rfl (by decide) (by decide)
    authorizedFor_tenantAuthorized rfl ⟨fun _ => rfl, fun ht => absurd rfl ht⟩
  have hno : ((canCreateInvite (World.still .esp32s3 100) (lit "192.168.1.5") UserType.tenant 90
      200 (-1)).run tenantAuthorized).1 = .ok false := by decide +kernel
  rw [hno, show decide (Delegable tenantWindow ⟨UserType.tenant, 90, 200, none, -1, none⟩) = true
    by decide] at hyes
  cases hyes

end SmartLock
