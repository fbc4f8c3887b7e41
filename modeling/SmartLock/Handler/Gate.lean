import SmartLock.Handler.Commands
import SmartLock.Footprint.Observed

/-!
# The authorization gate of the dispatcher

What each command checked before it did what it is for. `Gate` says, of
every observation that matters, which command makes it and after which
checks; `checkCommand_makes` that this holds however the command ends,
also if it faults. For a command that returned the reply then tells
whether the effect took place.
-/

namespace SmartLock

open Prog

variable {W : World} {a b cmd p q code : CStr} {c : Tok} {s s₀ s₁ s₂ s' : Sys} {n : ℕ}
variable {args : List CStr} {r : Option CStr} {o : Obs} {pre : List Obs}

/-! ## What is checked -/

/-- The user of `a` is authorized. -/
def Authorized (a : CStr) (s : Sys) : Prop := ∃ x, s.user a = some x ∧ x.state = .authorized

/-- Later, with the same sessions and the same nonces. -/
structure Undisturbed (s s₀ : Sys) : Prop where
  user : ∀ b, s₀.user b = s.user b
  head : s₀.head = s.head
  moment : s.moment ≤ s₀.moment
  store : Shrinks s s₀
  log : s.log <:+ s₀.log

theorem Undisturbed.refl (s : Sys) : Undisturbed s s :=
  ⟨fun _ => rfl, rfl, le_rfl, .refl s, List.suffix_refl _⟩

/-- What a program that only looks may touch, besides the cached status. -/
def looking : Footprint := ⟨fun _ => False, False, False, True, False, False, fun _ => False⟩

theorem undisturbed_of_rel (h : looking.Rel s s₀) : Undisturbed s s₀ :=
  ⟨fun _ => h.user_eq id fun h => h.1, h.head.resolve_left id, h.moment, h.store.resolve_left id,
    h.log.suffix⟩

variable (W) in
/-- `verifyTimestampsAndNonce` accepted the last three of the `n` arguments
of the command, on the nonces of `s`, and left `s₁`. -/
def Verified (cmd : CStr) (n : ℕ) (s s₁ : Sys) : Prop :=
  ∃ args s₀, Given cmd n args ∧ Undisturbed s s₀ ∧
    (verifyTimestampsAndNonce W args (n - 3)).run s₀ = (.ok true, s₁)

/-- What the checks of a command may touch. -/
def checking : Footprint :=
  ⟨fun _ => False, False, True, False, False, False, fun o => ∃ p, o = .consult p⟩

/-- The sessions are those the command found. -/
theorem Verified.user (h : Verified W cmd n s s₁) : s₁.user b = s.user b := by
  obtain ⟨args, s₀, _, h₀, hrun⟩ := h
  have hrel : checking.Rel s₀ s₁ := (verifyTimestampsAndNonce_within trivial).of_ok hrun
  exact (hrel.user_eq id fun h => h.1).trans (h₀.user b)

theorem Verified.store (h : Verified W cmd n s s₁) : Shrinks s s₁ := by
  obtain ⟨args, s₀, _, h₀, hrun⟩ := h
  have hrel : checking.Rel s₀ s₁ := (verifyTimestampsAndNonce_within trivial).of_ok hrun
  exact h₀.store.trans (hrel.store.resolve_left id)

theorem Verified.log (h : Verified W cmd n s s₁) : s.log <:+ s₁.log := by
  obtain ⟨args, s₀, _, h₀, hrun⟩ := h
  have hrel : checking.Rel s₀ s₁ := (verifyTimestampsAndNonce_within trivial).of_ok hrun
  exact h₀.log.trans hrel.log.suffix

variable (W) in
/-- The stamps were accepted of an authorized user, and then `canUseLock`
held, and left `s₂`. -/
def MayUse (cmd : CStr) (n : ℕ) (a : CStr) (s s₂ : Sys) : Prop :=
  (∃ p, AuthorizedFor a p s) ∧
    ∃ s₁, Verified W cmd n s s₁ ∧ (canUseLock W a).run s₁ = (.ok true, s₂)

variable (W) in
/-- And `canCreateInvite` held. -/
def MayInvite (cmd : CStr) (n : ℕ) (a : CStr) (r : InviteRequest) (s : Sys) : Prop :=
  ∃ s₂ s₃, MayUse W cmd n a s s₂ ∧
    (canCreateInvite W a r.userType r.validFrom r.validUntil r.oneDay).run s₂ = (.ok true, s₃)

/-- `get_registration_status` says `REGISTERED`: the cache does, or it was
empty and the server does. -/
def CachedRegistered (s : Sys) : Prop :=
  s.registrationStatus = registered ∨
    s.registrationStatus = unknownStatus ∧ s.serverStatus = registered

variable (W) in
/-- What is to have happened, with the log at `pre`, before a command of
`a` started in `s` makes an observation. -/
def Gate (cmd a : CStr) (s : Sys) : Obs → List Obs → Prop
  | .unlockLock, pre =>
    word cmd = some (lit "RUD") ∧ ∃ s₂, MayUse W cmd 3 a s s₂ ∧ s₂.log <:+ pre
  | .lockLock, pre =>
    (word cmd = some (lit "RLD") ∧ ∃ s₂, MayUse W cmd 3 a s s₂ ∧ s₂.log <:+ pre) ∨
      (word cmd = some (lit "RDS") ∧ Authorized a s ∧ (∃ s₁, Verified W cmd 3 s s₁) ∧
        -- no state of the door is stored
        ∃ pre', s.log <:+ pre' ∧ .lockStateRead none :: pre' <:+ pre)
  | .createInvite _ r, _ =>
    (word cmd = some (lit "RNI") ∧ MayInvite W cmd (rniArgs cmd) a r s) ∨
      (word cmd = some (lit "RUI") ∧ MayInvite W cmd 4 a r s) ∨
      (word cmd = some (lit "RFI") ∧ CachedRegistered s ∧ ∃ s₁, Verified W cmd 4 s s₁)
  | .notification _, _ =>
    word cmd = some (lit "SNT") ∧ Authorized a s ∧ ∃ s₁, Verified W cmd 4 s s₁
  | .sac a' p code, _ =>
    a' = a ∧ word cmd = some (lit "SAC") ∧ argument (arguments cmd) 0 = some p ∧
      argument (arguments cmd) 1 = some code ∧
      ∃ x s₁ s₂, s.user a = some x ∧ Verified W cmd 5 s s₁ ∧
        (checkAuthorizationCode W p code x.seed).run s₁ = (.ok true, s₂)
  | .consult p, _ => AuthorizedFor a p s
  | _, _ => True

theorem gate_of_ambient (h : o.ambient = true) : Gate W cmd a s o pre := by
  cases o <;> trivial

/-- The footprint of the observations no command guards. -/
abbrev unguarded (W : World) (cmd a : CStr) (s : Sys) : Footprint := .free (Gate W cmd a s)

theorem makes_of_unguarded {α : Type} {m : M α} (hm : Within (unguarded W cmd a s) m) :
    Makes (Gate W cmd a s) s₁ m :=
  .of_within hm fun _ ho _ => ho.elim gate_of_ambient fun h => h _

/-! ## The two permissions -/

/-- `canUseLock` holds only of an authorized user with a phone, whose
authorization it consults. -/
theorem authorizedFor_of_canUseLock (h : (canUseLock W a).run s = (.ok true, s')) :
    ∃ p, AuthorizedFor a p s ∧ .consult p :: s.log <:+ s'.log := by
  rcases whenAuthorized_ok h with ⟨hr, _⟩ | ⟨p, hp, hconsults⟩
  · exact absurd hr (by decide)
  · refine ⟨p, hp, ?_⟩
    obtain ⟨_, s₁, hnote, hpermits⟩ := bind_ok.1 hconsults
    cases hnote
    obtain ⟨auth, s₂, hauth, huse⟩ := bind_ok.1 hpermits
    have hrel : looking.Rel (s.noted (.consult p)) s₂ := storedAuthorization_within.of_ok hauth
    cases auth with
    | none => cases huse
    | some auth =>
      have huses : looking.Rel s₂ s' := usePermitted_within.of_ok huse
      exact (hrel.trans huses).log.suffix

/-- The checks of a use of the lock, gone through. -/
theorem mayUse_of_run (hargs : Given cmd n args) (h₀ : Undisturbed s s₀)
    (hverify : (verifyTimestampsAndNonce W args (n - 3)).run s₀ = (.ok true, s₁))
    (huse : (canUseLock W a).run s₁ = (.ok true, s₂)) : MayUse W cmd n a s s₂ := by
  have hverified : Verified W cmd n s s₁ := ⟨args, s₀, hargs, h₀, hverify⟩
  obtain ⟨p, hp, _⟩ := authorizedFor_of_canUseLock huse
  obtain ⟨x, hx, hstate, hphone⟩ := hp.user
  rw [hverified.user] at hx
  exact ⟨⟨p, ⟨x, hx, hstate, hphone⟩, hp.ne_nil⟩, s₁, hverified, huse⟩

/-- The authorization consulted is that of the user's phone. -/
theorem MayUse.consult (h : MayUse W cmd n a s s₂) :
    ∃ p mid, AuthorizedFor a p s ∧ s.log <:+ mid ∧ .consult p :: mid <:+ s₂.log := by
  obtain ⟨_, s₁, hverified, huse⟩ := h
  obtain ⟨p, ⟨⟨x, hx, hstate, hphone⟩, hne⟩, hlog⟩ := authorizedFor_of_canUseLock huse
  rw [hverified.user] at hx
  exact ⟨p, s₁.log, ⟨⟨x, hx, hstate, hphone⟩, hne⟩, hverified.log, hlog⟩

theorem authorized_of_getUserState (hverified : Verified W cmd n s s₁)
    (h : (getUserState a).run s₁ = (.ok .authorized, s₂)) : Authorized a s ∧ s₂ = s₁ := by
  obtain ⟨⟨x, hx, hstate⟩, rfl⟩ := getUserState_ok.1 h
  rw [hverified.user] at hx
  exact ⟨⟨x, hx, hstate⟩, rfl⟩

/-! ## The commands -/

theorem verify_makes {k : Int} : Makes (Gate W cmd a s) s₁ (verifyTimestampsAndNonce W args k) :=
  makes_of_unguarded (verifyTimestampsAndNonce_within trivial)

/-- What is consulted is stored under the phone of an authorized user. -/
theorem canUseLock_makes (hverified : Verified W cmd n s s₁) :
    Makes (Gate W cmd a s) s₁ (canUseLock W a) := by
  refine .bind (makes_of_unguarded getUserState_within) fun state s₂ hstate =>
    .ite (fun _ => .pure _) fun hauth => ?_
  obtain ⟨⟨x, hx, rfl⟩, rfl⟩ := getUserState_ok.1 hstate
  refine .bind (makes_of_unguarded getPhoneId_within) fun phone s₃ hphone => ?_
  obtain ⟨⟨y, hy, rfl⟩, rfl⟩ := getPhoneId_ok.1 hphone
  rw [hx, Option.some.injEq] at hy
  subst hy
  rw [hverified.user] at hx
  by_cases hlen : x.phoneId.length ≠ 0
  · rw [if_pos hlen]
    refine .bind (.observe ⟨⟨x, hx, not_not.1 hauth, rfl⟩, fun hnil => hlen (by rw [hnil]; rfl)⟩)
      fun _ s₄ _ => .bind (makes_of_unguarded storedAuthorization_within) fun auth s₅ _ => ?_
    cases auth with
    | none => exact .pure _
    | some auth => exact makes_of_unguarded usePermitted_within
  · rw [if_neg hlen]
    exact .pure _

/-- Behind the effect of a command there is the reset, and no other
observation. -/
theorem reset_makes {α : Type} {x : α} :
    Makes (Gate W cmd a s) s₁ (do freeCommand c; setBLEUserStateToConnecting W; return x) :=
  makes_of_unguarded (.bind freeCommand_within fun _ =>
    .bind (setBLEUserStateToConnecting_within trivial) fun _ => .pure _)

theorem free_makes {α : Type} {x : α} :
    Makes (Gate W cmd a s) s₁ (do freeCommand c; return x) :=
  makes_of_unguarded (.bind freeCommand_within fun _ => .pure _)

/-- What works on the arguments that were fetched makes what it makes of
them. -/
theorem fetched_makes {C : Obs → List Obs → Prop} {m : M (Option CStr)}
    {k : List CStr → M (Option CStr)} (hget : Makes C s₁ (getArgs W cmd n)) (hm : Makes C s₁ m)
    (hk : ∀ args, (getArgs W cmd n).run s₁ = (.ok (some args), s₁) → Makes C s₁ (k args)) :
    Makes C s₁ (getArgs W cmd n >>= fun args => match args with
      | none => m
      | some args => k args) := by
  refine .bind hget fun args s₂ hargs => ?_
  obtain ⟨rfl, -⟩ := getArgs_ok hargs
  cases args with
  | none => exact hm
  | some args => exact hk args hargs

/-- A command that works on its arguments. -/
theorem withArgs_makes {m : M (Option CStr)} {k : List CStr → M (Option CStr)}
    (hm : Makes (Gate W cmd a s) s₁ m)
    (hk : ∀ args, Given cmd n args → Makes (Gate W cmd a s) s₁ (k args)) :
    Makes (Gate W cmd a s) s₁ (getArgs W cmd n >>= fun args => match args with
      | none => m
      | some args => k args) :=
  fetched_makes (makes_of_unguarded getArgs_within) hm fun args hargs =>
    hk args (given_of_getArgs hargs)

/-- **`RUD` and `RLD`** act on the door after both checks. -/
theorem commandDoor_makes {act : M Unit}
    (hact : ∀ s₂, MayUse W cmd 3 a s s₂ → Makes (Gate W cmd a s) s₂ act) :
    Makes (Gate W cmd a s) s (commandDoor W act c cmd a) := by
  refine withArgs_makes free_makes fun args hargs => .bind ?_ fun _ _ _ => reset_makes
  refine .bind verify_makes fun ok s₁ hverify => .ite (fun hok => ?_) fun _ => .pure _
  subst hok
  have hverified : Verified W cmd 3 s s₁ := ⟨args, s, hargs, .refl s, hverify⟩
  refine .bind (canUseLock_makes hverified) fun ok s₂ huse => .ite (fun hok => ?_) fun _ => .pure _
  subst hok
  have hmay : MayUse W cmd 3 a s s₂ := mayUse_of_run hargs (.refl s) hverify huse
  exact .bind (hact s₂ hmay) fun _ _ _ => .pure _

/-- What acts on the door stores its state first. -/
theorem setLockState_makes {v : Int} : Makes (Gate W cmd a s) s₁ (setLockState W v) :=
  makes_of_unguarded (setLockState_within trivial)

theorem setLockState_suffix {v err : Int} (h : (setLockState W v).run s = (.ok err, s')) :
    s.log <:+ s'.log := by
  have hrel : Footprint.all.Rel s s' := (setLockState_within trivial).of_ok h
  exact hrel.log.suffix

theorem commandRUD_makes (hw : word cmd = some (lit "RUD")) :
    Makes (Gate W cmd a s) s (commandRUD W c cmd a) :=
  commandDoor_makes fun s₂ hmay => .bind setLockState_makes fun _ _ h =>
    .observe ⟨hw, s₂, hmay, setLockState_suffix h⟩

theorem commandRLD_makes (hw : word cmd = some (lit "RLD")) :
    Makes (Gate W cmd a s) s (commandRLD W c cmd a) :=
  commandDoor_makes fun s₂ hmay => .bind setLockState_makes fun _ _ h =>
    .observe (.inl ⟨hw, s₂, hmay, setLockState_suffix h⟩)

/-- **`RNI` and `RUI`** ask for an invite after all three checks. -/
theorem checkedInvite_makes {k : Int} {request : InviteRequest} (hk : k = n - 3)
    (hargs : Given cmd n args) (h₀ : Undisturbed s s₀)
    (hgate : ∀ e, MayInvite W cmd n a request s →
      ∀ pre, Gate W cmd a s (.createInvite e request) pre) :
    Makes (Gate W cmd a s) s₀ (checkedInvite W code args k a request) := by
  subst hk
  refine .bind verify_makes fun ok s₁ hverify => .ite (fun hok => ?_) fun _ => .pure _
  subst hok
  have hverified : Verified W cmd n s s₁ := ⟨args, s₀, hargs, h₀, hverify⟩
  refine .bind (canUseLock_makes hverified) fun ok s₂ huse => .ite (fun hok => ?_) fun _ => .pure _
  refine .bind (makes_of_unguarded canCreateInvite_within) fun ok' s₃ hinvite =>
    .ite (fun hok' => ?_) fun _ => .pure _
  subst hok hok'
  have hmay : MayInvite W cmd n a request s :=
    ⟨s₂, s₃, mayUse_of_run hargs h₀ hverify huse, hinvite⟩
  exact makes_of_unguarded (inviteResponse_within fun e => hgate e hmay)

theorem commandRNI_makes (hw : word cmd = some (lit "RNI")) :
    Makes (Gate W cmd a s) s (commandRNI W c cmd a) := by
  refine withArgs_makes free_makes fun args hargs =>
    .bind (makes_of_unguarded argAt_within) fun arg s₁ harg => ?_
  obtain ⟨_, rfl⟩ := argAt_ok.1 harg
  refine .bind (makes_of_unguarded rniRequest_within) fun request s₂ hrequest => ?_
  have h₂ : looking.Rel s₁ s₂ := rniRequest_within.of_ok hrequest
  refine .bind ?_ fun _ _ _ => reset_makes
  exact checkedInvite_makes rfl hargs (undisturbed_of_rel h₂) fun _ hmay _ => .inl ⟨hw, hmay⟩

theorem getRegistrationStatus_returns : Returns (getRegistrationStatus W) s := by
  rw [getRegistrationStatus]
  refine .bind ⟨s, s, rfl⟩ fun s₁ s₂ _ => .ite (fun _ => ?_) fun _ => .pure _
  exact .bind ⟨_, _, rfl⟩ fun _ _ _ => .bind ⟨_, _, rfl⟩ fun _ _ _ => .pure _

theorem getRegistrationStatus_ok {status : Int}
    (h : (getRegistrationStatus W).run s = (.ok status, s')) :
    (s.registrationStatus = status ∧ status ≠ unknownStatus ∧ s' = s) ∨
      (s.registrationStatus = unknownStatus ∧
        status = (if W.statusAnswered s.moment then s.serverStatus else unknownStatus) ∧
        s' = { s.ticked with registrationStatus := status }) := by
  rw [getRegistrationStatus, run_get_bind] at h
  by_cases hs : s.registrationStatus = unknownStatus
  · rw [if_pos hs] at h
    cases h
    exact .inr ⟨hs, rfl, rfl⟩
  · rw [if_neg hs] at h
    cases h
    exact .inl ⟨rfl, hs, rfl⟩

theorem cachedRegistered_of_run (h : (getRegistrationStatus W).run s = (.ok registered, s')) :
    CachedRegistered s := by
  rcases getRegistrationStatus_ok h with ⟨hs, _⟩ | ⟨hs, hserver, _⟩
  · exact .inl hs
  · refine .inr ⟨hs, ?_⟩
    split_ifs at hserver
    · exact hserver.symm
    · exact absurd hserver (by decide)

/-- **`RFI`** asks for an invite where the cached status is `REGISTERED`
and the stamps are accepted. -/
theorem commandRFI_makes (hw : word cmd = some (lit "RFI")) :
    Makes (Gate W cmd a s) s (commandRFI W c cmd) := by
  refine .bind (makes_of_unguarded (getRegistrationStatus_within trivial)) fun status s₁ hstatus =>
    .ite (fun _ => free_makes) fun hreg => ?_
  rw [not_not] at hreg
  subst hreg
  have h₁ : looking.Rel s s₁ := (getRegistrationStatus_within trivial).of_ok hstatus
  refine withArgs_makes free_makes fun args hargs => .bind ?_ fun _ _ _ => free_makes
  refine .bind verify_makes fun ok s₂ hverify => .ite (fun hok => ?_) fun _ => .pure _
  subst hok
  exact makes_of_unguarded (inviteResponse_within fun _ _ => .inr (.inr ⟨hw,
    cachedRegistered_of_run hstatus, s₂, args, s₁, hargs, undisturbed_of_rel h₁, hverify⟩))

theorem commandRUI_makes (hw : word cmd = some (lit "RUI")) :
    Makes (Gate W cmd a s) s (commandRUI W c cmd a) := by
  refine withArgs_makes free_makes fun args hargs =>
    .bind (makes_of_unguarded getUserState_within) fun state s₁ hstate => .ite (fun _ => .pure _)
      fun _ => .bind (makes_of_unguarded getPhoneId_within) fun phone s₂ hphone => ?_
  obtain ⟨_, rfl⟩ := getUserState_ok.1 hstate
  obtain ⟨_, rfl⟩ := getPhoneId_ok.1 hphone
  cases phone with
  | none => exact .pure _
  | some phone =>
    refine .bind (makes_of_unguarded storedAuthorization_within) fun auth s₃ hauth => ?_
    cases auth with
    | none => exact .pure _
    | some auth =>
      refine .bind (makes_of_unguarded argAt_within) fun email s₄ hemail => ?_
      obtain ⟨_, rfl⟩ := argAt_ok.1 hemail
      refine .bind (makes_of_unguarded ruiRequest_within) fun request s₅ hrequest => ?_
      have h₄ : looking.Rel s₂ s₄ := storedAuthorization_within.of_ok hauth
      have h₅ : looking.Rel s₄ s₅ := ruiRequest_within.of_ok hrequest
      refine .bind ?_ fun _ _ _ => reset_makes
      exact checkedInvite_makes rfl hargs (undisturbed_of_rel (h₄.trans h₅))
        fun _ hmay _ => .inr (.inl ⟨hw, hmay⟩)

/-- **`SNT`** sends a notification of an authorized user whose stamps are
accepted. -/
theorem commandSNT_makes (hw : word cmd = some (lit "SNT")) :
    Makes (Gate W cmd a s) s (commandSNT W c cmd a) := by
  refine withArgs_makes free_makes fun args hargs => .bind ?_ fun _ _ _ => free_makes
  refine .bind verify_makes fun ok s₁ hverify => .ite (fun hok => ?_) fun _ => .pure _
  refine .bind (makes_of_unguarded getUserState_within) fun state s₂ hstate =>
    .ite (fun hauth => ?_) fun _ => .pure _
  subst hok hauth
  have hverified : Verified W cmd 4 s s₁ := ⟨args, s, hargs, .refl s, hverify⟩
  refine .bind (makes_of_unguarded argAt_within) fun devid s₃ _ => .bind ?_ fun _ _ _ => .pure _
  exact makes_of_unguarded (sendNotification_within fun _ =>
    ⟨hw, (authorized_of_getUserState hverified hstate).1, s₁, hverified⟩)

/-- What `nvs_get_i32` gives: the error it met, or what is stored. -/
theorem nvsGetLockState_ok {err v : Int} (h : (nvsGetLockState W).run s = (.ok (err, v), s')) :
    s'.lockState = s.lockState ∧
      ((∃ e, W.nvsError s.moment = some e ∧ err = e.code) ∨
        (W.nvsError s.moment = none ∧ s'.log = .lockStateRead s.lockState :: s.log ∧
          ((s.lockState = none ∧ err = espErrNvsNotFound) ∨
            (s.lockState = some v ∧ err = espOk)))) := by
  rw [nvsGetLockState, run_tick_bind] at h
  rcases he : W.nvsError s.moment with _ | e
  · simp only [he, run_get_bind, run_observe_bind] at h
    rcases hl : s.lockState with _ | v'
    · simp only [Sys.ticked, hl] at h
      cases h
      exact ⟨rfl, .inr ⟨rfl, rfl, .inl ⟨rfl, rfl⟩⟩⟩
    · simp only [Sys.ticked, hl] at h
      cases h
      exact ⟨rfl, .inr ⟨rfl, rfl, .inr ⟨rfl, rfl⟩⟩⟩
  · simp only [he] at h
    cases h
    exact ⟨rfl, .inl ⟨e, rfl, rfl⟩⟩

/-- What stores the state of the door, and observes nothing. -/
def doorStoring : Footprint := ⟨fun _ => False, False, False, False, False, True, fun _ => False⟩

/-- `get_lock_state` locks the door where it read that no state is
stored. -/
theorem getLockState_makes {C : Obs → List Obs → Prop}
    (hamb : ∀ o, o.ambient = true → ∀ pre, C o pre)
    (hlock : ∀ pre pre', s₁.log <:+ pre' → .lockStateRead none :: pre' <:+ pre → C .lockLock pre) :
    Makes C s₁ (getLockState W) := by
  have hquiet {α : Type} {m : M α} {t : Sys} (hm : Within doorStoring m) : Makes C t m :=
    .of_within hm fun o ho => hamb o (ho.resolve_right id)
  refine .bind (hquiet initAndOpen_within) fun err s₂ hopen => .ite (fun _ => .pure _) fun _ => ?_
  have h₂ : looking.Rel s₁ s₂ := initAndOpen_within.of_ok hopen
  refine .bind (hquiet nvsGetLockState_within) fun ⟨err', v⟩ s₃ hread => .ite (fun hnot => ?_)
    fun _ => .pure _
  have hnone : s₃.log = .lockStateRead none :: s₂.log := by
    rcases (nvsGetLockState_ok hread).2 with ⟨e, _, rfl⟩ | ⟨_, hlog, ⟨hl, _⟩ | ⟨_, rfl⟩⟩
    · exact absurd hnot e.ne_notFound
    · rw [hlog, hl]
    · exact absurd hnot (by decide)
  refine .bind (.bind (hquiet (setLockState_within trivial)) fun _ s₄ hset => .observe ?_)
    fun _ _ _ => .pure _
  exact hlock _ _ h₂.log.suffix (hnone ▸ setLockState_suffix hset)

theorem commandRDS_makes (hw : word cmd = some (lit "RDS")) :
    Makes (Gate W cmd a s) s (commandRDS W c cmd a) := by
  refine withArgs_makes reset_makes fun args hargs => .bind ?_ fun _ _ _ => reset_makes
  refine .bind verify_makes fun ok s₁ hverify => .ite (fun hok => ?_) fun _ => .pure _
  refine .bind (makes_of_unguarded getUserState_within) fun state s₂ hstate =>
    .ite (fun hauth => ?_) fun _ => .pure _
  subst hok hauth
  have hverified : Verified W cmd 3 s s₁ := ⟨args, s, hargs, .refl s, hverify⟩
  obtain ⟨hauth, rfl⟩ := authorized_of_getUserState hverified hstate
  have h₁ : s.log <:+ s₂.log := by
    have hrel : Footprint.all.Rel s s₂ := (verifyTimestampsAndNonce_within trivial).of_ok hverify
    exact hrel.log.suffix
  refine .bind (getLockState_makes (fun _ h _ => gate_of_ambient h) fun pre pre' hpre hread => ?_)
    fun _ _ _ => makes_of_unguarded sprintf_within
  exact .inr ⟨hw, hauth, ⟨s₂, hverified⟩, pre', h₁.trans hpre, hread⟩

/-- **`SAC`** authorizes after the stamps and the code were accepted. -/
theorem commandSAC_makes (hw : word cmd = some (lit "SAC")) :
    Makes (Gate W cmd a s) s (commandSAC W c cmd a) := by
  refine withArgs_makes free_makes fun args hargs => .bind ?_ fun _ _ _ => free_makes
  refine .bind (makes_of_unguarded argAt_within) fun p s₁ hphone => ?_
  obtain ⟨hp, rfl⟩ := argAt_ok.1 hphone
  refine .bind (makes_of_unguarded argAt_within) fun code s₂ harg => ?_
  obtain ⟨hcode, rfl⟩ := argAt_ok.1 harg
  refine .bind verify_makes fun ok s₃ hverify => .ite (fun hok => ?_) fun _ => .pure _
  refine .bind (makes_of_unguarded getUserSeed_within) fun seed s₄ hseed => ?_
  refine .bind (makes_of_unguarded (checkAuthorizationCode_within trivial fun _ _ => trivial))
    fun ok' s₅ hcheck => .ite (fun hok' => ?_) fun _ => .pure _
  refine .bind (makes_of_unguarded (setUserState_within trivial)) fun _ s₆ _ =>
    .bind (.observe ?_) fun _ _ _ => .pure _
  subst hok hok'
  have hverified : Verified W cmd 5 s₂ s₃ := ⟨args, s₂, hargs, .refl s₂, hverify⟩
  simp only [getUserSeed, bind_ok, derefUser_ok] at hseed
  obtain ⟨x, _, ⟨hx, rfl⟩, hret⟩ := hseed
  cases hret
  rw [hverified.user] at hx
  exact ⟨rfl, hw, hargs.argument hp, hargs.argument hcode, x, _, s₅, hx, hverified, hcheck⟩

/-- **The gate**: whatever a command does, and however it ends, it does
after its checks. -/
theorem checkCommand_makes : Makes (Gate W cmd a s) s (checkCommand W cmd a) := by
  refine .bind (makes_of_unguarded deref_within) fun c s₁ hderef => ?_
  obtain ⟨hc, rfl⟩ := deref_ok.1 hderef
  have hw {w : CStr} (h : c.word = w) : word cmd = some w := by rw [word, hc, ← h]; rfl
  refine .ite (fun h => commandSAC_makes (hw h)) fun _ => ?_
  refine .ite (fun h => commandRUD_makes (hw h)) fun _ => ?_
  refine .ite (fun h => commandRLD_makes (hw h)) fun _ => ?_
  refine .ite (fun h => commandRNI_makes (hw h)) fun _ => ?_
  refine .ite (fun h => commandRFI_makes (hw h)) fun _ => ?_
  refine .ite (fun h => commandRUI_makes (hw h)) fun _ => ?_
  refine .ite (fun h => commandSNT_makes (hw h)) fun _ => ?_
  refine .ite (fun h => commandRDS_makes (hw h)) fun _ => ?_
  exact makes_of_unguarded (.bind (setBLEUserStateToConnecting_within trivial) fun _ => .pure _)

end SmartLock
