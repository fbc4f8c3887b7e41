import SmartLock.Handler.Door
import SmartLock.Handler.Permission
import SmartLock.System.Dispatch
import SmartLock.System.Provenance

/-!
# How the door comes to be open

A command opens the door by right of an authorization that was stored at the
start or that the server granted in the run. At the end of each start
`init_led_lock_state` sets the door as the store tells, with no authorization
consulted: what it opens had been opened before, but for an error of the
flash driver, whose code `get_lock_state` returns as if it were the state.
-/

namespace SmartLock

open Prog

variable {W : World} {a : CStr} {s s' t t' u : Sys} {pre : List Obs} {outcome : Except Fault Unit}

/-! ## By right of what is stored -/

/-- **Whoever may use the door** may by right of what is stored for their
phone. -/
theorem MayUse.judged {cmd : CStr} {n : ℕ} (h : MayUse W cmd n a s t) :
    ∃ p auth k, AuthorizedFor a p s ∧ s.authorizations p = some auth ∧ s.moment ≤ k ∧
      JudgedBy Tested W auth k := by
  obtain ⟨-, u, hverified, huse⟩ := h
  obtain ⟨p, auth, u₁, ⟨⟨x, hx, hstate, hphone⟩, hne⟩, hfound, hjudged⟩ :=
    canUseLock_true_iff.1 (congrArg Prod.fst huse)
  rw [hverified.user] at hx
  have hlooks : looking.Rel (u.noted (.consult p)) u₁ := storedAuthorization_within.of_ok hfound
  have hverifies : s.moment ≤ u.moment := by
    obtain ⟨args, s₀, -, hsame, hrun⟩ := hverified
    have hrel : checking.Rel s₀ u := (verifyTimestampsAndNonce_within trivial).of_ok hrun
    exact hsame.moment.trans hrel.moment
  exact ⟨p, auth, u₁.moment, ⟨⟨x, hx, hstate, hphone⟩, hne⟩, hverified.store.of_some hfound.stored,
    hverifies.trans hlooks.moment, hjudged⟩

/-- At an event that came in the state `s` the door may be opened by right
of this authorization, which was consulted and judged since. -/
structure ByRight (W : World) (S : CStr → Authorization → Prop) (s : Sys) (pre : List Obs)
    (p : CStr) (auth : Authorization) : Prop where
  consulted : ∃ mid, s.log <:+ mid ∧ .consult p :: mid <:+ pre
  stored : S p auth
  judged : ∃ k, s.moment ≤ k ∧ JudgedBy Tested W auth k

/-- What a server does before it decrypts a command. -/
theorem Dispatch.before {data : CStr} {e : Event} (h : Dispatch W s e a data t) :
    Shrinks s t ∧ s.moment ≤ t.moment ∧ s.log <:+ t.log := by
  have hlooks {α : Type} {m : M α} {x : α} {u v : Sys} (hrun : m.run u = (.ok x, v))
      (hm : Within looking m) (hsame : u.authorizations = s.authorizations)
      (hmoment : u.moment = s.moment) (hlog : s.log <:+ u.log) :
      Shrinks s v ∧ s.moment ≤ v.moment ∧ s.log <:+ v.log := by
    have hrel := hm.of_ok hrun
    have hshrinks : Shrinks u v := hrel.store.resolve_left id
    refine ⟨fun p => ?_, hmoment ▸ hrel.moment, hlog.trans hrel.log.suffix⟩
    rw [← hsame]
    exact hshrinks p
  cases h with
  | tcp => exact ⟨.refl _, le_rfl, List.suffix_cons _ _⟩
  | inviteS3 _ hawaits _ =>
    have h := hlooks hawaits (awaitsFirstInviteS3_within trivial) rfl rfl (List.suffix_cons _ _)
    exact ⟨h.1, h.2.1, h.2.2⟩
  | sessionS3 _ hawaits _ =>
    exact hlooks hawaits (awaitsFirstInviteS3_within trivial) rfl rfl (List.suffix_cons _ _)
  | invite _ hstatus _ =>
    have h := hlooks hstatus (getRegistrationStatus_within trivial) rfl rfl (List.suffix_cons _ _)
    exact ⟨h.1, h.2.1, h.2.2⟩
  | session _ hstatus _ _ =>
    exact hlooks hstatus (getRegistrationStatus_within trivial) rfl rfl (List.suffix_cons _ _)

/-- What is stored where a command begins was stored when its event came. -/
theorem Dispatch.stored {data cmd : CStr} {e : Event} {ctx : AESContext}
    (h : Dispatch W s e a data t) (hbegan : Began W a data ctx cmd t s') :
    Shrinks s s' ∧ s.moment ≤ s'.moment ∧ s.log <:+ s'.log := by
  obtain ⟨v, hquiet, rfl⟩ := hbegan.rel
  obtain ⟨hstored, hmoment, hlog⟩ := h.before
  refine ⟨hstored.trans (hquiet.store.resolve_left id), hmoment.trans hquiet.moment, ?_⟩
  exact hlog.trans ((List.suffix_cons _ _).trans
    (hquiet.log.suffix.trans (List.suffix_cons _ _)))

/-- **At every event** the door is opened by right of what is stored. -/
theorem step_byRight (e : Event) :
    Makes (fun o pre => o = .unlockLock → ∃ p auth,
      ByRight W (fun p auth => s.authorizations p = some auth) s pre p auth) s (step W e) := by
  refine step_makes ?_ fun a data t hd x hx => ⟨nofun, fun cmd s₁ hbegan o pre hduring ho => ?_⟩
  · rintro o hcommand _ pre rfl
    cases hcommand
  subst ho
  obtain ⟨-, s₂, hmay, hs₂⟩ := hduring.gate
  obtain ⟨p, auth, k, ⟨⟨x, hx, -, rfl⟩, -⟩, hstored, hk, hjudged⟩ := hmay.judged
  obtain ⟨q, mid, ⟨⟨y, hy, -, rfl⟩, -⟩, hmid, hconsult⟩ := hmay.consult
  obtain rfl : x = y := Option.some.inj (hx.symm.trans hy)
  obtain ⟨hkept, hmoment, hlog⟩ := hd.stored hbegan
  exact ⟨x.phoneId, auth, ⟨mid, hlog.trans hmid, hconsult.trans hs₂⟩, hkept.of_some hstored, k,
    hmoment.trans hk, hjudged⟩

/-! ## What the store tells of the door -/

/-- That the door is open the store tells only if it told so before, or if
`unlock_lock` was called. -/
def tracing : Frame Sys where
  rel s t := s.log <:+ t.log ∧ (t.lockState = some unlocked →
    s.lockState = some unlocked ∨ ∃ pre, Made s t .unlockLock pre)
  refl s := ⟨List.suffix_refl _, .inl⟩
  trans {s t u} h₁ h₂ := by
    refine ⟨h₁.1.trans h₂.1, fun hu => ?_⟩
    rcases h₂.2 hu with ht | ⟨pre, hmade⟩
    · rcases h₁.2 ht with hs | ⟨pre, hmade⟩
      · exact .inl hs
      · exact .inr ⟨pre, hmade.mono_right h₂.1⟩
    · exact .inr ⟨pre, hmade.mono_left h₁.1⟩

/-- A door that stands is not opened. -/
theorem Stands.of_unlocked (h : Stands s t) (ht : t.lockState = some unlocked) :
    s.lockState = some unlocked := by
  rcases h with hsame | ⟨-, hnone⟩
  · exact hsame ▸ ht
  · rw [hnone] at ht
    cases ht

theorem tracing_of_rel {F : Footprint} (hF : ¬ F.door) (h : F.Rel s t) : tracing.rel s t :=
  ⟨h.log.suffix, fun ht => .inl ((h.door.resolve_left hF).of_unlocked ht)⟩

theorem lockLock_tracing : Steps tracing (lockLock W) := by
  refine .bind (setLockState_steps.mono fun s t h => ⟨h.1, fun ht => ?_⟩) fun _ =>
    .modify fun s => ⟨List.suffix_cons _ _, .inl⟩
  rcases h.2 with hlocked | hstands
  · rw [hlocked] at ht
    cases ht
  · exact .inl (hstands.of_unlocked ht)

/-- `unlock_lock` faults before it stores anything. -/
theorem unlockLock_tracing : Steps tracing (unlockLock W) := by
  intro s
  rcases hrun : (setLockState W unlocked).run s with ⟨e | err, t⟩
  · rw [unlockLock, run_bind_error hrun]
    have hopened : indoors.Rel s t := Frame.of_run (initAndOpen_within s) (setLockState_error hrun)
    exact tracing_of_rel id hopened
  · rw [unlockLock, run_bind_ok hrun]
    have hlog : s.log <:+ t.log := (setLockState_steps.of_ok hrun).1
    exact ⟨hlog.trans (List.suffix_cons _ _), fun _ => .inr ⟨t.log, hlog, List.suffix_refl _⟩⟩

/-- **The store tells of an open door what was done.** -/
theorem tracing_pieces : Pieces W anyEnd fun (α : Type) (m : M α) => Steps tracing m :=
  .of_indoors (Steps.hereditary _) (fun hF hm => hm.mono fun _ _ => tracing_of_rel hF)
    (fun hf => .modify fun s => ⟨by rw [hf.log s], fun ht => .inl ((hf.lockState s).symm.trans ht)⟩)
    fun hact => by
      rcases hact with rfl | rfl
      · exact lockLock_tracing
      · exact unlockLock_tracing

theorem restart_tracing : Steps tracing (Prog.modify Sys.restarted : M Unit) :=
  .modify fun _ => ⟨List.suffix_refl _, .inl⟩

/-! ## What a start makes of it -/

variable (W) in
/-- A call of the flash driver failed between the two. -/
def FailedBetween (s t : Sys) : Prop := ∃ m, s.moment ≤ m ∧ m < t.moment ∧ W.nvsError m ≠ none

theorem FailedBetween.mono (h : FailedBetween W s t) (htu : t.moment ≤ u.moment) :
    FailedBetween W s u := by
  obtain ⟨m, hle, hlt, herror⟩ := h
  exact ⟨m, hle, hlt.trans_le htu, herror⟩

theorem espErrorCheck_ok {err : Int} (h : (espErrorCheck err).run s = (.ok (), s')) :
    err = espOk := by
  by_contra hne
  rw [espErrorCheck, if_neg hne] at h
  cases h

/-- `init_nvs` returns no error. -/
theorem initNvs_espOk {err : Int} (h : (initNvs W).run s = (.ok err, s')) : err = espOk := by
  obtain ⟨err₁, s₁, -, h⟩ := bind_ok.1 h
  split at h
  · obtain ⟨_, _, -, h⟩ := bind_ok.1 h
    obtain ⟨_, _, -, h⟩ := bind_ok.1 h
    obtain ⟨err₂, _, -, h⟩ := bind_ok.1 h
    obtain ⟨_, _, hcheck, h⟩ := bind_ok.1 h
    cases h
    exact espErrorCheck_ok hcheck
  · obtain ⟨_, _, hcheck, h⟩ := bind_ok.1 h
    cases h
    exact espErrorCheck_ok hcheck

/-- What opening the store returns is an error of the driver. -/
theorem initAndOpen_failed {err : Int} (h : (initAndOpen W).run s = (.ok err, s'))
    (herr : err ≠ espOk) : FailedBetween W s s' := by
  obtain ⟨err₁, s₁, hinit, h⟩ := bind_ok.1 h
  have hinits : Footprint.all.Rel s s₁ := initNvs_within.of_ok hinit
  obtain rfl := initNvs_espOk hinit
  rw [if_neg (by decide), openNvs, nvsCall, run_tick_bind] at h
  rcases he : W.nvsError s₁.moment with _ | e
  · rw [he] at h
    cases h
    exact absurd rfl herr
  · rw [he] at h
    cases h
    exact ⟨s₁.moment, hinits.moment, Nat.lt_succ_self _, by rw [he]; exact Option.some_ne_none e⟩

/-- **`get_lock_state` tells of an open door** what is stored, or an error
of the driver. -/
theorem getLockState_unlocked (h : (getLockState W).run s = (.ok unlocked, s')) :
    s.lockState = some unlocked ∨ FailedBetween W s s' := by
  obtain ⟨err, s₁, hopen, h⟩ := bind_ok.1 h
  have hopens : indoors.Rel s s₁ := initAndOpen_within.of_ok hopen
  by_cases herr : err = espOk
  · subst herr
    rw [if_neg (by decide)] at h
    obtain ⟨⟨err, v⟩, s₂, hread, h⟩ := bind_ok.1 h
    dsimp only at h
    obtain ⟨-, ⟨e, he, rfl⟩ | ⟨-, -, ⟨-, rfl⟩ | ⟨hstored, rfl⟩⟩⟩ := nvsGetLockState_ok hread
    -- the read failed, and returns what the stack held
    · rw [if_neg e.ne_notFound] at h
      cases h
      rw [nvsGetLockState, run_tick_bind, he] at hread
      obtain rfl : s₁.ticked = s' := (Prod.mk.inj hread).2
      exact .inr ⟨s₁.moment, hopens.moment, Nat.lt_succ_self _,
        by rw [he]; exact Option.some_ne_none e⟩
    · rw [if_pos rfl] at h
      obtain ⟨_, _, -, h⟩ := bind_ok.1 h
      cases h
    · rw [if_neg (by decide)] at h
      cases h
      exact .inl ((hopens.door.resolve_left id).of_unlocked hstored)
  · rw [if_pos herr] at h
    cases h
    exact .inr (initAndOpen_failed hopen herr)

/-- What makes no `unlock_lock`. -/
def shut : Frame Sys := ⟨Grows fun o => o ≠ .unlockLock, Grows.refl _, Grows.trans⟩

theorem shut_of_rel {F : Footprint} (hF : ¬ F.obs .unlockLock) (h : F.Rel s t) : shut.rel s t := by
  refine h.log.mono fun o ho => ?_
  rintro rfl
  exact ho.elim nofun hF

theorem not_made_of_shut (h : shut.rel s t) : ¬ Made s t .unlockLock pre :=
  fun hmade => h.of_made hmade rfl

/-- What only locks. -/
def locking : Footprint :=
  ⟨fun _ => True, True, True, True, True, True, fun o => o ≠ .unlockLock⟩

theorem shut_of_locking {α : Type} {m : M α} (hm : Within locking m) : Steps shut m :=
  hm.mono fun _ _ => shut_of_rel fun h => h rfl

/-- **`init_led_lock_state` opens the door** where the store tells that it
is open, or the driver failed. -/
theorem initLedLockState_opens (hrun : (initLedLockState W).run s = (outcome, s'))
    (hmade : Made s s' .unlockLock pre) : s.lockState = some unlocked ∨ FailedBetween W s s' := by
  have hget : Steps shut (getLockState W) :=
    shut_of_locking (getLockState_within trivial Obs.noConfusion)
  rcases hv : (getLockState W).run s with ⟨e | v, s₁⟩
  · rw [initLedLockState, run_bind_error hv] at hrun
    cases hrun
    exact absurd hmade (not_made_of_shut (Frame.of_run (hget s) hv))
  · rw [initLedLockState, run_bind_ok hv] at hrun
    by_cases hunlocked : v = unlocked
    · subst hunlocked
      have hrest : Footprint.all.Rel s₁ s' := Frame.of_run (Steps.ite
        (fun _ => lockLock_within trivial trivial) (fun _ => .ite
          (fun _ => unlockLock_within trivial trivial) fun _ => .pure _) s₁) hrun
      exact (getLockState_unlocked hv).imp id fun h => h.mono hrest.moment
    · have hrest : shut.rel s₁ s' := Frame.of_run (Steps.ite
        (fun _ => shut_of_locking (lockLock_within trivial Obs.noConfusion)) (fun _ => .ite
          (fun h => absurd h hunlocked) fun _ => .pure _) s₁) hrun
      exact absurd hmade (not_made_of_shut (shut.trans (hget.of_ok hv) hrest))

/-! ## The program -/

/-- What the program does besides opens no door. -/
theorem mainStep_shut {e : MainEvent} (hserver : ∀ e', e ≠ .server e')
    (hstart : e ≠ .initLedLockState) : Steps shut (mainStep W e) := by
  have hquiet {f : Sys → Sys} (hlog : ∀ s, (f s).log = s.log) :
      Steps shut (Prog.modify f : M Unit) := .modify fun s => .of_log _ (hlog s)
  refine .bind .get fun s => .ite (fun _ => ?_) fun _ => .pure _
  cases e with
  | server e' => exact absurd rfl (hserver e')
  | online =>
    exact .bind (hquiet fun _ => rfl) fun _ => .bind .get fun _ =>
      .bind (shut_of_locking faultIf_within) fun _ =>
        shut_of_locking (sendDataBleS3_within fun _ => Obs.noConfusion)
  | initLedLockState => exact absurd rfl hstart
  | startTimer =>
    exact .bind (shut_of_locking (getRegistrationStatus_within trivial)) fun _ => .ite
      (fun _ => hquiet fun _ => rfl) fun _ => .pure _
  | deepSleep =>
    exact .bind (hquiet fun _ => rfl) fun _ => .bind (shut_of_locking nvsInit_within) fun _ =>
      .bind (shut_of_locking espErrorCheck_within) fun _ => .ite
        (fun _ => shut_of_locking (setUserState_within trivial)) fun _ => .pure _

/-- **How the door comes to be open**, in any run of the program and at any
event, whatever its outcome: by a command, by right of an authorization that
was consulted, that was stored at the start or that the server granted in
the run before, and that is judged to give the right; or at the end of a
start, where the store told that it was open, and it did so at the start of
the run or the door was opened in the run, or where the driver fails. -/
theorem unlocked_byRight {es : List MainEvent} {e : MainEvent}
    (hrun : (mainRun W es).run s = (.ok (), t)) (hstep : (mainStep W e).run t = (outcome, t'))
    (hmade : Made t t' .unlockLock pre) :
    (∃ e', e = .server e' ∧ ∃ p auth, ByRight W (fun p auth => s.authorizations p = some auth ∨
      ∃ k, s.moment ≤ k ∧ k < t.moment ∧ Granted W k p auth) t pre p auth) ∨
    (e = .initLedLockState ∧ ((t.lockState = some unlocked ∧
      (s.lockState = some unlocked ∨ ∃ pre', Made s t .unlockLock pre')) ∨
        FailedBetween W t t')) := by
  have hother (hserver : ∀ e', e ≠ .server e') (hstart : e ≠ .initLedLockState) :
      ¬ Made t t' .unlockLock pre :=
    not_made_of_shut (Frame.of_run (mainStep_shut hserver hstart t) hstep)
  cases e with
  | server e' =>
    have hgranting : (granting W).rel s t :=
      (Frame.of_run (returning_pieces.mainRun restart_returning es s) hrun).1
    obtain ⟨p, auth, hconsulted, hstored, hjudged⟩ :=
      (step_byRight e').of_run (hstep : (step W e').run t = _) hmade rfl
    exact .inl ⟨e', rfl, p, auth, hconsulted, hgranting.2 p auth hstored, hjudged⟩
  | initLedLockState =>
    have htraced : tracing.rel s t :=
      Frame.of_run (tracing_pieces.mainRun restart_tracing es s) hrun
    have hopens : (initLedLockState W).run t = (outcome, t') := hstep
    refine .inr ⟨rfl, (initLedLockState_opens hopens hmade).imp (fun hopen => ?_) id⟩
    exact ⟨hopen, htraced.2 hopen⟩
  | online | startTimer | deepSleep =>
    exact absurd hmade (hother (fun _ => MainEvent.noConfusion) MainEvent.noConfusion)

/-! ## Runs on a fixed input -/

/-- The last event makes `unlock_lock`. -/
theorem exists_unlockLock {es : List MainEvent} {e : MainEvent} {k : ℕ}
    (hrun : ((mainRun W (es ++ [e])).run s).1 = .ok ())
    (hbefore : ((mainRun W es).run s).2.log <:+
      ((mainRun W (es ++ [e])).run s).2.log.drop (k + 1))
    (hmade : ((mainRun W (es ++ [e])).run s).2.log[k]? = some .unlockLock) :
    ∃ t t' pre, (mainRun W es).run s = (.ok (), t) ∧ (mainStep W e).run t = (.ok (), t') ∧
      Made t t' .unlockLock pre := by
  obtain ⟨t, t', pre, hfirst, hstep, hmade, -⟩ :=
    exists_last_event (Q := fun _ => True) hrun hbefore hmade trivial
  exact ⟨t, t', pre, hfirst, hstep, hmade⟩

/-- The administrator opens the door by right of what the server granted,
and the next start opens it again as it was left. -/
theorem unlocked_byRight_administered :
    (∃ t t' pre, (mainRun World.administered (administering.take 6)).run Sys.initial = (.ok (), t) ∧
      (mainStep World.administered (.server (.tcpRecv (sealedText (lit "RUD 90 200 8"))))).run t =
        (.ok (), t') ∧ Made t t' .unlockLock pre ∧
      ∃ p auth, ByRight World.administered (fun p auth => Sys.initial.authorizations p = some auth ∨
        ∃ k, Sys.initial.moment ≤ k ∧ k < t.moment ∧ Granted World.administered k p auth)
          t pre p auth) ∧
    ∃ t t' pre, (mainRun World.administered administering.dropLast).run Sys.initial = (.ok (), t) ∧
      (mainStep World.administered .initLedLockState).run t = (.ok (), t') ∧
        Made t t' .unlockLock pre ∧ ∃ pre', Made Sys.initial t .unlockLock pre' := by
  have hopened : ∃ t t' pre,
      (mainRun World.administered (administering.take 6)).run Sys.initial = (.ok (), t) ∧
        (mainStep World.administered (.server (.tcpRecv (sealedText (lit "RUD 90 200 8"))))).run t =
          (.ok (), t') ∧ Made t t' .unlockLock pre :=
    exists_unlockLock (k := 2) (by decide +kernel) (by decide +kernel) (by decide +kernel)
  have hrestored : ∃ t t' pre,
      (mainRun World.administered administering.dropLast).run Sys.initial = (.ok (), t) ∧
        (mainStep World.administered .initLedLockState).run t = (.ok (), t') ∧
          Made t t' .unlockLock pre :=
    exists_unlockLock (k := 0) (by decide +kernel) (by decide +kernel) (by decide +kernel)
  constructor
  · obtain ⟨t, t', pre, hrun, hstep, hmade⟩ := hopened
    refine ⟨t, t', pre, hrun, hstep, hmade, ?_⟩
    rcases unlocked_byRight hrun hstep hmade with ⟨_, -, hright⟩ | ⟨hstart, -⟩
    · exact hright
    · cases hstart
  · obtain ⟨t, t', pre, hrun, hstep, hmade⟩ := hrestored
    refine ⟨t, t', pre, hrun, hstep, hmade, ?_⟩
    rcases unlocked_byRight hrun hstep hmade with
      ⟨_, hserver, -⟩ | ⟨-, ⟨-, hstored | hmade'⟩ | ⟨_, -, -, hfailed⟩⟩
    · cases hserver
    · cases hstored
    · exact hmade'
    · exact absurd rfl hfailed

end SmartLock
