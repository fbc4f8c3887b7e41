import SmartLock.Handler.Delegation
import SmartLock.Nonce.Replay
import SmartLock.System.Wiring

/-!
# Which messages are answered

A message is answered unless it ends the program or is answered by a null
pointer, which ends it as soon as the reply is built. Exactly which
messages these are is worked out here, of a user who has a record, with
the flash driver and the server answering normally: `Answerable` lists for
each command what its message and the state have to be like.
-/

namespace SmartLock

open Prog

variable {W : World} {a cmd p code : CStr} {c : Tok} {s s₁ s' : Sys} {n : ℕ} {args : List CStr}
variable {α : Type}

/-! ## The outside -/

/-- The answer of the server for the phone `p` is whole. -/
structure AuthData.Complete (W : World) (p : CStr) (d : AuthData) : Prop where
  asked : p.length < 16
  phone : ∃ phone, d.phoneId = some phone ∧ phone.length < 16
  masterKey : ∃ enc block text key, d.masterKeyEncryptedLock = some enc ∧
    base64Decode enc = some block ∧ block.length = keySizeBytesRSA ∧
    W.rsaDecrypt block = some text ∧ base64Decode (cstr text) = some key ∧ key.length ≤ 32
  weekdays : ∀ day ∈ d.weekdays, 1 ≤ day ∧ day ≤ 7

/-- The flash driver and the server answer normally: no call of the driver
fails, the registration status is told, every invite is registered, and
whom the server knows it knows in full. -/
structure Answering (W : World) : Prop where
  nvs : ∀ t, W.nvsError t = none
  status : ∀ t, W.statusAnswered t = true
  invite : ∀ t json, ∃ d inviteId, W.inviteReply t json = .body d ∧ d.success = true ∧
    d.inviteID = some inviteId
  auth : ∀ t p d, W.authReply t p = .body d → d.success = true → d.Complete W p

/-! ## The flash store -/

/-- A driver that never fails does what it is called for. -/
theorem nvsCall_run (hW : ∀ t, W.nvsError t = none) (f : Sys → Sys) :
    (nvsCall W f).run s = (.ok espOk, f s.ticked) := by
  rw [nvsCall, run_tick_bind, hW]
  rfl

/-- The store is opened without an erasure. -/
theorem initAndOpen_run (hW : ∀ t, W.nvsError t = none) :
    ∃ s₁, (initAndOpen W).run s = (.ok espOk, s₁) ∧ s₁.authorizations = s.authorizations := by
  have hinit : (initNvs W).run s = (.ok espOk, s.ticked) := by
    rw [initNvs, run_bind_ok (nvsCall_run hW id), if_neg (by decide)]
    rfl
  rw [initAndOpen, run_bind_ok hinit, if_neg (by decide), openNvs, nvsCall_run hW]
  exact ⟨_, rfl, rfl⟩

theorem initAndOpen_returns (hW : Answering W) : Returns (initAndOpen W) s := by
  obtain ⟨s₁, hopen, _⟩ := initAndOpen_run (s := s) hW.nvs
  exact ⟨_, s₁, hopen⟩

/-- What the store gives for a phone: keys of more than fifteen bytes it
does not take. -/
def stored (p : CStr) (s : Sys) : Option Authorization :=
  if nvsKeyMax < p.length then none else s.authorizations p

/-- What is read under a key that the store accepts is what it holds. -/
theorem nvsGetBlob_run (hW : Answering W) : ∃ err, (nvsGetBlob W p).run s =
    (.ok (err, stored p s), s.ticked) ∧ (err = espOk ↔ (stored p s).isSome) := by
  rw [nvsGetBlob, run_tick_bind, hW.nvs]
  simp only [run_get_bind]
  by_cases hlen : nvsKeyMax < p.length
  · rw [if_pos hlen, stored, if_pos hlen]
    exact ⟨_, rfl, by decide⟩
  · rw [if_neg hlen, stored, if_neg hlen]
    rcases hauth : s.authorizations p with _ | auth
    · simp only [Sys.ticked, hauth]
      exact ⟨_, rfl, by decide⟩
    · simp only [Sys.ticked, hauth]
      exact ⟨_, rfl, by simp⟩

/-- **`get_authorization` succeeds exactly if there is something stored**,
and otherwise leaves its block to the caller. -/
theorem getAuthorization_run (hW : Answering W) (auth₀ : Authorization) :
    ∃ err auth s', (getAuthorization W p auth₀).run s = (.ok (err, some auth), s') ∧
      ((err = espOk ∧ stored p s = some auth) ∨ (err ≠ espOk ∧ stored p s = none)) := by
  obtain ⟨s₁, hopen, hauths⟩ := initAndOpen_run (s := s) hW.nvs
  obtain ⟨err, hblob, herr⟩ := nvsGetBlob_run (p := p) (s := s₁) hW
  obtain ⟨err', hblob', herr'⟩ := nvsGetBlob_run (p := p) (s := s₁.ticked) hW
  have hsame : stored p s₁ = stored p s := by rw [stored, stored, hauths]
  have hsame' : stored p s₁.ticked = stored p s := hsame
  rw [hsame] at hblob herr
  rw [hsame'] at hblob' herr'
  rw [getAuthorization, run_bind_ok hopen, if_neg (by decide), run_bind_ok hblob]
  dsimp only
  -- nothing stored: either test of the first read returns its error, and the block is not written
  rcases hst : stored p s with _ | auth
  · rw [hst] at herr
    have herr : err ≠ espOk := fun h => absurd (herr.1 h) (by decide)
    refine ⟨err, auth₀, s₁.ticked, ?_, .inr ⟨herr, rfl⟩⟩
    by_cases hfound : err ≠ espErrNvsNotFound
    · rw [if_pos ⟨herr, hfound⟩]
      rfl
    · rw [if_neg fun h => hfound h.2, if_pos rfl]
      rfl
  · rw [hst] at herr herr' hblob'
    obtain rfl := herr.2 rfl
    obtain rfl := herr'.2 rfl
    rw [if_neg (by decide), if_neg (Option.some_ne_none auth), run_bind_ok hblob']
    exact ⟨_, auth, _, rfl, .inl ⟨rfl, rfl⟩⟩

/-- What is looked up is what is stored, or nothing. -/
theorem storedAuthorization_run (hW : Answering W) :
    ∃ s', (storedAuthorization W p).run s = (.ok (stored p s), s') := by
  obtain ⟨err, auth, s', hrun, hcases⟩ :=
    getAuthorization_run (p := p) (s := s.ticked) hW (W.freshAuthorization s.moment)
  have hsame : stored p s.ticked = stored p s := rfl
  rw [storedAuthorization, run_tick_bind, run_bind_ok hrun]
  dsimp only
  rcases hcases with ⟨rfl, hst⟩ | ⟨herr, hst⟩
  · rw [← hsame, hst]
    exact ⟨s', rfl⟩
  · rw [← hsame, hst, if_pos herr]
    exact ⟨s', rfl⟩

theorem setLockState_returns (hW : Answering W) (v : Int) : Returns (setLockState W v) s := by
  rw [setLockState, nvsStore]
  refine .bind (initAndOpen_returns hW) fun err s₁ _ => .ite (fun _ => .pure _) fun _ => ?_
  refine .bind ⟨_, _, nvsCall_run hW.nvs _⟩ fun err s₂ _ => .ite (fun _ => .pure _) fun _ => ?_
  refine .bind ⟨_, _, nvsCall_run hW.nvs _⟩ fun err s₃ _ => .ite (fun _ => .pure _) fun _ => ?_
  exact ⟨_, _, rfl⟩

theorem lockLock_returns (hW : Answering W) : Returns (lockLock W) s :=
  .bind (setLockState_returns hW _) fun _ _ _ => ⟨_, _, rfl⟩

theorem unlockLock_returns (hW : Answering W) : Returns (unlockLock W) s :=
  .bind (setLockState_returns hW _) fun _ _ _ => ⟨_, _, rfl⟩

theorem sprintf_returns {text : CStr} : Returns (sprintf n text) s :=
  .bind (.ite (fun _ => ⟨_, _, rfl⟩) fun _ => .pure _) fun _ _ _ => .pure _

/-- The state of the door is returned, also where none is stored. -/
theorem getLockState_returns (hW : Answering W) : Returns (getLockState W) s := by
  refine .bind (initAndOpen_returns hW) fun err s₁ _ => .ite (fun _ => .pure _) fun _ => ?_
  have hread : Returns (nvsGetLockState W) s₁ := by
    rw [nvsGetLockState]
    refine .bind ⟨_, _, rfl⟩ fun t s₂ _ => ?_
    rw [hW.nvs]
    refine .bind ⟨_, _, rfl⟩ fun s₃ s₄ _ => .bind ⟨_, _, rfl⟩ fun _ s₅ _ => ?_
    cases s₃.lockState <;> exact .pure _
  exact .bind hread fun _ _ _ => .ite (fun _ => .bind (lockLock_returns hW) fun _ _ _ => .pure _)
    fun _ => .pure _

/-! ## The checks -/

/-- A record that is there is there after whatever is done. -/
theorem isSome_of_run {m : M α} {x : α} (hm : Within Footprint.all m)
    (h : m.run s = (.ok x, s')) (hx : (s.user a).isSome) : (s'.user a).isSome :=
  have hrel : Footprint.all.Rel s s' := hm.of_ok h
  hrel.kept a hx

/-- A token in range can be read. -/
theorem exists_argument {i : Int} (h₀ : 0 ≤ i) (hlt : i < args.length) :
    ∃ arg, argument args i = some arg := by
  rw [argument, if_neg (by omega)]
  exact ⟨_, List.getElem?_eq_getElem (by omega)⟩

theorem argAt_returns {i : Int} (h₀ : 0 ≤ i) (hlt : i < args.length) :
    Returns (argAt args i) s := by
  obtain ⟨arg, harg⟩ := exists_argument h₀ hlt
  exact ⟨arg, s, argAt_ok.2 ⟨harg, rfl⟩⟩

/-- The numbers are read where three tokens are. -/
theorem verify_returns {k : Int} (h₀ : 0 ≤ k) (hlt : k + 2 < args.length) :
    Returns (verifyTimestampsAndNonce W args k) s := by
  have harg (i : Int) (hi : 0 ≤ i) (hle : i ≤ k + 2) : ∃ arg, argument args i = some arg :=
    exists_argument hi (by omega)
  obtain ⟨a₁, h₁⟩ := harg (k + 0) (by omega) (by omega)
  obtain ⟨a₂, h₂⟩ := harg (k + 1) (by omega) (by omega)
  obtain ⟨a₃, h₃⟩ := harg (k + 2) (by omega) (by omega)
  rw [Returns, verifyTimestampsAndNonce_run h₁ h₂ h₃]
  by_cases hwin : strtol a₁ ≤ W.clock s.moment ∧ W.clock s.moment ≤ strtol a₂
  · rw [acceptMessage_of_window hwin rfl]
    exact ⟨_, _, rfl⟩
  · rw [acceptMessage_of_not_window hwin]
    exact ⟨_, _, rfl⟩

/-- A user with a record is found. -/
theorem derefUser_returns (hx : (s.user a).isSome) : Returns (derefUser a) s := by
  obtain ⟨x, hx⟩ := Option.isSome_iff_exists.1 hx
  exact ⟨x, s, derefUser_ok.2 ⟨hx, rfl⟩⟩

theorem getUserState_returns (hx : (s.user a).isSome) : Returns (getUserState a) s :=
  .bind (derefUser_returns hx) fun _ _ _ => .pure _

theorem getPhoneId_returns (hx : (s.user a).isSome) : Returns (getPhoneId a) s :=
  .bind (derefUser_returns hx) fun _ _ _ => .pure _

theorem storedAuthorization_returns (hW : Answering W) : Returns (storedAuthorization W p) s := by
  obtain ⟨s', hrun⟩ := storedAuthorization_run (p := p) (s := s) hW
  exact ⟨_, s', hrun⟩

/-- Every type of user is judged, unknown ones too. -/
theorem usePermitted_returns {auth : Authorization} : Returns (usePermitted W auth) s := by
  have htenant {s : Sys} : Returns (tenantPermitted W auth) s :=
    .bind ⟨_, _, rfl⟩ fun _ _ _ => .ite (fun _ => .pure _) fun _ =>
      .ite (fun _ => .pure _) fun _ => .pure _
  rw [usePermitted]
  split
  · exact .pure _
  · exact .pure _
  · exact .bind ⟨_, _, rfl⟩ fun _ _ _ => .ite (fun _ => .pure _) fun _ => htenant
  · exact htenant
  · exact .bind ⟨_, _, rfl⟩ fun _ _ _ => .pure _
  · exact .pure _

/-- `canUseLock` returns for a user with a record. -/
theorem canUseLock_returns (hW : Answering W) (hx : (s.user a).isSome) :
    Returns (canUseLock W a) s := by
  refine .bind (getUserState_returns hx) fun state s₁ hstate => .ite (fun _ => .pure _) fun _ => ?_
  have hx₁ := isSome_of_run getUserState_within hstate hx
  refine .bind (getPhoneId_returns hx₁) fun phone s₂ _ => ?_
  cases phone with
  | none => exact .pure _
  | some phone =>
    refine .bind ⟨_, _, rfl⟩ fun _ s₃ _ => .bind (storedAuthorization_returns hW) fun auth s₄ _ => ?_
    cases auth with
    | none => exact .pure _
    | some auth => exact usePermitted_returns

/-- So does `canCreateInvite`. -/
theorem canCreateInvite_returns {t : UserType} {vf vu od : Int} (hW : Answering W)
    (hx : (s.user a).isSome) : Returns (canCreateInvite W a t vf vu od) s := by
  refine .bind (getUserState_returns hx) fun state s₁ hstate => .ite (fun _ => .pure _) fun _ => ?_
  have hx₁ := isSome_of_run getUserState_within hstate hx
  refine .bind (getPhoneId_returns hx₁) fun phone s₂ _ => ?_
  cases phone with
  | none => exact .pure _
  | some phone =>
    refine .bind (storedAuthorization_returns hW) fun auth s₃ _ => ?_
    cases auth with
    | none => exact .pure _
    | some auth => exact .ite (fun _ => .pure _) fun _ => .pure _

/-- **The reset never faults**: it writes to a record it has found. -/
theorem reset_returns : Returns (setBLEUserStateToConnecting W) s := by
  rw [setBLEUserStateToConnecting]
  refine .bind ⟨s, s, rfl⟩ fun s₁ s₂ hget => ?_
  cases hget
  refine .ite (fun hc => ?_) fun _ => .pure _
  obtain ⟨x, hx⟩ := Option.ne_none_iff_exists'.1 hc.2
  obtain ⟨s', hrun⟩ := setUserState_returns_of_some (W := W) hx .connecting [] (by decide : 0 < 16)
  exact ⟨_, s', hrun⟩

/-! ## The words of a message -/

/-- The message has the `n` arguments of its command, or none at all. -/
def Enough (cmd : CStr) (n : ℕ) : Prop := arguments cmd = [] ∨ n ≤ (arguments cmd).length

/-- A command word is freed where its block begins. -/
theorem free_returns {x : α} (hoff : c.off = 0) : Returns (do freeCommand c; return x : M α) s :=
  ⟨x, s, bind_ok.2 ⟨(), s, freeCommand_ok.2 ⟨hoff, rfl⟩, rfl⟩⟩

/-- Behind its effect a command frees its word and resets the BLE
session. -/
theorem finish_returns {x : α} (hoff : c.off = 0) :
    Returns (do freeCommand c; setBLEUserStateToConnecting W; return x : M α) s :=
  .bind ⟨(), s, freeCommand_ok.2 ⟨hoff, rfl⟩⟩ fun _ _ _ => .bind reset_returns fun _ _ _ => .pure _

/-- Too few tokens are not gone back over where there are enough, or none.
-/
theorem getArgs_returns (h : Enough cmd n) : Returns (getArgs W cmd n) s := by
  rw [getArgs]
  refine .ite (fun hlen => ?_) fun _ => .pure _
  rw [List.length_take] at hlen
  have hnil : arguments cmd = [] := h.resolve_right (by omega)
  exact ⟨none, s, bind_ok.2 ⟨(), s, faultIf_ok.2 ⟨by simp [hnil], rfl⟩, rfl⟩⟩

/-- A command goes on with the tokens it asked for, or with none at all. -/
theorem withArgs_returns {m : M (Option CStr)} {k : List CStr → M (Option CStr)}
    (h : Enough cmd n) (hm : Returns m s)
    (hk : ∀ args, args.length = n → Returns (k args) s) :
    Returns (getArgs W cmd n >>= fun args => match args with
      | none => m
      | some args => k args) s := by
  refine .bind (getArgs_returns h) fun args s₁ hargs => ?_
  obtain ⟨rfl, ⟨rfl, _⟩ | ⟨l, rfl, hl⟩⟩ := getArgs_ok hargs
  · exact hm
  · exact hk l hl.length

/-! ## The commands -/

/-- A door command is acknowledged or refused. -/
theorem doorAck_returns {act : M Unit} (hW : Answering W) (hx : (s.user a).isSome)
    (hargs : args.length = 3) (hact : ∀ s, Returns act s) : Returns (doorAck W act args a) s := by
  refine .bind (verify_returns (by omega) (by omega)) fun ok s₁ hverify => .ite (fun _ => ?_)
    fun _ => .pure _
  have hx₁ := isSome_of_run (verifyTimestampsAndNonce_within trivial) hverify hx
  refine .bind (canUseLock_returns hW hx₁) fun ok s₂ _ => .ite (fun _ => ?_) fun _ => .pure _
  exact .bind (hact s₂) fun _ _ _ => .pure _

/-- `RUD` and `RLD` return, whatever the door does that returns. -/
theorem commandDoor_returns {act : M Unit} (hW : Answering W) (hx : (s.user a).isSome)
    (hoff : c.off = 0) (h : Enough cmd 3) (hact : ∀ s, Returns act s) :
    Returns (commandDoor W act c cmd a) s :=
  withArgs_returns h (free_returns hoff) fun _ hargs =>
    .bind (doorAck_returns hW hx hargs hact) fun _ _ _ => finish_returns hoff

/-- The server answers with an invite. -/
theorem inviteResponse_returns {request : InviteRequest} (hW : Answering W) :
    Returns (inviteResponse W code request) s := by
  refine .bind ⟨_, _, rfl⟩ fun e s₁ _ => ?_
  have hinvite : ∃ inviteId s₂, (createInvite W e request).run s₁ = (.ok (some inviteId), s₂) := by
    obtain ⟨d, inviteId, hd, hsuccess, hid⟩ := hW.invite s₁.moment (inviteJson W e request)
    rw [createInvite, run_observe_bind, run_tick_bind]
    simp only [Sys.noted, hd, hsuccess, hid]
    exact ⟨inviteId, _, rfl⟩
  obtain ⟨inviteId, s₂, hrun⟩ := hinvite
  refine .bind ⟨_, s₂, hrun⟩ fun inviteId' s₃ hrun' => ?_
  rw [hrun] at hrun'
  cases hrun'
  exact .bind ⟨inviteId, s₂, rfl⟩ fun _ _ _ => sprintf_returns

/-- Behind the checks the response is an invite or a refusal. -/
theorem checkedInvite_returns {k : Int} {request : InviteRequest} (hW : Answering W)
    (hx : (s.user a).isSome) (h₀ : 0 ≤ k) (hlt : k + 2 < args.length) :
    Returns (checkedInvite W code args k a request) s := by
  refine .bind (verify_returns h₀ hlt) fun ok s₁ hverify => .ite (fun _ => ?_) fun _ => .pure _
  have hx₁ := isSome_of_run (verifyTimestampsAndNonce_within trivial) hverify hx
  refine .bind (canUseLock_returns hW hx₁) fun ok s₂ huse => .ite (fun _ => ?_) fun _ => .pure _
  have hx₂ := isSome_of_run (canUseLock_within fun _ => trivial) huse hx₁
  exact .bind (canCreateInvite_returns hW hx₂) fun ok s₃ _ =>
    .ite (fun _ => inviteResponse_returns hW) fun _ => .pure _

/-- The request of an `RNI` is within the tokens it asked for. -/
theorem rniRequest_returns {t : UserType} (hlen : 4 ≤ args.length) :
    Returns (rniRequest args t) s := by
  have harg {i : Int} {s : Sys} (h₀ : 0 ≤ i) (h : i ≤ 3) : Returns (argAt args i) s :=
    argAt_returns h₀ (by omega)
  unfold rniRequest
  split
  · exact .bind (harg (by decide) (by decide)) fun _ _ _ =>
      .bind (harg (by decide) (by decide)) fun _ _ _ => .pure _
  · exact .bind (harg (by decide) (by decide)) fun _ _ _ =>
      .bind (harg (by decide) (by decide)) fun _ _ _ =>
        .bind (harg (by decide) (by decide)) fun _ _ _ => .pure _
  · exact .bind (harg (by decide) (by decide)) fun _ _ _ => .pure _
  · exact .pure _

/-- The number of arguments of an `RNI` is one of five. -/
theorem four_le_rniArgs (h : rniArgs cmd ≠ 0) : 4 ≤ rniArgs cmd := by
  unfold rniArgs at h ⊢
  split_ifs at h ⊢ <;> omega

/-- An `RNI` with an unknown type is answered if `malloc(0)` is null, and
otherwise reads behind an empty block. -/
theorem commandRNI_returns (hW : Answering W) (hx : (s.user a).isSome) (hoff : c.off = 0)
    (h : if rniArgs cmd = 0 then W.mallocZero = false else Enough cmd (rniArgs cmd)) :
    Returns (commandRNI W c cmd a) s := by
  by_cases hn : rniArgs cmd = 0
  · rw [if_pos hn] at h
    have hargs : (getArgs W cmd (rniArgs cmd)).run s = (.ok none, s) := by
      rw [hn, getArgs, if_neg (by simp)]
      simp [h]
    obtain ⟨r, s', hrun⟩ := free_returns (s := s) (x := some nakMessage) hoff
    exact ⟨r, s', bind_ok.2 ⟨none, s, hargs, hrun⟩⟩
  · rw [if_neg hn] at h
    refine withArgs_returns h (free_returns hoff) fun args hargs => ?_
    have hlen := four_le_rniArgs hn
    refine .bind (argAt_returns (by decide) (by omega)) fun arg s₁ harg => ?_
    have hx₁ := isSome_of_run argAt_within harg hx
    refine .bind (rniRequest_returns (by omega)) fun request s₂ hrequest => ?_
    have hx₂ := isSome_of_run rniRequest_within hrequest hx₁
    exact .bind (checkedInvite_returns hW hx₂ (by omega) (by omega)) fun _ _ _ =>
      finish_returns hoff

/-- `RFI` needs its tokens only where the lock is registered. -/
theorem commandRFI_returns (hW : Answering W) (hoff : c.off = 0)
    (h : CachedRegistered s → Enough cmd 4) : Returns (commandRFI W c cmd) s := by
  refine .bind getRegistrationStatus_returns fun status s₁ hstatus =>
    .ite (fun _ => free_returns hoff) fun hreg => ?_
  rw [not_not] at hreg
  subst hreg
  refine withArgs_returns (h (cachedRegistered_of_run hstatus)) (free_returns hoff)
    fun args hargs => .bind ?_ fun _ _ _ => free_returns hoff
  exact .bind (verify_returns (by decide) (by omega)) fun ok s₂ _ =>
    .ite (fun _ => inviteResponse_returns hW) fun _ => .pure _

theorem ruiRequest_returns {auth : Authorization} {email : CStr} :
    Returns (ruiRequest W auth email) s := by
  rw [ruiRequest]
  split
  · exact .bind ⟨_, _, rfl⟩ fun _ _ _ => .bind sprintf_returns fun _ _ _ => .pure _
  · exact .pure _
  · exact .pure _
  · exact .pure _

/-- `RUI` returns, though what it returns may be null. -/
theorem commandRUI_returns (hW : Answering W) (hx : (s.user a).isSome) (hoff : c.off = 0)
    (h : Enough cmd 4) : Returns (commandRUI W c cmd a) s := by
  refine withArgs_returns h (free_returns hoff) fun args hargs => ?_
  refine .bind (getUserState_returns hx) fun state s₁ hstate => .ite (fun _ => .pure _) fun _ => ?_
  have hx₁ := isSome_of_run getUserState_within hstate hx
  refine .bind (getPhoneId_returns hx₁) fun phone s₂ hphone => ?_
  have hx₂ := isSome_of_run getPhoneId_within hphone hx₁
  cases phone with
  | none => exact .pure _
  | some phone =>
    refine .bind (storedAuthorization_returns hW) fun auth s₃ hauth => ?_
    have hx₃ := isSome_of_run storedAuthorization_within hauth hx₂
    cases auth with
    | none => exact .pure _
    | some auth =>
      refine .bind (argAt_returns (by decide) (by omega)) fun email s₄ hemail => ?_
      have hx₄ := isSome_of_run argAt_within hemail hx₃
      refine .bind ruiRequest_returns fun request s₅ hrequest => ?_
      have hx₅ := isSome_of_run ruiRequest_within hrequest hx₄
      exact .bind (checkedInvite_returns hW hx₅ (by decide) (by omega)) fun _ _ _ =>
        finish_returns hoff

/-- `SNT` asks neither the store nor the server. -/
theorem commandSNT_returns (hx : (s.user a).isSome) (hoff : c.off = 0) (h : Enough cmd 4) :
    Returns (commandSNT W c cmd a) s := by
  refine withArgs_returns h (free_returns hoff) fun args hargs =>
    .bind ?_ fun _ _ _ => free_returns hoff
  refine .bind (verify_returns (by decide) (by omega)) fun ok s₁ hverify => .ite (fun _ => ?_)
    fun _ => .pure _
  have hx₁ := isSome_of_run (verifyTimestampsAndNonce_within trivial) hverify hx
  refine .bind (getUserState_returns hx₁) fun state s₂ _ => .ite (fun _ => ?_) fun _ => .pure _
  refine .bind (argAt_returns (by decide) (by omega)) fun devid s₃ _ => ?_
  exact .bind (.bind sprintf_returns fun _ _ _ => ⟨_, _, rfl⟩) fun _ _ _ => .pure _

/-- `RDS` resets the session, and returns. -/
theorem commandRDS_returns (hW : Answering W) (hx : (s.user a).isSome) (hoff : c.off = 0)
    (h : Enough cmd 3) : Returns (commandRDS W c cmd a) s := by
  refine withArgs_returns h (finish_returns hoff) fun args hargs =>
    .bind ?_ fun _ _ _ => finish_returns hoff
  refine .bind (verify_returns (by decide) (by omega)) fun ok s₁ hverify => .ite (fun _ => ?_)
    fun _ => .pure _
  have hx₁ := isSome_of_run (verifyTimestampsAndNonce_within trivial) hverify hx
  refine .bind (getUserState_returns hx₁) fun state s₂ _ => .ite (fun _ => ?_) fun _ => .pure _
  exact .bind (getLockState_returns hW) fun _ _ _ => sprintf_returns

/-! ## `SAC` -/

/-- A buffer of the length asked for is read as it stands. -/
theorem readBytes_run {buf : List UInt8} (hlen : buf.length = n) :
    ∃ v, (readBytes W buf n).run s = (.ok v, s.ticked) ∧ v.toList = buf := by
  refine ⟨_, rfl, ?_⟩
  apply List.ext_getElem
  · simp [hlen]
  · intro i h₁ h₂
    simp [List.getD, h₂]

/-- A key the server sent is decrypted. -/
theorem decryptBase64RSA_run {enc : CStr} {block text : List UInt8}
    (henc : base64Decode enc = some block) (hlen : block.length = keySizeBytesRSA)
    (htext : W.rsaDecrypt block = some text) :
    (decryptBase64RSA W enc).run s = (.ok (cstr text), s.ticked) := by
  obtain ⟨v, hread, hv⟩ := readBytes_run (W := W) (s := s) hlen
  rw [decryptBase64RSA, run_bind_ok (deref_ok.2 ⟨henc, rfl⟩), run_bind_ok hread, hv,
    run_bind_ok (deref_ok.2 ⟨htext, rfl⟩)]
  rfl

/-- A day of the week has its place in the array. -/
theorem storeWeekday_isSome {auth : Authorization} {day : Int} (h : 1 ≤ day ∧ day ≤ 7) :
    ∃ auth', auth.storeWeekday (day - 1) = some auth' := by
  unfold Authorization.storeWeekday
  rw [if_neg (by omega), dif_neg (by omega), if_neg (by omega), dif_neg (by omega),
    dif_pos (by omega)]
  exact ⟨_, rfl⟩

theorem storeWeekdays_isSome {days : List Int} (h : ∀ day ∈ days, 1 ≤ day ∧ day ≤ 7) :
    ∀ auth, ∃ auth', storeWeekdays auth days = some auth' := by
  induction days with
  | nil => exact fun auth => ⟨auth, rfl⟩
  | cons day days ih =>
    intro auth
    obtain ⟨auth', hday⟩ : ∃ auth', auth.storeWeekday (day - 1) = some auth' :=
      storeWeekday_isSome (h day (List.mem_cons_self ..))
    obtain ⟨auth'', hdays⟩ := ih (fun d hd => h d (List.mem_cons_of_mem _ hd)) auth'
    refine ⟨auth'', ?_⟩
    rw [storeWeekdays, hday]
    exact hdays

/-- An authorization whose days are days of the week is filled in. -/
theorem fillValidity_isSome {d : AuthData} (h : ∀ day ∈ d.weekdays, 1 ≤ day ∧ day ≤ 7)
    (auth : Authorization) : ∃ auth', fillValidity d auth = some auth' := by
  rw [fillValidity]
  split
  · obtain ⟨auth', hdays⟩ :=
      storeWeekdays_isSome h { auth with weekdays := Vector.replicate 7 false }
    rw [hdays]
    exact ⟨_, rfl⟩
  · exact ⟨_, rfl⟩
  · exact ⟨_, rfl⟩
  · exact ⟨_, rfl⟩

/-- An authorization is stored, or refused by the store. -/
theorem setAuthorization_returns (hW : Answering W) {auth : Authorization} :
    Returns (setAuthorization W auth) s := by
  rw [setAuthorization, nvsStore]
  refine .bind (initAndOpen_returns hW) fun err s₁ _ => .ite (fun _ => .pure _) fun _ => ?_
  have hset : Returns (nvsSetBlob W auth.phone auth) s₁ :=
    .ite (fun _ => .pure _) fun _ => ⟨_, _, nvsCall_run hW.nvs _⟩
  refine .bind hset fun err s₂ _ => .ite (fun _ => .pure _) fun _ => ?_
  refine .bind ⟨_, _, nvsCall_run hW.nvs _⟩ fun err s₃ _ => .ite (fun _ => .pure _) fun _ => ?_
  exact ⟨_, _, rfl⟩

/-- What the server knows of a phone it knows in full. -/
theorem getAuthorizationDb_returns (hW : Answering W) (auth : Authorization) :
    ∃ err auth' s', (getAuthorizationDb W p auth).run s = (.ok (err, auth'), s') ∧
      (err = espOk → p.length < 16) := by
  rw [getAuthorizationDb, run_tick_bind]
  rcases hreply : W.authReply s.moment p with _ | d
  · exact ⟨espFail, auth, _, rfl, fun h => absurd h (by decide)⟩
  · dsimp only
    by_cases hsuccess : d.success = true
    · obtain ⟨hasked, ⟨phone, hphone, hlen⟩, ⟨enc, block, text, key, henc, hblock, hsize, htext,
        hkey, hkeylen⟩, hdays⟩ := hW.auth _ _ _ hreply hsuccess
      rw [if_neg (by simp [hsuccess]), run_bind_ok (deref_ok.2 ⟨hphone, rfl⟩),
        run_bind_ok (run_faultIf_of_not (by omega) _ _), run_bind_ok (deref_ok.2 ⟨henc, rfl⟩),
        run_bind_ok (decryptBase64RSA_run hblock hsize htext), run_bind_ok (deref_ok.2 ⟨hkey, rfl⟩),
        run_bind_ok (run_faultIf_of_not (by omega) _ _)]
      obtain ⟨auth', hfill⟩ := fillValidity_isSome hdays { auth with
        phoneId := strcpyPhone auth.phoneId phone
        userType := d.type
        masterKey := memcpyKey auth.masterKey key }
      simp only [hfill]
      obtain ⟨err, s', hset⟩ : Returns (setAuthorization W auth') s.ticked.ticked :=
        setAuthorization_returns hW
      exact ⟨err, auth', s', bind_ok.2 ⟨err, s', hset, rfl⟩, fun _ => hasked⟩
    · rw [if_pos hsuccess]
      exact ⟨errArg, auth, _, rfl, fun h => absurd h (by decide)⟩

/-- An authorization is found for a phone whose name has its place. -/
theorem findAuthorization_returns (hW : Answering W) :
    ∃ found s', (findAuthorization W p).run s = (.ok found, s') ∧
      (found ≠ none → p.length < 16) := by
  obtain ⟨err, auth, s₁, hget, hcases⟩ :=
    getAuthorization_run (p := p) (s := s.ticked) hW (W.freshAuthorization s.moment)
  rw [findAuthorization, run_tick_bind, run_bind_ok hget]
  dsimp only
  rcases hcases with ⟨rfl, hstored⟩ | ⟨herr, _⟩
  · rw [if_pos rfl]
    refine ⟨some auth, s₁, rfl, fun _ => ?_⟩
    rw [stored] at hstored
    split_ifs at hstored with hlen
    rw [nvsKeyMax] at hlen
    omega
  · rw [if_neg herr]
    obtain ⟨err', auth', s₂, hdb, hlen⟩ := getAuthorizationDb_returns (s := s₁) hW auth
    rw [run_bind_ok hdb]
    refine ⟨if err' = espOk then some auth' else none, s₂, rfl, fun hfound => ?_⟩
    by_cases herr' : err' = espOk
    · exact hlen herr'
    · exact absurd (if_neg herr') hfound

variable (W) in
/-- The seed of the session is needed: the stamps of a `SAC` are accepted,
there is an authorization for its phone, and the HMAC is computed. -/
def NeedsSeed (cmd : CStr) (s : Sys) : Prop :=
  ∃ args p s₁ auth s₂, Given cmd 5 args ∧ argument args 0 = some p ∧
    (verifyTimestampsAndNonce W args 2).run s = (.ok true, s₁) ∧
    (findAuthorization W p).run s₁ = (.ok (some auth), s₂) ∧ W.hmacFails s₂.moment = false

/-- A seed was drawn for the session. -/
def Seeded (a : CStr) (s : Sys) : Prop := ∃ x, s.user a = some x ∧ x.seed ≠ none

/-- The HMAC needs a seed, unless it fails. -/
theorem genHmac32_returns {key : Vector UInt8 32} {seed : Option (Vector UInt8 10)}
    (h : W.hmacFails s.moment = false → seed ≠ none) : Returns (genHmac32 W key seed) s := by
  refine .step (run_tick s) (.ite (fun _ => .pure _) fun hfails => ?_)
  obtain ⟨bytes, rfl⟩ := Option.ne_none_iff_exists'.1 (h (by simpa using hfails))
  exact .pure _

theorem base64Encode_hmac (v : Vector UInt8 32) : ∃ text, base64Encode v.toList = some text :=
  ⟨_, base64Encode_of_short (by simp)⟩

/-- A `SAC` is judged where a seed was drawn for its user. -/
theorem sacValid_returns (hW : Answering W) (hargs : Given cmd 5 args) (hx : (s.user a).isSome)
    (hseed : NeedsSeed W cmd s → Seeded a s) : Returns (sacValid W args a) s := by
  have hlen := hargs.length
  obtain ⟨p, hp⟩ : ∃ p, argument args 0 = some p := exists_argument (by decide) (by omega)
  obtain ⟨code, hcode⟩ : ∃ code, argument args 1 = some code :=
    exists_argument (by decide) (by omega)
  refine .step (argAt_ok.2 ⟨hp, rfl⟩) (.step (argAt_ok.2 ⟨hcode, rfl⟩) ?_)
  refine .bind (verify_returns (by decide) (by omega)) fun ok s₁ hverify => .ite (fun hok => ?_)
    fun _ => .pure _
  subst hok
  have hverified : Verified W cmd 5 s s₁ := ⟨args, s, hargs, .refl s, hverify⟩
  obtain ⟨x, hx⟩ := Option.isSome_iff_exists.1 hx
  have hx₁ : s₁.user a = some x := by rw [hverified.user, hx]
  refine .step (bind_ok.2 ⟨x, s₁, derefUser_ok.2 ⟨hx₁, rfl⟩, rfl⟩) ?_
  -- the code is computed only for a phone that has an authorization; then the seed is read
  obtain ⟨found, s₂, hfind, hphone⟩ := findAuthorization_returns (p := p) (s := s₁) hW
  have hcheck : Returns (checkAuthorizationCode W p code x.seed) s₁ := by
    refine .step hfind ?_
    cases found with
    | none => exact .pure _
    | some auth =>
      have hneeds : W.hmacFails s₂.moment = false → x.seed ≠ none := by
        intro hhmac
        obtain ⟨y, hy, hyseed⟩ := hseed ⟨args, p, s₁, auth, s₂, hargs, hp, hverify, hfind, hhmac⟩
        rw [hx] at hy
        cases hy
        exact hyseed
      refine .step (run_observe _ _) (.bind (genHmac32_returns hneeds) fun hmac s₃ _ => ?_)
      cases hmac with
      | none => exact .pure _
      | some hmac =>
        obtain ⟨text, htext⟩ := base64Encode_hmac hmac
        exact .step (deref_ok.2 ⟨htext, rfl⟩) (.pure _)
  refine .bind hcheck fun ok s₃ hcode' => .ite (fun hok => ?_) fun _ => .pure _
  subst hok
  have hx₃ : (s₃.user a).isSome :=
    isSome_of_run (checkAuthorizationCode_within trivial fun _ => trivial) hcode' (by rw [hx₁]; rfl)
  obtain ⟨y, hy⟩ := Option.isSome_iff_exists.1 hx₃
  -- the phone id was looked up, so it fits the field it is copied to
  have hshort : p.length < 16 := by
    refine hphone fun hnone => ?_
    subst hnone
    obtain ⟨found, s₄, hfind', hrest⟩ := bind_ok.1 hcode'
    rw [hfind] at hfind'
    cases hfind'
    cases hrest
  obtain ⟨s₄, hset⟩ := setUserState_returns_of_some (W := W) hy .authorized p hshort
  exact .step hset (.step (run_observe _ _) (.pure _))

/-- `SAC` returns for a user whose seed it needs was drawn. -/
theorem commandSAC_returns (hW : Answering W) (hx : (s.user a).isSome) (hoff : c.off = 0)
    (h : Enough cmd 5) (hseed : NeedsSeed W cmd s → Seeded a s) :
    Returns (commandSAC W c cmd a) s := by
  refine .bind (getArgs_returns h) fun args s₁ hargs => ?_
  obtain ⟨rfl, ⟨rfl, _⟩ | ⟨l, rfl, hl⟩⟩ := getArgs_ok hargs
  · exact free_returns hoff
  · exact .bind (sacValid_returns hW hl hx hseed) fun _ _ _ => free_returns hoff

/-- Where the seed is needed, a `SAC` that returned had one. -/
theorem seeded_of_sac {r : Option CStr} (h : (commandSAC W c cmd a).run s = (.ok r, s'))
    (hneeds : NeedsSeed W cmd s) : Seeded a s := by
  obtain ⟨args, p, s₁, auth, s₂, hargs, hp, hverify, hfind, hhmac⟩ := hneeds
  rcases (commandSAC_ok h).2 with ⟨hnil, _⟩ | ⟨args', valid, hargs', hvalid, _⟩
  · have := hargs.le
    rw [hnil] at this
    exact absurd this (by decide)
  -- the run of the command is the run the need speaks of, step by step
  · have heq : args' = args := hargs'.eq.trans hargs.eq.symm
    subst heq
    simp only [sacValid, bind_ok, argAt_ok] at hvalid
    obtain ⟨p', _, ⟨hp', rfl⟩, code, _, ⟨_, rfl⟩, ok, s₃, hverify', hrest⟩ := hvalid
    rw [hp] at hp'
    cases hp'
    rw [hverify] at hverify'
    cases hverify'
    obtain ⟨seed, s₄, hseed, hgoes⟩ := bind_ok.1 hrest
    obtain ⟨x, _, hx, hret⟩ := bind_ok.1 hseed
    obtain ⟨hx, rfl⟩ := derefUser_ok.1 hx
    cases hret
    have hverified : Verified W cmd 5 _ _ := ⟨args', _, hargs, .refl _, hverify⟩
    refine ⟨x, by rw [← hverified.user, hx], fun hnone => ?_⟩
    obtain ⟨ok, s₅, hcheck, _⟩ := bind_ok.1 hgoes
    obtain ⟨found, s₆, hfind', hfound⟩ := bind_ok.1 hcheck
    rw [hfind] at hfind'
    cases hfind'
    obtain ⟨_, s₇, hnote, hnoted⟩ := bind_ok.1 hfound
    cases hnote
    obtain ⟨hmac, s₈, hgen, _⟩ := bind_ok.1 hnoted
    obtain ⟨t, s₉, ht, hgen'⟩ := bind_ok.1 hgen
    cases ht
    rw [if_neg (by simpa [Sys.noted] using hhmac), hnone] at hgen'
    cases hgen'

/-! ## All messages -/

variable (W) in
/-- What a message of `a` has to be like to be answered. -/
structure Answerable (cmd a : CStr) (s : Sys) : Prop where
  /-- The message is not blank. -/
  named : word cmd ≠ none
  /-- A message that names a command starts with it. -/
  start : ∀ c, getCommand cmd = some c → c.word ∈ commandWords → c.off = 0
  sac : word cmd = some (lit "SAC") → Enough cmd 5 ∧ (NeedsSeed W cmd s → Seeded a s)
  rud : word cmd = some (lit "RUD") → Enough cmd 3
  rld : word cmd = some (lit "RLD") → Enough cmd 3
  /-- An unknown type has no arguments, and no block of them either. -/
  rni : word cmd = some (lit "RNI") →
    if rniArgs cmd = 0 then W.mallocZero = false else Enough cmd (rniArgs cmd)
  rfi : word cmd = some (lit "RFI") → CachedRegistered s → Enough cmd 4
  /-- A complete `RUI` is answered only if its user has an authorization. -/
  rui : word cmd = some (lit "RUI") → arguments cmd = [] ∨
    4 ≤ (arguments cmd).length ∧ ∃ p, AuthorizedFor a p s ∧ stored p s ≠ none
  snt : word cmd = some (lit "SNT") → Enough cmd 4
  rds : word cmd = some (lit "RDS") → Enough cmd 3

theorem Given.enough (h : Given cmd n args) : Enough cmd n := .inr h.le

/-- A complete `RUI` is answered by a null pointer where there is no
authorization. -/
theorem commandRUI_some (hW : Answering W) {r : Option CStr}
    (h : (commandRUI W c cmd a).run s = (.ok r, s')) :
    r ≠ none ↔ arguments cmd = [] ∨
      4 ≤ (arguments cmd).length ∧ ∃ p, AuthorizedFor a p s ∧ stored p s ≠ none := by
  rcases commandRUI_ok h with ⟨_, hnil, _, rfl⟩ | ⟨hle, _, rfl, hno⟩ | ⟨args, p, hargs, hp, hrest⟩
  · exact ⟨fun _ => .inl hnil, fun _ => Option.some_ne_none _⟩
  · refine ⟨fun h => absurd rfl h, ?_⟩
    rintro (hnil | ⟨_, p, hp, _⟩)
    · rw [hnil] at hle
      exact absurd hle (by decide)
    · exact absurd ⟨p, hp⟩ hno
  · have hle := hargs.le
    obtain ⟨s₁, hstored⟩ := storedAuthorization_run (p := p) (s := s) hW
    rcases hrest with ⟨hauth, rfl⟩ | ⟨auth, _, _, _, _, _, _, _, hauth, _, _, _, _, rfl⟩
    · rw [hstored] at hauth
      refine ⟨fun h => absurd rfl h, ?_⟩
      rintro (hnil | ⟨_, q, hq, hsome⟩)
      · rw [hnil] at hle
        exact absurd hle (by decide)
      · rw [hp.unique hq] at hsome
        exact absurd (Except.ok.inj (Prod.mk.inj hauth).1) hsome
    · rw [hstored] at hauth
      refine ⟨fun _ => .inr ⟨hle, p, hp, ?_⟩, fun _ => Option.some_ne_none _⟩
      rw [Except.ok.inj (Prod.mk.inj hauth).1]
      exact Option.some_ne_none auth

/-- A message that names a command and was answered started with it. -/
theorem off_eq_zero {t : CStr} (h : (checkCommand W cmd a).run s = (.ok (some t), s'))
    (hc : getCommand cmd = some c) (hw : c.word ∈ commandWords) : c.off = 0 := by
  obtain ⟨c', hc', hcases⟩ := checkCommand_ok h
  rw [hc] at hc'
  cases hc'
  rcases hcases with ⟨_, h⟩ | ⟨_, h⟩ | ⟨_, h⟩ | ⟨_, h⟩ | ⟨_, h⟩ | ⟨_, h⟩ | ⟨_, h⟩ | ⟨_, h⟩ |
    ⟨hno, _⟩
  · exact (commandSAC_ok h).1
  · exact (commandDoor_ok h).1
  · exact (commandDoor_ok h).1
  · exact (commandRNI_ok h).1
  · exact (commandRFI_ok h).1
  · rcases commandRUI_ok h with ⟨hoff, _⟩ | ⟨_, _, hr, _⟩ | ⟨_, _, _, _, ⟨_, hr⟩ |
      ⟨_, _, _, _, _, _, _, hoff, _⟩⟩
    · exact hoff
    · cases hr
    · cases hr
    · exact hoff
  · exact (commandSNT_ok h).1
  · exact (commandRDS_ok h).1
  · exact absurd hw hno

/-- A door command that returned had tokens enough. -/
theorem commandDoor_enough {act : M Unit} {r : Option CStr}
    (h : (commandDoor W act c cmd a).run s = (.ok r, s')) : Enough cmd 3 := by
  rcases (commandDoor_ok h).2 with ⟨hnil, _⟩ | ⟨_, _, _, hargs, _⟩
  · exact .inl hnil
  · exact hargs.enough

/-- **A message that was answered was like this.** -/
theorem answerable_of_run (hW : Answering W) {t : CStr}
    (h : (checkCommand W cmd a).run s = (.ok (some t), s')) : Answerable W cmd a s where
  named hnone := by
    obtain ⟨w, hw, _⟩ := checkCommand_reply h
    rw [hw] at hnone
    cases hnone
  start c hc hw := off_eq_zero h hc hw
  sac hw := by
    obtain ⟨c, _, _, hdispatch⟩ := exists_dispatch (W := W) (a := a) hw
    rw [hdispatch] at h
    refine ⟨?_, seeded_of_sac h⟩
    rcases (commandSAC_ok h).2 with ⟨hnil, _⟩ | ⟨_, _, hargs, _⟩
    · exact .inl hnil
    · exact hargs.enough
  rud hw := by
    obtain ⟨c, _, _, hdispatch⟩ := exists_dispatch (W := W) (a := a) hw
    rw [hdispatch] at h
    exact commandDoor_enough h
  rld hw := by
    obtain ⟨c, _, _, hdispatch⟩ := exists_dispatch (W := W) (a := a) hw
    rw [hdispatch] at h
    exact commandDoor_enough h
  rni hw := by
    obtain ⟨c, _, _, hdispatch⟩ := exists_dispatch (W := W) (a := a) hw
    rw [hdispatch] at h
    rcases (commandRNI_ok h).2 with ⟨hno, _⟩ | ⟨args, _, _, _, _, _, hargs, harg, _⟩
    -- no arguments were split: there are too few, or the type of user asks for none
    · split_ifs with hn
      · exact Bool.eq_false_iff.2 (hno.resolve_left fun h => h.1 hn).2
      · exact .inl (hno.arguments_eq hn)
    · have hn : rniArgs cmd ≠ 0 := by
        intro hn
        rw [List.length_eq_zero_iff.1 (hargs.length.trans hn)] at harg
        cases harg
      rw [if_neg hn]
      exact hargs.enough
  rfi hw hcached := by
    obtain ⟨c, _, _, hdispatch⟩ := exists_dispatch (W := W) (a := a) hw
    rw [hdispatch] at h
    obtain ⟨_, status, s₁, hstatus, ⟨hno, _⟩ | ⟨args, _, _, hargs, _⟩⟩ := commandRFI_ok h
    · refine .inl (hno.resolve_left fun hne => hne ?_)
      rcases getRegistrationStatus_ok hstatus with ⟨hs, hknown, _⟩ | ⟨hs, hserver, _⟩
      · exact hs.symm.trans (hcached.resolve_right fun h => hknown (hs.symm.trans h.1))
      · rw [if_pos (hW.status _)] at hserver
        rcases hcached with hreg | ⟨_, hreg⟩
        · rw [hs] at hreg
          exact absurd hreg (by decide)
        · exact hserver.trans hreg
    · exact hargs.enough
  rui hw := by
    obtain ⟨c, _, _, hdispatch⟩ := exists_dispatch (W := W) (a := a) hw
    rw [hdispatch] at h
    exact (commandRUI_some hW h).1 (Option.some_ne_none t)
  snt hw := by
    obtain ⟨c, _, _, hdispatch⟩ := exists_dispatch (W := W) (a := a) hw
    rw [hdispatch] at h
    rcases (commandSNT_ok h).2 with ⟨hnil, _⟩ | ⟨_, _, hargs, _⟩
    · exact .inl hnil
    · exact hargs.enough
  rds hw := by
    obtain ⟨c, _, _, hdispatch⟩ := exists_dispatch (W := W) (a := a) hw
    rw [hdispatch] at h
    rcases (commandRDS_ok h).2 with ⟨hnil, _⟩ | ⟨_, _, _, hargs, _⟩
    · exact .inl hnil
    · exact hargs.enough

/-- **Such a message does not end the program.** -/
theorem Answerable.returns (hW : Answering W) (hx : (s.user a).isSome) (h : Answerable W cmd a s) :
    Returns (checkCommand W cmd a) s := by
  obtain ⟨w, hw⟩ := Option.ne_none_iff_exists'.1 h.named
  obtain ⟨c, hc, rfl, hdispatch⟩ := exists_dispatch (W := W) (a := a) hw
  have hoff (hmem : c.word ∈ commandWords) : c.off = 0 := h.start c hc hmem
  rw [hdispatch]
  have hrun {x : CStr} (heq : c.word = x) : word cmd = some x := by rw [hw, heq]
  refine .ite (fun heq => ?_) fun _ => .ite (fun heq => ?_) fun _ => .ite (fun heq => ?_) fun _ =>
    .ite (fun heq => ?_) fun _ => .ite (fun heq => ?_) fun _ => .ite (fun heq => ?_) fun _ =>
      .ite (fun heq => ?_) fun _ => .ite (fun heq => ?_) fun _ =>
        .bind reset_returns fun _ _ _ => .pure _
  · exact commandSAC_returns hW hx (hoff (by rw [heq]; decide)) (h.sac (hrun heq)).1
      (h.sac (hrun heq)).2
  · exact commandDoor_returns hW hx (hoff (by rw [heq]; decide)) (h.rud (hrun heq))
      fun _ => unlockLock_returns hW
  · exact commandDoor_returns hW hx (hoff (by rw [heq]; decide)) (h.rld (hrun heq))
      fun _ => lockLock_returns hW
  · exact commandRNI_returns hW hx (hoff (by rw [heq]; decide)) (h.rni (hrun heq))
  · exact commandRFI_returns hW (hoff (by rw [heq]; decide)) (h.rfi (hrun heq))
  · exact commandRUI_returns hW hx (hoff (by rw [heq]; decide))
      ((h.rui (hrun heq)).imp id fun h => h.1)
  · exact commandSNT_returns hx (hoff (by rw [heq]; decide)) (h.snt (hrun heq))
  · exact commandRDS_returns hW hx (hoff (by rw [heq]; decide)) (h.rds (hrun heq))

/-- Only `RUI` is ever answered by a null pointer. -/
theorem word_of_none (h : (checkCommand W cmd a).run s = (.ok none, s')) :
    word cmd = some (lit "RUI") := by
  obtain ⟨c, hc, hcases⟩ := checkCommand_ok h
  have hdoor {act : M Unit} (h : (commandDoor W act c cmd a).run s = (.ok none, s')) : False := by
    rcases (commandDoor_ok h).2 with ⟨_, _, hr⟩ | ⟨_, ack, _, _, _, _, hr⟩ <;> cases hr
  rcases hcases with ⟨_, h⟩ | ⟨_, h⟩ | ⟨_, h⟩ | ⟨_, h⟩ | ⟨_, h⟩ | ⟨hw, _⟩ | ⟨_, h⟩ |
    ⟨_, h⟩ | ⟨_, _, hr⟩
  · rcases (commandSAC_ok h).2 with ⟨_, _, hr⟩ | ⟨_, ack, _, _, hr⟩ <;> cases hr
  · exact (hdoor h).elim
  · exact (hdoor h).elim
  · rcases (commandRNI_ok h).2 with ⟨_, _, hr⟩ | ⟨_, _, _, _, _, _, _, _, _, _, _, hr⟩ <;> cases hr
  · obtain ⟨_, _, _, _, ⟨_, _, hr⟩ | ⟨_, _, _, _, _, hr⟩⟩ := commandRFI_ok h <;> cases hr
  · rw [word, hc, ← hw]
    rfl
  · rcases (commandSNT_ok h).2 with ⟨_, _, hr⟩ | ⟨_, ack, _, _, hr⟩ <;> cases hr
  · rcases (commandRDS_ok h).2 with ⟨_, _, hr⟩ | ⟨_, _, _, _, _, _, hr⟩ <;> cases hr
  · cases hr

/-- **Which messages get a reply**: of a user with a record, and with the
flash driver and the server answering, those that are `Answerable`, and
each of these gets one of the protocol. -/
theorem checkCommand_answers_iff (hW : Answering W) (hx : (s.user a).isSome) :
    (∃ w t s', word cmd = some w ∧ (checkCommand W cmd a).run s = (.ok (some t), s') ∧
      Reply w t) ↔ Answerable W cmd a s := by
  constructor
  · rintro ⟨w, t, s', _, hrun, _⟩
    exact answerable_of_run hW hrun
  · intro h
    obtain ⟨r, s', hrun⟩ := h.returns hW hx
    cases r with
    | none =>
      have hw := word_of_none hrun
      have hrui := h.rui hw
      obtain ⟨c, _, _, hdispatch⟩ := exists_dispatch (W := W) (a := a) hw
      rw [hdispatch] at hrun
      exact absurd rfl ((commandRUI_some hW hrun).2 hrui)
    | some t =>
      obtain ⟨w, hw, hreply⟩ := checkCommand_reply hrun
      exact ⟨w, t, s', hw, hrun, hreply⟩

/-- The world of the run below answers. -/
theorem answering_answering (target : Target) : Answering (World.answering target) :=
  ⟨fun _ => rfl, fun _ => rfl, fun _ _ => ⟨_, _, rfl, rfl, rfl⟩, nofun⟩

/-- An unlock of the door has what it needs. -/
theorem answerable_unlock : Answerable (World.answering .esp32s3) (lit "RUD 90 200 1")
    (lit "192.168.1.5") adminAuthorized where
  named := by decide
  start c hc _ := by
    obtain rfl := Option.some_injective _ hc
    rfl
  sac hw := absurd hw (by decide)
  rud _ := .inr (by decide)
  rld hw := absurd hw (by decide)
  rni hw := absurd hw (by decide)
  rfi hw := absurd hw (by decide)
  rui hw := absurd hw (by decide)
  snt hw := absurd hw (by decide)
  rds hw := absurd hw (by decide)

/-- The unlock is answered. -/
theorem answers_iff_unlock : ∃ w t s', word (lit "RUD 90 200 1") = some w ∧
    (checkCommand (World.answering .esp32s3) (lit "RUD 90 200 1") (lit "192.168.1.5")).run
      adminAuthorized = (.ok (some t), s') ∧ Reply w t :=
  (checkCommand_answers_iff (answering_answering _) (by decide)).2 answerable_unlock

/-- A TCP client with a session key. -/
theorem exists_connected : ∃ s x, Reachable (World.answering .esp32s3) s ∧
    s.user s.addrStr = some x ∧ x.state = .connected := by
  let s := ((run (World.answering .esp32s3) [.tcpAccept #v[192, 168, 1, 5],
    .tcpRecv (lit "AAAA")]).run Sys.initial).2
  have hstate : (s.user s.addrStr).map UserInfo.state = some .connected := by decide +kernel
  obtain ⟨x, hx, hx'⟩ := Option.map_eq_some_iff.1 hstate
  exact ⟨s, x, reachable_of_run (by decide +kernel), hx, hx'⟩

/-- A blank message ends the program. -/
theorem blank_message_unanswered :
    ¬ ∀ (W : World) (s : Sys) (a cmd : CStr), Answering W → Reachable W s →
      (∃ x, s.user a = some x ∧ (x.state = .connected ∨ x.state = .authorized)) →
      ∃ w t s', word cmd = some w ∧ (checkCommand W cmd a).run s = (.ok (some t), s') ∧
        Reply w t := by
  intro h
  obtain ⟨s, x, hreach, hx, hstate⟩ := exists_connected
  obtain ⟨w, t, s', _, hrun, _⟩ :=
    h _ s s.addrStr (lit " ") (answering_answering .esp32s3) hreach ⟨x, hx, .inl hstate⟩
  have hfault : (checkCommand (World.answering .esp32s3) (lit " ") s.addrStr).run s =
      (.error .nullDeref, s) := rfl
  rw [hfault] at hrun
  cases hrun

end SmartLock
