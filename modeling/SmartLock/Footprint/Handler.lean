import SmartLock.Footprint.Basic

/-!
# What the commands may touch

The footprints of the dispatcher and of what the servers share. A command
touches the record of the address it serves, resets the BLE session, and
makes the observations that are its own.
-/

namespace SmartLock

open Prog

variable {F : Footprint} {W : World} {a cmd : CStr} {c : Tok} {args : List CStr}

/-! ## The words of a message -/

/-- Freeing the command word changes nothing, or faults. -/
theorem freeCommand_within : Within F (freeCommand c) := faultIf_within

/-- The tokens are copies: getting them changes nothing. -/
theorem getArgs_within {n : ℕ} : Within F (getArgs W cmd n) :=
  .ite (fun _ => .bind faultIf_within fun _ => .pure _) fun _ => .pure _

/-- Reading a token changes nothing, also behind the last one. -/
theorem argAt_within {i : Int} : Within F (argAt args i) := by
  rw [argAt]
  cases argument args i with
  | none => exact .fail _
  | some arg => exact .pure _

/-- What a command does without arguments is done within any footprint of
what it does with them. -/
theorem withArgs_within {α : Type} {n : ℕ} {m : M α} {k : List CStr → M α} (hm : Within F m)
    (hk : ∀ args, Within F (k args)) :
    Within F (getArgs W cmd n >>= fun args => match args with
      | none => m
      | some args => k args) := by
  refine .bind getArgs_within fun args => ?_
  cases args with
  | none => exact hm
  | some args => exact hk args

/-- A refusal changes nothing. -/
theorem nak_within : Within F (do freeCommand c; return some nakMessage) :=
  .bind freeCommand_within fun _ => .pure _

/-! ## The checks -/

/-- The checks of a message reach the nonce list and nothing else, whether
it is accepted or not. -/
theorem acceptMessage_within {ts1 ts2 nonce : Int} (hh : F.head) :
    Within F (acceptMessage W ts1 ts2 nonce) :=
  .bind getNowTimestamp_within fun _ => .ite (fun _ => .bind (checkNonce_within hh) fun _ =>
    .ite (fun _ => .bind (addNonceSorted_within hh) fun _ => .pure _) fun _ => .pure _)
    fun _ => .pure _

/-- So they do behind the reading of the three numbers. -/
theorem verifyTimestampsAndNonce_within {k : Int} (hh : F.head) :
    Within F (verifyTimestampsAndNonce W args k) :=
  .bind argAt_within fun _ => .bind argAt_within fun _ => .bind argAt_within fun _ =>
    acceptMessage_within hh

/-- Judging the window of a tenant takes the clock only. -/
theorem tenantPermitted_within {auth : Authorization} : Within F (tenantPermitted W auth) :=
  .bind getTodayTimestamp_within fun _ => .ite (fun _ => .pure _) fun _ =>
    .ite (fun _ => .pure _) fun _ => .pure _

/-- Judging an authorization of any type takes the clock only. -/
theorem usePermitted_within {auth : Authorization} : Within F (usePermitted W auth) := by
  rw [usePermitted]
  split
  · exact .pure _
  · exact .pure _
  · exact .bind getTodayWeekday_within fun _ => .ite (fun _ => .pure _) fun _ =>
      tenantPermitted_within
  · exact tenantPermitted_within
  · exact .bind getTodayTimestamp_within fun _ => .pure _
  · exact .pure _

/-- Looking an authorization up stores none: at most it loses them all. -/
theorem storedAuthorization_within {phone : CStr} : Within F (storedAuthorization W phone) :=
  .bind tick_within fun _ => .bind getAuthorization_within fun _ => .ite (fun _ => .pure _) fun _ =>
    .bind deref_within fun _ => .pure _

/-- `canUseLock` needs the observation of whose authorization it consults.
-/
theorem canUseLock_within (ho : ∀ p, F.obs (.consult p)) : Within F (canUseLock W a) := by
  refine .bind getUserState_within fun _ => .ite (fun _ => .pure _) fun _ =>
    .bind getPhoneId_within fun phone => ?_
  cases phone with
  | none => exact .pure _
  | some phone =>
    refine .bind (observe_within (.inr (ho phone))) fun _ => .bind storedAuthorization_within
      fun auth => ?_
    cases auth with
    | none => exact .pure _
    | some auth => exact usePermitted_within

/-- `canCreateInvite` looks the same authorization up again, without an
observation of its own. -/
theorem canCreateInvite_within {t : UserType} {vf vu od : Int} :
    Within F (canCreateInvite W a t vf vu od) := by
  refine .bind getUserState_within fun _ => .ite (fun _ => .pure _) fun _ =>
    .bind getPhoneId_within fun phone => ?_
  cases phone with
  | none => exact .pure _
  | some phone =>
    refine .bind storedAuthorization_within fun auth => ?_
    cases auth with
    | none => exact .pure _
    | some auth => exact .ite (fun _ => .pure _) fun _ => .pure _

/-! ## The commands -/

/-- A valid `SAC` authorizes the record of its own address. On the way the
authorization may be stored that the server sent. -/
theorem sacValid_within (hk : F.key (hashKey a)) (hh : F.head) (hst : F.store)
    (hm : ∀ p k, F.obs (.masterKey p k)) (hs : ∀ p code, F.obs (.sac a p code)) :
    Within F (sacValid W args a) :=
  .bind argAt_within fun _ => .bind argAt_within fun _ =>
    .bind (verifyTimestampsAndNonce_within hh) fun _ => .ite
      (fun _ => .bind getUserSeed_within fun _ => .bind (checkAuthorizationCode_within hst (hm _))
        fun _ => .ite (fun _ => .bind (setUserState_within hk) fun _ =>
          .bind (observe_within (.inr (hs _ _))) fun _ => .pure _) fun _ => .pure _)
      fun _ => .pure _

/-- `SAC` resets no BLE session. -/
theorem commandSAC_within (hk : F.key (hashKey a)) (hh : F.head) (hst : F.store)
    (hm : ∀ p k, F.obs (.masterKey p k)) (hs : ∀ p code, F.obs (.sac a p code)) :
    Within F (commandSAC W c cmd a) :=
  withArgs_within nak_within fun _ => .bind (sacValid_within hk hh hst hm hs) fun _ =>
    .bind freeCommand_within fun _ => .pure _

/-- A door command needs what its act needs, and the checks in front of it.
-/
theorem doorAck_within {act : M Unit} (hact : Within F act) (hh : F.head)
    (hc : ∀ p, F.obs (.consult p)) : Within F (doorAck W act args a) :=
  .bind (verifyTimestampsAndNonce_within hh) fun _ => .ite
    (fun _ => .bind (canUseLock_within hc) fun _ => .ite (fun _ => .bind hact fun _ => .pure _)
      fun _ => .pure _) fun _ => .pure _

/-- `RUD` and `RLD` reset the BLE session behind their checks, whatever
these said. -/
theorem commandDoor_within {act : M Unit} (hact : Within F act) (hh : F.head) (hb : F.ble)
    (hc : ∀ p, F.obs (.consult p)) : Within F (commandDoor W act c cmd a) :=
  withArgs_within nak_within fun _ => .bind (doorAck_within hact hh hc) fun _ =>
    .bind freeCommand_within fun _ => .bind (setBLEUserStateToConnecting_within hb) fun _ => .pure _

/-- Asking for an invite is observed, and changes nothing here. -/
theorem inviteResponse_within {code : CStr} {r : InviteRequest}
    (ho : ∀ e, F.obs (.createInvite e r)) : Within F (inviteResponse W code r) :=
  .bind getDefaultExpirationTimestamp_within fun _ => .bind (createInvite_within ho) fun _ =>
    .bind deref_within fun _ => sprintf_within

/-- Both permissions are asked before an invite is. -/
theorem checkedInvite_within {code : CStr} {k : Int} {r : InviteRequest} (hh : F.head)
    (hc : ∀ p, F.obs (.consult p)) (ho : ∀ e, F.obs (.createInvite e r)) :
    Within F (checkedInvite W code args k a r) :=
  .bind (verifyTimestampsAndNonce_within hh) fun _ => .ite
    (fun _ => .bind (canUseLock_within hc) fun _ => .ite
      (fun _ => .bind canCreateInvite_within fun _ => .ite (fun _ => inviteResponse_within ho)
        fun _ => .pure _) fun _ => .pure _) fun _ => .pure _

/-- Reading the request off the arguments changes nothing. -/
theorem rniRequest_within {t : UserType} : Within F (rniRequest args t) := by
  unfold rniRequest
  split
  · exact .bind argAt_within fun _ => .bind argAt_within fun _ => .pure _
  · exact .bind argAt_within fun _ => .bind argAt_within fun _ => .bind argAt_within fun _ => .pure _
  · exact .bind argAt_within fun _ => .pure _
  · exact .pure _

/-- `RNI` may ask for any invite its arguments spell. -/
theorem commandRNI_within (hh : F.head) (hb : F.ble) (hc : ∀ p, F.obs (.consult p))
    (ho : ∀ e r, F.obs (.createInvite e r)) : Within F (commandRNI W c cmd a) :=
  withArgs_within nak_within fun _ => .bind argAt_within fun _ => .bind rniRequest_within fun _ =>
    .bind (checkedInvite_within hh hc fun _ => ho _ _) fun _ => .bind freeCommand_within fun _ =>
      .bind (setBLEUserStateToConnecting_within hb) fun _ => .pure _

/-- The first invite is asked for without a permission. -/
theorem rfiResponse_within (hh : F.head) (ho : ∀ e r, F.obs (.createInvite e r)) :
    Within F (rfiResponse W args) :=
  .bind (verifyTimestampsAndNonce_within hh) fun _ =>
    .ite (fun _ => inviteResponse_within fun _ => ho _ _) fun _ => .pure _

/-- `RFI` may have the registration status fetched, and consults no
authorization. -/
theorem commandRFI_within (hh : F.head) (hst : F.status) (ho : ∀ e r, F.obs (.createInvite e r)) :
    Within F (commandRFI W c cmd) :=
  .bind (getRegistrationStatus_within hst) fun _ => .ite (fun _ => nak_within) fun _ =>
    withArgs_within nak_within fun _ => .bind (rfiResponse_within hh ho) fun _ =>
      .bind freeCommand_within fun _ => .pure _

/-- Making the request out of an authorization takes the clock only. -/
theorem ruiRequest_within {auth : Authorization} {email : CStr} :
    Within F (ruiRequest W auth email) := by
  rw [ruiRequest]
  split
  · exact .bind tick_within fun _ => .bind sprintf_within fun _ => .pure _
  · exact .pure _
  · exact .pure _
  · exact .pure _

/-- `RUI` may ask for an invite like its user's own authorization. -/
theorem commandRUI_within (hh : F.head) (hb : F.ble) (hc : ∀ p, F.obs (.consult p))
    (ho : ∀ e r, F.obs (.createInvite e r)) : Within F (commandRUI W c cmd a) := by
  refine withArgs_within nak_within fun args => .bind getUserState_within fun _ =>
    .ite (fun _ => .pure _) fun _ => .bind getPhoneId_within fun phone => ?_
  cases phone with
  | none => exact .pure _
  | some phone =>
    refine .bind storedAuthorization_within fun auth => ?_
    cases auth with
    | none => exact .pure _
    | some auth =>
      exact .bind argAt_within fun _ => .bind ruiRequest_within fun _ =>
        .bind (checkedInvite_within hh hc fun _ => ho _ _) fun _ => .bind freeCommand_within fun _ =>
          .bind (setBLEUserStateToConnecting_within hb) fun _ => .pure _

/-- A notification is observed with the device it goes to. -/
theorem sendNotification_within {devid : CStr} (ho : F.obs (.notification devid)) :
    Within F (sendNotification devid) :=
  .bind sprintf_within fun _ => observe_within (.inr ho)

/-- The device of an `SNT` is whichever the message names. -/
theorem sntAck_within (hh : F.head) (ho : ∀ d, F.obs (.notification d)) :
    Within F (sntAck W args a) :=
  .bind (verifyTimestampsAndNonce_within hh) fun _ => .ite
    (fun _ => .bind getUserState_within fun _ => .ite
      (fun _ => .bind argAt_within fun _ => .bind (sendNotification_within (ho _)) fun _ => .pure _)
      fun _ => .pure _) fun _ => .pure _

/-- `SNT` resets no BLE session either. -/
theorem commandSNT_within (hh : F.head) (ho : ∀ d, F.obs (.notification d)) :
    Within F (commandSNT W c cmd a) :=
  withArgs_within nak_within fun _ => .bind (sntAck_within hh ho) fun _ =>
    .bind freeCommand_within fun _ => .pure _

/-- Reading the state of the door may store one: where none is, the door is
locked. -/
theorem rdsResponse_within (hh : F.head) (hd : F.door) (ho : F.obs .lockLock) :
    Within F (rdsResponse W args a) :=
  .bind (verifyTimestampsAndNonce_within hh) fun _ => .ite
    (fun _ => .bind getUserState_within fun _ => .ite
      (fun _ => .bind (getLockState_within hd ho) fun _ => sprintf_within) fun _ => .pure _)
    fun _ => .pure _

/-- `RDS` resets the BLE session, also where it has no arguments. -/
theorem commandRDS_within (hh : F.head) (hb : F.ble) (hd : F.door) (ho : F.obs .lockLock) :
    Within F (commandRDS W c cmd a) :=
  withArgs_within
    (.bind freeCommand_within fun _ => .bind (setBLEUserStateToConnecting_within hb) fun _ => .pure _)
    fun _ => .bind (rdsResponse_within hh hd ho) fun _ => .bind freeCommand_within fun _ =>
      .bind (setBLEUserStateToConnecting_within hb) fun _ => .pure _

/-- **What one of the commands does, `checkCommand` does.** -/
theorem checkCommand_within (hb : F.ble)
    (sac : ∀ c, Within F (commandSAC W c cmd a)) (rud : ∀ c, Within F (commandRUD W c cmd a))
    (rld : ∀ c, Within F (commandRLD W c cmd a)) (rni : ∀ c, Within F (commandRNI W c cmd a))
    (rfi : ∀ c, Within F (commandRFI W c cmd)) (rui : ∀ c, Within F (commandRUI W c cmd a))
    (snt : ∀ c, Within F (commandSNT W c cmd a)) (rds : ∀ c, Within F (commandRDS W c cmd a)) :
    Within F (checkCommand W cmd a) :=
  .bind deref_within fun c =>
    .ite (fun _ => sac c) fun _ => .ite (fun _ => rud c) fun _ => .ite (fun _ => rld c) fun _ =>
      .ite (fun _ => rni c) fun _ => .ite (fun _ => rfi c) fun _ => .ite (fun _ => rui c) fun _ =>
        .ite (fun _ => snt c) fun _ => .ite (fun _ => rds c) fun _ =>
          .bind (setBLEUserStateToConnecting_within hb) fun _ => .pure _

end SmartLock
