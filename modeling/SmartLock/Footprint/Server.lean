import SmartLock.Footprint.Handler

/-!
# What the servers share

The footprints of what every server does with a message of a session: it
touches the record of the address the message came from, and may reset the
BLE session. Which messages are in session, and when a connection ends, is
left to the servers.
-/

namespace SmartLock

open Prog

variable {F : Footprint} {W : World} {a data : CStr}

/-- What a message of `a` may touch: its record, the BLE session, and
anything that is not a session. -/
structure Footprint.Serves (F : Footprint) (a : CStr) : Prop where
  key : F.key (hashKey a)
  ble : F.ble
  head : F.head
  status : F.status
  store : F.store
  door : F.door
  tryCredentials : F.obs (.tryCredentials a)
  credentials : ∀ ctx, F.obs (.credentials a ctx)
  seed : ∀ b, F.obs (.seed a b)
  decrypt : ∀ ctx, F.obs (.decrypt a ctx)
  command : ∀ cmd, F.obs (.command a cmd)
  masterKey : ∀ p k, F.obs (.masterKey p k)
  sac : ∀ p code, F.obs (.sac a p code)
  consult : ∀ p, F.obs (.consult p)
  unlockLock : F.obs .unlockLock
  lockLock : F.obs .lockLock
  createInvite : ∀ e r, F.obs (.createInvite e r)
  notification : ∀ d, F.obs (.notification d)

/-- **A command of `a` is within what a message of `a` may touch.** -/
theorem checkCommand_within_serves (h : F.Serves a) {cmd : CStr} :
    Within F (checkCommand W cmd a) :=
  checkCommand_within h.ble
    (fun _ => commandSAC_within h.key h.head h.store h.masterKey h.sac)
    (fun _ => commandDoor_within (unlockLock_within h.door h.unlockLock) h.head h.ble h.consult)
    (fun _ => commandDoor_within (lockLock_within h.door h.lockLock) h.head h.ble h.consult)
    (fun _ => commandRNI_within h.head h.ble h.consult h.createInvite)
    (fun _ => commandRFI_within h.head h.status h.createInvite)
    (fun _ => commandRUI_within h.head h.ble h.consult h.createInvite)
    (fun _ => commandSNT_within h.head h.notification)
    (fun _ => commandRDS_within h.head h.ble h.door h.lockLock)

/-- A challenge puts a new seed into the record. -/
theorem racResponse_within (hk : F.key (hashKey a)) (ho : ∀ b, F.obs (.seed a b)) :
    Within F (racResponse W a) :=
  .bind (generateRandomSeed_within hk ho) fun _ => .bind deref_within fun _ => sprintf_within

/-- A command is decrypted with the context of the record, and handled. -/
theorem commandResponse_within (h : F.Serves a) : Within F (commandResponse W a data) :=
  .bind getUserAESCtx_within fun _ => .bind (observe_within (.inr (h.decrypt _))) fun _ =>
    .bind decryptBase64AES_within fun _ => .bind (observe_within (.inr (h.command _))) fun _ =>
      .bind (checkCommand_within_serves h) fun _ => .pure _

/-- Credentials presented are tried for the record of `a`. -/
theorem credentials_within (h : F.Serves a) : Within F (retrieveSessionCredentials W data a) :=
  retrieveSessionCredentials_within h.key h.tryCredentials h.credentials

/-- **A message in a session**, in whichever state the session is. -/
theorem sessionResponse_within (h : F.Serves a) : Within F (sessionResponse W a data) :=
  .bind getUserState_within fun _ => .ite
    (fun _ => .bind (credentials_within h) fun _ => .ite
      (fun _ => .bind (racResponse_within h.key h.seed) fun _ => .bind getUserAESCtx_within
        fun _ => .pure _) fun _ => .pure _)
    fun _ => .ite (fun _ => .bind (commandResponse_within h) fun _ => .pure _) fun _ => .pure _

/-- Sealing a reply changes nothing. -/
theorem sealResponse_within {aes : AESContext} {response : Option CStr} :
    Within F (sealResponse W aes response) :=
  .bind addTimestampsAndNonceToMsg_within fun _ => encryptStrAES_within

/-- The footprint that allows everything but what is the servers' own. -/
def Footprint.all : Footprint :=
  ⟨fun _ => True, True, True, True, True, True, fun _ => True⟩

/-! ## What a message is observed to do -/

/-- The connection an observation is of. -/
def Obs.addr : Obs → Option CStr
  | connect a => some a
  | disconnect a => some a
  | message a => some a
  | tryCredentials a => some a
  | credentials a _ => some a
  | seed a _ => some a
  | sac a _ _ => some a
  | decrypt a _ => some a
  | command a _ => some a
  | reply a _ _ _ => some a
  | _ => none

/-- The beginning or the end of a connection. -/
def Obs.isConnection : Obs → Bool
  | connect _ => true
  | disconnect _ => true
  | close => true
  | _ => false

/-- The footprint of a message of `a`: no connection begins or ends, and
what is observed of one is observed of this one. -/
def talking (a : CStr) : Footprint :=
  ⟨(· = hashKey a), True, True, True, True, True,
    fun o => o.isConnection = false ∧ ∀ b, o.addr = some b → b = a⟩

/-- An observation of no connection, or of this one, that neither begins nor
ends one. -/
theorem talking_obs {o : Obs} (ho : o.isConnection = false) (ha : o.addr = none ∨ o.addr = some a) :
    (talking a).obs o := by
  refine ⟨ho, fun b hb => ?_⟩
  rcases ha with ha | ha
  · rw [ha] at hb
    cases hb
  · rw [ha] at hb
    exact (Option.some.inj hb).symm

/-- All that a message of `a` may touch is in the footprint `talking a`. -/
theorem talking_serves (a : CStr) : (talking a).Serves a where
  key := rfl
  ble := trivial
  head := trivial
  status := trivial
  store := trivial
  door := trivial
  tryCredentials := talking_obs rfl (.inr rfl)
  credentials _ := talking_obs rfl (.inr rfl)
  seed _ := talking_obs rfl (.inr rfl)
  decrypt _ := talking_obs rfl (.inr rfl)
  command _ := talking_obs rfl (.inr rfl)
  masterKey _ _ := talking_obs rfl (.inl rfl)
  sac _ _ := talking_obs rfl (.inr rfl)
  consult _ := talking_obs rfl (.inl rfl)
  unlockLock := talking_obs rfl (.inl rfl)
  lockLock := talking_obs rfl (.inl rfl)
  createInvite _ _ := talking_obs rfl (.inl rfl)
  notification _ := talking_obs rfl (.inl rfl)

end SmartLock
