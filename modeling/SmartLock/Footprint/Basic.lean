import SmartLock.Session.Table

/-!
# What the parts of the program may touch

A footprint bounds what a program changes: the records of which keys, the
observations it makes, and whether it goes near the nonce list, the cached
registration status or the stored authorizations. Whatever a program does,
its own connections, flags and addresses are left to the servers.

Each function of the program is given the smallest footprint it respects,
stated of every footprint that allows what the function does, so that the
footprint of a caller follows by the rules of `Steps`.
-/

namespace SmartLock

open Prog

/-- Observations every program may make: they say nothing about who may
do what. -/
def Obs.ambient : Obs → Bool
  | overrun _ _ => true
  | nvsErased => true
  | lockStateRead _ => true
  | _ => false

/-- What a program may touch. -/
structure Footprint where
  /-- The keys whose records may change. -/
  key : List UInt8 → Prop
  /-- The session at `current_BLE_addr` may be reset. -/
  ble : Prop
  /-- The nonce list may change. -/
  head : Prop
  /-- The cached registration status may be asked for anew. -/
  status : Prop
  /-- Authorizations may be stored, not only lost. -/
  store : Prop
  /-- The state of the door may be stored, not only lost. -/
  door : Prop
  /-- The observations that may be made, besides the ambient ones. -/
  obs : Obs → Prop

/-- What is left to the servers. -/
def Sys.servers (s : Sys) :
    CStr × CStr × Bool × CStr × Bool × Int × Bool × Bool × Bool × Bool × Bool :=
  (s.currentBLEAddr, s.addrStr, s.serving, s.bleUserAddr, s.isConnected, s.serverStatus,
    s.wifiConnected, s.serverOnline, s.gotFirstInviteSessionKeyS3, s.gotFirstInviteSessionKey,
    s.deepSleepArmed)

/-- What is left to `echo_task`: its buffer, and the literal it sends. -/
def Sys.uart (s : Sys) : CStr × CStr := (s.data, s.lokLiteral)

/-- What the reset of the BLE session does to its record. -/
def UserInfo.reset (r : UserInfo) : UserInfo := { r with state := .connecting, phoneId := [] }

/-- The log grew by observations of `P`. -/
def Grows (P : Obs → Prop) (s t : Sys) : Prop := ∃ new, t.log = new ++ s.log ∧ ∀ o ∈ new, P o

/-- Stored authorizations were lost at most. -/
def Shrinks (s t : Sys) : Prop :=
  ∀ p, t.authorizations p = s.authorizations p ∨ t.authorizations p = none

/-- The flash store was erased. -/
def Erased (s t : Sys) : Prop := ∃ new, t.log = new ++ s.log ∧ .nvsErased ∈ new

/-- The stored state of the door stands, or was lost by an erasure. -/
def Stands (s t : Sys) : Prop := t.lockState = s.lockState ∨ (Erased s t ∧ t.lockState = none)

/-- A change within a footprint. -/
structure Footprint.Rel (F : Footprint) (s t : Sys) : Prop where
  servers : t.servers = s.servers
  moment : s.moment ≤ t.moment
  user : ∀ a, ¬ F.key (hashKey a) → t.user a = s.user a ∨
    F.ble ∧ hashKey a = hashKey s.currentBLEAddr ∧ t.user a = (s.user a).map UserInfo.reset
  kept : ∀ a, (s.user a).isSome → (t.user a).isSome
  head : F.head ∨ t.head = s.head
  status : t.registrationStatus = s.registrationStatus ∨
    F.status ∧ (t.registrationStatus = unknownStatus ∨ t.registrationStatus = s.serverStatus)
  store : F.store ∨ Shrinks s t
  door : F.door ∨ Stands s t
  log : Grows (fun o => o.ambient = true ∨ F.obs o) s t
  uart : t.uart = s.uart

variable {s t u : Sys}

/-- The servers' own fields, one by one. -/
theorem Sys.currentBLEAddr_of_servers (h : t.servers = s.servers) :
    t.currentBLEAddr = s.currentBLEAddr := congrArg Prod.fst h

theorem Sys.addrStr_of_servers (h : t.servers = s.servers) : t.addrStr = s.addrStr := by
  simp only [Sys.servers, Prod.mk.injEq] at h
  exact h.2.1

theorem Sys.serving_of_servers (h : t.servers = s.servers) : t.serving = s.serving := by
  simp only [Sys.servers, Prod.mk.injEq] at h
  exact h.2.2.1

theorem Sys.bleUserAddr_of_servers (h : t.servers = s.servers) :
    t.bleUserAddr = s.bleUserAddr := by
  simp only [Sys.servers, Prod.mk.injEq] at h
  exact h.2.2.2.1

theorem Sys.isConnected_of_servers (h : t.servers = s.servers) :
    t.isConnected = s.isConnected := by
  simp only [Sys.servers, Prod.mk.injEq] at h
  exact h.2.2.2.2.1

theorem Sys.serverStatus_of_servers (h : t.servers = s.servers) :
    t.serverStatus = s.serverStatus := by
  simp only [Sys.servers, Prod.mk.injEq] at h
  exact h.2.2.2.2.2.1

theorem Sys.wifiConnected_of_servers (h : t.servers = s.servers) :
    t.wifiConnected = s.wifiConnected := by
  simp only [Sys.servers, Prod.mk.injEq] at h
  exact h.2.2.2.2.2.2.1

theorem Sys.deepSleepArmed_of_servers (h : t.servers = s.servers) :
    t.deepSleepArmed = s.deepSleepArmed := by
  simp only [Sys.servers, Prod.mk.injEq] at h
  exact h.2.2.2.2.2.2.2.2.2.2

/-- A log that stayed grew by nothing. -/
theorem Grows.of_log (P : Obs → Prop) (h : t.log = s.log) : Grows P s t := ⟨[], h, nofun⟩

theorem Grows.refl (P : Obs → Prop) (s : Sys) : Grows P s s := .of_log P rfl

/-- A log that grew by `P` grew by whatever `P` implies. -/
theorem Grows.mono {P Q : Obs → Prop} (h : Grows P s t) (hpq : ∀ o, P o → Q o) : Grows Q s t := by
  obtain ⟨new, hnew, hp⟩ := h
  exact ⟨new, hnew, fun o ho => hpq o (hp o ho)⟩

/-- What two steps observe is observed in their order. -/
theorem Grows.trans {P : Obs → Prop} (h₁ : Grows P s t) (h₂ : Grows P t u) : Grows P s u := by
  obtain ⟨n₁, hn₁, hp₁⟩ := h₁
  obtain ⟨n₂, hn₂, hp₂⟩ := h₂
  refine ⟨n₂ ++ n₁, by rw [hn₂, hn₁, List.append_assoc], fun o ho => ?_⟩
  exact (List.mem_append.1 ho).elim (hp₂ o) (hp₁ o)

theorem Shrinks.refl (s : Sys) : Shrinks s s := fun _ => .inl rfl

/-- What is lost stays lost. -/
theorem Shrinks.trans (h₁ : Shrinks s t) (h₂ : Shrinks t u) : Shrinks s u := by
  intro p
  rcases h₂ p with hp | hp
  · exact (h₁ p).imp hp.trans hp.trans
  · exact .inr hp

/-- What is still stored was stored before. -/
theorem Shrinks.of_some {p : CStr} {auth : Authorization} (h : Shrinks s t)
    (hp : t.authorizations p = some auth) : s.authorizations p = some auth := by
  rcases h p with heq | hnone
  · rw [← heq, hp]
  · rw [hp] at hnone
    cases hnone

/-- An erasure stays in the log. -/
theorem Erased.trans_suffix (h : Erased s t) (htu : t.log <:+ u.log) : Erased s u := by
  obtain ⟨new, hnew, hmem⟩ := h
  obtain ⟨new', hnew'⟩ := htu
  exact ⟨new' ++ new, by rw [← hnew', hnew, List.append_assoc], List.mem_append_right _ hmem⟩

/-- An erasure at a later step is one of the whole. -/
theorem Erased.suffix_trans (hst : s.log <:+ t.log) (h : Erased t u) : Erased s u := by
  obtain ⟨new, hnew⟩ := hst
  obtain ⟨new', hnew', hmem⟩ := h
  exact ⟨new' ++ new, by rw [hnew', ← hnew, List.append_assoc], List.mem_append_left _ hmem⟩

/-- The state of the door stands over two steps, or one of them erased it.
-/
theorem Stands.trans (h₁ : Stands s t) (h₂ : Stands t u) (hst : s.log <:+ t.log)
    (htu : t.log <:+ u.log) : Stands s u := by
  rcases h₂ with h₂ | ⟨herased, hnone⟩
  · rcases h₁ with h₁ | ⟨herased, hnone⟩
    · exact .inl (h₂.trans h₁)
    · exact .inr ⟨herased.trans_suffix htu, h₂.trans hnone⟩
  · exact .inr ⟨herased.suffix_trans hst, hnone⟩

/-- Doing nothing is within every footprint. -/
theorem Footprint.Rel.refl (F : Footprint) (s : Sys) : F.Rel s s :=
  ⟨rfl, le_rfl, fun _ _ => .inl rfl, fun _ => id, .inr rfl, .inl rfl, .inr fun _ => .inl rfl,
    .inr (.inl rfl), Grows.refl _ s, rfl⟩

/-- **Footprints compose**: a second reset of the BLE session is no more
than one, since the address it resets is the servers' own. -/
theorem Footprint.Rel.trans {F : Footprint} (h₁ : F.Rel s t) (h₂ : F.Rel t u) : F.Rel s u := by
  refine ⟨h₂.servers.trans h₁.servers, h₁.moment.trans h₂.moment, fun a hk => ?_,
    fun a ha => h₂.kept a (h₁.kept a ha), ?_, ?_, ?_, ?_, h₁.log.trans h₂.log,
    h₂.uart.trans h₁.uart⟩
  · have hcur := Sys.currentBLEAddr_of_servers h₁.servers
    rcases h₂.user a hk with h₂ | ⟨hb, ha, h₂⟩
    · rw [h₂]
      exact h₁.user a hk
    · rw [hcur] at ha
      refine .inr ⟨hb, ha, ?_⟩
      rcases h₁.user a hk with h₁ | ⟨_, _, h₁⟩
      · rw [h₂, h₁]
      -- a second reset changes nothing
      · rw [h₂, h₁, Option.map_map]
        rfl
  · rcases h₂.head with h | h
    · exact .inl h
    · exact h₁.head.imp id h.trans
  · rcases h₂.status with h | ⟨hF, h⟩
    · rw [h]
      exact h₁.status
    · rw [Sys.serverStatus_of_servers h₁.servers] at h
      exact .inr ⟨hF, h⟩
  · rcases h₁.store with h | h₁
    · exact .inl h
    · exact h₂.store.imp id h₁.trans
  · obtain ⟨n₁, hn₁, _⟩ := h₁.log
    obtain ⟨n₂, hn₂, _⟩ := h₂.log
    rcases h₁.door with h | h₁
    · exact .inl h
    · exact h₂.door.imp id fun h₂ => h₁.trans h₂ ⟨n₁, hn₁.symm⟩ ⟨n₂, hn₂.symm⟩

/-- A record the footprint does not reach is left alone. -/
theorem Footprint.Rel.user_eq {F : Footprint} {a : CStr} (h : F.Rel s t) (hk : ¬ F.key (hashKey a))
    (hb : ¬ (F.ble ∧ hashKey a = hashKey s.currentBLEAddr)) : t.user a = s.user a :=
  (h.user a hk).resolve_right fun h => hb ⟨h.1, h.2.1⟩

/-- A footprint as a frame. -/
def Footprint.frame (F : Footprint) : Frame Sys :=
  ⟨F.Rel, Footprint.Rel.refl F, Footprint.Rel.trans⟩

/-- The program stays within the footprint, whatever its outcome. -/
abbrev Within {α : Type} (F : Footprint) (m : M α) : Prop := Steps F.frame m

variable {F : Footprint} {W : World}

/-- A change of nothing the footprint speaks of but time, the records of a
key it allows, and an observation it allows. -/
theorem Footprint.Rel.of_eq (hservers : t.servers = s.servers) (hmoment : s.moment ≤ t.moment)
    (husers : t.usersInfo = s.usersInfo) (hhead : t.head = s.head)
    (hstatus : t.registrationStatus = s.registrationStatus)
    (hstore : t.authorizations = s.authorizations) (hdoor : F.door ∨ t.lockState = s.lockState)
    (hlog : t.log = s.log) (huart : t.uart = s.uart) : F.Rel s t :=
  ⟨hservers, hmoment, fun a _ => .inl (by rw [Sys.user, Sys.user, husers]),
    fun a h => by rwa [Sys.user, husers], .inr hhead, .inl hstatus,
    .inr fun p => .inl (by rw [hstore]), hdoor.imp id .inl, .of_log _ hlog, huart⟩

/-! ## `State` -/

/-- Time passes in every footprint. -/
theorem tick_within : Within F tick := fun _ =>
  .of_eq rfl (Nat.le_succ _) rfl rfl rfl rfl (.inr rfl) rfl rfl

/-- An observation takes its permission, or is ambient. -/
theorem observe_within {o : Obs} (h : o.ambient = true ∨ F.obs o) : Within F (observe o) := fun _ =>
  ⟨rfl, le_rfl, fun _ _ => .inl rfl, fun _ => id, .inr rfl, .inl rfl, .inr fun _ => .inl rfl,
    .inr (.inl rfl), ⟨[o], rfl, fun _ ho => List.mem_singleton.1 ho ▸ h⟩, rfl⟩

/-- So does one made under a condition. -/
theorem observeIf_within {c : Prop} [Decidable c] {o : Obs} (h : o.ambient = true ∨ F.obs o) :
    Within F (observeIf c o) := .ite (fun _ => observe_within h) fun _ => .pure ()

/-- A fault changes nothing. -/
theorem faultIf_within {c : Prop} [Decidable c] {e : Fault} : Within F (faultIf c e) :=
  .ite (fun _ => .fail e) fun _ => .pure ()

/-- A text too long for its block is observed, which is ambient. -/
theorem sprintf_within {n : ℕ} {text : CStr} : Within F (sprintf n text) :=
  .bind (observeIf_within (.inl rfl)) fun _ => .pure text

/-- Following a pointer changes nothing, null or not. -/
theorem deref_within {α : Type} {p : Option α} : Within F (deref p) := by
  cases p with
  | none => exact .fail _
  | some a => exact .pure a

/-! ## `user_info.c` -/

variable {a : CStr}

/-- A record is added under the key it is looked up by. -/
theorem findOrAdd_within (hk : F.key (hashKey a)) : Within F (findOrAdd W a) := by
  refine .bind .get fun s₀ => .ite (fun hs => ?_) fun _ => .pure ()
  refine .bind tick_within fun t => .bind faultIf_within fun _ => .modify fun s => ?_
  refine ⟨rfl, le_rfl, fun b hb => .inl (user_addUser_of_ne fun h => hb ?_),
    fun _ => isSome_user_addUser, .inr rfl, .inl rfl, .inr fun _ => .inl rfl,
    .inr (.inl rfl), Grows.refl _ s, rfl⟩
  rwa [show hashKey b = hashKey a from h]

/-- A record that keeps its address keeps its key. -/
theorem writeUser_within {g : UserInfo → UserInfo} (hg : ∀ r, (g r).userIp = r.userIp)
    (hk : F.key (hashKey a)) : Within F (writeUser a g) := by
  refine .modify fun s => ?_
  have hkey (r : UserInfo) : UserInfo.key (g r) = UserInfo.key r := by
    rw [UserInfo.key, UserInfo.key, hg]
  exact ⟨rfl, le_rfl, fun b hb => .inl (Keyed.lookup_update_of_ne hkey (fun h => hb (by rwa [h])) _),
    fun _ => isSome_user_updateUser hg, .inr rfl, .inl rfl, .inr fun _ => .inl rfl,
    .inr (.inl rfl), Grows.refl _ s, rfl⟩

/-- `set_user_state` writes the record of its address. -/
theorem setUserState_within {state : UserState} {phone : CStr} (hk : F.key (hashKey a)) :
    Within F (setUserState W a state phone) :=
  .bind (findOrAdd_within hk) fun _ => .bind (writeUser_within (fun _ => rfl) hk) fun _ =>
    .bind faultIf_within fun _ => writeUser_within (fun _ => rfl) hk

/-- What writes records, and observes nothing. -/
def writing : Footprint := ⟨fun _ => True, False, False, False, False, False, fun _ => False⟩

/-- What writes records makes ambient observations at most. -/
theorem writing_log (h : writing.Rel s t) : Grows (fun o => o.ambient = true) s t :=
  h.log.mono fun _ ho => ho.resolve_right id

theorem setUserState_writes {state : UserState} {phone : CStr}
    (h : (setUserState W a state phone).run s = (.ok (), t)) : writing.Rel s t :=
  (setUserState_within trivial).of_ok h

/-- A new seed is observed with the address it is for. -/
theorem generateRandomSeed_within (hk : F.key (hashKey a)) (ho : ∀ b, F.obs (.seed a b)) :
    Within F (generateRandomSeed W a) :=
  .bind (findOrAdd_within hk) fun _ => .bind tick_within fun _ =>
    .bind (writeUser_within (fun _ => rfl) hk) fun _ =>
      .bind (observe_within (.inr (ho _))) fun _ => .pure _

/-- `set_AES_ctx` writes the record of its address. -/
theorem setAESCtx_within {ctx : AESContext} (hk : F.key (hashKey a)) :
    Within F (setAESCtx W a ctx) :=
  .bind (findOrAdd_within hk) fun _ => writeUser_within (fun _ => rfl) hk

/-- Looking a record up changes nothing, also where there is none. -/
theorem derefUser_within : Within F (derefUser a) := by
  refine .bind .get fun s => ?_
  cases s.user a with
  | none => exact .fail _
  | some r => exact .pure r

/-- The getters read. -/
theorem getUserState_within : Within F (getUserState a) := .bind derefUser_within fun _ => .pure _

theorem getPhoneId_within : Within F (getPhoneId a) := .bind derefUser_within fun _ => .pure _

theorem getUserSeed_within : Within F (getUserSeed a) := .bind derefUser_within fun _ => .pure _

theorem getUserAESCtx_within : Within F (getUserAESCtx a) := .bind derefUser_within fun _ => .pure _

/-- What writes the record of one key, and observes nothing. -/
def writingAt (k : List UInt8) : Footprint :=
  ⟨(· = k), False, False, False, False, False, fun _ => False⟩

/-- **The reset of the BLE session** resets its record, or there is
none. -/
theorem setBLEUserStateToConnecting_within (hb : F.ble) :
    Within F (setBLEUserStateToConnecting W) := by
  intro s
  rw [setBLEUserStateToConnecting, run_get_bind]
  by_cases hc : s.currentBLEAddr ≠ [] ∧ s.user s.currentBLEAddr ≠ none
  · obtain ⟨x, hx⟩ := Option.ne_none_iff_exists'.1 hc.2
    obtain ⟨s', hrun⟩ := setUserState_returns_of_some (W := W) hx .connecting []
      (by decide : 0 < 16)
    have hwrote := setUserState_ok hrun
    have hat : (writingAt (hashKey s.currentBLEAddr)).Rel s s' :=
      (setUserState_within rfl).of_ok hrun
    obtain ⟨new, hnew, hp⟩ := hat.log
    rw [if_pos hc, hrun]
    refine ⟨hat.servers, hat.moment, fun a _ => ?_, hat.kept, .inr (hat.head.resolve_left id),
      .inl (hat.status.resolve_right fun h => h.1), .inr (hat.store.resolve_left id),
      .inr (hat.door.resolve_left id),
      ⟨new, hnew, fun o ho => .inl ((hp o ho).resolve_right id)⟩, hat.uart⟩
    by_cases ha : hashKey a = hashKey s.currentBLEAddr
    · refine .inr ⟨hb, ha, ?_⟩
      rw [Sys.user_congr ha, hwrote.of_some hx, Sys.user_congr ha, hx]
      rfl
    · exact .inl (hwrote.others a ha)
  · rw [if_neg hc]
    exact Footprint.Rel.refl F s

/-! ## `nonce.c` and `time_util.c` -/

/-- Reading the clock takes time only. -/
theorem getNowTimestamp_within : Within F (getNowTimestamp W) := .bind tick_within fun _ => .pure _

theorem getTodayTimestamp_within : Within F (getTodayTimestamp W) :=
  .bind getNowTimestamp_within fun _ => .pure _

theorem getTodayWeekday_within : Within F (getTodayWeekday W) :=
  .bind getTodayTimestamp_within fun _ => .pure _

/-- Re-pointing `head` is no more than that. -/
theorem Footprint.Rel.setHead (hh : F.head) (l : List Nonce) : F.Rel s (s.setHead l) :=
  ⟨rfl, le_rfl, fun _ _ => .inl rfl, fun _ => id, .inl hh, .inl rfl, .inr fun _ => .inl rfl,
    .inr (.inl rfl), Grows.refl _ s, rfl⟩

/-- `checkNonce` re-points `head`, also where its verdict is no. -/
theorem checkNonce_within {nonce : Int} (hh : F.head) : Within F (checkNonce W nonce) :=
  .bind getNowTimestamp_within fun _ => .bind .get fun _ =>
    .bind (.modify fun _ => .setHead hh _) fun _ => .pure _

/-- `addNonceSorted` re-points `head`. -/
theorem addNonceSorted_within {nonce expires : Int} (hh : F.head) :
    Within F (addNonceSorted nonce expires) := .modify fun _ => .setHead hh _

/-- Stamping a message leaves the nonce list alone. -/
theorem addTimestampsAndNonceToMsg_within {msg : Option CStr} :
    Within F (addTimestampsAndNonceToMsg W msg) := by
  refine .bind getNowTimestamp_within fun _ => .bind sprintf_within fun _ =>
    .bind sprintf_within fun _ => .bind tick_within fun _ => .bind sprintf_within fun _ => ?_
  cases msg with
  | none => exact .fail _
  | some msg => exact sprintf_within

/-! ## `PKCS7.c`, `aes_util.c`, `rsa_util.c` -/

/-- Reading behind a block changes nothing: what is read depends on the
moment. -/
theorem readBytes_within {buf : List UInt8} {n : ℕ} : Within F (readBytes W buf n) :=
  .bind tick_within fun _ => .pure _

/-- The padding is taken off a copy. -/
theorem removePadding_within {data : List UInt8} : Within F (removePadding W data) :=
  .bind deref_within fun _ => .bind faultIf_within fun _ => .bind faultIf_within fun _ => .pure _

/-- A context is made, not stored. -/
theorem initAES_within {key256 : Option (List UInt8)} : Within F (initAES W key256) :=
  .bind deref_within fun _ => .bind readBytes_within fun _ => .pure _

/-- Decryption works on blocks of its own. -/
theorem decryptAES_within {ctx : AESContext} {chipertext iv : List UInt8} :
    Within F (decryptAES W ctx chipertext iv) :=
  .bind readBytes_within fun _ => .bind readBytes_within fun _ => removePadding_within

/-- So does encryption. -/
theorem encryptStrAES_within {ctx : AESContext} {plaintext : CStr} :
    Within F (encryptStrAES W ctx plaintext) :=
  .bind tick_within fun _ => .bind deref_within fun _ => .bind deref_within fun _ => sprintf_within

/-- So does decryption of two base64 words. -/
theorem decryptBase64AES_within {ctx : AESContext} {data : CStr} :
    Within F (decryptBase64AES W ctx data) :=
  .bind deref_within fun _ => .bind deref_within fun _ => .bind deref_within fun _ =>
    .bind deref_within fun _ => .bind decryptAES_within fun _ => .pure _

/-- And decryption with the key of the lock. -/
theorem decryptBase64RSA_within {data : CStr} : Within F (decryptBase64RSA W data) :=
  .bind deref_within fun _ => .bind readBytes_within fun _ => .bind deref_within fun _ => .pure _

/-- An HMAC changes nothing, computed or not. -/
theorem genHmac32_within {key : Vector UInt8 32} {seed : Option (Vector UInt8 10)} :
    Within F (genHmac32 W key seed) := by
  refine .bind tick_within fun _ => .ite (fun _ => .pure _) fun _ => ?_
  cases seed with
  | none => exact .fail _
  | some bytes => exact .pure _

/-! ## `nvs_util.c` and `lock_status.c` -/

/-- A call of the driver does what it does, or fails and does nothing. -/
theorem nvsCall_within {f : Sys → Sys} (h : ∀ s, F.Rel s (f s)) : Within F (nvsCall W f) := by
  refine .bind tick_within fun t => ?_
  cases W.nvsError t with
  | some e => exact .pure _
  | none => exact .bind (.modify h) fun _ => .pure _

/-- `ESP_ERROR_CHECK` goes on or ends the program. -/
theorem espErrorCheck_within {err : Int} : Within F (espErrorCheck err) :=
  .ite (fun _ => .pure ()) fun _ => .fail _

/-- An erasure loses every authorization. -/
theorem nvsFlashErase_within : Within F (nvsFlashErase W) := by
  intro s
  rw [nvsFlashErase, nvsCall, run_bind_bind, run_tick_bind]
  rcases he : W.nvsError s.moment with _ | e
  · exact ⟨rfl, Nat.le_succ _, fun _ _ => .inl rfl, fun _ => id, .inr rfl, .inl rfl,
      .inr fun _ => .inr rfl, .inr (.inr ⟨⟨[.nvsErased], rfl, List.mem_singleton_self _⟩, rfl⟩),
      ⟨[.nvsErased], rfl, fun o ho => by rw [List.mem_singleton.1 ho]; exact .inl rfl⟩, rfl⟩
  · simp only [pure_bind, observeIf, if_neg e.ne_ok]
    exact .of_eq rfl (Nat.le_succ _) rfl rfl rfl rfl (.inr rfl) rfl rfl

/-- Reading a blob stores none. -/
theorem nvsGetBlob_within {key : CStr} : Within F (nvsGetBlob W key) := by
  refine .bind tick_within fun t => ?_
  cases W.nvsError t with
  | some e => exact .pure _
  | none =>
    refine .bind .get fun s => .ite (fun _ => .pure _) fun _ => ?_
    cases s.authorizations key with
    | none => exact .pure _
    | some auth => exact .pure _

/-- Storing an authorization takes a footprint that allows it. -/
theorem nvsSetBlob_within {key : CStr} {auth : Authorization} (hst : F.store) :
    Within F (nvsSetBlob W key auth) :=
  .ite (fun _ => .pure _) fun _ => nvsCall_within fun s =>
    ⟨rfl, le_rfl, fun _ _ => .inl rfl, fun _ => id, .inr rfl, .inl rfl, .inl hst, .inr (.inl rfl),
      Grows.refl _ s, rfl⟩

/-- Reading the state of the door is observed, which is ambient. -/
theorem nvsGetLockState_within : Within F (nvsGetLockState W) := by
  refine .bind tick_within fun t => ?_
  cases W.nvsError t with
  | some e => exact .pure _
  | none =>
    refine .bind .get fun s => .bind (observe_within (.inl rfl)) fun _ => ?_
    cases s.lockState with
    | none => exact .pure _
    | some v => exact .pure _

theorem nvsInit_within : Within F (nvsCall W id) := nvsCall_within fun s => Footprint.Rel.refl F s

/-- Opening the flash store may erase it, which every footprint allows. -/
theorem initNvs_within : Within F (initNvs W) := by
  refine .bind nvsInit_within fun _ => .ite (fun _ => ?_) fun _ =>
    .bind espErrorCheck_within fun _ => .pure _
  exact .bind nvsFlashErase_within fun _ => .bind espErrorCheck_within fun _ =>
    .bind nvsInit_within fun _ => .bind espErrorCheck_within fun _ => .pure _

/-- A handle opened is in no field of a footprint. -/
theorem openNvs_within : Within F (openNvs W) :=
  nvsCall_within fun _ => .of_eq rfl le_rfl rfl rfl rfl rfl (.inr rfl) rfl rfl

/-- Nor is one closed. -/
theorem nvsClose_within : Within F nvsClose :=
  .modify fun _ => .of_eq rfl le_rfl rfl rfl rfl rfl (.inr rfl) rfl rfl

theorem initAndOpen_within : Within F (initAndOpen W) :=
  .bind initNvs_within fun _ => .ite (fun _ => .pure _) fun _ => openNvs_within

/-- Reading an authorization stores none, though it may erase the store. -/
theorem getAuthorization_within {phone : CStr} {auth : Authorization} :
    Within F (getAuthorization W phone auth) :=
  .bind initAndOpen_within fun _ => .ite (fun _ => .pure _) fun _ =>
    .bind nvsGetBlob_within fun _ => .ite (fun _ => .pure _) fun _ => .ite (fun _ => .pure _) fun _ =>
      .bind nvsGetBlob_within fun _ => .ite (fun _ => .pure _) fun _ => .pure _

/-- What is written between opening and closing says what is needed. -/
theorem nvsStore_within {write : M Int} (h : Within F write) : Within F (nvsStore W write) :=
  .bind initAndOpen_within fun _ => .ite (fun _ => .pure _) fun _ =>
    .bind h fun _ => .ite (fun _ => .pure _) fun _ =>
      .bind nvsInit_within fun _ => .ite (fun _ => .pure _) fun _ =>
        .bind nvsClose_within fun _ => .pure _

/-- Storing an authorization takes a footprint that allows it. -/
theorem setAuthorization_within {auth : Authorization} (hst : F.store) :
    Within F (setAuthorization W auth) := nvsStore_within (nvsSetBlob_within hst)

/-- Storing the state of the door takes a footprint that allows it. -/
theorem setLockState_within {v : Int} (hd : F.door) : Within F (setLockState W v) :=
  nvsStore_within (nvsCall_within fun _ => .of_eq rfl le_rfl rfl rfl rfl rfl (.inl hd) rfl rfl)

/-- Locking the door is stored and observed. -/
theorem lockLock_within (hd : F.door) (ho : F.obs .lockLock) : Within F (lockLock W) :=
  .bind (setLockState_within hd) fun _ => observe_within (.inr ho)

/-- Unlocking the door is stored and observed. -/
theorem unlockLock_within (hd : F.door) (ho : F.obs .unlockLock) : Within F (unlockLock W) :=
  .bind (setLockState_within hd) fun _ => observe_within (.inr ho)

/-- Reading the state of the door locks it where none is stored. -/
theorem getLockState_within (hd : F.door) (ho : F.obs .lockLock) : Within F (getLockState W) :=
  .bind initAndOpen_within fun _ => .ite (fun _ => .pure _) fun _ =>
    .bind nvsGetLockState_within fun _ => .ite
      (fun _ => .bind (lockLock_within hd ho) fun _ => .pure _) fun _ => .pure _

/-! ## `database_util.c`, `authorization.c` and `utils.c` -/

/-- The server is asked for an invite, whatever it answers. -/
theorem createInvite_within {expiration : Int} {r : InviteRequest}
    (ho : ∀ e, F.obs (.createInvite e r)) : Within F (createInvite W expiration r) := by
  refine .bind (observe_within (.inr (ho _))) fun _ => .bind tick_within fun t => ?_
  cases W.inviteReply t (inviteJson W expiration r) with
  | failed => exact .pure _
  | body d => exact .pure _

/-- What the server answers is stored once its key is decrypted. -/
theorem getAuthorizationDb_within {phone : CStr} {auth : Authorization} (hst : F.store) :
    Within F (getAuthorizationDb W phone auth) := by
  refine .bind tick_within fun t => ?_
  cases W.authReply t phone with
  | failed => exact .pure _
  | body d =>
    refine .ite (fun _ => .pure _) fun _ => .bind deref_within fun _ => .bind faultIf_within fun _ =>
      .bind deref_within fun _ => .bind decryptBase64RSA_within fun _ => .bind deref_within fun _ =>
        .bind faultIf_within fun _ => ?_
    dsimp only
    split
    · exact .fail _
    · exact .bind (setAuthorization_within hst) fun _ => .pure _

/-- An authorization that is not in the store is fetched and stored. -/
theorem findAuthorization_within {phone : CStr} (hst : F.store) :
    Within F (findAuthorization W phone) := by
  refine .bind tick_within fun _ => .bind getAuthorization_within fun ⟨err, auth⟩ => ?_
  cases auth with
  | none => exact .fail _
  | some auth =>
    exact .ite (fun _ => .pure _) fun _ => .bind (getAuthorizationDb_within hst) fun _ => .pure _

/-- The master key a code is checked with is observed. -/
theorem checkAuthorizationCode_within {phone code : CStr} {seed : Option (Vector UInt8 10)}
    (hst : F.store) (ho : ∀ k, F.obs (.masterKey phone k)) :
    Within F (checkAuthorizationCode W phone code seed) := by
  refine .bind (findAuthorization_within hst) fun auth => ?_
  cases auth with
  | none => exact .pure _
  | some auth =>
    refine .bind (observe_within (.inr (ho _))) fun _ => .bind genHmac32_within fun hmac => ?_
    cases hmac with
    | none => exact .pure _
    | some hmac => exact .bind deref_within fun _ => .pure _

/-- The cache is filled with what the server answers, if it answers. -/
theorem getRegistrationStatus_within (hst : F.status) : Within F (getRegistrationStatus W) := by
  intro s
  rw [getRegistrationStatus, run_get_bind]
  by_cases hs : s.registrationStatus = unknownStatus
  · rw [if_pos hs]
    refine ⟨rfl, Nat.le_succ _, fun _ _ => .inl rfl, fun _ => id, .inr rfl, .inr ⟨hst, ?_⟩,
      .inr fun _ => .inl rfl, .inr (.inl rfl), Grows.refl _ s, rfl⟩
    show (if W.statusAnswered s.moment then s.serverStatus else unknownStatus) = unknownStatus ∨
      (if W.statusAnswered s.moment then s.serverStatus else unknownStatus) = s.serverStatus
    split
    · exact .inr rfl
    · exact .inl rfl
  · rw [if_neg hs]
    exact Footprint.Rel.refl F s

/-- The cache is emptied and filled again. -/
theorem forceGetRegistrationStatus_within (hst : F.status) :
    Within F (forceGetRegistrationStatus W) :=
  .bind (.modify fun s => ⟨rfl, le_rfl, fun _ _ => .inl rfl, fun _ => id, .inr rfl,
    .inr ⟨hst, .inl rfl⟩, .inr fun _ => .inl rfl, .inr (.inl rfl), Grows.refl _ s, rfl⟩) fun _ =>
      getRegistrationStatus_within hst

theorem getDefaultExpirationTimestamp_within : Within F (getDefaultExpirationTimestamp W) :=
  .bind getNowTimestamp_within fun _ => .pure _

/-- **Credentials write the record of the address they came from**, and both
the try and its success are observed. -/
theorem retrieveSessionCredentials_within {cred : CStr} (hk : F.key (hashKey a))
    (htry : F.obs (.tryCredentials a)) (ho : ∀ ctx, F.obs (.credentials a ctx)) :
    Within F (retrieveSessionCredentials W cred a) :=
  .bind (observe_within (.inr htry)) fun _ => .bind decryptBase64RSA_within fun _ =>
    .bind deref_within fun _ => .ite (fun _ => .pure _) fun _ => .bind deref_within fun _ =>
      .bind initAES_within fun _ => .bind (setAESCtx_within hk) fun _ =>
        .bind (setUserState_within hk) fun _ => .bind (observe_within (.inr (ho _))) fun _ => .pure _

end SmartLock
