import SmartLock.Crypto.RoundTrip
import SmartLock.Handler.Weekdays

/-!
# An authorization that is found

`check_authorization_code` looks for the authorization of a phone in the
flash store, and where there is none asks the server, whose answer it
stores. With a flash driver that does not fail it finds what either has,
and a code made with the master key of that is accepted.
-/

namespace SmartLock

open Prog

variable {W : World} {a p phone : CStr} {s t u : Sys} {auth auth' : Authorization} {d : AuthData}
variable {key : Vector UInt8 32} {ctx : AESContext} {text : CStr}

/-! ## The outside -/

/-- The outside works: the flash driver and HMAC do not fail, and AES
decrypts what it encrypted. -/
structure World.Works (W : World) : Prop where
  nvs : ∀ m, W.nvsError m = none
  hmac : ∀ m, W.hmacFails m = false
  cipher : CipherInverts W

variable (W) in
/-- The server answers for the phone: it gives this master key, encrypted
for the lock. -/
structure Vouches (phone : CStr) (key : Vector UInt8 32) (d : AuthData) : Prop where
  success : d.success = true
  phone : d.phoneId = some phone
  masterKey : ∃ encrypted block text, d.masterKeyEncryptedLock = some encrypted ∧
    base64Decode encrypted = some block ∧ block.length = keySizeBytesRSA ∧
    W.rsaDecrypt block = some text ∧ base64Decode (cstr text) = some key.toList
  weekdays : ∀ day ∈ d.weekdays, 1 ≤ day ∧ day ≤ 7

variable (W) in
/-- The phone has an authorization with this master key: in the store, or
else at the server, whenever it is asked. -/
inductive Vouched (phone : CStr) (key : Vector UInt8 32) (s : Sys) : Prop
  | stored {auth : Authorization} (h : stored phone s = some auth) (hkey : auth.masterKey = key)
  | granted (hnone : s.authorizations phone = none) (hlen : phone.length < 16)
    (hnul : (0 : UInt8) ∉ phone)
    (h : ∀ m, ∃ d, W.authReply m phone = .body d ∧ Vouches W phone key d)

/-! ## The flash store -/

/-- The flash store is left alone. -/
def storeKept : Frame Sys where
  rel s t := t.authorizations = s.authorizations ∧ t.lockState = s.lockState
  refl _ := ⟨rfl, rfl⟩
  trans h₁ h₂ := ⟨h₂.1.trans h₁.1, h₂.2.trans h₁.2⟩

theorem storeKept_tick : Steps storeKept tick := fun _ => ⟨rfl, rfl⟩

theorem storeKept_sprintf {n : ℕ} : Steps storeKept (sprintf n text) :=
  .bind (.ite (fun _ => .modify fun _ => ⟨rfl, rfl⟩) fun _ => .pure _) fun _ => .pure _

theorem storeKept_deref {α : Type} {x : Option α} : Steps storeKept (deref x) := by
  cases x with
  | none => exact .fail _
  | some x => exact .pure x

theorem storeKept_sealResponse {response : Option CStr} :
    Steps storeKept (sealResponse W ctx response) := by
  have hstamp : Steps storeKept (addTimestampsAndNonceToMsg W response) := by
    refine .bind (.bind storeKept_tick fun _ => .pure _) fun _ => .bind storeKept_sprintf fun _ =>
      .bind storeKept_sprintf fun _ => .bind storeKept_tick fun _ =>
        .bind storeKept_sprintf fun _ => ?_
    cases response with
    | none => exact .fail _
    | some text => exact storeKept_sprintf
  exact .bind hstamp fun _ => .bind storeKept_tick fun _ => .bind storeKept_deref fun _ =>
    .bind storeKept_deref fun _ => storeKept_sprintf

theorem storeKept_setUserState {state : UserState} {phone : CStr} :
    Steps storeKept (setUserState W a state phone) := by
  have hadd : Steps storeKept (findOrAdd W a) :=
    .bind .get fun _ => .ite (fun _ => .bind storeKept_tick fun _ =>
      .bind (.ite (fun _ => .fail _) fun _ => .pure _) fun _ => .modify fun _ => ⟨rfl, rfl⟩)
      fun _ => .pure _
  exact .bind hadd fun _ => .bind (.modify fun _ => ⟨rfl, rfl⟩) fun _ =>
    .bind (.ite (fun _ => .fail _) fun _ => .pure _) fun _ => .modify fun _ => ⟨rfl, rfl⟩


theorem storeKept_decryptBase64AES {data : CStr} :
    Steps storeKept (decryptBase64AES W ctx data) := by
  have hremove {data : List UInt8} : Steps storeKept (removePadding W data) :=
    .bind storeKept_deref fun _ => .bind (.ite (fun _ => .fail _) fun _ => .pure _) fun _ =>
      .bind (.ite (fun _ => .fail _) fun _ => .pure _) fun _ => .pure _
  have hread {buf : List UInt8} {n : ℕ} : Steps storeKept (readBytes W buf n) :=
    .bind storeKept_tick fun _ => .pure _
  exact .bind storeKept_deref fun _ => .bind storeKept_deref fun _ => .bind storeKept_deref fun _ =>
    .bind storeKept_deref fun _ => .bind (.bind hread fun _ => .bind hread fun _ => hremove)
      fun _ => .pure _

/-- The store opens, and nothing in it changes. -/
theorem initAndOpen_works (hW : W.Works) :
    ∃ s', (initAndOpen W).run s = (.ok espOk, s') ∧ storeKept.rel s s' := by
  have hinit : (initNvs W).run s = (.ok espOk, s.ticked) := by
    rw [initNvs, run_bind_ok (nvsCall_run hW.nvs id), if_neg (by decide)]
    rfl
  rw [initAndOpen, run_bind_ok hinit, if_neg (by decide), openNvs, nvsCall_run hW.nvs]
  exact ⟨_, rfl, rfl, rfl⟩

/-- What is stored is read. -/
theorem getAuthorization_found (hW : W.Works) (h : stored p s = some auth)
    (block : Authorization) : ∃ s', (getAuthorization W p block).run s =
      (.ok (espOk, some auth), s') ∧ storeKept.rel s s' := by
  obtain ⟨s₁, hopen, hkept⟩ := initAndOpen_works (s := s) hW
  rw [stored] at h
  split_ifs at h with hlen
  have hblob (t : Sys) (ht : t.authorizations = s.authorizations) :
      (nvsGetBlob W p).run t = (.ok (espOk, some auth), t.ticked) := by
    rw [nvsGetBlob, run_tick_bind, hW.nvs]
    simp only [run_get_bind, if_neg hlen, Sys.ticked, ht, h]
    rfl
  rw [getAuthorization, run_bind_ok hopen, if_neg (by decide), run_bind_ok (hblob s₁ hkept.1)]
  dsimp only
  rw [if_neg (by decide), if_neg (Option.some_ne_none auth),
    run_bind_ok (hblob s₁.ticked hkept.1)]
  exact ⟨_, rfl, hkept⟩

/-- Where nothing is stored, nothing is read, and the block is left. -/
theorem getAuthorization_missing (hW : W.Works) (hlen : p.length < 16)
    (h : s.authorizations p = none) (block : Authorization) : ∃ s',
      (getAuthorization W p block).run s = (.ok (espErrNvsNotFound, some block), s') ∧
        storeKept.rel s s' := by
  obtain ⟨s₁, hopen, hkept⟩ := initAndOpen_works (s := s) hW
  have hblob : (nvsGetBlob W p).run s₁ = (.ok (espErrNvsNotFound, none), s₁.ticked) := by
    have hfits : ¬ nvsKeyMax < p.length := by
      rw [nvsKeyMax]
      omega
    rw [nvsGetBlob, run_tick_bind, hW.nvs]
    simp only [run_get_bind, if_neg hfits, Sys.ticked, hkept.1, h]
    rfl
  rw [getAuthorization, run_bind_ok hopen, if_neg (by decide), run_bind_ok hblob]
  dsimp only
  rw [if_neg (by decide), if_pos rfl]
  exact ⟨_, rfl, hkept⟩

theorem storedAuthorization_found (hW : W.Works) (h : stored p s = some auth) : ∃ s',
    (storedAuthorization W p).run s = (.ok (some auth), s') ∧ storeKept.rel s s' := by
  obtain ⟨s', hrun, hkept⟩ := getAuthorization_found (s := s.ticked) hW h
    (W.freshAuthorization s.moment)
  rw [storedAuthorization, run_tick_bind, run_bind_ok hrun]
  exact ⟨s', rfl, hkept⟩

/-- What is to be stored is stored. -/
theorem setAuthorization_works (hW : W.Works) (auth : Authorization)
    (hlen : auth.phone.length ≤ nvsKeyMax) : ∃ s',
    (setAuthorization W auth).run s = (.ok espOk, s') ∧
      s'.authorizations = Function.update s.authorizations auth.phone (some auth) := by
  obtain ⟨s₁, hopen, hkept⟩ := initAndOpen_works (s := s) hW
  rw [setAuthorization, nvsStore, run_bind_ok hopen, if_neg (by decide), nvsSetBlob,
    if_neg (by omega), run_bind_ok (nvsCall_run hW.nvs _), if_neg (by decide),
    run_bind_ok (nvsCall_run hW.nvs _), if_neg (by decide)]
  refine ⟨_, rfl, ?_⟩
  rw [← hkept.1]
  rfl

/-! ## The answer of the server -/

theorem phone_strcpyPhone (buf : Vector UInt8 16) (hlen : phone.length < 16)
    (hnul : (0 : UInt8) ∉ phone) : cstr (strcpyPhone buf phone).toList = phone := by
  have hprefix : phone ++ [0] <+: (strcpyPhone buf phone).toList := by
    refine List.prefix_iff_getElem?.2 fun i hi => ?_
    have hi : i ≤ phone.length := by simpa using Nat.lt_succ_iff.1 (by simpa using hi)
    have hi' : i < 16 := by omega
    simp only [strcpyPhone, Vector.getElem?_toList]
    rcases hi.lt_or_eq with h | rfl
    · simp [hi', h]
    · simp [hi']
  obtain ⟨rest, hrest⟩ := hprefix
  rw [← hrest, List.append_assoc, cstr_append hnul]
  exact List.append_nil phone

theorem memcpyKey_eq (buf : Vector UInt8 32) : memcpyKey buf key.toList = key := by
  ext i hi
  simp [memcpyKey]

/-- A day of the week is stored among the weekdays. -/
theorem storeWeekdays_keeps {days : List Int} (hdays : ∀ day ∈ days, 1 ≤ day ∧ day ≤ 7) :
    ∀ {auth : Authorization}, storeWeekdays auth days = some auth' →
      auth'.phoneId = auth.phoneId ∧ auth'.masterKey = auth.masterKey := by
  induction days with
  | nil =>
    intro auth h
    cases h
    exact ⟨rfl, rfl⟩
  | cons day days ih =>
    intro auth h
    have hday := hdays day (List.mem_cons_self ..)
    rw [storeWeekdays] at h
    unfold Authorization.storeWeekday at h
    rw [if_neg (by omega), dif_neg (by omega), if_neg (by omega), dif_neg (by omega),
      dif_pos (by omega)] at h
    dsimp only at h
    obtain ⟨hphone, hkey⟩ := ih (fun day' hmem => hdays day' (List.mem_cons_of_mem _ hmem)) h
    exact ⟨hphone, hkey⟩

theorem fillValidity_keeps (hdays : ∀ day ∈ d.weekdays, 1 ≤ day ∧ day ≤ 7)
    (h : fillValidity d auth = some auth') :
    auth'.phoneId = auth.phoneId ∧ auth'.masterKey = auth.masterKey := by
  rw [fillValidity] at h
  split at h
  · obtain ⟨filled, hfilled, rfl⟩ := Option.map_eq_some_iff.1 h
    obtain ⟨hphone, hkey⟩ := storeWeekdays_keeps hdays hfilled
    exact ⟨hphone, hkey⟩
  · cases h
    exact ⟨rfl, rfl⟩
  · cases h
    exact ⟨rfl, rfl⟩
  · cases h
    exact ⟨rfl, rfl⟩

/-- **What the server vouches for is stored**, and returned. -/
theorem getAuthorizationDb_vouched (hW : W.Works) (hlen : phone.length < 16)
    (hnul : (0 : UInt8) ∉ phone) (hreply : W.authReply s.moment phone = .body d)
    (h : Vouches W phone key d) (block : Authorization) : ∃ auth s',
      (getAuthorizationDb W phone block).run s = (.ok (espOk, auth), s') ∧
        auth.masterKey = key ∧ s'.authorizations phone = some auth := by
  obtain ⟨encrypted, enc, text, hencrypted, henc, hsize, htext, hkey⟩ := h.masterKey
  obtain ⟨auth, hfill⟩ := fillValidity_isSome h.weekdays { block with
    phoneId := strcpyPhone block.phoneId phone
    userType := d.type
    masterKey := memcpyKey block.masterKey key.toList }
  have hfilled : (fillAuthorization W d block).run s.ticked = (.ok auth, s.ticked.ticked) := by
    rw [fillAuthorization, run_bind_ok (deref_ok.2 ⟨h.phone, rfl⟩),
      run_bind_ok (run_faultIf_of_not (by omega) _ _), run_bind_ok (deref_ok.2 ⟨hencrypted, rfl⟩),
      run_bind_ok (decryptBase64RSA_run henc hsize htext), run_bind_ok (deref_ok.2 ⟨hkey, rfl⟩),
      run_bind_ok (run_faultIf_of_not (by simp) _ _)]
    simp only [hfill]
    rfl
  obtain ⟨hphoneId, hmasterKey⟩ := fillValidity_keeps h.weekdays hfill
  have hphone : auth.phone = phone := by
    rw [Authorization.phone, hphoneId]
    exact phone_strcpyPhone _ hlen hnul
  obtain ⟨s', hset, hstored⟩ := setAuthorization_works (s := s.ticked.ticked) hW auth (by
    rw [hphone, nvsKeyMax]
    omega)
  refine ⟨auth, s', ?_, hmasterKey.trans (memcpyKey_eq _), ?_⟩
  · rw [getAuthorizationDb_run hreply h.success, run_bind_ok hfilled, run_bind_ok hset]
    rfl
  · rw [hstored, hphone, Function.update_self]

/-! ## The code -/

theorem Vouched.congr (h : Vouched W phone key s) (ht : t.authorizations = s.authorizations) :
    Vouched W phone key t := by
  cases h with
  | stored h hkey => exact .stored (by rw [SmartLock.stored, ht]; exact h) hkey
  | granted hnone hlen hnul h => exact .granted (by rw [ht]; exact hnone) hlen hnul h

/-- **What is vouched for is found**, and then is in the store. -/
theorem findAuthorization_vouched (hW : W.Works) (h : Vouched W phone key s) : ∃ auth s',
    (findAuthorization W phone).run s = (.ok (some auth), s') ∧ auth.masterKey = key ∧
      stored phone s' = some auth := by
  cases h with
  | @stored auth h hkey =>
    obtain ⟨s', hrun, hkept⟩ := getAuthorization_found (s := s.ticked) hW h
      (W.freshAuthorization s.moment)
    refine ⟨auth, s', ?_, hkey, ?_⟩
    · rw [findAuthorization, run_tick_bind, run_bind_ok hrun]
      rfl
    · rw [SmartLock.stored, hkept.1]
      exact h
  | granted hnone hlen hnul h =>
    obtain ⟨s₁, hrun, hkept⟩ := getAuthorization_missing (s := s.ticked) hW hlen hnone
      (W.freshAuthorization s.moment)
    obtain ⟨d, hreply, hd⟩ := h s₁.moment
    obtain ⟨auth, s', hdb, hkey, hstored⟩ :=
      getAuthorizationDb_vouched hW hlen hnul hreply hd (W.freshAuthorization s.moment)
    refine ⟨auth, s', ?_, hkey, ?_⟩
    · rw [findAuthorization, run_tick_bind, run_bind_ok hrun]
      dsimp only
      rw [if_neg (by decide), run_bind_ok hdb]
      rfl
    · rw [SmartLock.stored, if_neg (by rw [nvsKeyMax]; omega), hstored]

/-- **The code of the seed is accepted.** -/
theorem checkAuthorizationCode_vouched {seed : Vector UInt8 10} {code : CStr} (hW : W.Works)
    (h : Vouched W phone key s) (hcode : base64Encode (W.hmac key seed).toList = some code) :
    ∃ auth s', (checkAuthorizationCode W phone code (some seed)).run s = (.ok true, s') ∧
      auth.masterKey = key ∧ stored phone s' = some auth := by
  obtain ⟨auth, s₁, hfind, rfl, hstored⟩ := findAuthorization_vouched hW h
  have hhmac : (genHmac32 W auth.masterKey (some seed)).run
      (s₁.noted (.masterKey phone auth.masterKey)) =
      (.ok (some (W.hmac auth.masterKey seed)),
        (s₁.noted (.masterKey phone auth.masterKey)).ticked) := by
    rw [genHmac32, run_tick_bind, if_neg (by simp [hW.hmac])]
    rfl
  refine ⟨auth, (s₁.noted (.masterKey phone auth.masterKey)).ticked, ?_, rfl, hstored⟩
  rw [checkAuthorizationCode, run_bind_ok hfind]
  dsimp only
  rw [run_observe_bind, run_bind_ok hhmac]
  dsimp only
  rw [run_bind_ok (deref_ok.2 ⟨hcode, rfl⟩), beq_self_eq_true]
  rfl

end SmartLock
