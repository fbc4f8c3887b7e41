import SmartLock.Handler.Reply

/-!
# Session credentials

What `retrieve_session_credentials` answers to whatever a peer sends in
place of credentials. Every stage of it signals failure by a null pointer
that the next stage uses, so the only text refused is one that decrypts to
a message with another first word. `Credentials` says what the program is
meant to accept, and `SoundCredentials` that it accepts exactly that.
-/

namespace SmartLock

open Prog

variable {W : World} {cred plain a : CStr} {s s' : Sys}

/-! ## What credentials are -/

/-- The text is the encoding of an RSA block, of the size of the key, whose
plaintext starts with the words `SSC` and the encoding of `key`. -/
def Credentials (W : World) (cred : CStr) (key : Vector UInt8 32) : Prop :=
  ∃ block p text rest, base64Decode cred = some block ∧ block.length = keySizeBytesRSA ∧
    W.rsaDecrypt block = some p ∧ words sep (cstr p) = lit "SSC" :: text :: rest ∧
    base64Decode text = some key.toList

/-- Credentials set the context, the state and the phone of the session;
any other text is refused, and leaves the session table as it was. -/
structure SoundCredentials (W : World) (cred a : CStr) (s : Sys) : Prop where
  accepts : ∀ key, Credentials W cred key →
    ∃ s' r, (retrieveSessionCredentials W cred a).run s = (.ok true, s') ∧
      s'.user a = some r ∧ r.aesCtx = ⟨key⟩ ∧ r.state = .connected ∧ r.phoneId = []
  refuses : (¬ ∃ key, Credentials W cred key) →
    ∃ s', (retrieveSessionCredentials W cred a).run s = (.ok false, s') ∧
      s'.usersInfo = s.usersInfo

/-! ## Decryption -/

/-- The 256 bytes RSA is given: past the end of a short block the heap goes
on. -/
def rsaBlock (W : World) (moment : ℕ) (chipertext : List UInt8) : List UInt8 :=
  (Vector.ofFn fun i : Fin keySizeBytesRSA => chipertext.getD i (W.heap moment i)).toList

theorem rsaBlock_of_length {moment : ℕ} {block : List UInt8}
    (h : block.length = keySizeBytesRSA) : rsaBlock W moment block = block := by
  refine List.ext_getElem (by simp [rsaBlock, h]) fun i h₁ h₂ => ?_
  simp [rsaBlock, List.getD, h₂]

/-- What the program reads of the text, where it reads anything. -/
def Plaintext (W : World) (cred : CStr) (moment : ℕ) (plain : CStr) : Prop :=
  ∃ block p, base64Decode cred = some block ∧
    W.rsaDecrypt (rsaBlock W moment block) = some p ∧ plain = cstr p

theorem Plaintext.unique {plain' : CStr} {moment : ℕ} (h : Plaintext W cred moment plain)
    (h' : Plaintext W cred moment plain') : plain = plain' := by
  obtain ⟨block, p, hblock, hp, rfl⟩ := h
  obtain ⟨block', p', hblock', hp', rfl⟩ := h'
  obtain rfl : block = block' := Option.some.inj (hblock.symm.trans hblock')
  rw [Option.some.inj (hp.symm.trans hp')]

theorem Credentials.plaintext {key : Vector UInt8 32} (h : Credentials W cred key) (moment : ℕ) :
    ∃ plain text rest, Plaintext W cred moment plain ∧
      words sep plain = lit "SSC" :: text :: rest ∧ base64Decode text = some key.toList := by
  obtain ⟨block, p, text, rest, hblock, hlen, hp, hwords, hkey⟩ := h
  exact ⟨cstr p, text, rest, ⟨block, p, hblock, by rw [rsaBlock_of_length hlen, hp], rfl⟩,
    hwords, hkey⟩

theorem decryptBase64RSA_of_plaintext (h : Plaintext W cred s.moment plain) :
    (decryptBase64RSA W cred).run s = (.ok plain, s.ticked) := by
  obtain ⟨block, p, hblock, hp, rfl⟩ := h
  obtain ⟨v, hread, hv⟩ : ∃ v, (readBytes W block keySizeBytesRSA).run s = (.ok v, s.ticked) ∧
    v.toList = rsaBlock W s.moment block := ⟨_, rfl, rfl⟩
  rw [decryptBase64RSA, run_bind_ok (deref_ok.2 ⟨hblock, rfl⟩), run_bind_ok hread, hv,
    run_bind_ok (deref_ok.2 ⟨hp, rfl⟩)]
  rfl

/-- What is not base64, or what RSA does not accept, is a null pointer, and
used. -/
theorem decryptBase64RSA_fault (h : ¬ ∃ plain, Plaintext W cred s.moment plain) :
    ∃ s', (decryptBase64RSA W cred).run s = (.error .nullDeref, s') := by
  rcases hblock : base64Decode cred with - | block
  · refine ⟨s, ?_⟩
    rw [decryptBase64RSA, hblock]
    rfl
  · obtain ⟨v, hread, hv⟩ : ∃ v, (readBytes W block keySizeBytesRSA).run s = (.ok v, s.ticked) ∧
      v.toList = rsaBlock W s.moment block := ⟨_, rfl, rfl⟩
    have hnone : W.rsaDecrypt (rsaBlock W s.moment block) = none := by
      by_contra hsome
      obtain ⟨p, hp⟩ := Option.ne_none_iff_exists'.1 hsome
      exact h ⟨cstr p, block, p, hblock, hp, rfl⟩
    refine ⟨s.ticked, ?_⟩
    rw [decryptBase64RSA, run_bind_ok (deref_ok.2 ⟨hblock, rfl⟩), run_bind_ok hread, hv, hnone]
    rfl

/-! ## The session -/

/-- What is done with a key: the session is set up. -/
def connectSession (W : World) (a : CStr) (ctx : AESContext) : M Bool := do
  setAESCtx W a ctx
  setUserState W a .connected []
  observe (.credentials a ctx)
  return true

/-- The address has a record, or fits in a new one. -/
def Recordable (a : CStr) (s : Sys) : Prop := a.length < 45 ∨ s.user a ≠ none

theorem findOrAdd_returns_iff :
    (∃ s', (findOrAdd W a).run s = (.ok (), s')) ↔ Recordable a s := by
  constructor
  · rintro ⟨s', h⟩
    rcases findOrAdd_iff.1 h with ⟨hs, _⟩ | ⟨_, hlen, _⟩
    · exact Or.inr hs
    · exact Or.inl hlen
  · rintro (hlen | hs)
    · exact findOrAdd_returns hlen
    · exact ⟨s, findOrAdd_iff.2 (Or.inl ⟨hs, rfl⟩)⟩

theorem connectSession_ok {ok : Bool} {ctx : AESContext}
    (h : (connectSession W a ctx).run s = (.ok ok, s')) :
    ok = true ∧ Recordable a s ∧
      Wrote a (fun r => { r with aesCtx := ctx, state := .connected, phoneId := [] }) s s' := by
  obtain ⟨_, s₁, hctx, hrest⟩ := bind_ok.1 h
  obtain ⟨_, s₂, hstate, hnote⟩ := bind_ok.1 hrest
  cases hnote
  obtain ⟨_, s₃, hadd, _⟩ := bind_ok.1 hctx
  exact ⟨rfl, findOrAdd_returns_iff.1 ⟨s₃, hadd⟩,
    ((setAESCtx_ok hctx).trans (setUserState_ok hstate)).congr rfl⟩

theorem connectSession_returns (ctx : AESContext) (h : Recordable a s) :
    ∃ s', (connectSession W a ctx).run s = (.ok true, s') := by
  obtain ⟨s₁, hadd⟩ := findOrAdd_returns_iff.2 h
  obtain ⟨s₂, hctx⟩ : ∃ s₂, (setAESCtx W a ctx).run s = (.ok (), s₂) := by
    rw [setAESCtx, run_bind_ok hadd]
    exact ⟨_, rfl⟩
  obtain ⟨r, hr, _⟩ := (setAESCtx_ok hctx).self
  obtain ⟨s₃, hstate⟩ := setUserState_returns_of_some (W := W) hr .connected [] (by decide)
  rw [connectSession, run_bind_ok hctx, run_bind_ok hstate]
  exact ⟨_, rfl⟩

/-! ## The stages of `retrieve_session_credentials` -/

/-- The state in which the plaintext is looked at. -/
def Sys.decrypting (a : CStr) (s : Sys) : Sys := (s.noted (.tryCredentials a)).ticked

/-- What does not decrypt ends the program. -/
theorem retrieve_of_no_plaintext (h : ¬ ∃ plain, Plaintext W cred s.moment plain) :
    ∃ s', (retrieveSessionCredentials W cred a).run s = (.error .nullDeref, s') := by
  obtain ⟨s', hfault⟩ := decryptBase64RSA_fault (s := s.noted (.tryCredentials a)) h
  refine ⟨s', ?_⟩
  rw [retrieveSessionCredentials, run_observe_bind, run_bind_error hfault]

/-- A plaintext without words ends it too. -/
theorem retrieve_of_no_word (h : Plaintext W cred s.moment plain) (hwords : words sep plain = []) :
    ∃ s', (retrieveSessionCredentials W cred a).run s = (.error .nullDeref, s') := by
  have hdecrypt := decryptBase64RSA_of_plaintext (s := s.noted (.tryCredentials a)) h
  refine ⟨s.decrypting a, ?_⟩
  rw [retrieveSessionCredentials, run_observe_bind, run_bind_ok hdecrypt,
    strtok_eq_none_iff.2 hwords]
  rfl

/-- Another first word is refused. -/
theorem retrieve_of_other {w : CStr} {ws : List CStr} (h : Plaintext W cred s.moment plain)
    (hwords : words sep plain = w :: ws) (hw : w ≠ lit "SSC") :
    (retrieveSessionCredentials W cred a).run s = (.ok false, s.decrypting a) := by
  have hdecrypt := decryptBase64RSA_of_plaintext (s := s.noted (.tryCredentials a)) h
  obtain ⟨pt, hpt, rfl, -⟩ := strtok_of_words hwords
  rw [retrieveSessionCredentials, run_observe_bind, run_bind_ok hdecrypt,
    run_bind_ok (deref_ok.2 ⟨hpt, rfl⟩), if_pos hw]
  rfl

/-- A word `SSC` that nothing follows ends the program. -/
theorem retrieve_of_no_key (h : Plaintext W cred s.moment plain)
    (hwords : words sep plain = [lit "SSC"]) :
    ∃ s', (retrieveSessionCredentials W cred a).run s = (.error .nullDeref, s') := by
  have hdecrypt := decryptBase64RSA_of_plaintext (s := s.noted (.tryCredentials a)) h
  obtain ⟨pt, hpt, hword, hrest⟩ := strtok_of_words hwords
  refine ⟨s.decrypting a, ?_⟩
  rw [retrieveSessionCredentials, run_observe_bind, run_bind_ok hdecrypt,
    run_bind_ok (deref_ok.2 ⟨hpt, rfl⟩), if_neg (not_not.2 hword), strtok_eq_none_iff.2 hrest]
  rfl

/-- A second word without a base64 character ends it. -/
theorem retrieve_of_bad_key {text : CStr} {rest : List CStr}
    (h : Plaintext W cred s.moment plain)
    (hwords : words sep plain = lit "SSC" :: text :: rest) (hkey : base64Decode text = none) :
    ∃ s', (retrieveSessionCredentials W cred a).run s = (.error .nullDeref, s') := by
  have hdecrypt := decryptBase64RSA_of_plaintext (s := s.noted (.tryCredentials a)) h
  obtain ⟨pt, hpt, hword, hrest⟩ := strtok_of_words hwords
  obtain ⟨pt', hpt', rfl, -⟩ := strtok_of_words hrest
  refine ⟨s.decrypting a, ?_⟩
  rw [retrieveSessionCredentials, run_observe_bind, run_bind_ok hdecrypt,
    run_bind_ok (deref_ok.2 ⟨hpt, rfl⟩), if_neg (not_not.2 hword),
    run_bind_ok (deref_ok.2 ⟨hpt', rfl⟩), hkey]
  rfl

/-- **A second word that decodes is taken for a key**, whatever the number
of its bytes. -/
theorem retrieve_of_key {text : CStr} {rest : List CStr} {key : List UInt8}
    (h : Plaintext W cred s.moment plain)
    (hwords : words sep plain = lit "SSC" :: text :: rest) (hkey : base64Decode text = some key) :
    ∃ v : Vector UInt8 32, (key.length = 32 → v.toList = key) ∧
      (retrieveSessionCredentials W cred a).run s =
        (connectSession W a ⟨v⟩).run (s.decrypting a).ticked := by
  have hdecrypt := decryptBase64RSA_of_plaintext (s := s.noted (.tryCredentials a)) h
  obtain ⟨pt, hpt, hword, hrest⟩ := strtok_of_words hwords
  obtain ⟨pt', hpt', rfl, -⟩ := strtok_of_words hrest
  obtain ⟨v, hread⟩ : ∃ v, (readBytes W key 32).run (s.decrypting a) =
    (.ok v, (s.decrypting a).ticked) := ⟨_, rfl⟩
  refine ⟨v, fun hlen => ?_, ?_⟩
  · obtain ⟨v', hread', hv'⟩ := readBytes_run (W := W) (s := s.decrypting a) hlen
    rw [hread] at hread'
    cases hread'
    exact hv'
  · have haes : (initAES W (base64Decode pt'.word)).run (s.decrypting a) =
        (.ok ⟨v⟩, (s.decrypting a).ticked) := by
      rw [initAES, hkey, run_bind_ok (deref_ok.2 ⟨rfl, rfl⟩), run_bind_ok hread]
      rfl
    rw [retrieveSessionCredentials, run_observe_bind, run_bind_ok hdecrypt,
      run_bind_ok (deref_ok.2 ⟨hpt, rfl⟩), if_neg (not_not.2 hword),
      run_bind_ok (deref_ok.2 ⟨hpt', rfl⟩)]
    exact run_bind_ok haes

/-! ## Every text -/

/-- The words behind `SSC` are those of credentials: a key of 32 bytes, in
a block of the size of the key pair, for an address that can be recorded. -/
def KeyGiven (cred a : CStr) (s : Sys) (ws : List CStr) : Prop :=
  ∃ text rest key, ws = text :: rest ∧ base64Decode text = some key ∧ key.length = 32 ∧
    (∀ block, base64Decode cred = some block → block.length = keySizeBytesRSA) ∧ Recordable a s

theorem recordable_decrypting : Recordable a (s.decrypting a).ticked ↔ Recordable a s := Iff.rfl

theorem SoundCredentials.not_fault (h : SoundCredentials W cred a s) (e : Fault) (s' : Sys) :
    (retrieveSessionCredentials W cred a).run s ≠ (.error e, s') := by
  intro hfault
  by_cases hcred : ∃ key, Credentials W cred key
  · obtain ⟨key, hkey⟩ := hcred
    obtain ⟨t, r, hrun, _⟩ := h.accepts key hkey
    rw [hfault] at hrun
    cases hrun
  · obtain ⟨t, hrun, _⟩ := h.refuses hcred
    rw [hfault] at hrun
    cases hrun

/-- What is accepted where it should be accepted alone is a key given. -/
theorem SoundCredentials.keyGiven {ws : List CStr} (h : SoundCredentials W cred a s)
    (hplain : Plaintext W cred s.moment plain) (hwords : words sep plain = lit "SSC" :: ws) :
    KeyGiven cred a s ws := by
  rcases ws with - | ⟨text, rest⟩
  · obtain ⟨s', hfault⟩ := retrieve_of_no_key (a := a) hplain hwords
    exact absurd hfault (h.not_fault _ _)
  rcases htext : base64Decode text with - | key
  · obtain ⟨s', hfault⟩ := retrieve_of_bad_key (a := a) hplain hwords htext
    exact absurd hfault (h.not_fault _ _)
  -- the program goes on to connect, and so cannot refuse
  obtain ⟨v, -, hrun⟩ := retrieve_of_key (a := a) hplain hwords htext
  rcases hconnect : (connectSession W a ⟨v⟩).run (s.decrypting a).ticked with ⟨e | ok, s'⟩
  · exact absurd (hrun.trans hconnect) (h.not_fault _ _)
  obtain ⟨rfl, hrecord, -⟩ := connectSession_ok hconnect
  obtain ⟨key', hcred⟩ : ∃ key', Credentials W cred key' := by
    by_contra hnone
    obtain ⟨t, hrefused, -⟩ := h.refuses hnone
    rw [hrun, hconnect] at hrefused
    cases hrefused
  obtain ⟨plain', text', rest', hplain', hwords', hkey'⟩ := hcred.plaintext s.moment
  rw [hplain.unique hplain', hwords'] at hwords
  obtain ⟨rfl, rfl⟩ := List.cons.inj (List.cons.inj hwords).2
  obtain rfl : key = key'.toList := Option.some.inj (htext.symm.trans hkey')
  obtain ⟨block, p, _, _, hblock, hlen, -⟩ := hcred
  refine ⟨_, _, _, rfl, htext, by simp, fun block' hblock' => ?_, recordable_decrypting.1 hrecord⟩
  rw [← Option.some.inj (hblock.symm.trans hblock')]
  exact hlen

/-- A key given is a key of credentials. -/
theorem KeyGiven.credentials {ws : List CStr} (h : KeyGiven cred a s ws)
    (hplain : Plaintext W cred s.moment plain) (hwords : words sep plain = lit "SSC" :: ws) :
    ∃ key, Credentials W cred key := by
  obtain ⟨text, rest, key, rfl, htext, hlen, hblocks, -⟩ := h
  obtain ⟨block, p, hblock, hp, rfl⟩ := hplain
  rw [rsaBlock_of_length (hblocks block hblock)] at hp
  exact ⟨⟨key.toArray, by simpa using hlen⟩, block, p, text, rest, hblock, hblocks block hblock, hp,
    hwords, by simpa using htext⟩

/-- **Credentials are told from every other text exactly where** the text
decrypts to words, and a first word `SSC` comes with a key of 32 bytes, in
a block of the right size. -/
theorem soundCredentials_iff (W : World) (cred a : CStr) (s : Sys) :
    SoundCredentials W cred a s ↔ ∃ plain w ws, Plaintext W cred s.moment plain ∧
      words sep plain = w :: ws ∧ (w = lit "SSC" → KeyGiven cred a s ws) := by
  constructor
  · intro h
    by_cases hsome : ∃ plain, Plaintext W cred s.moment plain
    · obtain ⟨plain, hplain⟩ := hsome
      rcases hwords : words sep plain with - | ⟨w, ws⟩
      · obtain ⟨s', hfault⟩ := retrieve_of_no_word (a := a) hplain hwords
        exact absurd hfault (h.not_fault _ _)
      · refine ⟨plain, w, ws, hplain, hwords, fun hw => ?_⟩
        subst hw
        exact h.keyGiven hplain hwords
    · obtain ⟨s', hfault⟩ := retrieve_of_no_plaintext (a := a) hsome
      exact absurd hfault (h.not_fault _ _)
  · rintro ⟨plain, w, ws, hplain, hwords, hgiven⟩
    refine ⟨fun key hcred => ?_, fun hnone => ?_⟩
    · obtain ⟨plain', text, rest, hplain', hwords', hkey⟩ := hcred.plaintext s.moment
      rw [← hplain.unique hplain', hwords] at hwords'
      obtain ⟨rfl, rfl⟩ := List.cons.inj hwords'
      obtain ⟨_, _, _, -, -, -, -, hrecord⟩ := hgiven rfl
      obtain ⟨v, hv, hrun⟩ := retrieve_of_key (a := a) hplain hwords hkey
      obtain rfl : v = key := Vector.toList_inj.1 (hv (by simp))
      obtain ⟨s', hconnect⟩ := connectSession_returns (W := W) ⟨v⟩
        (recordable_decrypting.2 hrecord)
      obtain ⟨-, -, hwrote⟩ := connectSession_ok hconnect
      obtain ⟨r, hr, -⟩ := hwrote.self
      exact ⟨s', _, hrun.trans hconnect, hr, rfl, rfl, rfl⟩
    · have hw : w ≠ lit "SSC" := by
        intro hw
        subst hw
        exact hnone ((hgiven rfl).credentials hplain hwords)
      exact ⟨_, retrieve_of_other hplain hwords hw, rfl⟩

/-- A message without a base64 character ends the program. -/
theorem mark_not_soundCredentials :
    ¬ ∀ (W : World) (cred a : CStr) (s : Sys), SoundCredentials W cred a s := by
  intro hall
  have hnone : ¬ ∃ key, Credentials (World.still .esp32s3 100) (lit "?") key := by
    rintro ⟨key, block, p, text, rest, hblock, -⟩
    rw [show base64Decode (lit "?") = none from rfl] at hblock
    cases hblock
  obtain ⟨s', hrun, -⟩ := (hall (World.still .esp32s3 100) (lit "?") (lit "10.0.0.7")
    Sys.initial).refuses hnone
  cases hrun

end SmartLock
