import SmartLock.Crypto.Padding
import SmartLock.Handler.Reply
import SmartLock.Nonce.Stamp
import SmartLock.Session.Credentials
import SmartLock.System.Dispatch
import SmartLock.System.Pieces

/-!
# Which messages the lock bears

A message is cut, decoded and decrypted before any of it is checked, and
what it lacks is a null pointer, used. Here is what credentials and
commands have to be like not to end the program: in their texts, in what
the ciphers make of them, and in what the lock holds when they come.
-/

namespace SmartLock

open Prog

variable {W : World} {a cmd data text code : CStr} {s s' t : Sys} {ctx : AESContext}
variable {args : List CStr} {moment n : ℕ}

/-! ## What is read of a message -/

/-- `n` bytes read at a buffer, and behind it on the heap. -/
def heapBytes (W : World) (moment : ℕ) (buf : List UInt8) (n : ℕ) : Vector UInt8 n :=
  Vector.ofFn fun i => buf.getD i (W.heap moment i)

theorem run_readBytes (buf : List UInt8) (n : ℕ) (s : Sys) :
    (readBytes W buf n).run s = (.ok (heapBytes W s.moment buf n), s.ticked) := rfl

/-- The bytes that are unpadded: what the cipher returns, or, of a text
that is not of whole blocks, the output as it was allocated. -/
def cipherOutput (W : World) (ctx : AESContext) (moment : ℕ) (chipertext iv : List UInt8) :
    List UInt8 :=
  if chipertext.length % 16 = 0 then W.aesDecrypt ctx (heapBytes W moment iv 16) chipertext
  else (heapBytes W (moment + 1) [] chipertext.length).toList

variable (W) in
/-- The message starts with two words that decode, and of what the first
deciphers to, the padding can be taken away. -/
def Deciphers (ctx : AESContext) (text : CStr) (moment : ℕ) (cmd : CStr) : Prop :=
  ∃ w₁ w₂ ws chipertext iv p, words sep text = w₁ :: w₂ :: ws ∧
    base64Decode w₁ = some chipertext ∧ base64Decode w₂ = some iv ∧
    (cipherOutput W ctx moment chipertext iv).getLast? = some p ∧
    ¬ Exhausted W (cipherOutput W ctx moment chipertext iv) p ∧
    cmd = cstr ((cipherOutput W ctx moment chipertext iv).take
      ((cipherOutput W ctx moment chipertext iv).length - p.toNat))

variable (W) in
/-- The credentials decrypt to words, and behind `SSC` comes one that
decodes. -/
def Presentable (cred : CStr) (moment : ℕ) : Prop :=
  ∃ plain w ws, Plaintext W cred moment plain ∧ words sep plain = w :: ws ∧
    (w = lit "SSC" → ∃ text rest key, ws = text :: rest ∧ base64Decode text = some key)

theorem removePadding_iff {block r : List UInt8} :
    (removePadding W block).run s = (.ok r, s') ↔
      ∃ p, block.getLast? = some p ∧ ¬ Exhausted W block p ∧
        r = block.take (block.length - p.toNat) ∧ s' = s := by
  constructor
  · intro h
    obtain ⟨p, _, hlast, -⟩ := bind_ok.1 h
    obtain ⟨hlast, -⟩ := deref_ok.1 hlast
    have hno : ¬ Exhausted W block p := fun hex => by
      rw [removePadding_exhausted hlast hex] at h
      cases h
    rw [removePadding_returns hlast hno] at h
    cases h
    exact ⟨p, hlast, hno, rfl, rfl⟩
  · rintro ⟨p, hlast, hno, rfl, rfl⟩
    exact removePadding_returns hlast hno

/-- **What a message is decrypted to** is told from its text. -/
theorem decryptBase64AES_iff : (decryptBase64AES W ctx text).run s = (.ok cmd, s') ↔
    Deciphers W ctx text s.moment cmd ∧ s' = s.ticked.ticked := by
  have hunpad (chipertext iv : List UInt8) : (decryptAES W ctx chipertext iv).run s =
      (removePadding W (cipherOutput W ctx s.moment chipertext iv)).run s.ticked.ticked := by
    rw [decryptAES, run_bind_ok (run_readBytes ..), run_bind_ok (run_readBytes ..)]
    rfl
  constructor
  · intro h
    obtain ⟨pt, _, hcut, hcuts⟩ := bind_ok.1 h
    obtain ⟨hpt, rfl⟩ := deref_ok.1 hcut
    obtain ⟨pt', _, hcut', hdecodes⟩ := bind_ok.1 hcuts
    obtain ⟨hpt', rfl⟩ := deref_ok.1 hcut'
    obtain ⟨chipertext, _, hdecode, hreads⟩ := bind_ok.1 hdecodes
    obtain ⟨hchipertext, rfl⟩ := deref_ok.1 hdecode
    obtain ⟨iv, _, hdecode', hdecrypts⟩ := bind_ok.1 hreads
    obtain ⟨hiv, rfl⟩ := deref_ok.1 hdecode'
    obtain ⟨decrypted, _, hdecrypt, hret⟩ := bind_ok.1 hdecrypts
    cases hret
    rw [hunpad] at hdecrypt
    obtain ⟨p, hlast, hno, rfl, rfl⟩ := removePadding_iff.1 hdecrypt
    have hwords : words sep text = pt.word :: pt'.word :: words sep pt'.rest := by
      rw [words_eq_strtok, hpt]
      dsimp only
      rw [words_eq_strtok, hpt']
    exact ⟨⟨_, _, _, chipertext, iv, p, hwords, hchipertext, hiv, hlast, hno, rfl⟩, rfl⟩
  · rintro ⟨⟨w₁, w₂, ws, chipertext, iv, p, hwords, hchipertext, hiv, hlast, hno, rfl⟩, rfl⟩
    obtain ⟨pt, hpt, rfl, hrest⟩ := strtok_of_words hwords
    obtain ⟨pt', hpt', rfl, -⟩ := strtok_of_words hrest
    rw [decryptBase64AES, run_bind_ok (deref_ok.2 ⟨hpt, rfl⟩),
      run_bind_ok (deref_ok.2 ⟨hpt', rfl⟩)]
    dsimp only
    rw [run_bind_ok (deref_ok.2 ⟨hchipertext, rfl⟩), run_bind_ok (deref_ok.2 ⟨hiv, rfl⟩),
      run_bind_ok ((hunpad chipertext iv).trans (removePadding_returns hlast hno))]
    rfl

/-- **Which credentials end the program.** -/
theorem retrieve_returns_iff (hrecord : Recordable a s) :
    Returns (retrieveSessionCredentials W data a) s ↔ Presentable W data s.moment := by
  by_cases hsome : ∃ plain, Plaintext W data s.moment plain
  · obtain ⟨plain, hplain⟩ := hsome
    have hiff : Presentable W data s.moment ↔ ∃ w ws, words sep plain = w :: ws ∧
        (w = lit "SSC" → ∃ text rest key, ws = text :: rest ∧ base64Decode text = some key) := by
      constructor
      · rintro ⟨plain', w, ws, hplain', h⟩
        rw [hplain.unique hplain']
        exact ⟨w, ws, h⟩
      · rintro ⟨w, ws, h⟩
        exact ⟨plain, w, ws, hplain, h⟩
    rw [hiff]
    rcases hwords : words sep plain with - | ⟨w, ws⟩
    · obtain ⟨s', h⟩ := retrieve_of_no_word (a := a) hplain hwords
      refine iff_of_false (fun hr => hr.ne_error h) ?_
      rintro ⟨_, _, ⟨⟩, -⟩
    by_cases hw : w = lit "SSC"
    · subst hw
      rcases ws with - | ⟨text, rest⟩
      · obtain ⟨s', h⟩ := retrieve_of_no_key (a := a) hplain hwords
        refine iff_of_false (fun hr => hr.ne_error h) ?_
        rintro ⟨_, _, ⟨⟩, hkey⟩
        obtain ⟨_, _, _, ⟨⟩, -⟩ := hkey rfl
      rcases htext : base64Decode text with - | key
      · obtain ⟨s', h⟩ := retrieve_of_bad_key (a := a) hplain hwords htext
        refine iff_of_false (fun hr => hr.ne_error h) ?_
        rintro ⟨_, _, ⟨⟩, hkey⟩
        obtain ⟨_, _, key, ⟨⟩, hkey⟩ := hkey rfl
        rw [htext] at hkey
        cases hkey
      · obtain ⟨v, -, hrun⟩ := retrieve_of_key (a := a) hplain hwords htext
        obtain ⟨s', hconnect⟩ := connectSession_returns (W := W) ⟨v⟩
          (recordable_decrypting.2 hrecord)
        exact iff_of_true ⟨true, s', hrun.trans hconnect⟩
          ⟨_, _, rfl, fun _ => ⟨text, rest, key, rfl, htext⟩⟩
    · exact iff_of_true ⟨false, _, retrieve_of_other hplain hwords hw⟩
        ⟨w, ws, rfl, fun h => absurd h hw⟩
  · obtain ⟨s', h⟩ := retrieve_of_no_plaintext (a := a) hsome
    exact iff_of_false (fun hr => hr.ne_error h) fun ⟨plain, _, _, hplain, _⟩ =>
      hsome ⟨plain, hplain⟩

/-! ## The length of a reply -/

/-- The IDs of the server are no longer than a reply of it. -/
def World.BriefInvites (W : World) : Prop := ∀ m json d inviteId,
  W.inviteReply m json = .body d → d.inviteID = some inviteId → inviteId.length < 2 ^ 20

/-- The state of the door that is stored is an `int`. -/
def Sys.IntDoor (s : Sys) : Prop := ∀ v, s.lockState = some v → longMin ≤ v ∧ v ≤ longMax

theorem Sys.IntDoor.of_eq (h : s.IntDoor) (ht : t.lockState = s.lockState) : t.IntDoor :=
  fun v hv => h v (ht ▸ hv)

theorem intDoor_of_rel {F : Footprint} (hF : ¬ F.door) (h : F.Rel s t) (hs : s.IntDoor) :
    t.IntDoor := by
  rcases h.door.resolve_left hF with heq | ⟨-, hnone⟩
  · exact hs.of_eq heq
  · intro v hv
    rw [hnone] at hv
    cases hv

/-- What is sealed of this length is sealed. -/
def Brief (text : CStr) : Prop := text.length < 2 ^ 21

theorem brief_code {x : CStr} (hcode : code.length = 4) (hx : x.length < 2 ^ 20) :
    Brief (code ++ x) := by
  rw [Brief, List.length_append, hcode]
  omega

theorem inviteResponse_brief (hW : W.BriefInvites) (hcode : code.length = 3)
    {request : InviteRequest} (h : (inviteResponse W code request).run s = (.ok text, s')) :
    Brief text := by
  obtain ⟨e, s₁, -, hasks⟩ := bind_ok.1 h
  obtain ⟨reply, s₂, hcreate, hreads⟩ := bind_ok.1 hasks
  obtain ⟨inviteId, s₃, hderef, hbuilds⟩ := bind_ok.1 hreads
  obtain ⟨rfl, -⟩ := deref_ok.1 hderef
  obtain rfl := sprintf_ok hbuilds
  rw [createInvite, run_observe_bind, run_tick_bind] at hcreate
  have hlen : inviteId.length < 2 ^ 20 := by
    split at hcreate
    · cases hcreate
    · next d hreply =>
      split_ifs at hcreate with hsuccess
      · cases hid : d.inviteID with
        | none =>
          rw [hid] at hcreate
          cases hcreate
        | some x =>
          rw [hid] at hcreate
          cases hcreate
          exact hW _ _ d _ hreply hid
      · cases hcreate
  exact brief_code (by rw [List.length_append, hcode]; rfl) hlen

theorem brief_nak : Brief nakMessage := Nat.lt_of_le_of_lt (m := 3) le_rfl (by decide)

theorem brief_ack : Brief ackMessage := Nat.lt_of_le_of_lt (m := 3) le_rfl (by decide)

theorem checkedInvite_brief (hW : W.BriefInvites) (hcode : code.length = 3) {k : Int}
    {request : InviteRequest}
    (h : (checkedInvite W code args k a request).run s = (.ok text, s')) : Brief text := by
  obtain ⟨_ | _, s₁, -, h₁⟩ := bind_ok.1 h
  · cases h₁
    exact brief_nak
  obtain ⟨_ | _, s₂, -, h₂⟩ := bind_ok.1 h₁
  · cases h₂
    exact brief_nak
  obtain ⟨_ | _, s₃, -, h₃⟩ := bind_ok.1 h₂
  · cases h₃
    exact brief_nak
  · exact inviteResponse_brief hW hcode h₃

theorem getLockState_int (hW : Answering W) (hs : s.IntDoor) {v : Int}
    (h : (getLockState W).run s = (.ok v, s')) : longMin ≤ v ∧ v ≤ longMax := by
  obtain ⟨s₁, hopen, -⟩ := initAndOpen_run (s := s) hW.nvs
  have hs₁ : s₁.IntDoor := intDoor_of_rel (F := elsewhere) id (initAndOpen_within.of_ok hopen) hs
  rw [getLockState, run_bind_ok hopen, if_neg (by decide)] at h
  obtain ⟨⟨err, w⟩, s₂, hread, hret⟩ := bind_ok.1 h
  obtain ⟨-, ⟨e, he, -⟩ | ⟨-, -, ⟨-, rfl⟩ | ⟨hsome, rfl⟩⟩⟩ := nvsGetLockState_ok hread
  · rw [hW.nvs] at he
    cases he
  · obtain ⟨_, s₃, -, hlocked⟩ := bind_ok.1 hret
    cases hlocked
    decide
  · cases hret
    exact hs₁ _ hsome

theorem rdsResponse_brief (hW : Answering W) (hs : s.IntDoor)
    (h : (rdsResponse W args a).run s = (.ok text, s')) : Brief text := by
  obtain ⟨_ | _, s₁, hverify, h₁⟩ := bind_ok.1 h
  · cases h₁
    exact brief_nak
  obtain ⟨state, s₂, hstate, h₂⟩ := bind_ok.1 h₁
  obtain ⟨-, rfl⟩ := getUserState_ok.1 hstate
  by_cases hauth : state = .authorized
  · rw [if_pos hauth] at h₂
    obtain ⟨v, s₃, hread, hbuilds⟩ := bind_ok.1 h₂
    obtain rfl := sprintf_ok hbuilds
    have hint := getLockState_int hW (intDoor_of_rel (F := elsewhere) id
      ((verifyTimestampsAndNonce_within trivial).of_ok hverify) hs) hread
    have hsmall : v.natAbs < 10 ^ 10 := by
      simp only [longMin, longMax] at hint
      omega
    exact brief_code rfl (lt_of_le_of_lt (length_decInt_le hsmall) (by decide))
  · rw [if_neg hauth] at h₂
    cases h₂
    exact brief_nak

/-- **Every reply is brief.** -/
theorem checkCommand_brief (hW : Answering W) (hinvites : W.BriefInvites) (hs : s.IntDoor)
    (h : (checkCommand W cmd a).run s = (.ok (some text), s')) : Brief text := by
  have hnak (h : some text = some nakMessage) : Brief text := by
    cases h
    exact brief_nak
  have hack {ack : Bool} (h : some text = ackIf ack) : Brief text := by
    cases ack with
    | false => exact hnak h
    | true =>
      cases h
      exact brief_ack
  obtain ⟨c, -, hcases⟩ := checkCommand_ok h
  rcases hcases with ⟨_, h⟩ | ⟨_, h⟩ | ⟨_, h⟩ | ⟨_, h⟩ | ⟨_, h⟩ | ⟨_, h⟩ | ⟨_, h⟩ | ⟨_, h⟩ |
    ⟨_, _, hr⟩
  · rcases (commandSAC_ok h).2 with ⟨_, _, hr⟩ | ⟨_, _, _, _, hr⟩
    · exact hnak hr
    · exact hack hr
  · rcases (commandDoor_ok h).2 with ⟨_, _, hr⟩ | ⟨_, _, _, _, _, _, hr⟩
    · exact hnak hr
    · exact hack hr
  · rcases (commandDoor_ok h).2 with ⟨_, _, hr⟩ | ⟨_, _, _, _, _, _, hr⟩
    · exact hnak hr
    · exact hack hr
  · rcases (commandRNI_ok h).2 with ⟨_, _, hr⟩ | ⟨_, _, _, _, _, _, _, _, _, hresp, _, ⟨⟩⟩
    · exact hnak hr
    · exact checkedInvite_brief hinvites rfl hresp
  · obtain ⟨_, _, s₁, _, ⟨_, _, hr⟩ | ⟨_, _, _, _, hresp, ⟨⟩⟩⟩ := commandRFI_ok h
    · exact hnak hr
    · obtain ⟨_ | _, s₂, -, hresp⟩ := bind_ok.1 hresp
      · cases hresp
        exact brief_nak
      · exact inviteResponse_brief hinvites rfl hresp
  · rcases commandRUI_ok h with ⟨_, _, _, hr⟩ | ⟨_, _, hr, _⟩ | ⟨_, _, _, _, ⟨_, hr⟩ |
      ⟨_, _, _, _, _, _, _, _, _, _, _, hresp, _, ⟨⟩⟩⟩
    · exact hnak hr
    · cases hr
    · cases hr
    · exact checkedInvite_brief hinvites rfl hresp
  · rcases (commandSNT_ok h).2 with ⟨_, _, hr⟩ | ⟨_, _, _, _, hr⟩
    · exact hnak hr
    · exact hack hr
  · rcases (commandRDS_ok h).2 with ⟨_, _, hr⟩ | ⟨_, _, _, _, hresp, _, ⟨⟩⟩
    · exact hnak hr
    · exact rdsResponse_brief hW hs hresp
  · exact hnak hr

/-! ## Responses -/

/-- **A brief response is sealed**: stamped with the time, and encrypted. -/
theorem sealResponse_brief (ctx : AESContext) (h : Brief text) (s : Sys) : ∃ iv s',
    (sealResponse W ctx (some text)).run s = (.ok (envelope (W.aesEncrypt ctx iv (addPadding
      (stamped text (W.clock s.moment) (W.random (s.moment + 1))))) iv), s') := by
  obtain ⟨s₁, hstamp⟩ := addTimestampsAndNonceToMsg_run W text s
  have hlong := length_stamped_le text (W.clock s.moment) (W.random (s.moment + 1))
  rw [Brief] at h
  obtain ⟨sent, iv, s₂, hencrypt, rfl, -⟩ := encryptStrAES_run (W := W) (p := stamped text
    (W.clock s.moment) (W.random (s.moment + 1))) ctx s₁ (by
      rw [length_addPadding, sizeMax]
      omega)
  exact ⟨iv, s₂, by rw [sealResponse, run_bind_ok hstamp, hencrypt]⟩

/-- A null response is not. -/
theorem sealResponse_null (s : Sys) : ¬ Returns (sealResponse W ctx none) s := by
  rintro ⟨sent, s', h⟩
  obtain ⟨stamped, s₁, hstamp, -⟩ := bind_ok.1 h
  obtain ⟨now, s₂, -, h₁⟩ := bind_ok.1 hstamp
  obtain ⟨ts1, s₃, -, h₂⟩ := bind_ok.1 h₁
  obtain ⟨ts2, s₄, -, h₃⟩ := bind_ok.1 h₂
  obtain ⟨t, s₅, -, h₄⟩ := bind_ok.1 h₃
  obtain ⟨nonce, s₆, -, h₅⟩ := bind_ok.1 h₄
  cases h₅

/-- What is sent of a response, if there is one to send. -/
theorem sealing_returns_iff {r : Response} {k : CStr → CStr → M Unit}
    (hbrief : ∀ text, r.response = some text → Brief text)
    (hk : ∀ sent text s', quiet.Rel s s' → Returns (k sent text) s') :
    Returns (do
      let sent ← sealResponse W r.aes r.response
      let text ← deref r.response
      k sent text) s ↔ r.response ≠ none := by
  cases hresponse : r.response with
  | none =>
    refine iff_of_false (fun h => ?_) fun h => h rfl
    obtain ⟨sent, s₁, hseal, -⟩ := Returns.bind_iff.1 h
    exact sealResponse_null s ⟨sent, s₁, hseal⟩
  | some text =>
    refine iff_of_true ?_ (Option.some_ne_none text)
    obtain ⟨iv, s₁, hseal⟩ := sealResponse_brief (W := W) r.aes (hbrief text hresponse) s
    exact .step hseal (.step (deref_ok.2 ⟨rfl, rfl⟩)
      (hk _ text s₁ (sealResponse_within.of_ok hseal)))

variable (W) in
/-- Decrypted, the message is a command of `a` that gets a reply. -/
def Bearable (a data : CStr) (s : Sys) : Prop :=
  ∃ x cmd, s.user a = some x ∧ Deciphers W x.aesCtx data s.moment cmd ∧
    Answerable W cmd a ((s.noted (.decrypt a x.aesCtx)).ticked.ticked.noted (.command a cmd))

/-- A message that is `Answerable` is not answered by a null pointer. -/
theorem Answerable.ne_none (hW : Answering W) (h : Answerable W cmd a s) :
    (checkCommand W cmd a).run s ≠ (.ok none, s') := by
  intro hrun
  have hw := word_of_none hrun
  obtain ⟨c, -, -, hdispatch⟩ := exists_dispatch (W := W) (a := a) hw
  rw [hdispatch] at hrun
  exact (commandRUI_some hW hrun).2 (h.rui hw) rfl

/-- **Which commands are answered.** -/
theorem commandResponse_answers_iff (hW : Answering W) :
    (∃ r s', (commandResponse W a data).run s = (.ok r, s') ∧ r.response ≠ none) ↔
      Bearable W a data s := by
  constructor
  · rintro ⟨r, s', h, hsome⟩
    obtain ⟨x, cmd, s₁, reply, hx, ⟨t, hdecrypt, rfl⟩, hcheck, rfl⟩ := commandResponse_ok h
    obtain ⟨hdeciphers, rfl⟩ := decryptBase64AES_iff.1 hdecrypt
    obtain ⟨text, rfl⟩ := Option.ne_none_iff_exists'.1 hsome
    exact ⟨x, cmd, hx, hdeciphers, answerable_of_run hW hcheck⟩
  · rintro ⟨x, cmd, hx, hdeciphers, hanswerable⟩
    have hctx : (getUserAESCtx a).run s = (.ok x.aesCtx, s) :=
      bind_ok.2 ⟨x, s, derefUser_ok.2 ⟨hx, rfl⟩, rfl⟩
    have hdecrypt := decryptBase64AES_iff (s := s.noted (.decrypt a x.aesCtx)) |>.2
      ⟨hdeciphers, rfl⟩
    have hsome : (((s.noted (.decrypt a x.aesCtx)).ticked.ticked.noted (.command a cmd)).user
        a).isSome := Option.isSome_iff_exists.2 ⟨x, hx⟩
    obtain ⟨reply, s', hcheck⟩ := hanswerable.returns hW hsome
    refine ⟨⟨true, x.aesCtx, reply⟩, s', ?_, ?_⟩
    · rw [commandResponse, run_bind_ok hctx, run_observe_bind, run_bind_ok hdecrypt,
        run_observe_bind, run_bind_ok hcheck]
      rfl
    · rintro rfl
      exact hanswerable.ne_none hW hcheck

theorem commandResponse_brief (hW : Answering W) (hinvites : W.BriefInvites) (hs : s.IntDoor)
    {r : Response} (h : (commandResponse W a data).run s = (.ok r, s'))
    (htext : r.response = some text) : Brief text := by
  obtain ⟨x, cmd, s₁, reply, -, ⟨t, hdecrypt, rfl⟩, hcheck, rfl⟩ := commandResponse_ok h
  obtain ⟨-, rfl⟩ := decryptBase64AES_iff.1 hdecrypt
  obtain rfl : reply = some text := htext
  refine checkCommand_brief hW hinvites ?_ hcheck
  exact hs.of_eq rfl

/-- A seed is drawn for a session that is there. -/
theorem racResponse_returns (hx : (s.user a).isSome) : Returns (racResponse W a) s := by
  have hfind : (findOrAdd W a).run s = (.ok (), s) :=
    findOrAdd_iff.2 (.inl ⟨Option.isSome_iff_ne_none.1 hx, rfl⟩)
  have hdraw : Returns (generateRandomSeed W a) s := .step hfind ⟨_, _, rfl⟩
  refine .bind hdraw fun seed s₁ _ => ?_
  exact .step (deref_ok.2 ⟨base64Encode_of_short (by simp), rfl⟩) sprintf_returns

theorem racResponse_brief (h : (racResponse W a).run s = (.ok text, s')) : Brief text := by
  obtain ⟨seed, encoded, hencode, rfl, -⟩ := racResponse_ok h
  have hlen : encoded.length ≤ 20 := by
    rw [← Option.some.inj ((base64Encode_of_short (by simp)).symm.trans hencode),
      length_encodeBlocks]
    simp
  exact brief_code rfl (lt_of_le_of_lt hlen (by decide))

/-! ## Sessions -/

/-- Credentials are awaited in this session. -/
def Unopened (a : CStr) (s : Sys) : Prop := ∃ x, s.user a = some x ∧ x.state = .connecting

/-- The program returns a response that can be sealed, or none. -/
def Answers (m : M (Option Response)) (s : Sys) : Prop :=
  ∃ r s', m.run s = (.ok r, s') ∧ ∀ x, r = some x → x.response ≠ none

/-- What the program returns is brief. -/
def AnswersBriefly (m : M (Option Response)) (s : Sys) : Prop :=
  ∀ r s' text, m.run s = (.ok (some r), s') → r.response = some text → Brief text

theorem answers_congr {m m' : M (Option Response)} {t : Sys} (h : m.run s = m'.run t) :
    Answers m s ↔ Answers m' t := by
  rw [Answers, Answers, h]

/-- A response that has been made is answered, if it is one. -/
theorem answers_map_iff {m : M Response} :
    Answers (do return some (← m)) s ↔ ∃ r s', m.run s = (.ok r, s') ∧ r.response ≠ none := by
  constructor
  · rintro ⟨_, s', h, hsome⟩
    obtain ⟨r, s₁, hm, hret⟩ := bind_ok.1 h
    cases hret
    exact ⟨r, s', hm, hsome r rfl⟩
  · rintro ⟨r, s', hm, hsome⟩
    refine ⟨some r, s', by rw [run_bind_ok hm]; rfl, ?_⟩
    rintro _ ⟨⟩
    exact hsome

/-- **Credentials are answered** wherever they are borne. -/
theorem credentials_answers_iff (data : CStr) (hx : (s.user a).isSome)
    {k : Bool → M (Option Response)} (hfalse : ∀ t, Answers (k false) t)
    (htrue : ∀ t, (t.user a).isSome → Answers (k true) t) :
    Answers (retrieveSessionCredentials W data a >>= k) s ↔ Presentable W data s.moment := by
  have hrecord : Recordable a s := .inr (Option.isSome_iff_ne_none.1 hx)
  rw [← retrieve_returns_iff hrecord]
  constructor
  · rintro ⟨r, s', h, -⟩
    obtain ⟨ok, s₁, hretrieve, -⟩ := bind_ok.1 h
    exact ⟨ok, s₁, hretrieve⟩
  · rintro ⟨ok, s₁, hretrieve⟩
    have hx₁ : (s₁.user a).isSome :=
      isSome_of_run (retrieveSessionCredentials_within trivial trivial fun _ => trivial)
        hretrieve hx
    have hanswers : Answers (k ok) s₁ := by
      cases ok with
      | false => exact hfalse s₁
      | true => exact htrue s₁ hx₁
    obtain ⟨r, s', hk, hsome⟩ := hanswers
    exact ⟨r, s', by rw [run_bind_ok hretrieve, hk], hsome⟩

theorem answers_none (s : Sys) : Answers (return none) s := ⟨none, s, rfl, nofun⟩

/-- **Which messages of a session are answered.** -/
theorem sessionResponse_answers_iff (data : CStr) (hW : Answering W) (hx : (s.user a).isSome) :
    Answers (sessionResponse W a data) s ↔
      (Unopened a s → Presentable W data s.moment) ∧ (Open a s → Bearable W a data s) := by
  obtain ⟨x, hrecord⟩ := Option.isSome_iff_exists.1 hx
  have hget : (getUserState a).run s = (.ok x.state, s) :=
    getUserState_ok.2 ⟨⟨x, hrecord, rfl⟩, rfl⟩
  have hstate {P : UserInfo → Prop} : (∃ y, s.user a = some y ∧ P y) ↔ P x := by
    rw [hrecord]
    simp
  rw [Unopened, Open, hstate, hstate]
  by_cases hconnecting : x.state = .connecting
  · have hrun : (sessionResponse W a data).run s = (retrieveSessionCredentials W data a >>=
        fun ok => if ok = true then do
          let response ← racResponse W a
          let aes ← getUserAESCtx a
          return some ⟨false, aes, some response⟩
        else return none).run s := by
      rw [sessionResponse, run_bind_ok hget, if_pos hconnecting]
    have hopened : ¬ (x.state = .connected ∨ x.state = .authorized) := by
      rw [hconnecting]
      decide
    rw [iff_true_intro hconnecting, iff_false_intro hopened, true_imp_iff, false_imp_iff, and_true,
      answers_congr hrun]
    refine credentials_answers_iff data hx answers_none fun t ht => ?_
    obtain ⟨response, t₁, hrac⟩ := racResponse_returns (W := W) ht
    obtain ⟨y, hy⟩ := Option.isSome_iff_exists.1 (isSome_of_run
      (racResponse_within trivial fun _ => trivial) hrac ht)
    have hctx : (getUserAESCtx a).run t₁ = (.ok y.aesCtx, t₁) :=
      bind_ok.2 ⟨y, t₁, derefUser_ok.2 ⟨hy, rfl⟩, rfl⟩
    refine ⟨_, t₁, by rw [if_pos rfl, run_bind_ok hrac, run_bind_ok hctx]; rfl, ?_⟩
    rintro _ ⟨⟩
    exact Option.some_ne_none _
  · rw [iff_false_intro hconnecting, false_imp_iff, true_and]
    by_cases hopened : x.state = .connected ∨ x.state = .authorized
    · have hrun : (sessionResponse W a data).run s =
          (do return some (← commandResponse W a data) : M (Option Response)).run s := by
        rw [sessionResponse, run_bind_ok hget, if_neg hconnecting,
          if_pos (connected_le_iff.2 hopened)]
      rw [iff_true_intro hopened, true_imp_iff, ← commandResponse_answers_iff hW,
        ← answers_map_iff, answers_congr hrun]
    · have hrun : (sessionResponse W a data).run s = (.ok none, s) := by
        rw [sessionResponse, run_bind_ok hget, if_neg hconnecting,
          if_neg fun h => hopened (connected_le_iff.1 h)]
        rfl
      rw [iff_false_intro hopened, false_imp_iff]
      exact iff_true_intro ⟨none, s, hrun, nofun⟩

/-- **Which messages are answered while the first invite is awaited.** -/
theorem firstInviteResponse_answers_iff (hW : Answering W) (hx : (s.user a).isSome)
    {flag : Sys → Bool} {setFlag : Bool → Sys → Sys} :
    Answers (firstInviteResponse W flag setFlag a data) s ↔
      (flag s = false → Presentable W data s.moment) ∧
        (flag s = true → Bearable W a data (setFlag false s)) := by
  cases hflag : flag s with
  | true =>
    have hrun : (firstInviteResponse W flag setFlag a data).run s =
        (do return some (← commandResponse W a data) : M (Option Response)).run
          (setFlag false s) := by
      rw [firstInviteResponse, run_get_bind, if_pos hflag]
      rfl
    rw [answers_congr hrun, ← commandResponse_answers_iff hW, ← answers_map_iff]
    simp
  | false =>
    have hrun : (firstInviteResponse W flag setFlag a data).run s =
        (retrieveSessionCredentials W data a >>= fun ok => if ok = true then do
          let aes ← getUserAESCtx a
          Prog.modify (setFlag true)
          return some ⟨false, aes, some ackMessage⟩
        else return none).run s := by
      rw [firstInviteResponse, run_get_bind, if_neg (by rw [hflag]; decide)]
    have hiff := credentials_answers_iff (W := W) data hx
      (k := fun ok => if ok = true then do
          let aes ← getUserAESCtx a
          Prog.modify (setFlag true)
          return some ⟨false, aes, some ackMessage⟩
        else return none) answers_none fun t ht => by
          obtain ⟨y, hy⟩ := Option.isSome_iff_exists.1 ht
          have hctx : (getUserAESCtx a).run t = (.ok y.aesCtx, t) :=
            bind_ok.2 ⟨y, t, derefUser_ok.2 ⟨hy, rfl⟩, rfl⟩
          refine ⟨_, setFlag true t, by rw [if_pos rfl, run_bind_ok hctx]; rfl, ?_⟩
          rintro _ ⟨⟩
          exact Option.some_ne_none _
    rw [answers_congr hrun, hiff]
    simp

/-- **What a session answers is brief.** -/
theorem sessionResponse_brief (hW : Answering W) (hinvites : W.BriefInvites) (hs : s.IntDoor) :
    AnswersBriefly (sessionResponse W a data) s := by
  intro r s' text h htext
  obtain ⟨state, s₁, hstate, hrest⟩ := bind_ok.1 h
  obtain ⟨-, rfl⟩ := getUserState_ok.1 hstate
  by_cases hconnecting : state = .connecting
  · rw [if_pos hconnecting] at hrest
    obtain ⟨_ | _, s₂, -, hopens⟩ := bind_ok.1 hrest
    · cases hopens
    · obtain ⟨response, s₃, hrac, hreads⟩ := bind_ok.1 hopens
      obtain ⟨aes, s₄, -, hret⟩ := bind_ok.1 hreads
      cases hret
      obtain rfl : response = text := Option.some.inj htext
      exact racResponse_brief hrac
  · rw [if_neg hconnecting] at hrest
    by_cases hopened : UserState.connected.num ≤ state.num
    · rw [if_pos hopened] at hrest
      obtain ⟨r', s₂, hcommand, hret⟩ := bind_ok.1 hrest
      cases hret
      exact commandResponse_brief hW hinvites hs hcommand htext
    · rw [if_neg hopened] at hrest
      cases hrest

theorem firstInviteResponse_brief (hW : Answering W) (hinvites : W.BriefInvites) (hs : s.IntDoor)
    {flag : Sys → Bool} {setFlag : Bool → Sys → Sys}
    (hset : (setFlag false s).lockState = s.lockState) :
    AnswersBriefly (firstInviteResponse W flag setFlag a data) s := by
  intro r s' text h htext
  rw [firstInviteResponse, run_get_bind] at h
  by_cases hflag : flag s = true
  · rw [if_pos hflag] at h
    obtain ⟨_, s₁, hmod, hrest⟩ := bind_ok.1 h
    cases hmod
    obtain ⟨r', s₂, hcommand, hret⟩ := bind_ok.1 hrest
    cases hret
    exact commandResponse_brief hW hinvites (hs.of_eq hset) hcommand htext
  · rw [if_neg hflag] at h
    obtain ⟨_ | _, s₂, -, hopens⟩ := bind_ok.1 h
    · cases hopens
    · obtain ⟨aes, s₃, -, hsets⟩ := bind_ok.1 hopens
      obtain ⟨_, s₄, -, hret⟩ := bind_ok.1 hsets
      cases hret
      obtain rfl : ackMessage = text := Option.some.inj htext
      exact brief_ack

end SmartLock
