import SmartLock.Crypto.Padding
import SmartLock.Handler.Reply
import SmartLock.Nonce.Stamp
import SmartLock.System.Comeback
import SmartLock.System.FirstInvite

/-!
# The heartbeat of the UART

The BLE module asks with `PNG` whether the lock is there. `echo_task` looks
for it in its buffer before it reads: a `PNG` just read is handled as a
message first, and from the next turn on it is answered without reading,
again and again. A command does the same whose text `strtok` cuts to `PNG`.
-/

namespace SmartLock

open Prog

variable {W : World} {P : List UInt8 → Sys → Prop} {s₀ s t u s' : Sys} {a data : CStr}
variable {received : List UInt8} {x : UserInfo} {n k : ℕ}

/-! ## What a heartbeat should do -/

/-- The heartbeat. -/
abbrev ping : CStr := lit "PNG"

/-- The answer to a heartbeat, whatever has been appended to it. -/
def Obs.isLOK : Obs → Bool
  | uartText text => (lit "LOK").isPrefixOf text
  | _ => false

/-- How many answers were sent between two states. -/
def loks (s s' : Sys) : ℕ := s'.log.countP Obs.isLOK - s.log.countP Obs.isLOK

/-- The turn reads a heartbeat: it looks at the buffer first, and does not
read where one is there. -/
def ReadsPing (received : List UInt8) (s : Sys) : Prop := s.data ≠ ping ∧ cstr received = ping

instance : Decidable (ReadsPing received s) := inferInstanceAs (Decidable (_ ∧ _))

variable (W P s₀) in
/-- A run of `echo_task` with Wi-Fi connected, in which the UART delivers
what `P` allows: `n` heartbeats were read, and `k` answers sent. In between
the other tasks do anything, but to the buffer and the literal. -/
inductive EchoRun : ℕ → ℕ → Sys → Prop
  | start : EchoRun 0 0 s₀
  | turn {n k : ℕ} {received : List UInt8} {s s' : Sys} (h : EchoRun n k s)
    (hwifi : s.wifiConnected = true) (hP : received ≠ [] → P received s)
    (hrun : (echoTask W received).run s = (.ok (), s')) :
    EchoRun (n + if ReadsPing received s then 1 else 0) (k + loks s s') s'
  | other {n k : ℕ} {s s' : Sys} (h : EchoRun n k s) (huart : s'.uart = s.uart) : EchoRun n k s'

/-- A call of `retrieve_session_credentials` or of `checkCommand`. -/
def Obs.isCall : Obs → Bool
  | tryCredentials _ => true
  | command _ _ => true
  | _ => false

/-- No session was changed, and nothing was taken for credentials or a
command. -/
structure Unheeded (s s' : Sys) : Prop where
  user : ∀ b, s'.user b = s.user b
  calls : Grows (fun o => o.isCall = false) s s'

variable (W P s₀) in
/-- A heartbeat is answered once: in every run from `s₀` no more answers are
sent than heartbeats were read, and those read go unheeded, however their
turn ends. -/
structure AnsweredOnce : Prop where
  count : ∀ n k s, EchoRun W P s₀ n k s → k ≤ n
  unheeded : ∀ n k s received, EchoRun W P s₀ n k s → s.wifiConnected = true → P received s →
    ReadsPing received s → Unheeded s ((echoTask W received).run s).2

/-! ## What a message is taken for -/

variable (W) in
/-- The registration status asked for is that of first-invite mode. -/
def AwaitsInvite (s : Sys) : Prop := ((getRegistrationStatus W).run s).1 = .ok registered

variable (W) in
/-- A message of the UART is taken for credentials. -/
structure ForCredentials (s : Sys) : Prop where
  known : (s.user bleUser).isSome
  invite : AwaitsInvite W s → s.gotFirstInviteSessionKey = false
  session : ¬ AwaitsInvite W s → ∃ x, s.user bleUser = some x ∧ x.state = .connecting

variable (W) in
/-- A message of the UART is taken for a command. -/
structure ForCommand (s : Sys) : Prop where
  invite : AwaitsInvite W s → s.gotFirstInviteSessionKey = true
  session : ¬ AwaitsInvite W s → Open bleUser s

variable (W) in
/-- A message of the UART is refused, and the session ended. -/
structure Dismissed (s : Sys) (x : UserInfo) : Prop where
  user : s.user bleUser = some x
  uninvited : ¬ AwaitsInvite W s
  disconnected : x.state = .disconnected

/-- The moment at which a message is decrypted: behind the request for the
status, where there is one. -/
def Sys.decryptMoment (s : Sys) : ℕ :=
  if s.registrationStatus = unknownStatus then s.moment + 1 else s.moment

/-- Two bytes are a command of one letter, and its padding. -/
structure OneLetter (b₀ b₁ : UInt8) : Prop where
  ne_nul : b₀ ≠ 0
  ne_sep : b₀ ≠ sep
  padding : b₁ ≤ 1

variable (W) in
/-- A text whose first word is `PNG` is read as a command: there is a session,
and an IV behind the word. The two bytes that decode from the word are no
block, and so the command is what the heap has for them. -/
structure ReadAsLetter (data : CStr) (s : Sys) : Prop where
  known : (s.user bleUser).isSome
  iv : ∃ t t', strtok sep data = some t ∧ strtok sep t.rest = some t' ∧
    (base64Decode t'.word).isSome
  letter : OneLetter (W.heap (s.decryptMoment + 1) 0) (W.heap (s.decryptMoment + 1) 1)

variable (W) in
/-- The turn may leave a heartbeat in the buffer only where the answer to it
ends the program, and a heartbeat is not taken for credentials, and ends no
session that a phone has. -/
structure HarmlessTurn (received : List UInt8) (s : Sys) : Prop where
  tried : cstr received = ping → ¬ ForCredentials W s
  dismissed : cstr received = ping → ∀ x, Dismissed W s x →
    W.literalsWritable = false ∧ x.phoneId = []
  cut : strtokResidue (restorePlus (cstr received)) = ping → ForCommand W s →
    W.literalsWritable = true → ¬ ReadAsLetter W (restorePlus (cstr received)) s

theorem taken_cases (hx : s.user bleUser = some x) :
    ForCredentials W s ∨ ForCommand W s ∨ Dismissed W s x := by
  by_cases hawaits : AwaitsInvite W s
  · cases hflag : s.gotFirstInviteSessionKey with
    | false => exact .inl ⟨by rw [hx]; rfl, fun _ => hflag, fun h => absurd hawaits h⟩
    | true => exact .inr (.inl ⟨fun _ => hflag, fun h => absurd hawaits h⟩)
  · cases hstate : x.state with
    | disconnected => exact .inr (.inr ⟨hx, hawaits, hstate⟩)
    | connecting =>
      exact .inl ⟨by rw [hx]; rfl, fun h => absurd h hawaits, fun _ => ⟨x, hx, hstate⟩⟩
    | connected =>
      exact .inr (.inl ⟨fun h => absurd h hawaits, fun _ => ⟨x, hx, .inl hstate⟩⟩)
    | authorized =>
      exact .inr (.inl ⟨fun h => absurd h hawaits, fun _ => ⟨x, hx, .inr hstate⟩⟩)

/-! ## What goes unheeded -/

theorem Unheeded.trans (h₁ : Unheeded s t) (h₂ : Unheeded t u) : Unheeded s u :=
  ⟨fun b => (h₂.user b).trans (h₁.user b), h₁.calls.trans h₂.calls⟩

theorem Unheeded.of_log (new : List Obs) (huser : ∀ b, t.user b = s.user b)
    (hlog : t.log = new ++ s.log) (h : ∀ o ∈ new, o.isCall = false) : Unheeded s t :=
  ⟨huser, new, hlog, h⟩

theorem unheeded_noted {o : Obs} (h : o.isCall = false) : Unheeded s (s.noted o) :=
  .of_log [o] (fun _ => user_noted o) rfl fun _ ho => List.mem_singleton.1 ho ▸ h

/-- What only looks heeds nothing. -/
theorem unheeded_of_looking (h : looking.Rel s t) : Unheeded s t := by
  refine ⟨fun b => h.user_eq id fun h => h.1, h.log.mono fun o ho => ?_⟩
  rcases ho with hamb | hno
  · cases o <;> first | rfl | cases hamb
  · cases hno

theorem Unheeded.not_called {o : Obs} {pre : List Obs} (h : Unheeded s t) (hs : s.log <:+ pre)
    (ht : o :: pre <:+ t.log) (ho : o.isCall = true) : False := by
  have hno := h.calls.of_made ⟨hs, ht⟩
  rw [ho] at hno
  cases hno

/-! ## A heartbeat as a message -/

theorem decryptBase64AES_ping {ctx : AESContext} :
    (decryptBase64AES W ctx ping).run s = (.error .nullDeref, s) := by
  have hword : strtok sep ping = some ⟨0, ping, []⟩ := by decide
  rw [decryptBase64AES, hword]
  rfl

/-- There is no second word to decode. -/
theorem commandResponse_ping (hx : s.user a = some x) :
    (commandResponse W a ping).run s = (.error .nullDeref, s.noted (.decrypt a x.aesCtx)) := by
  rw [commandResponse, run_bind_ok (run_getUserAESCtx hx), run_observe_bind,
    run_bind_error decryptBase64AES_ping]

/-- The state in which a message of the UART asks for the status. -/
def Sys.asking (received : List UInt8) (s : Sys) : Sys :=
  (s.buffered received).noted (.message bleUser)

/-- What a message asks for, and how the answer tells the mode. -/
theorem status_asked (W : World) (received : List UInt8) (s : Sys) : ∃ status t,
    (getRegistrationStatus W).run (s.asking received) = (.ok status, t) ∧
      looking.Rel (s.asking received) t ∧ (AwaitsInvite W s ↔ status = registered) := by
  obtain ⟨status, t, hrun⟩ : Returns (getRegistrationStatus W) (s.asking received) :=
    getRegistrationStatus_returns
  refine ⟨status, t, hrun, (getRegistrationStatus_within trivial).of_ok hrun, ?_⟩
  rw [AwaitsInvite, getRegistrationStatus, run_get_bind]
  rcases getRegistrationStatus_ok hrun with ⟨hstatus, hknown, _⟩ | ⟨hstatus, hanswer, _⟩
  · change s.registrationStatus = status at hstatus
    rw [hstatus, if_neg hknown, run_pure, Except.ok.injEq]
  · change s.registrationStatus = unknownStatus at hstatus
    rw [if_pos hstatus, hanswer]
    change Except.ok _ = Except.ok _ ↔ _
    rw [Except.ok.injEq]
    rfl

theorem unheeded_asking : Unheeded s (s.asking received) :=
  .of_log [.message bleUser] (fun _ => rfl) rfl fun _ ho => List.mem_singleton.1 ho ▸ rfl

/-- **What is taken for credentials is heeded.** -/
theorem ForCredentials.heeded (h : ForCredentials W s) :
    ¬ Unheeded s ((handleBleMessage W data).run (s.buffered received)).2 := by
  intro hno
  obtain ⟨x, hx⟩ := Option.isSome_iff_exists.1 h.known
  obtain ⟨status, t, hstatus, hrel, hmode⟩ := status_asked W received s
  have htries : .tryCredentials bleUser :: t.log <:+
      ((bleResponse W data).run (s.asking received)).2.log := by
    rw [bleResponse, run_bind_ok hstatus]
    by_cases hreg : status = registered
    · rw [if_pos hreg]
      refine firstInviteResponse_tries W bleUser data flagOf_uart ?_
      rw [flagOf_uart.servers _ _ (bleServers_of_servers hrel.servers)]
      exact h.invite (hmode.2 hreg)
    · obtain ⟨y, hy, hstate⟩ := h.session fun hawaits => hreg (hmode.1 hawaits)
      have hyt : t.user bleUser = some y := by
        rw [(unheeded_asking.trans (unheeded_of_looking hrel)).user, hy]
      rw [if_neg hreg, sessionResponse, run_bind_ok (getUserState_ok.2 ⟨⟨y, hyt, rfl⟩, rfl⟩),
        if_pos hstate]
      exact suffix_bind retrieveSessionCredentials_tries fun ok v => suffix_of_within <| .ite
        (fun _ => .bind (racResponse_within trivial fun _ => trivial) fun _ =>
          .bind getUserAESCtx_within fun _ => .pure _) fun _ => .pure _
  exact hno.not_called ((List.suffix_cons _ _).trans hrel.log.suffix)
    (handleBleMessage_suffix (s := s.buffered received) hx htries) rfl

/-- A message of a client without a record ends the program. -/
theorem handleBleMessage_unknown (hx : s.user bleUser = none) :
    (handleBleMessage W data).run (s.buffered received) =
      (.error .nullDeref, s.asking received) := by
  have hderef : (derefUser bleUser).run (s.asking received) =
      (.error .nullDeref, s.asking received) := by
    have hnone : (s.asking received).user bleUser = none := by
      rw [Sys.asking, user_noted]
      exact hx
    rw [derefUser, run_get_bind, hnone]
    rfl
  rw [handleBleMessage, run_observe_bind]
  exact run_bind_error (run_bind_error hderef)

/-- Where the status asked for comes with a moment of its own. -/
theorem moment_asked {status : Int}
    (h : (getRegistrationStatus W).run (s.asking received) = (.ok status, t)) :
    t.moment = s.decryptMoment := by
  rcases getRegistrationStatus_ok h with ⟨hstatus, hknown, rfl⟩ | ⟨hstatus, _, rfl⟩
  · change s.registrationStatus = status at hstatus
    rw [Sys.decryptMoment, if_neg (hstatus ▸ hknown)]
    rfl
  · change s.registrationStatus = unknownStatus at hstatus
    rw [Sys.decryptMoment, if_pos hstatus]
    rfl

/-- **A message that is taken for a command** is decrypted, in a state like
that of the turn. -/
theorem ForCommand.responds (h : ForCommand W s) (received : List UInt8) (data : CStr) : ∃ t,
    Unheeded s t ∧ t.moment = s.decryptMoment ∧
      (bleResponse W data).run (s.asking received) =
        (commandResponse W bleUser data >>= fun response => pure (some response)).run t := by
  obtain ⟨status, t, hstatus, hrel, hmode⟩ := status_asked W received s
  have ht : Unheeded s t := unheeded_asking.trans (unheeded_of_looking hrel)
  rw [bleResponse, run_bind_ok hstatus]
  by_cases hreg : status = registered
  · have hflag : t.gotFirstInviteSessionKey = true := by
      rw [flagOf_uart.servers _ _ (bleServers_of_servers hrel.servers)]
      exact h.invite (hmode.2 hreg)
    have hclear : Unheeded t { t with gotFirstInviteSessionKey := false } :=
      .of_log [] (fun _ => rfl) rfl fun _ ho => absurd ho List.not_mem_nil
    rw [if_pos hreg, firstInvite, firstInviteResponse, run_get_bind, if_pos hflag]
    have hmoment : t.moment = s.decryptMoment := moment_asked hstatus
    exact ⟨{ t with gotFirstInviteSessionKey := false }, ht.trans hclear, hmoment, run_bind_ok rfl⟩
  · obtain ⟨x, hx, hopen⟩ := h.session fun hawaits => hreg (hmode.1 hawaits)
    have hxt : t.user bleUser = some x := by rw [ht.user, hx]
    have hle := connected_le_iff.2 hopen
    rw [if_neg hreg, sessionResponse, run_bind_ok (getUserState_ok.2 ⟨⟨x, hxt, rfl⟩, rfl⟩),
      if_neg (by rcases hopen with h | h <;> rw [h] <;> decide), if_pos hle]
    exact ⟨t, ht, moment_asked hstatus, rfl⟩

/-- **A heartbeat that is taken for a command** ends the program. -/
theorem ForCommand.ping_faults (h : ForCommand W s) (hx : s.user bleUser = some x)
    (received : List UInt8) : ∃ u,
    (handleBleMessage W ping).run (s.buffered received) = (.error .nullDeref, u) ∧
      Unheeded s u := by
  obtain ⟨t, ht, -, hresponds⟩ := h.responds received ping
  have hxt : t.user bleUser = some x := by rw [ht.user, hx]
  refine ⟨t.noted (.decrypt bleUser x.aesCtx), ?_, ht.trans (unheeded_noted rfl)⟩
  rw [handleBleMessage, run_observe_bind, run_bind_ok (run_getUserAESCtx (by rwa [user_noted]))]
  exact run_bind_error (hresponds.trans (run_bind_error (commandResponse_ping hxt)))

/-! ## A command that is cut to a heartbeat -/

theorem strtokResidue_prefix (data : CStr) : strtokResidue data <+: data := by
  rw [strtokResidue]
  cases strtok sep data with
  | none => exact List.prefix_refl _
  | some t => exact List.take_prefix _ _

/-- The word that is left is the first. -/
theorem strtok_of_residue (h : strtokResidue data = ping) :
    ∃ t, strtok sep data = some t ∧ t.word = ping := by
  obtain ⟨tail, rfl⟩ : ping <+: data := h ▸ strtokResidue_prefix data
  obtain ⟨t, ht, hword, hoff⟩ : ∃ t, strtok sep (ping ++ tail) = some t ∧
      t.word <+: ping ++ tail ∧ t.off = 0 :=
    ⟨_, rfl, List.takeWhile_prefix _, Nat.sub_self _⟩
  rw [strtokResidue, ht] at h
  dsimp only at h
  rw [hoff, Nat.zero_add, ← List.prefix_iff_eq_take.1 hword] at h
  exact ⟨t, ht, h⟩

/-- Two bytes that are a letter and its padding come to the letter. -/
theorem OneLetter.unpadded {b₀ b₁ : UInt8} (h : OneLetter b₀ b₁) :
    (removePadding W [b₀, b₁] >>= fun text => pure (cstr text)).run s = (.ok [b₀], s) := by
  have hpadding : b₁.toNat ≤ 1 := h.padding
  have hnotin : (0 : UInt8) ∉ [b₀] := by simpa using h.ne_nul.symm
  rw [run_bind_ok (removePadding_returns (p := b₁) rfl (by
    rw [Exhausted, List.length_cons, List.length_singleton]
    omega))]
  rcases Nat.le_one_iff_eq_zero_or_eq_one.1 hpadding with hzero | hone
  · obtain rfl : b₁ = 0 := UInt8.toNat_inj.1 hzero
    exact congrArg (fun text => (Except.ok text, s)) (cstr_append hnotin [0])
  · rw [hone]
    exact congrArg (fun text => (Except.ok text, s)) (cstr_eq_self hnotin)

/-- Two bytes that come to a word are a letter and its padding. -/
theorem oneLetter_of_unpadded {b₀ b₁ : UInt8} {cmd : CStr}
    (h : (removePadding W [b₀, b₁] >>= fun text => pure (cstr text)).run s = (.ok cmd, t))
    (hword : strtok sep cmd ≠ none) : OneLetter b₀ b₁ := by
  have hexhausted : ¬ Exhausted W [b₀, b₁] b₁ := by
    intro hex
    rw [run_bind_error (removePadding_exhausted rfl hex)] at h
    cases h
  rw [run_bind_ok (removePadding_returns rfl hexhausted)] at h
  cases h
  rw [Exhausted, not_or, List.length_cons, List.length_singleton] at hexhausted
  have hpadding : b₁.toNat ≤ 1 := by
    by_contra hmore
    rw [show b₁.toNat = 2 by omega] at hword
    exact hword rfl
  have hletter : b₀ ≠ 0 ∧ b₀ ≠ sep := by
    rcases Nat.le_one_iff_eq_zero_or_eq_one.1 hpadding with hzero | hone
    · obtain rfl : b₁ = 0 := UInt8.toNat_inj.1 hzero
      constructor
      · rintro rfl
        exact hword rfl
      · rintro rfl
        exact hword rfl
    · rw [hone] at hword
      constructor
      · rintro rfl
        exact hword rfl
      · rintro rfl
        exact hword rfl
  exact ⟨hletter.1, hletter.2, hpadding⟩

/-- **Where the word `PNG` is decrypted**, its two bytes are unpadded as the
heap has them. -/
theorem decryptBase64AES_cut {ctx : AESContext} {t₁ t₂ : Tok} {iv : List UInt8}
    (ht₁ : strtok sep data = some t₁) (hping : t₁.word = ping) (ht₂ : strtok sep t₁.rest = some t₂)
    (hiv : base64Decode t₂.word = some iv) :
    (decryptBase64AES W ctx data).run s =
      (removePadding W [W.heap (s.moment + 1) 0, W.heap (s.moment + 1) 1] >>= fun text =>
        pure (cstr text)).run s.ticked.ticked := by
  have hdecode : base64Decode ping = some [60, 209] := by decide
  rw [decryptBase64AES, run_bind_ok (deref_ok.2 ⟨ht₁, rfl⟩), run_bind_ok (deref_ok.2 ⟨ht₂, rfl⟩)]
  dsimp only
  rw [hping, hdecode, hiv, run_bind_ok (deref_ok.2 ⟨rfl, rfl⟩), run_bind_ok (deref_ok.2 ⟨rfl, rfl⟩)]
  rfl

/-- A command of one letter is not known. -/
theorem checkCommand_letter {b₀ : UInt8} (hsep : b₀ ≠ sep) :
    ∃ u, (checkCommand W [b₀] a).run s = (.ok (some nakMessage), u) := by
  have hword : word [b₀] = some [b₀] := by
    have hnotin : sep ∉ [b₀] := by simpa using hsep.symm
    obtain ⟨t, ht, hw, -⟩ := strtok_of_words (words_of_notMem (List.cons_ne_nil b₀ []) hnotin)
    rw [word, getCommand, ht, ← hw]
    rfl
  have hne {w : CStr} (hlen : w.length = 3) : [b₀] ≠ w := by
    rintro rfl
    cases hlen
  obtain ⟨c, -, -, hdispatch⟩ := exists_dispatch (W := W) (a := a) hword
  obtain ⟨_, u, hreset⟩ := reset_returns (W := W) (s := s)
  rw [hdispatch, if_neg (hne (by decide)), if_neg (hne (by decide)), if_neg (hne (by decide)),
    if_neg (hne (by decide)), if_neg (hne (by decide)), if_neg (hne (by decide)),
    if_neg (hne (by decide)), if_neg (hne (by decide)), run_bind_ok hreset]
  exact ⟨u, rfl⟩

/-- A short reply is sealed and sent. -/
theorem reply_returns {aes : AESContext} {text : CStr} (hlen : text.length ≤ 100) :
    Returns (do
      setData data
      let responseEnc ← sealResponse W aes (some text)
      let text ← deref (some text)
      sendData responseEnc.length responseEnc (.reply bleUser aes text)) s := by
  refine .bind ⟨_, _, rfl⟩ fun _ s₁ _ => ?_
  obtain ⟨s₂, hstamps⟩ := addTimestampsAndNonceToMsg_run W text s₁
  have hshort : (addPadding (stamped text (W.clock s₁.moment) (W.random (s₁.moment + 1)))).length <
      sizeMax / 4 := by
    have hstamped := length_stamped_le text (W.clock s₁.moment) (W.random (s₁.moment + 1))
    rw [length_addPadding, sizeMax]
    omega
  obtain ⟨enc, _, s₃, hencrypts, -⟩ := encryptStrAES_run (W := W) aes s₂ hshort
  refine .step (bind_ok.2 ⟨_, s₂, hstamps, hencrypts⟩) (.step rfl ?_)
  rw [sendData]
  exact .step (run_sprintf ..) ⟨_, _, rfl⟩

/-- **A command that is cut to a heartbeat returns** exactly if it is read as
a letter. -/
theorem ForCommand.returns_iff (h : ForCommand W s) (received : List UInt8)
    (hcut : strtokResidue data = ping) :
    Returns (handleBleMessage W data) (s.buffered received) ↔ ReadAsLetter W data s := by
  obtain ⟨t, ht, hmoment, hresponds⟩ := h.responds received data
  obtain ⟨t₁, ht₁, hping⟩ := strtok_of_residue hcut
  constructor
  · rintro ⟨_, s', hrun⟩
    obtain ⟨x, hx⟩ : ∃ x, s.user bleUser = some x := by
      rw [← Option.ne_none_iff_exists']
      intro hx
      rw [handleBleMessage_unknown hx] at hrun
      cases hrun
    rw [handleBleMessage, run_observe_bind,
      run_bind_ok (run_getUserAESCtx (x := x) (by rw [user_noted]; exact hx))] at hrun
    obtain ⟨r, u, hresponse, -⟩ := bind_ok.1 hrun
    obtain ⟨response, u', hcommand, -⟩ := bind_ok.1 (hresponds.symm.trans hresponse)
    obtain ⟨x', cmd, s₁, reply, -, ⟨v, hdecrypts, -⟩, hcheck, -⟩ := commandResponse_ok hcommand
    obtain ⟨c, hword, -⟩ := checkCommand_ok hcheck
    have hdecrypt := hdecrypts
    -- both words decode
    obtain ⟨p₁, _, hderef₁, hrest⟩ := bind_ok.1 hdecrypt
    obtain ⟨hp₁, rfl⟩ := deref_ok.1 hderef₁
    obtain ⟨t₂, _, hderef₂, hrest⟩ := bind_ok.1 hrest
    obtain ⟨ht₂, rfl⟩ := deref_ok.1 hderef₂
    obtain ⟨_, _, hdata, hrest⟩ := bind_ok.1 hrest
    obtain ⟨_, rfl⟩ := deref_ok.1 hdata
    obtain ⟨iv, _, hderef, -⟩ := bind_ok.1 hrest
    obtain ⟨hiv, -⟩ := deref_ok.1 hderef
    obtain rfl : t₁ = p₁ := Option.some.inj (ht₁.symm.trans hp₁)
    rw [decryptBase64AES_cut ht₁ hping ht₂ hiv] at hdecrypts
    have hletter := oneLetter_of_unpadded hdecrypts fun hnone => by
      rw [getCommand, hnone] at hword
      cases hword
    refine ⟨by rw [hx]; rfl, ⟨t₁, t₂, ht₁, ht₂, by rw [hiv]; rfl⟩, ?_⟩
    rw [← hmoment]
    exact hletter
  · rintro ⟨hknown, ⟨p₁, t₂, hp₁, ht₂, hdecodes⟩, hletter⟩
    obtain rfl : t₁ = p₁ := Option.some.inj (ht₁.symm.trans hp₁)
    obtain ⟨x, hx⟩ := Option.isSome_iff_exists.1 hknown
    obtain ⟨iv, hiv⟩ := Option.isSome_iff_exists.1 hdecodes
    rw [← hmoment] at hletter
    have hxt : t.user bleUser = some x := by rw [ht.user, hx]
    obtain ⟨u, hcheck⟩ := checkCommand_letter (W := W) (a := bleUser) hletter.ne_sep
      (s := (t.noted (.decrypt bleUser x.aesCtx)).ticked.ticked.noted
        (.command bleUser [W.heap (t.moment + 1) 0]))
    have hcommand : (commandResponse W bleUser data).run t =
        (.ok ⟨true, x.aesCtx, some nakMessage⟩, u) := by
      have hdecrypts : (decryptBase64AES W x.aesCtx data).run
          (t.noted (.decrypt bleUser x.aesCtx)) = _ :=
        (decryptBase64AES_cut ht₁ hping ht₂ hiv).trans hletter.unpadded
      rw [commandResponse, run_bind_ok (run_getUserAESCtx hxt), run_observe_bind,
        run_bind_ok hdecrypts, run_observe_bind, run_bind_ok hcheck]
      rfl
    have hresponse : (bleResponse W data).run (s.asking received) =
        (.ok (some ⟨true, x.aesCtx, some nakMessage⟩), u) := by
      rw [hresponds, run_bind_ok hcommand]
      rfl
    rw [handleBleMessage]
    refine .step rfl (.step (run_getUserAESCtx (x := x) (by rw [user_noted]; exact hx)) ?_)
    exact .step hresponse (reply_returns (by decide))

/-- **A message that is refused** ends the session that is over once more,
and stays in the buffer. -/
theorem Dismissed.run (h : Dismissed W s x) (received : List UInt8) (data : CStr) : ∃ u,
    (handleBleMessage W data).run (s.buffered received) = (.ok (), u) ∧
      u.uart = (s.buffered received).uart ∧
      Wrote bleUser (fun y => { y with state := .disconnected, phoneId := [] }) s u ∧
      Grows (fun o => o.isCall = false) s u := by
  obtain ⟨status, t, hstatus, hrel, hmode⟩ := status_asked W received s
  have ht : Unheeded s t := unheeded_asking.trans (unheeded_of_looking hrel)
  have hxt : t.user bleUser = some x := by rw [ht.user, h.user]
  have hresponse : (bleResponse W data).run (s.asking received) = (.ok none, t) := by
    rw [bleResponse, run_bind_ok hstatus, if_neg fun hreg => h.uninvited (hmode.2 hreg),
      sessionResponse, run_bind_ok (getUserState_ok.2 ⟨⟨x, hxt, rfl⟩, rfl⟩), h.disconnected]
    rfl
  obtain ⟨v, hset⟩ := setUserState_returns_of_some (W := W) hxt .disconnected [] (by decide)
  have hwrites := setUserState_writes hset
  refine ⟨v.noted (.uartText (lit "AT+DISC\r\n")), ?_, hwrites.uart.trans hrel.uart, ?_, ?_⟩
  · rw [handleBleMessage, run_observe_bind,
      run_bind_ok (run_getUserAESCtx (x := x) (by rw [user_noted]; exact h.user))]
    refine (run_bind_ok hresponse).trans ?_
    change (disconnectBle W).run t = _
    rw [disconnectBle, run_bind_ok hset]
    rfl
  · have hwrote := (setUserState_ok hset).of_user ht.user
    exact hwrote.congr rfl
  · have hv : Grows (fun o => o.isCall = false) t v := (writing_log hwrites).mono fun o ho => by
      cases o <;> first | rfl | cases ho
    exact (ht.calls.trans hv).trans (unheeded_noted rfl).calls

/-! ## What a turn leaves in the buffer -/

/-- Neither the buffer nor the literal is touched. -/
def sameUart : Frame Sys := ⟨fun s t => t.uart = s.uart, fun _ => rfl, fun h₁ h₂ => h₂.trans h₁⟩

theorem sameUart_of_talking (s t : Sys) (h : (talking bleUser).Rel s t) : sameUart.rel s t := h.uart

theorem firstInvite_uart : Steps sameUart (firstInvite W bleUser data) :=
  firstInviteResponse_steps (talking_serves _) sameUart_of_talking fun _ _ => rfl

/-- The answer is that to a command. -/
def Decrypted (r : Option Response) : Prop :=
  ∃ response, r = some response ∧ response.decrypted = true

theorem firstInviteResponse_decrypted {flag : Sys → Bool} {setFlag : Bool → Sys → Sys}
    {r : Option Response} (h : (firstInviteResponse W flag setFlag a data).run s = (.ok r, s')) :
    Decrypted r ↔ flag s = true := by
  rw [firstInviteResponse, run_get_bind] at h
  by_cases hflag : flag s = true
  · rw [if_pos hflag] at h
    obtain ⟨_, t, _, hcommand⟩ := bind_ok.1 h
    obtain ⟨response, t₁, hrun, hret⟩ := bind_ok.1 hcommand
    obtain ⟨x, cmd, s₁, reply, _, _, _, rfl⟩ := commandResponse_ok hrun
    cases hret
    exact iff_of_true ⟨_, rfl, rfl⟩ hflag
  · rw [if_neg hflag] at h
    refine iff_of_false ?_ hflag
    rintro ⟨response, rfl, hdecrypted⟩
    obtain ⟨ok, t, _, hanswers⟩ := bind_ok.1 h
    cases ok with
    | false => cases hanswers
    | true =>
      obtain ⟨aes, t₁, _, hsets⟩ := bind_ok.1 hanswers
      cases hsets
      cases hdecrypted

theorem sessionResponse_decrypted {r : Option Response}
    (h : (sessionResponse W a data).run s = (.ok r, s')) : Decrypted r ↔ Open a s := by
  obtain ⟨x, hx, hexchange⟩ := sessionResponse_ok h
  have hopen : Open a s ↔ x.state = .connected ∨ x.state = .authorized := by
    refine ⟨?_, fun hopen => ⟨x, hx, hopen⟩⟩
    rintro ⟨y, hy, hopen⟩
    rw [hx, Option.some.injEq] at hy
    rwa [hy]
  rw [hopen]
  cases hexchange with
  | command hstate => exact iff_of_true ⟨_, rfl, rfl⟩ hstate
  | refused hstate => exact iff_of_false nofun (by rw [hstate]; decide)
  | ignored hstate => exact iff_of_false nofun (by rw [hstate]; decide)
  | opened hstate =>
    refine iff_of_false ?_ (by rw [hstate]; decide)
    rintro ⟨response, hr, hdecrypted⟩
    cases hr
    cases hdecrypted

/-- **What a message leaves in the buffer**: itself, or its first word where
it was taken for a command. -/
theorem handleBleMessage_data
    (h : (handleBleMessage W (restorePlus (cstr received))).run (s.buffered received) =
      (.ok (), s')) :
    (ForCommand W s → s'.data = strtokResidue (restorePlus (cstr received))) ∧
      (¬ ForCommand W s → s'.data = restorePlus (cstr received)) := by
  obtain ⟨status, t, hstatus, hrel, hmode⟩ := status_asked W received s
  obtain ⟨status', t', r, u, hstatus', hresponse, hreplies⟩ := handleBleMessage_ok h
  obtain ⟨rfl, rfl⟩ : status = status' ∧ t = t' := by
    have heq := hstatus.symm.trans hstatus'
    simpa using heq
  have ht : Unheeded s t := unheeded_asking.trans (unheeded_of_looking hrel)
  have hflag : t.gotFirstInviteSessionKey = s.gotFirstInviteSessionKey :=
    flagOf_uart.servers _ _ (bleServers_of_servers hrel.servers)
  obtain ⟨hkeeps, hcommand⟩ : u.uart = t.uart ∧ (Decrypted r ↔ ForCommand W s) := by
    by_cases hreg : status = registered
    · rw [if_pos hreg] at hresponse
      refine ⟨firstInvite_uart.of_ok hresponse, (firstInviteResponse_decrypted hresponse).trans ?_⟩
      rw [hflag]
      exact ⟨fun hset => ⟨fun _ => hset, fun hno => absurd (hmode.2 hreg) hno⟩,
        fun hc => hc.invite (hmode.2 hreg)⟩
    · rw [if_neg hreg] at hresponse
      have huart : sameUart.rel t u :=
        ((sessionResponse_within (talking_serves _)).mono sameUart_of_talking).of_ok hresponse
      refine ⟨huart, (sessionResponse_decrypted hresponse).trans ?_⟩
      have hopen : Open bleUser t ↔ Open bleUser s := by rw [Open, Open, ht.user]
      have hno : ¬ AwaitsInvite W s := fun hawaits => hreg (hmode.1 hawaits)
      rw [hopen]
      exact ⟨fun hopen => ⟨fun hawaits => absurd hawaits hno, fun _ => hopen⟩,
        fun hc => hc.session hno⟩
  rw [← hcommand]
  rcases hreplies with ⟨rfl, v, hset, rfl⟩ | ⟨response, rfl, hreply⟩
  · have hv : v.uart = (s.buffered received).uart :=
      ((setUserState_writes hset).uart.trans hkeeps).trans hrel.uart
    refine ⟨?_, fun _ => congrArg Prod.fst hv⟩
    rintro ⟨_, heq, _⟩
    cases heq
  · have hdata := congrArg Prod.fst hreply.uart
    change s'.data = _ at hdata
    refine ⟨?_, fun hno => ?_⟩
    · rintro ⟨_, heq, hdecrypted⟩
      cases heq
      exact hdata.trans (if_pos hdecrypted)
    · exact hdata.trans (if_neg fun hdecrypted => hno ⟨response, rfl, hdecrypted⟩)

theorem restorePlus_ne_ping (h : data ≠ ping) : restorePlus data ≠ ping := by
  rw [restorePlus.eq_def]
  split
  · intro heq
    cases heq
  · exact h

/-- No answer is sent, and the literal stays as it is. -/
def silently : Frame Sys where
  rel s t := t.lokLiteral = s.lokLiteral ∧ Grows (fun o => o.isLOK = false) s t
  refl s := ⟨rfl, Grows.refl _ s⟩
  trans h₁ h₂ := ⟨h₂.1.trans h₁.1, h₁.2.trans h₂.2⟩

/-- What is no answer. -/
def noLOK : Footprint := ⟨fun _ => True, True, True, True, True, True, fun o => o.isLOK = false⟩

theorem silently_of_noLOK (s t : Sys) (h : noLOK.Rel s t) : silently.rel s t := by
  refine ⟨congrArg Prod.snd h.uart, h.log.mono fun o ho => ho.elim (fun hamb => ?_) id⟩
  cases o <;> first | rfl | cases hamb

theorem noLOK_answers : noLOK.Answers where
  serves := by constructor <;> intros <;> trivial
  message := rfl
  disc := by rw [noLOK]; decide
  reply _ _ _ := rfl

theorem silently_modify {f : Sys → Sys} (hlit : ∀ s, (f s).lokLiteral = s.lokLiteral)
    (hlog : ∀ s, (f s).log = s.log) : Steps silently (Prog.modify f : M Unit) :=
  .modify fun s => ⟨hlit s, Grows.of_log _ (hlog s)⟩

theorem handleATCmd_silent : Steps silently (handleATCmd W data) := by
  have hwithin {α : Type} {m : M α} (hm : Within noLOK m) : Steps silently m :=
    hm.mono silently_of_noLOK
  exact .ite (fun _ => .bind (hwithin (observe_within (.inr rfl))) fun _ =>
      .bind (hwithin (setUserState_within trivial)) fun _ =>
        .bind (silently_modify (fun _ => rfl) fun _ => rfl) fun _ =>
          silently_modify (fun _ => rfl) fun _ => rfl)
    fun _ => .ite (fun _ => .bind (hwithin (setUserState_within trivial)) fun _ =>
      .bind (silently_modify (fun _ => rfl) fun _ => rfl) fun _ =>
        .bind (silently_modify (fun _ => rfl) fun _ => rfl) fun _ =>
          hwithin (observe_within (.inr rfl))) fun _ => .pure ()

theorem handleBleMessage_silent : Steps silently (handleBleMessage W data) :=
  handleBleMessage_steps noLOK_answers silently_of_noLOK
    (fun _ _ => ⟨rfl, Grows.of_log _ rfl⟩) fun _ _ => ⟨rfl, Grows.of_log _ rfl⟩

/-! ## The turns -/

theorem loks_of_silent (h : silently.rel s t) : loks s t = 0 := by
  obtain ⟨new, hnew, hp⟩ := h.2
  have hnone : new.countP Obs.isLOK = 0 := List.countP_eq_zero.2 fun o ho => by simp [hp o ho]
  rw [loks, hnew, List.countP_append, hnone]
  omega

/-- **A turn that does not find a heartbeat** sends no answer. It leaves one
only where it has read one, or a command that is cut to one. -/
theorem echoTask_reads (hdata : s.data ≠ ping) (h : (echoTask W received).run s = (.ok (), s')) :
    silently.rel s s' ∧ (s'.data = ping → cstr received = ping ∨
      strtokResidue (restorePlus (cstr received)) = ping ∧ ForCommand W s) := by
  rw [echoTask, run_get_bind, if_neg hdata] at h
  by_cases hwifi : s.wifiConnected ∧ received ≠ []
  · rw [if_pos hwifi] at h
    dsimp only at h
    have hbuffer (text : CStr) : silently.rel s { s with data := text } := ⟨rfl, Grows.of_log _ rfl⟩
    by_cases hline : strncmpEq (lit "AT+") (cstr received) 3 ∨ strncmpEq (lit "+") (cstr received) 1
    · rw [if_pos hline] at h
      have hkept : s'.data = cstr received := by
        rcases handleATCmd_ok h with ⟨_, t, hset, rfl⟩ | ⟨_, t, hset, rfl⟩ | rfl
        · exact congrArg Prod.fst (setUserState_writes hset).uart
        · exact congrArg Prod.fst (setUserState_writes hset).uart
        · rfl
      exact ⟨silently.trans (hbuffer _) (handleATCmd_silent.of_ok h),
        fun hleft => .inl (hkept.symm.trans hleft)⟩
    · rw [if_neg hline] at h
      refine ⟨silently.trans (hbuffer _) (handleBleMessage_silent.of_ok h), fun hleft => ?_⟩
      obtain ⟨hcut, hkept⟩ := handleBleMessage_data h
      by_cases hcommand : ForCommand W s
      · exact .inr ⟨(hcut hcommand).symm.trans hleft, hcommand⟩
      · by_contra hno
        rw [not_or] at hno
        exact restorePlus_ne_ping hno.1 ((hkept hcommand).symm.trans hleft)
  · rw [if_neg hwifi] at h
    cases h
    exact ⟨silently.refl s, fun hleft => absurd hleft hdata⟩

/-- A turn that finds a heartbeat answers it. -/
theorem echoTask_answers (hdata : s.data = ping) :
    (echoTask W received).run s = (sendLOK W).run s := by
  rw [echoTask, run_get_bind, if_pos hdata]

/-- **The turn that reads what may leave a heartbeat** handles it as a
message. -/
theorem echoTask_message (hwifi : s.wifiConnected = true) (hdata : s.data ≠ ping)
    (hcut : strtokResidue (restorePlus (cstr received)) = ping) :
    (echoTask W received).run s =
      (handleBleMessage W (restorePlus (cstr received))).run (s.buffered received) := by
  obtain ⟨rest, hrest⟩ : ∃ rest, restorePlus (cstr received) = 80 :: rest := by
    obtain ⟨tail, htail⟩ := strtokResidue_prefix (restorePlus (cstr received))
    rw [hcut] at htail
    exact ⟨_, htail.symm⟩
  have hstart : cstr received = 80 :: rest := by
    rw [restorePlus.eq_def] at hrest
    split at hrest
    · cases hrest
    · exact hrest
  have hne : received ≠ [] := by
    rintro rfl
    cases hstart
  have hline : ¬ (strncmpEq (lit "AT+") (cstr received) 3 ∨
      strncmpEq (lit "+") (cstr received) 1) := by
    rw [hstart]
    rintro (h | h) <;> cases h
  rw [echoTask, run_get_bind, if_neg hdata, if_pos ⟨hwifi, hne⟩]
  dsimp only
  rw [if_neg hline]
  rfl

/-- So is the turn that reads a heartbeat itself. -/
theorem echoTask_ping (hwifi : s.wifiConnected = true) (h : ReadsPing received s) :
    (echoTask W received).run s = (handleBleMessage W ping).run (s.buffered received) := by
  have hcut : strtokResidue (restorePlus (cstr received)) = ping := by
    rw [h.2]
    decide
  rw [echoTask_message hwifi h.1 hcut, h.2]
  rfl

/-- A heartbeat whose turn returns was taken for credentials, or refused. -/
theorem echoTask_ping_returns (hwifi : s.wifiConnected = true) (h : ReadsPing received s)
    (hrun : (echoTask W received).run s = (.ok (), s')) :
    ForCredentials W s ∨ ∃ x, Dismissed W s x := by
  rw [echoTask_ping hwifi h] at hrun
  cases hx : s.user bleUser with
  | none =>
    rw [handleBleMessage_unknown hx] at hrun
    cases hrun
  | some x =>
    rcases taken_cases (W := W) hx with htried | hcommand | hdismissed
    · exact .inl htried
    · obtain ⟨u, hfaults, -⟩ := hcommand.ping_faults hx received
      rw [hfaults] at hrun
      cases hrun
    · exact .inr ⟨x, hdismissed⟩

/-- **A heartbeat read goes unheeded** exactly if it is not taken for
credentials, and ends no session that a phone has. -/
theorem unheeded_iff (hwifi : s.wifiConnected = true) (h : ReadsPing received s) :
    Unheeded s ((echoTask W received).run s).2 ↔
      ¬ ForCredentials W s ∧ ∀ x, Dismissed W s x → x.phoneId = [] := by
  rw [echoTask_ping hwifi h]
  constructor
  · refine fun hno => ⟨fun hcred => hcred.heeded hno, fun x hx => ?_⟩
    obtain ⟨u, hrun, -, hwrote, -⟩ := hx.run received ping
    rw [hrun] at hno
    have hsame := (hwrote.of_some hx.user).symm.trans ((hno.user _).trans hx.user)
    rw [Option.some.injEq] at hsame
    exact (congrArg UserInfo.phoneId hsame).symm
  · rintro ⟨hcred, hphone⟩
    cases hx : s.user bleUser with
    | none =>
      rw [handleBleMessage_unknown hx]
      exact unheeded_asking
    | some x =>
      rcases taken_cases (W := W) hx with htried | hcommand | hdismissed
      · exact absurd htried hcred
      · obtain ⟨u, hrun, hu⟩ := hcommand.ping_faults hx received
        rw [hrun]
        exact hu
      · obtain ⟨u, hrun, -, hwrote, hcalls⟩ := hdismissed.run received ping
        rw [hrun]
        refine ⟨fun b => ?_, hcalls⟩
        by_cases hkey : hashKey b = hashKey bleUser
        · have hsame : s.user b = s.user bleUser := by rw [Sys.user, Sys.user, hkey]
          have hsame' : u.user b = u.user bleUser := by rw [Sys.user, Sys.user, hkey]
          rw [hsame, hsame', hx, hwrote.of_some hx, ← hdismissed.disconnected, ← hphone x hdismissed]
        · exact hwrote.others b hkey

/-- **A turn that answers** sends one `LOK`, leaves the heartbeat where it
is, and reads nothing. -/
theorem sendLOK_answers (h : (sendLOK W).run s = (.ok (), s'))
    (hliteral : lit "LOK" <+: s.lokLiteral) : loks s s' = 1 ∧ s'.data = s.data := by
  obtain ⟨-, rfl⟩ := sendLOK_ok h
  refine ⟨?_, rfl⟩
  have hsent : Obs.isLOK (.uartText (s.lokLiteral ++ [4])) = true :=
    List.isPrefixOf_iff_prefix.2 (hliteral.trans (List.prefix_append _ _))
  have hoverruns : (overruns 4 (s.lokLiteral ++ [4])).countP Obs.isLOK = 0 := by
    refine List.countP_eq_zero.2 fun o ho => ?_
    obtain ⟨-, rfl⟩ := mem_overruns.1 ho
    exact Bool.false_ne_true
  rw [loks, List.countP_cons_of_pos hsent, List.countP_append, hoverruns]
  omega

/-! ## Runs -/

/-- Only `echo_task` touches its buffer and the literal. -/
theorem step_uart (hs : Wired W s) {e : Event} (he : ∀ received, e ≠ .uart received) :
    ((step W e).run s).2.uart = s.uart := by
  by_cases hstatus : ∃ status, e = .serverStatus status
  · obtain ⟨status, rfl⟩ := hstatus
    rfl
  · have htalks (a : CStr) : sameUart.Talks a := fun _ _ h => h.uart
    exact servers_step (F := sameUart)
      (fun ip => ⟨htalks _, fun _ _ => rfl, fun _ => rfl, fun _ => rfl, fun _ => rfl, fun _ => rfl,
        fun _ => rfl⟩)
      (fun _ bda => ⟨htalks _, fun _ => rfl, fun _ => rfl, fun _ => rfl, fun _ _ => rfl⟩)
      (fun received heq => absurd heq (he received)) hs (fun status heq => hstatus ⟨status, heq⟩)
      (fun _ _ => rfl) fun _ => rfl

/-- **What happens to the lock with Wi-Fi connected** is such a run. -/
theorem EchoRun.step (h : EchoRun W P s₀ n k s) (hs : Wired W s) (hwifi : s.wifiConnected = true)
    {e : Event} (hP : ∀ received, e = .uart received → P received s)
    (hrun : (step W e).run s = (.ok (), s')) : ∃ n' k', EchoRun W P s₀ n' k' s' := by
  by_cases huart : ∃ received, e = .uart received
  · obtain ⟨received, rfl⟩ := huart
    rw [SmartLock.step, run_get_bind] at hrun
    by_cases henabled : (Event.uart received).enabled W s
    · rw [if_pos henabled] at hrun
      exact ⟨_, _, h.turn hwifi (fun _ => hP received rfl) hrun⟩
    · rw [if_neg henabled] at hrun
      cases hrun
      exact ⟨n, k, h⟩
  · have hkept := step_uart hs fun received heq => huart ⟨received, heq⟩
    rw [hrun] at hkept
    exact ⟨n, k, h.other hkept⟩

/-- The literal still begins as it did. -/
theorem EchoRun.literal (hs₀ : lit "LOK" <+: s₀.lokLiteral) (h : EchoRun W P s₀ n k s) :
    lit "LOK" <+: s.lokLiteral := by
  induction h with
  | start => exact hs₀
  | @turn n k received s s' _ _ _ hrun ih =>
    by_cases hdata : s.data = ping
    · rw [echoTask_answers hdata] at hrun
      obtain ⟨-, rfl⟩ := sendLOK_ok hrun
      exact ih.trans (List.prefix_append _ _)
    · rwa [(echoTask_reads hdata hrun).1.1]
  | @other n k s s' _ huart ih =>
    have hkept : s'.lokLiteral = s.lokLiteral := congrArg Prod.snd huart
    rwa [hkept]

/-- **A heartbeat in the buffer is answered again and again**, at turns for
which the UART delivers nothing. -/
theorem EchoRun.idle (h : EchoRun W P s₀ n k s) (hdata : s.data = ping)
    (hwifi : s.wifiConnected = true) (hliteral : lit "LOK" <+: s.lokLiteral)
    (hwritable : W.literalsWritable = true) (m : ℕ) : ∃ u, EchoRun W P s₀ n (k + m) u := by
  suffices hrun : ∃ u, EchoRun W P s₀ n (k + m) u ∧ u.data = ping ∧ u.wifiConnected = true ∧
      lit "LOK" <+: u.lokLiteral from hrun.imp fun _ h => h.1
  induction m with
  | zero => exact ⟨s, h, hdata, hwifi, hliteral⟩
  | succ m ih =>
    obtain ⟨u, hu, hdatau, hwifiu, hliteralu⟩ := ih
    obtain ⟨v, hv⟩ : ∃ v, (sendLOK W).run u = (.ok (), v) := by
      rw [sendLOK, run_bind_ok (run_faultIf_of_not (not_not.2 hwritable) _ _), run_get_bind,
        run_bind_ok (run_sprintf ..)]
      exact ⟨_, rfl⟩
    obtain ⟨hone, hkept⟩ := sendLOK_answers hv hliteralu
    have hnothing : ([] : List UInt8) ≠ [] → P [] u := fun hne => absurd rfl hne
    have hturn : EchoRun W P s₀ _ _ v :=
      hu.turn hwifiu hnothing ((echoTask_answers hdatau).trans hv)
    rw [hone, if_neg fun hread => hread.1 hdatau] at hturn
    obtain ⟨-, rfl⟩ := sendLOK_ok hv
    exact ⟨_, hturn, hkept.trans hdatau, hwifiu, hliteralu.trans (List.prefix_append _ _)⟩

/-- **No turn of a run leaves a heartbeat in the buffer** that could be
answered, where all turns that read are harmless. -/
theorem EchoRun.harmless (hs₀ : W.literalsWritable = true → s₀.data ≠ ping)
    (hharmless : ∀ n k s received, EchoRun W P s₀ n k s → s.wifiConnected = true →
      P received s → s.data ≠ ping → HarmlessTurn W received s) (h : EchoRun W P s₀ n k s) :
    k = 0 ∧ (W.literalsWritable = true → s.data ≠ ping) := by
  induction h with
  | start => exact ⟨rfl, hs₀⟩
  | @turn n k received s s' hrun hwifi hP hturn ih =>
    by_cases hdata : s.data = ping
    · rw [echoTask_answers hdata] at hturn
      exact absurd hdata (ih.2 (sendLOK_ok hturn).1)
    · obtain ⟨hsilent, hleft⟩ := echoTask_reads hdata hturn
      refine ⟨by rw [ih.1, loks_of_silent hsilent], fun hwritable hping => ?_⟩
      have hne : received ≠ [] := by
        rintro rfl
        rcases hleft hping with h | ⟨h, -⟩ <;> cases h
      have hread := hharmless n k s received hrun hwifi (hP hne) hdata
      rcases hleft hping with hreceived | ⟨hcut, hcommand⟩
      · rcases echoTask_ping_returns hwifi ⟨hdata, hreceived⟩ hturn with htried | ⟨x, hdismissed⟩
        · exact hread.tried hreceived htried
        · exact absurd (hread.dismissed hreceived x hdismissed).1 (by rw [hwritable]; decide)
      · rw [echoTask_message hwifi hdata hcut] at hturn
        have hletter := (hcommand.returns_iff received hcut).1 ⟨(), s', hturn⟩
        exact hread.cut hcut hcommand hwritable hletter
  | @other n k s s' _ huart ih =>
    have hkept : s'.data = s.data := congrArg Prod.fst huart
    exact ⟨ih.1, by rw [hkept]; exact ih.2⟩

/-- **A heartbeat is answered once** exactly if none is there at the start
that can be answered, and every turn that reads is harmless. -/
theorem answeredOnce_iff (W : World) (P : List UInt8 → Sys → Prop) (s₀ : Sys)
    (hliteral : lit "LOK" <+: s₀.lokLiteral) :
    AnsweredOnce W P s₀ ↔ (W.literalsWritable = true → s₀.data ≠ ping) ∧
      ∀ n k s received, EchoRun W P s₀ n k s → s.wifiConnected = true → P received s →
        s.data ≠ ping → HarmlessTurn W received s := by
  constructor
  · intro h
    have hnone {n k : ℕ} {s : Sys} (hrun : EchoRun W P s₀ n k s)
        (hwritable : W.literalsWritable = true) : s.data ≠ ping := by
      intro hdata
      have hwifi : EchoRun W P s₀ n k { s with wifiConnected := true } := hrun.other rfl
      obtain ⟨u, hu⟩ := hwifi.idle hdata rfl (hwifi.literal hliteral) hwritable (n + 1)
      have hle := h.count _ _ _ hu
      omega
    refine ⟨hnone .start, fun n k s received hrun hwifi hP hdata => ?_⟩
    have hturn {s' : Sys} (h : (echoTask W received).run s = (.ok (), s')) :=
      EchoRun.turn hrun hwifi (fun _ => hP) h
    have hunheeded (hping : cstr received = ping) :=
      (unheeded_iff hwifi ⟨hdata, hping⟩).1 (h.unheeded n k s received hrun hwifi hP ⟨hdata, hping⟩)
    refine ⟨fun hping => (hunheeded hping).1, fun hping x hdismissed =>
      ⟨?_, (hunheeded hping).2 x hdismissed⟩, fun hcut hcommand hwritable hletter => ?_⟩
    · obtain ⟨u, hu, huart, -⟩ := hdismissed.run received ping
      rw [← echoTask_ping hwifi ⟨hdata, hping⟩] at hu
      have hleft : u.data = ping := (congrArg Prod.fst huart).trans (by
        change restorePlus (cstr received) = ping
        rw [hping]
        rfl)
      exact Bool.eq_false_iff.2 fun hwritable => hnone (hturn hu) hwritable hleft
    · obtain ⟨_, s', hs'⟩ := (hcommand.returns_iff received hcut).2 hletter
      have hleft : s'.data = ping := ((handleBleMessage_data hs').1 hcommand).trans hcut
      rw [← echoTask_message hwifi hdata hcut] at hs'
      exact hnone (hturn hs') hwritable hleft
  · rintro ⟨hs₀, hharmless⟩
    refine ⟨fun n k s hrun => ?_, fun n k s received hrun hwifi hP hread => ?_⟩
    · rw [(hrun.harmless hs₀ hharmless).1]
      exact Nat.zero_le n
    · have hharm := hharmless n k s received hrun hwifi hP hread.1
      exact (unheeded_iff hwifi hread).2
        ⟨hharm.tried hread.2, fun x hx => (hharm.dismissed hread.2 x hx).2⟩

/-! ## A heartbeat -/

/-- A lock that has just started, with Wi-Fi connected. -/
def uartOnline : Sys := ((step World.choosy (.setWifiConnected true)).run uartBoot).2

/-- The theorem, for a module that only announces connections. -/
theorem answeredOnce_connects :
    AnsweredOnce World.choosy (fun received _ => cstr received = lit "+CONNECTED") uartOnline := by
  refine (answeredOnce_iff _ _ _ (by decide +kernel)).2 ⟨fun _ => by decide +kernel, ?_⟩
  intro n k s received _ _ hP _
  have hping : cstr received ≠ ping := fun h => absurd (h.symm.trans hP) (by decide)
  refine ⟨fun h => absurd h hping, fun h => absurd h hping, fun hcut => absurd hcut ?_⟩
  rw [hP]
  decide

/-- **A heartbeat is answered twice**, if the UART delivers nothing more. -/
theorem not_always_answeredOnce : ¬ ∀ (W : World) (s₀ : Sys), W.target = .esp32s2 →
    Reachable W s₀ → lit "LOK" <+: s₀.lokLiteral → s₀.data ≠ ping →
      AnsweredOnce W (fun _ _ => True) s₀ := by
  intro h
  have hreach : Reachable World.choosy uartOnline :=
    ⟨uartBoot, [.setWifiConnected true], boot_uartBoot, Prod.ext (by decide +kernel) rfl⟩
  have honce := h World.choosy uartOnline rfl hreach (by decide +kernel) (by decide +kernel)
  obtain ⟨s₁, hrun⟩ : ∃ s₁, (echoTask World.choosy ping).run uartOnline = (.ok (), s₁) :=
    ⟨_, Prod.ext (by decide +kernel) rfl⟩
  have hs₁ : s₁ = ((echoTask World.choosy ping).run uartOnline).2 := by rw [hrun]
  -- the heartbeat is read, and handled as a message of a session that is over
  have hread := EchoRun.turn (P := fun _ _ => True) .start (by decide +kernel) (fun _ => trivial)
    hrun
  rw [if_pos (by decide +kernel), show loks uartOnline s₁ = 0 by rw [hs₁]; decide +kernel] at hread
  obtain ⟨u, htwice⟩ := hread.idle (by rw [hs₁]; decide +kernel) (by rw [hs₁]; decide +kernel)
    (by rw [hs₁]; decide +kernel) rfl 2
  exact absurd (honce.count _ _ _ htwice) (by decide)

end SmartLock
