import SmartLock.Handler.Bearable
import SmartLock.System.Main

/-!
# The shape of a TCP session

What is observed of a TCP session, from the connection to its end, is a
dialogue with what was received on it: credentials that are refused, or that
open the session and are answered by a seed; then commands, each decrypted
and answered under the context the credentials set; and the end, which a
`NAK` always brings. BLE is served in between and changes nothing of it,
since no BLE address has the key of a dotted one.
-/

namespace SmartLock

open Prog

variable {W : World} {a data text sent : CStr} {s₀ s t u s' : Sys} {r : Option Response}
variable {l new : List Obs} {e : Event} {es : List Event} {x : UserInfo} {ip : Vector UInt8 4}
variable {ctx : AESContext} {frames : List CStr}

/-! ## What is observed of a session -/

/-- The messages of the session of `a`, what they do to it, what they are
answered, and the end of its connection. -/
def Obs.inSession (a : CStr) : Obs → Bool
  | message b => b == a
  | tryCredentials b => b == a
  | credentials b _ => b == a
  | seed b _ => b == a
  | decrypt b _ => b == a
  | command b _ => b == a
  | reply b _ _ _ => b == a
  | disconnect b => b == a
  | close => true
  | _ => false

/-- What was observed of the session of `a` since its last connection
began, newest first. -/
def session (a : CStr) (log : List Obs) : List Obs := (sinceConnect a log).filter (Obs.inSession a)

theorem session_append (hnew : t.log = new ++ s.log) (hc : .connect a ∉ new) :
    session a t.log = new.filter (Obs.inSession a) ++ session a s.log := by
  rw [session, hnew, sinceConnect_append hc, List.filter_append]
  rfl

theorem session_noted {o : Obs} (ho : o.inSession a = true) :
    session a (s.noted o).log = o :: session a s.log := by
  have hc : .connect a ∉ [o] := fun hmem => by
    rw [← List.mem_singleton.1 hmem] at ho
    cases ho
  rw [session_append (s := s) (t := s.noted o) rfl hc, List.filter_cons_of_pos ho]
  rfl

/-- What is not of the session leaves it. -/
theorem session_eq {P : Obs → Prop} (h : Grows P s t)
    (hp : ∀ o, P o → o ≠ .connect a ∧ o.inSession a = false) :
    session a t.log = session a s.log := by
  obtain ⟨new, hnew, hall⟩ := h
  have hnil : new.filter (Obs.inSession a) = [] := by
    rw [List.filter_eq_nil_iff]
    intro o ho
    simp [(hp o (hall o ho)).2]
  rw [session_append hnew fun hmem => (hp _ (hall _ hmem)).1 rfl, hnil]
  rfl

theorem not_ambient_of_inSession {o : Obs} (h : o.inSession a = true) : o.ambient = false := by
  cases o <;> first | rfl | cases h

theorem not_ofCommand_of_inSession {o : Obs} (h : o.inSession a = true) : o.ofCommand = false := by
  cases o <;> first | rfl | cases h

/-- What is of the session is of its address, or ends a connection. -/
theorem addr_of_inSession {o : Obs} (h : o.inSession a = true) : o.addr = some a ∨ o = .close := by
  cases o with
  | close => exact .inr rfl
  | message b => exact .inl (congrArg some (eq_of_beq h))
  | tryCredentials b => exact .inl (congrArg some (eq_of_beq h))
  | credentials b _ => exact .inl (congrArg some (eq_of_beq h))
  | seed b _ => exact .inl (congrArg some (eq_of_beq h))
  | decrypt b _ => exact .inl (congrArg some (eq_of_beq h))
  | command b _ => exact .inl (congrArg some (eq_of_beq h))
  | reply b _ _ _ => exact .inl (congrArg some (eq_of_beq h))
  | disconnect b => exact .inl (congrArg some (eq_of_beq h))
  | _ => cases h

theorem ambient_session (h : Grows (fun o => o.ambient = true) s t) :
    session a t.log = session a s.log := by
  refine session_eq h fun o ho => ⟨?_, ?_⟩
  · rintro rfl
    cases ho
  · cases hin : o.inSession a with
    | false => rfl
    | true => cases (not_ambient_of_inSession hin).symm.trans ho

/-- Of what the trace grew by, the session grew by its own part. -/
theorem session_of_trace (hlog : s.log <:+ t.log) (htrace : t.trace = l ++ s.trace)
    (hc : .connect a ∉ l) : session a t.log = l.filter (Obs.inSession a) ++ session a s.log := by
  obtain ⟨new, hnew⟩ := hlog
  have hpart : new.filter (fun o => !o.ambient) = l := by
    rw [Sys.trace, ← hnew, List.filter_append] at htrace
    exact List.append_cancel_right htrace
  have hfilter : new.filter (Obs.inSession a) = l.filter (Obs.inSession a) := by
    rw [← hpart, List.filter_filter]
    refine List.filter_congr fun o _ => ?_
    cases ho : o.inSession a with
    | false => rfl
    | true => rw [not_ambient_of_inSession ho]; rfl
  rw [session_append hnew.symm, hfilter]
  intro hmem
  refine hc ?_
  rw [← hpart]
  exact List.mem_filter.2 ⟨hmem, rfl⟩

/-! ## What is received and sent -/

variable (W) in
/-- The message is not taken for credentials: it decrypts, by RSA, to words
of which the first is another. -/
def NoCredentials (data : CStr) : Prop :=
  ∃ m plain w ws, Plaintext W data m plain ∧ words sep plain = w :: ws ∧ w ≠ lit "SSC"

variable (W) in
/-- The message, read at the moment `m`, is taken for credentials that set
this context: it decrypts, by RSA, to `SSC` and a word that decodes to the
key. -/
def Presents (data : CStr) (m : ℕ) (ctx : AESContext) : Prop :=
  ∃ plain w ws key, Plaintext W data m plain ∧ words sep plain = lit "SSC" :: w :: ws ∧
    base64Decode w = some key ∧ ctx = ⟨heapBytes W (m + 1) key 32⟩

variable (W) in
/-- What is sent is the text with the stamps of some moment, padded and
encrypted under the context. -/
def Enciphers (ctx : AESContext) (text sent : CStr) : Prop :=
  ∃ iv m, sent = envelope (W.aesEncrypt ctx iv (addPadding
    (stamped text (W.clock m) (W.random (m + 1))))) iv

theorem plaintext_of_decrypts {plain : CStr}
    (h : (decryptBase64RSA W data).run s = (.ok plain, s')) :
    Plaintext W data s.moment plain ∧ s' = s.ticked := by
  by_cases hsome : ∃ plain, Plaintext W data s.moment plain
  · obtain ⟨plain', hplain⟩ := hsome
    rw [decryptBase64RSA_of_plaintext hplain] at h
    cases h
    exact ⟨hplain, rfl⟩
  · obtain ⟨t, hfault⟩ := decryptBase64RSA_fault hsome
    rw [hfault] at h
    cases h

theorem words_of_strtok {t : Tok} (h : strtok sep text = some t) :
    words sep text = t.word :: words sep t.rest := by
  rw [words_eq_strtok, h]

/-- **What is refused as credentials.** -/
theorem noCredentials_of_run (h : (retrieveSessionCredentials W data a).run s = (.ok false, s')) :
    NoCredentials W data := by
  obtain ⟨_, s₁, hnote, hdecrypts⟩ := bind_ok.1 h
  cases hnote
  obtain ⟨plain, s₂, hdecrypt, hreads⟩ := bind_ok.1 hdecrypts
  obtain ⟨hplain, rfl⟩ := plaintext_of_decrypts hdecrypt
  obtain ⟨pt, s₃, hcut, hcompares⟩ := bind_ok.1 hreads
  obtain ⟨hpt, rfl⟩ := deref_ok.1 hcut
  by_cases hw : pt.word ≠ lit "SSC"
  · exact ⟨_, plain, pt.word, _, hplain, words_of_strtok hpt, hw⟩
  · rw [if_neg hw] at hcompares
    obtain ⟨_, s₄, _, hsets⟩ := bind_ok.1 hcompares
    obtain ⟨_, s₅, _, hsets⟩ := bind_ok.1 hsets
    obtain ⟨_, s₆, _, hsets⟩ := bind_ok.1 hsets
    obtain ⟨_, s₇, _, hsets⟩ := bind_ok.1 hsets
    obtain ⟨_, s₈, _, hret⟩ := bind_ok.1 hsets
    cases hret

/-- **What credentials set.** -/
theorem presents_of_run (h : (retrieveSessionCredentials W data a).run s = (.ok true, s'))
    (hx : s'.user a = some x) : Presents W data s.moment x.aesCtx := by
  obtain ⟨_, s₁, hnote, hdecrypts⟩ := bind_ok.1 h
  cases hnote
  obtain ⟨plain, s₂, hdecrypt, hreads⟩ := bind_ok.1 hdecrypts
  obtain ⟨hplain, rfl⟩ := plaintext_of_decrypts hdecrypt
  obtain ⟨pt, s₃, hcut, hcompares⟩ := bind_ok.1 hreads
  obtain ⟨hpt, rfl⟩ := deref_ok.1 hcut
  by_cases hw : pt.word ≠ lit "SSC"
  · rw [if_pos hw] at hcompares
    cases hcompares
  rw [if_neg hw] at hcompares
  obtain ⟨pt', s₄, hcut', hkeys⟩ := bind_ok.1 hcompares
  obtain ⟨hpt', rfl⟩ := deref_ok.1 hcut'
  obtain ⟨aes, s₅, haes, hsets⟩ := bind_ok.1 hkeys
  obtain ⟨key, s₆, hdecode, hbytes⟩ := bind_ok.1 haes
  obtain ⟨hkey, rfl⟩ := deref_ok.1 hdecode
  rw [run_bind_ok (run_readBytes ..)] at hbytes
  obtain ⟨hset, rfl⟩ := Prod.mk.inj hbytes
  obtain rfl := Except.ok.inj hset
  -- the record has the context that was set
  obtain ⟨_, s₇, hctx, hconnects⟩ := bind_ok.1 hsets
  obtain ⟨_, s₈, hstate, hnotes⟩ := bind_ok.1 hconnects
  cases hnotes
  obtain ⟨y, hy, -⟩ := ((setAESCtx_ok hctx).trans (setUserState_ok hstate)).self
  rw [user_noted] at hx
  rw [hx, Option.some.injEq] at hy
  subst hy
  have hwords : words sep plain = lit "SSC" :: pt'.word :: words sep pt'.rest := by
    rw [words_of_strtok hpt, words_of_strtok hpt', not_not.1 hw]
  exact ⟨plain, pt'.word, _, key, hplain, hwords, hkey, rfl⟩

/-- **What is sent** of a text. -/
theorem enciphers_of_run (h : (sealResponse W ctx (some text)).run s = (.ok sent, s')) :
    Enciphers W ctx text sent := by
  obtain ⟨plain, s₁, hstamp, hencrypt⟩ := bind_ok.1 h
  obtain ⟨s₂, hstamps⟩ := addTimestampsAndNonceToMsg_run W text s
  rw [hstamps] at hstamp
  cases hstamp
  obtain ⟨sent', iv, s₃, hrun, rfl, -⟩ :=
    encryptStrAES_run (W := W) ctx s₁ (encryptStrAES_ok hencrypt)
  rw [hrun] at hencrypt
  cases hencrypt
  exact ⟨iv, s.moment, rfl⟩

/-! ## Dialogues -/

/-- How far a session has come. -/
inductive Phase
  /-- No message was handled yet. -/
  | fresh
  /-- The session is open, under this context. -/
  | opened (ctx : AESContext)
  /-- The server ended the connection. -/
  | dropped
  /-- The client did. -/
  | left

variable (W) in
/-- What is observed of a TCP session of `a` on which these messages were
received, newest first, when it has come as far as the phase says. -/
inductive Dialogue (a : CStr) : Phase → List CStr → List Obs → Prop
  | fresh : Dialogue a .fresh [] []
  /-- The first message is taken for credentials and refused: the connection
  is closed without a reply. -/
  | refused {data : CStr} (hcred : NoCredentials W data) : Dialogue a .dropped [data]
    [.disconnect a, .close, .close, .tryCredentials a, .message a]
  /-- Or it is accepted, sets the context, and is answered, under it, by the
  seed just drawn. -/
  | opened {data : CStr} {m : ℕ} {ctx : AESContext} {seed : Vector UInt8 10} {text sent : CStr}
    (hcred : Presents W data m ctx) (htext : base64Encode seed.toList = some text)
    (hsent : Enciphers W ctx (lit "RAC " ++ text) sent) : Dialogue a (.opened ctx) [data]
      [.reply a ctx (lit "RAC " ++ text) sent, .seed a seed, .credentials a ctx, .tryCredentials a,
        .message a]
  /-- A later message is decrypted under that context to a command, and what
  the command is answered with is encrypted under it. -/
  | round {data cmd text sent : CStr} {ctx : AESContext} {m : ℕ} {frames : List CStr}
    {l : List Obs} (h : Dialogue a (.opened ctx) frames l) (htext : text ≠ nakMessage)
    (hcmd : Deciphers W ctx data m cmd)
    (hanswer : ∃ s t, (checkCommand W cmd a).run s = (.ok (some text), t))
    (hsent : Enciphers W ctx text sent) : Dialogue a (.opened ctx) (data :: frames)
      (.reply a ctx text sent :: .command a cmd :: .decrypt a ctx :: .message a :: l)
  /-- A reply that is a `NAK` is the last. -/
  | nak {data cmd sent : CStr} {ctx : AESContext} {m : ℕ} {frames : List CStr} {l : List Obs}
    (h : Dialogue a (.opened ctx) frames l) (hcmd : Deciphers W ctx data m cmd)
    (hanswer : ∃ s t, (checkCommand W cmd a).run s = (.ok (some nakMessage), t))
    (hsent : Enciphers W ctx nakMessage sent) : Dialogue a .dropped (data :: frames)
      (.disconnect a :: .close :: .close :: .reply a ctx nakMessage sent :: .command a cmd ::
        .decrypt a ctx :: .message a :: l)
  | leave {frames : List CStr} {l : List Obs} (h : Dialogue a .fresh frames l) :
    Dialogue a .left frames (.disconnect a :: .close :: l)
  | leaveOpened {ctx : AESContext} {frames : List CStr} {l : List Obs}
    (h : Dialogue a (.opened ctx) frames l) :
    Dialogue a .left frames (.disconnect a :: .close :: l)

/-- The context a message is decrypted under, or a reply encrypted under,
and the one credentials set. -/
def Obs.context : Obs → Option AESContext
  | credentials _ ctx => some ctx
  | decrypt _ ctx => some ctx
  | reply _ ctx _ _ => some ctx
  | _ => none

/-- The context of an open session is its only one. -/
theorem Dialogue.context_opened {phase : Phase} (h : Dialogue W a phase frames l) :
    phase = .opened ctx → ∀ c ∈ l.filterMap Obs.context, c = ctx := by
  induction h with
  | fresh => nofun
  | refused => nofun
  | opened _ _ _ =>
    rintro ⟨⟩
    simp [Obs.context]
  | round _ _ _ _ _ ih =>
    rintro ⟨⟩ c hc
    rcases List.mem_cons.1 hc with rfl | hc
    · rfl
    rcases List.mem_cons.1 hc with rfl | hc
    · rfl
    · exact ih rfl c hc
  | nak => nofun
  | leave => nofun
  | leaveOpened => nofun

/-- **A dialogue has one context**: what its credentials set. -/
theorem Dialogue.context {phase : Phase} (h : Dialogue W a phase frames l) {c c' : AESContext}
    (hc : c ∈ l.filterMap Obs.context) (hc' : c' ∈ l.filterMap Obs.context) : c = c' := by
  have hsame {ctx : AESContext} (hall : ∀ c ∈ l.filterMap Obs.context, c = ctx) : c = c' :=
    (hall c hc).trans (hall c' hc').symm
  cases h with
  | fresh => cases hc
  | refused => simp [Obs.context] at hc
  | @opened _ _ ctx _ _ _ hcred htext hsent =>
    exact hsame ((Dialogue.opened hcred htext hsent).context_opened rfl)
  | @round _ _ _ _ ctx _ _ _ h htext hcmd hanswer hsent =>
    exact hsame ((Dialogue.round h htext hcmd hanswer hsent).context_opened rfl)
  | @nak _ _ _ ctx _ _ _ h =>
    have hall : ∀ c ∈ ctx :: ctx :: _, c = ctx := fun c hc => by
      rcases List.mem_cons.1 hc with rfl | hc
      · rfl
      rcases List.mem_cons.1 hc with rfl | hc
      · rfl
      · exact h.context_opened rfl c hc
    exact hsame hall
  | leave h =>
    cases h
    simp [Obs.context] at hc
  | leaveOpened h => exact hsame (h.context_opened rfl)

/-- The answer to credentials is no `NAK`. -/
theorem rac_ne_nak (text : CStr) : lit "RAC " ++ text ≠ nakMessage := by
  intro h
  have hhead : some (82 : UInt8) = some 78 := congrArg List.head? h
  exact absurd hhead (by decide)

/-- Before the server ends the connection, no reply is a `NAK`. -/
theorem Dialogue.no_nak {phase : Phase} (h : Dialogue W a phase frames l) (hphase : phase ≠ .dropped)
    (ctx : AESContext) (sent : CStr) : .reply a ctx nakMessage sent ∉ l := by
  induction h with
  | fresh => exact List.not_mem_nil
  | refused => exact absurd rfl hphase
  | @opened _ _ _ _ text _ _ _ _ => simpa using fun _ h => absurd h.symm (rac_ne_nak text)
  | round _ htext _ _ _ ih => simpa [Ne.symm htext] using ih nofun
  | nak => exact absurd rfl hphase
  | leave _ ih => simpa using ih nofun
  | leaveOpened _ ih => simpa using ih nofun

/-- **A `NAK` is the last reply**, and no message is handled behind it. -/
theorem Dialogue.nak_last {phase : Phase} (h : Dialogue W a phase frames l) {sent : CStr}
    {post : List Obs} (hl : l = post ++ .reply a ctx nakMessage sent :: new) :
    phase = .dropped ∧ post = [.disconnect a, .close, .close] := by
  have hmem : .reply a ctx nakMessage sent ∈ l :=
    hl ▸ List.mem_append_right _ (List.mem_cons_self ..)
  obtain rfl : phase = .dropped := Classical.byContradiction fun hne => h.no_nak hne ctx sent hmem
  refine ⟨rfl, ?_⟩
  cases h with
  | refused => simp at hmem
  | @nak _ cmd _ ctx' _ _ l h =>
    have hl' : .reply a ctx nakMessage sent ∉ l := h.no_nak nofun ctx sent
    match post with
    | [] => simp at hl
    | [_] => simp at hl
    | [_, _] => simp at hl
    | [_, _, _] =>
      simp only [List.cons_append, List.nil_append, List.cons.injEq] at hl
      obtain ⟨rfl, rfl, rfl, _⟩ := hl
      rfl
    | _ :: _ :: _ :: _ :: post =>
      simp only [List.cons_append, List.cons.injEq] at hl
      refine absurd ?_ hl'
      have hrest : .reply a ctx nakMessage sent ∈
          [.command a cmd, .decrypt a ctx', .message a] ++ l := by
        simp [hl.2.2.2.2]
      simpa using hrest

/-- The server and the record of `a` agree with the phase. -/
def Phase.Holds (a : CStr) : Phase → Sys → Prop
  | fresh, s => s.serving = true ∧ ∃ x, s.user a = some x ∧ x.state = .connecting
  | opened ctx, s => s.serving = true ∧ ∃ x, s.user a = some x ∧
      (x.state = .connected ∨ x.state = .authorized) ∧ x.aesCtx = ctx
  | dropped, s => s.serving = false ∧ ∃ x, s.user a = some x ∧ x.state = .disconnected
  | left, s => s.serving = false

/-- What leaves the record and the server leaves the phase. -/
theorem Phase.Holds.congr {phase : Phase} (h : phase.Holds a s) (hserving : t.serving = s.serving)
    (huser : t.user a = s.user a) : phase.Holds a t := by
  cases phase with
  | fresh => rwa [Holds, hserving, huser]
  | opened ctx => rwa [Holds, hserving, huser]
  | dropped => rwa [Holds, hserving, huser]
  | left => rwa [Holds, hserving]

/-- While the server serves, the session was not ended. -/
theorem Phase.Holds.serves {phase : Phase} (h : phase.Holds a s) (hserving : s.serving = true) :
    (phase = .fresh ∧ ∃ x, s.user a = some x ∧ x.state = .connecting) ∨
      ∃ ctx x, phase = .opened ctx ∧ s.user a = some x ∧
        (x.state = .connected ∨ x.state = .authorized) ∧ x.aesCtx = ctx := by
  cases phase with
  | fresh => exact .inl ⟨rfl, h.2⟩
  | opened ctx =>
    obtain ⟨_, x, hx, hstate, hctx⟩ := h
    exact .inr ⟨ctx, x, rfl, hx, hstate, hctx⟩
  | dropped => exact absurd (hserving.symm.trans h.1) Bool.noConfusion
  | left => exact absurd (hserving.symm.trans h) Bool.noConfusion

/-- Credentials are awaited until the first message. -/
theorem Phase.Holds.eq_fresh {phase : Phase} (h : phase.Holds a s) (hserving : s.serving = true)
    (hx : s.user a = some x) (hstate : x.state = .connecting) : phase = .fresh := by
  rcases h.serves hserving with ⟨rfl, _⟩ | ⟨ctx, y, rfl, hy, hopen, _⟩
  · rfl
  · rw [hx, Option.some.injEq] at hy
    subst hy
    rw [hstate] at hopen
    exact absurd hopen (by decide)

/-- Commands are taken once the session is open. -/
theorem Phase.Holds.eq_opened {phase : Phase} (h : phase.Holds a s) (hserving : s.serving = true)
    (hx : s.user a = some x) (hstate : x.state = .connected ∨ x.state = .authorized) :
    phase = .opened x.aesCtx := by
  rcases h.serves hserving with ⟨rfl, y, hy, hfresh⟩ | ⟨ctx, y, rfl, hy, _, hctx⟩
  · rw [hx, Option.some.injEq] at hy
    subst hy
    rw [hfresh] at hstate
    exact absurd hstate (by decide)
  · rw [hx, Option.some.injEq] at hy
    subst hy
    rw [hctx]

/-- While the server serves, the session is not disconnected. -/
theorem Phase.Holds.not_disconnected {phase : Phase} (h : phase.Holds a s)
    (hserving : s.serving = true) : ∃ x, s.user a = some x ∧ x.state ≠ .disconnected := by
  rcases h.serves hserving with ⟨_, x, hx, hfresh⟩ | ⟨_, x, _, hx, hopen, _⟩
  · exact ⟨x, hx, by rw [hfresh]; decide⟩
  · refine ⟨x, hx, fun hstate => ?_⟩
    rw [hstate] at hopen
    exact absurd hopen (by decide)

theorem Dialogue.eq_nil (h : Dialogue W a .fresh frames l) : frames = [] ∧ l = [] := by
  cases h
  exact ⟨rfl, rfl⟩

/-! ## A message -/

variable (W) in
/-- Where a dialogue of these messages stands while the next is handled:
what is to be sent, if anything is, and what was observed of the session. -/
inductive Handling (a data : CStr) : List CStr → Option Response → Sys → Prop
  | refused {u : Sys} (hcred : NoCredentials W data)
    (hl : session a u.log = [.tryCredentials a, .message a]) : Handling a data [] none u
  | opened {m : ℕ} {ctx : AESContext} {seed : Vector UInt8 10} {text : CStr} {u : Sys}
    (hcred : Presents W data m ctx) (htext : base64Encode seed.toList = some text)
    (hl : session a u.log =
      [.seed a seed, .credentials a ctx, .tryCredentials a, .message a])
    (hholds : (Phase.opened ctx).Holds a u) :
    Handling a data [] (some ⟨false, ctx, some (lit "RAC " ++ text)⟩) u
  | command {ctx : AESContext} {cmd : CStr} {reply : Option CStr} {m : ℕ} {frames : List CStr}
    {l : List Obs} {u : Sys} (hdialogue : Dialogue W a (.opened ctx) frames l)
    (hl : session a u.log = .command a cmd :: .decrypt a ctx :: .message a :: l)
    (hholds : (Phase.opened ctx).Holds a u) (hcmd : Deciphers W ctx data m cmd)
    (hanswer : ∃ s t, (checkCommand W cmd a).run s = (.ok reply, t)) :
    Handling a data frames (some ⟨true, ctx, reply⟩) u

/-- **A command leaves the session open**, under the same context. -/
theorem checkCommand_open {cmd : CStr} {reply : Option CStr}
    (hcur : hashKey s.currentBLEAddr ≠ hashKey a) (hx : s.user a = some x)
    (hstate : x.state = .connected ∨ x.state = .authorized)
    (hrun : (checkCommand W cmd a).run s = (.ok reply, t)) :
    ∃ y, t.user a = some y ∧ (y.state = .connected ∨ y.state = .authorized) ∧
      y.aesCtx = x.aesCtx := by
  by_cases hw : word cmd = some (lit "SAC")
  · obtain ⟨c, _, _, hdispatch⟩ := exists_dispatch hw
    rw [hdispatch] at hrun
    rcases commandSAC_effect hrun with ⟨_, huser, _⟩ | ⟨_, p, _, _, _, _, _, huser, _⟩
    · exact ⟨x, (huser a).trans hx, hstate, rfl⟩
    · refine ⟨x.authorize p, ?_, .inr rfl, rfl⟩
      rw [huser a rfl, hx]
      rfl
  · have huser : t.user a = s.user a :=
      (checkCommand_unkeyed hrun hw).user_eq id fun h => hcur h.2.symm
    exact ⟨x, huser.trans hx, hstate, rfl⟩

/-- What a command is observed to do is not of the session. -/
theorem checkCommand_session {cmd : CStr} {reply : Option CStr}
    (hrun : (checkCommand W cmd a).run s = (.ok reply, t)) :
    session a t.log = session a s.log := by
  refine session_eq (checkCommand_within_commanding.of_ok hrun).log fun o ho => ⟨?_, ?_⟩
  · rintro rfl
    rcases ho with ho | ho
    · cases ho
    · cases ho
  · cases hin : o.inSession a with
    | false => rfl
    | true =>
      rcases ho with ho | ho
      · cases (not_ambient_of_inSession hin).symm.trans ho
      · cases (not_ofCommand_of_inSession hin).symm.trans ho

theorem Began.session {cmd : CStr} (h : Began W a data ctx cmd s t) :
    session a t.log = .command a cmd :: .decrypt a ctx :: session a s.log := by
  obtain ⟨new, hnew, hamb⟩ := h.log
  rw [session_of_trace (l := [.command a cmd, .decrypt a ctx]) ?_ h.trace (by simp)]
  · simp [Obs.inSession]
  · rw [hnew]
    exact ⟨.command a cmd :: new ++ [.decrypt a ctx], by simp⟩

/-- **A message is handled as the dialogue has it.** -/
theorem sessionResponse_handling {phase : Phase} (hcur : hashKey s.currentBLEAddr ≠ hashKey a)
    (hserving : s.serving = true) (hl : session a s.log = .message a :: l)
    (hdialogue : Dialogue W a phase frames l) (hholds : phase.Holds a s)
    (hrun : (sessionResponse W a data).run s = (.ok r, u)) : Handling W a data frames r u := by
  have hrel : (talking a).Rel s u := (sessionResponse_within (talking_serves a)).of_ok hrun
  have hu : u.serving = true := (Sys.serving_of_servers hrel.servers).trans hserving
  obtain ⟨x, hx, hexchange⟩ := sessionResponse_ok hrun
  -- the state of the record and the phase of the dialogue decide the exchange together
  cases hexchange with
  | refused hstate _ htrace hcred =>
    have hsession := session_of_trace (a := a) (l := [.tryCredentials a]) hrel.log.suffix htrace
      (by simp)
    obtain rfl := hholds.eq_fresh hserving hx hstate
    obtain ⟨rfl, rfl⟩ := hdialogue.eq_nil
    obtain ⟨s₁, hcred⟩ := hcred
    refine .refused (noCredentials_of_run hcred) ?_
    rw [hsession, hl]
    simp [Obs.inSession]
  | @opened ctx seed text _ hstate htext hwrote htrace hcred =>
    have hsession := session_of_trace (a := a)
      (l := [.seed a seed, .credentials a ctx, .tryCredentials a]) hrel.log.suffix htrace (by simp)
    obtain rfl := hholds.eq_fresh hserving hx hstate
    obtain ⟨rfl, rfl⟩ := hdialogue.eq_nil
    obtain ⟨s₁, hcred, hx₁⟩ := hcred
    have hpresents : Presents W data s.moment ctx := presents_of_run hcred hx₁
    refine .opened hpresents htext ?_ ⟨hu, _, hwrote.of_some hx, .inl rfl, rfl⟩
    rw [hsession, hl]
    simp [Obs.inSession]
  | @command cmd reply s₁ _ hstate hbegan hcheck =>
    obtain rfl := hholds.eq_opened hserving hx hstate
    have hx₁ : s₁.user a = some x := by rw [hbegan.user, hx]
    have hcur₁ : hashKey s₁.currentBLEAddr ≠ hashKey a := by
      rwa [Sys.currentBLEAddr_of_servers hbegan.servers]
    obtain ⟨y, hy, hystate, hyctx⟩ := checkCommand_open hcur₁ hx₁ hstate hcheck
    obtain ⟨v, hdecrypt, _⟩ := hbegan
    refine .command hdialogue ?_ ⟨hu, y, hy, hystate, hyctx⟩ (decryptBase64AES_iff.1 hdecrypt).1
      ⟨s₁, u, hcheck⟩
    rw [checkCommand_session hcheck, Began.session ⟨v, hdecrypt, ‹_›⟩, hl]
  | ignored hstate =>
    obtain ⟨y, hy, hopen⟩ := hholds.not_disconnected hserving
    rw [hx, Option.some.injEq] at hy
    subst hy
    exact absurd hstate hopen

/-- **The server ends the connection**, and closes the session. -/
theorem hangUp_session (haddr : s.addrStr = a) (hrun : (hangUp W).run s = (.ok (), t)) :
    t.addrStr = a ∧ session a t.log = .disconnect a :: .close :: .close :: session a s.log ∧
      Phase.dropped.Holds a t := by
  obtain ⟨u, hset, rfl⟩ := hangUp_ok hrun
  rw [haddr] at hset
  have hrel := setUserState_writes hset
  have haddr' : u.addrStr = a := (Sys.addrStr_of_servers hrel.servers).trans haddr
  obtain ⟨x, hx, _⟩ := (setUserState_ok hset).self
  have hsession : session a u.log = session a s.log :=
    ambient_session (writing_log hrel)
  refine ⟨haddr', ?_, rfl, _, hx, rfl⟩
  rw [← hsession, ← session_noted rfl, ← session_noted rfl,
    ← session_noted (by simp [Obs.inSession]), Sys.hungUp, haddr']
  rfl

/-- What is quiet leaves the dialogue. -/
theorem quiet_session (h : quiet.Rel s t) : session a t.log = session a s.log := by
  rw [session_of_trace (l := []) h.log.suffix (quiet_trace h) List.not_mem_nil]
  rfl

variable (W) in
/-- The session TCP serves, or served last, is a dialogue of these messages,
and the record and the server stand where it does. -/
def InDialogue (frames : List CStr) (s : Sys) : Prop :=
  ∃ phase, Dialogue W s.addrStr phase frames (session s.addrStr s.log) ∧ phase.Holds s.addrStr s

theorem InDialogue.of {phase : Phase} (haddr : s.addrStr = a) (hl : session a s.log = l)
    (h : Dialogue W a phase frames l) (hholds : phase.Holds a s) : InDialogue W frames s := by
  subst haddr hl
  exact ⟨phase, h, hholds⟩

/-- **A message continues the dialogue.** -/
theorem doRetransmit_dialogue {received : List UInt8}
    (hcur : hashKey s.currentBLEAddr ≠ hashKey s.addrStr) (hserving : s.serving = true)
    (h : InDialogue W frames s) (hrun : (doRetransmit W received).run s = (.ok (), s')) :
    InDialogue W (cstr received :: frames) s' := by
  obtain ⟨phase, hdialogue, hholds⟩ := h
  obtain ⟨r, u, hresponse, hends⟩ := doRetransmit_sends hrun
  have hmessage : session s.addrStr (s.noted (.message s.addrStr)).log =
      .message s.addrStr :: session s.addrStr s.log := session_noted (by simp [Obs.inSession])
  have hhandling := sessionResponse_handling (s := s.noted (.message s.addrStr)) hcur hserving
    hmessage hdialogue (hholds.congr rfl rfl) hresponse
  have hrel : (talking s.addrStr).Rel (s.noted (.message s.addrStr)) u :=
    (sessionResponse_within (talking_serves _)).of_ok hresponse
  have haddr : u.addrStr = s.addrStr := Sys.addrStr_of_servers hrel.servers
  -- no response ends the connection, a response is sent and ends it if it is a `NAK`
  rcases hends with ⟨rfl, hhang⟩ | ⟨response, text, sent, v, rfl, htext, hseal, hends⟩
  · obtain ⟨haddr', hl, hholds'⟩ := hangUp_session haddr hhang
    cases hhandling with
    | refused hcred hu => exact .of haddr' (hl.trans (by rw [hu])) (.refused hcred) hholds'
  · have hquiet : quiet.Rel u v := sealResponse_within.of_ok hseal
    have haddrv : v.addrStr = s.addrStr := (Sys.addrStr_of_servers hquiet.servers).trans haddr
    have hservingv : v.serving = u.serving := Sys.serving_of_servers hquiet.servers
    have huserv : v.user s.addrStr = u.user s.addrStr := quiet_user hquiet
    have hreply : session s.addrStr (v.noted (.reply s.addrStr response.aes text sent)).log =
        .reply s.addrStr response.aes text sent :: session s.addrStr u.log := by
      rw [session_noted (by simp [Obs.inSession]), quiet_session hquiet]
    have hsent : Enciphers W response.aes text sent := enciphers_of_run (by rwa [← htext])
    cases hhandling with
    | @opened m ctx seed rac _ hcred hrac hu hopened =>
      obtain rfl := Option.some.inj htext
      rcases hends with ⟨_, rfl⟩ | ⟨hnak, _⟩
      · exact .of haddrv (hreply.trans (by rw [hu])) (.opened hcred hrac hsent)
          (hopened.congr hservingv huserv)
      · exact absurd hnak (rac_ne_nak rac)
    | @command ctx cmd reply m _ l _ hdialogue' hu hopened hcmd hanswer =>
      obtain rfl : reply = some text := htext
      rcases hends with ⟨hne, rfl⟩ | ⟨rfl, hhang⟩
      · exact .of haddrv (hreply.trans (by rw [hu])) (.round hdialogue' hne hcmd hanswer hsent)
          (hopened.congr hservingv huserv)
      · obtain ⟨haddr', hl, hholds'⟩ := hangUp_session (s := v.noted _) haddrv hhang
        exact .of haddr' (hl.trans (by rw [hreply, hu])) (.nak hdialogue' hcmd hanswer hsent)
          hholds'

/-! ## The events -/

/-- What is not of TCP leaves its session alone. -/
def Event.isTcp : Event → Bool
  | tcpAccept _ => true
  | tcpRecv _ => true
  | tcpClose => true
  | _ => false

/-- **Every other event leaves the session of TCP alone.** -/
theorem step_apart (h : Wired W s) (he : e.isTcp = false) (ip : Vector UInt8 4) :
    (apart (inetNtoa ip)).rel s ((step W e).run s).2 := by
  have hbleUser : (apart (inetNtoa ip)).Talks bleUser :=
    apart_talks (hashKey_ipv4_ne (x := .bleUser) rfl ip)
  rw [step, run_get_bind]
  by_cases henabled : e.enabled W s
  · rw [if_pos henabled]
    cases e with
    | tcpAccept ip => cases he
    | tcpRecv received => cases he
    | tcpClose => cases he
    | bleConnect bda => exact (apart_overS3 ip bda).gattsConnect s
    | bleDisconnect =>
      obtain ⟨⟨bda, hbda⟩, _⟩ := h.s3 (enabled_bleDisconnect henabled)
      exact (apart_overS3 ip bda).gattsDisconnect hbda
    | bleWrite value =>
      obtain ⟨⟨bda, hbda⟩, _⟩ := h.s3 (enabled_bleWrite henabled)
      exact (apart_overS3 ip bda).processNormalData hbda
    | uart received => exact (apart_overUart ip).echoTask s
    | serverStatus status => exact (apart _).refl s
    | initRsaKey => exact hbleUser.steps (initRsaKey_within trivial) s
    | setWifiConnected connected => exact (apart _).refl s
    | serverOnline => exact (apart _).refl s
  · rw [if_neg henabled]
    exact (apart _).refl s

/-- **What may happen besides leaves the session of TCP alone**, but for a
deep sleep. -/
theorem mainStep_apart {e : MainEvent} (hs : Wired W s)
    (hserver : ∀ e', e = .server e' → e'.isTcp = false) (hsleep : e ≠ .deepSleep)
    (ip : Vector UInt8 4) : (apart (inetNtoa ip)).rel s ((mainStep W e).run s).2 := by
  have hbeside (hserver : ∀ e', e ≠ .server e') : Steps (apart (inetNtoa ip)) (mainStep W e) :=
    mainStep_beside (apart_talks (hashKey_ipv4_ne (x := .bleUser) rfl ip))
      (fun s => (apart _).refl s) (fun s => (apart _).refl s) hserver hsleep
  cases e with
  | server e' => exact step_apart hs (hserver e' rfl) ip
  | _ => exact hbeside (fun _ => MainEvent.noConfusion) s

/-- What leaves the session of TCP alone leaves the dialogue. -/
theorem InDialogue.apart (h : InDialogue W frames s) (haddr : s.addrStr = inetNtoa ip)
    (hs : Wired W s) (hst : (apart (inetNtoa ip)).rel s t) : InDialogue W frames t := by
  obtain ⟨phase, hdialogue, hholds⟩ := h
  obtain ⟨⟨haddr', hserving⟩, huser, hlog⟩ := hst
  rw [haddr] at hdialogue hholds
  refine .of (haddr'.trans haddr) (session_eq hlog fun o ho => ⟨?_, ?_⟩) hdialogue
    (hholds.congr hserving (huser (hs.current_ne ip)).2)
  · rintro rfl
    exact ho.1 rfl
  · cases hin : o.inSession (inetNtoa ip) with
    | false => rfl
    | true => exact absurd (addr_of_inSession hin) (by tauto)

/-- What `recv` has given on the connection of TCP, newest first, as the
strings it is read as: what the event adds to it. -/
def Event.inbox : Event → List CStr → List CStr
  | tcpAccept _, _ => []
  | tcpRecv received, frames => cstr received :: frames
  | _, frames => frames

variable (W) in
/-- And behind the event, in the state it meets. -/
def Event.delivers (e : Event) (s : Sys) (frames : List CStr) : List CStr :=
  if e.enabled W s then e.inbox frames else frames

variable (W) in
/-- And behind a run. -/
def messages : List Event → Sys → List CStr → List CStr
  | [], _, frames => frames
  | e :: es, s, frames => messages es ((step W e).run s).2 (e.delivers W s frames)

theorem delivers_of_not_tcp (he : e.isTcp = false) : e.delivers W s frames = frames := by
  rw [Event.delivers]
  split
  · cases e <;> first | rfl | cases he
  · rfl

variable (W) in
/-- **The invariant.** -/
structure Spoken (frames : List CStr) (s : Sys) : Prop where
  wired : Wired W s
  dialogue : ∀ ip, s.addrStr = inetNtoa ip →
    s.serving = true ∨ .connect s.addrStr ∈ s.log → InDialogue W frames s

/-- A new connection begins a dialogue. -/
theorem tcpAccept_dialogue (hrun : (tcpAccept W ip).run s = (.ok (), s')) :
    InDialogue W [] s' := by
  rw [run_tcpAccept] at hrun
  have hrel := setUserState_writes hrun
  have hserving : s'.serving = true := (Sys.serving_of_servers hrel.servers).trans rfl
  obtain ⟨x, hx, _⟩ := (setUserState_ok hrun).self
  refine .of (a := inetNtoa ip) (Sys.addrStr_of_servers hrel.servers) ?_ .fresh
    ⟨hserving, _, hx, rfl⟩
  rw [ambient_session (writing_log hrel), session, Sys.accepted, sinceConnect_connect,
    List.filter_nil]

/-- When the connection ends, so does the dialogue. -/
theorem tcpEnd_dialogue (hserving : s.serving = true) (h : InDialogue W frames s)
    (hrun : tcpEnd.run s = (.ok (), s')) : InDialogue W frames s' := by
  obtain ⟨phase, hdialogue, hholds⟩ := h
  cases hrun
  have hend : session s.addrStr (.disconnect s.addrStr :: .close :: s.log) =
      .disconnect s.addrStr :: .close :: session s.addrStr s.log := by
    rw [← session_noted rfl, ← session_noted (by simp [Obs.inSession])]
    rfl
  suffices hleft : Dialogue W s.addrStr .left frames
      (.disconnect s.addrStr :: .close :: session s.addrStr s.log) from .of rfl hend hleft rfl
  rcases hholds.serves hserving with ⟨rfl, _⟩ | ⟨ctx, _, rfl, _⟩
  · exact .leave hdialogue
  · exact .leaveOpened hdialogue

/-- What leaves the session of TCP alone keeps the invariant. -/
theorem Spoken.apart (h : Spoken W frames s) (hwired : Wired W t)
    (hst : ∀ ip, (apart (inetNtoa ip)).rel s t) : Spoken W frames t := by
  refine ⟨hwired, fun ip hip hbegan => ?_⟩
  have haddr : s.addrStr = inetNtoa ip := (hst ip).1.1.symm.trans hip
  refine (h.dialogue ip haddr (hbegan.imp (fun hs => ?_) fun hc => ?_)).apart haddr h.wired (hst ip)
  · exact (hst ip).1.2.symm.trans hs
  · obtain ⟨_, _, new, hnew, hall⟩ := hst ip
    rw [hnew, hip, ← haddr] at hc
    exact (List.mem_append.1 hc).resolve_left fun hmem => (hall _ hmem).1 (by rw [haddr]; rfl)

/-- **Every event keeps the invariant**, of what it delivers. -/
theorem step_spoken (h : Spoken W frames s) (hrun : (step W e).run s = (.ok (), s')) :
    Spoken W (e.delivers W s frames) s' := by
  have hwired : Wired W s' := (step_wired e).of_ok hrun h.wired
  -- an event of the other transport leaves the session, one of TCP continues its dialogue
  cases htcp : e.isTcp with
  | false =>
    rw [delivers_of_not_tcp htcp]
    exact h.apart hwired fun ip => Frame.of_run (step_apart h.wired htcp ip) hrun
  | true =>
    refine ⟨hwired, fun ip hip hbegan => ?_⟩
    rw [step, run_get_bind] at hrun
    rw [Event.delivers]
    by_cases henabled : e.enabled W s
    · rw [if_pos henabled] at hrun ⊢
      cases e with
      | tcpAccept ip => exact tcpAccept_dialogue hrun
      | tcpRecv received =>
        have hserving := enabled_tcpRecv henabled
        obtain ⟨ip', hip'⟩ := h.wired.tcp hserving
        have hcur : hashKey s.currentBLEAddr ≠ hashKey s.addrStr := by
          rw [hip']
          exact h.wired.current_ne ip'
        exact doRetransmit_dialogue hcur hserving (h.dialogue ip' hip' (.inl hserving)) hrun
      | tcpClose =>
        obtain ⟨ip', hip'⟩ := h.wired.tcp henabled
        exact tcpEnd_dialogue henabled (h.dialogue ip' hip' (.inl henabled)) hrun
      | _ => cases htcp
    · rw [if_neg henabled] at hrun ⊢
      cases hrun
      exact h.dialogue ip hip hbegan

/-- And so does every run. -/
theorem run_spoken : ∀ {es : List Event} {s : Sys} {frames : List CStr}, Spoken W frames s →
    (run W es).run s = (.ok (), s') → Spoken W (messages W es s frames) s' := by
  intro es
  induction es with
  | nil =>
    intro s frames h hrun
    cases hrun
    exact h
  | cons e es ih =>
    intro s frames h hrun
    obtain ⟨_, t, hstep, hrest⟩ := bind_ok.1 hrun
    rw [messages, hstep]
    exact ih (step_spoken h hstep) hrest

theorem Boot.spoken (h : Boot W s) : Spoken W [] s where
  wired := h.wired
  dialogue _ _ hbegan := by
    rw [h.serving, h.log] at hbegan
    exact absurd hbegan (by simp)

theorem Reachable.spoken (h : Reachable W s) : ∃ frames, Spoken W frames s := by
  obtain ⟨s₀, es, hboot, hrun⟩ := h
  exact ⟨_, run_spoken hboot.spoken hrun⟩

/-- **The program keeps the invariant** of some messages: behind a deep
sleep none was received. -/
theorem mainStep_spoken {e : MainEvent} (h : Spoken W frames s)
    (hrun : (mainStep W e).run s = (.ok (), s')) : ∃ frames', Spoken W frames' s' := by
  have hwired : Wired W s' := (mainStep_wired e).of_ok hrun h.wired
  have hapart (hserver : ∀ e', e = .server e' → e'.isTcp = false) (hsleep : e ≠ .deepSleep) :
      Spoken W frames s' :=
    h.apart hwired fun ip => Frame.of_run (mainStep_apart h.wired hserver hsleep ip) hrun
  cases e with
  | server e' => exact ⟨_, step_spoken h hrun⟩
  | deepSleep =>
    rw [mainStep, run_get_bind] at hrun
    split at hrun
    · have hfresh := deepSleep_leaves (W := W) (I := fun s => s.addrStr = []) (fun _ => rfl)
        (fun hm => hm.mono fun _ _ h hs => (Sys.addrStr_of_servers h.servers).trans hs) s
      have hrun' : (deepSleepTimerCallback W).run s = (.ok (), s') := hrun
      rw [hrun'] at hfresh
      refine ⟨[], hwired, fun ip hip _ => absurd (congrArg List.length (hfresh.symm.trans hip)) ?_⟩
      simp [inetNtoa, lit]
    · cases hrun
      exact ⟨frames, h⟩
  | _ => exact ⟨_, hapart (fun _ => MainEvent.noConfusion) MainEvent.noConfusion⟩

/-- **A TCP session is a dialogue**: behind every run from the start, what
was observed of the session TCP serves, or served last, since its connection
began is a dialogue of what was received on it. It has one context, and a
`NAK` ends it. -/
theorem session_dialogue (hboot : Boot W s₀) (hrun : (run W es).run s₀ = (.ok (), s))
    (haddr : s.addrStr = inetNtoa ip) (hbegan : .connect s.addrStr ∈ s.log) :
    (∃ phase, Dialogue W s.addrStr phase (messages W es s₀ []) (session s.addrStr s.log) ∧
      phase.Holds s.addrStr s) ∧
    (∀ c ∈ (session s.addrStr s.log).filterMap Obs.context,
      ∀ c' ∈ (session s.addrStr s.log).filterMap Obs.context, c = c') ∧
    ∀ post ctx sent rest, session s.addrStr s.log =
        post ++ .reply s.addrStr ctx nakMessage sent :: rest →
      post = [.disconnect s.addrStr, .close, .close] ∧ s.serving = false ∧
        ∃ x, s.user s.addrStr = some x ∧ x.state = .disconnected := by
  have hspoken : Spoken W (messages W es s₀ []) s := run_spoken hboot.spoken hrun
  obtain ⟨phase, hdialogue, hholds⟩ := hspoken.dialogue ip haddr (.inr hbegan)
  refine ⟨⟨phase, hdialogue, hholds⟩, fun c hc c' hc' => hdialogue.context hc hc',
    fun post ctx sent rest hsplit => ?_⟩
  obtain ⟨rfl, hpost⟩ := hdialogue.nak_last hsplit
  exact ⟨hpost, hholds⟩

/-! ## Runs on fixed inputs -/

/-- A session that ends at a message that is no command, while a BLE client
connects and writes. -/
def answeredByNak : List Event :=
  [.tcpAccept lanAddress, .setWifiConnected true, .tcpRecv (lit "AAAA"),
    .bleConnect phoneAddress, .bleWrite (lit "AAAA"), .tcpRecv (sealedText (lit "X"))]

theorem exists_answeredByNak : ∃ s,
    (run (World.answering .esp32s3) answeredByNak).run Sys.initial = (.ok (), s) ∧
      s.addrStr = inetNtoa lanAddress ∧ .connect s.addrStr ∈ s.log := by
  obtain ⟨s, hs⟩ : ∃ s,
      ((run (World.answering .esp32s3) answeredByNak).run Sys.initial).2 = s := ⟨_, rfl⟩
  have hrun : ((run (World.answering .esp32s3) answeredByNak).run Sys.initial).1 = .ok () := by
    decide +kernel
  have haddr : s.addrStr = inetNtoa lanAddress := by
    rw [← hs]
    decide +kernel
  have hbegan : s.log[22]? = some (.connect (inetNtoa lanAddress)) := by
    rw [← hs]
    decide +kernel
  refine ⟨s, Prod.ext hrun hs, haddr, ?_⟩
  rw [haddr]
  exact List.mem_of_getElem? hbegan

/-- The theorem, where a `NAK` ends the session: of the two messages the
first was taken for credentials. -/
theorem session_dialogue_answeredByNak : ∃ s phase,
    (run (World.answering .esp32s3) answeredByNak).run Sys.initial = (.ok (), s) ∧
      .connect s.addrStr ∈ s.log ∧ Dialogue (World.answering .esp32s3) s.addrStr phase
        [sealedText (lit "X"), lit "AAAA"] (session s.addrStr s.log) ∧ phase.Holds s.addrStr s := by
  obtain ⟨s, hrun, haddr, hbegan⟩ := exists_answeredByNak
  obtain ⟨⟨phase, hdialogue, hholds⟩, _⟩ := session_dialogue boot_initial hrun haddr hbegan
  have hmessages : messages (World.answering .esp32s3) answeredByNak Sys.initial [] =
      [sealedText (lit "X"), lit "AAAA"] := by decide +kernel
  rw [hmessages] at hdialogue
  exact ⟨s, phase, hrun, hbegan, hdialogue, hholds⟩

end SmartLock
