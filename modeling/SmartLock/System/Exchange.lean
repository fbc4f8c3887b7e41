import SmartLock.Handler.Effect
import SmartLock.System.Log

/-!
# What a message of a session does

A message is answered by the state of its session: credentials open it, a
command is decrypted and dispatched, and anything else ends the
connection. `Exchange` lists what each of these does to the record of the
session and to the trace; the properties of runs are read off it.
-/

namespace SmartLock

open Prog

variable {W : World} {a b cmd data : CStr} {s s₁ s' : Sys} {r : Option Response}

/-! ## Credentials -/

/-- What accepted credentials make of a record. -/
def UserInfo.connect (ctx : AESContext) (x : UserInfo) : UserInfo :=
  { x with aesCtx := ctx, state := .connected, phoneId := [] }

/-- The footprint of what leaves all records alone and observes nothing. -/
def quiet : Footprint := ⟨fun _ => False, False, False, False, False, False, fun _ => False⟩

theorem quiet_user (h : quiet.Rel s s') : s'.user b = s.user b := h.user_eq id fun h => h.1

/-- What is quiet is within any footprint. -/
theorem quiet_rel {F : Footprint} (h : quiet.Rel s s') : F.Rel s s' :=
  ⟨h.servers, h.moment, fun _ _ => .inl (quiet_user h), h.kept, .inr (h.head.resolve_left id),
    .inl (h.status.resolve_right fun h => h.1), .inr (h.store.resolve_left id),
    .inr (h.door.resolve_left id), h.log.mono fun _ ho => .inl (ho.resolve_right id), h.uart⟩

theorem quiet_trace (h : quiet.Rel s s') : s'.trace = s.trace := trace_eq (fun _ => id) h

/-- **What `retrieve_session_credentials` does.** -/
theorem retrieveSessionCredentials_ok {ok : Bool}
    (h : (retrieveSessionCredentials W data a).run s = (.ok ok, s')) :
    (ok = false ∧ (∀ b, s'.user b = s.user b) ∧ s'.trace = .tryCredentials a :: s.trace) ∨
      (ok = true ∧ ∃ ctx, Wrote a (UserInfo.connect ctx) s s' ∧
        s'.trace = .credentials a ctx :: .tryCredentials a :: s.trace) := by
  obtain ⟨_, s₁, hnote, hdecrypts⟩ := bind_ok.1 h
  cases hnote
  obtain ⟨cred, s₂, hcred, hreads⟩ := bind_ok.1 hdecrypts
  obtain ⟨pt, s₃, hpt, hcompares⟩ := bind_ok.1 hreads
  have h₃ : quiet.Rel (s.noted (.tryCredentials a)) s₃ :=
    (decryptBase64RSA_within.of_ok hcred).trans (deref_within.of_ok hpt)
  have htrace₃ : s₃.trace = .tryCredentials a :: s.trace := by
    rw [quiet_trace h₃, trace_noted rfl]
  -- what decrypts to another word is refused, and no session changes
  by_cases hSSC : pt.word ≠ lit "SSC"
  · rw [if_pos hSSC] at hcompares
    cases hcompares
    exact .inl ⟨rfl, fun b => by rw [quiet_user h₃, user_noted], htrace₃⟩
  · rw [if_neg hSSC] at hcompares
    obtain ⟨pt', s₄, hpt', hkey⟩ := bind_ok.1 hcompares
    obtain ⟨aes, s₅, haes, hsets⟩ := bind_ok.1 hkey
    have h₅ : quiet.Rel s₃ s₅ := (deref_within.of_ok hpt').trans (initAES_within.of_ok haes)
    obtain ⟨_, s₆, hctx, hconnects⟩ := bind_ok.1 hsets
    obtain ⟨_, s₇, hstate, hnotes⟩ := bind_ok.1 hconnects
    obtain ⟨_, s₈, hlast, hret⟩ := bind_ok.1 hnotes
    cases hlast
    cases hret
    have h₆ : writing.Rel s₅ s₆ := (setAESCtx_within trivial).of_ok hctx
    have h₇ := setUserState_writes hstate
    refine .inr ⟨rfl, aes, ?_, ?_⟩
    · have hwrote := (setAESCtx_ok hctx).trans (setUserState_ok hstate)
      have huser (b : CStr) : s₅.user b = s.user b := by
        rw [quiet_user (h₃.trans h₅), user_noted]
      exact (hwrote.of_user huser).congr rfl
    · rw [trace_noted rfl, trace_eq (fun _ => id) (h₆.trans h₇), quiet_trace h₅, htrace₃]

/-- **What accepted credentials are answered with**: a seed just drawn. -/
theorem racResponse_ok {response : CStr} (h : (racResponse W a).run s = (.ok response, s')) :
    ∃ seed text, base64Encode seed.toList = some text ∧ response = lit "RAC " ++ text ∧
      Wrote a (fun x => { x with seed := some seed }) s s' ∧
      s'.trace = .seed a seed :: s.trace := by
  obtain ⟨seed, s₁, hseed, hrest⟩ := bind_ok.1 h
  obtain ⟨text, s₂, hderef, htext⟩ := bind_ok.1 hrest
  obtain ⟨hbase64, rfl⟩ := deref_ok.1 hderef
  have h₂ := (sprintf_within (F := quiet)).of_ok htext
  have hresponse := sprintf_ok htext
  have hwrote := generateRandomSeed_ok hseed
  refine ⟨seed, text, hbase64, hresponse, ?_, ?_⟩
  · obtain ⟨x, hx, heq⟩ := hwrote.self
    exact ⟨⟨x, by rw [quiet_user h₂, hx], heq⟩, fun b hb => by rw [quiet_user h₂, hwrote.others b hb]⟩
  · rw [quiet_trace h₂]
    obtain ⟨_, s₃, hadd, hdraw⟩ := bind_ok.1 hseed
    cases hdraw
    have h₃ := (findOrAdd_within (F := writing) trivial).of_ok hadd
    rw [← trace_eq (fun _ => id) h₃]
    exact trace_noted rfl

/-! ## Commands -/

/-- What a command is observed to do, as against the message it came in. -/
def Obs.ofCommand : Obs → Bool
  | masterKey _ _ => true
  | sac _ _ _ => true
  | consult _ => true
  | unlockLock => true
  | lockLock => true
  | createInvite _ _ => true
  | notification _ => true
  | _ => false

/-- What a command of `a` may touch. -/
def commanding (a : CStr) : Footprint :=
  ⟨(· = hashKey a), True, True, True, True, True, fun o => o.ofCommand = true⟩

theorem checkCommand_within_commanding : Within (commanding a) (checkCommand W cmd a) :=
  checkCommand_within trivial
    (fun _ => commandSAC_within rfl trivial trivial (fun _ _ => rfl) fun _ _ => rfl)
    (fun _ => commandDoor_within (unlockLock_within trivial rfl) trivial trivial fun _ => rfl)
    (fun _ => commandDoor_within (lockLock_within trivial rfl) trivial trivial fun _ => rfl)
    (fun _ => commandRNI_within trivial trivial (fun _ => rfl) fun _ _ => rfl)
    (fun _ => commandRFI_within trivial trivial fun _ _ => rfl)
    (fun _ => commandRUI_within trivial trivial (fun _ => rfl) fun _ _ => rfl)
    (fun _ => commandSNT_within trivial fun _ => rfl)
    (fun _ => commandRDS_within trivial trivial trivial rfl)

variable (W) in
/-- The observation `o` is made on the log `pre` in the course of a command
started in `s₁`. -/
structure During (cmd a : CStr) (s₁ : Sys) (o : Obs) (pre : List Obs) : Prop where
  gate : Gate W cmd a s₁ o pre
  obs : o.ambient = true ∨ o.ofCommand = true
  since : ∃ new, pre = new ++ s₁.log ∧ ∀ o' ∈ new, o'.ambient = true ∨ o'.ofCommand = true
  earlier : ∀ new, pre = new ++ s₁.log → ∀ o' ∈ new, ∃ pre', Gate W cmd a s₁ o' pre'

/-- What a command is observed to do is its effects. -/
theorem checkCommand_during : Makes (During W cmd a s) s (checkCommand W cmd a) := by
  have hgate : Makes (Gate W cmd a s) s (checkCommand W cmd a) := checkCommand_makes
  have hrel : (commanding a).Rel s ((checkCommand W cmd a).run s).2 :=
    checkCommand_within_commanding s
  refine ⟨hgate.grows, fun o pre hmade => ⟨hgate.made o pre hmade, hrel.log.of_made hmade,
    hrel.log.before_made hmade, ?_⟩⟩
  rintro new rfl o' ho'
  obtain ⟨pre', hmade'⟩ := hmade.earlier ho'
  exact ⟨pre', hgate.made o' pre' hmade'⟩

variable (W) in
/-- The message `data` of `a`, decrypted under `ctx`, is the command `cmd`,
which begins in `s₁`. -/
def Began (a data : CStr) (ctx : AESContext) (cmd : CStr) (s s₁ : Sys) : Prop :=
  ∃ t, (decryptBase64AES W ctx data).run (s.noted (.decrypt a ctx)) = (.ok cmd, t) ∧
    s₁ = t.noted (.command a cmd)

section

variable {ctx : AESContext} (h : Began W a data ctx cmd s s₁)
include h

theorem Began.rel : ∃ t, quiet.Rel (s.noted (.decrypt a ctx)) t ∧ s₁ = t.noted (.command a cmd) := by
  obtain ⟨t, hdecrypt, hs₁⟩ := h
  exact ⟨t, decryptBase64AES_within.of_ok hdecrypt, hs₁⟩

theorem Began.user : s₁.user b = s.user b := by
  obtain ⟨t, ht, rfl⟩ := h.rel
  rw [user_noted, quiet_user ht, user_noted]

theorem Began.trace : s₁.trace = .command a cmd :: .decrypt a ctx :: s.trace := by
  obtain ⟨t, ht, rfl⟩ := h.rel
  rw [trace_noted rfl, quiet_trace ht, trace_noted rfl]

/-- Between the decryption and the command nothing is observed that is not
ambient. -/
theorem Began.log : ∃ new, s₁.log = .command a cmd :: new ++ .decrypt a ctx :: s.log ∧
    ∀ o ∈ new, o.ambient = true := by
  obtain ⟨t, ht, rfl⟩ := h.rel
  obtain ⟨new, hnew, hp⟩ := ht.log
  exact ⟨new, congrArg _ hnew, fun o ho => (hp o ho).resolve_right id⟩

theorem Began.servers : s₁.servers = s.servers := by
  obtain ⟨t, ht, rfl⟩ := h.rel
  exact ht.servers

theorem Began.registrationStatus : s₁.registrationStatus = s.registrationStatus := by
  obtain ⟨t, ht, rfl⟩ := h.rel
  exact ht.status.resolve_right fun h => h.1

end

/-- **How a command begins.** -/
theorem commandResponse_ok {response : Response}
    (h : (commandResponse W a data).run s = (.ok response, s')) :
    ∃ x cmd s₁ reply, s.user a = some x ∧ Began W a data x.aesCtx cmd s s₁ ∧
      (checkCommand W cmd a).run s₁ = (.ok reply, s') ∧ response = ⟨true, x.aesCtx, reply⟩ := by
  obtain ⟨ctx, s₁, hctx, hdecrypts⟩ := bind_ok.1 h
  obtain ⟨x, t, hx, hret⟩ := bind_ok.1 hctx
  obtain ⟨hx, rfl⟩ := derefUser_ok.1 hx
  cases hret
  obtain ⟨_, s₂, hnote, hreads⟩ := bind_ok.1 hdecrypts
  cases hnote
  obtain ⟨cmd, s₃, hcmd, hbegins⟩ := bind_ok.1 hreads
  obtain ⟨_, s₄, hnote, hchecks⟩ := bind_ok.1 hbegins
  cases hnote
  obtain ⟨reply, s₅, hcheck, hret⟩ := bind_ok.1 hchecks
  cases hret
  exact ⟨x, cmd, _, reply, hx, ⟨s₃, hcmd, rfl⟩, hcheck, rfl⟩

/-! ## A message of a session -/

variable (W) in
/-- What the message `data` of the session `x` of `a` did, and what it is
answered with. -/
inductive Exchange (a data : CStr) (x : UserInfo) (s : Sys) : Option Response → Sys → Prop
  /-- Credentials are refused. -/
  | refused {s' : Sys} (hstate : x.state = .connecting) (huser : ∀ b, s'.user b = s.user b)
    (htrace : s'.trace = .tryCredentials a :: s.trace)
    (hcred : ∃ s₁, (retrieveSessionCredentials W data a).run s = (.ok false, s₁)) :
    Exchange a data x s none s'
  /-- Credentials open the session. -/
  | opened {ctx : AESContext} {seed : Vector UInt8 10} {text : CStr} {s' : Sys}
    (hstate : x.state = .connecting) (htext : base64Encode seed.toList = some text)
    (hwrote : Wrote a (fun y => { y.connect ctx with seed := some seed }) s s')
    (htrace : s'.trace = .seed a seed :: .credentials a ctx :: .tryCredentials a :: s.trace)
    (hcred : ∃ s₁, (retrieveSessionCredentials W data a).run s = (.ok true, s₁) ∧
      s₁.user a = some (x.connect ctx)) :
    Exchange a data x s (some ⟨false, ctx, some (lit "RAC " ++ text)⟩) s'
  /-- A command is decrypted under the context of the session. -/
  | command {cmd : CStr} {reply : Option CStr} {s₁ s' : Sys}
    (hstate : x.state = .connected ∨ x.state = .authorized)
    (hbegan : Began W a data x.aesCtx cmd s s₁)
    (hrun : (checkCommand W cmd a).run s₁ = (.ok reply, s')) :
    Exchange a data x s (some ⟨true, x.aesCtx, reply⟩) s'
  | ignored (hstate : x.state = .disconnected) : Exchange a data x s none s

/-- A session is for commands from `CONNECTED` on. -/
theorem connected_le_iff {state : UserState} :
    UserState.connected.num ≤ state.num ↔ state = .connected ∨ state = .authorized := by
  cases state <;> decide

/-- **What a message of a session does.** -/
theorem sessionResponse_ok (h : (sessionResponse W a data).run s = (.ok r, s')) :
    ∃ x, s.user a = some x ∧ Exchange W a data x s r s' := by
  obtain ⟨state, s₁, hstate, hrest⟩ := bind_ok.1 h
  obtain ⟨⟨x, hx, rfl⟩, rfl⟩ := getUserState_ok.1 hstate
  refine ⟨x, hx, ?_⟩
  by_cases hconnecting : x.state = .connecting
  · rw [if_pos hconnecting] at hrest
    obtain ⟨ok, s₂, hcred, hanswers⟩ := bind_ok.1 hrest
    rcases retrieveSessionCredentials_ok hcred with ⟨rfl, huser, htrace⟩ |
      ⟨rfl, ctx, hwrote, htrace⟩
    · cases hanswers
      exact .refused hconnecting huser htrace ⟨s', hcred⟩
    · obtain ⟨text, s₃, hrac, hcontext⟩ := bind_ok.1 hanswers
      obtain ⟨seed, text', htext, rfl, hseed, htrace₃⟩ := racResponse_ok hrac
      -- the record written is the one the seed is drawn for, so its context is the new one
      have hboth := hwrote.trans hseed
      obtain ⟨ctx', s₄, hctx, hret⟩ := bind_ok.1 hcontext
      obtain ⟨y, t, hy, hctx⟩ := bind_ok.1 hctx
      obtain ⟨hy, rfl⟩ := derefUser_ok.1 hy
      rw [hboth.of_some hx, Option.some.injEq] at hy
      subst hy
      cases hctx
      cases hret
      have hopened : s'.trace =
          .seed a seed :: .credentials a ctx :: .tryCredentials a :: s₁.trace := by
        rw [htrace₃, htrace]
      exact .opened hconnecting htext hboth hopened ⟨s₂, hcred, hwrote.of_some hx⟩
  · rw [if_neg hconnecting] at hrest
    -- the source compares the states as numbers; only `DISCONNECTED` is left over
    by_cases hle : UserState.connected.num ≤ x.state.num
    · rw [if_pos hle] at hrest
      obtain ⟨response, s₂, hcommand, hret⟩ := bind_ok.1 hrest
      cases hret
      obtain ⟨y, cmd, s₃, reply, hy, hbegan, hrun, rfl⟩ := commandResponse_ok hcommand
      rw [hx, Option.some.injEq] at hy
      subst hy
      exact .command (connected_le_iff.1 hle) hbegan hrun
    · rw [if_neg hle] at hrest
      cases hrest
      refine .ignored ?_
      cases hs : x.state with
      | disconnected => rfl
      | connecting => exact absurd hs hconnecting
      | connected => exact absurd (connected_le_iff.2 (.inl hs)) hle
      | authorized => exact absurd (connected_le_iff.2 (.inr hs)) hle

/-! ## What a message is observed to do -/

/-- Only what is decrypted, and what commands do, is of concern to `C`. -/
def Unconcerned (C : Obs → List Obs → Prop) : Prop :=
  ∀ o, o.ofCommand = false → (∀ a ctx, o ≠ .decrypt a ctx) → ∀ pre, C o pre

variable {C : Obs → List Obs → Prop}

theorem Unconcerned.of_ambient (h : Unconcerned C) {o : Obs} (ho : o.ambient = true)
    (pre : List Obs) : C o pre := by
  refine h o ?_ ?_ pre
  · cases o <;> first | rfl | cases ho
  · rintro a ctx rfl
    cases ho

theorem Unconcerned.makes {α : Type} {m : M α} (h : Unconcerned C) (hm : Within (.free C) m) :
    Makes C s m :=
  .of_within hm fun _ ho pre => ho.elim (fun ho => h.of_ambient ho pre) fun h => h pre

variable (W) in
/-- `C` admits what the message `data` of `a` does as a command, which is
decrypted in `s`. -/
def Admits (C : Obs → List Obs → Prop) (a data : CStr) (s : Sys) : Prop :=
  ∀ x, s.user a = some x → C (.decrypt a x.aesCtx) s.log ∧
    ∀ cmd s₁, Began W a data x.aesCtx cmd s s₁ → ∀ o pre, During W cmd a s₁ o pre → C o pre

/-- A message is decrypted before its command is handled. -/
theorem commandResponse_makes (hC : Unconcerned C) (h : Admits W C a data s) :
    Makes C s (commandResponse W a data) := by
  refine .bind (hC.makes getUserAESCtx_within) fun ctx s₁ hctx => ?_
  obtain ⟨x, t, hx, hret⟩ := bind_ok.1 hctx
  obtain ⟨hx, rfl⟩ := derefUser_ok.1 hx
  cases hret
  obtain ⟨hdecrypt, hduring⟩ := h x hx
  refine .bind (.observe hdecrypt) fun _ s₂ hnote => ?_
  cases hnote
  refine .bind (hC.makes decryptBase64AES_within) fun cmd s₃ hcmd => ?_
  refine .bind (.observe (hC (.command a cmd) rfl nofun _)) fun _ s₄ hnote => ?_
  cases hnote
  have hbegan : Began W a data x.aesCtx cmd _ (s₃.noted (.command a cmd)) := ⟨s₃, hcmd, rfl⟩
  exact .bind (checkCommand_during.mono (hduring cmd _ hbegan)) fun _ _ _ => .pure _

/-- Nor does a challenge. -/
theorem racResponse_makes (hC : Unconcerned C) : Makes C s (racResponse W a) :=
  hC.makes (racResponse_within trivial fun _ => hC _ rfl nofun)

/-- Credentials decrypt no message. -/
theorem retrieveSessionCredentials_makes (hC : Unconcerned C) :
    Makes C s (retrieveSessionCredentials W data a) :=
  hC.makes (retrieveSessionCredentials_within trivial (hC _ rfl nofun) fun _ => hC _ rfl nofun)

/-- **What a message in a session is observed to do**, in whichever state
the session is. -/
theorem sessionResponse_makes (hC : Unconcerned C)
    (h : ∀ x, s.user a = some x → x.state = .connected ∨ x.state = .authorized →
      Admits W C a data s) :
    Makes C s (sessionResponse W a data) := by
  refine .bind (hC.makes getUserState_within) fun state s₁ hstate => .ite (fun _ => ?_) fun _ =>
    .ite (fun hle => ?_) fun _ => .pure _
  · refine .bind (retrieveSessionCredentials_makes hC) fun ok s₂ _ => ?_
    cases ok with
    | false => exact .pure _
    | true =>
      exact .bind (racResponse_makes hC) fun _ _ _ =>
        .bind (hC.makes getUserAESCtx_within) fun _ _ _ => .pure _
  · obtain ⟨⟨x, hx, rfl⟩, rfl⟩ := getUserState_ok.1 hstate
    exact .bind (commandResponse_makes hC (h x hx (connected_le_iff.1 hle))) fun _ _ _ => .pure _

end SmartLock
