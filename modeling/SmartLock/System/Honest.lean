import SmartLock.Common.Hereditary
import SmartLock.Crypto.RoundTrip
import SmartLock.Handler.Bearable
import SmartLock.Handler.Door
import SmartLock.Handler.Permission
import SmartLock.Handler.Vouched
import SmartLock.Nonce.Stamp
import SmartLock.Session.Credentials
import SmartLock.System.Authenticity
import SmartLock.System.Dialogue
import SmartLock.Transport.Send

/-!
# A session that goes through

What the lock refuses is the subject of the other modules. Here is what it
must not refuse: a client that has the public key of the lock and an
authorization for its phone, and sends its messages in time, opens the
door, whatever else the lock is doing between its messages, as long as it
does not go to sleep under the session. Every message of such a session is
answered, under a context the client has; the answer is delivered by a
socket that fails no call, and what it says can be read.
-/

namespace SmartLock

open Prog

variable {W : World} {a p cmd text sent code : CStr} {s t u v : Sys} {ctx : AESContext}
variable {ws : List CStr} {received : List UInt8}

/-! ## What a client sends, and what it reads -/

/-- `recv` gets these bytes, which read as the text. -/
structure Arrives (text : CStr) (received : List UInt8) : Prop where
  eq : cstr received = text
  ne_nil : received.length ≠ 0
  fits : received.length < rxBufferSize

variable (W) in
/-- The bytes are a message of these words, encrypted under the context. -/
def Sent (ctx : AESContext) (ws : List CStr) (received : List UInt8) : Prop :=
  ∃ cmd iv, words sep cmd = ws ∧ cmd.head? ≠ some sep ∧ (0 : UInt8) ∉ cmd ∧
    Arrives (envelope (W.aesEncrypt ctx iv (addPadding cmd)) iv) received

variable (W) in
/-- A socket that fails no call delivers all that is sent, and who has the
context reads the text of it, and its stamps. -/
structure Legible (ctx : AESContext) (sent text : CStr) : Prop where
  delivered : ∀ S outside, Socket.Healthy S sent.length → Delivers S outside sent
  read : ∃ now r, ∀ u, ∃ u', (decryptBase64AES W ctx sent).run u = (.ok (stamped text now r), u')

/-- **A message of a session is decrypted.** -/
theorem decrypt_sent (hW : W.Works) (hne : ws ≠ []) (h : Sent W ctx ws received) :
    ∃ cmd s', (decryptBase64AES W ctx (cstr received)).run s = (.ok cmd, s') ∧
      words sep cmd = ws ∧ cmd.head? ≠ some sep := by
  obtain ⟨cmd, iv, hwords, hhead, hnul, harrives⟩ := h
  have hcmd : cmd ≠ [] := by
    rintro rfl
    exact hne hwords.symm
  obtain ⟨s', hrun⟩ := decrypt_envelope hW.cipher ctx iv hcmd s
  rw [cstr_eq_self hnul] at hrun
  exact ⟨cmd, s', by rw [harrives.eq, hrun], hwords, hhead⟩

theorem zero_notMem_dec (n : ℕ) : (0 : UInt8) ∉ dec n := fun h =>
  absurd (isDigit_of_mem_dec h) (by decide)

theorem zero_notMem_stamped {now : Int} {r : UInt32} (h : (0 : UInt8) ∉ text) :
    (0 : UInt8) ∉ stamped text now r := by
  have hspace : (0 : UInt8) ∉ lit " " := by decide
  have hint (z : Int) : (0 : UInt8) ∉ decInt z := by
    rw [decInt]
    split
    · exact fun hmem => (List.mem_cons.1 hmem).elim (by decide) (zero_notMem_dec _)
    · exact zero_notMem_dec _
  simp only [stamped, List.mem_append, not_or]
  exact ⟨⟨⟨⟨⟨⟨h, hspace⟩, hint _⟩, hspace⟩, hint _⟩, hspace⟩, zero_notMem_dec _⟩

/-- **A response is sealed so that it can be read.** -/
theorem sealResponse_run (hW : W.Works) (ctx : AESContext) (hnul : (0 : UInt8) ∉ text)
    (hbrief : Brief text) : ∃ sent s',
      (sealResponse W ctx (some text)).run s = (.ok sent, s') ∧ Legible W ctx sent text := by
  obtain ⟨iv, s', hseal⟩ := sealResponse_brief (W := W) ctx hbrief s
  have hne : stamped text (W.clock s.moment) (W.random (s.moment + 1)) ≠ [] := by
    simp [stamped, lit]
  refine ⟨_, s', hseal, fun S outside => (sealResponse_delivers_iff hseal).2,
    W.clock s.moment, W.random (s.moment + 1), fun u => ?_⟩
  obtain ⟨u', hrun⟩ := decrypt_envelope hW.cipher ctx iv hne u
  rw [cstr_eq_self (zero_notMem_stamped hnul)] at hrun
  exact ⟨u', hrun⟩

/-! ## How far a session has come -/

/-- The stages of a session, as its client counts them. -/
inductive Stage
  /-- No connection is served. -/
  | idle
  /-- The connection from `ip` is accepted. -/
  | accepted (ip : Vector UInt8 4)
  /-- The lock has the key of the client, and the client has the seed. -/
  | keyed (ip : Vector UInt8 4) (ctx : AESContext) (seed : Vector UInt8 10)
  /-- The client is authorized for its phone. -/
  | authorized (ip : Vector UInt8 4) (ctx : AESContext) (phone : CStr)

/-- The connection of `a` is served, and its record is as `P` says. -/
def Serving (a : CStr) (P : UserInfo → Prop) (s : Sys) : Prop :=
  s.serving = true ∧ s.addrStr = a ∧ ∃ x, s.user a = some x ∧ P x

/-- Credentials are awaited. -/
def UserInfo.Awaits (x : UserInfo) : Prop := x.state = .connecting

/-- The session has this context, and this seed to be answered. -/
def UserInfo.Keyed (ctx : AESContext) (seed : Vector UInt8 10) (x : UserInfo) : Prop :=
  x.state = .connected ∧ x.aesCtx = ctx ∧ x.seed = some seed

/-- The session has this context, and is authorized for the phone. -/
def UserInfo.Admitted (ctx : AESContext) (phone : CStr) (x : UserInfo) : Prop :=
  x.state = .authorized ∧ x.aesCtx = ctx ∧ x.phoneId = phone ∧ phone ≠ []

/-- What the state is at a stage. -/
def InStage : Stage → Sys → Prop
  | .idle, s => s.serving = false
  | .accepted ip, s => Serving (inetNtoa ip) UserInfo.Awaits s
  | .keyed ip ctx seed, s => Serving (inetNtoa ip) (UserInfo.Keyed ctx seed) s
  | .authorized ip ctx phone, s => Serving (inetNtoa ip) (UserInfo.Admitted ctx phone) s

/-- `RUD` or `RLD`. -/
inductive Order
  | unlock
  | lock

/-- The word of an order. -/
def Order.word : Order → CStr
  | unlock => lit "RUD"
  | lock => lit "RLD"

/-- The state it puts the door in. -/
def Order.state : Order → Int
  | unlock => unlocked
  | lock => locked

/-- What is observed of it. -/
def Order.obs : Order → Obs
  | unlock => .unlockLock
  | lock => .lockLock

variable (W) in
/-- All the time it takes to handle the bytes, from `s` on. -/
def Meanwhile (received : List UInt8) (s : Sys) (P : ℕ → Prop) : Prop :=
  ∀ m, s.moment ≤ m → m ≤ ((step W (.tcpRecv received)).run s).2.moment → P m

variable (W) in
/-- The message is in its window, and its nonce is new. -/
structure InTime (received : List UInt8) (ts1 ts2 nonce : CStr) (s : Sys) : Prop where
  window : Meanwhile W received s fun m => strtol ts1 ≤ W.clock m ∧ W.clock m ≤ strtol ts2
  unseen : ∀ x ∈ s.head, x.nonce ≠ strtol nonce

variable (W) in
/-- The last thing done was to answer `a`, under the context, and who has
the context can read what. -/
def Replied (a : CStr) (ctx : AESContext) (text : CStr) (t : Sys) : Prop :=
  ∃ sent log, t.log = .reply a ctx text sent :: log ∧ Legible W ctx sent text

variable (W) in
/-- The client closes the connection. -/
def Closes (Next : Stage → Sys → Prop) (s : Sys) : Prop :=
  ∃ t, (step W .tcpClose).run s = (.ok (), t) ∧ Next .idle t

variable (W) in
/-- **What a client does next is answered**, and then `Next` holds: its
connection is accepted; its credentials are taken, and answered by a seed;
the code for this seed is acknowledged, and its authorization stored; and
so is every order for the door acknowledged, and followed, by right of the
authorization stored. It may close the connection at any time. -/
def Answered (Next : Stage → Sys → Prop) : Stage → Sys → Prop
  | .idle, s => ∀ ip, ∃ t, (step W (.tcpAccept ip)).run s = (.ok (), t) ∧ Next (.accepted ip) t
  | .accepted ip, s => Closes W Next s ∧ ∀ key cred received, Credentials W cred key →
    Arrives cred received → ∃ t seed text, (step W (.tcpRecv received)).run s = (.ok (), t) ∧
      base64Encode seed.toList = some text ∧
      Replied W (inetNtoa ip) ⟨key⟩ (lit "RAC " ++ text) t ∧ Next (.keyed ip ⟨key⟩ seed) t
  | .keyed ip ctx seed, s => Closes W Next s ∧ ∀ phone key code ts1 ts2 nonce received,
    Sent W ctx [lit "SAC", phone, code, ts1, ts2, nonce] received →
    InTime W received ts1 ts2 nonce s → Vouched W phone key s →
    base64Encode (W.hmac key seed).toList = some code →
    ∃ t, (step W (.tcpRecv received)).run s = (.ok (), t) ∧
      Replied W (inetNtoa ip) ctx ackMessage t ∧
      (∃ auth, stored phone t = some auth ∧ auth.masterKey = key) ∧
      Next (.authorized ip ctx phone) t
  | .authorized ip ctx phone, s => Closes W Next s ∧ ∀ (order : Order) auth ts1 ts2 nonce received,
    Sent W ctx [order.word, ts1, ts2, nonce] received → InTime W received ts1 ts2 nonce s →
    stored phone s = some auth → Meanwhile W received s (JudgedBy Tested W auth) →
    ∃ t, (step W (.tcpRecv received)).run s = (.ok (), t) ∧
      Replied W (inetNtoa ip) ctx ackMessage t ∧ t.lockState = some order.state ∧
      (∃ pre, Made s t order.obs pre) ∧ Next (.authorized ip ctx phone) t

/-- What may happen between the messages of a session: all but what is of
TCP. The timer, which a BLE client arms when it leaves, may bring the deep
sleep only while no connection is served. -/
def MainEvent.Beside (stage : Stage) : MainEvent → Prop
  | .server e => e.isTcp = false
  | .deepSleep => stage = .idle
  | _ => True

variable (W) in
/-- So many things clients do are answered, each behind whatever else
happens to the program. -/
def Serves : ℕ → Stage → Sys → Prop
  | 0, _, _ => True
  | n + 1, stage, s => ∀ es u, (∀ e ∈ es, MainEvent.Beside stage e) →
    (mainRun W es).run s = (.ok (), u) → Answered W (Serves n) stage u

/-! ## A message, from its arrival to the reply -/

theorem step_tcpRecv (hserving : s.serving = true) (h : Arrives text received) :
    (step W (.tcpRecv received)).run s = (doRetransmit W received).run s := by
  have henabled : (Event.tcpRecv received).enabled W s = true := by
    show (s.serving && received.length != 0 && decide (received.length < rxBufferSize)) = true
    rw [hserving, decide_eq_true h.fits, bne_iff_ne.2 h.ne_nil]
    rfl
  rw [step, run_get_bind, if_pos henabled]
  rfl

/-- **A response other than `NAK` is sent**, and the session goes on. -/
theorem doRetransmit_replies {decrypted : Bool} (hW : W.Works) (haddr : s.addrStr = a)
    (hrun : (sessionResponse W a (cstr received)).run (s.noted (.message a)) =
      (.ok (some ⟨decrypted, ctx, some text⟩), u))
    (hnul : (0 : UInt8) ∉ text) (hbrief : Brief text) (hnak : text ≠ nakMessage) :
    ∃ v sent, (doRetransmit W received).run s = (.ok (), v.noted (.reply a ctx text sent)) ∧
      quiet.Rel u v ∧ storeKept.rel u v ∧ Legible W ctx sent text := by
  obtain ⟨sent, v, hseal, hlegible⟩ := sealResponse_run (s := u) hW ctx hnul hbrief
  refine ⟨v, sent, ?_, sealResponse_within.of_ok hseal, storeKept_sealResponse.of_ok hseal,
    hlegible⟩
  rw [doRetransmit, run_get_bind, haddr, run_observe_bind, run_bind_ok hrun]
  dsimp only
  rw [run_bind_ok hseal, run_bind_ok (deref_ok.2 ⟨rfl, rfl⟩), run_observe_bind, if_neg hnak]
  rfl

/-! ## The connection, and credentials -/

/-- **A connection is accepted.** -/
theorem idle_answered (hserving : s.serving = false) (ip : Vector UInt8 4) :
    ∃ t, (step W (.tcpAccept ip)).run s = (.ok (), t) ∧
      Serving (inetNtoa ip) UserInfo.Awaits t := by
  obtain ⟨t, hset⟩ := setUserState_returns (W := W) (s := s.accepted ip) .connecting []
    (Address.ipv4 ip).text_length_lt (by decide)
  have henabled : (Event.tcpAccept ip).enabled W s = true := by
    show (!s.serving) = true
    rw [hserving]
    rfl
  have hrel := setUserState_writes hset
  obtain ⟨x, hx, -⟩ := (setUserState_ok hset).self
  refine ⟨t, ?_, Sys.serving_of_servers hrel.servers, Sys.addrStr_of_servers hrel.servers,
    _, hx, rfl⟩
  rw [step, run_get_bind, if_pos henabled]
  exact hset

/-- **Credentials open the session**, and are answered by a seed. -/
theorem sessionResponse_connects {cred : CStr} {key : Vector UInt8 32} {x : UserInfo}
    (hx : s.user a = some x) (hstate : x.state = .connecting) (hcred : Credentials W cred key) :
    ∃ u seed text, (sessionResponse W a cred).run s =
        (.ok (some ⟨false, ⟨key⟩, some (lit "RAC " ++ text)⟩), u) ∧
      base64Encode seed.toList = some text ∧
      u.user a = some { x.connect ⟨key⟩ with seed := some seed } := by
  obtain ⟨plain, text, rest, hplain, hwords, hkey⟩ := hcred.plaintext s.moment
  obtain ⟨v, hv, hretrieve⟩ := retrieve_of_key (a := a) hplain hwords hkey
  obtain rfl : v = key := Vector.toList_inj.1 (hv (by simp))
  obtain ⟨s₁, hconnect⟩ := connectSession_returns (W := W) (a := a)
    (s := (s.decrypting a).ticked) ⟨v⟩ (.inr (by
      rw [show (s.decrypting a).ticked.user a = s.user a from rfl, hx]
      exact Option.some_ne_none x))
  have hx₁ : s₁.user a = some (x.connect ⟨v⟩) := (connectSession_ok hconnect).2.2.of_some hx
  obtain ⟨response, u, hrac⟩ := racResponse_returns (W := W) (Option.isSome_iff_exists.2 ⟨_, hx₁⟩)
  obtain ⟨seed, text', htext, rfl, hseed, -⟩ := racResponse_ok hrac
  have hu := hseed.of_some hx₁
  refine ⟨u, seed, text', ?_, htext, hu⟩
  have hget : (getUserState a).run s = (.ok x.state, s) := getUserState_ok.2 ⟨⟨x, hx, rfl⟩, rfl⟩
  have hctx : (getUserAESCtx a).run u = (.ok ⟨v⟩, u) :=
    bind_ok.2 ⟨_, u, derefUser_ok.2 ⟨hu, rfl⟩, rfl⟩
  rw [sessionResponse, run_bind_ok hget, if_pos hstate, run_bind_ok (hretrieve.trans hconnect),
    if_pos rfl, run_bind_ok hrac, run_bind_ok hctx]
  rfl

theorem accepted_answered {cred : CStr} {key : Vector UInt8 32} (hW : W.Works)
    (h : Serving a UserInfo.Awaits s) (hcred : Credentials W cred key)
    (harrives : Arrives cred received) :
    ∃ t seed text, (step W (.tcpRecv received)).run s = (.ok (), t) ∧
      base64Encode seed.toList = some text ∧ Replied W a ⟨key⟩ (lit "RAC " ++ text) t ∧
      Serving a (UserInfo.Keyed ⟨key⟩ seed) t := by
  obtain ⟨hserving, haddr, x, hx, hstate⟩ := h
  obtain ⟨u, seed, text, hresponse, htext, hu⟩ :=
    sessionResponse_connects (W := W) (s := s.noted (.message a)) hx hstate hcred
  have hrel : (talking a).Rel s u := (talking a).frame.trans
    (observe_within (.inr talking_message) s)
    ((sessionResponse_within (talking_serves a)).of_ok hresponse)
  have hencoded : encodeBlocks seed.toList = text :=
    Option.some.inj ((base64Encode_of_short (by simp)).symm.trans htext)
  have hlen : text.length ≤ 20 := by
    rw [← hencoded, length_encodeBlocks]
    simp
  have hnul : (0 : UInt8) ∉ lit "RAC " ++ text := by
    rw [List.mem_append, not_or, ← hencoded]
    exact ⟨by decide, zero_notMem_encodeBlocks _⟩
  rw [← harrives.eq] at hresponse
  obtain ⟨v, sent, hsent, hquiet, -, hlegible⟩ := doRetransmit_replies hW haddr hresponse hnul
    (brief_code rfl (lt_of_le_of_lt hlen (by decide))) (rac_ne_nak text)
  refine ⟨_, seed, text, (step_tcpRecv hserving harrives).trans hsent, htext,
    ⟨sent, _, rfl, hlegible⟩, ?_, ?_, _, (quiet_user hquiet).trans hu, rfl, rfl, rfl⟩
  · exact (Sys.serving_of_servers (hquiet.servers.trans hrel.servers)).trans hserving
  · exact (Sys.addrStr_of_servers (hquiet.servers.trans hrel.servers)).trans haddr

/-! ## Commands -/

/-- Time passes at most. -/
def later : Frame Sys where
  rel s t := s.moment ≤ t.moment
  refl _ := le_rfl
  trans := le_trans

theorem later_of_within {α : Type} {F : Footprint} {m : M α} (h : Within F m) : Steps later m :=
  h.mono fun _ _ h => h.moment

theorem later_hangUp : Steps later (hangUp W) := by
  have hclose : Steps later (disconnectSock W) := .bind .get fun s =>
    .bind (later_of_within (setUserState_within (F := talking s.addrStr) rfl)) fun _ =>
      .bind (later_of_within (getUserAESCtx_within (F := quiet))) fun _ =>
        .bind (.modify fun _ => le_rfl) fun _ => .modify fun _ => le_rfl
  exact .bind hclose fun _ => .bind .get fun _ => .bind (.modify fun _ => le_rfl) fun _ =>
    .bind (.modify fun _ => le_rfl) fun _ => .bind (.modify fun _ => le_rfl) fun _ =>
      .modify fun _ => le_rfl

/-- What a command passes its message passes. -/
theorem doRetransmit_passes {x : UserInfo} {m : Sys} (haddr : s.addrStr = a)
    (hx : s.user a = some x) (hstate : x.state = .connected ∨ x.state = .authorized)
    (hbegan : Began W a (cstr received) x.aesCtx cmd (s.noted (.message a)) t)
    (h : Passes later (checkCommand W cmd a) t m) : Passes later (doRetransmit W received) s m := by
  have hget : (getUserState a).run (s.noted (.message a)) = (.ok x.state, s.noted (.message a)) :=
    getUserState_ok.2 ⟨⟨x, hx, rfl⟩, rfl⟩
  have hctx : (getUserAESCtx a).run (s.noted (.message a)) = (.ok x.aesCtx, s.noted (.message a)) :=
    bind_ok.2 ⟨x, _, derefUser_ok.2 ⟨hx, rfl⟩, rfl⟩
  obtain ⟨t', hdecrypt, rfl⟩ := hbegan
  have hcommand : Passes later (commandResponse W a (cstr received)) (s.noted (.message a)) m :=
    .behind hctx (.behind (run_observe _ _) (.behind hdecrypt (.behind (run_observe _ _)
      (.first h fun _ => .pure _))))
  have hne : x.state ≠ .connecting := by rcases hstate with h | h <;> simp [h]
  have hresponse : Passes later (sessionResponse W a (cstr received)) (s.noted (.message a)) m := by
    refine .behind hget ?_
    rw [if_neg hne, if_pos (connected_le_iff.2 hstate)]
    exact .first hcommand fun _ => .pure _
  rw [Passes, doRetransmit, run_get_bind, haddr, run_observe_bind]
  refine Passes.first hresponse fun r => ?_
  cases r with
  | none => exact later_hangUp
  | some r =>
    exact .bind (later_of_within (sealResponse_within (F := quiet))) fun _ =>
      .bind (later_of_within (deref_within (F := quiet))) fun _ => .bind (.modify fun _ => le_rfl)
        fun _ => .ite (fun _ => later_hangUp) fun _ => .pure _

/-- **A message of an open session is a command**, and what the command
answers is sent. -/
theorem exists_command {x : UserInfo} (hW : W.Works) (hserving : s.serving = true)
    (haddr : s.addrStr = a) (hx : s.user a = some x)
    (hstate : x.state = .connected ∨ x.state = .authorized) (hne : ws ≠ [])
    (hsent : Sent W x.aesCtx ws received) : ∃ cmd t, words sep cmd = ws ∧ cmd.head? ≠ some sep ∧
      Began W a (cstr received) x.aesCtx cmd (s.noted (.message a)) t ∧
      (∀ m, Passes later (checkCommand W cmd a) t m →
        m.moment ≤ ((step W (.tcpRecv received)).run s).2.moment) ∧
      ∀ u, (checkCommand W cmd a).run t = (.ok (some ackMessage), u) → ∃ v sent,
        (step W (.tcpRecv received)).run s = (.ok (), v.noted (.reply a x.aesCtx ackMessage sent)) ∧
          quiet.Rel u v ∧ storeKept.rel u v ∧ Legible W x.aesCtx sent ackMessage := by
  obtain ⟨cmd, t, hdecrypt, hwords, hhead⟩ := decrypt_sent
    (s := (s.noted (.message a)).noted (.decrypt a x.aesCtx)) hW hne hsent
  obtain ⟨_, _, _, _, _, harrives⟩ := hsent
  have hbegan : Began W a (cstr received) x.aesCtx cmd (s.noted (.message a))
      (t.noted (.command a cmd)) := ⟨t, hdecrypt, rfl⟩
  rw [step_tcpRecv hserving harrives]
  refine ⟨cmd, _, hwords, hhead, hbegan,
    fun m hm => doRetransmit_passes haddr hx hstate hbegan hm, fun u hrun => ?_⟩
  have hget : (getUserState a).run (s.noted (.message a)) = (.ok x.state, s.noted (.message a)) :=
    getUserState_ok.2 ⟨⟨x, hx, rfl⟩, rfl⟩
  have hctx : (getUserAESCtx a).run (s.noted (.message a)) = (.ok x.aesCtx, s.noted (.message a)) :=
    bind_ok.2 ⟨x, _, derefUser_ok.2 ⟨hx, rfl⟩, rfl⟩
  have hconnecting : x.state ≠ .connecting := by rcases hstate with h | h <;> simp [h]
  have hcommand : (commandResponse W a (cstr received)).run (s.noted (.message a)) =
      (.ok ⟨true, x.aesCtx, some ackMessage⟩, u) := by
    rw [commandResponse, run_bind_ok hctx, run_observe_bind, run_bind_ok hdecrypt, run_observe_bind,
      run_bind_ok hrun]
    rfl
  have hresponse : (sessionResponse W a (cstr received)).run (s.noted (.message a)) =
      (.ok (some ⟨true, x.aesCtx, some ackMessage⟩), u) := by
    rw [sessionResponse, run_bind_ok hget, if_neg hconnecting, if_pos (connected_le_iff.2 hstate),
      run_bind_ok hcommand]
    rfl
  exact doRetransmit_replies hW haddr hresponse (by decide) (by rw [Brief]; decide) (by decide)

/-! ## What a command is made of -/

theorem ne_nil_of_mem_words {w : CStr} (h : w ∈ words sep cmd) : w ≠ [] := by
  rintro rfl
  have hmem := (List.mem_filter.1 h).2
  cases hmem

/-- The command word starts the message. -/
theorem getCommand_of_words {w : CStr} (h : words sep cmd = w :: ws)
    (hhead : cmd.head? ≠ some sep) :
    ∃ c, getCommand cmd = some c ∧ c.word = w ∧ c.off = 0 := by
  obtain ⟨c, hc, hword, -⟩ := strtok_of_words h
  refine ⟨c, hc, hword, ?_⟩
  have hdrop : cmd.dropWhile (· == sep) = cmd := by
    cases cmd with
    | nil => rfl
    | cons b bs => exact List.dropWhile_cons_of_neg (by simpa using hhead)
  rw [strtok, hdrop] at hc
  cases cmd with
  | nil => cases hc
  | cons b bs =>
    cases hc
    exact Nat.sub_self _

/-- The words behind it are its arguments. -/
theorem getArgs_of_words {w : CStr} {n : ℕ} (h : words sep cmd = w :: ws) (hlen : ws.length = n)
    (hn : n ≠ 0) : (getArgs W cmd n).run s = (.ok (some ws), s) := by
  have hargs : (arguments cmd).take n = ws := by
    rw [arguments, h, List.drop_one, List.tail_cons, ← hlen, List.take_length]
  rw [getArgs]
  simp only [hargs, hlen, lt_irrefl, if_false, if_neg (fun h : n = 0 ∧ ¬ W.mallocZero => hn h.1)]
  rfl

/-- **A message in its window, with a new nonce, is accepted.** -/
theorem verify_accepts (args : List CStr) (k : Int) {ts1 ts2 nonce : CStr}
    (h₁ : argument args (k + 0) = some ts1) (h₂ : argument args (k + 1) = some ts2)
    (h₃ : argument args (k + 2) = some nonce)
    (hwindow : strtol ts1 ≤ W.clock s.moment ∧ W.clock s.moment ≤ strtol ts2)
    (hunseen : ∀ x ∈ s.head, x.nonce ≠ strtol nonce) :
    ∃ s', (verifyTimestampsAndNonce W args k).run s = (.ok true, s') ∧ storeKept.rel s s' ∧
      verifying.Rel s s' := by
  have hvalid : (checkList (strtol nonce) (W.clock (s.moment + 1)) s.head).valid = true := by
    refine (checkList_valid _).2 fun x hx => hunseen x ?_
    rcases List.mem_append.1 hx with hx | hx
    · exact List.mem_of_mem_take hx
    · exact List.mem_of_mem_dropLast hx
  have hrun := (verifyTimestampsAndNonce_run (W := W) (s := s) h₁ h₂ h₃).trans
    (acceptMessage_of_window hwindow rfl)
  rw [hvalid] at hrun
  exact ⟨_, hrun, ⟨rfl, rfl⟩, (verifyTimestampsAndNonce_within trivial).of_ok hrun⟩

/-- A command begins with the store, the nonces and the session as the
message found them, and in its time. -/
theorem Began.starts {data : CStr} (h : Began W a data ctx cmd (s.noted (.message a)) t) :
    storeKept.rel s t ∧ t.head = s.head ∧ (∀ b, t.user b = s.user b) ∧ s.moment ≤ t.moment ∧
      (talking a).Rel s t := by
  obtain ⟨t', hdecrypt, rfl⟩ := h
  have hkept := storeKept_decryptBase64AES.of_ok hdecrypt
  have hquiet : quiet.Rel _ t' := decryptBase64AES_within.of_ok hdecrypt
  refine ⟨hkept, hquiet.head.resolve_left id, fun b => ?_, hquiet.moment, ?_⟩
  · rw [user_noted, quiet_user hquiet, user_noted, user_noted]
  · exact (talking a).frame.trans (observe_within (.inr talking_message) s)
      ((talking a).frame.trans (observe_within (.inr (talking_obs rfl (.inr rfl))) _)
        ((talking a).frame.trans (quiet_rel hquiet)
          (observe_within (.inr (talking_obs rfl (.inr rfl))) t')))

/-- What was sent leaves the session as it was. -/
theorem serving_of_sent {P : UserInfo → Prop} {x : UserInfo} {text sent : CStr}
    (hserving : s.serving = true) (haddr : s.addrStr = a) (hrel : (talking a).Rel s u)
    (hquiet : quiet.Rel u v) (hx : u.user a = some x) (hrecord : P x) :
    Serving a P (v.noted (.reply a ctx text sent)) := by
  have hservers : v.servers = s.servers := hquiet.servers.trans hrel.servers
  exact ⟨(Sys.serving_of_servers hservers).trans hserving,
    (Sys.addrStr_of_servers hservers).trans haddr, x, (quiet_user hquiet).trans hx, hrecord⟩

/-! ## The code -/

/-- **The code of the seed is acknowledged.** -/
theorem keyed_answered {seed : Vector UInt8 10} {key : Vector UInt8 32} {ts1 ts2 nonce : CStr}
    (hW : W.Works) (h : Serving a (UserInfo.Keyed ctx seed) s)
    (hsent : Sent W ctx [lit "SAC", p, code, ts1, ts2, nonce] received)
    (htime : InTime W received ts1 ts2 nonce s) (hvouched : Vouched W p key s)
    (hcode : base64Encode (W.hmac key seed).toList = some code) :
    ∃ t, (step W (.tcpRecv received)).run s = (.ok (), t) ∧ Replied W a ctx ackMessage t ∧
      (∃ auth, stored p t = some auth ∧ auth.masterKey = key) ∧
      Serving a (UserInfo.Admitted ctx p) t := by
  obtain ⟨hserving, haddr, x, hx, hstate, rfl, hseed⟩ := h
  obtain ⟨cmd, t, hwords, hhead, hbegan, hpasses, hreplies⟩ :=
    exists_command hW hserving haddr hx (.inl hstate) (List.cons_ne_nil _ _) hsent
  obtain ⟨hkept, hnonces, husers, hmoment, hrel⟩ := hbegan.starts
  obtain ⟨c, hc, hword, hoff⟩ := getCommand_of_words hwords hhead
  have hargs : (getArgs W cmd 5).run t = (.ok (some [p, code, ts1, ts2, nonce]), t) :=
    getArgs_of_words hwords rfl (by decide)
  -- the stamps are checked in the window of the message
  have hnow : t.moment ≤ ((step W (.tcpRecv received)).run s).2.moment :=
    hpasses t (.here (later_of_within (checkCommand_within_serves (talking_serves a))))
  obtain ⟨s₁, hverify, hkept₁, hrel₁⟩ := verify_accepts (W := W) (s := t)
    [p, code, ts1, ts2, nonce] 2 rfl rfl rfl (htime.window _ hmoment hnow)
    (by rw [hnonces]; exact htime.unseen)
  have hx₁ : s₁.user a = some x := by rw [hrel₁.user_eq id fun h => h.1, husers, hx]
  have hread : (getUserSeed a).run s₁ = (.ok (some seed), s₁) :=
    bind_ok.2 ⟨x, s₁, derefUser_ok.2 ⟨hx₁, rfl⟩, by rw [hseed]; rfl⟩
  obtain ⟨auth, s₂, hcheck, hkey, hstored⟩ := checkAuthorizationCode_vouched hW
    (hvouched.congr (hkept₁.1.trans hkept.1)) hcode
  have hrel₂ : codeChecking.Rel s₁ s₂ :=
    (checkAuthorizationCode_within (F := codeChecking) trivial fun k => ⟨p, k, rfl⟩).of_ok hcheck
  have hx₂ : s₂.user a = some x := by rw [hrel₂.user_eq id fun h => h.1, hx₁]
  have hfits : p.length < 16 := by
    rw [stored] at hstored
    split_ifs at hstored with hlen
    rw [nvsKeyMax] at hlen
    omega
  obtain ⟨s₃, hset⟩ := setUserState_returns_of_some (W := W) hx₂ .authorized p hfits
  have hvalid : (sacValid W [p, code, ts1, ts2, nonce] a).run t =
      (.ok true, s₃.noted (.sac a p code)) := by
    rw [sacValid, run_bind_ok (argAt_ok.2 ⟨rfl, rfl⟩), run_bind_ok (argAt_ok.2 ⟨rfl, rfl⟩),
      run_bind_ok hverify, if_pos rfl, run_bind_ok hread, run_bind_ok hcheck, if_pos rfl,
      run_bind_ok hset]
    rfl
  have hcommand : (checkCommand W cmd a).run t =
      (.ok (some ackMessage), s₃.noted (.sac a p code)) := by
    rw [checkCommand, run_bind_ok (deref_ok.2 ⟨hc, rfl⟩), if_pos hword, commandSAC,
      run_bind_ok hargs]
    dsimp only
    rw [run_bind_ok hvalid, run_bind_ok (freeCommand_ok (u := ()).2 ⟨hoff, rfl⟩)]
    rfl
  obtain ⟨v, sent, hstep, hquiet, hkept₄, hlegible⟩ := hreplies _ hcommand
  have hmem : p ∈ words sep cmd := by
    rw [hwords]
    simp
  have hphone : p ≠ [] := ne_nil_of_mem_words hmem
  have hrel₃ : (talking a).Rel s (s₃.noted (.sac a p code)) := (talking a).frame.trans hrel
    ((checkCommand_within_serves (talking_serves a)).of_ok hcommand)
  refine ⟨_, hstep, ⟨sent, _, rfl, hlegible⟩, ⟨auth, ?_, hkey⟩, serving_of_sent hserving haddr hrel₃
    hquiet ((setUserState_ok hset).of_some hx₂) ⟨rfl, rfl, rfl, hphone⟩⟩
  have hkept₃ : storeKept.rel s₂ s₃ := storeKept_setUserState.of_ok hset
  have hsame : v.authorizations = s₂.authorizations := hkept₄.1.trans hkept₃.1
  rw [← hstored, stored, stored]
  simp only [Sys.noted, hsame]

/-! ## Orders for the door -/

variable (W) in
/-- What is done to the door. -/
def Order.act (order : Order) : M Unit := do
  let _ ← setLockState W order.state
  observe order.obs

theorem Order.later_act (order : Order) : Steps later (order.act W) := by
  have hunlock : Within (talking []) (unlockLock W) :=
    unlockLock_within trivial (talking_serves []).unlockLock
  have hlock : Within (talking []) (lockLock W) :=
    lockLock_within trivial (talking_serves []).lockLock
  cases order with
  | unlock => exact later_of_within hunlock
  | lock => exact later_of_within hlock

theorem Order.act_returns (hW : W.Works) (order : Order) : Returns (order.act W) s := by
  obtain ⟨s₁, hopen, -⟩ := initAndOpen_works (s := s) hW
  have hset : Returns (setLockState W order.state) s :=
    .step hopen (.ite (fun _ => .pure _) fun _ => .bind nvsCall_returns fun _ _ _ =>
      .ite (fun _ => .pure _) fun _ => .bind nvsCall_returns fun _ _ _ =>
        .ite (fun _ => .pure _) fun _ => ⟨_, _, rfl⟩)
  exact .bind hset fun _ _ _ => ⟨_, _, rfl⟩

theorem Order.checkCommand_eq {c : Tok} (order : Order) (hc : getCommand cmd = some c)
    (hword : c.word = order.word) :
    checkCommand W cmd a = commandDoor W (order.act W) c cmd a := by
  rw [checkCommand, hc]
  change (if c.word = lit "SAC" then _ else _ : M (Option CStr)) = _
  cases order with
  | unlock =>
    have hword : c.word = lit "RUD" := hword
    rw [hword, if_neg (by decide), if_pos rfl]
    rfl
  | lock =>
    have hword : c.word = lit "RLD" := hword
    rw [hword, if_neg (by decide), if_neg (by decide), if_pos rfl]
    rfl

theorem opensClean_works (hW : W.Works) : OpensClean W s := fun err s₁ hopen => by
  obtain ⟨s₂, hopen', -⟩ := initAndOpen_works (s := s) hW
  rw [hopen] at hopen'
  cases hopen'
  exact ⟨rfl, hW.nvs _⟩

/-- The consultation of the store passes what it found. -/
theorem canUseLock_passes (h : AuthorizedFor a p s) {A : Authorization} (hfound : Found W p s A t) :
    Passes later (canUseLock W a) s t := by
  obtain ⟨hstate, hphone⟩ := h.getters
  refine .behind hstate ?_
  rw [if_neg (not_not.2 rfl)]
  refine .behind hphone (.behind (run_observe _ _) (.behind hfound ?_))
  exact .here (later_of_within (usePermitted_within (F := quiet)))

/-- **An order is acknowledged, and followed.** -/
theorem authorized_answered {A : Authorization} {ts1 ts2 nonce : CStr} (hW : W.Works)
    (hcur : hashKey s.currentBLEAddr ≠ hashKey a) (h : Serving a (UserInfo.Admitted ctx p) s)
    (order : Order) (hsent : Sent W ctx [order.word, ts1, ts2, nonce] received)
    (htime : InTime W received ts1 ts2 nonce s) (hstored : stored p s = some A)
    (hright : Meanwhile W received s (JudgedBy Tested W A)) :
    ∃ t, (step W (.tcpRecv received)).run s = (.ok (), t) ∧ Replied W a ctx ackMessage t ∧
      t.lockState = some order.state ∧ (∃ pre, Made s t order.obs pre) ∧
      Serving a (UserInfo.Admitted ctx p) t := by
  obtain ⟨hserving, haddr, x, hx, hstate, rfl, hphone, hne⟩ := h
  obtain ⟨cmd, t, hwords, hhead, hbegan, hpasses, hreplies⟩ :=
    exists_command hW hserving haddr hx (.inr hstate) (List.cons_ne_nil _ _) hsent
  obtain ⟨hkept, hnonces, husers, hmoment, hrel⟩ := hbegan.starts
  obtain ⟨c, hc, hword, hoff⟩ := getCommand_of_words hwords hhead
  have hdispatch : checkCommand W cmd a = commandDoor W (order.act W) c cmd a :=
    order.checkCommand_eq hc hword
  have hargs : (getArgs W cmd 3).run t = (.ok (some [ts1, ts2, nonce]), t) :=
    getArgs_of_words hwords rfl (by decide)
  have hnow : t.moment ≤ ((step W (.tcpRecv received)).run s).2.moment :=
    hpasses t (.here (later_of_within (checkCommand_within_serves (talking_serves a))))
  obtain ⟨s₁, hverify, hkept₁, hrel₁⟩ := verify_accepts (W := W) (s := t)
    [ts1, ts2, nonce] 0 rfl rfl rfl (htime.window _ hmoment hnow)
    (by rw [hnonces]; exact htime.unseen)
  have hx₁ : s₁.user a = some x := by rw [hrel₁.user_eq id fun h => h.1, husers, hx]
  have hauthorized : AuthorizedFor a p s₁ := ⟨⟨x, hx₁, hstate, hphone⟩, hne⟩
  -- the authorization is found, and judged while the message is handled
  have hstored₁ : stored p (s₁.noted (.consult p)) = some A := by
    rw [← hstored, stored, stored, show (s₁.noted (.consult p)).authorizations = s.authorizations
      from hkept₁.1.trans hkept.1]
  obtain ⟨s₂, hfound, -⟩ := storedAuthorization_found hW hstored₁
  have hchecks : Passes later (doorAck W (order.act W) [ts1, ts2, nonce] a) t s₂ := by
    refine .behind hverify ?_
    rw [if_pos rfl]
    exact .first (canUseLock_passes hauthorized hfound) fun _ =>
      .ite (fun _ => .bind order.later_act fun _ => .pure _) fun _ => .pure _
  have hpass : Passes later (checkCommand W cmd a) t s₂ := by
    rw [hdispatch]
    exact .behind hargs (.first hchecks fun _ =>
      .bind (later_of_within (freeCommand_within (F := quiet))) fun _ =>
        .bind (later_of_within (setBLEUserStateToConnecting_within (F := talking a) trivial))
          fun _ => .pure _)
  have hlater : s₁.moment ≤ s₂.moment :=
    (storedAuthorization_within (F := quiet)).of_ok hfound |>.moment
  have hjudged : JudgedBy Tested W A s₂.moment :=
    hright _ (hmoment.trans (hrel₁.moment.trans hlater)) (hpasses s₂ hpass)
  have huse : ((canUseLock W a).run s₁).1 = .ok true :=
    canUseLock_true_iff.2 ⟨p, A, s₂, hauthorized, hfound, hjudged⟩
  -- then the door is acted on, and the session of BLE is reset
  obtain ⟨_, s₃, hact⟩ : Returns (order.act W) ((canUseLock W a).run s₁).2 := order.act_returns hW
  obtain ⟨_, u, hreset⟩ : Returns (setBLEUserStateToConnecting W) s₃ := reset_returns
  have hack : (doorAck W (order.act W) [ts1, ts2, nonce] a).run t = (.ok true, s₃) := by
    rw [doorAck, run_bind_ok hverify, if_pos rfl, run_bind_ok (Prod.ext huse rfl), if_pos rfl,
      run_bind_ok hact]
    rfl
  have hdoor : (commandDoor W (order.act W) c cmd a).run t = (.ok (some ackMessage), u) := by
    rw [commandDoor, run_bind_ok hargs]
    dsimp only
    rw [run_bind_ok hack, run_bind_ok (freeCommand_ok (u := ()).2 ⟨hoff, rfl⟩), run_bind_ok hreset]
    rfl
  have hcommand : (checkCommand W cmd a).run t = (.ok (some ackMessage), u) := by
    rw [hdispatch, hdoor]
  obtain ⟨v, sent, hstep, hquiet, hkept₂, hlegible⟩ := hreplies u hcommand
  have hrel₂ : (talking a).Rel s u := (talking a).frame.trans hrel
    ((checkCommand_within_serves (talking_serves a)).of_ok hcommand)
  -- an order leaves the record of its own session
  have hother : word cmd ≠ some (lit "SAC") := by
    rw [word, hc, Option.map_some, hword]
    cases order with
    | unlock => decide
    | lock => decide
  have hu : u.user a = some x := by
    rw [(checkCommand_unkeyed hcommand hother).user_eq id fun h => hcur ?_, husers, hx]
    rw [h.2, Sys.currentBLEAddr_of_servers hrel.servers]
  refine ⟨_, hstep, ⟨sent, _, rfl, hlegible⟩, ?_, ?_, serving_of_sent hserving haddr hrel₂
    hquiet hu ⟨hstate, rfl, hphone, hne⟩⟩
  · rcases commandDoor_door hdoor hoff fun _ _ _ _ _ _ => opensClean_works hW with
      ⟨_, hstored⟩ | ⟨hno, _⟩
    · exact hkept₂.2.trans hstored
    · exact absurd rfl hno
  · have hambient : order.obs.ambient = false := by cases order <;> rfl
    have hconsult (q : CStr) : Obs.consult q ≠ order.obs := by cases order <;> exact Obs.noConfusion
    obtain ⟨o, pre, rfl, hmade⟩ := (commandDoor_ack hambient hconsult rfl hdoor).1 rfl
    exact ⟨pre, (hmade.mono_left hrel.log.suffix).mono_right
      (hquiet.log.suffix.trans (List.suffix_cons _ _))⟩

/-! ## The whole session -/

theorem serving_of_apart {P : UserInfo → Prop} {ip : Vector UInt8 4} (hs : Wired W s)
    (h : Serving (inetNtoa ip) P s) (hst : (apart (inetNtoa ip)).rel s t) :
    Serving (inetNtoa ip) P t := by
  obtain ⟨⟨haddr, hserving⟩, huser, -⟩ := hst
  obtain ⟨hserving', haddr', x, hx, hP⟩ := h
  exact ⟨hserving.trans hserving', haddr.trans haddr', x, (huser (hs.current_ne ip)).2.trans hx, hP⟩

theorem inStage_of_apart {stage : Stage} (hs : Wired W s) (h : InStage stage s)
    (hst : ∀ ip, (apart (inetNtoa ip)).rel s t) : InStage stage t := by
  cases stage with
  | idle => exact (hst #v[0, 0, 0, 0]).1.2.trans h
  | accepted ip => exact serving_of_apart hs h (hst ip)
  | keyed ip ctx seed => exact serving_of_apart hs h (hst ip)
  | authorized ip ctx phone => exact serving_of_apart hs h (hst ip)

/-- Behind a deep sleep no connection is served. -/
theorem deepSleep_idle (h : s.serving = false) :
    ((mainStep W .deepSleep).run s).2.serving = false := by
  have hsleeps : Steps (.keeping fun s : Sys => s.serving = false) (mainStep W .deepSleep) :=
    .bind .get fun _ => .ite (fun _ s _ => deepSleep_leaves (fun _ => rfl) (fun hm =>
      hm.mono fun _ _ h hs => (Sys.serving_of_servers h.servers).trans hs) s) fun _ => .pure _
  exact hsleeps s h

/-- **What may happen in between leaves a session where it is.** -/
theorem mainStep_inStage {stage : Stage} {e : MainEvent} {outcome : Except Fault Unit}
    (hs : Wired W s) (he : e.Beside stage) (h : InStage stage s)
    (hrun : (mainStep W e).run s = (outcome, t)) : InStage stage t := by
  by_cases hsleep : e = .deepSleep
  · subst hsleep
    obtain rfl : stage = .idle := he
    have hidle := deepSleep_idle (W := W) h
    rw [hrun] at hidle
    exact hidle
  · refine inStage_of_apart hs h fun ip => Frame.of_run (mainStep_apart hs ?_ hsleep ip) hrun
    rintro e' rfl
    exact he

theorem serving_closes {P : UserInfo → Prop} (h : Serving a P s) : Closes W InStage s := by
  have henabled : Event.tcpClose.enabled W s = true := h.1
  have hidle : InStage .idle (tcpEnd.run s).2 := Eq.refl false
  refine ⟨_, ?_, hidle⟩
  rw [step, run_get_bind, if_pos henabled]
  rfl

/-- **At every stage the client is answered.** -/
theorem inStage_answered {stage : Stage} (hW : W.Works) (hs : Wired W s) (h : InStage stage s) :
    Answered W InStage stage s := by
  cases stage with
  | idle => exact fun ip => idle_answered h ip
  | accepted ip =>
    exact ⟨serving_closes h, fun key cred received hcred harrives =>
      accepted_answered hW h hcred harrives⟩
  | keyed ip ctx seed =>
    exact ⟨serving_closes h, fun phone key code ts1 ts2 nonce received hsent htime hvouched hcode =>
      keyed_answered hW h hsent htime hvouched hcode⟩
  | authorized ip ctx phone =>
    exact ⟨serving_closes h, fun order auth ts1 ts2 nonce received hsent htime hstored hright =>
      authorized_answered hW (hs.current_ne ip) h order hsent htime hstored hright⟩

/-- What holds behind an answer. -/
theorem Answered.imp {Next Next' : Stage → Sys → Prop} {stage : Stage} (h : Answered W Next stage s)
    (himp : ∀ e stage t, (step W e).run s = (.ok (), t) → Next stage t → Next' stage t) :
    Answered W Next' stage s := by
  have hcloses : Closes W Next s → Closes W Next' s := fun ⟨t, hstep, hnext⟩ =>
    ⟨t, hstep, himp _ _ t hstep hnext⟩
  cases stage with
  | idle =>
    intro ip
    obtain ⟨t, hstep, hnext⟩ := h ip
    exact ⟨t, hstep, himp _ _ t hstep hnext⟩
  | accepted ip =>
    refine ⟨hcloses h.1, fun key cred received hcred harrives => ?_⟩
    obtain ⟨t, seed, text, hstep, htext, hreplied, hnext⟩ := h.2 key cred received hcred harrives
    exact ⟨t, seed, text, hstep, htext, hreplied, himp _ _ t hstep hnext⟩
  | keyed ip ctx seed =>
    refine ⟨hcloses h.1,
      fun phone key code ts1 ts2 nonce received hsent htime hvouched hcode => ?_⟩
    obtain ⟨t, hstep, hreplied, hstored, hnext⟩ :=
      h.2 phone key code ts1 ts2 nonce received hsent htime hvouched hcode
    exact ⟨t, hstep, hreplied, hstored, himp _ _ t hstep hnext⟩
  | authorized ip ctx phone =>
    refine ⟨hcloses h.1, fun order auth ts1 ts2 nonce received hsent htime hstored hright => ?_⟩
    obtain ⟨t, hstep, hreplied, hdoor, hmade, hnext⟩ :=
      h.2 order auth ts1 ts2 nonce received hsent htime hstored hright
    exact ⟨t, hstep, hreplied, hdoor, hmade, himp _ _ t hstep hnext⟩

/-- Wherever a session has come, it goes on. -/
theorem serves_of_inStage (hW : W.Works) : ∀ (n : ℕ) {stage : Stage} {s : Sys}, Wired W s →
    InStage stage s → Serves W n stage s
  | 0, _, _, _, _ => trivial
  | n + 1, stage, s, hs, h => by
    intro es u hes hrun
    have hkeeps : Wired W u ∧ InStage stage u :=
      exec_keeps_of_mem (I := fun s => Wired W s ∧ InStage stage s) (P := MainEvent.Beside stage)
        (fun e s s' he hs hstep =>
          ⟨(mainStep_wired e).of_ok hstep hs.1, mainStep_inStage hs.1 he hs.2 hstep⟩)
        hes ⟨hs, h⟩ hrun
    exact (inStage_answered hW hkeeps.1 hkeeps.2).imp fun e stage' t hstep hnext =>
      serves_of_inStage hW n ((step_wired e).of_ok hstep hkeeps.1) hnext

/-- **Whoever has a right is let in**: from every state of a run of the
program in which no connection is served, clients are answered through whole
sessions, however long they last and whatever happens between their
messages, but for a deep sleep while their connection is served. -/
theorem honest_served (hW : W.Works) (hs : MainReachable W s) (hserving : s.serving = false)
    (n : ℕ) :
    Serves W n .idle s := serves_of_inStage hW n hs.wired hserving

/-- An outside in which everyone gives the key of zeros. -/
def World.keyed : World :=
  { World.still .esp32s3 100 with
    rsaDecrypt := fun _ => some (lit "SSC AAAAAAAAAAAAAAAAAAAAAAAAAAAAAAAAAAAAAAAAAAA=") }

/-- The bytes of a message, with an IV of zeros. -/
def sealedMessage (text : CStr) : List UInt8 :=
  envelope (addPadding text) (Vector.replicate 16 0)

theorem block_ne_nil : List.replicate 256 (0 : UInt8) ≠ [] := by
  rw [ne_eq, List.replicate_eq_nil_iff]
  decide

theorem credentials_keyed (key : Vector UInt8 32) (hkey : key = Vector.replicate 32 0) :
    Credentials World.keyed (encodeBlocks (List.replicate 256 0)) key := by
  refine ⟨List.replicate 256 0, _, lit "AAAAAAAAAAAAAAAAAAAAAAAAAAAAAAAAAAAAAAAAAAA=", [],
    base64Decode_encodeBlocks block_ne_nil, List.length_replicate, rfl, ?_, ?_⟩
  · decide +kernel
  · rw [hkey]
    decide +kernel

theorem arrives_encodeBlocks {src : List UInt8} (hne : src ≠ []) (hlen : src.length < 300) :
    Arrives (encodeBlocks src) (encodeBlocks src) where
  eq := cstr_eq_self (zero_notMem_encodeBlocks src)
  ne_nil h := encodeBlocks_ne_nil hne (List.length_eq_zero_iff.1 h)
  fits := by
    rw [length_encodeBlocks, rxBufferSize]
    omega

/-- The code for a seed under the key of zeros. -/
def zeroCode : CStr := lit "AAAAAAAAAAAAAAAAAAAAAAAAAAAAAAAAAAAAAAAAAAA="

/-- The code of the administrator. -/
def sacText : CStr := lit "SAC phone AAAAAAAAAAAAAAAAAAAAAAAAAAAAAAAAAAAAAAAAAAA= 90 200 7"

/-- The order to unlock. -/
def rudText : CStr := lit "RUD 90 200 8"

theorem sent_sealedMessage {text : CStr} (hwords : words sep text = ws)
    (hhead : text.head? ≠ some sep) (hnul : (0 : UInt8) ∉ text)
    (harrives : Arrives (sealedMessage text) (sealedMessage text)) :
    Sent World.keyed ctx ws (sealedMessage text) :=
  ⟨text, Vector.replicate 16 0, hwords, hhead, hnul, harrives⟩

theorem sent_sacText :
    Sent World.keyed ctx [lit "SAC", lit "phone", zeroCode, lit "90", lit "200", lit "7"]
      (sealedMessage sacText) :=
  sent_sealedMessage (by decide +kernel) (by decide) (by decide +kernel)
    ⟨by decide +kernel, by decide +kernel, by decide +kernel⟩

theorem sent_rudText :
    Sent World.keyed ctx [lit "RUD", lit "90", lit "200", lit "8"] (sealedMessage rudText) :=
  sent_sealedMessage (by decide +kernel) (by decide) (by decide +kernel)
    ⟨by decide +kernel, by decide +kernel, by decide +kernel⟩

/-- The start comes to its end. -/
def startEvents : List MainEvent := [.online, .initLedLockState, .startTimer]

/-- The administrator connects, and then a BLE client. -/
def acceptedEvents : List MainEvent :=
  startEvents ++ [.server (.tcpAccept lanAddress)] ++ [.server (.bleConnect phoneAddress)]

/-- The administrator gives its key, and the BLE client leaves. -/
def keyedEvents : List MainEvent :=
  acceptedEvents ++ [.server (.tcpRecv (encodeBlocks (List.replicate 256 0)))] ++
    [.server .bleDisconnect]

/-- The administrator gives its code, and the Wi-Fi is said to be connected. -/
def authorizedEvents : List MainEvent :=
  keyedEvents ++ [.server (.tcpRecv (sealedMessage sacText))] ++
    [.server (.setWifiConnected true)]

section

variable {ι : Type} {act : ι → M Unit} {es fs : List ι} {e : ι}

/-- A run goes on behind an event. -/
theorem exists_behind (h : (Prog.exec act es).run s = (.ok (), t))
    (hstep : (act e).run t = (.ok (), u))
    (hrun : ((Prog.exec act (es ++ [e] ++ fs)).run s).1 = .ok ()) :
    ∃ v, (Prog.exec act fs).run u = (.ok (), v) ∧
      (Prog.exec act (es ++ [e] ++ fs)).run s = (.ok (), v) := by
  have hall : (Prog.exec act (es ++ [e] ++ fs)).run s = (.ok (), _) := Prod.ext hrun rfl
  obtain ⟨u', hfirst, hrest⟩ := exec_append.1 hall
  obtain rfl : u' = u := (Prod.mk.inj (hfirst.symm.trans (exec_snoc h hstep))).2
  exact ⟨_, hrest, hall⟩

end

theorem beside_singleton {stage : Stage} {e : Event} (h : e.isTcp = false) :
    ∀ e' ∈ [MainEvent.server e], MainEvent.Beside stage e' := by
  intro e' he
  rw [List.mem_singleton.1 he]
  exact h

/-- The theorem, of an administrator who opens the door while a BLE client
comes and goes. -/
theorem honest_served_administrator : ∃ es s',
    (mainRun World.keyed es).run adminStored = (.ok (), s') ∧ s'.lockState = some unlocked ∧
      Replied World.keyed (inetNtoa lanAddress) ⟨Vector.replicate 32 0⟩ ackMessage s' := by
  have hserves := honest_served (W := World.keyed) ⟨fun _ => rfl, fun _ => rfl, fun _ _ _ _ => rfl⟩
    ⟨adminStored, [], boot_adminStored, rfl⟩ rfl 4
  have hwindow {received : List UInt8} {s : Sys} : Meanwhile World.keyed received s fun m =>
      strtol (lit "90") ≤ World.keyed.clock m ∧ World.keyed.clock m ≤ strtol (lit "200") :=
    fun _ _ _ => (by decide : strtol (lit "90") ≤ 100 ∧ 100 ≤ strtol (lit "200"))
  obtain ⟨u₀, hu₀⟩ : ∃ u, (mainRun World.keyed startEvents).run adminStored = (.ok (), u) := by
    have hok : ((mainRun World.keyed startEvents).run adminStored).1 = .ok () := by decide +kernel
    obtain ⟨u, hu⟩ : ∃ u, ((mainRun World.keyed startEvents).run adminStored).2 = u := ⟨_, rfl⟩
    exact ⟨u, Prod.ext hok hu⟩
  obtain ⟨t₁, h₁, hserves₁⟩ := hserves startEvents u₀ (by simp [startEvents, MainEvent.Beside])
    hu₀ lanAddress
  obtain ⟨u₁, hbetween₁, hu₁⟩ : ∃ u,
      (mainRun World.keyed [.server (.bleConnect phoneAddress)]).run t₁ = (.ok (), u) ∧
        (mainRun World.keyed acceptedEvents).run adminStored = (.ok (), u) :=
    exists_behind hu₀ h₁ (by decide +kernel)
  obtain ⟨t₂, seed, text, h₂, -, -, hserves₂⟩ := (hserves₁ _ u₁
    (beside_singleton rfl) hbetween₁).2 _ _ _ (credentials_keyed _ rfl)
    (arrives_encodeBlocks block_ne_nil (by rw [List.length_replicate]; decide))
  obtain ⟨u₂, hbetween₂, hu₂⟩ : ∃ u,
      (mainRun World.keyed [.server .bleDisconnect]).run t₂ = (.ok (), u) ∧
        (mainRun World.keyed keyedEvents).run adminStored = (.ok (), u) :=
    exists_behind hu₁ h₂ (by decide +kernel)
  have heq₂ : u₂ = ((mainRun World.keyed keyedEvents).run adminStored).2 := by rw [hu₂]
  have hhead₂ : u₂.head = [] := by
    rw [heq₂]
    decide +kernel
  have hstored₂ : (stored (lit "phone") u₂).map Authorization.masterKey =
      some (Vector.replicate 32 0) := by
    rw [heq₂]
    decide +kernel
  obtain ⟨auth, hauth, hkey⟩ := Option.map_eq_some_iff.1 hstored₂
  obtain ⟨t₃, h₃, -, -, hserves₃⟩ := (hserves₂ _ u₂ (beside_singleton rfl)
    hbetween₂).2 _ _ _ _ _ _ _ sent_sacText
    ⟨hwindow, by rw [hhead₂]; exact fun _ h => absurd h List.not_mem_nil⟩ (.stored hauth hkey)
    (by decide +kernel : base64Encode (Vector.replicate 32 (0 : UInt8)).toList = some zeroCode)
  obtain ⟨u₃, hbetween₃, hu₃⟩ : ∃ u,
      (mainRun World.keyed [.server (.setWifiConnected true)]).run t₃ = (.ok (), u) ∧
        (mainRun World.keyed authorizedEvents).run adminStored = (.ok (), u) :=
    exists_behind hu₂ h₃ (by decide +kernel)
  have heq₃ : u₃ = ((mainRun World.keyed authorizedEvents).run adminStored).2 := by rw [hu₃]
  have hhead₃ : ∀ x ∈ u₃.head, x.nonce ≠ strtol (lit "8") := by
    rw [heq₃]
    decide +kernel
  have hstored₃ : (stored (lit "phone") u₃).map Authorization.userType = some UserType.admin := by
    rw [heq₃]
    decide +kernel
  obtain ⟨auth₃, hauth₃, htype⟩ := Option.map_eq_some_iff.1 hstored₃
  have hright (m : ℕ) : JudgedBy Tested World.keyed auth₃ m := by
    rw [JudgedBy, htype]
    trivial
  obtain ⟨t₄, h₄, hreplied, hdoor, -⟩ := (hserves₃ _ u₃ (beside_singleton rfl)
    hbetween₃).2 .unlock _ _ _ _ _ sent_rudText ⟨hwindow, hhead₃⟩ hauth₃ fun m _ _ => hright m
  have hlast : (mainStep World.keyed (.server (.tcpRecv (sealedMessage rudText)))).run u₃ =
      (.ok (), t₄) := h₄
  exact ⟨_, t₄, exec_snoc hu₃ hlast, hdoor, hreplied⟩

end SmartLock
