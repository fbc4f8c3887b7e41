import SmartLock.Crypto.RoundTrip
import SmartLock.Model.BleServer
import SmartLock.Nonce.Stamp

/-!
# The buffers of a reply

Each step on the way of a reply allocates by a formula of its own, and the
last appends to what another allocated. The replies themselves and their
stamps fit. The envelope has no room for the space between its words, the
`EOT` of a server is written behind the envelope, or into a literal, and a
URL has no room for its NUL.
-/

namespace SmartLock

open Prog

variable {W : World} {α β : Type} {m : M α} {f : α → M β} {s s' t : Sys} {n : ℕ}
variable {text p : CStr} {aes : AESContext}

/-! ## What fits -/

/-- More bytes were written than had been allocated. -/
def Obs.isOverrun : Obs → Bool
  | overrun _ _ => true
  | _ => false

/-- The overruns there were. -/
def Sys.overrunLog (s : Sys) : List Obs := s.log.filter Obs.isOverrun

/-- Every string the program builds from `s` fits its buffer, however the
program ends. -/
def Fits (m : M α) (s : Sys) : Prop := (m.run s).2.overrunLog = s.overrunLog

/-- The reply to an `RDS`. -/
def sdsResponse (lockState : Int) : M CStr := sprintf 6 (lit "SDS " ++ decInt lockState)

/-- A step on the way of a reply, or the building of a URL. -/
inductive ReplyStep
  /-- The seed sent to a client whose credentials were accepted. -/
  | rac (addr : CStr)
  | sni (r : InviteRequest)
  | sfi (r : InviteRequest)
  | sui (r : InviteRequest)
  | sds (lockState : Int)
  | addTimestampsAndNonceToMsg (msg : Option CStr)
  | encryptStrAES (aes : AESContext) (plaintext : CStr)
  /-- `response_enc`, in the block `encrypt_str_AES` allocated. -/
  | sendDataBleS3 (responseEnc addr : CStr) (aes : AESContext) (text : CStr)
  | sendData (responseEnc : CStr) (aes : AESContext) (text : CStr)
  /-- The answers to a heartbeat, which are literals. -/
  | heartbeatS3
  | heartbeat
  | sendNotification (devid : CStr)

variable (W) in
/-- What is built in the step fits. -/
def ReplyStep.Fits (s : Sys) : ReplyStep → Prop
  | rac addr => SmartLock.Fits (racResponse W addr) s
  | sni r => SmartLock.Fits (inviteResponse W (lit "SNI") r) s
  | sfi r => SmartLock.Fits (inviteResponse W (lit "SFI") r) s
  | sui r => SmartLock.Fits (inviteResponse W (lit "SUI") r) s
  | sds lockState => SmartLock.Fits (sdsResponse lockState) s
  | addTimestampsAndNonceToMsg msg => SmartLock.Fits (SmartLock.addTimestampsAndNonceToMsg W msg) s
  | encryptStrAES aes plaintext => SmartLock.Fits (SmartLock.encryptStrAES W aes plaintext) s
  | sendDataBleS3 responseEnc addr aes text =>
    SmartLock.Fits
      (SmartLock.sendDataBleS3 responseEnc.length responseEnc (.reply addr aes text)) s
  | sendData responseEnc aes text =>
    SmartLock.Fits
      (SmartLock.sendData responseEnc.length responseEnc (.reply bleUser aes text)) s
  | heartbeatS3 => SmartLock.Fits (processNormalData W (lit "PNG")) s
  | heartbeat => SmartLock.Fits (sendLOK W) s
  | sendNotification devid => SmartLock.Fits (SmartLock.sendNotification devid) s

variable (W) in
/-- There is room for what is built in the step, or nothing is: a state of
more than one digit has none, nor has a text that can be encrypted, nor any
`EOT` or URL. -/
def ReplyStep.Roomy (s : Sys) : ReplyStep → Prop
  | sds lockState => 0 ≤ lockState ∧ lockState ≤ 9
  | encryptStrAES _ plaintext => sizeMax / 4 ≤ (addPadding plaintext).length
  | sendDataBleS3 _ _ _ _ => s.isConnected = false
  | sendData _ _ _ => False
  | heartbeatS3 => s.isConnected = false
  | heartbeat => W.literalsWritable = false ∨ s.lokLiteral.length ≤ 2
  | sendNotification _ => False
  | _ => True

/-! ## One string -/

theorem fits_sprintf : Fits (sprintf n text) s ↔ text.length + 1 ≤ n := by
  rw [Fits, run_sprintf, Sys.overrunLog, Sys.overrunLog, List.filter_append,
    List.append_left_eq_self, overruns]
  by_cases h : n < text.length + 1
  · rw [if_pos h]
    exact iff_of_false (List.cons_ne_nil _ _) (by omega)
  · rw [if_neg h]
    exact iff_of_true rfl (by omega)

/-- No overrun is observed. -/
def noOverrun : Frame Sys :=
  ⟨fun s t => t.overrunLog = s.overrunLog, fun _ => rfl, fun h₁ h₂ => h₂.trans h₁⟩

/-- **The rule of a sequence**: what both parts build fits. -/
theorem fits_bind (hm : Fits m s) (hf : ∀ a t, m.run s = (.ok a, t) → Fits (f a) t) :
    Fits (m >>= f) s := by
  rcases hrun : m.run s with ⟨e | a, t⟩
  · rw [Fits, hrun] at hm
    rwa [Fits, run_bind_error hrun]
  · rw [Fits, hrun] at hm
    rw [Fits, run_bind_ok hrun]
    exact (hf a t hrun).trans hm

/-- What comes behind a part that builds no string. -/
theorem fits_bind_iff {a : α} (h : m.run s = (.ok a, t)) (ht : t.overrunLog = s.overrunLog) :
    Fits (m >>= f) s ↔ Fits (f a) t := by
  rw [Fits, Fits, run_bind_ok h, ht]

/-- A string, and what is done with it. -/
theorem fits_sprintf_bind {f : CStr → M β} (hf : Steps noOverrun (f text)) :
    Fits (sprintf n text >>= f) s ↔ text.length + 1 ≤ n := by
  have hsame (t : Sys) : ((f text).run t).2.overrunLog = t.overrunLog := hf t
  rw [← fits_sprintf (s := s), Fits, Fits, run_bind_ok (run_sprintf ..), hsame, run_sprintf]

theorem tick_builds : Steps noOverrun tick := fun _ => rfl

theorem observe_builds {o : Obs} (h : o.isOverrun = false) : Steps noOverrun (observe o) := by
  intro s
  change (s.noted o).overrunLog = s.overrunLog
  rw [Sys.overrunLog, Sys.noted, List.filter_cons_of_neg (by rw [h]; decide)]
  rfl

theorem faultIf_builds {c : Prop} [Decidable c] {e : Fault} : Steps noOverrun (faultIf c e) :=
  .ite (fun _ => .fail e) fun _ => .pure ()

theorem deref_builds {x : Option α} : Steps noOverrun (deref x) := by
  cases x with
  | none => exact .fail _
  | some a => exact .pure a

/-! ## The replies -/

theorem generateRandomSeed_builds {addr : CStr} : Steps noOverrun (generateRandomSeed W addr) := by
  have hadd : Steps noOverrun (findOrAdd W addr) :=
    .bind .get fun _ => .ite (fun _ => .bind tick_builds fun _ => .bind faultIf_builds fun _ =>
      .modify fun _ => rfl) fun _ => .pure ()
  exact .bind hadd fun _ => .bind tick_builds fun _ => .bind (.modify fun _ => rfl) fun _ =>
    .bind (observe_builds rfl) fun _ => .pure _

/-- **A seed fits.** -/
theorem racResponse_fits {addr : CStr} : Fits (racResponse W addr) s :=
  fits_bind (generateRandomSeed_builds s) fun seed t _ =>
    fits_bind (deref_builds t) fun seedBase64 u _ => fits_sprintf.2 (by
      rw [List.length_append]
      have hlen : (lit "RAC ").length = 4 := by decide
      omega)

theorem createInvite_builds {expiration : Int} {r : InviteRequest} :
    Steps noOverrun (createInvite W expiration r) := by
  refine .bind (observe_builds rfl) fun _ => .bind tick_builds fun t => ?_
  cases W.inviteReply t (inviteJson W expiration r) with
  | failed => exact .pure _
  | body d => exact .pure _

/-- **An invite fits**, whatever the server calls it. -/
theorem inviteResponse_fits {code : CStr} {r : InviteRequest} (hcode : code.length = 3) :
    Fits (inviteResponse W code r) s := by
  have hnow : Steps noOverrun (getDefaultExpirationTimestamp W) :=
    .bind (.bind tick_builds fun _ => .pure _) fun _ => .pure _
  refine fits_bind (hnow s) fun expiration t _ => fits_bind (createInvite_builds t) fun found u _ =>
    fits_bind (deref_builds u) fun inviteId v _ => fits_sprintf.2 ?_
  have hspace : (lit " ").length = 1 := by decide
  simp only [List.length_append, hcode, hspace]
  omega

/-- **A state fits** that is a single digit. -/
theorem sdsResponse_fits_iff {lockState : Int} :
    Fits (sdsResponse lockState) s ↔ 0 ≤ lockState ∧ lockState ≤ 9 := by
  have hlen : (lit "SDS ").length = 4 := by decide
  rw [sdsResponse, fits_sprintf, List.length_append, hlen, ← length_decInt_le_one]
  omega

/-- What an `RDS` is answered with is built there. -/
theorem rdsResponse_eq (args : List CStr) (userIp : CStr) : rdsResponse W args userIp = (do
    if ← verifyTimestampsAndNonce W args 0 then
      if (← getUserState userIp) = .authorized then sdsResponse (← getLockState W)
      else return nakMessage
    else return nakMessage) := rfl

/-! ## The stamps and the envelope -/

/-- **The stamps fit**, each of them and all together. -/
theorem addTimestampsAndNonceToMsg_fits {msg : Option CStr} :
    Fits (addTimestampsAndNonceToMsg W msg) s := by
  have hnow : Steps noOverrun (getNowTimestamp W) := .bind tick_builds fun _ => .pure _
  have hint (z : Int) (u : Sys) : Fits (sprintf 21 (decInt (wrap32 z))) u := by
    have hlen : (decInt (wrap32 z)).length ≤ 11 := length_decInt_le (by
      simp only [wrap32]
      omega)
    exact fits_sprintf.2 (by omega)
  have hnonce (r : UInt32) (u : Sys) : Fits (sprintf 21 (dec r.toNat)) u := by
    have hlen : (dec r.toNat).length ≤ 10 :=
      (length_dec_le (by decide)).2 (lt_of_lt_of_le r.toNat_lt (by decide))
    exact fits_sprintf.2 (by omega)
  refine fits_bind (hnow s) fun now s₁ _ => fits_bind (hint _ s₁) fun ts1 s₂ _ =>
    fits_bind (hint _ s₂) fun ts2 s₃ _ => fits_bind (tick_builds s₃) fun r s₄ _ =>
      fits_bind (hnonce _ s₄) fun nonce s₅ _ => ?_
  cases msg with
  | none => exact Steps.fail (F := noOverrun) _ s₅
  | some msg =>
    have hspace : (lit " ").length = 1 := by decide
    refine fits_sprintf.2 ?_
    simp only [List.length_append, hspace]
    omega

/-- A text whose ciphertext is too long for the codec is not written. -/
theorem encryptStrAES_fits_iff :
    Fits (encryptStrAES W aes p) s ↔ sizeMax / 4 ≤ (addPadding p).length := by
  by_cases hlong : sizeMax / 4 ≤ (addPadding p).length
  · have hnull :
        base64Encode (W.aesEncrypt aes (W.fillRandom s.moment 16) (addPadding p)) = none := by
      rw [base64Encode, W.aesEncrypt_length, if_pos hlong]
    rw [encryptStrAES, fits_bind_iff (run_tick s) rfl]
    dsimp only
    rw [hnull]
    exact iff_of_true rfl hlong
  · obtain ⟨text, _, s', hrun, -, hlog⟩ := encryptStrAES_run (W := W) aes s (not_le.1 hlong)
    rw [Fits, hrun, Sys.overrunLog, hlog]
    exact iff_of_false (List.cons_ne_self _ _) hlong

/-- **Every reply that is sealed is written past its block**, which is as
long as the reply without its NUL. -/
theorem sealResponse_overruns {response : Option CStr}
    (h : (sealResponse W aes response).run s = (.ok text, s')) :
    s'.overrunLog = .overrun text.length (text.length + 1) :: s.overrunLog := by
  obtain ⟨responseTs, t, hstamps, hencrypts⟩ := bind_ok.1 h
  have hfits : Fits (addTimestampsAndNonceToMsg W response) s := addTimestampsAndNonceToMsg_fits
  rw [Fits, hstamps] at hfits
  have hshort := encryptStrAES_ok hencrypts
  obtain ⟨text', _, _, hrun, -, hlog⟩ := encryptStrAES_run (W := W) aes t hshort
  rw [hrun] at hencrypts
  cases hencrypts
  rw [← hfits, Sys.overrunLog, hlog]
  rfl

/-! ## What is appended and sent -/

/-- An `EOT` fits if there are two bytes behind the text. -/
theorem sendData_fits_iff {sent : CStr → Obs} (hsent : ∀ text, (sent text).isOverrun = false) :
    Fits (sendData n text sent) s ↔ text.length + 2 ≤ n := by
  rw [sendData, fits_sprintf_bind (observe_builds (hsent _)), List.length_append]
  rfl

theorem sendDataBleS3_fits_iff {sent : CStr → Obs} (hsent : ∀ text, (sent text).isOverrun = false) :
    Fits (sendDataBleS3 n text sent) s ↔ s.isConnected = true → text.length + 2 ≤ n := by
  rw [sendDataBleS3, fits_bind_iff (run_get s) rfl]
  by_cases hconnected : s.isConnected = true
  · rw [if_pos hconnected, fits_sprintf_bind (observe_builds (hsent _)), List.length_append]
    exact ⟨fun h _ => h, fun h => h hconnected⟩
  · rw [if_neg hconnected]
    exact iff_of_true rfl fun h => absurd h hconnected

/-- An answer of three characters is appended to in four bytes. -/
theorem heartbeatS3_fits_iff :
    Fits (processNormalData W (lit "PNG")) s ↔ s.isConnected = false := by
  have hlen : (if s.serverOnline then lit "LOK" else lit "LNO").length = 3 := by
    cases s.serverOnline <;> decide
  rw [processNormalData, fits_bind_iff (run_get s) rfl, if_pos rfl,
    sendDataBleS3_fits_iff fun _ => rfl, hlen, ← Bool.not_eq_true]
  exact imp_iff_not (by decide)

theorem sendLOK_fits_iff :
    Fits (sendLOK W) s ↔ W.literalsWritable = false ∨ s.lokLiteral.length ≤ 2 := by
  rw [sendLOK]
  by_cases hwritable : W.literalsWritable = true
  · rw [fits_bind_iff (run_faultIf_of_not (not_not.2 hwritable) _ _) rfl,
      fits_bind_iff (run_get s) rfl,
      fits_sprintf_bind (.bind (.modify fun _ => rfl) fun _ => observe_builds rfl),
      List.length_append, hwritable]
    simp only [List.length_singleton, Bool.true_eq_false, false_or]
    omega
  · rw [Bool.not_eq_true] at hwritable
    rw [hwritable]
    exact iff_of_true rfl (.inl rfl)

/-- No URL fits. -/
theorem sendNotification_not_fits {devid : CStr} : ¬ Fits (sendNotification devid) s := by
  rw [sendNotification, fits_sprintf_bind (observe_builds rfl), List.length_append]
  omega

/-! ## Every step -/

/-- **What a step builds fits exactly where there is room for it.** -/
theorem replyStep_fits_iff (W : World) (step : ReplyStep) (s : Sys) :
    step.Fits W s ↔ step.Roomy W s := by
  cases step with
  | rac addr => exact iff_of_true racResponse_fits trivial
  | sni r => exact iff_of_true (inviteResponse_fits (by decide)) trivial
  | sfi r => exact iff_of_true (inviteResponse_fits (by decide)) trivial
  | sui r => exact iff_of_true (inviteResponse_fits (by decide)) trivial
  | sds lockState => exact sdsResponse_fits_iff
  | addTimestampsAndNonceToMsg msg => exact iff_of_true addTimestampsAndNonceToMsg_fits trivial
  | encryptStrAES aes plaintext => exact encryptStrAES_fits_iff
  | sendDataBleS3 responseEnc addr aes text =>
    refine (sendDataBleS3_fits_iff fun _ => rfl).trans ?_
    rw [ReplyStep.Roomy, ← Bool.not_eq_true]
    exact imp_iff_not (by omega)
  | sendData responseEnc aes text =>
    exact iff_of_false (fun h => absurd ((sendData_fits_iff fun _ => rfl).1 h) (by omega)) id
  | heartbeatS3 => exact heartbeatS3_fits_iff
  | heartbeat => exact sendLOK_fits_iff
  | sendNotification devid => exact iff_of_false sendNotification_not_fits id

/-- **The envelope of the shortest reply does not fit**: fifty bytes in
forty-nine. -/
theorem not_always_fits : ¬ ∀ (W : World) (step : ReplyStep) (s : Sys), step.Fits W s := by
  intro h
  have hfits : Fits (encryptStrAES (World.still .esp32s2 100) ⟨Vector.replicate 32 0⟩ (lit "ACK"))
      Sys.initial := h _ (.encryptStrAES _ _) _
  have hoverrun : ((encryptStrAES (World.still .esp32s2 100) ⟨Vector.replicate 32 0⟩
      (lit "ACK")).run Sys.initial).2.overrunLog = [.overrun 49 50] := by decide +kernel
  rw [Fits, hoverrun] at hfits
  exact absurd hfits (by decide)

end SmartLock
