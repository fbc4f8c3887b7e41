import SmartLock.Nonce.Stamp
import SmartLock.System.Main
import SmartLock.Transport.Send

/-!
# What the BLE client reads

To a BLE client the lock sends replies, answers to pings and the `LOK` of a
start, each with an `EOT` behind it and cut into packets. Of the bytes that come in, whatever
the packets, the client gets back by the `EOT`s what was sent, and by its
context what was answered.
-/

namespace SmartLock

open Prog

variable {W : World} {s t : Sys} {o : Obs}

/-! ## What is sent -/

/-- The server of an address ends its replies with this. -/
def EndsWith (a : CStr) (eot : List UInt8) : Prop :=
  ∃ x : Address, a = x.text ∧ eot = if x.isBle then [4] else []

variable (W) in
/-- A reply is a sealed text and its end, and a ping is answered by one of
two words, of which a start sends the first. -/
def Framed : Obs → Prop
  | .reply a aes text sent => ∃ body eot, Sealed W aes text body ∧ EndsWith a eot ∧
      sent = body ++ eot
  | .bleText text => text = lit "LOK" ++ [4] ∨ text = lit "LNO" ++ [4]
  | _ => True

theorem framed_of_not_sent (h : o.isSent = false) : Framed W o := by
  cases o with
  | reply => cases h
  | bleText => cases h
  | _ => trivial

theorem not_sent_of_ambient (h : o.ambient = true) : o.isSent = false := by
  cases o <;> first | rfl | cases h

/-- What sends nothing. -/
def wordless : Footprint := ⟨fun _ => True, True, True, True, True, True, fun o => o.isSent = false⟩

variable (W) in
/-- What is observed is framed. -/
def framing : Frame Sys where
  rel := Grows (Framed W)
  refl := Grows.refl _
  trans := Grows.trans

theorem framing_of_wordless (h : wordless.Rel s t) : (framing W).rel s t :=
  h.log.mono fun _ ho => framed_of_not_sent (ho.elim not_sent_of_ambient id)

theorem observe_framing (h : Framed W o) : Steps (framing W) (observe o) := fun s =>
  ⟨[o], rfl, fun _ ho => by rwa [List.mem_singleton.1 ho]⟩

/-- **Every piece sends what it sends framed.** -/
theorem framing_pieces :
    Pieces W EndsWith fun (α : Type) (m : M α) => Steps (framing W) m where
  hereditary := Steps.hereditary _
  elsewhere hm := hm.mono fun _ _ h => h.log.mono fun _ ho =>
    framed_of_not_sent (ho.elim not_sent_of_ambient Obs.not_sent_of_byPiece)
  assign hf := .modify fun s => .of_log _ (hf.log s)
  setUserState _ _ _ := (setUserState_within trivial).mono fun _ _ => framing_of_wordless
  credentials _ _ := (retrieveSessionCredentials_within trivial rfl fun _ => rfl).mono
    fun _ _ => framing_of_wordless
  opening a data := by
    have hopens : Within wordless (do
        if ← retrieveSessionCredentials W data a then
          let response ← racResponse W a
          let aes ← getUserAESCtx a
          return some (⟨false, aes, some response⟩ : Response)
        else return none) :=
      .bind (retrieveSessionCredentials_within trivial rfl fun _ => rfl) fun _ => .ite
        (fun _ => .bind (racResponse_within trivial fun _ => rfl) fun _ =>
          .bind getUserAESCtx_within fun _ => .pure _) fun _ => .pure _
    exact hopens.mono fun _ _ => framing_of_wordless
  sac _ _ _ := (sacValid_within trivial trivial trivial (fun _ _ => rfl) fun _ _ => rfl).mono
    fun _ _ => framing_of_wordless
  door hact := (door_within hact trivial rfl rfl).mono fun _ _ => framing_of_wordless
  reply _ _ _ _ _ hsealed hend := observe_framing ⟨_, _, hsealed, hend, rfl⟩
  ping htext := observe_framing (htext.imp (congrArg (· ++ [4])) (congrArg (· ++ [4])))

theorem step_framing (hs : Wired W s) (e : Event) :
    (framing W).rel s ((step W e).run s).2 := by
  rw [step_run]
  split
  · next henabled =>
    refine framing_pieces.handleAt (fun received he => ?_) (fun value he => ?_)
      (fun _ _ => ⟨.bleUser, rfl, rfl⟩) s
    · obtain ⟨ip, hip⟩ := hs.tcp (enabled_tcpRecv (he ▸ henabled))
      exact ⟨.ipv4 ip, hip, rfl⟩
    · obtain ⟨⟨bda, hbda⟩, -⟩ := hs.s3 (enabled_bleWrite (he ▸ henabled))
      exact ⟨.ble bda, hbda, rfl⟩
  · exact (framing W).refl s

/-- **And so does the program** around the servers. -/
theorem mainStep_framing (hs : Wired W s) (e : MainEvent) :
    (framing W).rel s ((mainStep W e).run s).2 := by
  have hbeside (hserver : ∀ e', e ≠ .server e') : Steps (framing W) (mainStep W e) :=
    framing_pieces.mainStep (.modify fun _ => .of_log _ rfl) fun e' he => absurd he (hserver e')
  cases e with
  | server e' => exact step_framing hs e'
  | _ => exact hbeside (fun _ => MainEvent.noConfusion) s

variable (W) in
/-- The wiring is kept, and what is observed is framed. -/
def wiredFraming : Frame Sys where
  rel s t := Wired W s → Wired W t ∧ (framing W).rel s t
  refl s h := ⟨h, (framing W).refl s⟩
  trans h₁ h₂ h := by
    obtain ⟨ht, hst⟩ := h₁ h
    obtain ⟨hu, htu⟩ := h₂ ht
    exact ⟨hu, (framing W).trans hst htu⟩

/-- **Whatever a run sends is framed**, however it ends. -/
theorem run_framed (hs : Boot W s) (es : List MainEvent) :
    ∀ o ∈ ((mainRun W es).run s).2.log, Framed W o := by
  have hsteps (e : MainEvent) : Steps (wiredFraming W) (mainStep W e) := fun s h =>
    ⟨mainStep_wired e s h, mainStep_framing h e⟩
  obtain ⟨-, new, hnew, hframed⟩ := Steps.exec hsteps es s hs.wired
  intro o ho
  have hmem : o ∈ new ++ s.log := hnew ▸ ho
  rw [hs.log, List.append_nil] at hmem
  exact hframed o hmem

/-! ## What is read -/

/-- An address of the TCP server. -/
def isDotted (a : CStr) : Bool := a.all fun c => isDigit c || c == 46

/-- The server of the S3 sends it to its client. -/
def Obs.isNotified : Obs → Bool
  | reply a _ _ _ => !isDotted a
  | bleText _ => true
  | _ => false

/-- The bytes it sends. -/
def Obs.bytes : Obs → List UInt8
  | reply _ _ _ sent => sent
  | bleText text => text
  | _ => []

/-- What the BLE client is sent, in order. -/
def Sys.notified (s : Sys) : List Obs := (s.log.filter Obs.isNotified).reverse

/-- `send_data_ble_s3` sends the bytes in these packets, in an MTU in which
it can. -/
def Notifies (bytes : List UInt8) (out : Transmission) : Prop :=
  ∃ outside mtu turns data, 23 ≤ mtu.toNat ∧ data.length + 1 ≤ 254 * (mtu.toNat - 3) ∧
    bytes = data ++ [4] ∧ fragmentsBleS3 true outside mtu turns data = some out

/-- What stands before each `EOT`. -/
def frames (bytes : List UInt8) : List CStr := (bytes.splitOn 4).dropLast

variable (W) in
/-- The client gets this by the frame: a reply it decrypts, to the text
with its stamps. -/
def Reads : Obs → CStr → Prop
  | .reply _ ctx text _, frame => ∃ now r, ∀ u, ∃ u',
      (decryptBase64AES W ctx frame).run u = (.ok (cstr (stamped text now r)), u')
  | .bleText text, frame => (frame = lit "LOK" ∨ frame = lit "LNO") ∧ text = frame ++ [4]
  | _, _ => False

theorem frames_append {data rest : List UInt8} (h : 4 ∉ data) :
    frames (data ++ [4] ++ rest) = data :: frames rest := by
  rw [frames, List.append_assoc, List.singleton_append,
    List.splitOn_append_cons_self_of_not_mem h,
    List.dropLast_cons_of_ne_nil (List.splitOn_ne_nil _ _), frames]

/-- What is sealed is two base64 words, and is decrypted by the context. -/
theorem Sealed.reads {aes : AESContext} {text sent : CStr} (hinv : CipherInverts W)
    (h : Sealed W aes text sent) : 4 ∉ sent ∧ ∃ now r, ∀ u, ∃ u',
      (decryptBase64AES W aes sent).run u = (.ok (cstr (stamped text now r)), u') := by
  obtain ⟨s, s', hseal⟩ := h
  obtain ⟨s₁, hstamp⟩ := addTimestampsAndNonceToMsg_run W text s
  rw [sealResponse, run_bind_ok hstamp] at hseal
  obtain ⟨_, iv, s₂, hencrypt, rfl, -⟩ := encryptStrAES_run (W := W) aes s₁ (encryptStrAES_ok hseal)
  rw [hencrypt] at hseal
  cases hseal
  have hne : stamped text (W.clock s.moment) (W.random (s.moment + 1)) ≠ [] := by
    simp [stamped, lit]
  refine ⟨fun hmem => ?_, _, _, fun u => decrypt_envelope hinv aes iv hne u⟩
  rcases List.mem_append.1 hmem with hmem | hmem
  · rcases List.mem_append.1 hmem with hmem | hmem
    · exact absurd (inAlphabet_of_mem_encodeBlocks hmem) (by decide)
    · exact absurd hmem (by decide)
  · exact absurd (inAlphabet_of_mem_encodeBlocks hmem) (by decide)

theorem isDotted_inetNtoa (ip : Vector UInt8 4) : isDotted (inetNtoa ip) = true :=
  List.all_eq_true.2 fun c hc => by
    rcases mem_inetNtoa hc with h | rfl
    · rw [h, Bool.true_or]
    · rfl

/-- **What the client is sent** is a frame, and an `EOT` behind it. -/
theorem Framed.reads (hinv : CipherInverts W) (h : Framed W o) (ho : o.isNotified = true) :
    ∃ frame, o.bytes = frame ++ [4] ∧ 4 ∉ frame ∧ Reads W o frame := by
  cases o with
  | reply a aes text sent =>
    obtain ⟨body, _, hsealed, ⟨x, rfl, rfl⟩, rfl⟩ := h
    obtain ⟨hfour, hreads⟩ := hsealed.reads hinv
    have hble : x.isBle = true := by
      cases x with
      | ipv4 ip =>
        have hdotted : (!isDotted (inetNtoa ip)) = true := ho
        rw [isDotted_inetNtoa] at hdotted
        cases hdotted
      | ble bda => rfl
      | bleUser => rfl
    exact ⟨body, by rw [hble]; rfl, hfour, hreads⟩
  | bleText text =>
    rcases h with rfl | rfl
    · exact ⟨_, rfl, by decide, .inl rfl, rfl⟩
    · exact ⟨_, rfl, by decide, .inr rfl, rfl⟩
  | _ => cases ho

theorem fragmentsBleS3_mono {outside : Int → UInt8} {mtu : UInt16} {m n : ℕ} {data : CStr}
    {connected : Bool} {out : Transmission} (hle : m ≤ n)
    (h : fragmentsBleS3 connected outside mtu m data = some out) :
    fragmentsBleS3 connected outside mtu n data = some out := by
  unfold fragmentsBleS3 at h ⊢
  dsimp only at h ⊢
  split_ifs at h ⊢ with hconnected hone
  · exact h
  · obtain ⟨st, hrun, hout⟩ := Option.map_eq_some_iff.1 h
    rw [Loop.run_mono hrun hle, ← hout]
    rfl
  · exact h

/-- The packets of what is sent are what is sent. -/
theorem Notifies.whole {bytes : List UInt8} {out : Transmission} (h : Notifies bytes out) :
    out.payloads.flatten = bytes := by
  obtain ⟨outside, mtu, turns, data, hmtu, hfew, hbytes, hout⟩ := h
  obtain ⟨enough, out', hruns, hcarries⟩ := exists_carries outside hmtu hfew
  have hmore := fragmentsBleS3_mono (le_max_left turns enough) hout
  rw [hruns _ (le_max_right turns enough), Option.some.injEq] at hmore
  rw [← hmore, hcarries.whole, hbytes]

/-- Observation by observation. -/
theorem frames_read (hinv : CipherInverts W) {outs : List Transmission} :
    ∀ {sent : List Obs}, (∀ o ∈ sent, Framed W o ∧ o.isNotified = true) →
      List.Forall₂ Notifies (sent.map Obs.bytes) outs →
      List.Forall₂ (Reads W) sent (frames (outs.flatMap fun out => out.payloads.flatten)) := by
  induction outs with
  | nil =>
    intro sent _ h
    rw [List.forall₂_nil_right_iff, List.map_eq_nil_iff] at h
    rw [h]
    exact .nil
  | cons out outs ih =>
    intro sent hsent h
    cases sent with
    | nil => cases h
    | cons o sent =>
      obtain ⟨hout, houts⟩ := List.forall₂_cons.1 h
      obtain ⟨⟨hframed, hnotified⟩, hrest⟩ := List.forall_mem_cons.1 hsent
      obtain ⟨frame, hbytes, hfour, hreads⟩ := hframed.reads hinv hnotified
      rw [List.flatMap_cons, hout.whole, hbytes, frames_append hfour]
      exact .cons hreads (ih hrest houts)

/-- **The BLE client reads what it is sent.** Whatever happened to the
program, and whatever packets it cut its replies into: the bytes of the
packets, taken to each `EOT`, are one frame for each reply, each answer to a
ping and each `LOK` of a start, in their order, and a frame of a reply is
decrypted to the reply. -/
theorem notified_read (hinv : CipherInverts W) (hs : Boot W s) (es : List MainEvent)
    {outs : List Transmission}
    (houts : List.Forall₂ Notifies (((mainRun W es).run s).2.notified.map Obs.bytes) outs) :
    List.Forall₂ (Reads W) ((mainRun W es).run s).2.notified
      (frames (outs.flatMap fun out => out.payloads.flatten)) := by
  refine frames_read hinv (fun o ho => ?_) houts
  obtain ⟨hlog, hnotified⟩ := List.mem_filter.1 (List.mem_reverse.1 ho)
  exact ⟨run_framed hs es o hlog, hnotified⟩

/-- A client connects and pings, is told that the start is through, and
sends credentials. -/
def pingAndOpen : List MainEvent :=
  [.server (.bleConnect phoneAddress), .server (.bleWrite (lit "PNG")),
    .server (.setWifiConnected true), .online, .server (.bleWrite (lit "AAAA"))]

/-- The packets of what it is sent, at the least MTU. -/
def pingAndOpenPackets : List Transmission :=
  [⟨[], [lit "LNO" ++ [4]]⟩, ⟨[], [lit "LOK" ++ [4]]⟩,
    ⟨[⟨0, 20⟩, ⟨20, 20⟩, ⟨40, 20⟩, ⟨60, 10⟩],
      [lit "UkFDIEFBQUFBQUFBQUFB", lit "QUFBPT0gNzAgMTMwIDAD", lit "AwM= AAAAAAAAAAAAAAA",
        lit "AAAAAAA==" ++ [4]]⟩]

theorem notified_read_pingAndOpen :
    List.Forall₂ (Reads (World.answering .esp32s3))
      ((mainRun (World.answering .esp32s3) pingAndOpen).run Sys.initial).2.notified
      (frames (pingAndOpenPackets.flatMap fun out => out.payloads.flatten)) := by
  have hbytes : ((mainRun (World.answering .esp32s3) pingAndOpen).run Sys.initial).2.notified.map
      Obs.bytes = pingAndOpenPackets.map fun out => out.payloads.flatten := by decide +kernel
  refine notified_read (fun _ _ _ _ => rfl) boot_initial pingAndOpen ?_
  rw [hbytes]
  refine .cons ⟨fun _ => 0, 23, 0, lit "LNO", by decide, by decide, rfl, by decide +kernel⟩
    (.cons ⟨fun _ => 0, 23, 0, lit "LOK", by decide, by decide, rfl, by decide +kernel⟩
      (.cons ⟨fun _ => 0, 23, 5, lit "UkFDIEFBQUFBQUFBQUFBQUFBPT0gNzAgMTMwIDADAwM= " ++
        lit "AAAAAAAAAAAAAAAAAAAAAA==", by decide, by decide, by decide, by decide +kernel⟩ .nil))

end SmartLock
