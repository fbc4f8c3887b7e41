import SmartLock.Footprint.Observed
import SmartLock.System.Frames

/-!
# Who is connected

The addresses the servers hold in any state a run reaches, and why no
session of one transport has the key of a session of the other: the first
four bytes of a dotted address are digits and dots, and those of a BLE
address are not.
-/

namespace SmartLock

open Prog

variable {W : World} {s t : Sys}

/-! ## Keys of the two transports -/

/-- The address names a BLE session. -/
def Address.isBle : Address → Bool
  | ipv4 _ => false
  | ble _ => true
  | bleUser => true

theorem mem_inetNtoa {ip : Vector UInt8 4} {c : UInt8} (h : c ∈ inetNtoa ip) :
    isDigit c = true ∨ c = 46 := by
  have hdot {c : UInt8} (h : c ∈ lit ".") : isDigit c = true ∨ c = 46 :=
    .inr (List.mem_singleton.1 h)
  simp only [inetNtoa, List.mem_append] at h
  rcases h with (((((h | h) | h) | h) | h) | h) | h
  · exact .inl (isDigit_of_mem_dec h)
  · exact hdot h
  · exact .inl (isDigit_of_mem_dec h)
  · exact hdot h
  · exact .inl (isDigit_of_mem_dec h)
  · exact hdot h
  · exact .inl (isDigit_of_mem_dec h)

theorem four_le_length_inetNtoa (ip : Vector UInt8 4) : 4 ≤ (inetNtoa ip).length := by
  have hpos (n : ℕ) : 1 ≤ (dec n).length := List.length_pos_of_ne_nil (dec_ne_nil n)
  have h₀ := hpos ip[0].toNat
  have h₁ := hpos ip[1].toNat
  have h₂ := hpos ip[2].toNat
  have h₃ := hpos ip[3].toNat
  have hdot : (lit ".").length = 1 := rfl
  simp only [inetNtoa, List.length_append, hdot]
  omega

/-- The key of a dotted address is made of digits and dots. -/
theorem mem_hashKey_inetNtoa {ip : Vector UInt8 4} {c : UInt8} (h : c ∈ hashKey (inetNtoa ip)) :
    isDigit c = true ∨ c = 46 := by
  rw [hashKey, List.take_append_of_le_length (four_le_length_inetNtoa ip)] at h
  exact mem_inetNtoa (List.mem_of_mem_take h)

/-- **No session of one transport has the key of one of the other.** -/
theorem hashKey_ipv4_ne {x : Address} (hx : x.isBle = true) (ip : Vector UInt8 4) :
    hashKey x.text ≠ hashKey (inetNtoa ip) := by
  intro h
  cases x with
  | ipv4 ip => cases hx
  | ble bda =>
    have hcolon : (58 : UInt8) ∈ hashKey (macText bda) := by
      simp [hashKey, macText, hexByte, lit]
    exact absurd (mem_hashKey_inetNtoa (h ▸ hcolon)) (by decide)
  | bleUser =>
    have hB : (66 : UInt8) ∈ hashKey bleUser := by decide
    exact absurd (mem_hashKey_inetNtoa (h ▸ hB)) (by decide)

/-! ## The addresses held -/

variable (W) in
/-- The addresses the servers hold are of their transport. -/
structure Wired (s : Sys) : Prop where
  tcp : s.serving = true → ∃ ip, s.addrStr = inetNtoa ip
  ble : s.currentBLEAddr = [] ∨ ∃ x : Address, x.isBle = true ∧ s.currentBLEAddr = x.text
  s3 : s.isConnected = true → (∃ bda, s.bleUserAddr = macText bda) ∧
    s.currentBLEAddr = s.bleUserAddr ∧ W.target = .esp32s3

/-- A change that leaves the servers alone leaves the wiring. -/
theorem Wired.of_servers (h : Wired W s) (hst : t.servers = s.servers) : Wired W t := by
  simp only [Sys.servers, Prod.mk.injEq] at hst
  obtain ⟨hcur, haddr, hserv, hble, hconn, -⟩ := hst
  refine ⟨?_, ?_, ?_⟩
  · rw [hserv, haddr]
    exact h.tcp
  · rw [hcur]
    exact h.ble
  · rw [hconn, hble, hcur]
    exact h.s3

theorem wired_talks {a : CStr} : (Frame.keeping (Wired W)).Talks a :=
  fun _ _ hst h => h.of_servers hst.servers

theorem wired_overTcp (ip : Vector UInt8 4) : OverTcp (Frame.keeping (Wired W)) ip where
  talks := wired_talks
  sleep _ _ h := ⟨h.tcp, h.ble, h.s3⟩
  accept _ h := ⟨fun _ => ⟨ip, rfl⟩, h.ble, h.s3⟩
  connect _ h := ⟨h.tcp, h.ble, h.s3⟩
  close _ h := ⟨h.tcp, h.ble, h.s3⟩
  disconnect _ h := ⟨h.tcp, h.ble, h.s3⟩
  leave _ h := ⟨nofun, h.ble, h.s3⟩

theorem wired_overS3 (hW : W.target = .esp32s3) (bda : Vector UInt8 6) :
    OverS3 (Frame.keeping (Wired W)) bda where
  talks := wired_talks
  connect _ h := ⟨h.tcp, .inr ⟨.ble bda, rfl, rfl⟩, fun _ => ⟨⟨bda, rfl⟩, rfl, hW⟩⟩
  disconnect _ h := ⟨h.tcp, .inl rfl, nofun⟩
  disconnected _ h := ⟨h.tcp, h.ble, h.s3⟩
  flag _ _ h := ⟨h.tcp, h.ble, h.s3⟩

theorem wired_overUart (hW : W.target = .esp32s2) : OverUart (Frame.keeping (Wired W)) where
  talks := wired_talks
  sleep _ _ h := ⟨h.tcp, h.ble, h.s3⟩
  connect _ h := ⟨h.tcp, h.ble, h.s3⟩
  disconnect _ h := ⟨h.tcp, h.ble, h.s3⟩
  current _ _ haddr h := ⟨h.tcp, haddr.imp id fun h => ⟨.bleUser, rfl, h⟩,
    fun hc => absurd (h.s3 hc).2.2 (by rw [hW]; decide)⟩
  flag _ _ h := ⟨h.tcp, h.ble, h.s3⟩
  buffer _ _ h := ⟨h.tcp, h.ble, h.s3⟩
  literal _ _ h := ⟨h.tcp, h.ble, h.s3⟩

/-- What can be said of an event from its being enabled. -/
theorem enabled_bleConnect {bda : Vector UInt8 6} (h : (Event.bleConnect bda).enabled W s = true) :
    W.target = .esp32s3 := by
  have henabled : (W.target == .esp32s3 && !s.isConnected) = true := h
  exact beq_iff_eq.1 (Bool.and_eq_true_iff.1 henabled).1

theorem enabled_ble (h : Event.bleDisconnect.enabled W s = true) :
    W.target = .esp32s3 ∧ s.isConnected = true := by
  have henabled : (W.target == .esp32s3 && s.isConnected) = true := h
  rwa [Bool.and_eq_true, beq_iff_eq] at henabled

theorem enabled_bleDisconnect (h : Event.bleDisconnect.enabled W s = true) :
    s.isConnected = true := (enabled_ble h).2

theorem enabled_bleWrite {value : List UInt8} (h : (Event.bleWrite value).enabled W s = true) :
    s.isConnected = true := (enabled_ble h).2

theorem enabled_tcpRecv {received : List UInt8} (h : (Event.tcpRecv received).enabled W s = true) :
    s.serving = true := by
  have henabled : (s.serving && received.length != 0 && received.length < rxBufferSize) = true := h
  rw [Bool.and_eq_true, Bool.and_eq_true] at henabled
  exact henabled.1.1

theorem enabled_uart {received : List UInt8} (h : (Event.uart received).enabled W s = true) :
    W.target = .esp32s2 := beq_iff_eq.1 h

variable (W) in
/-- The frame allows what any event does but a change of the status on the
server. -/
structure Over (F : Frame Sys) : Prop where
  tcp : ∀ ip, OverTcp F ip
  s3 : W.target = .esp32s3 → ∀ bda, OverS3 F bda
  uart : W.target = .esp32s2 → OverUart F
  wifi : ∀ s connected, F.rel s { s with wifiConnected := connected }
  online : ∀ s, F.rel s { s with serverOnline := true }

/-- **The frame of an event**, whatever its outcome: what the frame allows
of the servers, it allows of every event but the changes made to the globals
from elsewhere. -/
theorem servers_step {F : Frame Sys} {e : Event} (tcp : ∀ ip, OverTcp F ip)
    (s3 : W.target = .esp32s3 → ∀ bda, OverS3 F bda)
    (uart : ∀ received, e = .uart received → W.target = .esp32s2 → OverUart F)
    (hs : Wired W s) (hstatus : ∀ status, e ≠ .serverStatus status)
    (hwifi : ∀ connected, e = .setWifiConnected connected →
      F.rel s { s with wifiConnected := connected })
    (honline : e = .serverOnline → F.rel s { s with serverOnline := true }) :
    F.rel s ((step W e).run s).2 := by
  rw [SmartLock.step, run_get_bind]
  by_cases henabled : e.enabled W s
  · rw [if_pos henabled]
    cases e with
    | tcpAccept ip => exact (tcp ip).tcpAccept s
    | tcpRecv received =>
      obtain ⟨ip, hip⟩ := hs.tcp (enabled_tcpRecv henabled)
      exact (tcp ip).doRetransmit hip
    | tcpClose =>
      obtain ⟨ip, hip⟩ := hs.tcp henabled
      exact (tcp ip).tcpEnd hip
    | bleConnect bda => exact (s3 (enabled_bleConnect henabled) bda).gattsConnect s
    | bleDisconnect =>
      obtain ⟨⟨bda, hbda⟩, _, hW⟩ := hs.s3 (enabled_bleDisconnect henabled)
      exact (s3 hW bda).gattsDisconnect hbda
    | bleWrite value =>
      obtain ⟨⟨bda, hbda⟩, _, hW⟩ := hs.s3 (enabled_bleWrite henabled)
      exact (s3 hW bda).processNormalData hbda
    | uart received => exact (uart received rfl (enabled_uart henabled)).echoTask s
    | serverStatus status => exact absurd rfl (hstatus status)
    | initRsaKey =>
      have htalks : F.Talks (inetNtoa #v[0, 0, 0, 0]) := (tcp _).talks
      exact htalks.steps (initRsaKey_within trivial) s
    | setWifiConnected connected => exact hwifi connected rfl
    | serverOnline => exact honline rfl
  · rw [if_neg henabled]
    exact F.refl s

theorem Over.step {F : Frame Sys} (h : Over W F) (hs : Wired W s) {e : Event}
    (he : ∀ status, e ≠ .serverStatus status) : F.rel s ((step W e).run s).2 :=
  servers_step h.tcp h.s3 (fun _ _ => h.uart) hs he (fun connected _ => h.wifi s connected)
    fun _ => h.online s

theorem wired_over : Over W (Frame.keeping (Wired W)) where
  tcp := wired_overTcp
  s3 := wired_overS3
  uart := wired_overUart
  wifi _ _ h := ⟨h.tcp, h.ble, h.s3⟩
  online _ h := ⟨h.tcp, h.ble, h.s3⟩

/-- A change of the status on the server is no more than that. -/
theorem run_serverStatus (status : Int) :
    (step W (.serverStatus status)).run s = (.ok (), { s with serverStatus := status }) := rfl

/-- **Every event keeps the wiring**, whatever its outcome. -/
theorem step_wired (e : Event) : Steps (Frame.keeping (Wired W)) (step W e) := by
  intro s h
  by_cases he : ∃ status, e = .serverStatus status
  · obtain ⟨status, rfl⟩ := he
    rw [run_serverStatus]
    exact ⟨h.tcp, h.ble, h.s3⟩
  · exact wired_over.step h (fun status heq => he ⟨status, heq⟩) h

variable (W) in
/-- The states runs reach from a start, none of their events having
faulted. -/
def Reachable (s : Sys) : Prop := ∃ s₀ es, Boot W s₀ ∧ (run W es).run s₀ = (.ok (), s)

theorem Boot.wired (h : Boot W s) : Wired W s :=
  ⟨fun hs => absurd hs (by rw [h.serving]; decide), .inl h.currentBLEAddr,
    fun hc => absurd hc (by rw [h.isConnected]; decide)⟩

/-- **The start of the S2** adds the record of `ble_user`. -/
theorem Boot.bleInit (hW : W.target = .esp32s2) (h : Boot W s) (hs : s.usersInfo = []) :
    ∃ t, (SmartLock.bleInit W).run s = (.ok (), t) ∧ Boot W t := by
  have hnone : s.user bleUser = none := by
    rw [Sys.user, hs]
    rfl
  refine ⟨((s.ticked.addUser { W.freshUser s.moment with userIp := bleUser }).updateUser bleUser
      fun r => { r with state := .disconnected }).updateUser bleUser
      fun r => { r with phoneId := [] }, ?_, ?_⟩
  · rw [SmartLock.bleInit, setUserState, findOrAdd]
    simp only [run_bind_bind, run_get_bind, if_pos hnone, run_tick_bind]
    rfl
  · refine ⟨fun r hr => ?_, h.currentBLEAddr, h.head, h.registrationStatus, h.serving,
      h.isConnected, h.gotFirstInviteSessionKeyS3, h.gotFirstInviteSessionKey, h.log⟩
    change r ∈ Keyed.update _ _ _ (Keyed.update _ _ _ (s.usersInfo ++ [_])) at hr
    rw [hs] at hr
    rw [List.mem_singleton.1 hr]
    exact ⟨hW, rfl, rfl, rfl⟩

/-- **In every reachable state the addresses held are of their
transport.** -/
theorem Reachable.wired (h : Reachable W s) : Wired W s := by
  obtain ⟨s₀, es, hboot, hrun⟩ := h
  exact (Steps.exec step_wired es).of_ok hrun hboot.wired

/-- The sessions of the two transports have different keys. -/
theorem Wired.hashKey_ne (h : Wired W s) (hs : s.serving = true) (hb : s.currentBLEAddr ≠ []) :
    hashKey s.currentBLEAddr ≠ hashKey s.addrStr := by
  obtain ⟨ip, hip⟩ := h.tcp hs
  obtain ⟨x, hx, hcur⟩ := h.ble.resolve_left hb
  rw [hip, hcur]
  exact hashKey_ipv4_ne hx ip

/-! ## The registration status -/

/-- The status on the server stands, and the cache was at most asked for
anew. -/
def asked : Frame Sys where
  rel s t := t.serverStatus = s.serverStatus ∧ (t.registrationStatus = s.registrationStatus ∨
    t.registrationStatus = unknownStatus ∨ t.registrationStatus = s.serverStatus)
  refl _ := ⟨rfl, .inl rfl⟩
  trans h₁ h₂ := by
    refine ⟨h₂.1.trans h₁.1, ?_⟩
    rcases h₂.2 with h | h | h
    · rw [h]
      exact h₁.2
    · exact .inr (.inl h)
    · exact .inr (.inr (h.trans h₁.1))

theorem asked_talks {a : CStr} : asked.Talks a := fun _ _ hst =>
  ⟨Sys.serverStatus_of_servers hst.servers, hst.status.imp id fun h => h.2⟩

/-- **Only the server changes its status**, and the cache has no other
source. -/
theorem asked_over : Over W asked where
  tcp _ := ⟨asked_talks, fun s _ => asked.refl s, fun s => asked.refl s, fun s => asked.refl s,
    fun s => asked.refl s, fun s => asked.refl s, fun s => asked.refl s⟩
  s3 _ _ := ⟨asked_talks, fun s => asked.refl s, fun s => asked.refl s, fun s => asked.refl s,
    fun s _ => asked.refl s⟩
  uart _ := ⟨asked_talks, fun s _ => asked.refl s, fun s => asked.refl s, fun s => asked.refl s,
    fun s _ _ => asked.refl s, fun s _ => asked.refl s, fun s _ => asked.refl s,
    fun s _ => asked.refl s⟩
  wifi s _ := asked.refl s
  online s := asked.refl s

/-! ## Runs on fixed inputs -/

/-- The address of a client on the network. -/
def lanAddress : Vector UInt8 4 := #v[192, 168, 1, 5]

/-- The address of a BLE client. -/
def phoneAddress : Vector UInt8 6 := #v[1, 2, 3, 4, 5, 6]

theorem boot_initial : Boot W Sys.initial := ⟨nofun, rfl, rfl, rfl, rfl, rfl, rfl, rfl, rfl⟩

/-- What a run from a start reaches, if it returns. -/
theorem Boot.reachable (hboot : Boot W s) {es : List Event} (h : ((run W es).run s).1 = .ok ()) :
    Reachable W ((run W es).run s).2 := ⟨s, es, hboot, Prod.ext h rfl⟩

theorem reachable_of_run {es : List Event} (h : ((run W es).run Sys.initial).1 = .ok ()) :
    Reachable W ((run W es).run Sys.initial).2 := boot_initial.reachable h

section

variable {ι : Type} {act : ι → M Unit} {s₀ : Sys} {es : List ι} {e : ι}

/-- The last of what is executed. -/
theorem exists_last_exec (hrun : ((Prog.exec act (es ++ [e])).run s₀).1 = .ok ()) :
    ∃ s s', (Prog.exec act es).run s₀ = (.ok (), s) ∧ (act e).run s = (.ok (), s') ∧
      ((Prog.exec act es).run s₀).2 = s ∧ ((Prog.exec act (es ++ [e])).run s₀).2 = s' := by
  obtain ⟨s, hfirst, hrest⟩ := exec_append.1 (Prod.ext hrun rfl)
  obtain ⟨_, s', hstep, hret⟩ := bind_ok.1 hrest
  exact ⟨s, s', hfirst, hstep, congrArg Prod.snd hfirst, (Prod.mk.inj hret).2.symm⟩

/-- And what it was observed to do. -/
theorem exists_last_event {k : ℕ} {o : Obs} {Q : List Obs → Prop}
    (hrun : ((Prog.exec act (es ++ [e])).run s₀).1 = .ok ())
    (hbefore : ((Prog.exec act es).run s₀).2.log <:+
      ((Prog.exec act (es ++ [e])).run s₀).2.log.drop (k + 1))
    (hmade : ((Prog.exec act (es ++ [e])).run s₀).2.log[k]? = some o)
    (hpre : Q (((Prog.exec act (es ++ [e])).run s₀).2.log.drop (k + 1))) :
    ∃ s s' pre, (Prog.exec act es).run s₀ = (.ok (), s) ∧ (act e).run s = (.ok (), s') ∧
      Made s s' o pre ∧ Q pre := by
  obtain ⟨s, s', hfirst, hstep, hs, hs'⟩ := exists_last_exec hrun
  rw [hs'] at hmade hpre hbefore
  rw [hs] at hbefore
  refine ⟨s, s', _, hfirst, hstep, ⟨hbefore, ?_⟩, hpre⟩
  obtain ⟨hk, rfl⟩ := List.getElem?_eq_some_iff.1 hmade
  rw [← List.drop_eq_getElem_cons hk]
  exact List.drop_suffix _ _

end

/-- The last event of a run. -/
theorem exists_last_step {s₀ : Sys} {es : List Event} {e : Event}
    (hrun : ((run W (es ++ [e])).run s₀).1 = .ok ()) :
    ∃ s s', (run W es).run s₀ = (.ok (), s) ∧ (step W e).run s = (.ok (), s') ∧
      ((run W es).run s₀).2 = s ∧ ((run W (es ++ [e])).run s₀).2 = s' := exists_last_exec hrun

/-- The lock as it starts while it awaits its first invite. -/
def awaitingFirstInvite : Sys := { Sys.initial with serverStatus := registered }

theorem boot_awaitingFirstInvite : Boot W awaitingFirstInvite :=
  ⟨nofun, rfl, rfl, rfl, rfl, rfl, rfl, rfl, rfl⟩

/-- An outside in which every text is taken for the same credentials. -/
def World.sameKey (target : Target) : World :=
  { World.still target 100 with rsaDecrypt := fun _ => some (lit "SSC AAAA") }

/-- An outside that answers, in which every text is taken for the same
credentials. -/
def World.answering (target : Target) : World :=
  { World.still target 100 with
    rsaDecrypt := fun _ => some (lit "SSC AAAA")
    inviteReply := fun _ _ => .body ⟨true, some (lit "ID")⟩
    statusAnswered := fun _ => true }

/-- A plaintext, encrypted under a context that leaves it as it is. -/
def sealedText (text : CStr) : CStr := encodeBlocks (addPadding text) ++ lit " AAAA"

end SmartLock
