import SmartLock.System.Comeback

/-!
# The end of a connection of the UART

The module announces the end of a connection in a line, which `echo_task`
compares with its literal and the NUL behind it: a line that goes on, if
only with its line end, is not one. Where it is taken, the session is over
for every later message, until a line announces a connection; except for
the messages of the first-invite mode, which no state is asked for.
-/

namespace SmartLock

open Prog

variable {W : World} {s t s' : Sys} {e : Event} {es : List Event} {data : CStr}
variable {received : List UInt8}

/-! ## What the line should end -/

/-- The module is asked to end the connection, and no command is run. -/
def AnsweredByDisconnect (s s' : Sys) : Prop :=
  ∃ new, s'.log = new ++ s.log ∧ .uartText (lit "AT+DISC\r\n") ∈ new ∧
    ∀ a cmd, .command a cmd ∉ new

variable (W) in
/-- A message of the BLE client at the event is answered by a disconnect. -/
def Refuses (e : Event) (s : Sys) : Prop :=
  Brings W s e bleUser → ∀ s', (step W e).run s = (.ok (), s') → AnsweredByDisconnect s s'

variable (W) in
/-- The session of the BLE client is over in `s`, and for every message of
it at the events of `es`. -/
structure SessionEnds (s : Sys) (es : List Event) : Prop where
  away : Away bleUser s
  currentBLEAddr : s.currentBLEAddr = []
  refuses : Throughout (step W) (Refuses W) es s

variable (W) in
/-- A message of the BLE client at the event is not one of the first-invite
mode. -/
def Uninvited (e : Event) (s : Sys) : Prop :=
  ∀ received, e = .uart received → ∀ status t,
    (getRegistrationStatus W).run ((s.buffered received).noted (.message bleUser)) =
      (.ok status, t) → status ≠ registered

/-- The event brings no line that announces a connection. -/
def Event.quietLine (e : Event) : Prop :=
  ∀ received, e = .uart received → ¬ lit "+CONNECTED" <+: cstr received

/-! ## Lines -/

theorem isConnected_line : strncmpEq (lit "+CONNECTED") data 10 = true ↔
    lit "+CONNECTED" <+: data := strncmpEq_length (by decide)

theorem isDisconnect_line (h : (0 : UInt8) ∉ data) :
    strncmpEq (lit "+DISCONNECT") data 13 = true ↔ data = lit "+DISCONNECT" :=
  strncmpEq_of_lt (by decide) h

/-- **A line that announces no connection** ends the session if it is the
literal, and is nothing otherwise. -/
theorem handleATCmd_cases (hnul : (0 : UInt8) ∉ data) (hquiet : ¬ lit "+CONNECTED" <+: data)
    (h : (handleATCmd W data).run s = (.ok (), s')) :
    (data = lit "+DISCONNECT" ∧ ∃ t, (setUserState W bleUser .disconnected []).run s = (.ok (), t) ∧
        s' = t.uartDisconnected) ∨ (data ≠ lit "+DISCONNECT" ∧ s' = s) := by
  rw [handleATCmd, if_neg (isConnected_line.not.2 hquiet)] at h
  by_cases hend : data = lit "+DISCONNECT"
  · rw [if_pos ((isDisconnect_line hnul).2 hend)] at h
    obtain ⟨_, t, hset, hrest⟩ := bind_ok.1 h
    cases hrest
    exact .inl ⟨hend, t, hset, rfl⟩
  · rw [if_neg ((isDisconnect_line hnul).not.2 hend)] at h
    cases h
    exact .inr ⟨hend, rfl⟩

/-! ## Messages of a session that is over -/

/-- **A message of a session that is over** is answered by a disconnect. -/
theorem handleBleMessage_refused (h : (handleBleMessage W data).run s = (.ok (), s'))
    (hb : Away bleUser s) (hinvite : ∀ status t,
      (getRegistrationStatus W).run (s.noted (.message bleUser)) = (.ok status, t) →
        status ≠ registered) :
    Away bleUser s' ∧ s'.currentBLEAddr = s.currentBLEAddr ∧ AnsweredByDisconnect s s' := by
  obtain ⟨status, t, r, u, hstatus, hresponse, hreplies⟩ := handleBleMessage_ok h
  have hasks : looking.Rel _ t := (getRegistrationStatus_within trivial).of_ok hstatus
  have ht : Away bleUser t := hb.of_user (hasks.user_eq id fun h => h.1)
  rw [if_neg (hinvite status t hstatus)] at hresponse
  obtain ⟨x, hx, hexchange⟩ := sessionResponse_ok hresponse
  have hstate : x.state = .disconnected := by
    obtain ⟨y, hy, haway⟩ := ht
    rw [hx, Option.some.injEq] at hy
    rw [hy, haway]
  cases hexchange with
  | refused hconnecting => rw [hstate] at hconnecting; cases hconnecting
  | opened hconnecting => rw [hstate] at hconnecting; cases hconnecting
  | command hopen => rw [hstate] at hopen; rcases hopen with h | h <;> cases h
  | ignored =>
    rcases hreplies with ⟨_, v, hset, rfl⟩ | ⟨response, hr, _⟩
    · have hwrites : writing.Rel t v := setUserState_writes hset
      obtain ⟨n₁, hn₁, hp₁⟩ := hasks.log
      obtain ⟨n₂, hn₂, hp₂⟩ := writing_log hwrites
      have hv : Away bleUser v := ht.wrote (setUserState_ok hset) fun _ _ => rfl
      refine ⟨hv, ?_,
        .uartText (lit "AT+DISC\r\n") :: n₂ ++ n₁ ++ [.message bleUser], ?_,
        List.mem_append_left _ (List.mem_append_left _ (List.mem_cons_self ..)),
        fun a cmd hmem => ?_⟩
      · exact (Sys.currentBLEAddr_of_servers hwrites.servers).trans
          (Sys.currentBLEAddr_of_servers hasks.servers)
      · change .uartText _ :: v.log = _
        rw [hn₂, hn₁]
        simp [Sys.noted]
      · simp only [List.mem_append, List.mem_cons, reduceCtorEq, List.not_mem_nil, or_false,
          false_or] at hmem
        rcases hmem with hmem | hmem
        · cases hp₂ _ hmem
        · rcases hp₁ _ hmem with hamb | hno
          · cases hamb
          · exact hno
    · cases hr

/-! ## Events -/

theorem Brings.enabled {a : CStr} (h : Brings W s e a) : e.enabled W s = true := by
  cases h <;> assumption

variable (W) in
/-- The session of the BLE client is over, and none is current. -/
structure SessionOver (s : Sys) : Prop where
  wired : Wired W s
  away : Away bleUser s
  currentBLEAddr : s.currentBLEAddr = []

/-- A turn of `echo_task` in a session that is over. -/
theorem SessionOver.turn (h : SessionOver W s)
    (hquiet : (Event.uart received).quietLine) (hinvite : Uninvited W (.uart received) s)
    (hrun : (echoTask W received).run s = (.ok (), s')) :
    Away bleUser s' ∧ s'.currentBLEAddr = [] ∧
      (Brings W s (.uart received) bleUser → AnsweredByDisconnect s s') := by
  rw [echoTask, run_get_bind] at hrun
  by_cases hping : s.data = lit "PNG"
  · rw [if_pos hping] at hrun
    obtain ⟨-, rfl⟩ := sendLOK_ok hrun
    exact ⟨h.away, h.currentBLEAddr, fun hbrings => by cases hbrings; contradiction⟩
  rw [if_neg hping] at hrun
  by_cases hwifi : s.wifiConnected ∧ received ≠ []
  · rw [if_pos hwifi] at hrun
    dsimp only at hrun
    by_cases hline : strncmpEq (lit "AT+") (cstr received) 3 ∨ strncmpEq (lit "+") (cstr received) 1
    · rw [if_pos hline] at hrun
      have hbuffered : Away bleUser { s with data := cstr received } := h.away
      refine (and_assoc.1 ⟨?_, fun hbrings => by cases hbrings; contradiction⟩)
      rcases handleATCmd_cases (zero_notMem_cstr _) (hquiet _ rfl) hrun with
        ⟨_, t, hset, rfl⟩ | ⟨_, rfl⟩
      · have ht : Away bleUser t := hbuffered.wrote (setUserState_ok hset) fun _ _ => rfl
        exact ⟨ht, rfl⟩
      · exact ⟨h.away, h.currentBLEAddr⟩
    · rw [if_neg hline] at hrun
      obtain ⟨haway, hcur, hanswered⟩ := handleBleMessage_refused hrun
        (show Away bleUser (s.buffered received) from h.away) (hinvite _ rfl)
      exact ⟨haway, hcur.trans h.currentBLEAddr, fun _ => hanswered⟩
  · rw [if_neg hwifi] at hrun
    cases hrun
    exact ⟨h.away, h.currentBLEAddr, fun hbrings => by cases hbrings; contradiction⟩

/-- **Every event leaves a session over** but a line that announces a
connection, and a message of the first-invite mode. -/
theorem SessionOver.kept (hW : W.target = .esp32s2) (h : SessionOver W s) (hquiet : e.quietLine)
    (hinvite : Uninvited W e s) (hrun : (step W e).run s = (.ok (), s')) :
    SessionOver W s' ∧ (Brings W s e bleUser → AnsweredByDisconnect s s') := by
  have hwired : Wired W s' := (step_wired e).of_ok hrun h.wired
  suffices hrest : Away bleUser s' ∧ s'.currentBLEAddr = [] ∧
      (Brings W s e bleUser → AnsweredByDisconnect s s') from
    ⟨⟨hwired, hrest.1, hrest.2.1⟩, hrest.2.2⟩
  have hkeepsTcp (ip : Vector UInt8 4) :
      OverTcp (Frame.keeping fun s : Sys => s.currentBLEAddr = []) ip :=
    ⟨fun _ _ hst hs => (Sys.currentBLEAddr_of_servers hst.servers).trans hs, fun _ _ => id,
      fun _ => id, fun _ => id, fun _ => id, fun _ => id, fun _ => id⟩
  rw [step, run_get_bind] at hrun
  by_cases henabled : e.enabled W s
  · rw [if_pos henabled] at hrun
    cases e with
    | uart received => exact h.turn hquiet hinvite hrun
    | tcpAccept ip =>
      have hcur := (hkeepsTcp ip).tcpAccept.of_ok hrun h.currentBLEAddr
      rw [SmartLock.handle, run_tcpAccept] at hrun
      have hother : hashKey bleUser ≠ hashKey (inetNtoa ip) := hashKey_ipv4_ne (x := .bleUser) rfl ip
      exact ⟨h.away.wrote (s := s.accepted ip) (setUserState_ok hrun) fun heq =>
        absurd heq.symm hother, hcur, fun hbrings => by cases hbrings⟩
    | tcpRecv received =>
      obtain ⟨ip, hip⟩ := h.wired.tcp (enabled_tcpRecv henabled)
      exact ⟨doRetransmit_away henabled hrun h.away fun hne => absurd h.currentBLEAddr hne,
        Frame.of_run ((hkeepsTcp ip).doRetransmit hip) hrun h.currentBLEAddr,
        fun hbrings => by cases hbrings⟩
    | tcpClose =>
      cases hrun
      exact ⟨h.away, h.currentBLEAddr, fun hbrings => by cases hbrings⟩
    | bleConnect bda => exact absurd (enabled_bleConnect henabled) (by rw [hW]; decide)
    | bleDisconnect => exact absurd (enabled_ble henabled).1 (by rw [hW]; decide)
    | bleWrite value => exact absurd (enabled_ble henabled).1 (by rw [hW]; decide)
    | serverStatus status =>
      cases hrun
      exact ⟨h.away, h.currentBLEAddr, fun hbrings => by cases hbrings⟩
    | initRsaKey =>
      have hrel : looking.Rel s s' := (initRsaKey_within trivial).of_ok hrun
      exact ⟨h.away.of_user (hrel.user_eq id fun h => h.1),
        (Sys.currentBLEAddr_of_servers hrel.servers).trans h.currentBLEAddr,
        fun hbrings => by cases hbrings⟩
    | setWifiConnected connected =>
      cases hrun
      exact ⟨h.away, h.currentBLEAddr, fun hbrings => by cases hbrings⟩
    | serverOnline =>
      cases hrun
      exact ⟨h.away, h.currentBLEAddr, fun hbrings => by cases hbrings⟩
  · rw [if_neg henabled] at hrun
    cases hrun
    exact ⟨h.away, h.currentBLEAddr, fun hbrings => absurd hbrings.enabled henabled⟩

/-! ## Runs -/

/-- The session stays over through a run. -/
theorem SessionOver.refuses (hW : W.target = .esp32s2) (h : SessionOver W s)
    (hquiet : ∀ e ∈ es, e.quietLine) (hinvite : Throughout (step W) (Uninvited W) es s) :
    Throughout (step W) (Refuses W) es s := by
  have hboth : Throughout (step W) (fun e s => e.quietLine ∧ Uninvited W e s) es s :=
    Throughout.and (.of_forall fun e he _ => hquiet e he) hinvite
  refine Throughout.imp (I := SessionOver W) (fun e s s' hs hP hrun => (hs.kept hW hP.1 hP.2 hrun).1)
    (fun e s hs hP hbrings s' hrun => (hs.kept hW hP.1 hP.2 hrun).2 hbrings) h hboth

/-- **A line that starts with `+DISCONNECT` ends the session** exactly if it
is no more than that, or the session was over before it; where no message
of the first-invite mode comes. -/
theorem sessionEnds_iff (hW : W.target = .esp32s2) (hs : Reachable W s)
    (hdata : s.data ≠ lit "PNG") (hwifi : s.wifiConnected = true)
    (hline : lit "+DISCONNECT" <+: cstr received)
    (hrun : (step W (.uart received)).run s = (.ok (), s'))
    (hquiet : ∀ e ∈ es, e.quietLine) (hinvite : Throughout (step W) (Uninvited W) es s') :
    SessionEnds W s' es ↔
      cstr received = lit "+DISCONNECT" ∨ Away bleUser s ∧ s.currentBLEAddr = [] := by
  have hne : received ≠ [] := by
    rintro rfl
    exact absurd hline (by decide)
  have hplus : strncmpEq (lit "AT+") (cstr received) 3 ∨ strncmpEq (lit "+") (cstr received) 1 :=
    .inr ((strncmpEq_length (by decide)).2 (List.IsPrefix.trans (by decide) hline))
  have hconnected : ¬ lit "+CONNECTED" <+: cstr received := fun h =>
    absurd (List.prefix_of_prefix_length_le h hline (by decide)) (by decide)
  have hturn := hrun
  have henabled : (Event.uart received).enabled W s = true := beq_iff_eq.2 hW
  rw [step, run_get_bind, if_pos henabled] at hturn
  change (echoTask W received).run s = _ at hturn
  rw [echoTask, run_get_bind, if_neg hdata, if_pos ⟨hwifi, hne⟩] at hturn
  dsimp only at hturn
  rw [if_pos hplus] at hturn
  have hcases := handleATCmd_cases (zero_notMem_cstr _) hconnected hturn
  constructor
  · intro h
    by_cases hends : cstr received = lit "+DISCONNECT"
    · exact .inl hends
    · -- a line that is not taken leaves the session as it was
      obtain ⟨_, rfl⟩ := hcases.resolve_left fun h => hends h.1
      exact .inr ⟨h.away, h.currentBLEAddr⟩
  · intro h
    have hended : Away bleUser s' ∧ s'.currentBLEAddr = [] := by
      have hbuffered (haway : Away bleUser s) : Away bleUser { s with data := cstr received } := haway
      rcases hcases with ⟨_, t, hset, rfl⟩ | ⟨hends, rfl⟩
      · obtain ⟨x, hx, _⟩ := (setUserState_ok hset).self
        have ht : Away bleUser t := ⟨_, hx, rfl⟩
        exact ⟨ht, rfl⟩
      · exact h.resolve_left hends
    have hafter : SessionOver W s' := ⟨(step_wired _).of_ok hrun hs.wired, hended.1, hended.2⟩
    exact ⟨hended.1, hended.2, hafter.refuses hW hquiet hinvite⟩

/-! ## Two lines -/

/-- A lock that never learns its status awaits no first invite. -/
theorem uninvited_of_unanswered (hW : ∀ m, W.statusAnswered m = false)
    (h : s.registrationStatus ≠ registered) : Uninvited W e s := by
  rintro received rfl status t hstatus
  rw [getRegistrationStatus, run_get_bind] at hstatus
  change (if s.registrationStatus = unknownStatus then _ else _ : M Int).run _ = _ at hstatus
  by_cases hunknown : s.registrationStatus = unknownStatus
  · rw [if_pos hunknown, getRegistrationStatusServer] at hstatus
    cases hstatus
    rw [hW, if_neg Bool.false_ne_true]
    decide
  · rw [if_neg hunknown] at hstatus
    cases hstatus
    exact h

/-- The client connects. -/
def uartConnect : List Event := [.setWifiConnected true, .uart (lit "+CONNECTED")]

/-- What this leads to. -/
def uartConnecting : Sys := ((run World.choosy uartConnect).run uartBoot).2

theorem reachable_uartConnecting : Reachable World.choosy uartConnecting :=
  ⟨uartBoot, uartConnect, boot_uartBoot, Prod.ext (by decide +kernel) rfl⟩

/-- The theorem, for a line without its end, and one message behind it. -/
theorem sessionEnds_bare : ∃ s',
    (step World.choosy (.uart (lit "+DISCONNECT"))).run uartConnecting = (.ok (), s') ∧
      SessionEnds World.choosy s' [.uart (lit "AAAA")] := by
  have hstatus : ((step World.choosy (.uart (lit "+DISCONNECT"))).run
      uartConnecting).2.registrationStatus ≠ registered := by decide +kernel
  obtain ⟨s', hrun⟩ : ∃ s', (step World.choosy (.uart (lit "+DISCONNECT"))).run uartConnecting =
      (.ok (), s') := ⟨_, Prod.ext (by decide +kernel) rfl⟩
  rw [hrun] at hstatus
  have hinvite : Throughout (step World.choosy) (Uninvited World.choosy) [.uart (lit "AAAA")] s' :=
    ⟨uninvited_of_unanswered (fun _ => rfl) hstatus, fun _ _ => trivial⟩
  refine ⟨s', hrun, (sessionEnds_iff rfl reachable_uartConnecting (by decide +kernel)
    (by decide +kernel) (by decide) hrun ?_ hinvite).2 (.inl (by decide))⟩
  intro e he received heq
  obtain rfl := List.mem_singleton.1 he
  cases heq
  decide

/-- **A line that ends as lines do is not taken.** -/
theorem not_always_sessionEnds : ¬ ∀ (W : World) (s s' : Sys) (received : List UInt8)
    (es : List Event), W.target = .esp32s2 → Reachable W s → s.data ≠ lit "PNG" →
      s.wifiConnected = true → lit "+DISCONNECT" <+: cstr received →
      (step W (.uart received)).run s = (.ok (), s') → (∀ e ∈ es, e.quietLine) →
      SessionEnds W s' es := by
  intro h
  have hends := h World.choosy uartConnecting _ (lit "+DISCONNECT\r\n") [] rfl
    reachable_uartConnecting (by decide +kernel) (by decide +kernel) (by decide)
    (Prod.ext (by decide +kernel) rfl) nofun
  exact absurd hends.currentBLEAddr (by decide +kernel)

end SmartLock
