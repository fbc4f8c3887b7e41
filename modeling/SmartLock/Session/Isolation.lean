import SmartLock.Handler.Commands
import SmartLock.System.Wiring

/-!
# The sessions of the two transports

A command of one transport changes the record of its own address and, by
the reset most commands end in, the record of the BLE session. So a command
of BLE leaves the TCP session alone, whatever it is, and a command of TCP
leaves the BLE session alone exactly if it does not reach the reset, or the
reset changes nothing.
-/

namespace SmartLock

open Prog

variable {W : World} {a b cmd : CStr} {s s' : Sys} {r : Option CStr}

/-! ## The reset -/

/-- **What `set_BLE_user_state_to_connecting` does.** -/
theorem setBLEUserStateToConnecting_ok
    (h : (setBLEUserStateToConnecting W).run s = (.ok (), s')) (hb : s.currentBLEAddr ≠ []) :
    s'.user s.currentBLEAddr = (s.user s.currentBLEAddr).map UserInfo.reset := by
  rw [setBLEUserStateToConnecting, run_get_bind] at h
  by_cases hu : s.user s.currentBLEAddr = none
  · rw [if_neg fun hc => hc.2 hu] at h
    cases h
    rw [hu]
    rfl
  · rw [if_pos ⟨hb, hu⟩] at h
    obtain ⟨x, hx⟩ := Option.ne_none_iff_exists'.1 hu
    rw [(setUserState_ok h).of_some hx, hx]
    rfl

variable (W) in
/-- A command that, if it returns, has ended in the reset. -/
def Resets (cmd a : CStr) (s : Sys) : Prop :=
  ∃ w, word cmd = some w ∧
    if w = lit "RUD" ∨ w = lit "RLD" then 3 ≤ (arguments cmd).length
    else if w = lit "RNI" then rniArgs cmd ≠ 0 ∧ rniArgs cmd ≤ (arguments cmd).length
    else if w = lit "RUI" then 4 ≤ (arguments cmd).length ∧
      ∃ p auth s₁, AuthorizedFor a p s ∧ (storedAuthorization W p).run s = (.ok (some auth), s₁)
    else w ∉ [lit "SAC", lit "RFI", lit "SNT"]

theorem resets_iff {w : CStr} (h : word cmd = some w) : Resets W cmd a s ↔
    if w = lit "RUD" ∨ w = lit "RLD" then 3 ≤ (arguments cmd).length
    else if w = lit "RNI" then rniArgs cmd ≠ 0 ∧ rniArgs cmd ≤ (arguments cmd).length
    else if w = lit "RUI" then 4 ≤ (arguments cmd).length ∧
      ∃ p auth s₁, AuthorizedFor a p s ∧ (storedAuthorization W p).run s = (.ok (some auth), s₁)
    else w ∉ [lit "SAC", lit "RFI", lit "SNT"] := by
  simp [Resets, h]

theorem not_resets {w : CStr} (h : word cmd = some w) (hw : w ∈ [lit "SAC", lit "RFI", lit "SNT"]) :
    ¬ Resets W cmd a s := by
  rw [resets_iff h]
  simp only [List.mem_cons, List.not_mem_nil, or_false] at hw
  rcases hw with rfl | rfl | rfl <;>
    rw [if_neg (by decide), if_neg (by decide), if_neg (by decide)] <;> decide

theorem resets_door {w : CStr} (h : word cmd = some w) (hw : w = lit "RUD" ∨ w = lit "RLD") :
    Resets W cmd a s ↔ 3 ≤ (arguments cmd).length := by
  rw [resets_iff h, if_pos hw]

theorem resets_rni (h : word cmd = some (lit "RNI")) :
    Resets W cmd a s ↔ rniArgs cmd ≠ 0 ∧ rniArgs cmd ≤ (arguments cmd).length := by
  rw [resets_iff h, if_neg (by decide), if_pos rfl]

theorem resets_rui (h : word cmd = some (lit "RUI")) :
    Resets W cmd a s ↔ 4 ≤ (arguments cmd).length ∧ ∃ p auth s₁, AuthorizedFor a p s ∧
      (storedAuthorization W p).run s = (.ok (some auth), s₁) := by
  rw [resets_iff h, if_neg (by decide), if_neg (by decide), if_pos rfl]

theorem resets_other {w : CStr} (h : word cmd = some w) (hw : w = lit "RDS" ∨ w ∉ commandWords) :
    Resets W cmd a s := by
  have hw' : w ∉ commandWords.take 7 := by
    rcases hw with rfl | hw
    · decide
    · exact fun h => hw (List.mem_of_mem_take h)
  simp only [commandWords, List.take, List.mem_cons, List.not_mem_nil, or_false, not_or] at hw'
  obtain ⟨h₁, h₂, h₃, h₄, h₅, h₆, h₇⟩ := hw'
  rw [resets_iff h, if_neg (not_or.2 ⟨h₂, h₃⟩), if_neg h₄, if_neg h₆]
  simp [h₁, h₅, h₇]

/-! ## Before the reset -/

/-- The footprint of what a `SAC` of `a` does. -/
def own (a : CStr) : Footprint := ⟨(· = hashKey a), False, True, True, True, True, fun _ => True⟩

/-- The footprint of what any other command does but for the reset. -/
def recordless : Footprint := ⟨fun _ => False, False, True, True, True, True, fun _ => True⟩

theorem recordless_user (h : recordless.Rel s s') : s'.user b = s.user b :=
  h.user_eq id fun h => h.1

/-- **A command ends in the reset, or changes no record but its own**, and
that only as a `SAC`. -/
theorem checkCommand_reset (h : (checkCommand W cmd a).run s = (.ok r, s')) :
    (Resets W cmd a s ∧ ∃ t, recordless.Rel s t ∧
        (setBLEUserStateToConnecting W).run t = (.ok (), s')) ∨
      (¬ Resets W cmd a s ∧
        (recordless.Rel s s' ∨ (word cmd = some (lit "SAC") ∧ (own a).Rel s s'))) := by
  obtain ⟨c, hc, hcases⟩ := checkCommand_ok h
  have hword : word cmd = some c.word := by rw [word, hc]; rfl
  have door {act : M Unit} (hw : c.word = lit "RUD" ∨ c.word = lit "RLD")
      (hact : Within recordless act) (h : (commandDoor W act c cmd a).run s = (.ok r, s')) :
      (Resets W cmd a s ∧ ∃ t, recordless.Rel s t ∧
        (setBLEUserStateToConnecting W).run t = (.ok (), s')) ∨
      (¬ Resets W cmd a s ∧
        (recordless.Rel s s' ∨ (word cmd = some (lit "SAC") ∧ (own a).Rel s s'))) := by
    rw [resets_door hword hw]
    rcases (commandDoor_ok h).2 with ⟨hargs, rfl, _⟩ | ⟨args, ack, s₁, hargs, hack, hreset, _⟩
    · exact .inr ⟨by rw [hargs]; decide, .inl (.refl _ _)⟩
    · exact .inl ⟨hargs.le, s₁, (doorAck_within hact trivial fun _ => trivial).of_ok hack, hreset⟩
  -- one goal per command word, in the order of the dispatcher, and the unknown word last
  rcases hcases with ⟨hw, h⟩ | ⟨hw, h⟩ | ⟨hw, h⟩ | ⟨hw, h⟩ | ⟨hw, h⟩ | ⟨hw, h⟩ | ⟨hw, h⟩ | ⟨hw, h⟩ |
    ⟨hw, h, _⟩
  · refine .inr ⟨not_resets hword (by rw [hw]; decide), .inr ⟨by rw [hword, hw], ?_⟩⟩
    exact (commandSAC_within rfl trivial trivial (fun _ _ => trivial) fun _ _ => trivial).of_ok h
  · exact door (.inl hw) (unlockLock_within trivial trivial) h
  · exact door (.inr hw) (lockLock_within trivial trivial) h
  · rw [resets_rni (by rw [hword, hw])]
    rcases (commandRNI_ok h).2 with ⟨hnone, rfl, _⟩ |
      ⟨args, arg, request, response, s₁, s₂, hargs, harg, hreq, hresp, hreset, _⟩
    · refine .inr ⟨fun ⟨hn, hle⟩ => ?_, .inl (.refl _ _)⟩
      rw [hnone.arguments_eq hn] at hle
      exact hn (Nat.le_zero.1 hle)
    · refine .inl ⟨⟨fun h0 => ?_, hargs.le⟩, s₂, (rniRequest_within.of_ok hreq).trans
        ((checkedInvite_within trivial (fun _ => trivial) fun _ => trivial).of_ok hresp), hreset⟩
      rw [List.length_eq_zero_iff.1 (hargs.length.trans h0)] at harg
      cases harg
  · refine .inr ⟨not_resets hword (by rw [hw]; decide), .inl ?_⟩
    exact (commandRFI_within trivial trivial fun _ _ => trivial).of_ok h
  · rw [resets_rui (by rw [hword, hw])]
    rcases commandRUI_ok h with ⟨_, hargs, rfl, _⟩ | ⟨_, rfl, _, hno⟩ | ⟨args, p, hargs, hp, hrest⟩
    · exact .inr ⟨by rw [hargs]; exact fun h => absurd h.1 (by decide), .inl (.refl _ _)⟩
    · exact .inr ⟨fun ⟨_, p, _, _, hp, _⟩ => hno ⟨p, hp⟩, .inl (.refl _ _)⟩
    · rcases hrest with ⟨hnone, _⟩ | ⟨auth, email, request, response, s₁, s₂, s₃, _, hauth, _, hreq,
        hresp, hreset, _⟩
      · refine .inr ⟨fun ⟨_, q, auth, s₁, hq, hauth⟩ => ?_,
          .inl (storedAuthorization_within.of_ok hnone)⟩
        rw [hp.unique hq, hnone] at hauth
        cases hauth
      · exact .inl ⟨⟨hargs.le, p, auth, s₁, hp, hauth⟩, s₃,
          ((storedAuthorization_within.of_ok hauth).trans (ruiRequest_within.of_ok hreq)).trans
            ((checkedInvite_within trivial (fun _ => trivial) fun _ => trivial).of_ok hresp), hreset⟩
  · refine .inr ⟨not_resets hword (by rw [hw]; decide), .inl ?_⟩
    exact (commandSNT_within trivial fun _ => trivial).of_ok h
  · refine .inl ⟨resets_other hword (.inl hw), ?_⟩
    rcases (commandRDS_ok h).2 with ⟨_, hreset, _⟩ | ⟨args, response, s₁, _, hresp, hreset, _⟩
    · exact ⟨s, .refl _ _, hreset⟩
    · exact ⟨s₁, (rdsResponse_within trivial trivial trivial).of_ok hresp, hreset⟩
  · exact .inl ⟨resets_other hword (.inr hw), s, .refl _ _, h⟩

/-- **A command of another key resets the BLE session or leaves it
alone.** -/
theorem checkCommand_ble (h : (checkCommand W cmd a).run s = (.ok r, s'))
    (hne : s.currentBLEAddr ≠ []) (hb : hashKey s.currentBLEAddr ≠ hashKey a) :
    (Resets W cmd a s ∧
        s'.user s.currentBLEAddr = (s.user s.currentBLEAddr).map UserInfo.reset) ∨
      (¬ Resets W cmd a s ∧ s'.user s.currentBLEAddr = s.user s.currentBLEAddr) := by
  rcases checkCommand_reset h with ⟨hresets, t, ht, hreset⟩ | ⟨hresets, hrel⟩
  · have hcur : t.currentBLEAddr = s.currentBLEAddr := Sys.currentBLEAddr_of_servers ht.servers
    have huser := setBLEUserStateToConnecting_ok hreset (by rwa [hcur])
    rw [hcur, recordless_user ht] at huser
    exact .inl ⟨hresets, huser⟩
  · refine .inr ⟨hresets, ?_⟩
    rcases hrel with hrel | ⟨_, hrel⟩
    · exact recordless_user hrel
    · exact hrel.user_eq hb fun h => h.1

/-! ## Both sessions -/

/-- The BLE session is as the reset leaves it. -/
def AtRest (s : Sys) : Prop :=
  ∀ x, s.user s.currentBLEAddr = some x → x.state = .connecting ∧ x.phoneId = []

theorem reset_eq_iff : (s.user s.currentBLEAddr).map UserInfo.reset = s.user s.currentBLEAddr ↔
    AtRest s := by
  rw [AtRest]
  cases s.user s.currentBLEAddr with
  | none => simp
  | some x =>
    obtain ⟨ip, phone, state, seed, ctx⟩ := x
    simp [UserInfo.reset, eq_comm, and_comm]

/-- **Where both transports have a client**, a command of TCP that returns
leaves the BLE session alone exactly if it does not reach the reset or
finds nothing to reset; and a command of BLE leaves the TCP session alone,
whatever comes of it. -/
theorem Reachable.sessions_isolated (h : Reachable W s) (hs : s.serving = true)
    (hb : s.currentBLEAddr ≠ []) :
    (∀ cmd r s', (checkCommand W cmd s.addrStr).run s = (.ok r, s') →
      (s'.user s.currentBLEAddr = s.user s.currentBLEAddr ↔
        ¬ Resets W cmd s.addrStr s ∨ AtRest s)) ∧
    ∀ cmd r s', (checkCommand W cmd s.currentBLEAddr).run s = (r, s') →
      s'.user s.addrStr = s.user s.addrStr := by
  have hne := h.wired.hashKey_ne hs hb
  refine ⟨fun cmd r s' hrun => ?_, fun cmd r s' hrun => ?_⟩
  · rcases checkCommand_ble hrun hb hne with ⟨hreset, huser⟩ | ⟨hreset, huser⟩
    · rw [huser, reset_eq_iff]
      exact ⟨.inr, fun h => h.resolve_left (not_not.2 hreset)⟩
    · exact ⟨fun _ => .inl hreset, fun _ => huser⟩
  · have hrel : (talking s.currentBLEAddr).Rel s ((checkCommand W cmd s.currentBLEAddr).run s).2 :=
      checkCommand_within_serves (talking_serves _) s
    rw [hrun] at hrel
    exact hrel.user_eq hne.symm fun h => hne.symm h.2

/-- A client of each transport, of which the BLE one sends credentials. -/
def bothConnecting : List Event :=
  [.setWifiConnected true, .tcpAccept lanAddress, .bleConnect phoneAddress,
    .bleWrite (lit "AAAA")]

/-- A client on each transport, of which the BLE one has a session key. -/
theorem exists_both_connected : ∃ s, Reachable (World.sameKey .esp32s3) s ∧ s.serving = true ∧
    s.currentBLEAddr ≠ [] ∧ (s.user s.currentBLEAddr).map UserInfo.state = some .connected :=
  ⟨((run (World.sameKey .esp32s3) bothConnecting).run Sys.initial).2,
    reachable_of_run (by decide +kernel), by decide +kernel, by decide +kernel, by decide +kernel⟩

/-- The theorem, where both are connected. -/
theorem sessions_isolated_both_connected : ∃ s : Sys,
    (s.user s.currentBLEAddr).map UserInfo.state = some .connected ∧
    (∀ cmd r s', (checkCommand (World.sameKey .esp32s3) cmd s.addrStr).run s = (.ok r, s') →
      (s'.user s.currentBLEAddr = s.user s.currentBLEAddr ↔
        ¬ Resets (World.sameKey .esp32s3) cmd s.addrStr s ∨ AtRest s)) ∧
    ∀ cmd r s', (checkCommand (World.sameKey .esp32s3) cmd s.currentBLEAddr).run s = (r, s') →
      s'.user s.addrStr = s.user s.addrStr := by
  obtain ⟨s, hreach, hs, hb, hstate⟩ := exists_both_connected
  exact ⟨s, hstate, Reachable.sessions_isolated hreach hs hb⟩

/-- The reset returns, as far as the address goes. -/
theorem setBLEUserStateToConnecting_returns (hb : s.currentBLEAddr.length < 45) :
    ∃ s', (setBLEUserStateToConnecting W).run s = (.ok (), s') := by
  rw [setBLEUserStateToConnecting, run_get_bind]
  split
  · exact setUserState_returns _ _ hb (by decide)
  · exact ⟨s, rfl⟩

/-- An unknown command is answered after the reset. -/
theorem checkCommand_unknown_returns (hb : s.currentBLEAddr.length < 45) :
    ∃ s', (checkCommand W (lit "X") a).run s = (.ok (some nakMessage), s') := by
  obtain ⟨s', hreset⟩ := setBLEUserStateToConnecting_returns (W := W) hb
  refine ⟨s', bind_ok.2 ⟨⟨0, lit "X", []⟩, s, rfl, ?_⟩⟩
  exact bind_ok.2 ⟨(), s', hreset, rfl⟩

/-- A TCP client that sends an unknown command takes the BLE client's
session away. -/
theorem unknown_command_resets_ble :
    ¬ ∀ (W : World) (s : Sys), Reachable W s → s.serving = true → s.currentBLEAddr ≠ [] →
      ∀ cmd r s', (checkCommand W cmd s.addrStr).run s = (.ok r, s') →
        s'.user s.currentBLEAddr = s.user s.currentBLEAddr := by
  intro h
  obtain ⟨s, hreach, hs, hb, hstate⟩ := exists_both_connected
  obtain ⟨x, hx, hcur⟩ := hreach.wired.ble.resolve_left hb
  obtain ⟨s', hrun⟩ := checkCommand_unknown_returns (W := World.sameKey .esp32s3) (a := s.addrStr)
    (hcur ▸ x.text_length_lt)
  have hsame := h _ s hreach hs hb _ _ _ hrun
  have hresets : Resets (World.sameKey .esp32s3) (lit "X") s.addrStr s :=
    resets_other (w := lit "X") (by decide) (.inr (by decide))
  rcases checkCommand_ble hrun hb (hreach.wired.hashKey_ne hs hb) with ⟨_, hreset⟩ | ⟨hno, _⟩
  · rw [hsame] at hreset
    obtain ⟨y, hy, hconnected⟩ := Option.map_eq_some_iff.1 hstate
    have hconnecting := (reset_eq_iff.1 hreset.symm y hy).1
    rw [hconnected] at hconnecting
    cases hconnecting
  · exact hno hresets

end SmartLock
