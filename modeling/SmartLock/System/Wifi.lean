import SmartLock.Model.Wifi
import SmartLock.System.Wiring

/-!
# The Wi-Fi flag

The flag is what `connect_to_wifi` returned, or what `main` has set since,
whatever the network does. So it tells the truth as long as it is set only
while there is a network, and the network is not lost while it is set.
-/

namespace SmartLock

open Prog

variable {W : World} {b : Bool} {e : Event} {s t : Sys} {u v : WifiSys} {w : WifiStep}
variable {steps : List WifiStep} {log : List WifiObs}

/-! ## What the flag should tell -/

/-- The last event that tells whether there is a network. -/
def lastLink (log : List WifiObs) : Option WifiEvent :=
  log.findSome? fun
    | .came .gotIp => some .gotIp
    | .came .staDisconnected => some .staDisconnected
    | _ => none

/-- What ends the wait for the network, or goes on with it. -/
def WifiObs.isMove : WifiObs → Bool
  | came .gotIp => true
  | came .staDisconnected => true
  | espWifiConnect => true
  | _ => false

/-- The handler has used up its retries, and has not called
`esp_wifi_connect` at the last `WIFI_EVENT_STA_DISCONNECTED`. -/
def GaveUp (s : WifiSys) : Prop :=
  maximumRetry ≤ s.sRetryNum ∧ s.wifiLog.find? WifiObs.isMove = some (.came .staDisconnected)

/-- The flag is set only if the last event of the network was that there is
one, and not where the handler gave up. -/
structure Truthful (s : WifiSys) : Prop where
  connected : s.isWifiConnected = true → lastLink s.wifiLog = some .gotIp
  gaveUp : GaveUp s → s.isWifiConnected = false

/-- The last move is the last event of the network, if it is an event. -/
theorem lastLink_of_find (h : log.find? WifiObs.isMove = some (.came .staDisconnected)) :
    lastLink log = some .staDisconnected := by
  induction log with
  | nil => cases h
  | cons o log ih =>
    rw [lastLink, List.findSome?_cons]
    cases o with
    | espWifiConnect => cases h
    | came e =>
      cases e with
      | gotIp => cases h
      | staDisconnected => rfl
      | staStart => exact ih h
      | other => exact ih h

/-- A flag that is set, and a network that was found last. -/
theorem Truthful.of_gotIp (h : lastLink u.wifiLog = some .gotIp) : Truthful u :=
  ⟨fun _ => h, fun hgave => by
    rw [lastLink_of_find hgave.2] at h
    cases h⟩

theorem Truthful.of_not (h : u.isWifiConnected = false) : Truthful u :=
  ⟨fun ht => absurd (h.symm.trans ht) Bool.false_ne_true, fun _ => h⟩

/-! ## What touches the flag -/

/-- **No event of the lock touches the flag**, unless it is told to. -/
theorem step_wifiConnected (hs : Wired W s) (hset : ∀ connected, e ≠ .setWifiConnected connected)
    (hrun : (step W e).run s = (.ok (), t)) : t.wifiConnected = s.wifiConnected := by
  by_cases hstatus : ∃ status, e = .serverStatus status
  · obtain ⟨status, rfl⟩ := hstatus
    cases hrun
    rfl
  · let F : Frame Sys := .keeping fun u => u.wifiConnected = s.wifiConnected
    have htalks (a : CStr) : F.Talks a :=
      fun _ _ hst h => (Sys.wifiConnected_of_servers hst.servers).trans h
    have hkeeps : F.rel s ((step W e).run s).2 :=
      servers_step (fun ip => ⟨htalks _, fun _ _ => id, fun _ => id, fun _ => id, fun _ => id,
          fun _ => id, fun _ => id⟩)
        (fun _ bda => ⟨htalks _, fun _ => id, fun _ => id, fun _ => id, fun _ _ => id⟩)
        (fun _ _ _ => ⟨htalks _, fun _ _ => id, fun _ => id, fun _ => id, fun _ _ _ => id,
          fun _ _ => id, fun _ _ => id, fun _ _ => id⟩)
        hs (fun status heq => hstatus ⟨status, heq⟩) (fun connected heq _ => absurd heq (hset _))
        (fun _ => id)
    rw [hrun] at hkeeps
    exact hkeeps rfl

theorem onLock_ok {α : Type} {m : M α} {x : α} :
    (onLock m).run u = (.ok x, v) ↔ ∃ t, m.run u.sys = (.ok x, t) ∧ v = { u with sys := t } :=
  zoom_ok

theorem wifiEventHandler_sys (e : WifiEvent) (u : WifiSys) : (wifiEventHandler e u).sys = u.sys := by
  cases e with
  | staDisconnected =>
    rw [wifiEventHandler]
    split
    · rfl
    · rfl
  | staStart => rfl
  | gotIp => rfl
  | other => rfl

/-- **No event of the network touches the flag.** -/
theorem deliver_sys (e : WifiEvent) (u : WifiSys) : (deliver e u).sys = u.sys := by
  unfold deliver
  dsimp only
  split
  · exact wifiEventHandler_sys e _
  · rfl

/-- What the log tells of the network behind an event. -/
theorem lastLink_deliver (e : WifiEvent) (u : WifiSys) :
    lastLink (deliver e u).wifiLog = lastLink (.came e :: u.wifiLog) := by
  unfold deliver
  dsimp only
  split
  · cases e with
    | staDisconnected =>
      rw [wifiEventHandler]
      split
      · rfl
      · rfl
    | staStart => rfl
    | gotIp => rfl
    | other => rfl
  · rfl

/-- Every step leaves the servers wired. -/
theorem wifiStep_wired (hu : Wired W u.sys) (hrun : (wifiStep W w).run u = (.ok (), v)) :
    Wired W v.sys := by
  cases w with
  | wifi e =>
    cases hrun
    rw [deliver_sys]
    exact hu
  | lock e =>
    obtain ⟨t, hstep, rfl⟩ := onLock_ok.1 hrun
    exact (step_wired e).of_ok hstep hu

/-! ## What keeps the flag true -/

/-- The step does not make the flag lie: the network is not lost while it is
set, and it is set only while there is a network. -/
def KeepsTruth : WifiStep → WifiSys → Prop
  | .wifi .staDisconnected, u => u.isWifiConnected = false
  | .lock (.setWifiConnected true), u => lastLink u.wifiLog = some .gotIp
  | _, _ => True

theorem Truthful.iff_connected :
    Truthful u ↔ (u.isWifiConnected = true → lastLink u.wifiLog = some .gotIp) := by
  refine ⟨Truthful.connected, fun h => ?_⟩
  by_cases hflag : u.isWifiConnected = true
  · exact .of_gotIp (h hflag)
  · exact .of_not (Bool.eq_false_iff.2 hflag)

/-- A step that leaves the flag and the network as they are leaves the truth
as it is. -/
theorem truthful_congr (hflag : v.isWifiConnected = u.isWifiConnected)
    (hlink : lastLink v.wifiLog = lastLink u.wifiLog) : Truthful v ↔ Truthful u := by
  rw [Truthful.iff_connected, Truthful.iff_connected, hflag, hlink]

/-- **One step keeps the flag true** exactly if it does not make it lie. -/
theorem truthful_step (hu : Wired W u.sys) (htrue : Truthful u)
    (hrun : (wifiStep W w).run u = (.ok (), v)) : Truthful v ↔ KeepsTruth w u := by
  cases w with
  | wifi e =>
    cases hrun
    have hflag : (deliver e u).isWifiConnected = u.isWifiConnected :=
      congrArg Sys.wifiConnected (deliver_sys e u)
    have hlink := lastLink_deliver e u
    cases e with
    | staStart => exact iff_of_true ((truthful_congr hflag hlink).2 htrue) trivial
    | other => exact iff_of_true ((truthful_congr hflag hlink).2 htrue) trivial
    | gotIp => exact iff_of_true (.of_gotIp hlink) trivial
    | staDisconnected =>
      -- the network is lost, so the flag has to be off
      rw [Truthful.iff_connected, hflag, hlink, KeepsTruth]
      constructor
      · intro h
        by_contra hset
        cases h (Bool.eq_true_of_not_eq_false hset)
      · intro h hset
        cases h.symm.trans hset
  | lock e =>
    obtain ⟨t, hstep, rfl⟩ := onLock_ok.1 hrun
    by_cases hset : ∃ connected, e = .setWifiConnected connected
    · obtain ⟨connected, rfl⟩ := hset
      cases hstep
      cases connected with
      | false => exact iff_of_true (.of_not rfl) trivial
      | true =>
        rw [Truthful.iff_connected]
        exact ⟨fun h => h rfl, fun h _ => h⟩
    · have hflag := step_wifiConnected hu (fun connected heq => hset ⟨connected, heq⟩) hstep
      refine iff_of_true ((truthful_congr (u := u) (v := { u with sys := t }) hflag rfl).2 htrue) ?_
      cases e with
      | setWifiConnected connected => exact absurd ⟨connected, rfl⟩ hset
      | _ => trivial

/-! ## Runs -/

variable (W) in
/-- The flag tells the truth in every state the steps lead through. -/
def AlwaysTruthful (s : WifiSys) (steps : List WifiStep) : Prop :=
  ∀ pre, pre <+: steps → ∀ u, (exec (wifiStep W) pre).run s = (.ok (), u) → Truthful u

theorem alwaysTruthful_cons : AlwaysTruthful W u (w :: steps) ↔
    Truthful u ∧ ∀ v, (wifiStep W w).run u = (.ok (), v) → AlwaysTruthful W v steps := by
  constructor
  · refine fun h => ⟨h [] (List.nil_prefix ..) u rfl, fun v hstep pre hpre x hrun => ?_⟩
    refine h (w :: pre) (List.cons_prefix_cons.2 ⟨rfl, hpre⟩) x ?_
    rw [exec_cons, run_bind_ok hstep]
    exact hrun
  · rintro ⟨htrue, h⟩ pre hpre x hrun
    rcases pre with _ | ⟨w', pre⟩
    · cases hrun
      exact htrue
    · obtain ⟨rfl, hrest⟩ := List.cons_prefix_cons.1 hpre
      rw [exec_cons] at hrun
      obtain ⟨_, v, hstep, hsteps⟩ := bind_ok.1 hrun
      exact h v hstep pre hrest x hsteps

/-- A step that can make the flag lie returns. -/
theorem keepsTruth_of_fault (h : ∀ v, (wifiStep W w).run u ≠ (.ok (), v)) : KeepsTruth w u := by
  cases w with
  | wifi e => exact absurd rfl (h _)
  | lock e =>
    cases e with
    | setWifiConnected connected => exact absurd rfl (h _)
    | _ => trivial

/-- **The flag tells the truth throughout a run** exactly if it does at
first and no step makes it lie. -/
theorem alwaysTruthful_iff (hu : Wired W u.sys) :
    AlwaysTruthful W u steps ↔ Truthful u ∧ Throughout (wifiStep W) KeepsTruth steps u := by
  induction steps generalizing u with
  | nil =>
    refine ⟨fun h => ⟨h [] (List.nil_prefix ..) u rfl, trivial⟩, fun h pre hpre v hrun => ?_⟩
    obtain rfl := List.prefix_nil.1 hpre
    cases hrun
    exact h.1
  | cons w steps ih =>
    rw [alwaysTruthful_cons]
    refine and_congr_right fun htrue => ?_
    constructor
    · refine fun h => ⟨?_, fun v hstep => ((ih (wifiStep_wired hu hstep)).1 (h v hstep)).2⟩
      by_cases hreturns : ∃ v, (wifiStep W w).run u = (.ok (), v)
      · obtain ⟨v, hstep⟩ := hreturns
        exact (truthful_step hu htrue hstep).1 (h v hstep [] (List.nil_prefix ..) v rfl)
      · exact keepsTruth_of_fault fun v hstep => hreturns ⟨v, hstep⟩
    · rintro ⟨hkeeps, h⟩ v hstep
      exact (ih (wifiStep_wired hu hstep)).2
        ⟨(truthful_step hu htrue hstep).2 hkeeps, h v hstep⟩

/-- **The wait ends with the flag set as it was returned.** -/
theorem connectToWifi_settled (hs : Wired W u.sys)
    (hrun : (connectToWifi W steps).run u = (.ok (some b), v)) :
    Wired W v.sys ∧ v.isWifiConnected = b := by
  obtain ⟨r, t, hinit, hends⟩ := bind_ok.1 hrun
  obtain ⟨_, u₁, hstart, hwaits⟩ := bind_ok.1 hinit
  cases hstart
  obtain ⟨_, u₂, hduring, hends'⟩ := bind_ok.1 hwaits
  have hkeep : Wired W u₂.sys :=
    exec_keeps_of_mem (P := fun _ => True) (I := fun u => Wired W u.sys)
      (fun _ _ _ _ hu hw => wifiStep_wired hu hw) (fun _ _ => trivial) hs hduring
  have hflag (connected : Bool) : Wired W { u₂.sys with wifiConnected := connected } :=
    ⟨hkeep.tcp, hkeep.ble, hkeep.s3⟩
  rw [run_get_bind] at hends'
  -- the bits tell a network from a failure, and both from going on
  by_cases hconnected : u₂.connectedBit = true
  · rw [if_pos hconnected] at hends'
    cases hends'
    cases hends
    exact ⟨hflag true, rfl⟩
  · rw [if_neg hconnected] at hends'
    by_cases hfail : u₂.failBit = true
    · rw [if_pos hfail] at hends'
      cases hends'
      cases hends
      exact ⟨hflag false, rfl⟩
    · rw [if_neg hfail] at hends'
      cases hends'
      cases hends

/-- **The flag tells the truth exactly as long as** the network that was
found is there when the wait ends, the flag is set only while there is one,
and none is lost while it is set. -/
theorem wifi_truthful_iff {during : List WifiStep} (hs : Reachable W u.sys)
    (hconnect : (connectToWifi W during).run u = (.ok (some b), v)) :
    AlwaysTruthful W v steps ↔ (b = true → lastLink v.wifiLog = some .gotIp) ∧
      Throughout (wifiStep W) KeepsTruth steps v := by
  obtain ⟨hwired, hflag⟩ := connectToWifi_settled hs.wired hconnect
  rw [alwaysTruthful_iff hwired, Truthful.iff_connected, hflag]

/-- Before `connect_to_wifi` is called. -/
def WifiSys.initial : WifiSys := ⟨Sys.initial, 0, false, false, false, []⟩

/-- The start of the station, and a network. -/
def foundNetwork : List WifiStep := [.wifi .staStart, .wifi .gotIp]

/-- The network is lost, and every retry fails. -/
def lostNetwork : List WifiStep := List.replicate 6 (.wifi .staDisconnected)

/-- A network is found by ESP-Touch, and `main` sets the flag. -/
def espTouch : List WifiStep :=
  [.wifi .other, .wifi .gotIp, .lock (.setWifiConnected true), .lock .serverOnline, .wifi .other]

/-- The theorem, where `connect_to_wifi` finds no network and ESP-Touch
does. -/
theorem wifi_truthful_iff_espTouch : ∃ v u,
    (connectToWifi (World.still .esp32s3 100) (.wifi .staStart :: lostNetwork)).run
      WifiSys.initial = (.ok (some false), v) ∧
    Throughout (wifiStep (World.still .esp32s3 100)) KeepsTruth espTouch v ∧
    AlwaysTruthful (World.still .esp32s3 100) v espTouch ∧
    (exec (wifiStep (World.still .esp32s3 100)) espTouch).run v = (.ok (), u) ∧
    u.isWifiConnected = true := by
  have hs : Reachable (World.still .esp32s3 100) WifiSys.initial.sys :=
    ⟨Sys.initial, [], boot_initial, rfl⟩
  have hconnect : ∃ v, (connectToWifi (World.still .esp32s3 100)
      (.wifi .staStart :: lostNetwork)).run WifiSys.initial = (.ok (some false), v) := ⟨_, rfl⟩
  obtain ⟨v, hconnect⟩ := hconnect
  have hkeeps : Throughout (wifiStep (World.still .esp32s3 100)) KeepsTruth espTouch v := by
    refine ⟨trivial, fun v₁ h₁ => ⟨trivial, fun v₂ h₂ => ⟨?_, fun v₃ h₃ => ⟨trivial, fun v₄ h₄ =>
      ⟨trivial, fun _ _ => trivial⟩⟩⟩⟩⟩
    cases h₂
    exact lastLink_deliver .gotIp v₁
  obtain ⟨u, hu⟩ : ∃ u, (exec (wifiStep (World.still .esp32s3 100)) espTouch).run v =
      (.ok (), u) := ⟨_, rfl⟩
  refine ⟨v, u, hconnect, hkeeps, (wifi_truthful_iff hs hconnect).2 ⟨nofun, hkeeps⟩, hu, ?_⟩
  cases hconnect
  cases hu
  rfl

/-- **The network is lost for good, and the flag is still set.** -/
theorem lost_network_not_told : ∃ v u,
    (connectToWifi (World.still .esp32s3 100) foundNetwork).run WifiSys.initial =
      (.ok (some true), v) ∧
    (exec (wifiStep (World.still .esp32s3 100)) lostNetwork).run v = (.ok (), u) ∧
    lastLink u.wifiLog = some .staDisconnected ∧ GaveUp u ∧ u.isWifiConnected = true ∧
    ¬ Truthful u := by
  refine ⟨_, _, rfl, rfl, rfl, ⟨by decide, rfl⟩, rfl, fun h => ?_⟩
  have hlink := h.connected rfl
  cases hlink

end SmartLock
