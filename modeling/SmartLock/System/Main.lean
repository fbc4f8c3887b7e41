import SmartLock.Model.Main
import SmartLock.System.Beside
import SmartLock.System.Pieces

/-!
# Runs of the whole program

What holds of the servers at every event holds of the program around them,
if it survives a deep sleep: what `app_main` does besides is put together
of the same pieces.
-/

namespace SmartLock

open Prog

variable {W : World} {s t s' : Sys} {e : MainEvent} {es : List MainEvent}
variable {A : CStr → List UInt8 → Prop} {P : ∀ α : Type, M α → Prop}

/-- The events of the servers are events of the program. -/
theorem mainStep_server (e : Event) : mainStep W (.server e) = step W e := rfl

/-- A run of the servers is a run of the program. -/
theorem mainRun_server (es : List Event) : mainRun W (es.map .server) = run W es := by
  induction es with
  | nil => rfl
  | cons e es ih =>
    rw [mainRun] at ih
    rw [mainRun, List.map_cons, exec_cons, ih, mainStep_server]
    rfl

/-! ## The pieces of `app_main` -/

namespace Pieces

theorem goOnline (h : Pieces W A P) : P Unit (goOnline W) :=
  h.bind (h.assign fun _ => rfl) fun _ => h.bind h.hereditary.get fun _ =>
    h.bind (h.elsewhere faultIf_within) fun _ => h.sendDataBleS3 (h.ping (.inl rfl))

theorem initLedLockState (h : Pieces W A P) : P Unit (initLedLockState W) :=
  h.bind h.getLockState fun _ => of_branches h.lockLock
    (of_branches h.unlockLock (h.hereditary.pure _))

theorem startTimer (h : Pieces W A P) : P Unit (startTimerIfComplete W) :=
  h.bind (h.elsewhere (getRegistrationStatus_within trivial)) fun _ =>
    of_branches (h.assign fun _ => rfl) (h.hereditary.pure _)

theorem deepSleep (h : Pieces W A P) (hrestart : P Unit (Prog.modify Sys.restarted)) :
    P Unit (deepSleepTimerCallback W) :=
  h.bind hrestart fun _ => h.bind (h.elsewhere nvsInit_within) fun _ =>
    h.bind (h.elsewhere espErrorCheck_within) fun _ =>
      of_branches (h.setUserState _ (by decide)) (h.hereditary.pure _)

/-- **What the pieces have, the program has** at every event, if its servers
and the restart have it. -/
theorem mainStep (h : Pieces W A P) (hrestart : P Unit (Prog.modify Sys.restarted))
    (hserver : ∀ e', e = .server e' → P Unit (SmartLock.step W e')) :
    P Unit (mainStep W e) := by
  refine h.bind h.hereditary.get fun s => of_branches ?_ (h.hereditary.pure _)
  cases e with
  | server e => exact hserver e rfl
  | online => exact h.goOnline
  | initLedLockState => exact h.initLedLockState
  | startTimer => exact h.startTimer
  | deepSleep => exact h.deepSleep hrestart

/-- **And in every run.** -/
theorem mainRun (h : Pieces W anyEnd P) (hrestart : P Unit (Prog.modify Sys.restarted))
    (es : List MainEvent) : P Unit (mainRun W es) :=
  h.hereditary.exec (fun _ => h.mainStep hrestart fun e _ => h.step e) es

end Pieces

/-! ## What is done besides -/

/-- **The end of a start** leaves what messages leave, and two globals. -/
theorem mainStep_beside {F : Frame Sys} {a : CStr} (htalks : F.Talks a)
    (honline : ∀ s, F.rel s { s with serverOnline := true })
    (hsleep : ∀ s, F.rel s { s with deepSleepArmed := true }) (hserver : ∀ e', e ≠ .server e')
    (hawake : e ≠ .deepSleep) : Steps F (mainStep W e) := by
  refine .bind .get fun _ => .ite (fun _ => ?_) fun _ => .pure _
  cases e with
  | server e' => exact absurd rfl (hserver e')
  | deepSleep => exact absurd rfl hawake
  | online =>
    exact .bind (.modify honline) fun _ => .bind .get fun _ =>
      .bind (htalks.steps faultIf_within) fun _ =>
        htalks.steps (sendDataBleS3_within fun _ => talking_obs rfl (.inl rfl))
  | initLedLockState =>
    exact .bind (htalks.steps (getLockState_within trivial (talking_obs rfl (.inl rfl)))) fun _ =>
      .ite (fun _ => htalks.steps (lockLock_within trivial (talking_obs rfl (.inl rfl)))) fun _ =>
        .ite (fun _ => htalks.steps (unlockLock_within trivial (talking_obs rfl (.inl rfl))))
          fun _ => .pure _
  | startTimer =>
    exact .bind (htalks.steps (getRegistrationStatus_within trivial)) fun _ => .ite
      (fun _ => .modify hsleep) fun _ => .pure _

/-- **Behind a deep sleep** what a program that starts anew has holds. -/
theorem deepSleep_leaves {I : Sys → Prop} (hrestart : ∀ s : Sys, I s.restarted)
    (hwithin : ∀ {α : Type} {m : M α}, Within .all m → Steps (.keeping I) m) (s : Sys) :
    I ((deepSleepTimerCallback W).run s).2 := by
  have hstarts : Steps (.keeping I) (do
      espErrorCheck (← nvsCall W id)
      if W.target = .esp32s2 then bleInit W) :=
    .bind (hwithin nvsInit_within) fun _ => .bind (hwithin espErrorCheck_within) fun _ => .ite
      (fun _ => hwithin (setUserState_within trivial)) fun _ => .pure _
  exact hstarts s.restarted (hrestart s)

/-! ## The wiring -/

/-- What leaves the servers leaves their wiring. -/
theorem wired_within {α : Type} {m : M α} (hm : Within .all m) :
    Steps (.keeping (Wired W)) m := hm.mono fun _ _ h hs => hs.of_servers h.servers

/-- A program that starts anew has no connections. -/
theorem wired_restarted (s : Sys) : Wired W s.restarted :=
  ⟨nofun, .inl rfl, nofun⟩

/-- **Every event of the program keeps the servers wired.** -/
theorem mainStep_wired (e : MainEvent) : Steps (.keeping (Wired W)) (mainStep W e) := by
  cases e with
  | server e => exact step_wired e
  | deepSleep =>
    exact .bind .get fun _ => .ite
      (fun _ s _ => deepSleep_leaves wired_restarted wired_within s) fun _ => .pure _
  | _ =>
    exact mainStep_beside (a := bleUser) (fun _ _ h hs => hs.of_servers h.servers)
      (fun _ h => ⟨h.tcp, h.ble, h.s3⟩) (fun _ h => ⟨h.tcp, h.ble, h.s3⟩)
      (fun _ => MainEvent.noConfusion) MainEvent.noConfusion

variable (W) in
/-- A run of the program leads here from the start. -/
def MainReachable (s : Sys) : Prop :=
  ∃ s₀ es, Boot W s₀ ∧ (mainRun W es).run s₀ = (.ok (), s)

theorem Reachable.main (h : Reachable W s) : MainReachable W s := by
  obtain ⟨s₀, es, hboot, hrun⟩ := h
  exact ⟨s₀, es.map .server, hboot, by rw [mainRun_server, hrun]⟩

theorem MainReachable.wired (h : MainReachable W s) : Wired W s := by
  obtain ⟨s₀, es, hboot, hrun⟩ := h
  exact (Steps.exec (fun e => mainStep_wired e) es).of_ok hrun hboot.wired

end SmartLock
