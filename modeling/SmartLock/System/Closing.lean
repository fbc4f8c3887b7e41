import SmartLock.System.Dialogue

/-!
# How a TCP connection ends

A connection the server ends has its session closed by `disconnect_sock`,
which closes the socket as well; the accept loop then closes it again. One
the client ends, or an error, goes by that helper: the socket is closed
once, and the session stays as it was. Neither ends both.
-/

namespace SmartLock

open Prog

variable {W : World} {a : CStr} {s t s' : Sys} {l : List Obs} {e : Event} {phase : Phase}
variable {received : List UInt8} {frames : List CStr}

/-- How often the socket of the connection was closed. -/
def closes (s : Sys) : ℕ := (sinceConnect s.addrStr s.log).count .close

/-- The session of the connection is closed, and so is its socket, once. -/
structure EndedOnce (s : Sys) : Prop where
  session : ∃ x, s.user s.addrStr = some x ∧ x.state = .disconnected ∧ x.phoneId = []
  closed : closes s = 1

/-- How often it was closed when a dialogue has come as far. -/
def Phase.closes : Phase → ℕ
  | fresh => 0
  | opened _ => 0
  | dropped => 2
  | left => 1

theorem Dialogue.count_close (h : Dialogue W a phase frames l) :
    l.count .close = phase.closes := by
  induction h with
  | fresh => rfl
  | refused => simp [Phase.closes]
  | opened _ _ _ => simp [Phase.closes]
  | round _ _ _ _ _ ih => simpa [Phase.closes] using ih
  | nak _ _ _ _ ih => simpa [Phase.closes] using ih
  | leave _ ih => simpa [Phase.closes] using ih
  | leaveOpened _ ih => simpa [Phase.closes] using ih

theorem closes_eq (haddr : s.addrStr = a) : closes s = (session a s.log).count .close := by
  rw [closes, haddr, session, List.count_filter rfl]

/-- While the server serves, nothing is closed. -/
theorem Phase.Holds.closes_eq_zero (h : phase.Holds a s) (hserving : s.serving = true) :
    phase.closes = 0 := by
  rcases h.serves hserving with ⟨rfl, _⟩ | ⟨ctx, _, rfl, _⟩
  · rfl
  · rfl

/-! ## The two ends -/

/-- What became of the connection. -/
inductive Ended (s : Sys) : Prop
  /-- The server ended it: the session is closed, and the socket twice. -/
  | byServer {x : UserInfo} (hx : s.user s.addrStr = some x) (hstate : x.state = .disconnected)
    (hphone : x.phoneId = []) (hcloses : closes s = 2)
  /-- The client did, or an error: the socket is closed, and the session is
  not. -/
  | byClient {x : UserInfo} (hx : s.user s.addrStr = some x) (hstate : x.state ≠ .disconnected)
    (hcloses : closes s = 1)

/-- **The server ends a connection** with a close too many. -/
theorem hangUp_ended (hdialogue : InDialogue W frames t) (hrun : (hangUp W).run s = (.ok (), t)) :
    Ended t := by
  obtain ⟨haddr, hsession, _⟩ := hangUp_session rfl hrun
  obtain ⟨u, hset, rfl⟩ := hangUp_ok hrun
  obtain ⟨x, hx, _⟩ := (setUserState_ok hset).self
  rw [← haddr] at hx
  refine .byServer hx rfl rfl ?_
  -- two closes are seen, and no dialogue has more
  obtain ⟨phase, hphase, _⟩ := hdialogue
  rw [haddr] at hphase
  have hcount := hphase.count_close
  rw [closes_eq haddr, hcount]
  rw [hsession] at hcount
  cases phase with
  | fresh => simp [Phase.closes] at hcount
  | opened ctx => simp [Phase.closes] at hcount
  | dropped => rfl
  | left => simp [Phase.closes] at hcount

/-- **The client ends it**, and its session goes on. -/
theorem tcpEnd_ended (hserving : s.serving = true) (h : InDialogue W frames s)
    (hrun : tcpEnd.run s = (.ok (), t)) : Ended t := by
  obtain ⟨phase, hdialogue, hholds⟩ := h
  have hzero := hdialogue.count_close.trans (hholds.closes_eq_zero hserving)
  obtain ⟨x, hx, hopen⟩ := hholds.not_disconnected hserving
  cases hrun
  refine .byClient hx hopen ?_
  have hend : session s.addrStr (.disconnect s.addrStr :: .close :: s.log) =
      .disconnect s.addrStr :: .close :: session s.addrStr s.log := by
    rw [← session_noted rfl, ← session_noted (by simp [Obs.inSession])]
    rfl
  rw [closes_eq rfl]
  refine (congrArg (List.count .close) hend).trans ?_
  simpa using hzero

/-- A message that ends the connection has the server end it. -/
theorem doRetransmit_ended (hserving : s.serving = true) (hdialogue : InDialogue W frames s')
    (hback : s'.serving = false) (hrun : (doRetransmit W received).run s = (.ok (), s')) :
    Ended s' := by
  obtain ⟨r, u, hresponse, hends⟩ := doRetransmit_ok hrun
  have hrel : (talking s.addrStr).Rel (s.noted (.message s.addrStr)) u :=
    (sessionResponse_within (talking_serves _)).of_ok hresponse
  have hu : u.serving = true := (Sys.serving_of_servers hrel.servers).trans hserving
  rcases hends with ⟨_, hhang⟩ | ⟨response, text, sent, v, _, _, hquiet, hends⟩
  · exact hangUp_ended hdialogue hhang
  · rcases hends with ⟨_, rfl⟩ | ⟨_, hhang⟩
    · -- the loop goes on
      have hv : v.serving = true := (Sys.serving_of_servers hquiet.servers).trans hu
      exact absurd (hv.symm.trans hback) Bool.noConfusion
    · exact hangUp_ended hdialogue hhang

/-- **Each end is one of the two.** -/
theorem step_ended (h : Spoken W frames s) (hserving : s.serving = true)
    (hrun : (step W e).run s = (.ok (), s')) (hback : s'.serving = false) : Ended s' := by
  obtain ⟨ip, hip⟩ := h.wired.tcp hserving
  have hdialogue : InDialogue W frames s := h.dialogue ip hip (.inl hserving)
  cases htcp : e.isTcp with
  | false =>
    have hst : (apart (inetNtoa ip)).rel s s' := Frame.of_run (step_apart h.wired htcp ip) hrun
    exact absurd (hserving.symm.trans (hst.1.2.symm.trans hback)) Bool.noConfusion
  | true =>
    rw [step, run_get_bind] at hrun
    by_cases henabled : e.enabled W s
    · rw [if_pos henabled] at hrun
      cases e with
      | tcpAccept ip' =>
        rw [SmartLock.handle, run_tcpAccept] at hrun
        have hserves : s'.serving = true :=
          (Sys.serving_of_servers (setUserState_writes hrun).servers).trans rfl
        exact absurd (hserves.symm.trans hback) Bool.noConfusion
      | tcpRecv received =>
        have hcur : hashKey s.currentBLEAddr ≠ hashKey s.addrStr := by
          rw [hip]
          exact h.wired.current_ne ip
        exact doRetransmit_ended hserving (doRetransmit_dialogue hcur hserving hdialogue hrun)
          hback hrun
      | tcpClose => exact tcpEnd_ended hserving hdialogue hrun
      | _ => cases htcp
    · rw [if_neg henabled] at hrun
      cases hrun
      exact absurd (hserving.symm.trans hback) Bool.noConfusion

/-! ## Runs -/

/-- **No connection ends its session and releases its socket once**: in no
run, at no end of a connection, whatever was received on it. -/
theorem never_endedOnce (h : Reachable W s) (hserving : s.serving = true)
    (hrun : (step W e).run s = (.ok (), s')) (hback : s'.serving = false) : ¬ EndedOnce s' := by
  obtain ⟨frames, hspoken⟩ := h.spoken
  rintro ⟨⟨x, hx, hstate, _⟩, hcloses⟩
  cases step_ended hspoken hserving hrun hback with
  | byServer _ _ _ htwo => omega
  | byClient hy hopen _ =>
    rw [hx, Option.some.injEq] at hy
    subst hy
    exact hopen hstate

/-- A client of the network connects. -/
def calling : List Event := [.tcpAccept lanAddress]

/-- It leaves at once, and credentials are still awaited of it. -/
theorem exists_leaves : ∃ s s', Reachable (World.still .esp32s3 0) s ∧ s.serving = true ∧
    (step (World.still .esp32s3 0) .tcpClose).run s = (.ok (), s') ∧ s'.serving = false ∧
    (s'.user s'.addrStr).map UserInfo.state = some .connecting := by
  have hrun : ((run (World.still .esp32s3 0) (calling ++ [.tcpClose])).run Sys.initial).1 =
      .ok () := by decide +kernel
  have hfirst : ((run (World.still .esp32s3 0) calling).run Sys.initial).2.serving = true := by
    decide +kernel
  have hlast : ((run (World.still .esp32s3 0) (calling ++ [.tcpClose])).run
      Sys.initial).2.serving = false := by decide +kernel
  have hstate : (((run (World.still .esp32s3 0) (calling ++ [.tcpClose])).run Sys.initial).2.user
      ((run (World.still .esp32s3 0) (calling ++ [.tcpClose])).run Sys.initial).2.addrStr).map
        UserInfo.state = some .connecting := by decide +kernel
  obtain ⟨s, s', hs, hstep, heq, heq'⟩ := exists_last_step hrun
  rw [heq] at hfirst
  rw [heq'] at hlast hstate
  exact ⟨s, s', ⟨_, _, boot_initial, hs⟩, hfirst, hstep, hlast, hstate⟩

/-- The theorem, where a client leaves at once. -/
theorem never_endedOnce_leaves : ∃ s s', Reachable (World.still .esp32s3 0) s ∧
    (step (World.still .esp32s3 0) .tcpClose).run s = (.ok (), s') ∧ s'.serving = false ∧
    ¬ EndedOnce s' := by
  obtain ⟨s, s', hreach, hserving, hstep, hback, _⟩ := exists_leaves
  exact ⟨s, s', hreach, hstep, hback, never_endedOnce hreach hserving hstep hback⟩

/-- **A client that leaves at once leaves its session behind.** -/
theorem not_always_endedOnce : ¬ ∀ (W : World) (e : Event) (s s' : Sys), Reachable W s →
    s.serving = true → (step W e).run s = (.ok (), s') → s'.serving = false → EndedOnce s' := by
  intro h
  obtain ⟨s, s', hreach, hserving, hstep, hback, hconnecting⟩ := exists_leaves
  obtain ⟨⟨x, hx, hstate, _⟩, _⟩ := h _ _ s s' hreach hserving hstep hback
  rw [hx] at hconnecting
  exact absurd (hstate.symm.trans (Option.some.inj hconnecting)) (by decide)

end SmartLock
