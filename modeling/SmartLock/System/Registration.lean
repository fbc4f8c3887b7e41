import SmartLock.System.Dispatch
import SmartLock.System.Log

/-!
# When the first invite is issued

The first invite is for the lock that awaits it, and whether it does the
server knows. The dispatcher asks the cache, and so do TCP and the BLE
server of the S2; the BLE server of the S3 trusts the cache only to say no.
The cache is emptied by the messages of the S3 alone, so that it may say
`REGISTERED` long after the server stopped to.
-/

namespace SmartLock

open Prog

variable {W : World} {a cmd data : CStr} {s s₁ t : Sys} {e : Event} {es : List Event}

/-- The cache says `REGISTERED`, and the server does not. -/
def Stale (s : Sys) : Prop := s.registrationStatus = registered ∧ s.serverStatus ≠ registered

/-- The events whose messages are handled on the word of the cache. -/
def Event.unforced : Event → Bool
  | tcpRecv _ => true
  | uart _ => true
  | _ => false

variable (W) in
/-- The event does not bring, over TCP or the UART and on a stale cache, an
`RFI` whose stamps and nonce are accepted. -/
def NoStaleRFI (e : Event) (s : Sys) : Prop :=
  e.unforced = true → Stale s → ∀ a cmd s₁, Begins W e s a cmd s₁ → word cmd = some (lit "RFI") →
    ¬ ∃ s₂, Verified W cmd 4 s₁ s₂

variable (W) in
/-- If at this event an `RFI` reaches `create_invite`, the server reports
`REGISTERED`. -/
def Awaited (e : Event) (s : Sys) : Prop :=
  ∀ outcome s' expiration request pre a cmd, (step W e).run s = (outcome, s') →
    Made s s' (.createInvite expiration request) pre → lastCommand pre = some (a, cmd) →
    word cmd = some (lit "RFI") → s.serverStatus = registered

/-! ## The cache -/

/-- The cache is not stale where the status was just asked for, unless it
was before. -/
theorem not_stale_of_getRegistrationStatus {status : Int}
    (h : (getRegistrationStatus W).run s = (.ok status, t)) (hs : ¬ Stale s) : ¬ Stale t := by
  rintro ⟨hcache, hserver⟩
  rcases getRegistrationStatus_ok h with ⟨_, _, rfl⟩ | ⟨_, hstatus, rfl⟩
  · exact hs ⟨hcache, hserver⟩
  · have hreg : status = registered := hcache
    rw [hreg] at hstatus
    split_ifs at hstatus
    · exact hserver hstatus.symm
    · exact absurd hstatus (by decide)

/-- **The S3 never works on a stale cache.** -/
theorem not_stale_of_awaits {awaits : Bool}
    (h : (awaitsFirstInviteS3 W).run s = (.ok awaits, t)) : ¬ Stale t := by
  rcases awaitsFirstInviteS3_ok h with ⟨s₁, _, _, hasked, _⟩ | ⟨status, hreg, hstatus, _⟩
  · exact not_stale_of_getRegistrationStatus hasked fun h =>
      absurd (show unknownStatus = registered from h.1) (by decide)
  · rintro ⟨hcache, _⟩
    rcases getRegistrationStatus_ok hstatus with ⟨hs, _, rfl⟩ | ⟨_, _, rfl⟩
    · exact hreg (hs.symm.trans hcache)
    · exact hreg hcache

/-- Where the cache is not stale, what it says the server says. -/
theorem serverStatus_of_cachedRegistered (h : CachedRegistered s) (hs : ¬ Stale s) :
    s.serverStatus = registered := by
  rcases h with hcache | ⟨_, hserver⟩
  · by_contra hserver
    exact hs ⟨hcache, hserver⟩
  · exact hserver

theorem serverStatus_of_within {α : Type} {m : M α} {x : α} (hm : Within Footprint.all m)
    (h : m.run s = (.ok x, t)) : t.serverStatus = s.serverStatus := by
  have hrel : Footprint.all.Rel s t := hm.of_ok h
  exact Sys.serverStatus_of_servers hrel.servers

/-- What the message of a command leaves of the status: over the S3 the
cache is not stale, and elsewhere it is so only if it was. -/
theorem Dispatch.status (h : Dispatch W s e a data t) :
    t.serverStatus = s.serverStatus ∧ (Stale t → e.unforced = true ∧ Stale s) := by
  have awaits {u : Sys} {awaits : Bool}
      (h : (awaitsFirstInviteS3 W).run (s.noted (.message s.bleUserAddr)) = (.ok awaits, u)) :
      u.serverStatus = s.serverStatus ∧ ¬ Stale u := by
    refine ⟨?_, not_stale_of_awaits h⟩
    exact serverStatus_of_within (s := s.noted _) (awaitsFirstInviteS3_within trivial) h
  have asks {u : Sys} {received : List UInt8} {status : Int} (h : (getRegistrationStatus W).run
      ((s.buffered received).noted (.message bleUser)) = (.ok status, u)) :
      u.serverStatus = s.serverStatus ∧ (Stale u → Stale s) := by
    refine ⟨serverStatus_of_within (s := (s.buffered received).noted _)
      (getRegistrationStatus_within trivial) h, fun hu => ?_⟩
    by_contra hs
    exact not_stale_of_getRegistrationStatus h hs hu
  cases h with
  | tcp henabled hopen => exact ⟨rfl, fun hs => ⟨rfl, hs⟩⟩
  | inviteS3 hbrings hawaits hflag =>
    exact ⟨(awaits hawaits).1, fun hs => absurd hs (awaits hawaits).2⟩
  | sessionS3 hbrings hawaits hopen =>
    exact ⟨(awaits hawaits).1, fun hs => absurd hs (awaits hawaits).2⟩
  | invite hbrings hstatus hflag =>
    exact ⟨(asks hstatus).1, fun hs => ⟨rfl, (asks hstatus).2 hs⟩⟩
  | session hbrings hstatus hunreg hopen =>
    exact ⟨(asks hstatus).1, fun hs => ⟨rfl, (asks hstatus).2 hs⟩⟩

/-! ## The first invite -/

/-- What is observed in the course of a command belongs to it. -/
theorem During.lastCommand {ctx : AESContext} {o : Obs} {pre : List Obs}
    (h : During W cmd a s₁ o pre) (hbegan : Began W a data ctx cmd t s₁) :
    lastCommand pre = some (a, cmd) := by
  obtain ⟨new, rfl, hnew⟩ := h.since
  obtain ⟨mid, hmid, _⟩ := hbegan.log
  rw [lastCommand_append, hmid]
  · rfl
  · intro o ho
    rcases hnew o ho with ho | ho
    · cases o <;> first | rfl | cases ho
    · cases o <;> first | rfl | cases ho

/-- An invite an `RFI` creates is created under the status `registered`
of the server. -/
def IssuedUnder (status : Int) (o : Obs) (pre : List Obs) : Prop :=
  ∀ expiration request a cmd, o = .createInvite expiration request →
    lastCommand pre = some (a, cmd) → word cmd = some (lit "RFI") → status = registered

/-- **At every event that brings no `RFI` on a stale cache**, the first
invite is issued only where the server reports `REGISTERED`. -/
theorem awaited_of_noStaleRFI (h : NoStaleRFI W e s) : Awaited W e s := by
  have hC : Unconcerned (IssuedUnder s.serverStatus) := by
    rintro o ho _ pre expiration request a cmd rfl
    cases ho
  have hadmits (a data : CStr) (t : Sys) (hd : Dispatch W s e a data t) :
      Admits W (IssuedUnder s.serverStatus) a data t := by
    refine fun x hx => ⟨nofun, fun cmd s₁ hbegan o pre hduring => ?_⟩
    rintro expiration request a' cmd' rfl hlast hw
    rw [hduring.lastCommand hbegan, Option.some.injEq, Prod.mk.injEq] at hlast
    obtain ⟨rfl, rfl⟩ := hlast
    -- three commands create invites, each under its own word
    rcases hduring.gate with ⟨hrni, _⟩ | ⟨hrui, _⟩ | ⟨_, hcached, hverified⟩
    · rw [hrni] at hw
      exact absurd hw (by decide)
    · rw [hrui] at hw
      exact absurd hw (by decide)
    · have hserver := Sys.serverStatus_of_servers hbegan.servers
      obtain ⟨hstatus, hstale⟩ := hd.status
      rw [← hstatus, ← hserver]
      refine serverStatus_of_cachedRegistered hcached fun hs => ?_
      rw [Stale, hserver, hbegan.registrationStatus] at hs
      obtain ⟨hunforced, hs⟩ := hstale hs
      exact h hunforced hs a cmd s₁ ⟨data, t, x, hd, hx, hbegan⟩ hw hverified
  intro outcome s' expiration request pre a cmd hrun hmade
  exact (step_makes hC hadmits).of_run hrun hmade expiration request a cmd rfl

/-- **In every run without an `RFI` on a stale cache**, whenever an `RFI`
reaches `create_invite` the server reports `REGISTERED`. -/
theorem firstInvite_awaited (h : Throughout (step W) (NoStaleRFI W) es s) :
    Throughout (step W) (Awaited W) es s :=
  Throughout.imp (I := fun _ => True) (fun _ _ _ _ _ _ => trivial)
    (fun _ _ _ h => awaited_of_noStaleRFI h) trivial h

/-! ## The status on the server -/

/-- While the status on the server does not change the cache does not get
stale. -/
theorem noStaleRFI_of_not_stale (hes : ∀ e ∈ es, ∀ status, e ≠ .serverStatus status)
    (hs : ¬ Stale s) (hw : Wired W s) : Throughout (step W) (NoStaleRFI W) es s := by
  induction es generalizing s with
  | nil => trivial
  | cons e es ih =>
    refine ⟨fun _ h => absurd h hs, fun s' hrun => ?_⟩
    have hwired : Wired W s' := (step_wired e).of_ok hrun hw
    have hasked : asked.rel s s' :=
      Frame.of_run (asked_over.step hw (hes e (List.mem_cons_self ..))) hrun
    refine ih (fun e' he' => hes e' (List.mem_cons_of_mem _ he')) ?_ hwired
    rintro ⟨hcache, hserver⟩
    rw [hasked.1] at hserver
    rcases hasked.2 with h | h | h
    · exact hs ⟨h.symm.trans hcache, hserver⟩
    · exact absurd (h.symm.trans hcache) (by decide)
    · exact hserver (h.symm.trans hcache)

/-- A client of TCP that opens a session. -/
def opening : List Event := [.tcpAccept lanAddress, .tcpRecv (lit "AAAA")]

/-- A message with an `RFI`. -/
def rfiMessage : Event := .tcpRecv (sealedText (lit "RFI a 90 200 7"))

/-- The theorem, where the lock awaits its first invite. -/
theorem firstInvite_awaited_rfi : Throughout (step (World.answering .esp32s3))
    (Awaited (World.answering .esp32s3)) (.initRsaKey :: opening ++ [rfiMessage])
    awaitingFirstInvite :=
  firstInvite_awaited <| noStaleRFI_of_not_stale
    (by rintro _ he status rfl; simp [opening, rfiMessage] at he)
    (fun h => absurd (show unknownStatus = registered from h.1) (by decide))
    boot_awaitingFirstInvite.wired

/-- The server moves on behind the cache. -/
def movingOn : List Event := .initRsaKey :: .serverStatus 2 :: opening

theorem exists_stale_rfi : ∃ s s' pre,
    (run (World.answering .esp32s3) movingOn).run awaitingFirstInvite = (.ok (), s) ∧
    (step (World.answering .esp32s3) rfiMessage).run s = (.ok (), s') ∧
    Made s s' (.createInvite 3700 ⟨UserType.admin, -1, -1, none, -1, none⟩) pre ∧
    lastCommand pre = some (lit "192.168.1.5", lit "RFI a 90 200 7") :=
  exists_last_event (k := 2) (Q := fun pre => lastCommand pre = some _) (by decide +kernel)
    (by decide +kernel) (by decide +kernel) (by decide +kernel)

/-- After the server has moved on, the cache still lets an `RFI` through. -/
theorem stale_rfi_issues_invite : ¬ ∀ (W : World) (s : Sys) (es : List Event), Boot W s →
    Throughout (step W) (Awaited W) es s := by
  intro h
  obtain ⟨s, s', pre, hrun, hstep, hmade, hlast⟩ := exists_stale_rfi
  have hall := h (World.answering .esp32s3) awaitingFirstInvite
    (movingOn ++ [rfiMessage]) boot_awaitingFirstInvite
  have hregistered := hall.last hrun _ s' _ _ pre _ _ hstep hmade hlast (by decide)
  have hserver : ((run (World.answering .esp32s3) movingOn).run
      awaitingFirstInvite).2.serverStatus = 2 := by decide +kernel
  rw [hrun] at hserver
  exact absurd (hserver.symm.trans hregistered) (by decide)

end SmartLock
