import SmartLock.Handler.Effect
import SmartLock.Handler.Reply

/-!
# The state of the door

What `RDS` tells is read from the flash store, and what `RUD` and `RLD` do
is written there by calls whose errors are dropped. The value read is the
one last acknowledged as long as the store is served: a state that is to be
stored is stored, one that is to be read is read, and no `unlocked` is lost
to an erasure. `init_nvs` erases, and without a stored state the door counts
as locked, so that an erasure is noticed only where it was not.
-/

namespace SmartLock

open Prog

variable {W : World} {a cmd : CStr} {c : Tok} {s s₁ s₂ s' t u : Sys} {v d : Int}
variable {args : List CStr} {r : Option CStr} {e : Fault}

/-- The state of the door the store tells of. -/
def Sys.door (s : Sys) : Int := s.lockState.getD locked

/-- The door stands as it did, or was lost by an erasure. -/
def keepsDoor : Frame Sys where
  rel s t := s.log <:+ t.log ∧ (t.door = s.door ∨ (Erased s t ∧ t.door = locked))
  refl s := ⟨List.suffix_refl _, .inl rfl⟩
  trans h₁ h₂ := by
    obtain ⟨hlog₁, hdoor₁⟩ := h₁
    obtain ⟨hlog₂, hdoor₂⟩ := h₂
    refine ⟨hlog₁.trans hlog₂, ?_⟩
    rcases hdoor₂ with hdoor₂ | ⟨herased, hdoor₂⟩
    · rw [hdoor₂]
      exact hdoor₁.imp id fun h => ⟨h.1.trans_suffix hlog₂, h.2⟩
    · exact .inr ⟨herased.suffix_trans hlog₁, hdoor₂⟩

theorem keepsDoor_of_stands (hlog : s.log <:+ t.log) (h : Stands s t) : keepsDoor.rel s t := by
  refine ⟨hlog, ?_⟩
  rcases h with h | ⟨herased, hnone⟩
  · exact .inl (by rw [Sys.door, Sys.door, h])
  · exact .inr ⟨herased, by rw [Sys.door, hnone]; rfl⟩

/-- A footprint that leaves the door to the store keeps it. -/
theorem keepsDoor_of_rel {F : Footprint} (hF : ¬ F.door) (h : F.Rel s t) : keepsDoor.rel s t := by
  obtain ⟨new, hnew, _⟩ := h.log
  exact keepsDoor_of_stands ⟨new, hnew.symm⟩ (h.door.resolve_left hF)

/-- The footprint of the checks before the door is acted on. -/
def doorChecking : Footprint :=
  ⟨fun _ => False, True, True, False, False, False, fun o => ∃ p, o = .consult p⟩

theorem keeps_of_within {α : Type} {m : M α} (hm : Within doorChecking m) : Steps keepsDoor m :=
  hm.mono fun _ _ => keepsDoor_of_rel id

/-- **Where nothing unlocked is erased the door is kept.** -/
theorem door_eq_of_keeps (h : keepsDoor.rel s t) (hs : s.door = locked ∨ s.door = unlocked)
    (hkept : s.lockState = some unlocked → ¬ Erased s t) : t.door = s.door := by
  rcases h.2 with h | ⟨herased, hlocked⟩
  · exact h
  · refine hlocked.trans (hs.resolve_right fun hunlocked => hkept ?_ herased).symm
    rw [Sys.door] at hunlocked
    cases hl : s.lockState with
    | none =>
      rw [hl] at hunlocked
      exact absurd hunlocked (by decide)
    | some v =>
      rw [hl] at hunlocked
      exact congrArg some hunlocked

/-! ## Storing and reading the state -/

variable (W) in
/-- The store is opened in `s` without an error, if `init_nvs` returns, and
the call behind meets none. -/
def OpensClean (s : Sys) : Prop :=
  ∀ err s₁, (initAndOpen W).run s = (.ok err, s₁) → err = espOk ∧ W.nvsError s₁.moment = none

/-- The state is stored, or the door stands. -/
def storing (v : Int) : Frame Sys where
  rel s t := s.log <:+ t.log ∧ (t.lockState = some v ∨ Stands s t)
  refl s := ⟨List.suffix_refl _, .inr (.inl rfl)⟩
  trans h₁ h₂ := by
    obtain ⟨hlog₁, hdoor₁⟩ := h₁
    obtain ⟨hlog₂, hdoor₂⟩ := h₂
    refine ⟨hlog₁.trans hlog₂, ?_⟩
    rcases hdoor₂ with hdoor₂ | hdoor₂
    · exact .inl hdoor₂
    · rcases hdoor₁ with hdoor₁ | hdoor₁
      · rcases hdoor₂ with h | ⟨herased, hnone⟩
        · exact .inl (h.trans hdoor₁)
        · exact .inr (.inr ⟨herased.suffix_trans hlog₁, hnone⟩)
      · exact .inr (hdoor₁.trans hdoor₂ hlog₁ hlog₂)

theorem storing_of_within {α : Type} {m : M α} (hm : Within doorChecking m) : Steps (storing v) m :=
  hm.mono fun s t h => by
    obtain ⟨new, hnew, _⟩ := h.log
    exact ⟨⟨new, hnew.symm⟩, .inr (h.door.resolve_left id)⟩

/-- What `set_lock_state` writes. -/
theorem nvsSetLockState_steps :
    Steps (storing v) (nvsCall W fun s => { s with lockState := some v }) := by
  refine .bind (storing_of_within tick_within) fun t => ?_
  cases W.nvsError t with
  | some e => exact .pure _
  | none => exact .bind (.modify fun s => ⟨List.suffix_refl _, .inl rfl⟩) fun _ => .pure _

/-- **`set_lock_state` stores the state, or does nothing to it**, but for an
erasure; and so it does if it faults. -/
theorem setLockState_steps : Steps (storing v) (setLockState W v) :=
  .bind (storing_of_within initAndOpen_within) fun _ => .ite (fun _ => .pure _) fun _ =>
    .bind nvsSetLockState_steps fun _ => .ite (fun _ => .pure _) fun _ =>
      .bind (storing_of_within nvsInit_within) fun _ => .ite (fun _ => .pure _) fun _ =>
        .bind (storing_of_within nvsClose_within) fun _ => .pure _

/-- A state that is there is kept when it is stored again. -/
theorem setLockState_keeps (h : s.door = v) : keepsDoor.rel s ((setLockState W v).run s).2 := by
  obtain ⟨hlog, hdoor⟩ := setLockState_steps (W := W) (v := v) s
  rcases hdoor with hstored | hstands
  · exact ⟨hlog, .inl (by rw [h, Sys.door, hstored]; rfl)⟩
  · exact keepsDoor_of_stands hlog hstands

theorem act_keeps {o : Obs} (h : s.door = v) :
    keepsDoor.rel s ((do let _ ← setLockState W v; observe o : M Unit).run s).2 := by
  have hkeeps := setLockState_keeps (W := W) h
  rcases hrun : (setLockState W v).run s with ⟨e | err, t⟩
  · rw [run_bind_error hrun]
    exact Frame.of_run hkeeps hrun
  · rw [run_bind_ok hrun, run_observe]
    exact keepsDoor.trans (Frame.of_run hkeeps hrun) ⟨List.suffix_cons _ _, .inl rfl⟩

theorem nvsCall_returns {f : Sys → Sys} : Returns (nvsCall W f) s := by
  rw [nvsCall]
  refine .bind ⟨_, _, rfl⟩ fun t s₁ _ => ?_
  cases W.nvsError t with
  | some e => exact .pure _
  | none => exact .bind ⟨_, _, rfl⟩ fun _ _ _ => .pure _

/-- `set_lock_state` does not fault once the store is open. -/
theorem setLockState_error (h : (setLockState W v).run s = (.error e, s')) :
    (initAndOpen W).run s = (.error e, s') := by
  rcases bind_error.1 h with h | ⟨err, s₁, _, h⟩
  · exact h
  · refine absurd h (Returns.ne_error ?_)
    exact .ite (fun _ => .pure _) fun _ => .bind nvsCall_returns fun _ _ _ =>
      .ite (fun _ => .pure _) fun _ => .bind nvsCall_returns fun _ _ _ =>
        .ite (fun _ => .pure _) fun _ => .bind ⟨_, _, rfl⟩ fun _ _ _ => .pure _

/-- **A state that is to be stored is stored** where the store opens. -/
theorem setLockState_stored {err : Int} (h : (setLockState W v).run s = (.ok err, s'))
    (hopens : OpensClean W s) : s'.lockState = some v := by
  obtain ⟨err₁, s₁, hopen, h⟩ := bind_ok.1 h
  obtain ⟨rfl, hclean⟩ := hopens _ _ hopen
  rw [if_neg (by decide)] at h
  obtain ⟨err₂, s₂, hset, h⟩ := bind_ok.1 h
  rw [nvsCall, run_tick_bind, hclean] at hset
  cases hset
  rw [if_neg (by decide)] at h
  obtain ⟨err₃, s₃, hcommit, h⟩ := bind_ok.1 h
  have hstored : s₃.lockState = some v := by
    rw [nvsCall, run_tick_bind] at hcommit
    split at hcommit
    · cases hcommit
      rfl
    · cases hcommit
      rfl
  split at h
  · cases h
    exact hstored
  · cases h
    exact hstored

/-- **`get_lock_state` keeps the door**, which it locks only where it finds
it locked. -/
theorem getLockState_keeps : Steps keepsDoor (getLockState W) := by
  refine .bind (keeps_of_within initAndOpen_within) fun err => .ite (fun _ => .pure _) fun _ => ?_
  intro s
  have hread_keeps := keeps_of_within (nvsGetLockState_within (W := W)) s
  rcases hread : (nvsGetLockState W).run s with ⟨e | ⟨err, v⟩, t⟩
  · rw [run_bind_error hread]
    exact Frame.of_run hread_keeps hread
  · have hkept : keepsDoor.rel s t := Frame.of_run hread_keeps hread
    rw [run_bind_ok hread]
    dsimp only
    -- a missing key makes it lock, and a door without its key already reads as locked
    by_cases hnot : err = espErrNvsNotFound
    · rw [if_pos hnot]
      have hlocked : t.door = locked := by
        obtain ⟨hsame, ⟨e, _, rfl⟩ | ⟨_, _, ⟨hnone, _⟩ | ⟨_, rfl⟩⟩⟩ := nvsGetLockState_ok hread
        · exact absurd hnot e.ne_notFound
        · rw [Sys.door, hsame, hnone]
          rfl
        · exact absurd hnot (by decide)
      have hlock := act_keeps (W := W) (o := .lockLock) hlocked
      rcases hrun : (lockLock W).run t with ⟨e | _, u⟩
      · rw [run_bind_error hrun]
        exact keepsDoor.trans hkept (Frame.of_run hlock hrun)
      · rw [run_bind_ok hrun]
        exact keepsDoor.trans hkept (Frame.of_run hlock hrun)
    · rw [if_neg hnot]
      exact hkept

/-- **What is read is the state of the door** where the store opens. -/
theorem getLockState_ok (h : (getLockState W).run s = (.ok v, s')) (hopens : OpensClean W s) :
    ∃ t, keepsDoor.rel s t ∧ t.log <:+ s'.log ∧ v = t.door ∧ s'.door = v := by
  obtain ⟨err, s₁, hopen, h⟩ := bind_ok.1 h
  obtain ⟨rfl, hclean⟩ := hopens _ _ hopen
  rw [if_neg (by decide)] at h
  obtain ⟨⟨err, v'⟩, s₂, hread, h⟩ := bind_ok.1 h
  have hkept : keepsDoor.rel s s₁ := (keeps_of_within initAndOpen_within).of_ok hopen
  obtain ⟨hsame, ⟨e, he, _⟩ | ⟨_, hlog, hstored⟩⟩ := nvsGetLockState_ok hread
  · rw [hclean] at he
    cases he
  · have hlog₂ : s₁.log <:+ s₂.log := by
      rw [hlog]
      exact List.suffix_cons _ _
    dsimp only at h
    -- the key is missing and the state is written, or it is there and returned
    rcases hstored with ⟨hnone, rfl⟩ | ⟨hsome, rfl⟩
    · rw [if_pos rfl] at h
      obtain ⟨_, s₃, hlock, hret⟩ := bind_ok.1 h
      cases hret
      have hlocked : s₂.door = locked := by
        rw [Sys.door, hsame, hnone]
        rfl
      have hkeeps : keepsDoor.rel s₂ s' :=
        Frame.of_run (act_keeps (W := W) (o := .lockLock) hlocked) hlock
      refine ⟨s₁, hkept, hlog₂.trans hkeeps.1, by rw [Sys.door, hnone]; rfl, ?_⟩
      exact hkeeps.2.elim (fun h => h.trans hlocked) fun h => h.2
    · rw [if_neg (by decide)] at h
      cases h
      exact ⟨s₁, hkept, hlog₂, by rw [Sys.door, hsome]; rfl, by rw [Sys.door, hsame, hsome]; rfl⟩

/-! ## What the checks and the reset leave -/

theorem findOrAdd_lockState (h : (findOrAdd W a).run s = (.ok (), s')) :
    s'.lockState = s.lockState := by
  rcases findOrAdd_iff.1 h with ⟨_, rfl⟩ | ⟨_, _, rfl⟩
  · rfl
  · rfl

/-- The reset does not touch the flash store. -/
theorem reset_lockState (h : (setBLEUserStateToConnecting W).run s = (.ok (), s')) :
    s'.lockState = s.lockState := by
  rw [setBLEUserStateToConnecting, run_get_bind] at h
  split at h
  · simp only [setUserState, bind_ok, faultIf_ok] at h
    obtain ⟨_, s₁, hadd, _, _, ⟨⟩, _, _, ⟨_, rfl⟩, ⟨⟩⟩ := h
    have hsame : s₁.lockState = s.lockState := findOrAdd_lockState hadd
    exact hsame
  · cases h
    rfl

theorem verify_keeps {k : Int} : Steps keepsDoor (verifyTimestampsAndNonce W args k) :=
  keeps_of_within (verifyTimestampsAndNonce_within trivial)

theorem canUseLock_keeps : Steps keepsDoor (canUseLock W a) :=
  keeps_of_within (canUseLock_within fun p => ⟨p, rfl⟩)

/-! ## The commands -/

/-- What stores a state of the door, or reads it. -/
inductive DoorEvent
  /-- A command of `a`. -/
  | command (a cmd : CStr)
  /-- `init_led_lock_state`. -/
  | start

variable (W) in
/-- The state it leaves. -/
def DoorEvent.after : DoorEvent → Sys → Sys
  | command a cmd, s => ((checkCommand W cmd a).run s).2
  | start, s => ((initLedLockState W).run s).2

variable (W) in
/-- The event calls `set_lock_state` or `get_lock_state` first in `t`. -/
inductive Reaches (s : Sys) : DoorEvent → Sys → Prop
  | door {a cmd : CStr} {args : List CStr} {s₁ s₂ : Sys}
    (hw : word cmd = some (lit "RUD") ∨ word cmd = some (lit "RLD")) (hargs : Given cmd 3 args)
    (hverify : (verifyTimestampsAndNonce W args 0).run s = (.ok true, s₁))
    (huse : (canUseLock W a).run s₁ = (.ok true, s₂)) : Reaches s (.command a cmd) s₂
  | rds {a cmd : CStr} {args : List CStr} {s₁ : Sys} (hw : word cmd = some (lit "RDS"))
    (hargs : Given cmd 3 args)
    (hverify : (verifyTimestampsAndNonce W args 0).run s = (.ok true, s₁)) :
    Reaches s (.command a cmd) s₁
  | start : Reaches s .start s

variable (W) in
/-- The store serves the event: an `unlocked` it holds is not erased; where
it is to be opened to store or to read the state, it opens, and the state is
stored or read; and no `RUD` or `RLD` is freed at an offset, when it has
been stored and not yet answered. -/
structure Served (e : DoorEvent) (s : Sys) : Prop where
  kept : s.lockState = some unlocked → ¬ Erased s (e.after W s)
  opens : ∀ t, Reaches W s e t → OpensClean W t
  aligned : ∀ a cmd c, e = .command a cmd → getCommand cmd = some c →
    c.word = lit "RUD" ∨ c.word = lit "RLD" → c.off = 0

/-- `RUD` and `RLD` fault before they store anything. -/
theorem doorAck_error {o : Obs} (h : (doorAck W (do
      let _ ← setLockState W v
      observe o) args a).run s = (.error e, s')) : keepsDoor.rel s s' := by
  rcases bind_error.1 h with hverify | ⟨ok, s₁, hverify, h⟩
  · exact Frame.of_run (verify_keeps s) hverify
  refine keepsDoor.trans (verify_keeps.of_ok hverify) ?_
  cases ok with
  | false => cases h
  | true =>
    rcases bind_error.1 h with huse | ⟨ok, s₂, huse, h⟩
    · exact Frame.of_run (canUseLock_keeps s₁) huse
    refine keepsDoor.trans (canUseLock_keeps.of_ok huse) ?_
    cases ok with
    | false => cases h
    | true =>
      rcases bind_error.1 h with hact | ⟨_, _, _, h⟩
      · rcases bind_error.1 hact with hset | ⟨_, _, _, h⟩
        · exact Frame.of_run (keeps_of_within initAndOpen_within _) (setLockState_error hset)
        · cases h
      · cases h

/-- **`RUD` and `RLD`** store the state they acknowledge, and keep the door
where they acknowledge nothing. -/
theorem commandDoor_door {o : Obs} {outcome : Except Fault (Option CStr)}
    (h : (commandDoor W (do
      let _ ← setLockState W v
      observe o) c cmd a).run s = (outcome, s')) (hoff : c.off = 0)
    (hopens : ∀ args s₁ s₂, Given cmd 3 args →
      (verifyTimestampsAndNonce W args 0).run s = (.ok true, s₁) →
      (canUseLock W a).run s₁ = (.ok true, s₂) → OpensClean W s₂) :
    (outcome = .ok (some ackMessage) ∧ s'.lockState = some v) ∨
      (outcome ≠ .ok (some ackMessage) ∧ keepsDoor.rel s s') := by
  cases outcome with
  | ok r =>
    rcases (commandDoor_ok h).2 with ⟨_, rfl, rfl⟩ | ⟨args, ack, s₁, hargs, hack, hreset, rfl⟩
    · exact .inr ⟨by decide, keepsDoor.refl _⟩
    · obtain ⟨ok, s₂, hverify, hack⟩ := bind_ok.1 hack
      have h₂ := verify_keeps.of_ok hverify
      have hlast : Steps keepsDoor (setBLEUserStateToConnecting W) :=
        keeps_of_within (setBLEUserStateToConnecting_within trivial)
      have h₁ := hlast.of_ok hreset
      -- the two gates in turn: only a message that passes both reaches the store
      cases ok with
      | false =>
        cases hack
        exact .inr ⟨by decide, keepsDoor.trans h₂ h₁⟩
      | true =>
        obtain ⟨ok, s₃, huse, hack⟩ := bind_ok.1 hack
        have h₃ := canUseLock_keeps.of_ok huse
        cases ok with
        | false =>
          cases hack
          exact .inr ⟨by decide, keepsDoor.trans (keepsDoor.trans h₂ h₃) h₁⟩
        | true =>
          obtain ⟨_, s₄, hact, hret⟩ := bind_ok.1 hack
          cases hret
          obtain ⟨err, s₅, hset, hobs⟩ := bind_ok.1 hact
          cases hobs
          refine .inl ⟨rfl, ?_⟩
          have hstored := setLockState_stored hset (hopens _ _ _ hargs hverify huse)
          rw [reset_lockState hreset]
          exact hstored
  | error e =>
    refine .inr ⟨nofun, ?_⟩
    -- a fault before the store is written leaves the door; after it nothing faults
    rcases bind_error.1 h with hargs | ⟨args, s₁, hargs, h⟩
    · exact Frame.of_run (keeps_of_within getArgs_within s) hargs
    · obtain ⟨rfl, ⟨rfl, _⟩ | ⟨l, rfl, hl⟩⟩ := getArgs_ok hargs
      · exact absurd h (free_returns hoff).ne_error
      · rcases bind_error.1 h with hack | ⟨ack, s₂, _, h⟩
        · exact doorAck_error hack
        · exact absurd h (finish_returns hoff).ne_error

/-- **`RDS` keeps the door**, whatever comes of it. -/
theorem commandRDS_keeps : Steps keepsDoor (commandRDS W c cmd a) := by
  have hfree : Steps keepsDoor (freeCommand c) := keeps_of_within freeCommand_within
  have hreset : Steps keepsDoor (setBLEUserStateToConnecting W) :=
    keeps_of_within (setBLEUserStateToConnecting_within trivial)
  have hresponse (args : List CStr) : Steps keepsDoor (rdsResponse W args a) :=
    .bind verify_keeps fun _ => .ite
      (fun _ => .bind (keeps_of_within getUserState_within) fun _ => .ite
        (fun _ => .bind getLockState_keeps fun _ => keeps_of_within sprintf_within)
        fun _ => .pure _) fun _ => .pure _
  refine .bind (keeps_of_within getArgs_within) fun args => ?_
  cases args with
  | none => exact .bind hfree fun _ => .bind hreset fun _ => .pure _
  | some args =>
    exact .bind (hresponse args) fun _ => .bind hfree fun _ => .bind hreset fun _ => .pure _

/-- **What `RDS` tells** is the state it finds. -/
theorem commandRDS_tells {text : CStr}
    (h : (commandRDS W c cmd a).run s = (.ok (some (lit "SDS " ++ text)), s'))
    (hopens : ∀ args s₁, Given cmd 3 args →
      (verifyTimestampsAndNonce W args 0).run s = (.ok true, s₁) → OpensClean W s₁) :
    ∃ t, keepsDoor.rel s t ∧ t.log <:+ s'.log ∧ text = decInt t.door := by
  -- a refusal is not the reply told
  have hnak (h : some (lit "SDS " ++ text) = some nakMessage) : False :=
    absurd (congrArg (·[0]?) (Option.some.inj h) : some 83 = some (78 : UInt8)) (by decide)
  rcases (commandRDS_ok h).2 with ⟨_, _, hr⟩ | ⟨args, response, s₁, hargs, hresp, hreset, hr⟩
  · exact (hnak hr).elim
  · cases hr
    obtain ⟨ok, s₂, hverify, hlooks⟩ := bind_ok.1 hresp
    cases ok with
    | false =>
      exact (hnak (congrArg some (Except.ok.inj (Prod.mk.inj hlooks).1).symm)).elim
    | true =>
      obtain ⟨state, s₃, hstate, htells⟩ := bind_ok.1 hlooks
      obtain ⟨_, rfl⟩ := getUserState_ok.1 hstate
      by_cases hauth : state = .authorized
      · rw [if_pos hauth] at htells
        obtain ⟨v, s₄, hget, htext⟩ := bind_ok.1 htells
        obtain ⟨t, ht, hlog, rfl, _⟩ := getLockState_ok hget (hopens _ _ hargs hverify)
        have hlast : Steps keepsDoor (setBLEUserStateToConnecting W) :=
          keeps_of_within (setBLEUserStateToConnecting_within trivial)
        have htold : keepsDoor.rel s₄ s₁ := (keeps_of_within sprintf_within).of_ok htext
        refine ⟨t, keepsDoor.trans (verify_keeps.of_ok hverify) ht,
          (hlog.trans htold.1).trans (hlast.of_ok hreset).1, ?_⟩
        exact List.append_cancel_left (sprintf_ok htext)
      · rw [if_neg hauth] at htells
        exact (hnak (congrArg some (Except.ok.inj (Prod.mk.inj htells).1).symm)).elim

/-! ## The start -/

/-- **The start stores the state it reads.** -/
theorem initLedLockState_keeps (hopens : OpensClean W s) :
    keepsDoor.rel s ((initLedLockState W).run s).2 := by
  have hget := getLockState_keeps (W := W) s
  rcases hrun : (getLockState W).run s with ⟨e | v, s₁⟩
  · rw [initLedLockState, run_bind_error hrun]
    exact Frame.of_run hget hrun
  · obtain ⟨_, _, _, _, hdoor⟩ := getLockState_ok hrun hopens
    rw [initLedLockState, run_bind_ok hrun]
    refine keepsDoor.trans (Frame.of_run hget hrun) ?_
    by_cases hlocked : v = locked
    · rw [if_pos hlocked]
      exact act_keeps (hdoor.trans hlocked)
    · rw [if_neg hlocked]
      by_cases hunlocked : v = unlocked
      · rw [if_pos hunlocked]
        exact act_keeps (hdoor.trans hunlocked)
      · rw [if_neg hunlocked]
        exact keepsDoor.refl _

/-! ## Runs -/

/-- The state of the door last acknowledged, after a command with the word
`w` that is answered `r`. -/
def acknowledged (d : Int) (w : CStr) (outcome : Except Fault (Option CStr)) : Int :=
  if outcome = .ok (some ackMessage) then
    if w = lit "RUD" then unlocked
    else if w = lit "RLD" then locked
    else d
  else d

variable (W) in
/-- The state last acknowledged, in every run of the commands about the door
by authorized users, of starts, and of whatever else leaves the stored
state, such as a reboot. A command may crash; every event meets `P`. -/
inductive DoorRun (P : DoorEvent → Sys → Prop) : Int → Sys → Prop
  /-- The door is locked, or nothing is stored. -/
  | begin {s : Sys} (hs : s.lockState = none ∨ s.lockState = some locked) : DoorRun P locked s
  | command {d : Int} {a cmd w : CStr} {s s' : Sys} {outcome : Except Fault (Option CStr)}
    (h : DoorRun P d s) (hauth : Authorized a s) (hw : word cmd = some w)
    (hdoor : w ∈ [lit "RUD", lit "RLD", lit "RDS"]) (hP : P (.command a cmd) s)
    (hrun : (checkCommand W cmd a).run s = (outcome, s')) :
    DoorRun P (acknowledged d w outcome) s'
  | start {d : Int} {s s' : Sys} {outcome : Except Fault Unit} (h : DoorRun P d s)
    (hP : P .start s) (hrun : (initLedLockState W).run s = (outcome, s')) : DoorRun P d s'
  | reboot {d : Int} {s s' : Sys} (h : DoorRun P d s) (hstore : s'.lockState = s.lockState) :
    DoorRun P d s'

variable (W) in
/-- What `cmd` tells of the door is `d`, and `locked` or `unlocked`. -/
def Tells (d : Int) (a cmd : CStr) (s : Sys) : Prop :=
  ∀ text s', (checkCommand W cmd a).run s = (.ok (some (lit "SDS " ++ text)), s') →
    text = decInt d ∧ (d = locked ∨ d = unlocked)

/-- **A command about the door** stores the state it acknowledges, and keeps
the door where it acknowledges nothing. -/
theorem checkCommand_door {w : CStr} {outcome : Except Fault (Option CStr)}
    (h : (checkCommand W cmd a).run s = (outcome, s')) (hw : word cmd = some w)
    (hdoor : w ∈ [lit "RUD", lit "RLD", lit "RDS"]) (hserved : Served W (.command a cmd) s) :
    (∃ v, (v = locked ∨ v = unlocked) ∧ (∀ d, acknowledged d w outcome = v) ∧
        s'.lockState = some v) ∨
      ((∀ d, acknowledged d w outcome = d) ∧ keepsDoor.rel s s') := by
  obtain ⟨c, hc, hcw, hdispatch⟩ := exists_dispatch (W := W) (a := a) hw
  rw [hdispatch] at h
  simp only [List.mem_cons, List.not_mem_nil, or_false] at hdoor
  rcases hdoor with rfl | rfl | rfl
  · rcases commandDoor_door h (hserved.aligned a cmd c rfl hc (.inl hcw))
      fun args s₁ s₂ hargs hverify huse =>
        hserved.opens _ (.door (.inl hw) hargs hverify huse) with ⟨rfl, hstored⟩ | ⟨hne, hkept⟩
    · exact .inl ⟨unlocked, .inr rfl, fun _ => rfl, hstored⟩
    · exact .inr ⟨fun d => if_neg hne, hkept⟩
  · rcases commandDoor_door h (hserved.aligned a cmd c rfl hc (.inr hcw))
      fun args s₁ s₂ hargs hverify huse =>
        hserved.opens _ (.door (.inr hw) hargs hverify huse) with ⟨rfl, hstored⟩ | ⟨hne, hkept⟩
    · exact .inl ⟨locked, .inl rfl, fun _ => rfl, hstored⟩
    · exact .inr ⟨fun d => if_neg hne, hkept⟩
  · refine .inr ⟨fun d => ?_, ?_⟩
    · rw [acknowledged]
      split <;> rfl
    · exact Frame.of_run (commandRDS_keeps s) h

/-- **In every run the store serves** it tells of the state last
acknowledged. -/
theorem DoorRun.door_eq (h : DoorRun W (Served W) d s) :
    s.door = d ∧ (d = locked ∨ d = unlocked) := by
  -- on the run: what is told is what is stored, and is one of the two states
  induction h with
  | begin hs =>
    refine ⟨?_, .inl rfl⟩
    rcases hs with hs | hs <;> rw [Sys.door, hs] <;> rfl
  | command _ _ hw hdoor hserved hrun ih =>
    obtain ⟨hd, hvalue⟩ := ih
    rcases checkCommand_door hrun hw hdoor hserved with ⟨v, hv, hack, hstored⟩ | ⟨hack, hkept⟩
    · rw [hack, Sys.door, hstored]
      exact ⟨rfl, hv⟩
    · have hkeep := hserved.kept
      rw [DoorEvent.after, hrun] at hkeep
      rw [hack, door_eq_of_keeps hkept (hd ▸ hvalue) hkeep]
      exact ⟨hd, hvalue⟩
  | start _ hserved hrun ih =>
    obtain ⟨hd, hvalue⟩ := ih
    have hkept := initLedLockState_keeps (hserved.opens _ .start)
    have hkeep := hserved.kept
    rw [DoorEvent.after, hrun] at hkeep
    rw [door_eq_of_keeps (Frame.of_run hkept hrun) (hd ▸ hvalue) hkeep]
    exact ⟨hd, hvalue⟩
  | reboot _ hstore ih =>
    rw [Sys.door, hstore]
    exact ih

/-- **Every state of the door that is told is the one last acknowledged**,
in every run the store serves. -/
theorem DoorRun.tells (h : DoorRun W (Served W) d s) (hserved : Served W (.command a cmd) s) :
    Tells W d a cmd s := by
  intro text s' hrun
  obtain ⟨hd, hvalue⟩ := h.door_eq
  obtain ⟨hw, _⟩ := verified_of_sds hrun
  obtain ⟨c, hc, hcw, hdispatch⟩ := exists_dispatch (W := W) (a := a) hw
  have hrds := hrun
  rw [hdispatch] at hrds
  obtain ⟨t, ht, hlog, rfl⟩ := commandRDS_tells hrds fun args s₁ hargs hverify =>
    hserved.opens _ (.rds hw hargs hverify)
  have hkeep := hserved.kept
  rw [DoorEvent.after, hrun] at hkeep
  rw [door_eq_of_keeps ht (hd ▸ hvalue) fun hl herased => hkeep hl (herased.trans_suffix hlog), hd]
  exact ⟨rfl, hvalue⟩

/-! ## Runs on fixed inputs -/

/-- A driver that meets no error serves every event that erases nothing. -/
theorem served_of_nvs {e : DoorEvent} (hW : ∀ t, W.nvsError t = none)
    (hkept : .nvsErased ∉ (e.after W s).log) (haligned : ∀ a cmd c, e = .command a cmd →
      getCommand cmd = some c → c.word = lit "RUD" ∨ c.word = lit "RLD" → c.off = 0) :
    Served W e s where
  kept _ := fun ⟨new, hnew, hmem⟩ => hkept (by rw [hnew]; exact List.mem_append_left _ hmem)
  opens t _ err s₁ hopen := by
    obtain ⟨s₂, hrun, _⟩ := initAndOpen_run (s := t) hW
    rw [hrun] at hopen
    cases hopen
    exact ⟨rfl, hW _⟩
  aligned := haligned

/-- The administrator unlocks the door, and it is told to be unlocked. -/
theorem tells_unlocked : ∃ s, DoorRun (World.still .esp32s3 100) (Served (World.still .esp32s3 100))
      unlocked s ∧
    Tells (World.still .esp32s3 100) unlocked (lit "192.168.1.5") (lit "RDS 90 200 2") s := by
  let W := World.still .esp32s3 100
  have hrun : (checkCommand W (lit "RUD 90 200 1") (lit "192.168.1.5")).run adminAuthorized =
      (.ok (some ackMessage), _) := Prod.ext unlock_adminAuthorized rfl
  have hunlock : Served W (.command (lit "192.168.1.5") (lit "RUD 90 200 1")) adminAuthorized := by
    refine served_of_nvs (fun _ => rfl) (by decide +kernel) ?_
    rintro a cmd c heq hc _
    cases heq
    cases hc
    rfl
  have htell : Served W (.command (lit "192.168.1.5") (lit "RDS 90 200 2"))
      ((checkCommand W (lit "RUD 90 200 1") (lit "192.168.1.5")).run adminAuthorized).2 := by
    refine served_of_nvs (fun _ => rfl) (by decide +kernel) ?_
    rintro a cmd c heq hc _
    cases heq
    cases hc
    rfl
  have hbegin : DoorRun W (Served W) locked adminAuthorized := .begin (.inl rfl)
  have hrest := hbegin.command (a := lit "192.168.1.5") (w := lit "RUD") ⟨_, rfl, rfl⟩ (by decide)
    (by decide) hunlock hrun
  exact ⟨_, hrest, DoorRun.tells hrest htell⟩

/-- An outside whose flash driver fails at one moment. -/
def World.failingAt (k : ℕ) : World :=
  { World.still .esp32s3 100 with
    nvsError := fun t => if t = k then some ⟨0x1105, by decide, by decide⟩ else none }

/-- **A door that was unlocked with an `ACK` is told to be locked**, where
the call that stores the state failed. -/
theorem told_locked_after_ack : ∃ s : Sys,
    DoorRun (World.failingAt 9) (fun _ _ => True) unlocked s ∧
      Authorized (lit "192.168.1.5") s ∧
      ((checkCommand (World.failingAt 9) (lit "RDS 90 200 2") (lit "192.168.1.5")).run s).1 =
        .ok (some (lit "SDS " ++ decInt locked)) := by
  let W := World.failingAt 9
  have hack : ((checkCommand W (lit "RUD 90 200 1") (lit "192.168.1.5")).run adminAuthorized).1 =
      .ok (some ackMessage) := by decide +kernel
  have htell : ((checkCommand W (lit "RDS 90 200 2") (lit "192.168.1.5")).run
      ((checkCommand W (lit "RUD 90 200 1") (lit "192.168.1.5")).run adminAuthorized).2).1 =
        .ok (some (lit "SDS " ++ decInt locked)) := by decide +kernel
  have hauth : (((checkCommand W (lit "RUD 90 200 1") (lit "192.168.1.5")).run
      adminAuthorized).2.user (lit "192.168.1.5")).map UserInfo.state = some .authorized := by
    decide +kernel
  have hbegin : DoorRun W (fun _ _ => True) locked adminAuthorized := .begin (.inl rfl)
  have hrun := hbegin.command (a := lit "192.168.1.5") (w := lit "RUD") ⟨_, rfl, rfl⟩ (by decide)
    (by decide) trivial (Prod.ext hack rfl)
  obtain ⟨x, hx, hstate⟩ := Option.map_eq_some_iff.1 hauth
  exact ⟨_, hrun, ⟨x, hx, hstate⟩, htell⟩

end SmartLock
