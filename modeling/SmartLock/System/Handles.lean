import SmartLock.Model.NvsHandles

/-!
# The handles of the flash store

Every function of `nvs_util.c` opens one handle, and closes it on its last
line if at all. The functions keep to the handles they were given, so a run
settles its handles exactly if every call does; and a call does where the
store is not opened at all, or where it writes, and the write and the
commit succeed. The functions that read never close.
-/

namespace SmartLock

namespace Nvs

open Prog Ledger

variable {W : World} {n n' : NvsSys} {s s' : Sys} {err : Int}

/-! ## The store the lock runs on -/

/-- A program with handles does to the lock what one without does. -/
abbrev MirrorsLock {α β : Type} (f : α → β) (m : Prog NvsSys Fault α) (m₀ : M β) : Prop :=
  Mirrors NvsSys.sys f m m₀

theorem onLock_mirrors {α : Type} (m : M α) : MirrorsLock id (onLock m) m :=
  .zoom fun _ _ => rfl

theorem nvsCall_mirrors {f : NvsSys → NvsSys} {f₀ : Sys → Sys} (h : ∀ n, (f n).sys = f₀ n.sys) :
    MirrorsLock id (nvsCall W f) (SmartLock.nvsCall W f₀) := by
  refine .bind (onLock_mirrors tick) fun t => ?_
  rcases ht : W.nvsError t with _ | e
  · simp only [id, ht]
    exact .bind (.modify h) fun _ => .pure _
  · simp only [id, ht]
    exact .pure _

theorem nvsFlashErase_mirrors : MirrorsLock id (nvsFlashErase W) (SmartLock.nvsFlashErase W) := by
  refine .bind_quiet (onLock_mirrors _) fun err => ?_
  by_cases herr : err = espOk
  · rw [if_pos herr]
    exact .modify_bind (fun _ => rfl) (.pure _)
  · rw [if_neg herr]
    exact .pure _

theorem espErrorCheck_mirrors : MirrorsLock id (onLock (espErrorCheck err)) (espErrorCheck err) :=
  onLock_mirrors _

theorem initNvs_mirrors : MirrorsLock id (initNvs W) (SmartLock.initNvs W) := by
  refine .bind (nvsCall_mirrors fun _ => rfl) fun err => .ite (fun _ => ?_) fun _ =>
    .bind espErrorCheck_mirrors fun _ => .pure _
  refine .bind nvsFlashErase_mirrors fun erased => .bind espErrorCheck_mirrors fun _ => ?_
  exact .bind (nvsCall_mirrors fun _ => rfl) fun _ => .bind espErrorCheck_mirrors fun _ => .pure _

theorem openNvs_mirrors : MirrorsLock Prod.fst (openNvs W) (SmartLock.openNvs W) := by
  refine .get_bind fun n => .bind_quiet (onLock_mirrors _) fun err => ?_
  by_cases herr : err = espOk
  · rw [if_pos herr]
    exact .modify_bind (fun _ => rfl) (.pure (err, n.ledger.given))
  · rw [if_neg herr]
    exact .pure (err, n.ledger.given)

theorem nvsClose_mirrors (h : ℕ) : MirrorsLock id (nvsClose h) SmartLock.nvsClose :=
  .bind_quiet (onLock_mirrors _) fun _ => .modify_bind (fun _ => rfl) (.pure ())

theorem initAndOpen_mirrors : MirrorsLock Prod.fst (initAndOpen W) (SmartLock.initAndOpen W) :=
  .bind initNvs_mirrors fun err => .ite
    (fun _ => .get_bind fun n => .pure (err, n.ledger.given)) fun _ => openNvs_mirrors

theorem nvsStore_mirrors {write : Prog NvsSys Fault Int} {write₀ : M Int}
    (hwrite : MirrorsLock id write write₀) :
    MirrorsLock id (nvsStore W write) (SmartLock.nvsStore W write₀) := by
  refine .bind initAndOpen_mirrors fun r => .ite (fun _ => .pure _) fun _ => ?_
  refine .bind hwrite fun err => .ite (fun _ => .pure _) fun _ => ?_
  refine .bind (nvsCall_mirrors fun _ => rfl) fun err => .ite (fun _ => .pure _) fun _ => ?_
  exact .bind (nvsClose_mirrors _) fun _ => .pure _

/-- **The functions the lock calls do to it what they do without their
handles**, with the same results. -/
theorem setAuthorization_mirrors (auth : Authorization) :
    MirrorsLock id (setAuthorization W auth) (SmartLock.setAuthorization W auth) :=
  nvsStore_mirrors (onLock_mirrors _)

theorem setLockState_mirrors (lockState : Int) :
    MirrorsLock id (setLockState W lockState) (SmartLock.setLockState W lockState) :=
  nvsStore_mirrors (onLock_mirrors _)

theorem getAuthorization_mirrors (phoneId : CStr) (auth : Authorization) :
    MirrorsLock id (getAuthorization W phoneId auth)
      (SmartLock.getAuthorization W phoneId auth) := by
  refine .bind initAndOpen_mirrors fun r => .ite (fun _ => .pure _) fun _ => ?_
  refine .bind (onLock_mirrors _) fun r => .ite (fun _ => .pure _) fun _ =>
    .ite (fun _ => .pure _) fun _ => ?_
  exact .bind (onLock_mirrors _) fun r => .ite (fun _ => .pure _) fun _ => .pure _

theorem lockLock_mirrors : MirrorsLock id (lockLock W) (SmartLock.lockLock W) :=
  .bind (setLockState_mirrors _) fun _ => onLock_mirrors _

theorem getLockState_mirrors : MirrorsLock id (getLockState W) (SmartLock.getLockState W) := by
  refine .bind initAndOpen_mirrors fun r => .ite (fun _ => .pure _) fun _ => ?_
  refine .bind (onLock_mirrors _) fun r => .ite (fun _ => ?_) fun _ => .pure _
  exact .bind lockLock_mirrors fun _ => .pure _

/-! ## Opening the store -/

theorem onLock_ok {α : Type} {m : M α} {a : α} :
    (onLock m).run n = (.ok a, n') ↔ ∃ s, m.run n.sys = (.ok a, s) ∧ n' = { n with sys := s } :=
  zoom_ok

/-- The next moment. -/
def NvsSys.ticked (n : NvsSys) : NvsSys := { n with sys := n.sys.ticked }

@[simp] theorem NvsSys.ticked_moment (n : NvsSys) : n.ticked.sys.moment = n.sys.moment + 1 := rfl

@[simp] theorem NvsSys.ticked_ledger (n : NvsSys) : n.ticked.ledger = n.ledger := rfl

@[simp] theorem run_onLock_tick_bind {α : Type} (k : ℕ → Prog NvsSys Fault α) (n : NvsSys) :
    (onLock tick >>= k).run n = (k n.sys.moment).run n.ticked := rfl

/-- A call of the driver succeeds or does nothing. -/
theorem nvsCall_ok {f : NvsSys → NvsSys} (hrun : (nvsCall W f).run n = (.ok err, n')) :
    (err = espOk ∧ W.nvsError n.sys.moment = none ∧ n' = f n.ticked) ∨
      (err ≠ espOk ∧ W.nvsError n.sys.moment ≠ none ∧ n' = n.ticked) := by
  rw [nvsCall, run_onLock_tick_bind] at hrun
  rcases he : W.nvsError n.sys.moment with _ | e
  · rw [he] at hrun
    cases hrun
    exact .inl ⟨rfl, rfl, rfl⟩
  · rw [he] at hrun
    cases hrun
    exact .inr ⟨e.ne_ok, Option.some_ne_none e, rfl⟩

/-- A call of the driver on what the lock has of the store. -/
theorem run_onLock_nvsCall (f : Sys → Sys) (n : NvsSys) :
    (onLock (SmartLock.nvsCall W f)).run n =
      (nvsCall W fun n => { n with sys := f n.sys }).run n := by
  change (((SmartLock.nvsCall W f).run n.sys).1,
    { n with sys := ((SmartLock.nvsCall W f).run n.sys).2 }) = _
  rw [nvsCall, run_onLock_tick_bind, SmartLock.nvsCall, run_tick_bind]
  cases W.nvsError n.sys.moment <;> rfl

theorem onLock_espErrorCheck_ok (hrun : (onLock (espErrorCheck err)).run n = (.ok (), n')) :
    err = espOk ∧ n' = n := by
  obtain ⟨s, hrun, rfl⟩ := onLock_ok.1 hrun
  rw [espErrorCheck] at hrun
  by_cases herr : err = espOk
  · rw [if_pos herr] at hrun
    cases hrun
    exact ⟨herr, rfl⟩
  · rw [if_neg herr] at hrun
    cases hrun

/-- The moment of `nvs_open`, in a call that begins at this one: an error of
the first call of the driver that is not fatal takes two more. -/
def openedAt (W : World) (moment : ℕ) : ℕ :=
  if W.nvsError moment = none then moment + 1 else moment + 3

/-- The store is initialised: it is as it was, or was erased. -/
structure Initialised (W : World) (n n' : NvsSys) : Prop where
  moment : n'.sys.moment = openedAt W n.sys.moment
  ledger : n'.ledger = n.ledger
  kept : W.nvsError n.sys.moment = none →
    n'.sys.authorizations = n.sys.authorizations ∧ n'.savedWifi = n.savedWifi
  erased : W.nvsError n.sys.moment ≠ none →
    (∀ phoneId, n'.sys.authorizations phoneId = none) ∧ n'.savedWifi = none

/-- An erasure. -/
theorem nvsFlashErase_ok (hrun : (nvsFlashErase W).run n = (.ok espOk, n')) :
    n'.sys.moment = n.sys.moment + 1 ∧ n'.ledger = n.ledger ∧
      (∀ phoneId, n'.sys.authorizations phoneId = none) ∧ n'.savedWifi = none := by
  rw [nvsFlashErase, bind_ok] at hrun
  obtain ⟨err, n₁, hdriver, hrest⟩ := hrun
  obtain ⟨s, herase, rfl⟩ := onLock_ok.1 hdriver
  by_cases herr : err = espOk
  · rw [if_pos herr] at hrest
    cases hrest
    rw [SmartLock.nvsFlashErase, SmartLock.nvsCall, run_bind_bind, run_tick_bind] at herase
    rcases he : W.nvsError n.sys.moment with _ | e
    · rw [he] at herase
      cases herase
      exact ⟨rfl, rfl, fun _ => rfl, rfl⟩
    · rw [he, pure_bind, observeIf, if_neg e.ne_ok] at herase
      exact absurd (Except.ok.inj (Prod.mk.inj herase).1) e.ne_ok
  · rw [if_neg herr] at hrest
    cases hrest
    exact absurd rfl herr

/-- **`init_nvs` returns with the store initialised**, or not at all. -/
theorem initNvs_ok (hrun : (initNvs W).run n = (.ok err, n')) :
    err = espOk ∧ Initialised W n n' := by
  rw [initNvs, bind_ok] at hrun
  obtain ⟨err₁, n₁, hinit, hrest⟩ := hrun
  rcases nvsCall_ok hinit with ⟨rfl, hnone, rfl⟩ | ⟨herr, hsome, rfl⟩
  · rw [if_neg (by decide)] at hrest
    obtain ⟨_, n₂, hcheck, hret⟩ := bind_ok.1 hrest
    obtain ⟨-, rfl⟩ := onLock_espErrorCheck_ok hcheck
    cases hret
    exact ⟨rfl, (if_pos hnone).symm, rfl, fun _ => ⟨rfl, rfl⟩, absurd hnone⟩
  · split at hrest
    · obtain ⟨erased, n₂, herase, hthen⟩ := bind_ok.1 hrest
      obtain ⟨_, n₃, hcheck, hretry⟩ := bind_ok.1 hthen
      obtain ⟨rfl, rfl⟩ := onLock_espErrorCheck_ok hcheck
      obtain ⟨hmoment, hledger, hauth, hwifi⟩ := nvsFlashErase_ok herase
      obtain ⟨err₂, n₄, hagain, hlast⟩ := bind_ok.1 hretry
      obtain ⟨_, n₅, hcheck', hret⟩ := bind_ok.1 hlast
      obtain ⟨rfl, rfl⟩ := onLock_espErrorCheck_ok hcheck'
      cases hret
      rcases nvsCall_ok hagain with ⟨-, -, rfl⟩ | ⟨hne, -, -⟩
      · refine ⟨rfl, ?_, hledger, fun hnone => absurd hnone hsome, fun _ => ⟨hauth, hwifi⟩⟩
        rw [openedAt, if_neg hsome]
        exact congrArg (· + 1) hmoment
      · exact absurd rfl hne
    -- any other error is fatal
    · obtain ⟨_, n₂, hcheck, hret⟩ := bind_ok.1 hrest
      exact absurd (onLock_espErrorCheck_ok hcheck).1 herr

/-- The store, opened: a handle more. -/
def NvsSys.opened (n : NvsSys) : NvsSys :=
  { n with
    sys := { n.sys.ticked with openHandles := n.sys.openHandles + 1 }
    ledger := n.ledger.give }

/-- **The store is initialised, and opened or not.** -/
theorem initAndOpen_ok {r : Int × ℕ} (hrun : (initAndOpen W).run n = (.ok r, n')) :
    ∃ o, Initialised W n o ∧
      ((r = (espOk, o.ledger.given) ∧ W.nvsError o.sys.moment = none ∧ n' = o.opened) ∨
        (r.1 ≠ espOk ∧ W.nvsError o.sys.moment ≠ none ∧ n' = o.ticked)) := by
  rw [initAndOpen, bind_ok] at hrun
  obtain ⟨err, o, hinit, hrest⟩ := hrun
  obtain ⟨rfl, ho⟩ := initNvs_ok hinit
  refine ⟨o, ho, ?_⟩
  rw [if_neg (by decide), openNvs, run_get_bind, bind_ok] at hrest
  obtain ⟨err, n₁, hopen, hret⟩ := hrest
  rw [SmartLock.openNvs, run_onLock_nvsCall] at hopen
  rcases nvsCall_ok hopen with ⟨rfl, hnone, rfl⟩ | ⟨herr, hsome, rfl⟩
  · cases hret
    exact .inl ⟨rfl, hnone, rfl⟩
  · rw [if_neg herr] at hret
    cases hret
    exact .inr ⟨herr, hsome, rfl⟩

/-! ## What the functions do to the ledger -/

/-- No handle is given or closed. -/
def quiet : Frame NvsSys where
  rel n n' := n'.ledger = n.ledger
  refl _ := rfl
  trans h₁ h₂ := h₂.trans h₁

theorem onLock_quiet {α : Type} (m : M α) : Steps quiet (onLock m) := fun _ => rfl

theorem nvsGetSavedWifi_quiet : Steps quiet (nvsGetSavedWifi W) := by
  refine .bind (onLock_quiet _) fun t => ?_
  cases W.nvsError t with
  | some e => exact .pure _
  | none =>
    refine .bind .get fun n => ?_
    cases n.savedWifi with
    | none => exact .pure _
    | some wifiConfig => exact .pure _

theorem quiet_own {α : Type} {m : Prog NvsSys Fault α} (hm : Steps quiet m) {a : α}
    (hrun : m.run n = (.ok a, n')) : Own n.ledger n'.ledger := by
  rw [show n'.ledger = n.ledger from hm.of_ok hrun]
  exact .refl _

/-- **A function that opens the store and does not close it** settles
nothing, where the store opens. -/
theorem leaves_open {α : Type} {g : Int → α} {rest : Prog NvsSys Fault α} {a : α}
    (hrest : ∀ n n' a, rest.run n = (.ok a, n') → Own n.ledger n'.ledger)
    (hrun : (initAndOpen W >>= fun r => if r.1 ≠ espOk then pure (g r.1) else rest).run n =
      (.ok a, n')) :
    Own n.ledger n'.ledger ∧
      (Settled n.ledger n'.ledger ↔ W.nvsError (openedAt W n.sys.moment) ≠ none) := by
  obtain ⟨r, n₁, hopen, hthen⟩ := bind_ok.1 hrun
  obtain ⟨o, ho, ⟨rfl, hnone, rfl⟩ | ⟨herr, hsome, rfl⟩⟩ := initAndOpen_ok hopen
  · rw [if_neg (not_not.2 rfl)] at hthen
    have hown : Own n.ledger.give n'.ledger := ho.ledger ▸ hrest _ _ _ hthen
    refine ⟨(Own.give _).trans hown, iff_of_false (not_settled_of_give hown) fun hne => hne ?_⟩
    rw [← ho.moment, hnone]
  · rw [if_pos herr] at hthen
    cases hthen
    rw [NvsSys.ticked_ledger, ho.ledger]
    exact ⟨.refl _, iff_of_true (.refl _) (ho.moment ▸ hsome)⟩

/-- A call of the driver that writes, where `Q` holds and the driver lets
it. -/
structure Writes (W : World) (Q : NvsSys → Prop) (write : Prog NvsSys Fault Int) : Prop where
  quiet : Steps quiet write
  ok_iff : ∀ n n' err, write.run n = (.ok err, n') →
    (err = espOk ↔ Q n ∧ W.nvsError n.sys.moment = none)
  moment : ∀ n n', write.run n = (.ok espOk, n') → n'.sys.moment = n.sys.moment + 1

/-- The write and the commit succeed, in a store that was initialised as
`o` and opened. -/
def Committed (W : World) (Q : NvsSys → Prop) (o : NvsSys) : Prop :=
  Q o.opened ∧ W.nvsError (o.sys.moment + 1) = none ∧ W.nvsError (o.sys.moment + 2) = none

/-- **What a function that writes comes to**: the store does not open, or
the handle is left open, or it is closed. -/
theorem nvsStore_ok {write : Prog NvsSys Fault Int} {Q : NvsSys → Prop}
    (hwrite : Writes W Q write) (hrun : (nvsStore W write).run n = (.ok err, n')) :
    ∃ o, Initialised W n o ∧
      (W.nvsError o.sys.moment ≠ none ∧ n'.ledger = o.ledger ∨
        W.nvsError o.sys.moment = none ∧ ¬ Committed W Q o ∧ n'.ledger = o.ledger.give ∨
        W.nvsError o.sys.moment = none ∧ Committed W Q o ∧
          n'.ledger = o.ledger.give.close o.ledger.given) := by
  rw [nvsStore, bind_ok] at hrun
  obtain ⟨⟨err₀, myHandle⟩, n₁, hopen, hafter⟩ := hrun
  obtain ⟨o, ho, ⟨hr, hnone, rfl⟩ | ⟨herr, hsome, rfl⟩⟩ := initAndOpen_ok hopen
  · cases hr
    refine ⟨o, ho, .inr ?_⟩
    simp only [ne_eq, not_true, if_false] at hafter
    obtain ⟨err₁, n₁, hwr, hthen⟩ := bind_ok.1 hafter
    have hquiet : n₁.ledger = o.ledger.give := hwrite.quiet.of_ok hwr
    have hok := hwrite.ok_iff _ _ _ hwr
    by_cases herr : err₁ = espOk
    · subst herr
      obtain ⟨hQ, hnone₁⟩ := hok.1 rfl
      have hmoment : n₁.sys.moment = o.sys.moment + 2 := hwrite.moment _ _ hwr
      simp only [not_true, if_false] at hthen
      obtain ⟨err₂, n₂, hcommit, hlast⟩ := bind_ok.1 hthen
      rcases nvsCall_ok hcommit with ⟨rfl, hnone₂, rfl⟩ | ⟨herr₂, hsome₂, rfl⟩
      -- the only way to the close
      · simp only [not_true, if_false] at hlast
        cases hlast
        exact .inr ⟨hnone, ⟨hQ, hnone₁, hmoment ▸ hnone₂⟩, congrArg (Ledger.close _) hquiet⟩
      · rw [if_pos herr₂] at hlast
        cases hlast
        exact .inl ⟨hnone, fun h => hsome₂ (hmoment ▸ h.2.2), hquiet⟩
    · rw [if_pos herr] at hthen
      cases hthen
      exact .inl ⟨hnone, fun h => herr (hok.2 ⟨h.1, h.2.1⟩), hquiet⟩
  · replace herr : err₀ ≠ espOk := herr
    simp only [if_pos herr] at hafter
    cases hafter
    exact ⟨o, ho, .inl ⟨hsome, rfl⟩⟩

/-- **A function that writes settles its handle exactly if the write and the
commit succeed**, where the store opens. -/
theorem nvsStore_settled_iff {write : Prog NvsSys Fault Int} {Q : NvsSys → Prop} {P : Prop}
    (hwrite : Writes W Q write) (hQ : ∀ o, Initialised W n o → (Q o.opened ↔ P))
    (hrun : (nvsStore W write).run n = (.ok err, n')) :
    Own n.ledger n'.ledger ∧ (Settled n.ledger n'.ledger ↔
      W.nvsError (openedAt W n.sys.moment) ≠ none ∨ P ∧
        W.nvsError (openedAt W n.sys.moment + 1) = none ∧
        W.nvsError (openedAt W n.sys.moment + 2) = none) := by
  obtain ⟨o, ho, hcase⟩ := nvsStore_ok hwrite hrun
  rw [← hQ o ho, ← ho.moment, ← ho.ledger]
  rcases hcase with ⟨hsome, hledger⟩ | ⟨hnone, hnot, hledger⟩ | ⟨hnone, hdone, hledger⟩
  · rw [hledger]
    exact ⟨.refl _, iff_of_true (.refl _) (.inl hsome)⟩
  · rw [hledger]
    refine ⟨.give _, iff_of_false (not_settled_of_give (.refl _)) fun h => ?_⟩
    exact h.elim (absurd hnone) hnot
  · rw [hledger]
    obtain ⟨hown, hsettled⟩ := give_close_settled o.ledger
    exact ⟨hown, iff_of_true hsettled (.inr hdone)⟩

/-! ## The calls that write -/

theorem nvsCall_writes {f : NvsSys → NvsSys} (hledger : ∀ n, (f n).ledger = n.ledger)
    (hmoment : ∀ n, (f n).sys.moment = n.sys.moment) :
    Writes W (fun _ => True) (nvsCall W f) where
  quiet := by
    refine .bind (onLock_quiet _) fun t => ?_
    cases W.nvsError t with
    | some e => exact .pure _
    | none => exact .bind (.modify hledger) fun _ => .pure _
  ok_iff n n' err hrun := by
    rcases nvsCall_ok hrun with ⟨rfl, hnone, -⟩ | ⟨herr, hsome, -⟩
    · exact iff_of_true rfl ⟨trivial, hnone⟩
    · exact iff_of_false herr fun h => hsome h.2
  moment n n' hrun := by
    rcases nvsCall_ok hrun with ⟨-, -, rfl⟩ | ⟨herr, -, -⟩
    · exact hmoment _
    · exact absurd rfl herr

theorem nvsEraseKey_writes {stored : NvsSys → Bool} {erase : NvsSys → NvsSys}
    (hledger : ∀ n, (erase n).ledger = n.ledger)
    (hmoment : ∀ n, (erase n).sys.moment = n.sys.moment)
    (hstored : ∀ n : NvsSys, stored n.ticked = stored n) :
    Writes W (fun n => stored n = true) (nvsEraseKey W stored erase) where
  quiet := by
    refine .bind (onLock_quiet _) fun t => ?_
    cases W.nvsError t with
    | some e => exact .pure _
    | none =>
      exact .bind .get fun n => .ite (fun _ => .bind (.modify hledger) fun _ => .pure _)
        fun _ => .pure _
  ok_iff n n' err hrun := by
    rw [nvsEraseKey, run_onLock_tick_bind] at hrun
    rcases he : W.nvsError n.sys.moment with _ | e
    · rw [he, run_get_bind, hstored] at hrun
      cases hstore : stored n <;> rw [hstore] at hrun <;> cases hrun
      · exact iff_of_false (by decide) fun h => by cases h.1
      · exact iff_of_true rfl ⟨rfl, rfl⟩
    · rw [he] at hrun
      cases hrun
      exact iff_of_false e.ne_ok fun h => by cases h.2
  moment n n' hrun := by
    rw [nvsEraseKey, run_onLock_tick_bind] at hrun
    rcases he : W.nvsError n.sys.moment with _ | e
    · rw [he, run_get_bind] at hrun
      split at hrun
      · cases hrun
        exact hmoment _
      · cases hrun
    · rw [he] at hrun
      exact absurd (Except.ok.inj (Prod.mk.inj hrun).1) e.ne_ok

theorem onLock_nvsCall_writes {f : Sys → Sys} (hmoment : ∀ s, (f s).moment = s.moment) :
    Writes W (fun _ => True) (onLock (SmartLock.nvsCall W f)) where
  quiet := onLock_quiet _
  ok_iff n n' err hrun := by
    rw [run_onLock_nvsCall] at hrun
    exact (nvsCall_writes (fun _ => by rfl) fun n => by exact hmoment n.sys).ok_iff n n' err hrun
  moment n n' hrun := by
    rw [run_onLock_nvsCall] at hrun
    exact (nvsCall_writes (fun _ => by rfl) fun n => by exact hmoment n.sys).moment n n' hrun

/-- A key that is too long is refused before the driver is asked. -/
theorem nvsSetBlob_writes (key : CStr) (auth : Authorization) :
    Writes W (fun _ => key.length ≤ nvsKeyMax) (onLock (nvsSetBlob W key auth)) where
  quiet := onLock_quiet _
  ok_iff n n' err hrun := by
    rw [nvsSetBlob] at hrun
    by_cases hlong : nvsKeyMax < key.length
    · rw [if_pos hlong] at hrun
      cases hrun
      exact iff_of_false (by decide) fun h => hlong.not_ge h.1
    · rw [if_neg hlong] at hrun
      rw [(onLock_nvsCall_writes fun _ => by rfl).ok_iff n n' err hrun, and_iff_right trivial]
      exact (and_iff_right (Nat.le_of_not_lt hlong)).symm
  moment n n' hrun := by
    rw [nvsSetBlob] at hrun
    by_cases hlong : nvsKeyMax < key.length
    · rw [if_pos hlong] at hrun
      cases hrun
    · rw [if_neg hlong] at hrun
      exact (onLock_nvsCall_writes fun _ => by rfl).moment n n' hrun

/-- What is stored before the call is there to be erased, unless the store
is erased first. -/
theorem kept_isSome_iff {α : Type} {x x' : Option α}
    (hkept : W.nvsError n.sys.moment = none → x' = x)
    (herased : W.nvsError n.sys.moment ≠ none → x' = none) :
    x'.isSome = true ↔ W.nvsError n.sys.moment = none ∧ x ≠ none := by
  by_cases hnone : W.nvsError n.sys.moment = none
  · rw [hkept hnone, Option.isSome_iff_ne_none, and_iff_right hnone]
  · rw [herased hnone]
    exact iff_of_false Bool.false_ne_true fun h => hnone h.1

/-! ## Every call -/

/-- The store takes what a call writes: a key that is not too long, one that
is there to be erased. A call that reads writes nothing. -/
def NvsCall.Storable (W : World) (n : NvsSys) : NvsCall → Prop
  | .setAuthorization auth => auth.phone.length ≤ nvsKeyMax
  | .deleteAuthorization phoneId =>
    W.nvsError n.sys.moment = none ∧ n.sys.authorizations phoneId ≠ none
  | .deleteSavedWifi => W.nvsError n.sys.moment = none ∧ n.savedWifi ≠ none
  | .setSavedWifi _ | .setLockState _ => True
  | .getAuthorization .. | .getSavedWifi _ | .getLockState => False

/-- A call closes what it opens: the store does not open, or the call
writes, and neither the write nor the commit fails. -/
def Closes (W : World) (c : NvsCall) (n : NvsSys) : Prop :=
  W.nvsError (openedAt W n.sys.moment) ≠ none ∨ c.Storable W n ∧
    W.nvsError (openedAt W n.sys.moment + 1) = none ∧
    W.nvsError (openedAt W n.sys.moment + 2) = none

theorem discard_ok {α : Type} {m : Prog NvsSys Fault α} (hrun : (discard m).run n = (.ok (), n')) :
    ∃ a, m.run n = (.ok a, n') := by
  rw [discard, bind_ok] at hrun
  obtain ⟨a, n₁, hrun, hret⟩ := hrun
  cases hret
  exact ⟨a, hrun⟩

theorem nvsLoad_settled_iff {β : Type} {read : Prog NvsSys Fault (Int × Option β)}
    {kept left : Option β} {r : Int × Option β} (hread : Steps quiet read)
    (hrun : (nvsLoad W read kept left).run n = (.ok r, n')) :
    Own n.ledger n'.ledger ∧
      (Settled n.ledger n'.ledger ↔ W.nvsError (openedAt W n.sys.moment) ≠ none) := by
  refine leaves_open (g := fun err => (err, kept)) (fun n n' r hload => quiet_own ?_ hload) hrun
  refine .bind hread fun r => .ite (fun _ => .pure _) fun _ => .ite (fun _ => .pure _) fun _ => ?_
  exact .bind hread fun r => .ite (fun _ => .pure _) fun _ => .pure _

theorem setLockState_settled_iff {lockState : Int}
    (hrun : (setLockState W lockState).run n = (.ok err, n')) :
    Own n.ledger n'.ledger ∧
      (Settled n.ledger n'.ledger ↔ Closes W (.setLockState lockState) n) :=
  nvsStore_settled_iff (onLock_nvsCall_writes fun _ => by rfl) (fun _ _ => Iff.rfl) hrun

/-- `lock_lock` opens a handle of its own, and leaves the first one. -/
theorem getLockState_settled_iff {lockState : Int}
    (hrun : (getLockState W).run n = (.ok lockState, n')) :
    Own n.ledger n'.ledger ∧
      (Settled n.ledger n'.ledger ↔ W.nvsError (openedAt W n.sys.moment) ≠ none) := by
  refine leaves_open (g := id) (fun n n' a hread => ?_) hrun
  obtain ⟨r, n₁, hget, hthen⟩ := bind_ok.1 hread
  refine (quiet_own (onLock_quiet _) hget).trans ?_
  by_cases herr : r.1 = espErrNvsNotFound
  · simp only [if_pos herr] at hthen
    obtain ⟨_, n₂, hlock, hret⟩ := bind_ok.1 hthen
    obtain ⟨err, n₃, hset, hobserve⟩ := bind_ok.1 hlock
    cases hret
    exact (setLockState_settled_iff hset).1.trans (quiet_own (onLock_quiet _) hobserve)
  · simp only [if_neg herr] at hthen
    exact quiet_own (.pure _) hthen

/-- **What each call settles.** It keeps to its own handles in any case. -/
theorem serve_settled_iff {c : NvsCall} (hrun : (serve W c).run n = (.ok (), n')) :
    Own n.ledger n'.ledger ∧ (Settled n.ledger n'.ledger ↔ Closes W c n) := by
  have hread : (Settled n.ledger n'.ledger ↔ W.nvsError (openedAt W n.sys.moment) ≠ none) →
      c.Storable W n = False → (Settled n.ledger n'.ledger ↔ Closes W c n) := by
    intro h hnot
    rw [h, Closes, hnot, false_and, or_false]
  cases c with
  | getAuthorization phoneId auth =>
    obtain ⟨r, hrun⟩ := discard_ok hrun
    exact (nvsLoad_settled_iff (onLock_quiet _) hrun).imp id fun h => hread h rfl
  | setAuthorization auth =>
    obtain ⟨err, hrun⟩ := discard_ok hrun
    exact nvsStore_settled_iff (nvsSetBlob_writes _ _) (fun _ _ => Iff.rfl) hrun
  | deleteAuthorization phoneId =>
    obtain ⟨err, hrun⟩ := discard_ok hrun
    refine nvsStore_settled_iff
      (nvsEraseKey_writes (fun _ => by rfl) (fun _ => by rfl) fun _ => by rfl) (fun o ho => ?_) hrun
    exact kept_isSome_iff (fun hnone => congrFun (ho.kept hnone).1 phoneId)
      fun hsome => (ho.erased hsome).1 phoneId
  | getSavedWifi wifiConfig =>
    obtain ⟨r, hrun⟩ := discard_ok hrun
    exact (nvsLoad_settled_iff nvsGetSavedWifi_quiet hrun).imp id fun h => hread h rfl
  | setSavedWifi wifiConfig =>
    obtain ⟨err, hrun⟩ := discard_ok hrun
    exact nvsStore_settled_iff (nvsCall_writes (fun _ => by rfl) fun _ => by rfl)
      (fun _ _ => Iff.rfl) hrun
  | deleteSavedWifi =>
    obtain ⟨err, hrun⟩ := discard_ok hrun
    refine nvsStore_settled_iff
      (nvsEraseKey_writes (fun _ => by rfl) (fun _ => by rfl) fun _ => by rfl) (fun o ho => ?_) hrun
    exact kept_isSome_iff (fun hnone => (ho.kept hnone).2) fun hsome => (ho.erased hsome).2
  | getLockState =>
    obtain ⟨lockState, hrun⟩ := discard_ok hrun
    exact (getLockState_settled_iff hrun).imp id fun h => hread h rfl
  | setLockState lockState =>
    obtain ⟨err, hrun⟩ := discard_ok hrun
    exact setLockState_settled_iff hrun

/-! ## Runs -/

variable {calls : List NvsCall}

/-- When the call returns, every handle it opened has been closed, exactly
once. -/
def CallSettled (W : World) (c : NvsCall) (n : NvsSys) : Prop :=
  ∀ n', (serve W c).run n = (.ok (), n') → Settled n.ledger n'.ledger

/-- The handles of a run are balanced: each call has settled its own when it
returns, and so none of the run is left open. -/
structure HandlesBalanced (W : World) (calls : List NvsCall) (n n' : NvsSys) : Prop where
  each : Throughout (serve W) (CallSettled W) calls n
  whole : Settled n.ledger n'.ledger

theorem callSettled_iff {c : NvsCall} (hrun : (serve W c).run n = (.ok (), n')) :
    CallSettled W c n ↔ Closes W c n :=
  ⟨fun hall => (serve_settled_iff hrun).2.1 (hall n' hrun),
    fun hcloses _ hrun' => (serve_settled_iff hrun').2.2 hcloses⟩

/-- **No run closes a handle twice, or one that was open before it**, whatever
fails. -/
theorem run_own (hrun : (exec (serve W) calls).run n = (.ok (), n')) :
    Own n.ledger n'.ledger :=
  exec_own NvsSys.ledger (fun _ _ _ hserve => (serve_settled_iff hserve).1) hrun

/-- **The handles of a run are balanced exactly if every call of it closes
what it opens.** -/
theorem handlesBalanced_iff (hrun : (exec (serve W) calls).run n = (.ok (), n')) :
    HandlesBalanced W calls n n' ↔ Throughout (serve W) (Closes W) calls n := by
  have heach : Throughout (serve W) (CallSettled W) calls n ↔
      Throughout (serve W) (Closes W) calls n := by
    refine Throughout.congr (fun c n n₁ hserve => ?_) hrun
    exact callSettled_iff hserve
  have hwhole : Settled n.ledger n'.ledger ↔ Throughout (serve W) (CallSettled W) calls n :=
    exec_settled_iff NvsSys.ledger (fun _ _ _ hserve => (serve_settled_iff hserve).1) hrun
  rw [← heach]
  exact ⟨HandlesBalanced.each, fun hall => ⟨hall, hwhole.2 hall⟩⟩

/-- Before the first call. -/
def NvsSys.boot (sys : Sys) : NvsSys := ⟨sys, none, ⟨0, [], fun _ hmem => by cases hmem⟩⟩

/-- Two writes. -/
theorem handlesBalanced_two : HandlesBalanced (World.still .esp32s3 100)
    [.setLockState 0, .setLockState 1] (.boot Sys.initial)
    ((exec (serve (World.still .esp32s3 100)) [.setLockState 0, .setLockState 1]).run
      (.boot Sys.initial)).2 := by
  refine (handlesBalanced_iff rfl).2 (Throughout.of_forall fun c hc n => ?_)
  have hset : ∃ lockState, c = .setLockState lockState := by
    rcases List.mem_cons.1 hc with rfl | hc
    · exact ⟨0, rfl⟩
    · exact ⟨1, List.mem_singleton.1 hc⟩
  obtain ⟨lockState, rfl⟩ := hset
  exact .inr ⟨trivial, rfl, rfl⟩

/-- A store that holds a state of the door. -/
def NvsSys.lockedDoor : NvsSys := .boot { Sys.initial with lockState := some locked }

theorem getLockState_lockedDoor :
    (serve (World.still .esp32s3 100) .getLockState).run .lockedDoor =
      (.ok (), ((serve (World.still .esp32s3 100) .getLockState).run .lockedDoor).2) := rfl

/-- The state is read, and the handle stays open. -/
theorem getLockState_leaves_open : ¬ ∀ (W : World) (calls : List NvsCall) (n n' : NvsSys),
    (exec (serve W) calls).run n = (.ok (), n') → HandlesBalanced W calls n n' := by
  intro h
  have hbalanced := h (World.still .esp32s3 100) [.getLockState] .lockedDoor _
    (bind_ok.2 ⟨(), _, getLockState_lockedDoor, rfl⟩)
  rcases (callSettled_iff getLockState_lockedDoor).1 hbalanced.each.1 with hopen | ⟨hwrites, -⟩
  · exact hopen rfl
  · exact hwrites

end Nvs

end SmartLock
