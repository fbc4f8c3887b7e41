import SmartLock.Common.Couples
import SmartLock.Common.Register
import SmartLock.Footprint.Basic
import SmartLock.System.Handles

/-!
# What the flash store recalls

The store is erased where it cannot be initialised, a write may be made and
its commit fail, and the caller is told of an error, not of what became of
the write. Still the store recalls nothing that was not written: what a
call loads is what was there before or what a call wrote, and no write of
that key was acknowledged since.
-/

namespace SmartLock

namespace Nvs

open Prog

variable {W : World} {n n' n₁ n₂ : NvsSys} {err : Int} {c : NvsCall} {r : NvsResult}

/-! ## The cells -/

/-- The keys blobs are stored under. -/
inductive NvsKey
  | authorization (phoneId : CStr)
  | savedWifi
  deriving DecidableEq, Repr

/-- What is stored under a key. -/
def NvsSys.cell (n : NvsSys) : NvsKey → Option NvsValue
  | .authorization phoneId => (n.sys.authorizations phoneId).map .authorization
  | .savedWifi => n.savedWifi.map .wifi

/-- What a call writes, and under which key. -/
def NvsCall.writes : NvsCall → Option (NvsKey × Option NvsValue)
  | .setAuthorization auth => some (.authorization auth.phone, some (.authorization auth))
  | .deleteAuthorization phoneId => some (.authorization phoneId, none)
  | .setSavedWifi wifiConfig => some (.savedWifi, some (.wifi wifiConfig))
  | .deleteSavedWifi => some (.savedWifi, none)
  | _ => none

/-- The key a call reads. -/
def NvsCall.reads : NvsCall → Option NvsKey
  | .getAuthorization phoneId _ => some (.authorization phoneId)
  | .getSavedWifi _ => some .savedWifi
  | _ => none

/-- What each cell holds it held, or it holds nothing. -/
def lossy : Frame NvsSys where
  rel n n' := ∀ k, n'.cell k = n.cell k ∨ n'.cell k = none
  refl _ _ := .inl rfl
  trans h₁ h₂ k := by
    rcases h₂ k with h | h
    · rw [h]
      exact h₁ k
    · exact .inr h

/-- A call that wrote this, if anything, and returned this. -/
structure Wrote (target : Option (NvsKey × Option NvsValue)) (err : Int) (n n' : NvsSys) :
    Prop where
  left : ∀ k, n'.cell k = n.cell k ∨ n'.cell k = none ∨ target = some (k, n'.cell k)
  written : err = espOk → ∀ k w, target = some (k, w) → n'.cell k = w

variable {target : Option (NvsKey × Option NvsValue)} {k : NvsKey} {w : Option NvsValue}

theorem wrote_of_lossy (h : lossy.rel n n') (hno : err = espOk → target = none) :
    Wrote target err n n' where
  left k := (h k).imp id .inl
  written hok k w htarget := by rw [hno hok] at htarget; cases htarget

/-- What is lost before the write is no matter. -/
theorem Wrote.behind (h : Wrote target err n₁ n') (hlossy : lossy.rel n n₁) :
    Wrote target err n n' where
  left k := by
    rcases h.left k with heq | h
    · rw [heq]
      exact (hlossy k).imp id .inl
    · exact .inr h
  written := h.written

/-- What is said of the write later may be worse. -/
theorem Wrote.told {told : Int} (h : Wrote target err n n₁) (hcell : ∀ k, n'.cell k = n₁.cell k)
    (htold : told = espOk → err = espOk) : Wrote target told n n' where
  left k := by
    rw [hcell]
    exact h.left k
  written hok k w htarget := by
    rw [hcell]
    exact h.written (htold hok) k w htarget

/-! ## Opening the store -/

theorem Initialised.lossy (h : Initialised W n n') : lossy.rel n n' := by
  intro k
  by_cases hnone : W.nvsError n.sys.moment = none
  · obtain ⟨hauth, hwifi⟩ := h.kept hnone
    left
    cases k with
    | authorization phoneId => rw [NvsSys.cell, NvsSys.cell, hauth]
    | savedWifi => rw [NvsSys.cell, NvsSys.cell, hwifi]
  · obtain ⟨hauth, hwifi⟩ := h.erased hnone
    right
    cases k with
    | authorization phoneId => rw [NvsSys.cell, hauth, Option.map_none]
    | savedWifi => rw [NvsSys.cell, hwifi, Option.map_none]

theorem NvsSys.cell_ticked (n : NvsSys) (k : NvsKey) : n.ticked.cell k = n.cell k := by
  cases k <;> rfl

theorem NvsSys.cell_opened (n : NvsSys) (k : NvsKey) : n.opened.cell k = n.cell k := by
  cases k <;> rfl

theorem initAndOpen_lossy {r : Int × ℕ} (hrun : (initAndOpen W).run n = (.ok r, n')) :
    lossy.rel n n' := by
  obtain ⟨o, ho, ⟨-, -, rfl⟩ | ⟨-, -, rfl⟩⟩ := initAndOpen_ok hrun
  · exact fun k => o.cell_opened k ▸ ho.lossy k
  · exact fun k => o.cell_ticked k ▸ ho.lossy k

/-- **How every function begins**: it goes on with the store open, or gives
up with the error, and the cells are as they were or lost. -/
theorem initAndOpen_then {α : Type} {g : Int → α} {rest : Int × ℕ → Prog NvsSys Fault α} {a : α}
    (hrun : (initAndOpen W >>= fun p => if p.1 ≠ espOk then pure (g p.1) else rest p).run n =
      (.ok a, n')) :
    ∃ n₁, lossy.rel n n₁ ∧ ((∃ p, (rest p).run n₁ = (.ok a, n')) ∨
      ∃ err ≠ espOk, a = g err ∧ n' = n₁) := by
  obtain ⟨p, n₁, hopen, hafter⟩ := bind_ok.1 hrun
  refine ⟨n₁, initAndOpen_lossy hopen, ?_⟩
  by_cases herr : p.1 ≠ espOk
  · rw [if_pos herr] at hafter
    cases hafter
    exact .inr ⟨p.1, herr, rfl, rfl⟩
  · rw [if_neg herr] at hafter
    exact .inl ⟨p, hafter⟩

/-- What the lock does may lose authorizations, and nothing else. -/
theorem onLock_lossy {α : Type} {m : M α} {a : α}
    (hm : Within ⟨fun _ => True, True, True, True, False, True, fun _ => True⟩ m)
    (hrun : (onLock m).run n = (.ok a, n')) : lossy.rel n n' := by
  obtain ⟨s, hm', rfl⟩ := onLock_ok.1 hrun
  intro k
  cases k with
  | authorization phoneId =>
    refine ((hm.of_ok hm').store.resolve_left id phoneId).imp (fun h => ?_) fun h => ?_
    · exact congrArg (Option.map _) h
    · exact congrArg (Option.map _) h
  | savedWifi => exact .inl rfl

/-! ## Writing -/

/-- A call of the driver that writes under one key. -/
theorem nvsCall_wrote {f : NvsSys → NvsSys} (hself : ∀ n, (f n).cell k = w)
    (hothers : ∀ n, ∀ k' ≠ k, (f n).cell k' = n.cell k')
    (hrun : (nvsCall W f).run n = (.ok err, n')) : Wrote (some (k, w)) err n n' := by
  rcases nvsCall_ok hrun with ⟨-, -, rfl⟩ | ⟨herr, -, rfl⟩
  · refine ⟨fun k' => ?_, fun _ k' w' htarget => ?_⟩
    · rcases eq_or_ne k' k with rfl | hne
      · exact .inr (.inr (by rw [hself]))
      · exact .inl ((hothers _ k' hne).trans (n.cell_ticked k'))
    · cases htarget
      exact hself _
  · exact wrote_of_lossy (fun k => .inl (n.cell_ticked k)) fun hok => absurd hok herr

/-- An erasure: a key that is not there is erased too. -/
theorem nvsEraseKey_wrote {stored : NvsSys → Bool} {erase : NvsSys → NvsSys}
    (hself : ∀ n, (erase n).cell k = none)
    (hothers : ∀ n, ∀ k' ≠ k, (erase n).cell k' = n.cell k')
    (hrun : (nvsEraseKey W stored erase).run n = (.ok err, n')) :
    Wrote (some (k, none)) err n n' := by
  rw [nvsEraseKey, run_onLock_tick_bind] at hrun
  rcases he : W.nvsError n.sys.moment with _ | e
  · rw [he, run_get_bind] at hrun
    split at hrun
    · cases hrun
      refine ⟨fun k' => ?_, fun _ k' w' htarget => ?_⟩
      · rcases eq_or_ne k' k with rfl | hne
        · exact .inr (.inl (hself _))
        · exact .inl ((hothers _ k' hne).trans (n.cell_ticked k'))
      · cases htarget
        exact hself _
    · cases hrun
      exact wrote_of_lossy (fun k => .inl (n.cell_ticked k)) fun hok => absurd hok (by decide)
  · rw [he] at hrun
    cases hrun
    exact wrote_of_lossy (fun k => .inl (n.cell_ticked k)) fun hok => absurd hok e.ne_ok

/-- **A function that writes has written what its write has**, whatever it
returns. -/
theorem nvsStore_wrote {write : Prog NvsSys Fault Int}
    (hwrite : ∀ n n' err, write.run n = (.ok err, n') → Wrote target err n n')
    (hrun : (nvsStore W write).run n = (.ok err, n')) : Wrote target err n n' := by
  obtain ⟨n₁, hlossy, ⟨_, hafter⟩ | ⟨err₀, herr₀, rfl, rfl⟩⟩ := initAndOpen_then (g := id) hrun
  · obtain ⟨err₁, n₂, hwr, hthen⟩ := bind_ok.1 hafter
    have hwrote := (hwrite _ _ _ hwr).behind hlossy
    by_cases herr₁ : err₁ = espOk
    · rw [if_neg (not_not.2 herr₁)] at hthen
      obtain ⟨err₂, n₃, hcommit, hlast⟩ := bind_ok.1 hthen
      rcases nvsCall_ok hcommit with ⟨rfl, -, rfl⟩ | ⟨herr₂, -, rfl⟩
      · rw [if_neg (not_not.2 rfl)] at hlast
        cases hlast
        exact hwrote.told (fun k => by cases k <;> rfl) fun _ => herr₁
      · rw [if_pos herr₂] at hlast
        cases hlast
        exact hwrote.told (fun k => n₂.cell_ticked k) fun _ => herr₁
    · rw [if_pos herr₁] at hthen
      cases hthen
      exact hwrote
  · exact wrote_of_lossy hlossy fun hok => absurd hok herr₀

/-- An authorization is stored, or erased. -/
theorem NvsSys.cell_update {phoneId : CStr} {x : Option Authorization}
    (hauth : n'.sys.authorizations = Function.update n.sys.authorizations phoneId x) :
    n'.cell (.authorization phoneId) = x.map .authorization := by
  rw [NvsSys.cell, hauth, Function.update_self]

theorem NvsSys.cell_update_of_ne {phoneId : CStr} {x : Option Authorization}
    (hauth : n'.sys.authorizations = Function.update n.sys.authorizations phoneId x)
    (hwifi : n'.savedWifi = n.savedWifi) (hk : k ≠ .authorization phoneId) :
    n'.cell k = n.cell k := by
  cases k with
  | authorization q =>
    rw [NvsSys.cell, NvsSys.cell, hauth, Function.update_of_ne fun h => hk (congrArg _ h)]
  | savedWifi => rw [NvsSys.cell, NvsSys.cell, hwifi]

theorem setAuthorization_wrote {auth : Authorization}
    (hrun : (setAuthorization W auth).run n = (.ok err, n')) :
    Wrote (some (.authorization auth.phone, some (.authorization auth))) err n n' := by
  refine nvsStore_wrote (fun n n' err hwr => ?_) hrun
  rw [nvsSetBlob] at hwr
  by_cases hlong : nvsKeyMax < auth.phone.length
  · rw [if_pos hlong] at hwr
    cases hwr
    exact wrote_of_lossy (lossy.refl n) fun hok => absurd hok (by decide)
  · rw [if_neg hlong, run_onLock_nvsCall] at hwr
    refine nvsCall_wrote (fun m => ?_) (fun m k hk => ?_) hwr
    · exact NvsSys.cell_update (n := m) (x := some auth) (by rfl)
    · exact NvsSys.cell_update_of_ne (x := some auth) (by rfl) (by rfl) hk

theorem deleteAuthorization_wrote {phoneId : CStr}
    (hrun : (deleteAuthorization W phoneId).run n = (.ok err, n')) :
    Wrote (some (.authorization phoneId, none)) err n n' := by
  refine nvsStore_wrote (fun n n' err hwr => ?_) hrun
  refine nvsEraseKey_wrote (fun m => ?_) (fun m k hk => ?_) hwr
  · exact NvsSys.cell_update (n := m) (x := none) (by rfl)
  · exact NvsSys.cell_update_of_ne (x := none) (by rfl) (by rfl) hk

theorem setSavedWifi_wrote {wifiConfig : WifiConfig}
    (hrun : (setSavedWifi W wifiConfig).run n = (.ok err, n')) :
    Wrote (some (.savedWifi, some (.wifi wifiConfig))) err n n' := by
  refine nvsStore_wrote (fun n n' err hwr => ?_) hrun
  refine nvsCall_wrote (fun m => by rfl) (fun m k hk => ?_) hwr
  cases k with
  | authorization phoneId => rfl
  | savedWifi => exact absurd rfl hk

theorem deleteSavedWifi_wrote (hrun : (deleteSavedWifi W).run n = (.ok err, n')) :
    Wrote (some (.savedWifi, none)) err n n' := by
  refine nvsStore_wrote (fun n n' err hwr => ?_) hrun
  refine nvsEraseKey_wrote (fun m => by rfl) (fun m k hk => ?_) hwr
  cases k with
  | authorization phoneId => rfl
  | savedWifi => exact absurd rfl hk

theorem setLockState_wrote {lockState : Int}
    (hrun : (setLockState W lockState).run n = (.ok err, n')) : Wrote none err n n' := by
  refine nvsStore_wrote (fun n n' err hwr => wrote_of_lossy ?_ fun _ => rfl) hrun
  rw [run_onLock_nvsCall] at hwr
  rcases nvsCall_ok hwr with ⟨-, -, rfl⟩ | ⟨-, -, rfl⟩
  · exact fun k => .inl (by cases k <;> rfl)
  · exact fun k => .inl (n.cell_ticked k)

/-! ## Reading -/

/-- A call of the driver that reads a key: it changes no cell, and without an
error gives what the cell holds. -/
def Reads {β : Type} (k : NvsKey) (value : β → NvsValue)
    (read : Prog NvsSys Fault (Int × Option β)) : Prop :=
  ∀ n n' r, read.run n = (.ok r, n') → lossy.rel n n' ∧
    (r.1 = espOk → r.2 ≠ none ∧ r.2.map value = n'.cell k)

/-- **A function that reads gives what the cell holds**, where it gives no
error. -/
theorem nvsLoad_recalls {β : Type} {value : β → NvsValue}
    {read : Prog NvsSys Fault (Int × Option β)} {kept left : Option β} {r : Int × Option β}
    (hread : Reads k value read) (hrun : (nvsLoad W read kept left).run n = (.ok r, n')) :
    lossy.rel n n' ∧ (r.1 = espOk → r.2.map value = n'.cell k) := by
  obtain ⟨n₁, hlossy, ⟨_, hafter⟩ | ⟨err₀, herr₀, rfl, rfl⟩⟩ :=
    initAndOpen_then (g := fun err => (err, kept)) hrun
  · obtain ⟨⟨err₁, blob⟩, n₂, hlength, hthen⟩ := bind_ok.1 hafter
    obtain ⟨hlossy₁, hblob⟩ := hread _ _ _ hlength
    dsimp only at hthen
    by_cases herr₁ : err₁ ≠ espOk ∧ err₁ ≠ espErrNvsNotFound
    · rw [if_pos herr₁] at hthen
      cases hthen
      exact ⟨lossy.trans hlossy hlossy₁, fun hok => absurd hok herr₁.1⟩
    rw [if_neg herr₁] at hthen
    by_cases hnone : blob = none
    · rw [if_pos hnone] at hthen
      cases hthen
      exact ⟨lossy.trans hlossy hlossy₁, fun hok => absurd hnone (hblob hok).1⟩
    · rw [if_neg hnone] at hthen
      obtain ⟨⟨err₂, blob'⟩, n₃, hagain, hlast⟩ := bind_ok.1 hthen
      obtain ⟨hlossy₂, hblob'⟩ := hread _ _ _ hagain
      have htrans := lossy.trans (lossy.trans hlossy hlossy₁) hlossy₂
      dsimp only at hlast
      by_cases herr₂ : err₂ = espOk
      · rw [if_neg (not_not.2 herr₂)] at hlast
        cases hlast
        exact ⟨htrans, fun _ => (hblob' herr₂).2⟩
      · rw [if_pos herr₂] at hlast
        cases hlast
        exact ⟨htrans, fun hok => absurd hok herr₂⟩
  · exact ⟨hlossy, fun hok => absurd hok herr₀⟩

theorem nvsGetBlob_reads (phoneId : CStr) :
    Reads (.authorization phoneId) .authorization (onLock (nvsGetBlob W phoneId)) := by
  refine fun n n' r hrun => ⟨onLock_lossy nvsGetBlob_within hrun, fun hok => ?_⟩
  obtain ⟨s, hget, rfl⟩ := onLock_ok.1 hrun
  rw [nvsGetBlob, run_tick_bind] at hget
  rcases he : W.nvsError n.sys.moment with _ | e
  · rw [he, run_get_bind] at hget
    split at hget
    · cases hget
      exact absurd hok (by decide)
    · cases hauth : n.sys.ticked.authorizations phoneId with
      | none =>
        rw [hauth] at hget
        cases hget
        exact absurd hok (by decide)
      | some auth =>
        rw [hauth] at hget
        cases hget
        exact ⟨Option.some_ne_none _, (congrArg (Option.map _) hauth).symm⟩
  · rw [he] at hget
    cases hget
    exact absurd hok e.ne_ok

theorem nvsGetSavedWifi_reads : Reads .savedWifi .wifi (nvsGetSavedWifi W) := by
  intro n n' r hrun
  rw [nvsGetSavedWifi, run_onLock_tick_bind] at hrun
  rcases he : W.nvsError n.sys.moment with _ | e
  · rw [he, run_get_bind] at hrun
    cases hwifi : n.ticked.savedWifi with
    | none =>
      rw [hwifi] at hrun
      cases hrun
      exact ⟨fun k => .inl (n.cell_ticked k), fun hok => absurd hok (by decide)⟩
    | some wifiConfig =>
      rw [hwifi] at hrun
      cases hrun
      exact ⟨fun k => .inl (n.cell_ticked k), fun _ => ⟨Option.some_ne_none _,
        (congrArg (Option.map _) hwifi).symm⟩⟩
  · rw [he] at hrun
    cases hrun
    exact ⟨fun k => .inl (n.cell_ticked k), fun hok => absurd hok e.ne_ok⟩

theorem getLockState_lossy {lockState : Int}
    (hrun : (getLockState W).run n = (.ok lockState, n')) : lossy.rel n n' := by
  obtain ⟨n₁, hlossy, ⟨_, hafter⟩ | ⟨err₀, herr₀, rfl, rfl⟩⟩ := initAndOpen_then (g := id) hrun
  · obtain ⟨⟨err₁, stored⟩, n₂, hget, hthen⟩ := bind_ok.1 hafter
    have hlossy₁ := lossy.trans hlossy (onLock_lossy nvsGetLockState_within hget)
    by_cases hmissing : err₁ = espErrNvsNotFound
    · simp only [if_pos hmissing] at hthen
      obtain ⟨_, n₃, hlock, hret⟩ := bind_ok.1 hthen
      obtain ⟨err, n₄, hset, hobserve⟩ := bind_ok.1 hlock
      cases hret
      have hset : lossy.rel n₂ n₄ := fun k => by
        rcases (setLockState_wrote hset).left k with h | h | h
        · exact .inl h
        · exact .inr h
        · cases h
      obtain ⟨s, hnote, rfl⟩ := onLock_ok.1 hobserve
      cases hnote
      exact lossy.trans (lossy.trans hlossy₁ hset) fun k => .inl (by cases k <;> rfl)
    · simp only [if_neg hmissing] at hthen
      cases hthen
      exact hlossy₁
  · exact hlossy

/-! ## Every call -/

/-- **What a call leaves in the cells**: what it writes, or what was there,
or nothing. -/
theorem answer_wrote (hrun : (answer W c).run n = (.ok r, n')) : Wrote c.writes r.err n n' := by
  cases c with
  | getAuthorization phoneId auth =>
    obtain ⟨_, m, hload, hret⟩ := bind_ok.1 hrun
    cases hret
    exact wrote_of_lossy (nvsLoad_recalls (nvsGetBlob_reads phoneId) hload).1 fun _ => rfl
  | setAuthorization auth =>
    obtain ⟨_, m, hset, hret⟩ := bind_ok.1 hrun
    cases hret
    exact setAuthorization_wrote hset
  | deleteAuthorization phoneId =>
    obtain ⟨_, m, hdelete, hret⟩ := bind_ok.1 hrun
    cases hret
    exact deleteAuthorization_wrote hdelete
  | getSavedWifi wifiConfig =>
    obtain ⟨_, m, hload, hret⟩ := bind_ok.1 hrun
    cases hret
    exact wrote_of_lossy (nvsLoad_recalls nvsGetSavedWifi_reads hload).1 fun _ => rfl
  | setSavedWifi wifiConfig =>
    obtain ⟨_, m, hset, hret⟩ := bind_ok.1 hrun
    cases hret
    exact setSavedWifi_wrote hset
  | deleteSavedWifi =>
    obtain ⟨_, m, hdelete, hret⟩ := bind_ok.1 hrun
    cases hret
    exact deleteSavedWifi_wrote hdelete
  | getLockState =>
    obtain ⟨_, m, hget, hret⟩ := bind_ok.1 hrun
    cases hret
    exact wrote_of_lossy (getLockState_lossy hget) fun _ => rfl
  | setLockState lockState =>
    obtain ⟨_, m, hset, hret⟩ := bind_ok.1 hrun
    cases hret
    exact (setLockState_wrote hset).told (fun _ => rfl) id

/-- **What a call that reads returns** without an error is in the cell. -/
theorem answer_recalls (hrun : (answer W c).run n = (.ok r, n')) (hreads : c.reads = some k)
    (hok : r.err = espOk) : r.block = n'.cell k := by
  cases c with
  | getAuthorization phoneId auth =>
    cases hreads
    obtain ⟨_, m, hload, hret⟩ := bind_ok.1 hrun
    cases hret
    exact (nvsLoad_recalls (nvsGetBlob_reads phoneId) hload).2 hok
  | getSavedWifi wifiConfig =>
    cases hreads
    obtain ⟨_, m, hload, hret⟩ := bind_ok.1 hrun
    cases hret
    exact (nvsLoad_recalls nvsGetSavedWifi_reads hload).2 hok
  | setAuthorization _ | deleteAuthorization _ | setSavedWifi _ | deleteSavedWifi | getLockState
    | setLockState _ => cases hreads

/-! ## Runs -/

/-- The register of a key: the calls, each with what it returned, and
acknowledged where that was no error. -/
def register (k : NvsKey) : Register (NvsCall × NvsResult) NvsValue where
  writes e := e.1.writes.bind fun p => if p.1 = k then some p.2 else none
  acknowledged e := e.2.err = espOk

theorem register_writes :
    (register k).writes (c, r) = some w ↔ c.writes = some (k, w) := by
  show (c.writes.bind fun p => if p.1 = k then some p.2 else none) = some w ↔ _
  cases c.writes with
  | none => simp
  | some p =>
    obtain ⟨k', w'⟩ := p
    by_cases hk : k' = k
    · simp [hk]
    · simp [hk]

/-- A call that reads does not write. -/
theorem NvsCall.writes_of_reads (h : c.reads = some k) : c.writes = none := by
  cases c <;> first | rfl | cases h

theorem Wrote.turn (h : Wrote c.writes r.err n n') (k : NvsKey) :
    (register k).Turn (c, r) (n.cell k) (n'.cell k) where
  left := (h.left k).imp id (.imp id register_writes.2)
  written hok w hw := h.written hok k w (register_writes.1 hw)

variable {calls : List NvsCall} {rs : List NvsResult}

theorem run_of_fst {α : Type} {m : Prog NvsSys Fault α} {a : α} (h : (m.run n).1 = .ok a) :
    m.run n = (.ok a, (m.run n).2) := Prod.ext h rfl

/-- **Over a run of calls the cells are registers.** -/
theorem results_turns (hrun : (results (answer W) calls).run n = (.ok rs, n')) (k : NvsKey) :
    (register k).Turns (calls.zip rs) (n.cell k) (n'.cell k) := by
  induction calls generalizing n rs with
  | nil =>
    cases hrun
    exact .nil _
  | cons c calls ih =>
    obtain ⟨r, n₁, hcall, hrest⟩ := bind_ok.1 hrun
    obtain ⟨rs', n₂, hrun', hret⟩ := bind_ok.1 hrest
    cases hret
    exact .cons ((answer_wrote hcall).turn k) (ih hrun')

/-- **What is loaded was last written.** Whatever calls were made, and
whatever the driver did: what a call then loads without an error is what
the store held at the start or what one of the calls wrote, and behind that
no write or erasure of the key was acknowledged. -/
theorem loaded_lastWritten {v : NvsValue} (hrun : (results (answer W) calls).run n = (.ok rs, n₁))
    (hload : (answer W c).run n₁ = (.ok r, n')) (hreads : c.reads = some k) (hok : r.err = espOk)
    (hv : r.block = some v) : (register k).LastWritten (n.cell k) v (calls.zip rs) := by
  have hcell : n'.cell k = some v := (answer_recalls hload hreads hok).symm.trans hv
  have hno : (register k).writes (c, r) ≠ some (some v) := by
    rw [ne_eq, register_writes, NvsCall.writes_of_reads hreads]
    exact (Option.some_ne_none _).symm
  have hturn := (answer_wrote hload).turn k
  rw [hcell] at hturn
  have hheld := (hturn.found hno).1
  have hturns := results_turns hrun k
  rw [hheld] at hturns
  exact hturns.lastWritten

/-- A network. -/
def network (name : UInt8) : WifiConfig := ⟨Vector.replicate 32 name, Vector.replicate 64 name⟩

/-- Two networks are saved, and a phone forgotten that is not known. -/
def savesTwo : List NvsCall :=
  [.setSavedWifi (network 1), .setSavedWifi (network 2), .deleteAuthorization (lit "phone")]

/-- What is loaded then is the second. -/
theorem loaded_lastWritten_savesTwo :
    (register .savedWifi).LastWritten ((NvsSys.boot Sys.initial).cell .savedWifi)
      (.wifi (network 2))
      (savesTwo.zip [⟨espOk, none⟩, ⟨espOk, none⟩, ⟨espErrNvsNotFound, none⟩]) := by
  have hrun : ((results (answer (World.still .esp32s3 100)) savesTwo).run
      (.boot Sys.initial)).1 =
      .ok [⟨espOk, none⟩, ⟨espOk, none⟩, ⟨espErrNvsNotFound, none⟩] := by decide +kernel
  have hload : ((answer (World.still .esp32s3 100) (.getSavedWifi (network 0))).run
      ((results (answer (World.still .esp32s3 100)) savesTwo).run (.boot Sys.initial)).2).1 =
      .ok ⟨espOk, some (.wifi (network 2))⟩ := by decide +kernel
  exact loaded_lastWritten (run_of_fst hrun) (run_of_fst hload) rfl rfl rfl

end Nvs

end SmartLock
