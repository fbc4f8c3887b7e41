import SmartLock.Nonce.Replay
import Mathlib.Data.List.Perm.Subperm

/-!
# What the nonce list holds

The list holds nonces of accepted messages and of no others, so that a
message with a new nonce is never taken for a replay. It does not hold all
it should: the purge drops every node in front of an expired one, and the
expiry recorded is ten seconds behind `ts2` only where the sum is an
`int`.
-/

namespace SmartLock

open Prog

variable {W : World} {nonce now : Int} {s s' : Sys} {calls : List Call}

/-! ## Nothing but accepted nonces -/

theorem Purged.sublist {l head : List Nonce} (h : Purged nonce now l head) : head.Sublist l := by
  rcases h with rfl | ⟨pre, y, rfl, _⟩
  · exact List.Sublist.refl _
  · exact (List.sublist_cons_self y head).trans (List.sublist_append_right pre _)

theorem insertAfter_perm (n temp : Nonce) (l : List Nonce) :
    (insertAfter n temp l).Perm (n :: temp :: l) := by
  induction l generalizing temp with
  | nil => exact List.Perm.swap n temp []
  | cons u rest ih =>
    rw [insertAfter]
    split
    · exact ((ih u).cons temp).trans (List.Perm.swap n temp _)
    · exact List.Perm.swap n temp _

/-- **An insertion adds one node**, wherever it puts it. -/
theorem insertNonce_perm (n : Nonce) (l : List Nonce) : (insertNonce n l).Perm (n :: l) := by
  cases l with
  | nil => exact List.Perm.refl _
  | cons temp rest => exact insertAfter_perm n temp rest

/-- The nonces of the messages accepted, oldest first. -/
def acceptedNonces (calls : List Call) : List Int := (calls.filter Call.accepted).map Call.nonce

theorem acceptedNonces_concat (calls : List Call) (d : Call) : acceptedNonces (calls ++ [d]) =
    acceptedNonces calls ++ if d.accepted then [d.nonce] else [] := by
  rw [acceptedNonces, List.filter_append, List.map_append, acceptedNonces]
  cases hd : d.accepted with
  | false => simp [hd]
  | true => simp [hd]

/-- What a call leaves of the nonces in the list. -/
theorem headAfter_subperm (nonce now ts2 : Int) (l : List Nonce) :
    ((headAfter ts2 nonce (checkList nonce now l)).map Nonce.nonce).Subperm
      (if (checkList nonce now l).valid then nonce :: l.map Nonce.nonce else l.map Nonce.nonce) := by
  have hkept : ((checkList nonce now l).head.map Nonce.nonce).Sublist (l.map Nonce.nonce) :=
    (checkList_head l).sublist.map _
  rw [headAfter]
  split
  · exact ((insertNonce_perm _ _).map Nonce.nonce).subperm.trans (hkept.cons_cons nonce).subperm
  · exact hkept.subperm

/-- **The list holds nonces of accepted messages only**, each at most as
often as it was accepted. -/
theorem VerifyRun.head_subperm (h : VerifyRun W calls s) :
    (s.head.map Nonce.nonce).Subperm (acceptedNonces calls) := by
  induction h with
  | empty h =>
    rw [h]
    exact List.nil_subperm
  | other _ hhead _ ih =>
    rw [hhead]
    exact ih
  | @call calls s s' args k a₁ a₂ a₃ accepted _ h₁ h₂ h₃ hrun ih =>
    rw [verifyTimestampsAndNonce_run h₁ h₂ h₃] at hrun
    rw [acceptedNonces_concat]
    rcases acceptMessage_ok hrun with ⟨_, rfl, rfl⟩ | ⟨w, rfl, _, rfl, rfl⟩
    · exact ih.trans (List.sublist_append_left _ _).subperm
    · have hhead := headAfter_subperm (strtol a₃) (W.clock (s.moment + 1)) (strtol a₂) s.head
      refine hhead.trans ?_
      split
      · exact ((List.subperm_cons _).2 ih).trans (List.perm_append_singleton _ _).symm.subperm
      · exact ih.trans (List.sublist_append_left _ _).subperm

/-- **Fresh messages are never refused**: the list holds nothing but nonces
of accepted messages, and a message in its window whose nonce is none of
them is accepted. -/
theorem VerifyRun.fresh_accepted (h : VerifyRun W calls s) :
    (s.head.map Nonce.nonce).Subperm (acceptedNonces calls) ∧
      ∀ args k a₁ a₂ a₃, argument args (k + 0) = some a₁ → argument args (k + 1) = some a₂ →
        argument args (k + 2) = some a₃ → strtol a₁ ≤ W.clock s.moment →
        W.clock s.moment ≤ strtol a₂ → strtol a₃ ∉ acceptedNonces calls →
        ∃ s', (verifyTimestampsAndNonce W args k).run s = (.ok true, s') := by
  refine ⟨h.head_subperm, fun args k a₁ a₂ a₃ h₁ h₂ h₃ hts1 hts2 hfresh => ?_⟩
  have hvalid : (checkList (strtol a₃) (W.clock (s.moment + 1)) s.head).valid = true := by
    rw [checkList_valid]
    intro x hx heq
    have hmem : x ∈ s.head := by
      rw [compared, List.mem_append] at hx
      exact hx.elim List.mem_of_mem_take fun hx => List.dropLast_subset _ hx
    exact hfresh (heq ▸ h.head_subperm.subset (List.mem_map_of_mem hmem))
  have haccept : (acceptMessage W (strtol a₁) (strtol a₂) (strtol a₃)).run s = (.ok _, _) :=
    acceptMessage_of_window ⟨hts1, hts2⟩ rfl
  rw [hvalid] at haccept
  exact ⟨_, (verifyTimestampsAndNonce_run h₁ h₂ h₃).trans haccept⟩

/-- A second message, with a nonce of its own. -/
theorem fresh_accepted_second : ([1] : List Int).Subperm [1] ∧
    ∀ args k a₁ a₂ a₃, argument args (k + 0) = some a₁ → argument args (k + 1) = some a₂ →
      argument args (k + 2) = some a₃ → strtol a₁ ≤ (100 : Int) → (100 : Int) ≤ strtol a₂ →
      strtol a₃ ∉ ([1] : List Int) →
      ∃ s', (verifyTimestampsAndNonce (World.still .esp32s3 100) args k).run
        (Sys.initial.ticked.ticked.setHead [⟨1, 210⟩]) = (.ok true, s') := by
  have h₀ : VerifyRun (World.still .esp32s3 100) [] Sys.initial := .empty rfl
  have h₁ := h₀.inWindow (lit "90") (lit "200") (lit "1") 90 200 1 (by decide) (by decide)
    (by decide) (by decide) (w := ⟨true, [], []⟩) rfl
  exact VerifyRun.fresh_accepted h₁

/-! ## What the purge drops -/

/-- What a call has to find, if its message is in its window: no node that
has not expired stands in front of an expired one that the walk purges. -/
def Call.Ordered (c : Call) : Prop :=
  c.ts1 ≤ c.time → c.time ≤ c.ts2 → ∀ pre y rest, c.list = pre ++ y :: rest → rest ≠ [] →
    y.expires ≤ c.checkTime → WalksPast c.nonce c.checkTime pre → ∀ x ∈ pre, x.expires ≤ c.checkTime

/-- The walk takes nodes out only at the front, frees each, and each has
expired. -/
structure NonceWalk.DropsExpired (now : Int) (l : List Nonce) (w : NonceWalk) : Prop where
  split : l = w.freed ++ w.head
  expired : ∀ x ∈ w.freed, x.expires ≤ now

/-- **The loop of `checkNonce` on a list in order**, at `l` behind the nodes
`pre`: as long as all of them have expired they are exactly what was
freed. -/
theorem checkLoop_dropsExpired {whole : List Nonce}
    (hordered : ∀ pre y rest, whole = pre ++ y :: rest → rest ≠ [] → y.expires ≤ now →
      WalksPast nonce now pre → ∀ x ∈ pre, x.expires ≤ now) (l : List Nonce) :
    ∀ (pre : List Nonce) (w : NonceWalk), whole = pre ++ l → WalksPast nonce now pre →
      (w.valid = true → ∀ x ∈ pre, x.nonce ≠ nonce) → w.DropsExpired now whole →
      ((∀ x ∈ pre, x.expires ≤ now) → w.head = l ∧ w.freed = pre) →
      (checkLoop nonce now w l).DropsExpired now whole := by
  -- on what is left: the head moves only while everything in front has been freed
  induction l with
  | nil => exact fun _ _ _ _ _ hdrops _ => hdrops
  | cons temp l ih =>
    intro pre w hwhole hpast hvalid hdrops hfront
    rcases l with - | ⟨u, rest⟩
    · rw [checkLoop_singleton]
      exact hdrops
    · have hnext : whole = (pre ++ [temp]) ++ u :: rest := by rw [hwhole]; simp
      have hvalid' : (w.valid && temp.nonce != nonce) = true →
          ∀ x ∈ pre ++ [temp], x.nonce ≠ nonce := by
        rw [Bool.and_eq_true, bne_iff_ne]
        rintro ⟨hv, htemp⟩ x hx
        rcases List.mem_append.1 hx with hx | hx
        · exact hvalid hv x hx
        · rwa [List.mem_singleton.1 hx]
      rw [checkLoop]
      by_cases hexp : temp.expires ≤ now
      -- the list is in order here, so the whole prefix had expired
      · have hpre := hordered pre temp (u :: rest) hwhole (List.cons_ne_nil _ _) hexp hpast
        obtain ⟨hhead, hfreed⟩ := hfront hpre
        rw [if_pos hexp, hhead, hfreed]
        refine ih (pre ++ [temp]) _ hnext (hpast.snoc (.inl hexp)) hvalid' ⟨hnext, ?_⟩
          fun _ => ⟨rfl, rfl⟩
        intro x hx
        rcases List.mem_append.1 hx with hx | hx
        · exact hpre x hx
        · rwa [List.mem_singleton.1 hx]
      · rw [if_neg hexp]
        by_cases hv : (w.valid && temp.nonce != nonce) = true
        · rw [if_pos hv]
          refine ih (pre ++ [temp]) _ hnext (hpast.snoc (.inr (hvalid' hv))) hvalid'
            ⟨hdrops.split, hdrops.expired⟩ fun hall => absurd (hall temp ?_) hexp
          exact List.mem_append_right _ (List.mem_singleton.2 rfl)
        · rw [if_neg hv]
          exact ⟨hdrops.split, hdrops.expired⟩

theorem checkList_dropsExpired {l : List Nonce}
    (hordered : ∀ pre y rest, l = pre ++ y :: rest → rest ≠ [] → y.expires ≤ now →
      WalksPast nonce now pre → ∀ x ∈ pre, x.expires ≤ now) :
    (checkList nonce now l).DropsExpired now l := by
  cases l with
  | nil => exact ⟨rfl, nofun⟩
  | cons temp rest =>
    exact checkLoop_dropsExpired hordered (temp :: rest) [] _ rfl (fun p x q h => by simp at h)
      (fun _ => nofun) ⟨rfl, nofun⟩ fun _ => ⟨rfl, rfl⟩

/-- A nonce accepted is in the list until its expiry has passed. -/
def Kept (W : World) (calls : List Call) (s : Sys) : Prop :=
  ∀ c ∈ calls, c.accepted = true → ⟨c.nonce, c.ts2 + 10⟩ ∈ s.head ∨
    ∃ m < s.moment, c.ts2 + 10 ≤ W.clock m

/-- A call leaves what has not expired, and adds its own nonce. -/
theorem Kept.call {d : Call} (h : Kept W calls s) (hd : d.Ordered) (hfits : d.Fits)
    (hmin : longMin ≤ d.ts2) (htime : d.time = W.clock s.moment)
    (hcheck : d.checkTime = W.clock (s.moment + 1)) (hlist : d.list = s.head)
    (hrun : (acceptMessage W d.ts1 d.ts2 d.nonce).run s = (.ok d.accepted, s')) :
    Kept W (calls ++ [d]) s' := by
  intro c hc hacc
  rcases acceptMessage_ok hrun with ⟨_, hno, rfl⟩ | ⟨w, rfl, hwin, hval, rfl⟩
  · rcases List.mem_append.1 hc with hc | hc
    · exact (h c hc hacc).imp id fun ⟨m, hm, hle⟩ => ⟨m, Nat.lt_succ_of_lt hm, hle⟩
    · rw [List.mem_singleton.1 hc, hno] at hacc
      cases hacc
  · have hmoment : s.moment < (Sys.setHead (headAfter d.ts2 d.nonce (checkList d.nonce
        (W.clock (s.moment + 1)) s.head)) s.ticked.ticked).moment := by
      show s.moment < s.moment + 2
      omega
    rcases List.mem_append.1 hc with hc | hc
    · rcases h c hc hacc with hmem | ⟨m, hm, hle⟩
      · have hordered := hd (htime ▸ hwin.1) (htime ▸ hwin.2)
        rw [hlist, hcheck] at hordered
        -- freed nodes had expired at the clock of the walk, the others are still there
        have hdrops := checkList_dropsExpired hordered
        rw [hdrops.split, List.mem_append] at hmem
        rcases hmem with hmem | hmem
        · exact .inr ⟨s.moment + 1, Nat.lt_succ_self _, hdrops.expired _ hmem⟩
        · refine .inl ?_
          simp only [Sys.setHead, headAfter]
          split
          · exact mem_insertNonce.2 (.inr hmem)
          · exact hmem
      · exact .inr ⟨m, hm.trans hmoment, hle⟩
    · rw [List.mem_singleton.1 hc] at hacc ⊢
      -- the nonce of this call, whose expiry does not wrap
      have hwrap := wrap32_of_bounds (z := d.ts2 + 10) (by simp only [longMin] at *; omega)
        (hfits hacc)
      rw [hval] at hacc
      refine .inl ?_
      simp only [Sys.setHead, headAfter, if_pos hacc, hwrap]
      exact mem_insertNonce.2 (.inl rfl)

theorem VerifyRun.kept (h : VerifyRun W calls s) (hfits : ∀ c ∈ calls, c.Fits)
    (hordered : ∀ c ∈ calls, c.Ordered) : Kept W calls s := by
  induction h with
  | empty _ => exact nofun
  | other _ hhead hmoment ih =>
    intro c hc hacc
    rw [hhead]
    exact (ih hfits hordered c hc hacc).imp id fun ⟨m, hm, hle⟩ => ⟨m, hm.trans_le hmoment, hle⟩
  | call _ h₁ h₂ h₃ hrun ih =>
    rw [verifyTimestampsAndNonce_run h₁ h₂ h₃] at hrun
    have hlast {calls : List Call} {d : Call} : d ∈ calls ++ [d] :=
      List.mem_append_right _ (List.mem_singleton.2 rfl)
    exact (ih (fun c hc => hfits c (List.mem_append_left _ hc))
      fun c hc => hordered c (List.mem_append_left _ hc)).call (hordered _ hlast) (hfits _ hlast)
        (strtol_bounds _).1 rfl rfl rfl hrun

/-- **Unexpired nonces are never lost** in a run whose calls find no node
that lasts in front of an expired one: every nonce accepted whose recorded
expiry is still to come is in the list, and what a call took out it freed,
expired nodes all. -/
theorem VerifyRun.unexpired_kept (hclock : Monotone W.clock) (h : VerifyRun W calls s)
    (hfits : ∀ c ∈ calls, c.Fits) (hordered : ∀ c ∈ calls, c.Ordered) :
    (∀ c ∈ calls, c.accepted = true → ∀ m, s.moment ≤ m + 1 → W.clock m < c.ts2 + 10 →
      ⟨c.nonce, c.ts2 + 10⟩ ∈ s.head) ∧
    ∀ c ∈ calls, c.ts1 ≤ c.time → c.time ≤ c.ts2 →
      (checkList c.nonce c.checkTime c.list).DropsExpired c.checkTime c.list := by
  refine ⟨fun c hc hacc m hm hlt => ?_,
    fun c hc h₁ h₂ => checkList_dropsExpired (hordered c hc h₁ h₂)⟩
  refine (h.kept hfits hordered c hc hacc).resolve_right fun ⟨m', hm', hle⟩ => ?_
  have hmono : W.clock m' ≤ W.clock m := hclock (by omega)
  omega

/-- No node of a list in order outlives one behind it. -/
theorem Call.ordered_of_sorted {c : Call} (h : SortedByExpiry c.list) : c.Ordered :=
  fun _ _ _ _ _ hl _ hexp _ _ hx => (h.expires_le hl hx).trans hexp

/-- The first message has expired and is off the list, the others are on
it. -/
theorem unexpired_kept_expiring :
    (∀ c ∈ expiring, c.accepted = true → ∀ m ≥ 11, World.later.clock m < c.ts2 + 10 →
      (⟨c.nonce, c.ts2 + 10⟩ : Nonce) ∈ ([⟨2, 310⟩, ⟨3, 410⟩, ⟨4, 510⟩] : List Nonce)) ∧
    ∀ c ∈ expiring, c.ts1 ≤ c.time → c.time ≤ c.ts2 →
      (checkList c.nonce c.checkTime c.list).DropsExpired c.checkTime c.list := by
  obtain ⟨s, hrun, hhead, hmoment⟩ := verifyRun_expiring
  have hkept := hrun.unexpired_kept later_monotone expiring_fits fun c hc =>
    Call.ordered_of_sorted (expiring_sorted c hc)
  rw [hhead, hmoment] at hkept
  exact ⟨fun c hc hacc m hm => hkept.1 c hc hacc m (Nat.succ_le_succ hm), hkept.2⟩

/-- A nonce that expires soon goes behind one that lasts; when it has
expired, the purge drops the other one too. -/
theorem unexpired_nonce_lost : ¬ ∀ (W : World) (calls : List Call) (s : Sys), Monotone W.clock →
    VerifyRun W calls s → (∀ c ∈ calls, c.Fits) → ∀ c ∈ calls, c.accepted = true →
      ∀ m, s.moment ≤ m + 1 → W.clock m < c.ts2 + 10 → ⟨c.nonce, c.ts2 + 10⟩ ∈ s.head := by
  intro h
  have h₀ : VerifyRun World.later [] Sys.initial := .empty rfl
  have h₁ := h₀.inWindow (lit "90") (lit "300") (lit "1") 90 300 1 (by decide) (by decide)
    (by decide) (by decide) (w := ⟨true, [], []⟩) rfl
  have h₂ := h₁.inWindow (lit "90") (lit "100") (lit "2") 90 100 2 (by decide) (by decide)
    (by decide) (by decide) (w := ⟨true, [⟨1, 310⟩], []⟩) rfl
  have h₃ := h₂.inWindow (lit "90") (lit "400") (lit "3") 90 400 3 (by decide) (by decide)
    (by decide) (by decide) (w := ⟨true, [⟨1, 310⟩, ⟨2, 110⟩], []⟩) rfl
  have h₄ := h₃.inWindow (lit "190") (lit "400") (lit "4") 190 400 4 (by decide) (by decide)
    (by decide) (by decide) (w := ⟨true, [⟨3, 410⟩], [⟨1, 310⟩]⟩) rfl
  have hkept := h _ _ _ later_monotone h₄ (by simp [Call.Fits, longMax]) _
    (List.mem_cons_self ..) rfl 7 (by decide) (by decide)
  revert hkept
  decide

/-! ## The expiry recorded -/

/-- The expiry `addNonceSorted` is given. -/
def recordedExpiry (ts2 : Int) : Int := wrap32 (ts2 + 10)

/-- At no time in the window does the purge take the nonce for expired. -/
def OutlivesWindow (ts2 expires : Int) : Prop := ts2 < expires ∧ ∀ now ≤ ts2, ¬ expires ≤ now

theorem outlivesWindow_iff {ts2 : Int} (hmin : longMin ≤ ts2) (hmax : ts2 ≤ longMax) :
    OutlivesWindow ts2 (recordedExpiry ts2) ↔ ts2 ≤ longMax - 10 := by
  simp only [OutlivesWindow, recordedExpiry, wrap32, longMin, longMax] at *
  constructor
  · rintro ⟨hlt, _⟩
    omega
  · intro hle
    exact ⟨by omega, fun now hnow => by omega⟩

/-- **The expiry recorded outlives the window exactly if `ts2 + 10` is an
`int`**, of every message accepted. -/
theorem accepted_outlives_iff {args : List CStr} {k : Int}
    (hrun : (verifyTimestampsAndNonce W args k).run s = (.ok true, s')) :
    ∃ a₂ a₃, argument args (k + 1) = some a₂ ∧ argument args (k + 2) = some a₃ ∧
      s'.head = insertNonce ⟨strtol a₃, recordedExpiry (strtol a₂)⟩
        (checkList (strtol a₃) (W.clock (s.moment + 1)) s.head).head ∧
      (OutlivesWindow (strtol a₂) (recordedExpiry (strtol a₂)) ↔ strtol a₂ ≤ longMax - 10) := by
  have hargs := hrun
  simp only [verifyTimestampsAndNonce, bind_ok, argAt_ok] at hargs
  obtain ⟨a₁, _, ⟨h₁, rfl⟩, a₂, _, ⟨h₂, rfl⟩, a₃, _, ⟨h₃, rfl⟩, haccept⟩ := hargs
  refine ⟨a₂, a₃, h₂, h₃, ?_, outlivesWindow_iff (strtol_bounds a₂).1 (strtol_bounds a₂).2⟩
  rcases acceptMessage_ok haccept with ⟨_, hno, _⟩ | ⟨w, rfl, _, hvalid, rfl⟩
  · cases hno
  · show headAfter (strtol a₂) (strtol a₃) _ = _
    rw [headAfter, ← hvalid, if_pos rfl]
    rfl

/-- A message that is accepted. -/
theorem verify_window (ts2 : CStr) (h : 100 ≤ strtol ts2) :
    (verifyTimestampsAndNonce (World.still .esp32s3 100) [lit "90", ts2, lit "1"] 0).run
      Sys.initial =
        (.ok true, Sys.initial.ticked.ticked.setHead [⟨1, recordedExpiry (strtol ts2)⟩]) := by
  rw [verifyTimestampsAndNonce_run rfl rfl rfl, acceptMessage_of_window ⟨by decide, h⟩ rfl]
  rfl

/-- The expiry recorded of a message that is valid up to 200. -/
theorem accepted_outlives_iff_short : recordedExpiry (strtol (lit "200")) = 210 ∧
    OutlivesWindow (strtol (lit "200")) (recordedExpiry (strtol (lit "200"))) := by
  obtain ⟨a₂, a₃, h₂, -, -, hiff⟩ := accepted_outlives_iff (verify_window (lit "200") (by decide))
  obtain rfl : lit "200" = a₂ := Option.some_injective _ h₂
  exact ⟨by decide, hiff.2 (by decide)⟩

/-- A message whose `ts2` is the largest `int` is accepted, and its nonce
recorded as expired long ago. -/
theorem expiry_overflows : ¬ ∀ (W : World) (args : List CStr) (k : Int) (s s' : Sys) (a₂ : CStr),
    (verifyTimestampsAndNonce W args k).run s = (.ok true, s') → argument args (k + 1) = some a₂ →
    OutlivesWindow (strtol a₂) (recordedExpiry (strtol a₂)) := by
  intro h
  have hall := h (World.still .esp32s3 100) _ 0 Sys.initial _ (lit "2147483647")
    (verify_window (lit "2147483647") (by decide)) rfl
  exact absurd hall.1 (by decide)

end SmartLock
