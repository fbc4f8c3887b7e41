import Mathlib.Data.Int.ConditionallyCompleteOrder
import SmartLock.Model.Handler

/-!
# Replay protection

A message that was accepted may not be accepted again while its window
lasts. The nonce list is to see to this, and does not always: its check
never compares the last of several nodes, and its purge drops every node
in front of an expired one, which an insertion out of order puts live
nodes at.

The walk of `checkNonce` is described first: which nodes its verdict is
about (`checkList_valid`) and what it drops (`checkList_head`). From this
follows what a call has to find for the law to survive it, and that every
run whose calls find this keeps the law.
-/

namespace SmartLock

open Prog

variable {W : World} {nonce now : Int}

/-! ## The walk -/

/-- The nodes whose nonce the walk compares, if it does not stop before:
the first, and all but the last. -/
def compared (l : List Nonce) : List Nonce := l.take 1 ++ l.dropLast

/-- The walk goes on past the nodes of `pre`: those not yet expired had
no match up to and including them. -/
def WalksPast (nonce now : Int) (pre : List Nonce) : Prop :=
  ∀ p x q, pre = p ++ x :: q → x.expires ≤ now ∨ ∀ y ∈ p ++ [x], y.nonce ≠ nonce

/-- What may be left of a list: all of it, or what is behind an expired
node that the walk reached and that is not the last. -/
def Purged (nonce now : Int) (l head : List Nonce) : Prop :=
  head = l ∨ ∃ pre y, l = pre ++ y :: head ∧ head ≠ [] ∧ y.expires ≤ now ∧ WalksPast nonce now pre

/-- The walk goes on past one more node. -/
theorem WalksPast.snoc {pre : List Nonce} {x : Nonce} (h : WalksPast nonce now pre)
    (hx : x.expires ≤ now ∨ ∀ y ∈ pre ++ [x], y.nonce ≠ nonce) :
    WalksPast nonce now (pre ++ [x]) := by
  intro p z q heq
  rcases List.eq_nil_or_concat q with rfl | ⟨q', t, rfl⟩
  · obtain ⟨rfl, hz⟩ := List.append_inj' heq rfl
    cases hz
    exact hx
  · rw [List.concat_eq_append, ← List.cons_append, ← List.append_assoc] at heq
    exact h p z q' (List.append_inj' heq rfl).1

/-- The last node is not looked at. -/
theorem checkLoop_singleton (w : NonceWalk) (x : Nonce) : checkLoop nonce now w [x] = w := by
  simp [checkLoop]

/-- **The loop of `checkNonce`**, at `l` behind the nodes `pre` of the
list `pre ++ l`. -/
theorem checkLoop_spec (l : List Nonce) : ∀ (pre : List Nonce) (w : NonceWalk), l ≠ [] →
    WalksPast nonce now pre → Purged nonce now (pre ++ l) w.head →
    (w.valid = true ↔ ∀ x ∈ (pre ++ l).take 1 ++ pre, x.nonce ≠ nonce) →
    Purged nonce now (pre ++ l) (checkLoop nonce now w l).head ∧
      ((checkLoop nonce now w l).valid = true ↔ ∀ x ∈ compared (pre ++ l), x.nonce ≠ nonce) := by
  -- on what is left to walk: the verdict so far speaks of the nodes behind it
  induction l with
  | nil => exact fun _ _ h => absurd rfl h
  | cons temp l ih =>
    intro pre w _ hpast hhead hvalid
    rcases l with - | ⟨u, rest⟩
    -- the last node: its `next` is null, so the loop does not compare it
    · rw [checkLoop_singleton, compared, List.dropLast_concat]
      exact ⟨hhead, hvalid⟩
    · have happ : pre ++ temp :: u :: rest = (pre ++ [temp]) ++ u :: rest := by simp
      have hvalid' : (w.valid && temp.nonce != nonce) = true ↔
          ∀ x ∈ (pre ++ temp :: u :: rest).take 1 ++ (pre ++ [temp]), x.nonce ≠ nonce := by
        rw [Bool.and_eq_true, hvalid, bne_iff_ne]
        simp only [List.mem_append, List.mem_singleton]
        constructor
        · rintro ⟨h, ht⟩ x (hx | hx | rfl)
          exacts [h x (.inl hx), h x (.inr hx), ht]
        · exact fun h => ⟨fun x hx => h x (hx.imp id .inl), h temp (.inr (.inr rfl))⟩
      rw [checkLoop]
      -- an expired node moves the head past it and the walk goes on, whatever the verdict
      by_cases hexp : temp.expires ≤ now
      · rw [happ] at hvalid'
        rw [if_pos hexp, happ]
        exact ih _ _ (List.cons_ne_nil _ _) (hpast.snoc (.inl hexp))
          (.inr ⟨pre, temp, by simp, List.cons_ne_nil _ _, hexp, hpast⟩) hvalid'
      · rw [if_neg hexp]
        by_cases hv : (w.valid && temp.nonce != nonce) = true
        · rw [happ] at hhead hvalid'
          rw [if_pos hv, happ]
          have hno := hvalid'.1 hv
          exact ih _ _ (List.cons_ne_nil _ _)
            (hpast.snoc (.inr fun y hy => hno y (List.mem_append_right _ hy))) hhead hvalid'
        · rw [if_neg hv]
          refine ⟨hhead, fun h => absurd h hv, fun h => hvalid'.2 fun x hx => h x ?_⟩
          -- what was compared so far lies in front of the last node
          rw [compared, List.mem_append, happ, List.dropLast_append_of_ne_nil (List.cons_ne_nil _ _)]
          rw [happ, List.mem_append] at hx
          exact hx.imp id fun h => List.mem_append_left _ h

/-- **The verdict is about the nodes compared.** -/
theorem checkList_valid (l : List Nonce) :
    (checkList nonce now l).valid = true ↔ ∀ x ∈ compared l, x.nonce ≠ nonce := by
  rcases l with - | ⟨temp, rest⟩
  · simp [checkList, compared]
  · exact (checkLoop_spec (temp :: rest) [] _ (List.cons_ne_nil _ _) (fun p x q h => by simp at h)
      (.inl rfl) (by simp [bne_iff_ne])).2

/-- **What the walk leaves.** -/
theorem checkList_head (l : List Nonce) : Purged nonce now l (checkList nonce now l).head := by
  rcases l with - | ⟨temp, rest⟩
  · exact .inl rfl
  · exact (checkLoop_spec (temp :: rest) [] _ (List.cons_ne_nil _ _) (fun p x q h => by simp at h)
      (.inl rfl) (by simp [bne_iff_ne])).1

/-- An insertion loses nothing and adds the new node. -/
theorem mem_insertAfter {n temp x : Nonce} {l : List Nonce} :
    x ∈ insertAfter n temp l ↔ x = n ∨ x ∈ temp :: l := by
  induction l generalizing temp with
  | nil => simp [insertAfter, or_comm]
  | cons u rest ih =>
    rw [insertAfter]
    split
    · simp only [List.mem_cons, ih]
      tauto
    · simp only [List.mem_cons]
      tauto

theorem mem_insertNonce {n x : Nonce} {l : List Nonce} : x ∈ insertNonce n l ↔ x = n ∨ x ∈ l := by
  rcases l with - | ⟨temp, rest⟩
  · simp [insertNonce]
  · exact mem_insertAfter

/-! ## Runs -/

variable {s s' : Sys} {ts1 ts2 : Int} {accepted : Bool}

/-- The list an accepted or refused message leaves. -/
def headAfter (ts2 nonce : Int) (w : NonceWalk) : List Nonce :=
  if w.valid then insertNonce ⟨nonce, wrap32 (ts2 + 10)⟩ w.head else w.head

/-- In its window a message is checked against the list. -/
theorem acceptMessage_of_window (h : ts1 ≤ W.clock s.moment ∧ W.clock s.moment ≤ ts2)
    {w : NonceWalk} (hw : checkList nonce (W.clock (s.moment + 1)) s.head = w) :
    (acceptMessage W ts1 ts2 nonce).run s =
      (.ok w.valid, s.ticked.ticked.setHead (headAfter ts2 nonce w)) := by
  have hnow : (getNowTimestamp W).run s = (.ok (W.clock s.moment), s.ticked) := rfl
  have hcheck : (checkNonce W nonce).run s.ticked =
      (.ok w.valid, s.ticked.ticked.setHead w.head) := by rw [← hw]; rfl
  rw [acceptMessage, run_bind_ok hnow, if_pos h, run_bind_ok hcheck, headAfter]
  rcases w with ⟨_ | _, head, freed⟩ <;> rfl

/-- Outside of its window a message is refused, and the list not looked
at. -/
theorem acceptMessage_of_not_window (h : ¬ (ts1 ≤ W.clock s.moment ∧ W.clock s.moment ≤ ts2)) :
    (acceptMessage W ts1 ts2 nonce).run s = (.ok false, s.ticked) := by
  have hnow : (getNowTimestamp W).run s = (.ok (W.clock s.moment), s.ticked) := rfl
  rw [acceptMessage, run_bind_ok hnow, if_neg h]
  rfl

/-- **What `acceptMessage` does.** -/
theorem acceptMessage_ok (h : (acceptMessage W ts1 ts2 nonce).run s = (.ok accepted, s')) :
    (¬ (ts1 ≤ W.clock s.moment ∧ W.clock s.moment ≤ ts2) ∧ accepted = false ∧ s' = s.ticked) ∨
      ∃ w, checkList nonce (W.clock (s.moment + 1)) s.head = w ∧
        (ts1 ≤ W.clock s.moment ∧ W.clock s.moment ≤ ts2) ∧ accepted = w.valid ∧
        s' = s.ticked.ticked.setHead (headAfter ts2 nonce w) := by
  by_cases hwin : ts1 ≤ W.clock s.moment ∧ W.clock s.moment ≤ ts2
  · rw [acceptMessage_of_window hwin rfl] at h
    cases h
    exact .inr ⟨_, rfl, hwin, rfl, rfl⟩
  · rw [acceptMessage_of_not_window hwin] at h
    cases h
    exact .inl ⟨hwin, rfl, rfl⟩

/-- `verifyTimestampsAndNonce` works on the three numbers it reads. -/
theorem verifyTimestampsAndNonce_run {args : List CStr} {k : Int} {a₁ a₂ a₃ : CStr}
    (h₁ : argument args (k + 0) = some a₁) (h₂ : argument args (k + 1) = some a₂)
    (h₃ : argument args (k + 2) = some a₃) :
    (verifyTimestampsAndNonce W args k).run s =
      (acceptMessage W (strtol a₁) (strtol a₂) (strtol a₃)).run s := by
  rw [verifyTimestampsAndNonce, run_bind_ok (argAt_ok.2 ⟨h₁, rfl⟩),
    run_bind_ok (argAt_ok.2 ⟨h₂, rfl⟩), run_bind_ok (argAt_ok.2 ⟨h₃, rfl⟩)]

/-- A call of `verifyTimestampsAndNonce`: the numbers it read, the time it
compared them with, the time `checkNonce` had, the list it found, and its
verdict. -/
structure Call where
  ts1 : Int
  ts2 : Int
  nonce : Int
  time : Int
  checkTime : Int
  list : List Nonce
  accepted : Bool

variable (W) in
/-- The calls made from an empty list, oldest first, and the state they
leave. Between calls anything may happen that leaves the list alone. -/
inductive VerifyRun : List Call → Sys → Prop
  | empty {s : Sys} (h : s.head = []) : VerifyRun [] s
  | call {calls : List Call} {s s' : Sys} {args : List CStr} {k : Int} {a₁ a₂ a₃ : CStr}
    {accepted : Bool} (h : VerifyRun calls s) (h₁ : argument args (k + 0) = some a₁)
    (h₂ : argument args (k + 1) = some a₂) (h₃ : argument args (k + 2) = some a₃)
    (hrun : (verifyTimestampsAndNonce W args k).run s = (.ok accepted, s')) :
    VerifyRun (calls ++ [⟨strtol a₁, strtol a₂, strtol a₃, W.clock s.moment,
      W.clock (s.moment + 1), s.head, accepted⟩]) s'
  | other {calls : List Call} {s s' : Sys} (h : VerifyRun calls s) (hhead : s'.head = s.head)
    (hmoment : s.moment ≤ s'.moment) : VerifyRun calls s'

/-- Replay protection: no nonce accepted is accepted again while its
message's window lasts. -/
def ReplayProtected (calls : List Call) : Prop :=
  calls.Pairwise fun c d => c.accepted = true → d.nonce = c.nonce → d.time ≤ c.ts2 →
    d.accepted = false

/-- The timestamps of an accepted call are far enough from `INT_MAX`. -/
def Call.Fits (c : Call) : Prop := c.accepted = true → c.ts2 + 10 ≤ longMax

/-- What a call has to find, if its message is in its window: the last
node, where it holds this nonce and its window still lasts, does not hold
it alone; and no node whose window still lasts is in front of an expired
one that the walk purges. A node outlives its window by ten seconds. -/
structure Call.Guarded (c : Call) : Prop where
  last : c.ts1 ≤ c.time → c.time ≤ c.ts2 → ∀ x, c.list.getLast? = some x → x.nonce = c.nonce →
    c.time ≤ x.expires - 10 → ∃ y ∈ compared c.list, y.nonce = c.nonce
  purge : c.ts1 ≤ c.time → c.time ≤ c.ts2 → ∀ pre y rest, c.list = pre ++ y :: rest → rest ≠ [] →
    y.expires ≤ c.checkTime → WalksPast c.nonce c.checkTime pre →
    ∀ x ∈ pre, x.expires - 10 < c.checkTime

/-- Every accepted message is still in the list, or its window is over
for good. -/
def Remembered (W : World) (calls : List Call) (s : Sys) : Prop :=
  ∀ c ∈ calls, c.accepted = true →
    (∃ x ∈ s.head, x.nonce = c.nonce ∧ c.ts2 ≤ x.expires - 10) ∨
      ∀ m, s.moment ≤ m → c.ts2 < W.clock m

theorem mem_dropLast_or_getLast? {x : Nonce} {l : List Nonce} (h : x ∈ l) :
    x ∈ l.dropLast ∨ l.getLast? = some x := by
  rcases List.eq_nil_or_concat l with rfl | ⟨l', y, rfl⟩
  · cases h
  · rw [List.concat_eq_append] at h ⊢
    rw [List.dropLast_concat, List.getLast?_concat]
    exact (List.mem_append.1 h).imp id fun h => by rw [List.mem_singleton.1 h]

/-- **A replay is refused**, where the call finds what it has to. -/
theorem Remembered.refuses {calls : List Call} {c d : Call} (h : Remembered W calls s)
    (hc : c ∈ calls) (hacc : c.accepted = true) (hnonce : d.nonce = c.nonce) (hle : d.time ≤ c.ts2)
    (hd : d.Guarded) (htime : d.time = W.clock s.moment) (hlist : d.list = s.head)
    (hrun : (acceptMessage W d.ts1 d.ts2 d.nonce).run s = (.ok d.accepted, s')) :
    d.accepted = false := by
  rcases acceptMessage_ok hrun with ⟨_, hacc', _⟩ | ⟨w, hw, hwin, hval, _⟩
  · exact hacc'
  · rcases h c hc hacc with ⟨x, hx, hxn, hxe⟩ | hover
    · have hfound : ∃ y ∈ compared s.head, y.nonce = d.nonce := by
        rcases mem_dropLast_or_getLast? hx with hx | hx
        · exact ⟨x, List.mem_append_right _ hx, hxn.trans hnonce.symm⟩
        · rw [← hlist] at hx ⊢
          rw [← htime] at hwin
          exact hd.last hwin.1 hwin.2 x hx (hxn.trans hnonce.symm) (hle.trans hxe)
      obtain ⟨y, hy, hyn⟩ := hfound
      rw [hval, Bool.eq_false_iff, ← hw, Ne, checkList_valid]
      exact fun hall => hall y hy hyn
    · have := hover _ le_rfl
      omega

/-- A node lost from the list belongs to a window that is over. -/
theorem mem_checkList_head {l : List Nonce} {x : Nonce} (hx : x ∈ l)
    (hpurge : ∀ pre y rest, l = pre ++ y :: rest → rest ≠ [] → y.expires ≤ now →
      WalksPast nonce now pre → ∀ x ∈ pre, x.expires - 10 < now) :
    x ∈ (checkList nonce now l).head ∨ x.expires - 10 < now := by
  rcases (checkList_head l : Purged nonce now l _) with hall | ⟨pre, y, hl, hne, hexp, hpast⟩
  · exact .inl (by rwa [hall])
  · rw [hl, List.mem_append, List.mem_cons] at hx
    rcases hx with hx | rfl | hx
    · exact .inr (hpurge pre y _ hl hne hexp hpast x hx)
    · exact .inr (by omega)
    · exact .inl hx

/-- **What a call remembers**: the messages so far, and its own. -/
theorem Remembered.call {calls : List Call} {d : Call} (hclock : Monotone W.clock)
    (h : Remembered W calls s) (hd : d.Guarded) (hfits : d.Fits) (hmin : longMin ≤ d.ts2)
    (htime : d.time = W.clock s.moment) (hcheck : d.checkTime = W.clock (s.moment + 1))
    (hlist : d.list = s.head)
    (hrun : (acceptMessage W d.ts1 d.ts2 d.nonce).run s = (.ok d.accepted, s')) :
    Remembered W (calls ++ [d]) s' := by
  rcases acceptMessage_ok hrun with ⟨_, hacc, rfl⟩ | ⟨w, hw, hwin, hval, rfl⟩
  · intro c hc hcacc
    rcases List.mem_append.1 hc with hc | hc
    · exact (h c hc hcacc).imp id fun hover m hm => hover m (Nat.le_of_succ_le hm)
    · rw [List.mem_singleton.1 hc, hacc] at hcacc
      cases hcacc
  -- what the walk leaves stays, since accepting only inserts
  · have hkept (x : Nonce) (hx : x ∈ w.head) : x ∈ headAfter d.ts2 d.nonce w := by
      rw [headAfter]
      split
      · exact mem_insertNonce.2 (.inr hx)
      · exact hx
    intro c hc hcacc
    rcases List.mem_append.1 hc with hc | hc
    -- an earlier nonce: the walk leaves it, or its time had come
    · rcases h c hc hcacc with ⟨x, hx, hxn, hxe⟩ | hover
      · have hpurge := hd.purge (by omega) (by omega)
        rw [hlist, hcheck] at hpurge
        rcases mem_checkList_head hx hpurge with hx | hlt
        · rw [hw] at hx
          exact .inl ⟨x, hkept x hx, hxn, hxe⟩
        · refine .inr fun m hm => ?_
          have hle : W.clock (s.moment + 1) ≤ W.clock m := hclock (Nat.le_of_succ_le hm)
          omega
      · exact .inr fun m hm => hover m (by
          have : s.moment + 2 ≤ m := hm
          omega)
    · rw [List.mem_singleton.1 hc] at hcacc ⊢
      -- the nonce of this call is the one inserted
      have hwrap := wrap32_of_bounds (z := d.ts2 + 10) (by simp only [longMin] at *; omega)
        (hfits hcacc)
      refine .inl ⟨⟨d.nonce, wrap32 (d.ts2 + 10)⟩, ?_, rfl, by simp only [hwrap]; omega⟩
      rw [hval] at hcacc
      simp only [Sys.setHead, headAfter, if_pos hcacc]
      exact mem_insertNonce.2 (.inl rfl)

/-- **Replay protection holds in every run whose calls find what they
have to**: under a clock that does not run backwards, no accepted message
is accepted again while its window lasts, whatever was accepted in
between. -/
theorem VerifyRun.replayProtected {calls : List Call} (hclock : Monotone W.clock)
    (h : VerifyRun W calls s) (hfits : ∀ c ∈ calls, c.Fits) (hguarded : ∀ c ∈ calls, c.Guarded) :
    ReplayProtected calls := by
  suffices hboth : ReplayProtected calls ∧ Remembered W calls s from hboth.1
  induction h with
  | empty _ => exact ⟨List.Pairwise.nil, nofun⟩
  | other _ hhead hmoment ih =>
    obtain ⟨hp, hr⟩ := ih hfits hguarded
    refine ⟨hp, fun c hc hacc => ?_⟩
    rw [hhead]
    exact (hr c hc hacc).imp id fun hover m hm => hover m (hmoment.trans hm)
  | call _ h₁ h₂ h₃ hrun ih =>
    obtain ⟨hp, hr⟩ := ih (fun c hc => hfits c (List.mem_append_left _ hc))
      fun c hc => hguarded c (List.mem_append_left _ hc)
    rw [verifyTimestampsAndNonce_run h₁ h₂ h₃] at hrun
    have hd := hguarded _ (List.mem_append_right _ (List.mem_singleton.2 rfl))
    refine ⟨List.pairwise_append.2 ⟨hp, List.pairwise_singleton .., fun c hc d hd' => ?_⟩, ?_⟩
    · rw [List.mem_singleton.1 hd']
      exact fun hacc hnonce hle => hr.refuses hc hacc hnonce hle hd rfl rfl hrun
    · exact hr.call hclock hd (hfits _ (List.mem_append_right _ (List.mem_singleton.2 rfl)))
        (strtol_bounds _).1 rfl rfl rfl hrun

/-- A call whose message is in its window, as a step of a run. -/
theorem VerifyRun.inWindow {calls : List Call} (h : VerifyRun W calls s) (a₁ a₂ a₃ : CStr)
    (ts1 ts2 nonce : Int) (h₁ : strtol a₁ = ts1) (h₂ : strtol a₂ = ts2) (h₃ : strtol a₃ = nonce)
    (hwin : ts1 ≤ W.clock s.moment ∧ W.clock s.moment ≤ ts2) {w : NonceWalk}
    (hw : checkList nonce (W.clock (s.moment + 1)) s.head = w) :
    VerifyRun W (calls ++ [⟨ts1, ts2, nonce, W.clock s.moment, W.clock (s.moment + 1), s.head,
      w.valid⟩]) (s.ticked.ticked.setHead (headAfter ts2 nonce w)) := by
  have hrun := verifyTimestampsAndNonce_run (W := W) (s := s)
    (rfl : argument [a₁, a₂, a₃] (0 + 0) = some a₁) rfl rfl
  rw [h₁, h₂, h₃, acceptMessage_of_window hwin hw] at hrun
  subst h₁ h₂ h₃
  exact .call h rfl rfl rfl hrun

/-- In non-decreasing order of `expires`. -/
def SortedByExpiry (l : List Nonce) : Prop := l.Pairwise fun x y => x.expires ≤ y.expires

theorem SortedByExpiry.expires_le {l pre rest : List Nonce} {x y : Nonce} (h : SortedByExpiry l)
    (hl : l = pre ++ y :: rest) (hx : x ∈ pre) : x.expires ≤ y.expires := by
  rw [SortedByExpiry, hl, List.pairwise_append] at h
  exact h.2.2 x hx y (List.mem_cons_self ..)

/-- A list in order loses nothing that lasts, and its last node is not
missed where it holds another nonce. -/
theorem Call.guarded_of_sorted {c : Call} (h : SortedByExpiry c.list)
    (hlast : ∀ x ∈ c.list.getLast?, x.nonce ≠ c.nonce) : c.Guarded := by
  refine ⟨fun _ _ x hx hn => absurd hn (hlast x hx), fun _ _ pre y rest hl _ hexp _ x hx => ?_⟩
  have := h.expires_le hl hx
  omega

/-- Two messages are accepted, one after the other. -/
theorem verifyRun_two : VerifyRun (World.still .esp32s3 100)
    [⟨90, 200, 1, 100, 100, [], true⟩, ⟨90, 200, 2, 100, 100, [⟨1, 210⟩], true⟩]
    ((Sys.initial.ticked.ticked.setHead [⟨1, 210⟩]).ticked.ticked.setHead
      [⟨1, 210⟩, ⟨2, 210⟩]) := by
  have h₀ : VerifyRun (World.still .esp32s3 100) [] Sys.initial := .empty rfl
  have h₁ := h₀.inWindow (lit "90") (lit "200") (lit "1") 90 200 1 (by decide) (by decide)
    (by decide) (by decide) (w := ⟨true, [], []⟩) rfl
  exact h₁.inWindow (lit "90") (lit "200") (lit "2") 90 200 2 (by decide) (by decide)
    (by decide) (by decide) (w := ⟨true, [⟨1, 210⟩], []⟩) rfl

/-- A clock that goes on after three messages. -/
def World.later : World :=
  { World.still .esp32s3 100 with clock := fun m => if m < 6 then 100 else 200 }

theorem later_monotone : Monotone World.later.clock := by
  intro m n hmn
  simp only [World.later]
  split_ifs <;> omega

/-- Three messages are accepted; the first expires; the second and then the
third are presented again, with another message in between. -/
def expiring : List Call :=
  [⟨90, 120, 1, 100, 100, [], true⟩,
    ⟨90, 300, 2, 100, 100, [⟨1, 130⟩], true⟩,
    ⟨90, 400, 3, 100, 100, [⟨1, 130⟩, ⟨2, 310⟩], true⟩,
    ⟨90, 300, 2, 200, 200, [⟨1, 130⟩, ⟨2, 310⟩, ⟨3, 410⟩], false⟩,
    ⟨190, 500, 4, 200, 200, [⟨2, 310⟩, ⟨3, 410⟩], true⟩,
    ⟨90, 400, 3, 200, 200, [⟨2, 310⟩, ⟨3, 410⟩, ⟨4, 510⟩], false⟩]

theorem verifyRun_expiring : ∃ s, VerifyRun World.later expiring s ∧
    s.head = [⟨2, 310⟩, ⟨3, 410⟩, ⟨4, 510⟩] ∧ s.moment = 12 := by
  have h₀ : VerifyRun World.later [] Sys.initial := .empty rfl
  have h₁ := h₀.inWindow (lit "90") (lit "120") (lit "1") 90 120 1 (by decide) (by decide)
    (by decide) (by decide) (w := ⟨true, [], []⟩) rfl
  have h₂ := h₁.inWindow (lit "90") (lit "300") (lit "2") 90 300 2 (by decide) (by decide)
    (by decide) (by decide) (w := ⟨true, [⟨1, 130⟩], []⟩) rfl
  have h₃ := h₂.inWindow (lit "90") (lit "400") (lit "3") 90 400 3 (by decide) (by decide)
    (by decide) (by decide) (w := ⟨true, [⟨1, 130⟩, ⟨2, 310⟩], []⟩) rfl
  -- the walk drops the first node and stops at the second
  have h₄ := h₃.inWindow (lit "90") (lit "300") (lit "2") 90 300 2 (by decide) (by decide)
    (by decide) (by decide) (w := ⟨false, [⟨2, 310⟩, ⟨3, 410⟩], [⟨1, 130⟩]⟩) rfl
  have h₅ := h₄.inWindow (lit "190") (lit "500") (lit "4") 190 500 4 (by decide) (by decide)
    (by decide) (by decide) (w := ⟨true, [⟨2, 310⟩, ⟨3, 410⟩], []⟩) rfl
  exact ⟨_, h₅.inWindow (lit "90") (lit "400") (lit "3") 90 400 3 (by decide) (by decide)
    (by decide) (by decide) (w := ⟨false, [⟨2, 310⟩, ⟨3, 410⟩, ⟨4, 510⟩], []⟩) rfl, rfl, rfl⟩

theorem expiring_fits : ∀ c ∈ expiring, c.Fits := by
  simp [expiring, Call.Fits, longMax]

theorem expiring_sorted : ∀ c ∈ expiring, SortedByExpiry c.list := by
  simp [expiring, SortedByExpiry]

/-- The messages presented again are refused, in the middle of the list. -/
theorem replayProtected_expiring : ReplayProtected expiring := by
  obtain ⟨s, hrun, _⟩ := verifyRun_expiring
  exact hrun.replayProtected later_monotone expiring_fits fun c hc =>
    Call.guarded_of_sorted (expiring_sorted c hc) (by revert c hc; decide)

/-- Two messages are accepted, and the second is presented again: it is in
the last node, which is not compared, and is accepted a second time. -/
theorem replay_of_last_accepted :
    ¬ ∀ (W : World) (calls : List Call) (s : Sys), Monotone W.clock → VerifyRun W calls s →
      (∀ c ∈ calls, c.Fits) → ReplayProtected calls := by
  intro h
  have h₃ := verifyRun_two.inWindow (lit "90") (lit "200") (lit "2") 90 200 2 (by decide)
    (by decide) (by decide) (by decide) (w := ⟨true, [⟨1, 210⟩, ⟨2, 210⟩], []⟩) rfl
  have hprotected := h _ _ _ (fun _ _ _ => le_rfl) h₃ (by simp [Call.Fits, longMax])
  revert hprotected
  simp [ReplayProtected, World.still]

end SmartLock
