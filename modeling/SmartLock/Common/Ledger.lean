import SmartLock.Common.Prog
import Mathlib.Data.List.Count
import Mathlib.Order.Nat

/-!
# Handles given and closed

A ledger of the handles a program was given, numbered in order, and of
those it closed. Between two ledgers a program keeps to its own handles
where it closes none that was given before and none twice, `Own`, and it
settles them where each was closed exactly once, `Settled`. Both compose,
so a run settles what it was given exactly if each of its events does.
Nothing here knows what the handles are for.
-/

namespace SmartLock

/-- The number of handles given, and those closed, newest first. -/
structure Ledger where
  given : ℕ
  closed : List ℕ
  closed_lt : ∀ h ∈ closed, h < given

namespace Ledger

variable {l l' l'' : Ledger} {h : ℕ}

/-- One handle more, which is the number of those before it. -/
def give (l : Ledger) : Ledger :=
  ⟨l.given + 1, l.closed, fun h hmem => Nat.lt_succ_of_lt (l.closed_lt h hmem)⟩

/-- A handle closed. What was never given is no handle. -/
def close (h : ℕ) (l : Ledger) : Ledger :=
  if hlt : h < l.given then
    ⟨l.given, h :: l.closed, List.forall_mem_cons.2 ⟨hlt, l.closed_lt⟩⟩
  else l

@[simp] theorem give_given (l : Ledger) : l.give.given = l.given + 1 := rfl

@[simp] theorem give_closed (l : Ledger) : l.give.closed = l.closed := rfl

@[simp] theorem close_given (h : ℕ) (l : Ledger) : (l.close h).given = l.given := by
  unfold close
  split <;> rfl

theorem close_closed (hlt : h < l.given) : (l.close h).closed = h :: l.closed := by
  rw [close, dif_pos hlt]

theorem count_eq_zero (hle : l.given ≤ h) : l.closed.count h = 0 :=
  List.count_eq_zero.2 fun hmem => (l.closed_lt h hmem).not_ge hle

/-- Between the two ledgers no handle was closed that was given before, and
none twice. -/
structure Own (l l' : Ledger) : Prop where
  given_le : l.given ≤ l'.given
  before : ∀ h < l.given, l'.closed.count h = l.closed.count h
  once : ∀ h, l.given ≤ h → l'.closed.count h ≤ 1

/-- Each handle given between the two ledgers was closed, exactly once. -/
def Settled (l l' : Ledger) : Prop := ∀ h, l.given ≤ h → h < l'.given → l'.closed.count h = 1

theorem Own.refl (l : Ledger) : Own l l where
  given_le := le_rfl
  before _ _ := rfl
  once h hle := by rw [count_eq_zero hle]; exact Nat.zero_le 1

theorem Own.trans (h₁ : Own l l') (h₂ : Own l' l'') : Own l l'' where
  given_le := h₁.given_le.trans h₂.given_le
  before h hlt := (h₂.before h (hlt.trans_le h₁.given_le)).trans (h₁.before h hlt)
  once h hle := by
    rcases Nat.lt_or_ge h l'.given with hlt | hge
    · rw [h₂.before h hlt]
      exact h₁.once h hle
    · exact h₂.once h hge

theorem Settled.refl (l : Ledger) : Settled l l := fun _ hle hlt => absurd hlt hle.not_gt

/-- **What is settled in two parts is settled in each**, as neither closes
the handles of the other. -/
theorem settled_trans_iff (h₁ : Own l l') (h₂ : Own l' l'') :
    Settled l l'' ↔ Settled l l' ∧ Settled l' l'' := by
  constructor
  · refine fun hall => ⟨fun h hle hlt => ?_, fun h hle hlt => ?_⟩
    · rw [← h₂.before h hlt]
      exact hall h hle (hlt.trans_le h₂.given_le)
    · exact hall h (h₁.given_le.trans hle) hlt
  · rintro ⟨hleft, hright⟩ h hle hlt
    rcases Nat.lt_or_ge h l'.given with hlt' | hge
    · rw [h₂.before h hlt']
      exact hleft h hle hlt'
    · exact hright h hge hlt

/-- A handle given and not closed. -/
theorem Own.give (l : Ledger) : Own l l.give where
  given_le := Nat.le_succ _
  before _ _ := rfl
  once := (Own.refl l).once

/-- A handle given and closed. -/
theorem give_close_settled (l : Ledger) : Own l (l.give.close l.given) ∧
    Settled l (l.give.close l.given) := by
  have hclosed : (l.give.close l.given).closed = l.given :: l.closed :=
    close_closed (Nat.lt_succ_self _)
  have hself : (l.give.close l.given).closed.count l.given = 1 := by
    rw [hclosed, List.count_cons_self, count_eq_zero le_rfl]
  have hother : ∀ h, h ≠ l.given →
      (l.give.close l.given).closed.count h = l.closed.count h := fun h hne => by
    rw [hclosed, List.count_cons_of_ne hne.symm]
  refine ⟨⟨?_, fun h hlt => hother h hlt.ne, fun h hle => ?_⟩, fun h hle hlt => ?_⟩
  · rw [close_given]
    exact Nat.le_succ _
  · rcases hle.eq_or_lt with rfl | hlt
    · exact hself.le
    · rw [hother h hlt.ne', count_eq_zero hle]
      exact Nat.zero_le 1
  · rw [close_given, give_given] at hlt
    rw [show h = l.given by omega, hself]

/-- A handle that stays open is never settled, whatever follows of other
handles. -/
theorem not_settled_of_give (hrest : Own l.give l') : ¬ Settled l l' := by
  intro hall
  have hcount := hall l.given le_rfl (Nat.lt_of_succ_le hrest.given_le)
  rw [hrest.before l.given (Nat.lt_succ_self _), give_closed, count_eq_zero le_rfl] at hcount
  exact absurd hcount (by decide)

/-! ## Runs -/

open Prog

variable {σ ε ι : Type} (ledger : σ → Ledger) {step : ι → Prog σ ε Unit} {es : List ι} {s s' : σ}

/-- What keeps to its own handles event by event does over a run. -/
theorem exec_own (hown : ∀ e s s', (step e).run s = (.ok (), s') → Own (ledger s) (ledger s'))
    (hrun : (exec step es).run s = (.ok (), s')) : Own (ledger s) (ledger s') :=
  exec_keeps (I := fun t => Own (ledger s) (ledger t))
    (fun e t t' hs hstep => hs.trans (hown e t t' hstep)) (.refl _) hrun

/-- **A run settles its handles exactly if each of its events does.** -/
theorem exec_settled_iff
    (hown : ∀ e s s', (step e).run s = (.ok (), s') → Own (ledger s) (ledger s'))
    (hrun : (exec step es).run s = (.ok (), s')) :
    Settled (ledger s) (ledger s') ↔ Throughout step
      (fun e s => ∀ s', (step e).run s = (.ok (), s') → Settled (ledger s) (ledger s')) es s := by
  induction es generalizing s with
  | nil =>
    cases hrun
    exact iff_of_true (.refl _) trivial
  | cons e es ih =>
    obtain ⟨_, t, he, hrest⟩ := bind_ok.1 hrun
    rw [settled_trans_iff (hown e s t he) (exec_own ledger hown hrest), ih hrest]
    -- the event leaves one state
    have hunique : ∀ t', (step e).run s = (.ok (), t') → t' = t := fun t' he' =>
      congrArg Prod.snd (he'.symm.trans he)
    constructor
    · rintro ⟨hsettled, hall⟩
      refine ⟨fun t' he' => ?_, fun t' he' => ?_⟩
      · rwa [hunique t' he']
      · rwa [hunique t' he']
    · exact fun ⟨hsettled, hall⟩ => ⟨hsettled t he, hall t he⟩

end Ledger

end SmartLock
