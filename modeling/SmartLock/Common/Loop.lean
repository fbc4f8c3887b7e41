import Mathlib.Logic.Relation
import Mathlib.Tactic.Common

/-!
# Loops

A `while` loop over a state: a condition, and a body that may fault. What
a loop passes through is the reflexive and transitive closure of its turns,
`Reach`; it ends where it reaches a state in which the condition fails.
This file holds the rules for both: the invariant of a loop holds wherever
it passes, a variant that every turn decreases ends it, and it ends in one
state. `run` is the loop with a number of turns to make it computable. A
`for` loop over indices is a fold, and has a rule of its own. Nothing here
knows what the loops are about.
-/

namespace SmartLock

/-- A loop: its condition and its body, `none` where the body faults. -/
structure Loop (σ : Type) where
  cond : σ → Bool
  body : σ → Option σ

namespace Loop

variable {σ : Type} (L : Loop σ)

/-- One turn of the loop. -/
def Turn (s t : σ) : Prop := L.cond s = true ∧ L.body s = some t

/-- What the loop passes through. -/
def Reach : σ → σ → Prop := Relation.ReflTransGen L.Turn

/-- The loop, begun in `s`, ends in `t`. -/
def Ends (s t : σ) : Prop := L.Reach s t ∧ L.cond t = false

/-- The loop, for at most `n` evaluations of its condition. -/
def run : ℕ → σ → Option σ
  | 0, _ => none
  | n + 1, s => if L.cond s then (L.body s).bind (run n) else some s

variable {L} {s t u : σ}

theorem Reach.refl : L.Reach s s := Relation.ReflTransGen.refl

theorem Reach.turn (h : L.Reach s t) (hturn : L.Turn t u) : L.Reach s u := h.tail hturn

theorem Reach.of_turn (hturn : L.Turn s t) (h : L.Reach t u) : L.Reach s u := h.head hturn

/-- **The invariant of a loop**: what every turn keeps holds wherever the
loop passes. -/
theorem Reach.keeps {I : σ → Prop} (hkeep : ∀ s t, I s → L.Turn s t → I t) (hs : I s)
    (h : L.Reach s t) : I t := by
  induction h with
  | refl => exact hs
  | tail _ hturn ih => exact hkeep _ _ ih hturn

/-- A turn leads to one state. -/
theorem Turn.unique (h : L.Turn s t) (h' : L.Turn s u) : t = u :=
  Option.some.inj (h.2.symm.trans h'.2)

/-- Where the loop has ended it turns no more. -/
theorem Ends.not_turn (h : L.Ends s t) : ¬ L.Turn t u := fun hturn => by
  have hcond := hturn.1
  rw [h.2] at hcond
  exact Bool.false_ne_true hcond

theorem Ends.here (h : L.cond s = false) : L.Ends s s := ⟨.refl, h⟩

theorem Ends.of_turn (hturn : L.Turn s t) (h : L.Ends t u) : L.Ends s u :=
  ⟨.of_turn hturn h.1, h.2⟩

/-- **A loop that ends passes through everything it reaches**: from each
state on its way it ends in the same one. -/
theorem Ends.of_reach (h : L.Ends s t) (hreach : L.Reach s u) : L.Ends u t := by
  refine hreach.keeps (I := (L.Ends · t)) (fun v w hv hturn => ?_) h
  -- the loop goes on from `v`, and so through `w`
  rcases hv.1.cases_head with heq | ⟨w', hturn', hrest⟩
  · exact absurd hturn (heq ▸ hv.not_turn)
  · rw [hturn.unique hturn']
    exact ⟨hrest, hv.2⟩

/-- A loop ends in one state. -/
theorem Ends.unique (h : L.Ends s t) (h' : L.Ends s u) : t = u := by
  rcases (h.of_reach h'.1).1.cases_head with heq | ⟨w, hturn, _⟩
  · exact heq.symm
  · exact absurd hturn h'.not_turn

/-- **The rule of termination**: a variant that every turn decreases while
an invariant holds ends the loop, under the invariant. -/
theorem ends_of_variant {I : σ → Prop} (v : σ → ℕ)
    (hturn : ∀ s, I s → L.cond s = true → ∃ t, L.body s = some t ∧ I t ∧ v t < v s) :
    ∀ s, I s → ∃ t, L.Ends s t ∧ I t := by
  intro s
  induction hn : v s using Nat.strongRecOn generalizing s with
  | ind n ih =>
    intro hs
    by_cases hc : L.cond s = true
    · obtain ⟨t, hbody, hI, hlt⟩ := hturn s hs hc
      obtain ⟨u, hends, hu⟩ := ih (v t) (by omega) t rfl hI
      exact ⟨u, .of_turn ⟨hc, hbody⟩ hends, hu⟩
    · exact ⟨s, .here (Bool.eq_false_iff.2 hc), hs⟩

/-- **The loop ends exactly if some number of turns is enough to run
it.** -/
theorem ends_iff_run : L.Ends s t ↔ ∃ n, L.run n s = some t := by
  constructor
  · rintro ⟨hreach, hcond⟩
    induction hreach using Relation.ReflTransGen.head_induction_on with
    | refl => exact ⟨1, by simp [run, hcond]⟩
    | head hturn _ ih =>
      obtain ⟨n, hn⟩ := ih
      refine ⟨n + 1, ?_⟩
      rw [run, if_pos hturn.1, hturn.2]
      exact hn
  · rintro ⟨n, hn⟩
    induction n generalizing s with
    | zero => simp [run] at hn
    | succ n ih =>
      rw [run] at hn
      by_cases hc : L.cond s = true
      · rw [if_pos hc, Option.bind_eq_some_iff] at hn
        obtain ⟨u, hbody, hu⟩ := hn
        exact .of_turn ⟨hc, hbody⟩ (ih hu)
      · rw [if_neg hc, Option.some.injEq] at hn
        subst hn
        exact .here (Bool.eq_false_iff.2 hc)

/-- More turns than enough change nothing. -/
theorem run_mono {m n : ℕ} (h : L.run m s = some t) (hle : m ≤ n) : L.run n s = some t := by
  induction m generalizing s n with
  | zero => simp [run] at h
  | succ m ih =>
    obtain ⟨k, rfl⟩ : ∃ k, n = k + 1 := ⟨n - 1, by omega⟩
    rw [run] at h ⊢
    by_cases hc : L.cond s = true
    · rw [if_pos hc, Option.bind_eq_some_iff] at h
      obtain ⟨u, hbody, hu⟩ := h
      rw [if_pos hc, hbody]
      exact ih hu (by omega)
    · rwa [if_neg hc] at h ⊢

end Loop

/-- **The rule of the `for` loop**: what holds before the first index, and
is carried from each index to the next, holds behind the last. -/
theorem forRange_some {β : Type} {f : β → ℕ → Option β} {I : ℕ → β → Prop} {n : ℕ} {b : β}
    (hb : I 0 b) (hstep : ∀ i < n, ∀ b, I i b → ∃ b', f b i = some b' ∧ I (i + 1) b') :
    ∃ b', (List.range n).foldlM f b = some b' ∧ I n b' := by
  induction n with
  | zero => exact ⟨b, rfl, hb⟩
  | succ n ih =>
    obtain ⟨b₁, hrun, hI⟩ := ih fun i hi => hstep i (Nat.lt_succ_of_lt hi)
    obtain ⟨b₂, hlast, hI'⟩ := hstep n (Nat.lt_succ_self n) b₁ hI
    exact ⟨b₂, by simp [List.range_succ, hrun, hlast], hI'⟩

end SmartLock
