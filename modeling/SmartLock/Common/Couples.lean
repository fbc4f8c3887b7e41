import SmartLock.Common.Prog

/-!
# Two programs side by side

A program over one state and a program over another, run from states that
a relation relates: both return, with results and states that a relation
relates, or both stop with the same fault. The rules are those of the
program combinators, a case for each, and the rule of runs: what every
event couples, a run couples, and the results are the same event by event.
Nothing here knows what the programs are about.
-/

namespace SmartLock

namespace Prog

variable {σ τ ε α β γ δ ι ρ : Type}

/-- The two outcomes agree: both programs returned, and `Q` relates what
they returned and reached, or both stopped with one fault in states that
`R` relates. -/
def Agree (R : τ → σ → Prop) (Q : α → β → τ → σ → Prop) : Except ε α × τ → Except ε β × σ → Prop
  | (.ok a, t), (.ok b, s) => Q a b t s
  | (.error e, t), (.error e', s) => e = e' ∧ R t s
  | _, _ => False

variable {R : τ → σ → Prop} {m : Prog τ ε α} {m₀ : Prog σ ε β} {t : τ} {s : σ}

/-- Sequences agree where their first parts do and what comes behind
does. -/
theorem Agree.bind {Q : α → β → τ → σ → Prop} {S : γ → δ → τ → σ → Prop} {k : α → Prog τ ε γ}
    {k₀ : β → Prog σ ε δ} (h : Agree R Q (m.run t) (m₀.run s))
    (hk : ∀ a b t' s', Q a b t' s' → Agree R S ((k a).run t') ((k₀ b).run s')) :
    Agree R S ((m >>= k).run t) ((m₀ >>= k₀).run s) := by
  rw [run_bind, run_bind]
  rcases hrun : m.run t with ⟨e | a, t'⟩ <;> rcases hrun₀ : m₀.run s with ⟨e' | b, s'⟩ <;>
    rw [hrun, hrun₀] at h
  · exact h
  · exact h.elim
  · exact h.elim
  · exact hk a b t' s' h

/-- What the first program makes of its result is its own. -/
theorem Agree.map_left {S : γ → β → τ → σ → Prop} {f : α → γ}
    (h : Agree R (fun a b t s => S (f a) b t s) (m.run t) (m₀.run s)) :
    Agree R S ((m >>= fun a => Pure.pure (f a)).run t) (m₀.run s) := by
  rw [run_bind]
  rcases hrun : m.run t with ⟨e | a, t'⟩ <;> rcases hrun₀ : m₀.run s with ⟨e' | b, s'⟩ <;>
    rw [hrun, hrun₀] at h <;> exact h

/-- From states that `P` relates, the outcomes agree. -/
def Couples (P R : τ → σ → Prop) (m : Prog τ ε α) (m₀ : Prog σ ε β) (Q : α → β → τ → σ → Prop) :
    Prop :=
  ∀ t s, P t s → Agree R Q (m.run t) (m₀.run s)

namespace Couples

variable {P P' R : τ → σ → Prop} {Q Q' : α → β → τ → σ → Prop} {S : γ → δ → τ → σ → Prop}
  {m : Prog τ ε α} {m₀ : Prog σ ε β} {k : α → Prog τ ε γ} {k₀ : β → Prog σ ε δ}

theorem pure {a : α} {b : β} (h : ∀ t s, P t s → Q a b t s) :
    Couples P R (Pure.pure a : Prog τ ε α) (Pure.pure b) Q := h

/-- **Sequences are coupled part by part.** -/
theorem bind (hm : Couples P R m m₀ Q) (hk : ∀ a b, Couples (Q a b) R (k a) (k₀ b) S) :
    Couples P R (m >>= k) (m₀ >>= k₀) S := fun t s hP => (hm t s hP).bind fun a b => hk a b

/-- A part that only the first program runs. -/
theorem bind_left {Q : α → τ → σ → Prop} {n₀ : Prog σ ε δ}
    (hm : Couples P R m (Pure.pure () : Prog σ ε Unit) fun a _ => Q a)
    (hk : ∀ a, Couples (Q a) R (k a) n₀ S) : Couples P R (m >>= k) n₀ S := by
  intro t s hP
  have hrun : n₀.run s = ((Pure.pure () : Prog σ ε Unit) >>= fun _ => n₀).run s := rfl
  rw [hrun]
  exact (hm t s hP).bind fun a _ => hk a

/-- Less may be known before, and asked behind. -/
theorem conseq (hm : Couples P R m m₀ Q) (hP : ∀ t s, P' t s → P t s)
    (hQ : ∀ a b t s, Q a b t s → Q' a b t s) : Couples P' R m m₀ Q' := by
  intro t s h
  have hagree := hm t s (hP t s h)
  rcases hrun : m.run t with ⟨e | a, t'⟩ <;> rcases hrun₀ : m₀.run s with ⟨e' | b, s'⟩ <;>
    rw [hrun, hrun₀] at hagree
  · exact hagree
  · exact hagree
  · exact hagree
  · exact hQ a b t' s' hagree

end Couples

/-! ## Runs with results -/

/-- The events of a list, handled in order, and what each returned. -/
def results (step : ι → Prog σ ε ρ) : List ι → Prog σ ε (List ρ)
  | [] => Pure.pure []
  | e :: es => do
    let r ← step e
    let rs ← results step es
    return r :: rs

/-- **The rule of coupled runs**: where every event returns the same on
both sides, so does every run. -/
theorem Couples.results {R : τ → σ → Prop} {step : ι → Prog τ ε ρ} {step₀ : ι → Prog σ ε ρ}
    (h : ∀ e, Couples R R (step e) (step₀ e) fun r r₀ t s => r = r₀ ∧ R t s) (es : List ι) :
    Couples R R (Prog.results step es) (Prog.results step₀ es) fun r r₀ t s => r = r₀ ∧ R t s := by
  induction es with
  | nil => exact .pure fun _ _ hR => ⟨rfl, hR⟩
  | cons e es ih =>
    refine .bind (h e) fun r r₀ => .bind (Q := fun rs rs₀ t s => (r = r₀ ∧ rs = rs₀) ∧ R t s) ?_
      fun rs rs₀ => .pure fun t s ⟨⟨hr, hrs⟩, hR⟩ => ⟨by rw [hr, hrs], hR⟩
    intro t s ⟨hr, hR⟩
    have hrest : Couples R R (Prog.results step es) (Prog.results step₀ es)
        fun rs rs₀ t s => (r = r₀ ∧ rs = rs₀) ∧ R t s :=
      ih.conseq (fun _ _ => id) fun rs rs₀ t s ⟨hrs, hR⟩ => ⟨⟨hr, hrs⟩, hR⟩
    exact hrest t s hR

end Prog

end SmartLock
