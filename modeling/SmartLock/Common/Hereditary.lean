import SmartLock.Common.Prog

/-!
# Properties of programs that sequences inherit

Much of what is shown of a program is shown of its parts: a property that
`pure` and `get` have and sequences inherit holds of whatever is put
together of parts that have it. The frames are such properties, and so is
keeping an invariant wherever the program returns. That a program passes a
state is inherited from either part.
-/

namespace SmartLock

namespace Prog

variable {σ ε α β : Type}

/-- The property is inherited by sequences. -/
structure Hereditary (P : ∀ α : Type, Prog σ ε α → Prop) : Prop where
  pure : ∀ {α : Type} (a : α), P α (Pure.pure a)
  get : P σ Prog.get
  /-- What comes behind is asked only of what the first part can return. -/
  bind : ∀ {α β : Type} {m : Prog σ ε α} {f : α → Prog σ ε β}, P α m →
    (∀ a s s', m.run s = (.ok a, s') → P β (f a)) → P β (m >>= f)

variable {P : ∀ α : Type, Prog σ ε α → Prop}

/-- What both branches have. -/
theorem of_branches {c : Prop} [Decidable c] {m n : Prog σ ε α} (hm : P α m) (hn : P α n) :
    P α (if c then m else n) := by
  by_cases h : c
  · rw [if_pos h]
    exact hm
  · rw [if_neg h]
    exact hn

/-- **The rule of runs**: what every event has, every run has. -/
theorem Hereditary.exec {ι : Type} {step : ι → Prog σ ε Unit} (hP : Hereditary P)
    (h : ∀ e, P Unit (step e)) :
    ∀ es : List ι, P Unit (Prog.exec step es)
  | [] => hP.pure ()
  | e :: es => hP.bind (h e) fun _ _ _ _ => hP.exec h es

theorem Steps.hereditary (F : Frame σ) :
    Hereditary fun (α : Type) (m : Prog σ ε α) => Steps F m where
  pure := .pure
  get := .get
  bind {α β m f} hm hf s := by
    rcases hr : m.run s with ⟨e | a, s₁⟩
    · rw [run_bind_error hr]
      exact Frame.of_run (hm s) hr
    · rw [run_bind_ok hr]
      exact F.trans (Frame.of_run (hm s) hr) (hf a s s₁ hr s₁)

/-- Wherever the program returns, it has kept the invariant. -/
def Keeps (I : σ → Prop) (m : Prog σ ε α) : Prop := ∀ s a s', I s → m.run s = (.ok a, s') → I s'

namespace Keeps

variable {I : σ → Prop}

theorem of_steps {m : Prog σ ε α} (h : Steps (.keeping I) m) : Keeps I m :=
  fun _ _ _ hs hrun => h.of_ok hrun hs

theorem hereditary (I : σ → Prop) :
    Hereditary fun (α : Type) (m : Prog σ ε α) => Keeps I m where
  pure a := of_steps (.pure a)
  get := of_steps .get
  bind hm hf s b s' hs hrun := by
    obtain ⟨a, s₁, hfirst, hrest⟩ := bind_ok.1 hrun
    exact hf a s s₁ hfirst s₁ b s' (hm s a s₁ hs hfirst) hrest

end Keeps

/-! ## States on the way -/

variable {F : Frame σ} {s s₁ t : σ}

/-- The program passes `t`: from there to its end the frame is kept. -/
def Passes (F : Frame σ) (m : Prog σ ε α) (s t : σ) : Prop := F.rel t (m.run s).2

namespace Passes

theorem here {m : Prog σ ε α} (h : Steps F m) : Passes F m s s := h s

/-- In the first part, whatever comes behind. -/
theorem first {m : Prog σ ε α} {f : α → Prog σ ε β} (h : Passes F m s t) (hf : ∀ a, Steps F (f a)) :
    Passes F (m >>= f) s t := by
  rw [Passes] at h ⊢
  rcases hr : m.run s with ⟨e | a, s₁⟩
  · rw [hr] at h
    rw [run_bind_error hr]
    exact h
  · rw [hr] at h
    rw [run_bind_ok hr]
    exact F.trans h (hf a s₁)

/-- Or in what comes behind a first part that returned. -/
theorem behind {m : Prog σ ε α} {f : α → Prog σ ε β} {a : α} (hm : m.run s = (.ok a, s₁))
    (h : Passes F (f a) s₁ t) : Passes F (m >>= f) s t := by
  rw [Passes, run_bind_ok hm]
  exact h

end Passes

end Prog

end SmartLock
