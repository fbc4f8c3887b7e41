import Mathlib.Logic.Relation
import Mathlib.Tactic.Common

/-!
# Programs that may fault

A `Prog σ ε α` reads and writes a state, and either returns a value or
stops with a fault. The state reached is kept in both cases, so that what
a program did before it faulted can still be spoken of. This file holds
the program combinators, the inversion of a sequence that returned, and
the rules to reason about a whole program, or a run of them, from its
parts: `Steps`, for a reflexive and transitive relation every part
respects, `Returns`, and `Throughout`, for a condition every event of a run
meets. Nothing here knows what the programs are about.
-/

namespace SmartLock

/-- A program over the state `σ` that returns an `α` or faults with an
`ε`. -/
def Prog (σ ε α : Type) : Type := σ → Except ε α × σ

namespace Prog

variable {σ ε α β : Type}

/-- The outcome and the state a program reaches from `s`. -/
def run (m : Prog σ ε α) (s : σ) : Except ε α × σ := m s

instance : Monad (Prog σ ε) where
  pure a := fun s => (.ok a, s)
  bind m f := fun s =>
    match m s with
    | (.ok a, s') => f a s'
    | (.error e, s') => (.error e, s')

/-- Read the state. -/
def get : Prog σ ε σ := fun s => (.ok s, s)

/-- Update the state. -/
def modify (f : σ → σ) : Prog σ ε Unit := fun s => (.ok (), f s)

/-- Stop with a fault. -/
def fail (e : ε) : Prog σ ε α := fun s => (.error e, s)

@[simp] theorem run_pure (a : α) (s : σ) : (pure a : Prog σ ε α).run s = (.ok a, s) := rfl

@[simp] theorem run_get (s : σ) : (get : Prog σ ε σ).run s = (.ok s, s) := rfl

@[simp] theorem run_modify (f : σ → σ) (s : σ) :
    (modify f : Prog σ ε Unit).run s = (.ok (), f s) := rfl

@[simp] theorem run_fail (e : ε) (s : σ) : (fail e : Prog σ ε α).run s = (.error e, s) := rfl

theorem run_bind (m : Prog σ ε α) (f : α → Prog σ ε β) (s : σ) :
    (m >>= f).run s = match m.run s with
      | (.ok a, s') => (f a).run s'
      | (.error e, s') => (.error e, s') := rfl

@[simp] theorem pure_bind (a : α) (f : α → Prog σ ε β) : (pure a >>= f) = f a := rfl

@[simp] theorem run_get_bind (f : σ → Prog σ ε β) (s : σ) : (get >>= f).run s = (f s).run s := rfl

@[simp] theorem run_bind_bind {γ : Type} (m : Prog σ ε α) (f : α → Prog σ ε β)
    (g : β → Prog σ ε γ) (s : σ) :
    ((m >>= f) >>= g).run s = (m >>= fun a => f a >>= g).run s := by
  simp only [run_bind]
  rcases m.run s with ⟨_ | _, _⟩ <;> rfl

/-- Sequences that go on alike from where their first part returns. -/
theorem run_bind_congr_of {m : Prog σ ε α} {f g : α → Prog σ ε β} {s : σ}
    (h : ∀ a s₁, m.run s = (.ok a, s₁) → (f a).run s₁ = (g a).run s₁) :
    (m >>= f).run s = (m >>= g).run s := by
  rcases hm : m.run s with ⟨_ | a, s₁⟩
  · simp only [run_bind, hm]
  · simp only [run_bind, hm, h a s₁ hm]

theorem run_bind_congr {m : Prog σ ε α} {f g : α → Prog σ ε β} {s : σ}
    (h : ∀ a s₁, (f a).run s₁ = (g a).run s₁) : (m >>= f).run s = (m >>= g).run s :=
  run_bind_congr_of fun a s₁ _ => h a s₁

/-- A sequence whose first part returns goes on from there. -/
theorem run_bind_ok {m : Prog σ ε α} {f : α → Prog σ ε β} {s s₁ : σ} {a : α}
    (h : m.run s = (.ok a, s₁)) : (m >>= f).run s = (f a).run s₁ := by
  rw [run_bind, h]

/-- A sequence whose first part faults faults there. -/
theorem run_bind_error {m : Prog σ ε α} {f : α → Prog σ ε β} {s s₁ : σ} {e : ε}
    (h : m.run s = (.error e, s₁)) : (m >>= f).run s = (.error e, s₁) := by
  rw [run_bind, h]

/-- **A sequence returned exactly if both its parts did.** -/
theorem bind_ok {m : Prog σ ε α} {f : α → Prog σ ε β} {s s' : σ} {b : β} :
    (m >>= f).run s = (.ok b, s') ↔
      ∃ a s₁, m.run s = (.ok a, s₁) ∧ (f a).run s₁ = (.ok b, s') := by
  rw [run_bind]
  constructor
  · intro h
    rcases hm : m.run s with ⟨e | a, s₁⟩
    · rw [hm] at h
      cases h
    · rw [hm] at h
      exact ⟨a, s₁, rfl, h⟩
  · rintro ⟨a, s₁, hm, hf⟩
    rw [hm]
    exact hf

/-- **A sequence faulted** in its first part or behind it. -/
theorem bind_error {m : Prog σ ε α} {f : α → Prog σ ε β} {s s' : σ} {e : ε} :
    (m >>= f).run s = (.error e, s') ↔ m.run s = (.error e, s') ∨
      ∃ a s₁, m.run s = (.ok a, s₁) ∧ (f a).run s₁ = (.error e, s') := by
  rw [run_bind]
  rcases hm : m.run s with ⟨e' | a, s₁⟩
  · simp
  · simp

/-! ## Relations every part of a program respects -/

/-- A reflexive and transitive relation between the states before and
after a program. -/
structure Frame (σ : Type) where
  /-- The relation. -/
  rel : σ → σ → Prop
  refl : ∀ s, rel s s
  trans : ∀ {s t u}, rel s t → rel t u → rel s u

/-- The frame of the changes that keep an invariant. -/
def Frame.keeping (I : σ → Prop) : Frame σ where
  rel s t := I s → I t
  refl _ := id
  trans h₁ h₂ h := h₂ (h₁ h)

/-- What the frame says of a program it says of each of its runs. -/
theorem Frame.of_run {F : Frame σ} {m : Prog σ ε α} {s s' : σ} {r : Except ε α}
    (hm : F.rel s (m.run s).2) (h : m.run s = (r, s')) : F.rel s s' := by
  rwa [h] at hm

/-- Whatever the outcome, the program moves within the frame. -/
def Steps (F : Frame σ) (m : Prog σ ε α) : Prop := ∀ s, F.rel s (m.run s).2

namespace Steps

variable {F : Frame σ}

theorem pure (a : α) : Steps F (Pure.pure a : Prog σ ε α) := fun s => F.refl s

theorem get : Steps F (Prog.get : Prog σ ε σ) := fun s => F.refl s

theorem fail (e : ε) : Steps F (Prog.fail e : Prog σ ε α) := fun s => F.refl s

theorem modify {f : σ → σ} (h : ∀ s, F.rel s (f s)) : Steps F (Prog.modify f : Prog σ ε Unit) := h

/-- **Frames compose along a sequence**, by transitivity. -/
theorem bind {m : Prog σ ε α} {f : α → Prog σ ε β} (hm : Steps F m) (hf : ∀ a, Steps F (f a)) :
    Steps F (m >>= f) := by
  intro s
  rcases hr : m.run s with ⟨e | a, s₁⟩
  · rw [run_bind_error hr]
    exact Frame.of_run (hm s) hr
  · rw [run_bind_ok hr]
    exact F.trans (Frame.of_run (hm s) hr) (hf a s₁)

theorem ite {c : Prop} [Decidable c] {m n : Prog σ ε α} (hm : c → Steps F m)
    (hn : ¬ c → Steps F n) : Steps F (if c then m else n) := by
  by_cases h : c
  · rw [if_pos h]; exact hm h
  · rw [if_neg h]; exact hn h

/-- A program of a smaller frame is one of a larger. -/
theorem mono {G : Frame σ} {m : Prog σ ε α} (hm : Steps F m)
    (h : ∀ s t, F.rel s t → G.rel s t) : Steps G m := fun s => h _ _ (hm s)

/-- Where the program returned, the frame relates the two states. -/
theorem of_ok {m : Prog σ ε α} (hm : Steps F m) {s s' : σ} {a : α}
    (h : m.run s = (.ok a, s')) : F.rel s s' := Frame.of_run (hm s) h

end Steps

/-! ## Programs that return -/

/-- From `s` the program returns. -/
def Returns (m : Prog σ ε α) (s : σ) : Prop := ∃ a s', m.run s = (.ok a, s')

namespace Returns

variable {s : σ}

theorem ne_error {m : Prog σ ε α} {s' : σ} {e : ε} (h : Returns m s) :
    m.run s ≠ (.error e, s') := by
  obtain ⟨a, t, h⟩ := h
  rw [h]
  exact fun heq => nomatch (Prod.mk.inj heq).1

theorem pure (a : α) : Returns (Pure.pure a : Prog σ ε α) s := ⟨a, s, rfl⟩

/-- **A sequence returns** where its second part does from wherever the
first returned. -/
theorem bind {m : Prog σ ε α} {f : α → Prog σ ε β} (hm : Returns m s)
    (hf : ∀ a s₁, m.run s = (.ok a, s₁) → Returns (f a) s₁) : Returns (m >>= f) s := by
  obtain ⟨a, s₁, hm⟩ := hm
  obtain ⟨b, s₂, hf⟩ := hf a s₁ hm
  exact ⟨b, s₂, bind_ok.2 ⟨a, s₁, hm, hf⟩⟩

/-- A sequence whose first part is known goes on from there. -/
theorem step {m : Prog σ ε α} {f : α → Prog σ ε β} {s₁ : σ} {a : α} (hm : m.run s = (.ok a, s₁))
    (hf : Returns (f a) s₁) : Returns (m >>= f) s := by
  obtain ⟨b, s₂, hf⟩ := hf
  exact ⟨b, s₂, bind_ok.2 ⟨a, s₁, hm, hf⟩⟩

/-- **A sequence returns exactly if** its first part does and its second
part does from there. -/
theorem bind_iff {m : Prog σ ε α} {f : α → Prog σ ε β} :
    Returns (m >>= f) s ↔ ∃ a s₁, m.run s = (.ok a, s₁) ∧ Returns (f a) s₁ := by
  constructor
  · rintro ⟨b, t, h⟩
    obtain ⟨a, s₁, hm, hf⟩ := bind_ok.1 h
    exact ⟨a, s₁, hm, b, t, hf⟩
  · rintro ⟨a, s₁, hm, hf⟩
    exact .step hm hf

theorem step_iff {m : Prog σ ε α} {f : α → Prog σ ε β} {s₁ : σ} {a : α}
    (hm : m.run s = (.ok a, s₁)) : Returns (m >>= f) s ↔ Returns (f a) s₁ := by
  rw [Returns, Returns, run_bind_ok hm]

theorem get_bind_iff {k : σ → Prog σ ε α} :
    Returns (Prog.get >>= k) s ↔ Returns (k s) s := step_iff rfl

theorem modify_bind_iff {f : σ → σ} {k : Unit → Prog σ ε α} :
    Returns (Prog.modify f >>= k) s ↔ Returns (k ()) (f s) := step_iff rfl

theorem ite {c : Prop} [Decidable c] {m n : Prog σ ε α} (hm : c → Returns m s)
    (hn : ¬ c → Returns n s) : Returns (if c then m else n) s := by
  by_cases h : c
  · rw [if_pos h]; exact hm h
  · rw [if_neg h]; exact hn h

end Returns

/-! ## Running a list of events -/

variable {ι : Type}

/-- The events of a list, handled in order. -/
def exec (step : ι → Prog σ ε Unit) : List ι → Prog σ ε Unit
  | [] => Pure.pure ()
  | e :: es => step e >>= fun _ => exec step es

variable {step : ι → Prog σ ε Unit}

@[simp] theorem exec_nil : exec step [] = (Pure.pure () : Prog σ ε Unit) := rfl

theorem exec_cons (e : ι) (es : List ι) : exec step (e :: es) = step e >>= fun _ => exec step es :=
  rfl

/-- A run that returned did each of its events, in order. -/
theorem exec_append {es fs : List ι} {s s' : σ} :
    (exec step (es ++ fs)).run s = (.ok (), s') ↔
      ∃ s₁, (exec step es).run s = (.ok (), s₁) ∧ (exec step fs).run s₁ = (.ok (), s') := by
  induction es generalizing s with
  | nil => simp
  | cons e es ih =>
    rw [List.cons_append, exec_cons, bind_ok, exec_cons]
    constructor
    · rintro ⟨_, s₁, he, hr⟩
      obtain ⟨s₂, h₁, h₂⟩ := ih.1 hr
      exact ⟨s₂, bind_ok.2 ⟨_, s₁, he, h₁⟩, h₂⟩
    · rintro ⟨s₂, h₁, h₂⟩
      obtain ⟨_, s₁, he, hr⟩ := bind_ok.1 h₁
      exact ⟨_, s₁, he, ih.2 ⟨s₂, hr, h₂⟩⟩

/-- One more event. -/
theorem exec_snoc {e : ι} {es : List ι} {s s₁ s₂ : σ} (h : (exec step es).run s = (.ok (), s₁))
    (hstep : (step e).run s₁ = (.ok (), s₂)) : (exec step (es ++ [e])).run s = (.ok (), s₂) :=
  exec_append.2 ⟨s₁, h, bind_ok.2 ⟨(), s₂, hstep, rfl⟩⟩

/-- Every event of a run meets `P` in the state it is handled in. -/
def Throughout (step : ι → Prog σ ε Unit) (P : ι → σ → Prop) : List ι → σ → Prop
  | [], _ => True
  | e :: es, s => P e s ∧ ∀ s', (step e).run s = (.ok (), s') → Throughout step P es s'

/-- **The rule of runs that meet a condition**: where the condition keeps
an invariant and under it implies another, the other is met throughout. -/
theorem Throughout.imp {P Q : ι → σ → Prop} {I : σ → Prop}
    (hkeep : ∀ e s s', I s → P e s → (step e).run s = (.ok (), s') → I s')
    (himp : ∀ e s, I s → P e s → Q e s) :
    ∀ {es : List ι} {s : σ}, I s → Throughout step P es s → Throughout step Q es s := by
  intro es
  induction es with
  | nil => exact fun _ _ => trivial
  | cons e es ih =>
    rintro s hI ⟨hP, hrest⟩
    exact ⟨himp e s hI hP, fun s' hrun => ih (hkeep e s s' hI hP hrun) (hrest s' hrun)⟩

/-- Over a run that returned, two conditions that agree on every event that
returns are met together. -/
theorem Throughout.congr {P Q : ι → σ → Prop}
    (hiff : ∀ e s s', (step e).run s = (.ok (), s') → (P e s ↔ Q e s)) :
    ∀ {es : List ι} {s s' : σ}, (exec step es).run s = (.ok (), s') →
      (Throughout step P es s ↔ Throughout step Q es s) := by
  intro es
  induction es with
  | nil => exact fun _ => Iff.rfl
  | cons e es ih =>
    intro s s' hrun
    obtain ⟨_, t, he, hrest⟩ := bind_ok.1 hrun
    -- the event leaves one state, from which the rest of the run returns
    have hnext : ∀ t', (step e).run s = (.ok (), t') →
        (exec step es).run t' = (.ok (), s') := fun t' he' => by
      obtain rfl : t' = t := congrArg Prod.snd (he'.symm.trans he)
      exact hrest
    exact and_congr (hiff e s t he) (forall₂_congr fun t' he' => ih (hnext t' he'))

/-- Two conditions are met at once. -/
theorem Throughout.and {P Q : ι → σ → Prop} : ∀ {es : List ι} {s : σ}, Throughout step P es s →
    Throughout step Q es s → Throughout step (fun e s => P e s ∧ Q e s) es s := by
  intro es
  induction es with
  | nil => exact fun _ _ => trivial
  | cons e es ih =>
    rintro s ⟨hP, hPs⟩ ⟨hQ, hQs⟩
    exact ⟨⟨hP, hQ⟩, fun s' hrun => ih (hPs s' hrun) (hQs s' hrun)⟩

/-- What every event of the list meets in every state. -/
theorem Throughout.of_forall {P : ι → σ → Prop} :
    ∀ {es : List ι} {s : σ}, (∀ e ∈ es, ∀ s, P e s) → Throughout step P es s := by
  intro es
  induction es with
  | nil => exact fun _ => trivial
  | cons e es ih =>
    intro s h
    exact ⟨h e (List.mem_cons_self ..) s,
      fun s' _ => ih fun e' he' => h e' (List.mem_cons_of_mem _ he')⟩

/-- A run is checked event by event. -/
def checked (step : ι → Prog σ ε Unit) (check : ι → σ → Bool) : List ι → σ → Bool
  | [], _ => true
  | e :: es, s => check e s && checked step check es ((step e).run s).2

/-- What a check shows of an event, a checked run meets throughout. -/
theorem Throughout.of_checked {P : ι → σ → Prop} {check : ι → σ → Bool}
    (h : ∀ e s, check e s = true → P e s) : ∀ {es : List ι} {s : σ},
    checked step check es s = true → Throughout step P es s := by
  intro es
  induction es with
  | nil => exact fun _ => trivial
  | cons e es ih =>
    intro s hchecked
    rw [checked, Bool.and_eq_true] at hchecked
    refine ⟨h e s hchecked.1, fun s' hrun => ih ?_⟩
    rw [hrun] at hchecked
    exact hchecked.2

/-- The condition is met where the last event of a run is handled. -/
theorem Throughout.last {P : ι → σ → Prop} {e : ι} {s' : σ} : ∀ {es : List ι} {s : σ},
    Throughout step P (es ++ [e]) s → (exec step es).run s = (.ok (), s') → P e s' := by
  intro es
  induction es with
  | nil =>
    rintro s ⟨hP, _⟩ hrun
    cases hrun
    exact hP
  | cons e' es ih =>
    rintro s ⟨_, hrest⟩ hrun
    obtain ⟨_, s₁, hstep, hrun⟩ := bind_ok.1 hrun
    exact ih (hrest s₁ hstep) hrun

/-- One event more. -/
theorem Throughout.concat {P : ι → σ → Prop} {e : ι} : ∀ {es : List ι} {s : σ},
    Throughout step P es s → (∀ s', (exec step es).run s = (.ok (), s') → P e s') →
      Throughout step P (es ++ [e]) s := by
  intro es
  induction es with
  | nil => exact fun _ hlast => ⟨hlast _ rfl, fun _ _ => trivial⟩
  | cons e' es ih =>
    rintro s ⟨hP, hrest⟩ hlast
    exact ⟨hP, fun s₁ hstep => ih (hrest s₁ hstep) fun s' hrun =>
      hlast s' (bind_ok.2 ⟨(), s₁, hstep, hrun⟩)⟩

/-- **The rule of runs that return**: where the condition tells, under an
invariant of the events, which of them return, met throughout it tells
which runs do. -/
theorem exec_returns_iff {P : ι → σ → Prop} {I : σ → Prop}
    (hkeep : ∀ e s s', I s → (step e).run s = (.ok (), s') → I s')
    (hiff : ∀ e s, I s → (Returns (step e) s ↔ P e s)) :
    ∀ {es : List ι} {s : σ}, I s → (Returns (exec step es) s ↔ Throughout step P es s) := by
  intro es
  induction es with
  | nil => exact fun _ => iff_of_true (.pure ()) trivial
  | cons e es ih =>
    intro s hI
    rw [exec_cons, Returns.bind_iff, Throughout, ← hiff e s hI]
    constructor
    · rintro ⟨_, s₁, hstep, hrest⟩
      refine ⟨⟨(), s₁, hstep⟩, fun s' hstep' => ?_⟩
      obtain rfl : s₁ = s' := congrArg Prod.snd (hstep.symm.trans hstep')
      exact (ih (hkeep e s s₁ hI hstep)).1 hrest
    · rintro ⟨⟨_, s₁, hstep⟩, hrest⟩
      exact ⟨(), s₁, hstep, (ih (hkeep e s s₁ hI hstep)).2 (hrest s₁ hstep)⟩

/-- What every event respects, a run respects. -/
theorem Steps.exec {F : Frame σ} (h : ∀ e, Steps F (step e)) :
    ∀ es : List ι, Steps F (Prog.exec step es) := by
  intro es
  induction es with
  | nil => exact .pure ()
  | cons e es ih => exact .bind (h e) fun _ => ih

/-- **The rule of runs**: what every event that returns keeps, a run that
returns keeps. -/
theorem exec_keeps {I : σ → Prop} (h : ∀ e s s', I s → (step e).run s = (.ok (), s') → I s') :
    ∀ {es : List ι} {s s' : σ}, I s → (exec step es).run s = (.ok (), s') → I s' := by
  intro es
  induction es with
  | nil =>
    intro s s' hs hrun
    cases hrun
    exact hs
  | cons e es ih =>
    intro s s' hs hrun
    obtain ⟨_, t, hstep, hrest⟩ := bind_ok.1 hrun
    exact ih (h e s t hs hstep) hrest

/-- What every event with `P` keeps, a run of such events keeps. -/
theorem exec_keeps_of_mem {I : σ → Prop} {P : ι → Prop}
    (hstep : ∀ e s s', P e → I s → (step e).run s = (.ok (), s') → I s') :
    ∀ {es : List ι} {s s' : σ}, (∀ e ∈ es, P e) → I s → (exec step es).run s = (.ok (), s') →
      I s' := by
  intro es
  induction es with
  | nil =>
    intro s s' _ hs hrun
    cases hrun
    exact hs
  | cons e es ih =>
    intro s s' hP hs hrun
    obtain ⟨_, t, he, hrest⟩ := bind_ok.1 hrun
    exact ih (fun e' he' => hP e' (List.mem_cons_of_mem _ he'))
      (hstep e s t (hP e (List.mem_cons_self ..)) hs he) hrest

/-! ## Programs on a part of the state -/

section Zoom

variable {τ : Type} {part : τ → σ} {put : σ → τ → τ}

/-- A program on a part of the state, which `put` puts back. -/
def zoom (part : τ → σ) (put : σ → τ → τ) (m : Prog σ ε α) : Prog τ ε α := fun t =>
  ((m.run (part t)).1, put (m.run (part t)).2 t)

theorem zoom_ok {m : Prog σ ε α} {a : α} {t t' : τ} :
    (zoom part put m).run t = (.ok a, t') ↔
      ∃ s, m.run (part t) = (.ok a, s) ∧ t' = put s t := by
  change ((m.run (part t)).1, put (m.run (part t)).2 t) = (.ok a, t') ↔ _
  rw [Prod.mk.injEq]
  constructor
  · rintro ⟨hret, rfl⟩
    exact ⟨_, Prod.ext hret rfl, rfl⟩
  · rintro ⟨s, hrun, rfl⟩
    rw [hrun]
    exact ⟨rfl, rfl⟩

/-- Seen on the part, the program does what `m₀` does, with the result `f`
makes of its own. -/
def Mirrors (part : τ → σ) (f : α → β) (m : Prog τ ε α) (m₀ : Prog σ ε β) : Prop :=
  ∀ t, (m.run t).1.map f = (m₀.run (part t)).1 ∧ part (m.run t).2 = (m₀.run (part t)).2

namespace Mirrors

variable {γ δ : Type} {f : α → β} {g : γ → δ} {m : Prog τ ε α} {m₀ : Prog σ ε β}
  {k : α → Prog τ ε γ} {k₀ : β → Prog σ ε δ}

theorem pure (a : α) : Mirrors part f (Pure.pure a : Prog τ ε α) (Pure.pure (f a)) :=
  fun _ => ⟨rfl, rfl⟩

theorem fail (e : ε) : Mirrors part f (Prog.fail e : Prog τ ε α) (Prog.fail e) :=
  fun _ => ⟨rfl, rfl⟩

theorem modify {φ : τ → τ} {φ₀ : σ → σ} (h : ∀ t, part (φ t) = φ₀ (part t)) :
    Mirrors part id (Prog.modify φ : Prog τ ε Unit) (Prog.modify φ₀) := fun t => ⟨rfl, h t⟩

/-- A program on the part mirrors itself. -/
theorem zoom {m : Prog σ ε α} (hput : ∀ s t, part (put s t) = s) :
    Mirrors part id (Prog.zoom part put m) m := by
  intro t
  refine ⟨?_, hput _ t⟩
  change ((m.run (part t)).1).map id = (m.run (part t)).1
  rw [Except.map_id, id]

/-- **A sequence is mirrored part by part.** -/
theorem bind (hm : Mirrors part f m m₀) (hk : ∀ a, Mirrors part g (k a) (k₀ (f a))) :
    Mirrors part g (m >>= k) (m₀ >>= k₀) := by
  intro t
  obtain ⟨hret, hpart⟩ := hm t
  rw [run_bind, run_bind, ← Prod.eta (m₀.run (part t)), ← hret, ← hpart]
  rcases m.run t with ⟨_ | a, t'⟩
  · exact ⟨rfl, rfl⟩
  · exact hk a t'

/-- What comes behind and does not touch the part. -/
theorem bind_quiet {g : γ → β} (hm : Mirrors part f m m₀)
    (hk : ∀ a, Mirrors part g (k a) (Pure.pure (f a))) : Mirrors part g (m >>= k) m₀ := by
  intro t
  obtain ⟨hret, hpart⟩ := hm t
  rw [run_bind, ← hret, ← hpart]
  rcases m.run t with ⟨_ | a, t'⟩
  · exact ⟨rfl, rfl⟩
  · exact hk a t'

theorem modify_bind {φ : τ → τ} {k : Unit → Prog τ ε γ} {m₀ : Prog σ ε δ}
    (h : ∀ t, part (φ t) = part t) (hk : Mirrors part g (k ()) m₀) :
    Mirrors part g (Prog.modify φ >>= k) m₀ := fun t => by
  rw [← h t]
  exact hk (φ t)

theorem get_bind {k : τ → Prog τ ε γ} {m₀ : Prog σ ε δ} (h : ∀ t, Mirrors part g (k t) m₀) :
    Mirrors part g (Prog.get >>= k) m₀ := fun t => h t t

theorem ite {c : Prop} [Decidable c] {n : Prog τ ε α} {n₀ : Prog σ ε β}
    (hm : c → Mirrors part f m m₀) (hn : ¬ c → Mirrors part f n n₀) :
    Mirrors part f (if c then m else n) (if c then m₀ else n₀) := by
  by_cases hc : c
  · rw [if_pos hc, if_pos hc]
    exact hm hc
  · rw [if_neg hc, if_neg hc]
    exact hn hc

end Mirrors

end Zoom

end Prog

end SmartLock
