import SmartLock.Footprint.Server

/-!
# What is observed, and when

A footprint says which observations a program may make. What a program
has to have done before it makes one is said here: `Makes C s m` is that
every observation `m` makes from `s`, whatever its outcome, meets `C`
with the log as it then is. The rule of sequencing hands the second part
the run of the first, so that `C` can speak of what was checked.
-/

namespace SmartLock

open Prog

variable {α β : Type} {s t u : Sys} {o : Obs} {pre : List Obs} {W : World}

/-- Between `s` and `t` the observation `o` was made, on the log `pre`. -/
structure Made (s t : Sys) (o : Obs) (pre : List Obs) : Prop where
  before : s.log <:+ pre
  after : o :: pre <:+ t.log

theorem Grows.suffix {P : Obs → Prop} (h : Grows P s t) : s.log <:+ t.log := by
  obtain ⟨new, hnew, _⟩ := h
  exact ⟨new, hnew.symm⟩

/-- What was made is what the log grew by. -/
theorem Made.exists_eq (h : Made s t o pre) : ∃ post mid, t.log = (post ++ o :: mid) ++ s.log := by
  obtain ⟨mid, hmid⟩ := h.before
  obtain ⟨post, hpost⟩ := h.after
  exact ⟨post, mid, by rw [← hpost, ← hmid, List.append_assoc, List.cons_append]⟩

theorem Grows.of_made {P : Obs → Prop} (h : Grows P s t) (hmade : Made s t o pre) : P o := by
  obtain ⟨new, hnew, hp⟩ := h
  obtain ⟨post, mid, hlog⟩ := hmade.exists_eq
  have hsame : new = post ++ o :: mid := List.append_cancel_right (hnew.symm.trans hlog)
  exact hp o (by rw [hsame]; exact List.mem_append_right _ (List.mem_cons_self ..))

/-- And so is what was made before it. -/
theorem Grows.before_made {P : Obs → Prop} (h : Grows P s t) (hmade : Made s t o pre) :
    ∃ new, pre = new ++ s.log ∧ ∀ o' ∈ new, P o' := by
  obtain ⟨new, hnew, hp⟩ := h
  obtain ⟨mid, hmid⟩ := hmade.before
  obtain ⟨post, hpost⟩ := hmade.after
  have hsame : new = post ++ o :: mid := List.append_cancel_right (by
    rw [← hnew, ← hpost, ← hmid, List.append_assoc, List.cons_append])
  refine ⟨mid, hmid.symm, fun o' ho' => hp o' ?_⟩
  rw [hsame]
  exact List.mem_append_right _ (List.mem_cons_of_mem _ ho')

/-- What was observed before it was made as well. -/
theorem Made.earlier {new : List Obs} {o' : Obs} (h : Made s t o (new ++ s.log)) (ho' : o' ∈ new) :
    ∃ pre', Made s t o' pre' := by
  obtain ⟨post, mid, rfl⟩ := List.append_of_mem ho'
  have hsuffix : o' :: (mid ++ s.log) <:+ (post ++ o' :: mid) ++ s.log := by
    rw [List.append_assoc]
    exact List.suffix_append _ _
  exact ⟨mid ++ s.log, List.suffix_append _ _, (hsuffix.trans (List.suffix_cons _ _)).trans h.after⟩

/-- An observation is made in the first part or in the second. -/
theorem Made.split (h : Made s u o pre) (htu : t.log <:+ u.log) :
    Made s t o pre ∨ Made t u o pre := by
  by_cases hlen : t.log.length ≤ pre.length
  · have hpre : pre <:+ u.log := (List.suffix_cons o pre).trans h.after
    exact .inr ⟨List.suffix_of_suffix_length_le htu hpre hlen, h.after⟩
  · refine .inl ⟨h.before, List.suffix_of_suffix_length_le h.after htu ?_⟩
    rw [List.length_cons]
    omega

theorem Made.mono_right (h : Made s t o pre) (htu : t.log <:+ u.log) : Made s u o pre :=
  ⟨h.before, h.after.trans htu⟩

theorem Made.mono_left (h : Made t u o pre) (hst : s.log <:+ t.log) : Made s u o pre :=
  ⟨hst.trans h.before, h.after⟩

/-! ## Programs whose observations meet a condition -/

/-- The log only grows, and every observation made meets `C`. -/
structure Makes (C : Obs → List Obs → Prop) (s : Sys) (m : M α) : Prop where
  grows : s.log <:+ (m.run s).2.log
  made : ∀ o pre, Made s (m.run s).2 o pre → C o pre

/-- The footprint of the observations that need nothing. -/
def Footprint.free (C : Obs → List Obs → Prop) : Footprint :=
  ⟨fun _ => True, True, True, True, True, True, fun o => ∀ pre, C o pre⟩

variable {C : Obs → List Obs → Prop}

namespace Makes

/-- A program that makes only observations that need nothing. -/
theorem of_within {F : Footprint} {m : M α} (hm : Within F m)
    (h : ∀ o, o.ambient = true ∨ F.obs o → ∀ pre, C o pre) : Makes C s m :=
  have hrel : F.Rel s (m.run s).2 := hm s
  ⟨hrel.log.suffix, fun o pre hmade => h o (hrel.log.of_made hmade) pre⟩

theorem pure (x : α) : Makes C s (Pure.pure x : M α) :=
  ⟨List.suffix_refl _, fun _ _ h => absurd (h.after.length_le.trans h.before.length_le)
    (by rw [List.length_cons]; exact Nat.not_succ_le_self _)⟩

theorem observe (h : C o s.log) : Makes C s (observe o) := by
  refine ⟨⟨[o], rfl⟩, fun o' pre hmade => ?_⟩
  have hlen : pre.length = s.log.length :=
    Nat.le_antisymm (Nat.le_of_succ_le_succ hmade.after.length_le) hmade.before.length_le
  have hpre : s.log = pre := hmade.before.eq_of_length hlen.symm
  have ho : o' :: pre = o :: s.log := hmade.after.eq_of_length (by
    rw [List.length_cons, hlen]
    rfl)
  rw [List.cons.injEq] at ho
  rwa [ho.1, ← hpre]

/-- A change of the state that is not observed. -/
theorem modify {f : Sys → Sys} (hlog : (f s).log = s.log) :
    Makes C s (Prog.modify f : M Unit) := by
  refine ⟨?_, fun o pre hmade => ?_⟩
  · show s.log <:+ (f s).log
    rw [hlog]
  · have hafter := hmade.after.length_le.trans (congrArg List.length hlog).le
    have hbefore := hmade.before.length_le
    rw [List.length_cons] at hafter
    omega

/-- The state read is the state the rest starts from. -/
theorem get_bind {f : Sys → M α} (h : Makes C s (f s)) : Makes C s (Prog.get >>= f) :=
  ⟨h.grows, h.made⟩

/-- **The rule of sequencing**: the second part starts where the first
returned. -/
theorem bind {m : M α} {f : α → M β} (hm : Makes C s m)
    (hf : ∀ x s₁, m.run s = (.ok x, s₁) → Makes C s₁ (f x)) : Makes C s (m >>= f) := by
  rcases hrun : m.run s with ⟨e | x, s₁⟩
  · obtain ⟨hgrows, hmade⟩ := hm
    rw [hrun] at hgrows hmade
    constructor
    · rwa [run_bind_error hrun]
    · rwa [run_bind_error hrun]
  · obtain ⟨hgrows, hmade⟩ := hm
    rw [hrun] at hgrows hmade
    have hrest := hf x s₁ hrun
    constructor
    · rw [run_bind_ok hrun]
      exact hgrows.trans hrest.grows
    · rw [run_bind_ok hrun]
      intro o pre h
      rcases h.split hrest.grows with h | h
      · exact hmade o pre h
      · exact hrest.made o pre h

theorem ite {c : Prop} [Decidable c] {m n : M α} (hm : c → Makes C s m) (hn : ¬ c → Makes C s n) :
    Makes C s (if c then m else n) := by
  by_cases h : c
  · rw [if_pos h]; exact hm h
  · rw [if_neg h]; exact hn h

theorem mono {D : Obs → List Obs → Prop} {m : M α} (hm : Makes C s m)
    (h : ∀ o pre, C o pre → D o pre) : Makes D s m :=
  ⟨hm.grows, fun o pre hmade => h o pre (hm.made o pre hmade)⟩

/-- What holds of every observation holds of every one made. -/
theorem of_run {m : M α} {r : Except Fault α} (hm : Makes C s m) (h : m.run s = (r, t))
    (hmade : Made s t o pre) : C o pre := by
  have hrun : (m.run s).2 = t := by rw [h]
  exact hm.made o pre (hrun ▸ hmade)

end Makes

/-! ## The trace -/

/-- What was observed, but for what any program may be observed to do. -/
def Sys.trace (s : Sys) : List Obs := s.log.filter fun o => !o.ambient

theorem trace_noted (ho : o.ambient = false) : (s.noted o).trace = o :: s.trace := by
  rw [Sys.trace, Sys.noted, List.filter_cons_of_pos (by simp [ho])]
  rfl

/-- A program that observes nothing leaves the trace. -/
theorem trace_eq {F : Footprint} (hF : ∀ o, ¬ F.obs o) (h : F.Rel s t) : t.trace = s.trace := by
  obtain ⟨new, hnew, hp⟩ := h.log
  have hnil : (new.filter fun o => !o.ambient) = [] := by
    rw [List.filter_eq_nil_iff]
    intro o ho
    simp [(hp o ho).resolve_right (hF o)]
  rw [Sys.trace, hnew, List.filter_append, hnil]
  rfl

/-- What the trace grew by, the log did. -/
theorem exists_sublist {l : List Obs} (hlog : s.log <:+ t.log) (htrace : t.trace = l ++ s.trace) :
    ∃ new, t.log = new ++ s.log ∧ l.Sublist new := by
  obtain ⟨new, hnew⟩ := hlog
  refine ⟨new, hnew.symm, ?_⟩
  rw [Sys.trace, ← hnew, List.filter_append] at htrace
  rw [← List.append_cancel_right htrace]
  exact List.filter_sublist

end SmartLock
