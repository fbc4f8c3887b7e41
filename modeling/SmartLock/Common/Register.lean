import Mathlib.Data.List.Basic

/-!
# A register whose writes are acknowledged

Calls write a register, or do not, and are acknowledged, or are not. A
register that can be lost at any call holds behind each call what it held,
or nothing, or what the call writes; an acknowledged write it holds. So
what it holds was written, and by no write that an acknowledged one is
behind. Nothing here knows what the calls or the values are.
-/

namespace SmartLock

/-- What calls write to a register, where they write to it, and which are
acknowledged. -/
structure Register (ι β : Type) where
  writes : ι → Option (Option β)
  acknowledged : ι → Prop

namespace Register

variable {ι β : Type} (R : Register ι β) {e : ι} {es : List ι} {x y z : Option β} {v : β}

/-- A call takes the register from one content to another. -/
structure Turn (e : ι) (x y : Option β) : Prop where
  left : y = x ∨ y = none ∨ R.writes e = some y
  written : R.acknowledged e → ∀ w, R.writes e = some w → y = w

/-- The calls, in order, take the register from one content to another. -/
inductive Turns : List ι → Option β → Option β → Prop
  | nil (x : Option β) : Turns [] x x
  | cons {e : ι} {es : List ι} {x y z : Option β} : R.Turn e x y → Turns es y z →
    Turns (e :: es) x z

/-- An acknowledged write, be it an erasure. -/
def Overwrites (e : ι) : Prop := R.acknowledged e ∧ R.writes e ≠ none

/-- The value was there before the calls, or one of them wrote it; and
behind that no write was acknowledged. -/
def LastWritten (x : Option β) (v : β) (es : List ι) : Prop :=
  (x = some v ∧ ∀ e ∈ es, ¬ R.Overwrites e) ∨
    ∃ pre e post, es = pre ++ e :: post ∧ R.writes e = some (some v) ∧ ∀ d ∈ post, ¬ R.Overwrites d

variable {R}

/-- A call that leaves a value and did not write it found it, and no write of
it was acknowledged. -/
theorem Turn.found (h : R.Turn e x (some v)) (hwrites : R.writes e ≠ some (some v)) :
    x = some v ∧ ¬ R.Overwrites e := by
  rcases h.left with hx | hlost | hw
  · refine ⟨hx.symm, fun ⟨hack, hne⟩ => ?_⟩
    obtain ⟨w, hw⟩ := Option.ne_none_iff_exists'.1 hne
    rw [← h.written hack w hw] at hw
    exact hwrites hw
  · cases hlost
  · exact absurd hw hwrites

/-- **What the register holds was last written.** -/
theorem Turns.lastWritten (h : R.Turns es x (some v)) : R.LastWritten x v es := by
  generalize hz : some v = z at h
  induction h with
  | nil => exact .inl ⟨hz.symm, fun _ he => absurd he List.not_mem_nil⟩
  | @cons e es x y z hturn _ ih =>
    rcases ih hz with ⟨rfl, hquiet⟩ | ⟨pre, d, post, rfl, hd, hquiet⟩
    · by_cases hwrites : R.writes e = some (some v)
      · exact .inr ⟨[], e, es, rfl, hwrites, hquiet⟩
      · obtain ⟨hx, he⟩ := hturn.found hwrites
        refine .inl ⟨hx, fun d hd => ?_⟩
        rcases List.mem_cons.1 hd with rfl | hd
        · exact he
        · exact hquiet d hd
    · exact .inr ⟨e :: pre, d, post, rfl, hd, hquiet⟩

end Register

end SmartLock
