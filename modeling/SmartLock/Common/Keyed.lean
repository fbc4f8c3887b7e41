import Mathlib.Data.List.Basic
import Mathlib.Tactic.Common

/-!
# Records found by a key

A table is a list of records, and a record is found by the key a function
gives it: the first record of that key. Updating in place and adding what
is missing make `upsert`, and the two laws of a map hold of it at keys:
the key written reads the record written, every other key reads what it
did. What fails is the same of the records' names, where two names share
a key.
-/

namespace SmartLock

namespace Keyed

variable {ρ κ : Type} [DecidableEq κ] (key : ρ → κ)

/-- The record found at a key. -/
def lookup (k : κ) (l : List ρ) : Option ρ := l.find? fun r => key r = k

/-- The record found at a key, changed in place. -/
def update (k : κ) (f : ρ → ρ) : List ρ → List ρ
  | [] => []
  | r :: l => if key r = k then f r :: l else r :: update k f l

variable {key}

@[simp] theorem lookup_nil (k : κ) : lookup key k [] = none := rfl

theorem lookup_cons (k : κ) (r : ρ) (l : List ρ) :
    lookup key k (r :: l) = if key r = k then some r else lookup key k l := by
  rw [lookup, List.find?_cons, lookup]
  by_cases h : key r = k <;> simp [h]

/-- The key updated reads the changed record. -/
theorem lookup_update_self {k : κ} {f : ρ → ρ} (hf : ∀ r, key (f r) = key r) (l : List ρ) :
    lookup key k (update key k f l) = (lookup key k l).map f := by
  induction l with
  | nil => rfl
  | cons r l ih =>
    rw [update]
    by_cases h : key r = k
    · rw [if_pos h, lookup_cons, lookup_cons, if_pos h, if_pos (by rw [hf, h])]
      rfl
    · rw [if_neg h, lookup_cons, lookup_cons, if_neg h, if_neg h, ih]

/-- Every other key reads what it did. -/
theorem lookup_update_of_ne {k k' : κ} {f : ρ → ρ} (hf : ∀ r, key (f r) = key r) (hk : k' ≠ k)
    (l : List ρ) : lookup key k' (update key k f l) = lookup key k' l := by
  induction l with
  | nil => rfl
  | cons r l ih =>
    rw [update]
    by_cases h : key r = k
    · have hne : key r ≠ k' := fun h' => hk (h'.symm.trans h)
      rw [if_pos h, lookup_cons, lookup_cons, if_neg hne, if_neg (by rw [hf]; exact hne)]
    · rw [if_neg h, lookup_cons, lookup_cons, ih]

/-- A record appended under a key that finds nothing is found there. -/
theorem lookup_append_self {k : κ} {l : List ρ} {r : ρ} (h : lookup key k l = none)
    (hr : key r = k) : lookup key k (l ++ [r]) = some r := by
  rw [lookup] at h
  rw [lookup, List.find?_append, h]
  simp [hr]

theorem lookup_append_of_ne {k : κ} {r : ρ} (hr : key r ≠ k) (l : List ρ) :
    lookup key k (l ++ [r]) = lookup key k l := by
  rw [lookup, List.find?_append, lookup]
  simp [hr]

end Keyed

end SmartLock
