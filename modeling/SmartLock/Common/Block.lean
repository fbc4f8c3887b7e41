import Mathlib.Data.List.Basic
import Mathlib.Data.List.Infix
import Mathlib.Tactic.Common

/-!
# Blocks that are written from their start

A block of memory is the list of its elements, and writing outside of it
faults. A cursor is a block with the place the next element goes to, as a
program has it that fills a block by `*pos++ = v`. What was written so far
stands at the start of the block, whatever is behind it.
-/

namespace SmartLock

namespace Block

variable {α : Type} {block block' text : List α} {n i : ℕ} {v : α}

/-- An element is written: `none` outside the block. -/
def write (block : List α) (i : ℕ) (v : α) : Option (List α) :=
  if i < block.length then some (block.set i v) else none

/-- A block, and where the next element goes. -/
structure Cursor (α : Type) where
  block : List α
  pos : ℕ
  deriving DecidableEq, Repr

/-- `*pos++ = v`. -/
def Cursor.push (c : Cursor α) (v : α) : Option (Cursor α) :=
  (write c.block c.pos v).map fun block => ⟨block, c.pos + 1⟩

/-- `*pos++ = v`, of one element after the other. -/
def Cursor.pushes (c : Cursor α) (vs : List α) : Option (Cursor α) := vs.foldlM Cursor.push c

/-- `pos -= n`. -/
def Cursor.back (c : Cursor α) (n : ℕ) : Cursor α := { c with pos := c.pos - n }

theorem write_of_lt (h : i < block.length) : write block i v = some (block.set i v) := if_pos h

/-- The text was written to a block of this size, and comes to where the
cursor is. -/
structure Cursor.Wrote (c : Cursor α) (size : ℕ) (text : List α) : Prop where
  pos : c.pos = text.length
  text : text <+: c.block
  size : c.block.length = size

namespace Cursor.Wrote

variable {c : Cursor α} {size : ℕ}

theorem start (block : List α) : Cursor.Wrote ⟨block, 0⟩ block.length [] where
  pos := rfl
  text := List.nil_prefix
  size := rfl

/-- **An element is written behind the others**, if the block has room. -/
theorem write (h : c.Wrote size text) (v : α) (hroom : text.length < size) : ∃ block,
    Block.write c.block c.pos v = some block ∧
      Cursor.Wrote ⟨block, c.pos + 1⟩ size (text ++ [v]) := by
  have hlt : c.pos < c.block.length := by
    rw [h.pos, h.size]
    exact hroom
  refine ⟨_, write_of_lt hlt, ?_, ?_, ?_⟩
  · simp [h.pos]
  · obtain ⟨rest, hrest⟩ := h.text
    rw [← hrest, List.length_append, h.pos] at hlt
    cases rest with
    | nil => simp at hlt
    | cons x rest =>
      refine ⟨rest, ?_⟩
      change text ++ [v] ++ rest = c.block.set c.pos v
      rw [← hrest, h.pos, List.set_append_right _ _ le_rfl, Nat.sub_self]
      simp
  · exact (List.length_set ..).trans h.size

theorem push (h : c.Wrote size text) (v : α) (hroom : text.length < size) :
    ∃ c', c.push v = some c' ∧ c'.Wrote size (text ++ [v]) := by
  obtain ⟨block, hwrite, hwrote⟩ := h.write v hroom
  exact ⟨_, by rw [Cursor.push, hwrite]; rfl, hwrote⟩

/-- **And so are several.** -/
theorem pushes (h : c.Wrote size text) (vs : List α) (hroom : text.length + vs.length ≤ size) :
    ∃ c', c.pushes vs = some c' ∧ c'.Wrote size (text ++ vs) := by
  induction vs generalizing c text with
  | nil => exact ⟨c, rfl, by rwa [List.append_nil]⟩
  | cons v vs ih =>
    rw [List.length_cons] at hroom
    obtain ⟨c₁, hpush, h₁⟩ := h.push v (by omega)
    obtain ⟨c₂, hpushes, h₂⟩ := ih h₁ (by rw [List.length_append, List.length_singleton]; omega)
    refine ⟨c₂, ?_, ?_⟩
    · rw [Cursor.pushes, List.foldlM_cons, hpush]
      exact hpushes
    · rwa [List.append_assoc] at h₂

/-- Going back takes from the end of what was written. -/
theorem back (h : c.Wrote size text) (n : ℕ) :
    (c.back n).Wrote size (text.take (text.length - n)) where
  pos := by
    change c.pos - n = _
    rw [h.pos, List.length_take]
    omega
  text := (List.take_prefix _ _).trans h.text
  size := h.size

/-- A block that is full is what was written. -/
theorem block_eq (h : c.Wrote size text) (hfull : text.length = size) : c.block = text :=
  (h.text.eq_of_length (hfull.trans h.size.symm)).symm

/-- What was written can be read. -/
theorem take_eq (h : c.Wrote size text) : c.block.take c.pos = text := by
  obtain ⟨rest, hrest⟩ := h.text
  rw [← hrest, h.pos, List.take_left]

end Cursor.Wrote

end Block

end SmartLock
