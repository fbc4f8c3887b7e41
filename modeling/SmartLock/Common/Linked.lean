import Mathlib.Data.List.Nodup
import Mathlib.Logic.Function.Basic
import Mathlib.Tactic.Common

/-!
# Linked lists in memory

A memory of cells, each a value and a pointer to the next cell, and the
cells met on the way from one pointer to another. The cells a pointer leads
to down to the null pointer are determined by the memory and are all
different, so that what is written elsewhere leaves the list as it was.
`link` sets the pointer of a cell, and two of them put a new cell behind
an old one; `free` gives a cell back. Nothing here knows what the cells
hold.
-/

namespace SmartLock

namespace Linked

/-- A cell of a list. A pointer is an address, and `none` the null one. -/
structure Cell (α : Type) where
  val : α
  next : Option ℕ

/-- The cell allocated at each address. -/
abbrev Heap (α : Type) : Type := ℕ → Option (Cell α)

variable {α : Type} {h h' : Heap α} {p q r : Option ℕ} {cells cells' : List (ℕ × α)}
  {a b : ℕ} {x y : α}

/-- A cell written. -/
def write (h : Heap α) (a : ℕ) (c : Cell α) : Heap α := Function.update h a (some c)

@[simp] theorem write_self (h : Heap α) (a : ℕ) (c : Cell α) : write h a c a = some c :=
  Function.update_self ..

theorem write_of_ne (c : Cell α) (hne : b ≠ a) : write h a c b = h b :=
  Function.update_of_ne hne ..

/-- The pointer of a cell, set; nothing is allocated where it faults. -/
def link (h : Heap α) (a : ℕ) (next : Option ℕ) : Option (Heap α) :=
  (h a).map fun c => write h a ⟨c.val, next⟩

theorem link_eq {c : Cell α} (ha : h a = some c) :
    link h a p = some (write h a ⟨c.val, p⟩) := by
  rw [link, ha, Option.map_some]

/-- A cell given back; it faults where none is allocated. -/
def free (h : Heap α) (a : ℕ) : Option (Heap α) := (h a).map fun _ => Function.update h a none

theorem free_eq {c : Cell α} (ha : h a = some c) : free h a = some (Function.update h a none) := by
  rw [free, ha, Option.map_some]

/-! ## The cells on the way -/

/-- The cells on the way from `p` to `q`, each with its address. -/
def Path (h : Heap α) : Option ℕ → List (ℕ × α) → Option ℕ → Prop
  | p, [], q => p = q
  | p, (a, x) :: cells, q => p = some a ∧ ∃ next, h a = some ⟨x, next⟩ ∧ Path h next cells q

theorem Path.nil : Path h p [] p := rfl

theorem Path.cons (ha : h a = some ⟨x, p⟩) (hpath : Path h p cells q) :
    Path h (some a) ((a, x) :: cells) q := ⟨rfl, p, ha, hpath⟩

theorem path_cons_iff (ha : h a = some ⟨x, p⟩) :
    Path h (some a) ((a, x) :: cells) q ↔ Path h p cells q := by
  constructor
  · rintro ⟨-, next, hnext, hpath⟩
    rw [ha, Option.some.injEq, Cell.mk.injEq] at hnext
    exact hnext.2 ▸ hpath
  · exact Path.cons ha

/-- A way ends behind its first part and goes on from there. -/
theorem path_append : Path h p (cells ++ cells') q ↔ ∃ r, Path h p cells r ∧ Path h r cells' q := by
  induction cells generalizing p with
  | nil => exact ⟨fun hpath => ⟨p, rfl, hpath⟩, fun ⟨_, heq, hpath⟩ => heq ▸ hpath⟩
  | cons c cells ih =>
    constructor
    · rintro ⟨hp, next, hc, hpath⟩
      obtain ⟨r, hleft, hright⟩ := ih.1 hpath
      exact ⟨r, ⟨hp, next, hc, hleft⟩, hright⟩
    · rintro ⟨r, ⟨hp, next, hc, hleft⟩, hright⟩
      exact ⟨hp, next, hc, ih.2 ⟨r, hleft, hright⟩⟩

/-- **What is written elsewhere leaves the way as it was.** -/
theorem Path.frame (hagree : ∀ c ∈ cells, h' c.1 = h c.1) (hpath : Path h p cells q) :
    Path h' p cells q := by
  induction cells generalizing p with
  | nil => exact hpath
  | cons c cells ih =>
    obtain ⟨hp, next, hc, hpath⟩ := hpath
    refine ⟨hp, next, ?_, ih (fun d hd => hagree d (List.mem_cons_of_mem c hd)) hpath⟩
    rw [hagree c List.mem_cons_self, hc]

/-- A cell given back leaves the ways that do not pass it. -/
theorem Path.free (ha : a ∉ cells.map Prod.fst) (hpath : Path h p cells q) :
    Path (Function.update h a none) p cells q :=
  hpath.frame fun _ hc => Function.update_of_ne (ne_of_mem_of_not_mem (List.mem_map_of_mem hc) ha) ..

/-- A pointer leads to one list of cells. -/
theorem Path.unique (hpath : Path h p cells none) (hpath' : Path h p cells' none) :
    cells = cells' := by
  induction cells generalizing p cells' with
  | nil =>
    cases hpath
    cases cells' with
    | nil => rfl
    | cons c cells' => cases hpath'.1
  | cons c cells ih =>
    obtain ⟨rfl, next, hc, hpath⟩ := hpath
    cases cells' with
    | nil => cases hpath'
    | cons c' cells' =>
      obtain ⟨hp, next', hc', hpath'⟩ := hpath'
      obtain ⟨a, x⟩ := c
      obtain ⟨a', x'⟩ := c'
      obtain rfl : a = a' := Option.some.inj hp
      rw [hc, Option.some.injEq, Cell.mk.injEq] at hc'
      obtain ⟨rfl, rfl⟩ := hc'
      rw [ih hpath hpath']

/-- The cells on the way are allocated. -/
theorem Path.allocated (hpath : Path h p cells q) (hx : (a, x) ∈ cells) :
    ∃ next, h a = some ⟨x, next⟩ := by
  induction cells generalizing p with
  | nil => cases hx
  | cons c cells ih =>
    obtain ⟨-, next, hc, hpath⟩ := hpath
    rcases List.mem_cons.1 hx with rfl | hx
    · exact ⟨next, hc⟩
    · exact ih hpath hx

/-- A block that is not allocated is on no way. -/
theorem Path.fresh (hpath : Path h p cells q) (hb : h b = none) : b ∉ cells.map Prod.fst := by
  rintro hmem
  obtain ⟨⟨a, x⟩, hx, rfl⟩ := List.mem_map.1 hmem
  obtain ⟨next, ha⟩ := hpath.allocated hx
  rw [hb] at ha
  cases ha

/-- **The cells of a list are all different**: a way that came back to a
cell would not end. -/
theorem Path.nodup (hpath : Path h p cells none) : (cells.map Prod.fst).Nodup := by
  induction cells generalizing p with
  | nil => exact List.nodup_nil
  | cons c cells ih =>
    have hrest := hpath.2
    obtain ⟨next, hc, hrest⟩ := hrest
    refine List.nodup_cons.2 ⟨fun hmem => ?_, ih hrest⟩
    -- the way from the second meeting is the way from the first, and shorter
    obtain ⟨⟨a, x⟩, hx, heq⟩ := List.mem_map.1 hmem
    obtain ⟨pre, post, rfl⟩ := List.append_of_mem hx
    obtain ⟨r, -, hback⟩ := path_append.1 hrest
    have hsame : c :: (pre ++ (a, x) :: post) = (a, x) :: post := by
      refine Path.unique hpath ?_
      rw [hpath.1, ← show a = c.1 from heq, ← hback.1]
      exact hback
    have hlen := congrArg List.length hsame
    simp only [List.length_cons, List.length_append] at hlen
    omega

/-! ## A new cell -/

/-- **Two links put a new cell behind an old one**: the list goes through
it, and no other cell has changed. -/
theorem Path.link_behind (hpath : Path h (some a) ((a, x) :: cells) none)
    (ha : h a = some ⟨x, p⟩) (hb : h b = some ⟨y, q⟩)
    (hnew : b ∉ ((a, x) :: cells).map Prod.fst) :
    ∃ h', ((link h b p).bind fun h => link h a (some b)) = some h' ∧
      Path h' (some a) ((a, x) :: (b, y) :: cells) none ∧ ∀ i, i ≠ a → i ≠ b → h' i = h i := by
  have hnodup := hpath.nodup
  rw [List.map_cons, List.nodup_cons] at hnodup
  rw [List.map_cons, List.mem_cons, not_or] at hnew
  have ha' : write h b ⟨y, p⟩ a = some ⟨x, p⟩ := by rw [write_of_ne _ (Ne.symm hnew.1), ha]
  refine ⟨write (write h b ⟨y, p⟩) a ⟨x, some b⟩, ?_, ?_, ?_⟩
  · rw [link_eq hb, Option.bind_some, link_eq ha']
  · have hrest : Path h p cells none := (path_cons_iff ha).1 hpath
    refine Path.cons (write_self ..) (Path.cons (p := p) ?_ (hrest.frame ?_))
    · rw [write_of_ne _ hnew.1, write_self]
    · intro c hc
      have hmem : c.1 ∈ cells.map Prod.fst := List.mem_map.2 ⟨c, hc, rfl⟩
      rw [write_of_ne _ (ne_of_mem_of_not_mem hmem hnodup.1),
        write_of_ne _ (ne_of_mem_of_not_mem hmem hnew.2)]
  · intro i hia hib
    rw [write_of_ne _ hia, write_of_ne _ hib]

end Linked

end SmartLock
