import BoolCalculus.Text

/-!
# Keyed lists

A list of entries with names, in the order in which the names were first written. Writing to a name
that is there keeps its place.
-/

namespace BoolCalculus

/-- Entries with names, in the order of their first writing. -/
abbrev Keyed (α : Type) : Type := List (Text × α)

namespace Keyed

variable {α : Type}

/-- Writes an entry: an entry of that name keeps its place and gets the new content, else the entry is
added at the end. -/
def put : Keyed α → Text → α → Keyed α
  | [], name, a => [(name, a)]
  | (key, old) :: rest, name, a =>
    if key = name then (key, a) :: rest else (key, old) :: put rest name a

/-- The entries in the order of the code points of their names. -/
def sorted (entries : Keyed α) : Keyed α :=
  entries.mergeSort fun a b => !b.1.precedes a.1

/-- The names in the order of their code points. -/
def sortedNames (entries : Keyed α) : List Text :=
  entries.sorted.map Prod.fst

theorem lookup_put_self (entries : Keyed α) (name : Text) (a : α) :
    (put entries name a).lookup name = some a := by
  induction entries with
  | nil => simp [put]
  | cons head rest ih =>
      obtain ⟨key, old⟩ := head
      by_cases h : key = name
      · simp [put, h]
      · simp [put, h, List.lookup_cons, beq_eq_false_iff_ne.2 (Ne.symm h), ih]

theorem lookup_put_ne (entries : Keyed α) {name other : Text} (a : α) (h : other ≠ name) :
    (put entries name a).lookup other = entries.lookup other := by
  induction entries with
  | nil => simp [put, List.lookup_cons, beq_eq_false_iff_ne.2 h]
  | cons head rest ih =>
      obtain ⟨key, old⟩ := head
      by_cases hk : key = name
      · subst hk
        simp [put, List.lookup_cons, beq_eq_false_iff_ne.2 h]
      · simp [put, hk, List.lookup_cons, ih]

end Keyed

end BoolCalculus
