import BoolCalculus.Fault

/-!
# Words

A word is the list of its elements, the least significant first. Elements are opaque: truth values,
handles of a circuit, scalars of a universe.
-/

namespace BoolCalculus

-- Powers of numbers are not taken in a monoid.
attribute [local instance (high)] instPowNat

/-- The elements of a word, the least significant first. -/
abbrev Word (α : Type) : Type := List α

namespace Word

variable {α : Type}

/-- The word of the values of a function at `0, …, length - 1`; empty for a negative length. -/
def ofFn (length : Int) (f : Nat → α) : Word α :=
  (List.range length.toNat).map f

/-- The element at an index; negative indices count from the end. -/
def item (w : Word α) (index : Int) : Except Fault α :=
  itemAt w .noItem index

/-- Adds an element at the most significant end. -/
def push (w : Word α) (a : α) : Word α :=
  w ++ [a]

/-- A word of plain values as messages show it. -/
def display (w : Word Value) : String :=
  "GenVec(" ++ Value.quoted (.list w) ++ ")"

end Word

end BoolCalculus
