import BoolCalculus.GateSet
import BoolCalculus.Value.Number

/-!
# Gate sets given by tables

A gate set on the numbers below some bound whose gates are looked up in tables. The tables need not
satisfy any law. In a table of truth values, 0 is false and 1 is true. What names no place of a table is
refused.
-/

namespace BoolCalculus

/-- The tables of a gate set. The last three are optional; without them those gates are derived. -/
structure Table where
  /-- Whether the elements are truth values and not numbers. -/
  truths : Bool
  /-- The elements for false and true. -/
  lift : List Nat
  not : List Nat
  or : List (List Nat)
  and : List (List Nat)
  xor? : Option (List (List Nat))
  equ? : Option (List (List Nat))
  imp? : Option (List (List Nat))
  deriving Repr

namespace Table

/-- The element of a number. -/
def element (t : Table) (n : Nat) : Value :=
  if t.truths then .truth (n != 0) else .int n

variable {σ : Type}

/-- The element whose number stands in a row at the place that an element names. -/
def entry (t : Table) (row : List Nat) (a : Value) : Build σ Value := do
  let n ← .ofExcept (a.index "list" >>= itemAt row .noItem)
  pure (t.element n)

/-- The gate of a table with two indices. -/
def binary (t : Table) (rows : List (List Nat)) (a b : Value) : Build σ Value := do
  let row ← .ofExcept (a.index "list" >>= itemAt rows .noItem)
  t.entry row b

/-- The gate set of the tables. -/
def gates (t : Table) : GateSet σ Value :=
  let not := t.entry t.not
  let xor :=
    match t.xor? with
    | some rows => t.binary rows
    | none => Derived.xor (t.binary t.or) (t.binary t.and) not
  let equ :=
    match t.equ? with
    | some rows => t.binary rows
    | none => Derived.equ not xor
  let imp :=
    match t.imp? with
    | some rows => t.binary rows
    | none => Derived.imp (t.binary t.or) not
  { lift := fun b => t.entry t.lift (.truth b), not, or := t.binary t.or, and := t.binary t.and,
    xor, equ, imp }

end Table

end BoolCalculus
