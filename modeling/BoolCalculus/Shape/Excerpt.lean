import BoolCalculus.Shape.Coordinates

/-!
# Excerpts

What is shown of an array with too many cells: of every long axis the first and the last entries, with a
gap between them. A short axis, and every axis of a small array, is shown whole.
-/

namespace BoolCalculus.Axes

/-- The largest number of cells of an array that is shown whole. -/
def wholeLimit : Nat := 1000

/-- How many entries are shown at either end of an axis that is not shown whole. -/
def margin : Nat := 3

/-- Whether an array has too many cells to be shown whole. -/
def isLong (ns : List Nat) : Bool :=
  wholeLimit < volume ns

/-- The entries of an axis that are shown, with `none` for the gap. -/
def excerpt (long : Bool) (n : Nat) : List (Option Nat) :=
  if long && 2 * margin < n then
    (List.range margin).map some ++ none :: (List.range margin).map fun i => some (n - margin + i)
  else (List.range n).map some

/-- The flat positions of the cells that are shown, the first cell being at `start`. -/
def excerptPositions (long : Bool) (start : Nat) : List Nat → List Nat
  | [] => [start]
  | n :: ns => (excerpt long n).flatMap fun
    | some i => excerptPositions long (start + i * volume ns) ns
    | none => []

end BoolCalculus.Axes
