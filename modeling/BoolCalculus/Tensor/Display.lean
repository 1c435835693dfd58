import BoolCalculus.Shape.Excerpt
import BoolCalculus.Tensor

/-!
# The text of a tensor

The cells of a tensor in row-major order, with a pair of brackets for every axis. A long row goes on
over several lines, and of a tensor with many cells an excerpt is shown. Opaque cells stand as they are,
as many on a line as fit; the cells of a dense tensor have one width, and every line of a row but the
last has the same number of them.
-/

namespace BoolCalculus.Tensor

/-- The given number of spaces. -/
def spaces (n : Nat) : String :=
  String.ofList (List.replicate n ' ')

/-- A new line that starts with spaces. -/
def newLine (indent : Nat) : String :=
  "\n" ++ spaces indent

/-- A text with spaces before it up to the given width. -/
def padded (width : Nat) (s : String) : String :=
  spaces (width - s.length) ++ s

/-- How the rows of a tensor are set. -/
structure Layout where
  /-- What stands in a row for the cells that are left out. -/
  gap : String
  /-- The cells of a row, of which the first one stands at the given column. -/
  row : (column : Nat) → List String → String

namespace Layout

/-- The rest of a row, each text after a comma; a text that would end beyond the given width starts a
new line. The line is filled up to the given column. -/
def fill (indent width : Nat) : (column : Nat) → List String → String
  | _, [] => ""
  | column, s :: rest =>
    if width < column + s.length then
      "," ++ newLine indent ++ s ++ fill indent width (indent + s.length + 2) rest
    else ", " ++ s ++ fill indent width (column + s.length + 2) rest

/-- As many texts on a line as fit; the first of a line fits always. -/
def filled (width indent : Nat) : List String → String
  | [] => ""
  | s :: rest => s ++ fill indent width (indent + s.length + 2) rest

/-- The rest of a row, each text after a comma; `left` of them still stand on the line. -/
def count (indent perLine : Nat) : (left : Nat) → List String → String
  | _, [] => ""
  | 0, s :: rest => "," ++ newLine indent ++ s ++ count indent perLine (perLine - 1) rest
  | left + 1, s :: rest => ", " ++ s ++ count indent perLine left rest

/-- The same number of texts on every line but the last. -/
def counted (perLine indent : Nat) : List String → String
  | [] => ""
  | s :: rest => s ++ count indent perLine (perLine - 1) rest

/-- The width of the lines in which opaque cells are set. -/
def opaqueWidth : Nat := 75

/-- The width of the lines in which dense cells are set. -/
def denseWidth : Nat := 80

/-- Rows of opaque cells. The brackets start in column 6, and room is left for closing all of them and the
parenthesis around them. -/
def opaqueRows : Layout where
  gap := "..."
  row column := filled (opaqueWidth - 1 - (column - 6)) column

/-- Rows of dense cells, which have the given width. -/
def denseRows (width : Nat) : Layout where
  gap := " ..."
  row column := counted (max 1 ((denseWidth + 1 - column) / (width + 2))) column

/-- The cells that are shown in brackets, a pair for every axis; `cell` gives the text at a flat position.
What has axes of its own starts on a line of its own at the given column, with an empty line before it for
every axis but one. -/
def brackets (L : Layout) (long : Bool) (cell : Nat → String) (column start : Nat) : List Nat → String
  | [] => cell start
  | [n] =>
    "[" ++ L.row column ((Axes.excerpt long n).map fun
      | some i => cell (start + i)
      | none => L.gap) ++ "]"
  | n :: m :: ns =>
    let part : Option Nat → String
      | some i => L.brackets long cell (column + 1) (start + i * Axes.volume (m :: ns)) (m :: ns)
      | none => "..."
    let gap := "," ++ String.ofList (List.replicate ns.length '\n') ++ newLine column
    "[" ++ gap.intercalate ((Axes.excerpt long n).map part) ++ "]"

end Layout

variable {α : Type} [Shown α]

/-- The text of the cell at a flat position. -/
def cellText (text : Value → String) (T : Tensor α) (i : Nat) : String :=
  T.cells.toArray[i]?.elim "" fun a => text (Shown.value a)

/-- The text of an opaque cell. A list as a cell is told from cells along an axis. -/
def opaqueText : Value → String
  | .list items => "list(" ++ Value.quoted (.list items) ++ ")"
  | v => v.quoted

/-- The number of characters after the last line break. -/
def lastLineLength (s : String) : Nat :=
  (s.toList.reverse.takeWhile (· != '\n')).length

/-- The cells of a tensor in brackets; the first bracket stands in the given column. -/
def cellsText (text : Value → String) (column : Nat) (T : Tensor α) : String :=
  if Axes.volume T.axes = 0 then "[]"
  else Layout.opaqueRows.brackets (Axes.isLong T.axes) (T.cellText text) (column + 1) 0 T.axes

/-- Brackets as messages show an array. Its sizes are told where the brackets do not show them, and its sort of
cells where one is given. -/
def arrayText (cells : String) (axes : List Nat) (sort? : Option String) : String :=
  let hidden := Axes.isLong axes || (Axes.volume axes == 0 && axes != [0])
  let remarks := (if hidden then ["shape=" ++ Shape.sizesText ", " axes] else []) ++
    sort?.elim [] fun sort => ["dtype=" ++ sort]
  let head := "array(" ++ cells
  if remarks.isEmpty then head ++ ")" else
  let tail := ", ".intercalate remarks ++ ")"
  head ++ "," ++
    (if Layout.opaqueWidth < lastLineLength head + tail.length + 2 then newLine 6 else " ") ++ tail

/-- A tensor of opaque cells as messages show it. -/
def display (T : Tensor α) : String :=
  arrayText (T.cellsText opaqueText 6) T.axes (some "object")

/-- The text of a truth value in an array; both have one width there. -/
def truthText (v : Value) : String :=
  padded 5 v.quoted

/-- Truth values that a comparison gave, as messages show them. -/
def displayTruths (T : Tensor Bool) : String :=
  match T.scalar? with
  | some b => "np." ++ (Value.truth b).quoted
  | none =>
    arrayText (T.cellsText truthText 6) T.axes (if Axes.volume T.axes = 0 then some "bool" else none)

/-- The remarks after the brackets of a dense tensor, on a new line where they do not fit. -/
def remarks : (column : Nat) → List String → String
  | _, [] => ")"
  | column, s :: rest =>
    if Layout.denseWidth < column + s.length + 2 then
      "," ++ newLine 7 ++ s ++ remarks (7 + s.length) rest
    else ", " ++ s ++ remarks (column + s.length + 2) rest

/-- A dense tensor as messages show it. -/
def displayDense (T : Tensor α) : String :=
  if Axes.volume T.axes = 0 then
    let sizes := if T.axes.length = 1 then [] else ["size=" ++ Shape.sizesText ", " T.axes]
    "tensor([]" ++ remarks 11 (sizes ++ ["dtype=torch.bool"])
  else
    let long := Axes.isLong T.axes
    let text := T.cellText Value.quoted
    let width := ((Axes.excerptPositions long 0 T.axes).map fun i => (text i).length).foldl max 1
    "tensor(" ++ (Layout.denseRows width).brackets long (padded width ∘ text) 8 0 T.axes ++ ")"

end BoolCalculus.Tensor
