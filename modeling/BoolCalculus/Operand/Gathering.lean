import BoolCalculus.Operand
import BoolCalculus.Tensor.Storage

/-!
# Operands gathered into arrays

A word, a list or a shape is gathered into an array: its items lie along the first axis, and what the items
are in turn lies along the axes after it. A survey (`Survey`) goes through all parts in their order and finds
the axes in which they agree and the sort of cells that suits all of them; then the parts are put into their
places. A tensor without axes that is a part stays one cell.
-/

namespace BoolCalculus

-- Powers of numbers are not taken in a monoid.
attribute [local instance (high)] instPowNat

/-- The sorts of the cells of an array. -/
inductive CellSort where
  | truth
  /-- Integers of sixty-four bits with a sign. -/
  | signed
  /-- Integers of sixty-four bits without a sign. -/
  | unsigned
  | real
  | text
  /-- Cells that stay what they are. -/
  | mixed
  deriving DecidableEq, Repr

namespace CellSort

/-- How general a sort is. -/
def rank : CellSort → Nat
  | truth => 0
  | signed => 1
  | unsigned => 2
  | real => 3
  | text => 4
  | mixed => 5

/-- The sort that suits the cells of two sorts. Integers with and without a sign have only amounts in common. -/
def join : CellSort → CellSort → CellSort
  | signed, unsigned => real
  | unsigned, signed => real
  | s, t => if s.rank ≤ t.rank then t else s

end CellSort

namespace Value

/-- The least general sort of cells that a value fits. -/
def cellSort : Value → CellSort
  | truth _ => .truth
  | int n => if fitsWord n then .signed else if 0 ≤ n ∧ n < 2 ^ (64 : Nat) then .unsigned else .mixed
  | real _ => .real
  | text _ => .text
  | _ => .mixed

/-- A text as a cell, which has no characters of number zero at its end. -/
def trimmed (s : Text) : Text :=
  ⟨(s.points.reverse.dropWhile (· = .char '\x00')).reverse⟩

/-- An integer as an amount of binary64. -/
def rounded (n : Int) : Int :=
  if n.natAbs < 2 ^ (53 : Nat) then n
  else
    let (factor, power) := Amount.binary64.nearest n.natAbs 1
    Amount.signedDigits (n < 0) (factor * 2 ^ power.toNat)

/-- A value as a cell of a sort that it fits. -/
def asCell (sort : CellSort) (v : Value) : Value :=
  match sort, v with
  | .text, v => text (trimmed v.display)
  | .real, int n => int (rounded n)
  | _, v => v

end Value

/-- What a survey of parts has found. -/
structure Survey where
  /-- The sizes of the axes of the first part. -/
  axes : List Nat
  /-- The number of axes in which the parts agree. -/
  depth : Nat
  /-- Whether a part without items has been reached. -/
  settled : Bool
  /-- Whether all parts agree in all of their axes. -/
  even : Bool
  /-- The sort of cells that suits all parts. -/
  sort : CellSort

namespace Survey

/-- Before the first part. -/
def start : Survey := ⟨[], Shape.maxAxes, false, true, .truth⟩

/-- How many sizes at the front of two lists are the same. -/
def agreement : List Nat → List Nat → Nat
  | n :: ns, m :: ms => if n = m then agreement ns ms + 1 else 0
  | _, _ => 0

/-- Takes in an array at a depth: a part that has axes, but no items. A cell is one that has no axes. -/
def array (s : Survey) (at' : Nat) (sizes : List Nat) (sort : CellSort) : Survey :=
  let usable := sizes.take (s.depth - at')
  let fits := at' + sizes.length ≤ s.depth
  let s := { s with sort := s.sort.join sort }
  if s.settled then
    let agreed := agreement usable (s.axes.drop at')
    { s with
      depth := at' + agreed
      even := s.even && fits && at' + sizes.length == s.depth && agreed == sizes.length }
  else
    { s with
      axes := s.axes.take at' ++ usable
      depth := at' + usable.length
      settled := true
      even := s.even && fits }

/-- Takes in a part with the given number of items at a depth, and answers whether its items are to be
taken in one level deeper. -/
def enter (s : Survey) (at' count : Nat) : Bool × Survey :=
  if at' = s.depth then (false, { s.array at' [] .mixed with even := false })
  else if s.settled && s.axes[at']? != some count then
    (false, { s with depth := at', even := false })
  else
    let axes := if s.settled then s.axes else s.axes.take at' ++ [count]
    if count = 0 then (false, { s with axes, depth := at' + 1, settled := true })
    else (true, { s with axes })

/-- The axes in which the parts agree, or the refusal if they agree in no more than those. -/
def result (s : Survey) : Except Fault (List Nat) :=
  let axes := s.axes.take s.depth
  if s.even then .ok axes
  else if s.depth = Shape.maxAxes then .error (.tooDeep Shape.maxAxes)
  else .error (.ragged axes)

end Survey

/-- An array of cells of any kind, in row-major order. -/
structure Gathered (β : Type) where
  axes : List Nat
  cells : List β

namespace Gathered

variable {β : Type}

/-- Drops axes of size one at the front until there are no more axes than in the target. -/
def stripped : (target : Nat) → List Nat → List Nat
  | target, 1 :: ns => if target ≤ ns.length then stripped target ns else 1 :: ns
  | _, ns => ns

/-- The cells of an array that is put into a place with the given axes. -/
def placed (axes target : List Nat) (cells : List β) : Except Fault (List β) :=
  if axes = target then .ok cells else .error (.notAssignable (stripped target.length axes) target)

end Gathered

namespace Value

mutual

/-- Takes a value in, at a depth: lists have items. -/
def survey (at' : Nat) (s : Survey) : Value → Survey
  | list items =>
    match s.enter at' items.length with
    | (true, s) => surveyAll (at' + 1) s items
    | (false, s) => s
  | v => s.array at' [] v.cellSort

/-- Takes values in, one after the other. -/
def surveyAll (at' : Nat) (s : Survey) : List Value → Survey
  | [] => s
  | v :: rest => surveyAll at' (survey at' s v) rest

end

mutual

/-- The cells of a value in row-major order, as cells of a sort. -/
def cells (sort : CellSort) : (axes : Nat) → Value → List Value
  | axes + 1, list items => cellsOfAll sort axes items
  | _, v => [v.asCell sort]

/-- The cells of values. -/
def cellsOfAll (sort : CellSort) (axes : Nat) : List Value → List Value
  | [] => []
  | v :: rest => cells sort axes v ++ cellsOfAll sort axes rest

end

/-- A value as an array. -/
def gather (v : Value) : Except Fault (Gathered Value) := do
  let s := v.survey 0 .start
  let axes ← s.result
  pure ⟨axes, v.cells s.sort axes.length⟩

end Value

namespace Operand

variable {γ : Type} [Shown γ]

mutual

/-- Takes an operand in, at a depth: words, shapes and lists have items. -/
def survey (at' : Nat) (s : Survey) : Operand γ → Survey
  | plain v => v.survey at' s
  | shape t => Value.survey at' s (.list (t.sizes.map .int))
  | tensor T _ => s.array at' T.axes .mixed
  | truths T _ => s.array at' T.axes .truth
  | record _ => s.array at' [] .mixed
  | word w =>
    match s.enter at' w.length with
    | (true, s) => surveyAll (at' + 1) s w
    | (false, s) => s

/-- Takes operands in, one after the other. -/
def surveyAll (at' : Nat) (s : Survey) : List (Operand γ) → Survey
  | [] => s
  | a :: rest => surveyAll at' (survey at' s a) rest

end

/-- Plain values as operands. -/
def plains (vs : List Value) : List (Operand γ) :=
  vs.map plain

mutual

/-- The cells of a part of an array, which is put into a place with the given axes. -/
def cells (sort : CellSort) : (axes : List Nat) → Operand γ → Except Fault (List (Operand γ))
  | axes, plain v => .ok (plains (v.cells sort axes.length))
  | axes, shape t => .ok (plains (Value.cells sort axes.length (.list (t.sizes.map .int))))
  | axes, truths T _ => Gathered.placed T.axes axes (plains (T.toList.map fun b => (Value.truth b).asCell sort))
  | [], a => .ok [a]
  | axes, tensor T _ => Gathered.placed T.axes axes (plains (T.toList.map Shown.value))
  | _, record fields => .ok [record fields]
  | _ :: axes, word w => cellsOfAll sort axes w

/-- The cells of parts of an array. -/
def cellsOfAll (sort : CellSort) (axes : List Nat) : List (Operand γ) → Except Fault (List (Operand γ))
  | [] => .ok []
  | a :: rest => do
    let first ← cells sort axes a
    pure (first ++ (← cellsOfAll sort axes rest))

end

/-- An operand as an array. The cells of a tensor are plain, and so are those of comparisons. -/
def gather : Operand γ → Except Fault (Gathered (Operand γ))
  | tensor T _ => .ok ⟨T.axes, plains (T.toList.map Shown.value)⟩
  | truths T _ => .ok ⟨T.axes, plains (T.toList.map .truth)⟩
  | a => do
    let s := a.survey 0 .start
    let axes ← s.result
    pure ⟨axes, ← a.cells s.sort axes⟩

end Operand

end BoolCalculus
