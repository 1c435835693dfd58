import BoolCalculus.Tensor.Ops

/-!
# Dense tensors

Tensor operations on truth values. Nothing is allocated, and every operation has a direct definition; a tensor is
reindexed as a whole, by tensors of indices.
A shape with a negative size has no coordinates, so a tensor of that shape has no cells; its size of -1
is then 0.
-/

namespace BoolCalculus

/-- The axis sizes of an array of the given number of cells: of the shape itself, or of the shape with one
size of -1 replaced by the size that makes the number right, if there is just one. -/
def Shape.axesFor? (s : Shape) (count : Nat) : Option (List Nat) :=
  match s.axes? with
  | some axes => if Axes.volume axes = count then some axes else none
  | none =>
    let others := Axes.volume ((s.sizes.filter (0 ≤ ·)).map Int.toNat)
    if s.sizes.countP (· < 0) = 1 ∧ -1 ∈ s.sizes ∧ others ≠ 0 ∧ count % others = 0 then
      some (s.sizes.map fun n => if n < 0 then count / others else n.toNat)
    else none

namespace Tensor

/-- Quantifies over the first axis by folding its cells. -/
def foldFirst {α β : Type} (f : β → α → β) (start : β) (T : Tensor α) :
    Except Fault (Tensor β) :=
  match h : T.axes with
  | [] => .error (.shapeMismatch .notReducible)
  | n :: ns => .ok (ofFn ns fun c hc => Fin.foldl n (fun acc i => f acc (T.fibre h c hc i)) start)

/-- The tensor of the truth values of integers: all but zero are true. The integers have the width of
the machine's, and one size of the shape may be left open. -/
def ofInts (s : Shape) (cells : List Int) : Except Fault (Tensor Bool) :=
  if cells.all fitsWord then
    match (s.axesFor? cells.length).bind fun axes => ofCells? axes (cells.map (· != 0)) with
    | some T => .ok T
    | none => .error .negativeAxis
  else .error .wideNumber

/-- The tensor with one value in all cells. -/
def full {α : Type} (axes : List Nat) (a : α) : Tensor α :=
  ofFn axes fun _ _ => a

/-- Spreads rows of numbers over a grid with an axis for each of them: the tensor of a row holds at a coordinate the
entry of the row at that axis. -/
def meshgrid (rows : List (List Nat)) : List (Tensor Nat) :=
  rows.mapIdx fun k row =>
    ofFn (rows.map List.length) fun coord _ => row[coord[k]?.getD 0]?.getD 0

/-- The cells at the coordinates that tensors of indices hold together, which all have the same axes. Without indices
it is the tensor itself. -/
def gather {σ α : Type} (T : Tensor α) : (indices : List (Tensor Nat)) → Build σ (Tensor α)
  | [] => pure T
  | first :: rest => build first.axes fun c _ => .ofExcept do
    let coord ← (first :: rest).mapM (·.read c)
    T.read coord

/-- Reindexes a dense tensor by indices of its cells: the grids of the new axes, as the mapping names them. A tensor
without axes is repeated. -/
def reindexDense {σ α : Type} (T : Tensor α) (new : Shape) (mapping : List Int) : Build σ (Tensor α) := do
  .ofExcept (new.checkReindex T.shape mapping)
  let some axes := new.axes? | throw .negativeAxis
  if mapping.isEmpty then
    match T.toList with
    | [a] => pure (full axes a)
    | _ => throw .severalTruths
  else
    let indices ← .ofExcept (entries (meshgrid (axes.map List.range)) mapping)
    T.gather indices

end Tensor

/-- The operations on dense tensors. -/
def TensorOps.dense {σ : Type} : TensorOps σ Bool where
  create s f :=
    match s.axes?.or (s.axesFor? 0) with
    | some axes => pure (.ofFn axes fun c _ => f c)
    | none => throw .negativeAxis
  not T := pure (T.map (!·))
  or T U := .ofExcept (T.zip? (· || ·) U)
  and T U := .ofExcept (T.zip? (· && ·) U)
  xor T U := .ofExcept (T.zip? (· != ·) U)
  equ T U := .ofExcept (T.zip? (· == ·) U)
  imp T U := .ofExcept (T.zip? (!· || ·) U)
  reindex := Tensor.reindexDense
  any T := .ofExcept (T.foldFirst (· || ·) false)
  all T := .ofExcept (T.foldFirst (· && ·) true)

end BoolCalculus
