import BoolCalculus.Tensor.Ops

/-!
# Stored tensors

An array of cells is stored with at most sixty-four axes, each of a size that the machine's integers
hold, and eight bytes for every cell have to be addressed. `TensorOps.stored` adds these limits to tensor
operations. Only two operations can pass the limits, because the result of every other one has axes of
its operands. The operations read and write cells at coordinates, whatever the number of axes; only who wants
all cells in a row, as to write the array down, gets them up to thirty-two axes (`Tensor.listed`).
-/

namespace BoolCalculus

namespace Shape

/-- The most axes that are stored. -/
def maxAxes : Nat := 64

/-- Counts the bytes of the cells axis by axis; an axis without cells does not count. -/
def addressable : (bytes : Int) → List Int → Except Fault Unit
  | _, [] => .ok ()
  | bytes, n :: ns =>
    if n = 0 then addressable bytes ns
    else if n < 0 then .error .negativeAxis
    else if fitsWord (bytes * n) then addressable (bytes * n) ns
    else .error .manyCells

/-- Accepts the shape of an array that can be stored. -/
def checkStorage (s : Shape) : Except Fault Unit :=
  if maxAxes < s.rank then .error (.manyAxes s.rank)
  else if s.sizes.all fitsWord then addressable 8 s.sizes
  else .error .wideAxis

theorem checkStorage_manyAxes {s : Shape} (h : maxAxes < s.rank) :
    s.checkStorage = .error (.manyAxes s.rank) := by
  simp [checkStorage, h]

end Shape

/-- The operations on tensors that are stored. A mapping is checked before its target is stored. -/
def TensorOps.stored {σ α : Type} (T : TensorOps σ α) : TensorOps σ α :=
  { T with
    create := fun s f => do
      .ofExcept s.checkStorage
      T.create s f
    reindex := fun R s mapping => do
      .ofExcept (s.checkReindex R.shape mapping)
      .ofExcept s.checkStorage
      T.reindex R s mapping }

/-- The most axes of an array whose cells are listed. -/
def Shape.maxListedAxes : Nat := 32

/-- The cells of a stored array in a row. -/
def Tensor.listed {α : Type} (T : Tensor α) : Except Fault (List α) :=
  if Shape.maxListedAxes < T.axes.length then .error (.manyListedAxes T.axes.length) else .ok T.toList

/-- A tensor of new elements in row-major order. The elements are made before the shape is checked. -/
def Tensor.ofNew {σ α : Type} (s : Shape) (new : Build σ α) : Build σ (Tensor α) := do
  let cells ← (List.range s.volume.toNat).mapM fun _ => new
  .ofExcept s.checkStorage
  match Tensor.ofCells? (s.sizes.map Int.toNat) cells with
  | some T => pure T
  | none => throw .noItem

end BoolCalculus
