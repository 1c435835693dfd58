import BoolCalculus.Build
import BoolCalculus.Shape.Coordinates

/-!
# Tensors

A tensor has a cell for every coordinate of its axes; the cells are stored in row-major order. A
tensor is known by its axes and by `get` (`Tensor.ext_get`), and `get_ofFn` says what a tensor made
from a function holds. A tensor that is built by a construction is built cell by cell in row-major
order.
-/

namespace BoolCalculus

/-- An array of cells, stored in row-major order. -/
structure Tensor (α : Type) where
  axes : List Nat
  cells : Vector α (Axes.volume axes)
  deriving Repr

namespace Tensor

variable {σ α β γ : Type}

/-- The shape of a tensor. -/
def shape (T : Tensor α) : Shape :=
  .ofAxes T.axes

/-- The cell at a coordinate. -/
def get (T : Tensor α) (c : List Nat) (h : Axes.InBounds T.axes c) : α :=
  getElem T.cells (Axes.flat T.axes c) (Axes.flat_lt h)

/-- The cell at a coordinate, which is refused where it is out of bounds. -/
def read (T : Tensor α) (coord : List Nat) : Except Fault α :=
  if h : Axes.InBounds T.axes coord then .ok (T.get coord h) else .error .noItem

/-- The tensor that holds the value of a function at every coordinate. -/
def ofFn (axes : List Nat) (f : (c : List Nat) → Axes.InBounds axes c → α) : Tensor α :=
  ⟨axes, Vector.ofFn fun j => f (Axes.coordAt axes j) (Axes.inBounds_coordAt j.isLt)⟩

/-- Builds the cells one after the other, in row-major order. -/
def build (axes : List Nat) (f : (c : List Nat) → Axes.InBounds axes c → Build σ α) :
    Build σ (Tensor α) := do
  let cells ← Vector.ofFnM fun j =>
    f (Axes.coordAt axes j) (Axes.inBounds_coordAt j.isLt)
  pure ⟨axes, cells⟩

/-- The tensor without axes that holds one cell. -/
def scalar (a : α) : Tensor α :=
  ⟨[], #v[a]⟩

/-- The tensor with the given axes and cells, if their number fits. -/
def ofCells? (axes : List Nat) (cells : List α) : Option (Tensor α) :=
  if h : cells.toArray.size = Axes.volume axes then some ⟨axes, ⟨cells.toArray, h⟩⟩ else none

/-- The cells in row-major order. -/
def toList (T : Tensor α) : List α :=
  T.cells.toList

/-- Applies a function to every cell. -/
def map (f : α → β) (T : Tensor α) : Tensor β :=
  ⟨T.axes, T.cells.map f⟩

/-- The cell of a tensor without axes. -/
def scalar? (T : Tensor α) : Option α :=
  if h : T.axes = [] then some (T.get [] (by rw [h]; trivial)) else none

@[simp] theorem axes_ofFn (axes : List Nat) (f : (c : List Nat) → Axes.InBounds axes c → α) :
    (ofFn axes f).axes = axes := rfl

@[simp] theorem axes_map (f : α → β) (T : Tensor α) : (T.map f).axes = T.axes := rfl

theorem get_ofFn (axes : List Nat) (f : (c : List Nat) → Axes.InBounds axes c → α)
    {c : List Nat} (h : Axes.InBounds axes c) : (ofFn axes f).get c h = f c h := by
  simp [get, ofFn, Axes.coordAt_flat h]

theorem get_map (f : α → β) (T : Tensor α) {c : List Nat} (h : Axes.InBounds T.axes c) :
    (T.map f).get c h = f (T.get c h) := by
  simp [get, map]

/-- A tensor is known by its axes and its cells. -/
theorem ext_get {T U : Tensor α} (axes : T.axes = U.axes)
    (cells : ∀ c (hT : Axes.InBounds T.axes c) (hU : Axes.InBounds U.axes c),
      T.get c hT = U.get c hU) : T = U := by
  obtain ⟨ns, xs⟩ := T
  obtain ⟨ms, ys⟩ := U
  obtain rfl : ns = ms := axes
  congr 1
  refine Vector.ext fun j hj => ?_
  have bound := Axes.inBounds_coordAt hj
  have hget := cells _ bound bound
  simpa [get, Axes.flat_coordAt hj] using hget

/-- Cells that need no construction make the tensor of their function. -/
theorem build_pure (axes : List Nat) (f : (c : List Nat) → Axes.InBounds axes c → α) :
    build axes (fun c h => (pure (f c h) : Build σ α)) = pure (ofFn axes f) := by
  simp [build, ofFn, Vector.ofFnM_pure]

/-! ## Pointwise operations -/

/-- Combines the cells of two tensors with the same axes. -/
def zip (f : α → β → γ) (T : Tensor α) (U : Tensor β) (h : T.axes = U.axes) : Tensor γ :=
  ofFn T.axes fun c hc => f (T.get c hc) (U.get c (h ▸ hc))

/-- Combines the cells of two tensors, which must have one shape. -/
def zip? (f : α → α → β) (T U : Tensor α) : Except Fault (Tensor β) :=
  if h : T.axes = U.axes then .ok (T.zip f U h)
  else .error (.shapeMismatch (.unequal T.shape U.shape))

/-- Builds a tensor from the cells of two tensors, which must have one shape. -/
def zipBuild (f : α → α → Build σ β) (T U : Tensor α) : Build σ (Tensor β) :=
  if h : T.axes = U.axes then build T.axes fun c hc => f (T.get c hc) (U.get c (h ▸ hc))
  else throw (.shapeMismatch (.unequal T.shape U.shape))

/-- The common shape of two tensors, or the mismatch. -/
def commonShape (T U : Tensor α) : Except Fault Shape :=
  if T.axes = U.axes then .ok T.shape else .error (.shapeMismatch (.unequal T.shape U.shape))

/-! ## The first axis -/

/-- The cells along the first axis at a coordinate of the others. -/
def fibre (T : Tensor α) {n : Nat} {ns : List Nat} (h : T.axes = n :: ns) (c : List Nat)
    (hc : Axes.InBounds ns c) (i : Fin n) : α :=
  T.get (i :: c) (h ▸ ⟨i.isLt, hc⟩)

/-- The tensors along the first axis; none for a tensor without axes. -/
def slices? (T : Tensor α) : Option (List (Tensor α)) :=
  match h : T.axes with
  | [] => none
  | n :: ns => some (List.ofFn fun i : Fin n => ofFn ns fun c hc => T.fibre h c hc i)

/-- The shape of a tensor that has a first axis, or the refusal to reduce. -/
def reducibleShape (T : Tensor α) : Except Fault Shape :=
  if T.axes = [] then .error (.shapeMismatch .notReducible) else .ok T.shape

end Tensor

end BoolCalculus
