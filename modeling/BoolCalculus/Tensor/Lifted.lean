import BoolCalculus.Tensor.Ops

/-!
# Lifted tensors

Tensor operations on the elements of a gate set: every operation calls gates cell by cell in row-major
order. A disjunction over the first axis starts from one element for false, which is made once, and
goes through the cells from the first.
-/

namespace BoolCalculus.TensorOps

variable {σ α : Type}

/-- Lifts the values of a function. -/
def liftCells (A : GateSet σ α) (s : Shape) (f : List Nat → Bool) : Build σ (Tensor α) :=
  match s.axes? with
  | some axes => Tensor.build axes fun c _ => A.lift (f c)
  | none => throw .negativeAxis

/-- Negates every cell. -/
def notCells (A : GateSet σ α) (T : Tensor α) : Build σ (Tensor α) :=
  Tensor.build T.axes fun c hc => A.not (T.get c hc)

/-- Fills a shape with cells of a tensor: a place gets the cell at the entries of its coordinate that the mapping
names. -/
def reindexCells (T : Tensor α) (new : Shape) (mapping : List Int) : Build σ (Tensor α) := do
  .ofExcept (new.checkReindex T.shape mapping)
  let some axes := new.axes? | throw .negativeAxis
  Tensor.build axes fun c _ => .ofExcept do
    let coord ← entries c mapping
    T.read coord

/-- The disjunction over the first axis. -/
def anyCells (A : GateSet σ α) (T : Tensor α) : Build σ (Tensor α) :=
  match h : T.axes with
  | [] => throw (.shapeMismatch .notReducible)
  | n :: ns => do
    let zero ← A.zero
    Tensor.build ns fun c hc => Fin.foldlM n (fun acc i => A.or acc (T.fibre h c hc i)) zero

/-- The operations on tensors over a gate set. The conjunction over the first axis is derived. -/
def lifted (A : GateSet σ α) : TensorOps σ α where
  create := liftCells A
  not := notCells A
  or := Tensor.zipBuild A.or
  and := Tensor.zipBuild A.and
  xor := Tensor.zipBuild A.xor
  equ := Tensor.zipBuild A.equ
  imp := Tensor.zipBuild A.imp
  reindex := reindexCells
  any := anyCells A

/-- The operations on tensors over a gate set, with the derived pointwise operations. -/
def liftedDerived (A : GateSet σ α) : TensorOps σ α where
  create := liftCells A
  not := notCells A
  or := Tensor.zipBuild A.or
  and := Tensor.zipBuild A.and
  reindex := reindexCells
  any := anyCells A

end BoolCalculus.TensorOps
