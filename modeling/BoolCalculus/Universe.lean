import BoolCalculus.Tensor.Ops

/-!
# Universes

A universe of size `n` takes tensors whose axes all have size `n` for relations on `0, …, n - 1`; a
tensor without axes is a scalar. A universe holds no relation. It checks the shapes of operands and
then calls the tensor operations, and its scalars are a gate set of their own.
-/

namespace BoolCalculus

/-- Tensor operations together with the number of points that relations speak of. -/
structure Universe (σ α : Type) where
  tensors : TensorOps σ α
  size : Nat

namespace Universe

variable {σ α : Type}

/-- The universe of a size that may come from outside. -/
def ofSize (tensors : TensorOps σ α) (size : Int) : Except Fault (Universe σ α) :=
  if 0 ≤ size then .ok ⟨tensors, size.toNat⟩ else .error (.negativeUniverse size)

/-- The shape of a relation with `rank` coordinates; a negative rank counts as none. -/
def newShape (U : Universe σ α) (rank : Int) : Shape :=
  .rectangular rank U.size

/-- Whether a tensor has no axes. -/
def isScalar (_ : Universe σ α) (T : Tensor α) : Bool :=
  T.shape.rank == 0

/-- Whether all axes of a tensor have the size of the universe. -/
def isRelation (U : Universe σ α) (T : Tensor α) : Bool :=
  T.shape.isRectangular U.size

/-- Whether a tensor is a relation with two coordinates. -/
def isBinaryRelation (U : Universe σ α) (T : Tensor α) : Bool :=
  T.shape.rank == 2 && U.isRelation T

/-- Refuses an operand that is not of the required kind. -/
def require (U : Universe σ α) (accepted : Bool) (kind : OperandKind) (rank : Nat) (T : Tensor α) :
    Build σ Unit :=
  if accepted then pure ()
  else throw (.shapeMismatch (.operand kind U.size (U.newShape rank) T.shape))

/-- Refuses the first operand that is no scalar. -/
def requireScalars (U : Universe σ α) (operands : List (Tensor α)) : Build σ Unit :=
  operands.forM fun T => U.require (U.isScalar T) .scalar 0 T

/-- Refuses the first operand that is no binary relation. -/
def requireBinary (U : Universe σ α) (operands : List (Tensor α)) : Build σ Unit :=
  operands.forM fun T => U.require (U.isBinaryRelation T) .binaryRelation 2 T

/-- Refuses the first operand that is no relation, and then the first whose arity is not that of the
first operand. The answer is the common arity. -/
def requireRelations (U : Universe σ α) (operands : List (Tensor α)) : Build σ Nat := do
  operands.forM fun T => U.require (U.isRelation T) .relation T.shape.rank T
  match operands with
  | [] => throw .noAxis
  | first :: rest =>
    let rank := first.shape.rank
    rest.forM fun T =>
      if T.shape.rank = rank then pure ()
      else throw (.shapeMismatch (.arities rank (U.newShape rank) T.shape))
    pure rank

/-- The truth value of a scalar whose cell is a truth value, of either kind. -/
def truthValue [Shown α] (U : Universe σ α) (T : Tensor α) : Build σ Bool := do
  U.requireScalars [T]
  match T.scalar? with
  | some a =>
    match Shown.concrete? a with
    | some b => pure b
    | none => throw (.notConcrete (Shown.value a).sort)
  | none => throw (.shapeMismatch (.operand .scalar U.size (U.newShape 0) T.shape))

/-- The gate set of the scalars. Every gate checks that its operands are scalars and then calls the
tensor operation of that name. -/
def scalars (U : Universe σ α) : GateSet σ (Tensor α) where
  lift b := U.tensors.create (U.newShape 0) fun _ => b
  not T := do
    U.requireScalars [T]
    U.tensors.not T
  or S T := do
    U.requireScalars [S, T]
    U.tensors.or S T
  and S T := do
    U.requireScalars [S, T]
    U.tensors.and S T
  xor S T := do
    U.requireScalars [S, T]
    U.tensors.xor S T
  equ S T := do
    U.requireScalars [S, T]
    U.tensors.equ S T
  imp S T := do
    U.requireScalars [S, T]
    U.tensors.imp S T

end Universe

end BoolCalculus
