import BoolCalculus.Universe

/-!
# Binary relations

The relation algebra of a universe. A composition moves both relations into three coordinates with the
shared point first, intersects them and quantifies over the shared point. Equality and containment of
relations have scalars for their values.
-/

namespace BoolCalculus

/-- The union of two relations by complements and intersection. -/
def Derived.join {σ α : Type} (comp : α → Build σ α) (meet : α → α → Build σ α) (R S : α) :
    Build σ α := do
  let notR ← comp R
  let notS ← comp S
  comp (← meet notR notS)

namespace Universe

variable {σ α : Type}

/-- The empty or the total relation. -/
def binLift (U : Universe σ α) (b : Bool) : Build σ (Tensor α) :=
  U.tensors.create (U.newShape 2) fun _ => b

/-- The empty relation. -/
def empty (U : Universe σ α) : Build σ (Tensor α) :=
  U.binLift false

/-- The total relation. -/
def total (U : Universe σ α) : Build σ (Tensor α) :=
  U.binLift true

/-- The diagonal, which relates every point to itself. -/
def diag (U : Universe σ α) : Build σ (Tensor α) :=
  U.tensors.create (U.newShape 2) fun coord => coord[0]? == coord[1]?

/-- The complement. -/
def comp (U : Universe σ α) (R : Tensor α) : Build σ (Tensor α) := do
  U.requireBinary [R]
  U.tensors.not R

/-- The intersection. -/
def meet (U : Universe σ α) (R S : Tensor α) : Build σ (Tensor α) := do
  U.requireBinary [R, S]
  U.tensors.and R S

/-- The union. -/
def join (U : Universe σ α) (R S : Tensor α) : Build σ (Tensor α) := do
  U.requireBinary [R, S]
  U.tensors.or R S

/-- The union by complements and intersection. -/
def deMorganJoin (U : Universe σ α) : Tensor α → Tensor α → Build σ (Tensor α) :=
  Derived.join U.comp U.meet

/-- The inverse, which swaps the coordinates. -/
def inv (U : Universe σ α) (R : Tensor α) : Build σ (Tensor α) := do
  U.requireBinary [R]
  U.tensors.reindex R (U.newShape 2) [1, 0]

/-- The composition: two points are related if some point lies between them. -/
def circ (U : Universe σ α) (R S : Tensor α) : Build σ (Tensor α) := do
  U.requireBinary [R, S]
  let left ← U.tensors.reindex R (U.newShape 3) [1, 0]
  let right ← U.tensors.reindex S (U.newShape 3) [0, 2]
  let both ← U.tensors.and left right
  U.tensors.any both

/-- Quantifies universally over the given number of first axes. -/
def allAxes (U : Universe σ α) : Nat → Tensor α → Build σ (Tensor α)
  | 0, T => pure T
  | k + 1, T => do U.allAxes k (← U.tensors.all T)

/-- Whether all cells of a tensor are true. -/
def forAll (U : Universe σ α) (T : Tensor α) : Build σ (Tensor α) :=
  U.allAxes T.axes.length T

/-- Whether two relations are equal. -/
def equals (U : Universe σ α) (R S : Tensor α) : Build σ (Tensor α) := do
  U.requireBinary [R, S]
  U.forAll (← U.tensors.equ R S)

/-- Whether the first relation is contained in the second. -/
def leq (U : Universe σ α) (R S : Tensor α) : Build σ (Tensor α) := do
  U.requireBinary [R, S]
  U.forAll (← U.tensors.imp R S)

/-- Whether two relations are equal, as a truth value. -/
def same [Shown α] (U : Universe σ α) (R S : Tensor α) : Build σ Bool := do
  U.truthValue (← U.equals R S)

end Universe

end BoolCalculus
