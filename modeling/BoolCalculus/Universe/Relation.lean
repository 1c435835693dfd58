import BoolCalculus.Universe

/-!
# Relations of any arity

Boolean operations, reindexing and projection of the relations of a universe. Coordinate `i` of a
reindexed relation moves to the place that the mapping names; the projection forgets the first
coordinate.
-/

namespace BoolCalculus.Universe

variable {σ α : Type}

/-- The empty or the total relation of an arity; a negative arity counts as none. -/
def relLift (U : Universe σ α) (arity : Int) (b : Bool) : Build σ (Tensor α) :=
  U.tensors.create (U.newShape arity) fun _ => b

/-- The complement of a relation. -/
def relComp (U : Universe σ α) (R : Tensor α) : Build σ (Tensor α) := do
  let _ ← U.requireRelations [R]
  U.tensors.not R

/-- The intersection of two relations of one arity. -/
def relMeet (U : Universe σ α) (R S : Tensor α) : Build σ (Tensor α) := do
  let _ ← U.requireRelations [R, S]
  U.tensors.and R S

/-- The union of two relations of one arity. -/
def relJoin (U : Universe σ α) (R S : Tensor α) : Build σ (Tensor α) := do
  let _ ← U.requireRelations [R, S]
  U.tensors.or R S

/-- Moves the coordinates of a relation into a relation of another arity. -/
def relReindex (U : Universe σ α) (R : Tensor α) (arity : Int) (mapping : List Int) :
    Build σ (Tensor α) := do
  let _ ← U.requireRelations [R]
  U.tensors.reindex R (U.newShape arity) mapping

/-- Projects away the first coordinate of a relation. -/
def relExists (U : Universe σ α) (R : Tensor α) : Build σ (Tensor α) := do
  let arity ← U.requireRelations [R]
  if arity = 0 then throw (.shapeMismatch .notProjectable)
  U.tensors.any R

end BoolCalculus.Universe
