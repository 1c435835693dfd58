import BoolCalculus.Universe.Binary

/-!
# Transitive closure

The closure is reached by repeated squaring: a relation is joined with its composition with itself,
which doubles the length of the chains that it covers. The number of rounds depends on the size of the
universe alone, so cells of any gate set can be closed.
-/

namespace BoolCalculus

/-- The number of binary digits of a number; none for 0. -/
def binaryLength (n : Nat) : Nat :=
  if n = 0 then 0 else n.log2 + 1

namespace Universe

variable {σ α : Type}

/-- The number of squarings that suffice for every relation. -/
def rounds (U : Universe σ α) : Nat :=
  binaryLength (U.size - 1) + 1

/-- Joins a relation with its composition with itself, the given number of times. -/
def square (U : Universe σ α) : Nat → Tensor α → Build σ (Tensor α)
  | 0, R => pure R
  | k + 1, R => do
    let twice ← U.circ R R
    U.square k (← U.join R twice)

/-- The smallest transitive relation that contains a relation and, if asked for, the diagonal. -/
def closure (U : Universe σ α) (R : Tensor α) (reflexive : Bool) : Build σ (Tensor α) := do
  if reflexive then
    let diagonal ← U.diag
    U.square U.rounds (← U.join R diagonal)
  else
    U.square U.rounds R

end Universe

end BoolCalculus
