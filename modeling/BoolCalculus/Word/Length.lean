import BoolCalculus.Word.Ops

/-!
# The length checker

Word operations whose operands are lengths. They refuse words that the arithmetic over a gate set refuses,
and build nothing. A number is as good an operand as a length.
-/

namespace BoolCalculus.Word

variable {σ : Type}

/-- A binary operation keeps the common length of its operands. -/
def sameLength (left right : Int) : Build σ Int := do
  requireLengths left right
  pure left

/-- The operations on lengths. -/
def lengthOps : WordOps σ Int where
  length n := pure n
  bitLift bits := pure bits.length
  bitNot n := pure n
  bits _ := sameLength
  concat ns := pure (ns.foldl (· + ·) 0)
  numLift width _ := pure width
  numNeg n := pure n
  num _ := sameLength

end BoolCalculus.Word
