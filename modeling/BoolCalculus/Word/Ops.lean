import BoolCalculus.Build
import BoolCalculus.Word

/-!
# Word operations

The operations that a construction of words calls, with operands of an abstract type `ω`. Two things
offer them: the arithmetic over a gate set, and the length checker, whose operands are lengths.
-/

namespace BoolCalculus

/-- The bitwise operations of two words. -/
inductive BitOp where
  | or | and | add | equ | leq
  deriving DecidableEq, Repr

/-- The arithmetic operations of two words. -/
inductive NumOp where
  | add | sub
  deriving DecidableEq, Repr

/-- Operations on words, with operands of type `ω`. All results have the length of their operands, except
for lifts, which have the length asked for, and for the concatenation. -/
structure WordOps (σ ω : Type) where
  /-- The number of elements, as an operand. -/
  length : ω → Build σ ω
  /-- The word of the given truth values. -/
  bitLift : List Bool → Build σ ω
  /-- Negation of every element. -/
  bitNot : ω → Build σ ω
  /-- A bitwise operation of two words of one length. -/
  bits : BitOp → ω → ω → Build σ ω
  /-- The words one after the other, the first at the least significant end. -/
  concat : List ω → Build σ ω
  /-- The two's-complement encoding of an integer in the given width. -/
  numLift : (width value : Int) → Build σ ω
  /-- The two's-complement negative. -/
  numNeg : ω → Build σ ω
  /-- Sum or difference of two words of one length. -/
  num : NumOp → ω → ω → Build σ ω

namespace WordOps

variable {σ ω : Type}

/-- The operations on a larger type, whose elements are read as operands and into which the results are
taken. -/
def through {ω' : Type} (read : ω' → ω) (render : ω → ω') (V : WordOps σ ω) : WordOps σ ω' where
  length v := render <$> V.length (read v)
  bitLift bits := render <$> V.bitLift bits
  bitNot v := render <$> V.bitNot (read v)
  bits op v w := render <$> V.bits op (read v) (read w)
  concat vs := render <$> V.concat (vs.map read)
  numLift width value := render <$> V.numLift width value
  numNeg v := render <$> V.numNeg (read v)
  num op v w := render <$> V.num op (read v) (read w)

end WordOps

/-- Refuses operands of different lengths. -/
def requireLengths {σ : Type} (left right : Int) : Build σ Unit :=
  if left = right then pure () else throw (.lengthMismatch (.int left) (.int right))

end BoolCalculus
