import BoolCalculus.Amount.Sum
import BoolCalculus.Operand.Equality

/-!
# Operands as lengths

The length checker on operands of any kind. A length is used as it is, whatever it is: only where two lengths
have to agree are they compared, and only a concatenation adds them.
-/

namespace BoolCalculus

namespace Value

/-- The sum of two numbers: an integer if both are integers or truth values, else an amount. -/
def plus (v w : Value) : Except Fault Value :=
  match v.integer?, w.integer?, v.magnitude?, w.magnitude? with
  | some m, some n, _, _ => .ok (int (m + n))
  | _, _, some a, some b => .ok (real (Amount.sum a b))
  | _, _, _, _ => .error (.misuse (.noSum v.sort w.sort))

end Value

namespace Operand

variable {σ γ : Type} [Shown γ]

/-- An operand as messages speak of it: text without quotes, and an array by its cells alone. -/
def spoken (dense : Bool) (a : Operand γ) : Value :=
  let array (shown : String) : Value := .foreign (a.sort dense) shown a.written
  match a with
  | plain v => v
  | tensor T _ =>
    match T.scalar? with
    | some cell => array (Shown.value cell).display.toString
    | none => array (if dense then T.displayDense else T.cellsText Tensor.opaqueText 0)
  | truths T _ =>
    match T.scalar? with
    | some b => array (Value.truth b).quoted
    | none => array (T.cellsText Tensor.truthText 0)
  | a => a.value dense

/-- Refuses operands that are not the same. -/
def requireSame (dense : Bool) (a b : Operand γ) : Except Fault Unit := do
  if ← compare dense a b >>= Verdict.isTrue then pure ()
  else throw (.lengthMismatch (a.spoken dense) (b.spoken dense))

/-- What lengths that were added so far make: a number, or numbers cell by cell. -/
inductive Total where
  | number (v : Value)
  | cells (T : Tensor Value)

namespace Total

/-- Adds a number to the cell of an array. -/
def plusCell (v : Value) : Operand γ → Except Fault Value
  | plain w => v.plus w
  | tensor T _ => v.plus (T.scalar?.elim .null Shown.value)
  | a => .error (.misuse (.noSum v.sort (a.sort false)))

/-- An array of numbers, which is a number if it has no axes. -/
def ofCells (T : Tensor Value) : Total :=
  T.scalar?.elim (cells T) number

/-- Adds one more operand. -/
def plus (dense : Bool) (total : Total) (a : Operand γ) : Except Fault Total :=
  match total, a with
  | number v, plain w => number <$> v.plus w
  | number v, tensor T _ => ofCells <$> (Gathered.mk [] [v]).combine Value.plus (plainCells T)
  | number v, truths T _ => ofCells <$> (Gathered.mk [] [v]).combine Value.plus (plainCells T)
  | number v, a => .error (.misuse (.noSum v.sort (a.sort dense)))
  | cells S, a => do ofCells <$> (plainCells S).combine plusCell (← a.gather)

/-- A total as an operand. -/
def operand (dense : Bool) : Total → Operand γ
  | number v => plain v
  | cells T => plain (.foreign (if dense then "Tensor" else "ndarray") T.display T.value)

end Total

/-- The sum of operands. -/
def sum (dense : Bool) (operands : List (Operand γ)) : Except Fault (Operand γ) :=
  (Total.operand dense) <$> operands.foldlM (Total.plus dense) (.number (.int 0))

/-- The word operations on operands that are lengths. -/
def lengthOps (dense : Bool) : WordOps σ (Operand γ) where
  length a := pure a
  bitLift bits := pure (int bits.length)
  bitNot a := pure a
  bits _ a b := do
    .ofExcept (requireSame dense a b)
    pure a
  concat as := .ofExcept (sum dense as)
  numLift width _ := pure (int width)
  numNeg a := pure a
  num _ a b := do
    .ofExcept (requireSame dense a b)
    pure a

end Operand

end BoolCalculus
