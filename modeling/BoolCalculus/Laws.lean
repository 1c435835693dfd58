import BoolCalculus.Laws.Result
import BoolCalculus.Universe.Binary
import BoolCalculus.Word.Arithmetic

/-!
# Checking laws

A law checker draws relations and integers and counts how often a law of relation algebra or of
two's-complement arithmetic fails on them. A relation law compares two relations of a universe; an
arithmetic law compares the unsigned reading of a word with an integer modulo `2 ^ width`.
-/

namespace BoolCalculus.Laws

-- Powers of numbers are not taken in a monoid.
attribute [local instance (high)] instPowNat

/-- What laws are checked on, and where the operands come from. -/
structure Checker (σ α β : Type) where
  /-- The universe of the relation laws. -/
  space : Universe σ α
  /-- The gates of the arithmetic laws. -/
  gates : GateSet σ β
  /-- The width of the words. -/
  width : Nat
  /-- How often each law is tried; none of them for a number below one. -/
  trials : Int
  /-- Draws a binary relation. -/
  relation : Build σ (Tensor α)
  /-- Draws an integer from the first bound to below the second. -/
  integer : Int → Int → Build σ Int

/-- A law with its name: one trial answers whether the law held. -/
structure Law (σ : Type) where
  name : Text
  trial : Build σ Bool

namespace Checker

variable {σ α β : Type}

/-- Counts the failures of a number of trials. -/
def countFailures (trial : Build σ Bool) : Nat → Build σ Nat
  | 0 => pure 0
  | k + 1 => do
    let holds ← trial
    let later ← countFailures trial k
    pure (later + if holds then 0 else 1)

/-- Checks laws one after the other. -/
def run (C : Checker σ α β) (laws : List (Law σ)) : Build σ (List Result) :=
  laws.mapM fun law => do
    let failures ← countFailures law.trial C.trials.toNat
    pure ⟨law.name, C.trials, failures⟩

section Relations

variable [Shown α]

/-- The diagonal is its own inverse. -/
def diagonalLaw (C : Checker σ α β) (diagonal : Tensor α) : Build σ Bool := do
  C.space.same (← C.space.inv diagonal) diagonal

/-- The complement of the complement is the relation. -/
def complementLaw (C : Checker σ α β) : Build σ Bool := do
  let R ← C.relation
  C.space.same (← C.space.comp (← C.space.comp R)) R

/-- The union is the complement of the intersection of the complements. -/
def deMorganLaw (C : Checker σ α β) : Build σ Bool := do
  let R ← C.relation
  let S ← C.relation
  let union ← C.space.join R S
  C.space.same union (← C.space.deMorganJoin R S)

/-- Composition is associative. -/
def associativityLaw (C : Checker σ α β) : Build σ Bool := do
  let R ← C.relation
  let S ← C.relation
  let T ← C.relation
  let left ← C.space.circ (← C.space.circ R S) T
  let right ← C.space.circ R (← C.space.circ S T)
  C.space.same left right

/-- The diagonal is neutral for composition. The second side is tried if the first one held. -/
def unitLaw (C : Checker σ α β) (diagonal : Tensor α) : Build σ Bool := do
  let R ← C.relation
  if ← C.space.same (← C.space.circ R diagonal) R then
    C.space.same (← C.space.circ diagonal R) R
  else
    pure false

/-- The laws of relation algebra; the diagonal is built once for all of them. -/
def relationLaws (C : Checker σ α β) (diagonal : Tensor α) : List (Law σ) :=
  [⟨"inv(diag) == diag", C.diagonalLaw diagonal⟩,
    ⟨"comp(comp(R)) == R", C.complementLaw⟩,
    ⟨"join == De Morgan join", C.deMorganLaw⟩,
    ⟨"circ is associative", C.associativityLaw⟩,
    ⟨"diag is the unit of circ", C.unitLaw diagonal⟩]

/-- Checks the laws of relation algebra. -/
def checkRelations (C : Checker σ α β) : Build σ (List Result) := do
  let diagonal ← C.space.diag
  C.run (C.relationLaws diagonal)

end Relations

section Arithmetic

variable [Shown β]

/-- Draws an integer that the width can represent. -/
def draw (C : Checker σ α β) : Build σ Int :=
  C.integer (-2 ^ (C.width - 1)) (2 ^ (C.width - 1))

/-- Whether the truth values of a word encode an integer modulo `2 ^ width`. -/
def encodes (C : Checker σ α β) (w : Word β) (expected : Int) : Bool :=
  Bits.toUnsigned (w.map Shown.isTrue) == Bits.masked expected C.width

/-- The word of an integer. -/
def word (C : Checker σ α β) (n : Int) : Build σ (Word β) :=
  Word.lifted C.gates C.width n

/-- An operation on words is an operation on integers. -/
def binaryLaw (C : Checker σ α β) (op : NumOp) (expected : Int → Int → Int) : Build σ Bool := do
  let a ← C.draw
  let b ← C.draw
  let v ← C.word a
  let w ← C.word b
  let result ← Word.arithmetic C.gates op v w
  pure (C.encodes result (expected a b))

/-- The negative of a word is the negative of the integer. -/
def negationLaw (C : Checker σ α β) : Build σ Bool := do
  let a ← C.draw
  let result ← Word.neg C.gates (← C.word a)
  pure (C.encodes result (-a))

/-- The laws of arithmetic. -/
def arithmeticLaws (C : Checker σ α β) : List (Law σ) :=
  [⟨"num_add matches +", C.binaryLaw .add (· + ·)⟩,
    ⟨"num_sub matches -", C.binaryLaw .sub (· - ·)⟩,
    ⟨"num_neg matches unary -", C.negationLaw⟩]

/-- Checks the laws of arithmetic. -/
def checkArithmetic (C : Checker σ α β) : Build σ (List Result) :=
  C.run C.arithmeticLaws

end Arithmetic

/-- Checks all laws, those of relation algebra first. -/
def checkAll [Shown α] [Shown β] (C : Checker σ α β) : Build σ (List Result) := do
  let relations ← C.checkRelations
  let arithmetic ← C.checkArithmetic
  pure (relations ++ arithmetic)

end Checker

end BoolCalculus.Laws
