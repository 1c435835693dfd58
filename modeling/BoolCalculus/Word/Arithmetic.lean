import BoolCalculus.Bits
import BoolCalculus.GateSet
import BoolCalculus.Word.Ops

/-!
# Word arithmetic over a gate set

Bitwise operations visit the elements from the least significant one. Sums, differences and negatives
ripple a carry through the elements: a sum starts with the carry zero, a difference adds the negated
second operand to the carry unit, and a negative adds the carry unit to the negated operand by half
adders.
-/

namespace BoolCalculus.Word

variable {σ α : Type}

/-- The gate of a bitwise operation. -/
def gate (A : GateSet σ α) : BitOp → α → α → Build σ α
  | .or => A.or
  | .and => A.and
  | .add => A.add
  | .equ => A.equ
  | .leq => A.leq

/-- Applies a gate to the elements of two words pair by pair. -/
def zipGates (f : α → α → Build σ α) : Word α → Word α → Build σ (Word α)
  | a :: as, b :: bs => do
    let c ← f a b
    let cs ← zipGates f as bs
    pure (c :: cs)
  | _, _ => pure []

/-- The sum of two words and a carry. -/
def rippleAdd (A : GateSet σ α) : Word α → Word α → α → Build σ (Word α)
  | a :: as, b :: bs, carry => do
    let sum ← A.ad3 a b carry
    let next ← A.maj a b carry
    let sums ← rippleAdd A as bs next
    pure (sum :: sums)
  | _, _, _ => pure []

/-- The sum of a word, the negation of another and a carry. -/
def rippleSub (A : GateSet σ α) : Word α → Word α → α → Build σ (Word α)
  | a :: as, b :: bs, carry => do
    let notB ← A.not b
    let sum ← A.ad3 a notB carry
    let next ← A.maj a notB carry
    let sums ← rippleSub A as bs next
    pure (sum :: sums)
  | _, _, _ => pure []

/-- The sum of the negation of a word and a carry. -/
def rippleNeg (A : GateSet σ α) : Word α → α → Build σ (Word α)
  | [], _ => pure []
  | a :: as, carry => do
    let notA ← A.not a
    let sum ← A.add notA carry
    let next ← A.and notA carry
    let sums ← rippleNeg A as next
    pure (sum :: sums)

/-- The word of lifted truth values. -/
def lift (A : GateSet σ α) (bits : List Bool) : Build σ (Word α) :=
  bits.mapM A.lift

/-- Negation of every element. -/
def bitNot (A : GateSet σ α) (w : Word α) : Build σ (Word α) :=
  w.mapM A.not

/-- A bitwise operation. The lengths are compared before any gate is called. -/
def bitwise (A : GateSet σ α) (op : BitOp) (v w : Word α) : Build σ (Word α) := do
  requireLengths v.length w.length
  zipGates (gate A op) v w

/-- The word of an integer, bit by bit. -/
def lifted (A : GateSet σ α) (width value : Int) : Build σ (Word α) :=
  (List.range width.toNat).mapM fun i => A.lift (Bits.bit value i)

/-- The word of an integer is the word of its lowest bits. -/
theorem lifted_eq_lift (A : GateSet σ α) (width value : Int) :
    lifted A width value = lift A (Bits.ofInt value width) := by
  rw [lift, Bits.ofInt, List.mapM_map]
  rfl

/-- The negative of a word. -/
def neg (A : GateSet σ α) (w : Word α) : Build σ (Word α) := do
  let carry ← A.unit
  rippleNeg A w carry

/-- The sum of two words. The lengths are compared before any gate is called. -/
def add (A : GateSet σ α) (v w : Word α) : Build σ (Word α) := do
  requireLengths v.length w.length
  let carry ← A.zero
  rippleAdd A v w carry

/-- The difference of two words. The lengths are compared before any gate is called. -/
def sub (A : GateSet σ α) (v w : Word α) : Build σ (Word α) := do
  requireLengths v.length w.length
  let carry ← A.unit
  rippleSub A v w carry

/-- The arithmetic operation of a name. -/
def arithmetic (A : GateSet σ α) : NumOp → Word α → Word α → Build σ (Word α)
  | .add => add A
  | .sub => sub A

/-- What an operation on words can be given: a word, the names of a record, a number, or something else,
with the fault that arises when its length is asked for. A record counts as the word of its names, but at
every position it has the same element, which stands for a missing field. -/
inductive Content (α : Type) where
  | word (w : Word α)
  | named (names : Word α) (missing : α)
  | number (n : Int)
  | other (why : Fault)
  deriving Repr

namespace Content

/-- The word that an operand counts as. A number has no length. -/
def word? : Content α → Except Fault (Word α)
  | word w => .ok w
  | named names _ => .ok names
  | number _ => .error (.misuse (.noLength (.plain "int")))
  | other why => .error why

/-- The elements at the positions of an operand. -/
def entries? : Content α → Except Fault (Word α)
  | named names missing => .ok (names.map fun _ => missing)
  | v => v.word?

/-- The number of elements of an operand. -/
def length (v : Content α) : Build σ Int := do
  let w ← .ofExcept v.word?
  pure w.length

end Content

/-- The word operations over a gate set. The lengths of all operands are asked for first, but a negative
makes its carry before it. -/
def ops (A : GateSet σ α) : WordOps σ (Content α) where
  length v := .number <$> v.length
  bitLift bits := .word <$> lift A bits
  bitNot v := do
    let w ← .ofExcept v.entries?
    .word <$> bitNot A w
  bits op u v := do
    let v' ← .ofExcept u.entries?
    let w ← .ofExcept v.entries?
    .word <$> bitwise A op v' w
  concat vs := do
    let ws ← vs.mapM fun v => .ofExcept v.word?
    pure (.word ws.flatten)
  numLift width value := .word <$> lifted A width value
  numNeg v := do
    let carry ← A.unit
    let w ← .ofExcept v.entries?
    .word <$> rippleNeg A w carry
  num op u v := do
    let v' ← .ofExcept u.entries?
    let w ← .ofExcept v.entries?
    .word <$> arithmetic A op v' w

theorem numLift_eq_bitLift (A : GateSet σ α) (width value : Int) :
    (ops A).numLift width value = (ops A).bitLift (Bits.ofInt value width) :=
  congrArg (Content.word <$> ·) (lifted_eq_lift A width value)

end BoolCalculus.Word
