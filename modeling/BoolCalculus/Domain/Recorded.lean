import BoolCalculus.Domain

/-!
# A domain that records its operations

Every operation of the domain, its predicates included, appends a term that names the operation and
its operands, and answers the handle of the term. The predicates give elements of the
domain itself, so membership is never decided here.
-/

namespace BoolCalculus

/-- The operations that a recorded domain tells apart. -/
inductive Symbol where
  | input | contains | equals | edge | bot | top | meet | join | not
  | zero | neg | add | mul | unit | inv
  deriving DecidableEq, Repr

/-- The name of an operation. -/
def Symbol.name : Symbol → String
  | input => "var"
  | contains => "contains"
  | equals => "equals"
  | edge => "edge"
  | bot => "bot"
  | top => "top"
  | meet => "meet"
  | join => "join"
  | not => "not"
  | zero => "zero"
  | neg => "neg"
  | add => "add"
  | mul => "mul"
  | unit => "unit"
  | inv => "inv"

/-- An operation applied to operands. -/
structure Term (α : Type) where
  symbol : Symbol
  operands : List α
  deriving DecidableEq, Repr

/-- The terms in the order in which they were built. -/
abbrev Recording (α : Type) : Type := Array (Term α)

namespace Recording

variable {α : Type}

/-- Appends a term and answers the handle of its position. -/
def emit (handle : Nat → α) (symbol : Symbol) (operands : List α) : Build (Recording α) α :=
  modifyGet fun terms => (handle terms.size, terms.push ⟨symbol, operands⟩)

@[simp] theorem runFrom_emit (handle : Nat → α) (symbol : Symbol) (operands : List α)
    (terms : Recording α) :
    (emit handle symbol operands).runFrom terms =
      (.ok (handle terms.size), terms.push ⟨symbol, operands⟩) := rfl

/-- Records an operation of one operand. -/
def unary (handle : Nat → α) (symbol : Symbol) (a : α) : Build (Recording α) α :=
  emit handle symbol [a]

/-- Records an operation of two operands. -/
def binary (handle : Nat → α) (symbol : Symbol) (a b : α) : Build (Recording α) α :=
  emit handle symbol [a, b]

/-- The recorded domain, with the derived implication, equivalence and symmetric difference. -/
def domain (handle : Nat → α) : Domain (Recording α) α where
  name := "Recording"
  predicates := .internal (unary handle .contains) (binary handle .equals) (binary handle .edge)
  bot := emit handle .bot []
  top := emit handle .top []
  meet := binary handle .meet
  join := binary handle .join
  compl := unary handle .not

/-- The recorded field operations, with the derived difference and quotient. -/
def field (handle : Nat → α) : FieldOps (Recording α) α where
  zero := emit handle .zero []
  neg := unary handle .neg
  add := binary handle .add
  mul := binary handle .mul
  unit := emit handle .unit []
  inv := unary handle .inv

end Recording

end BoolCalculus
