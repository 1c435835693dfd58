import BoolCalculus.Domain

/-!
# Methods of a domain

The operations of a domain and of its field, by their names and applied to a list of operands. What a
method answers is shown as a plain value.
-/

namespace BoolCalculus.Domain

variable {σ α : Type} [Shown α]

/-- The domain of the truth values of the predicates, as an object that requests can hold. -/
def logic (D : Domain σ α) : Value :=
  match D.predicates with
  | .classical .. => .foreign "TwoElementAlg" "TWO_ELEMENT_ALG" (.text "TWO_ELEMENT_ALG")
  | .internal .. => .foreign D.name "self" (.text "self")

/-- A predicate of one operand. -/
def contains (D : Domain σ α) (a : α) : Build σ Value :=
  match D.predicates with
  | .classical contains _ _ => pure (.truth (contains a))
  | .internal contains _ _ => Shown.value <$> contains a

/-- Equality as a predicate. -/
def equals (D : Domain σ α) (a b : α) : Build σ Value :=
  match D.predicates with
  | .classical _ equals _ => pure (.truth (equals a b))
  | .internal _ equals _ => Shown.value <$> equals a b

/-- The order as a predicate. -/
def edge (D : Domain σ α) (a b : α) : Build σ Value :=
  match D.predicates with
  | .classical _ _ edge => pure (.truth (edge a b))
  | .internal _ _ edge => Shown.value <$> edge a b

/-- A method of a field. -/
def fieldCall (F : FieldOps σ α) (method : String) (operands : List α) : Option (Build σ α) :=
  match method, operands with
  | "zero", [] => some F.zero
  | "neg", [a] => some (F.neg a)
  | "add", [a, b] => some (F.add a b)
  | "sub", [a, b] => some (F.sub a b)
  | "mul", [a, b] => some (F.mul a b)
  | "unit", [] => some F.unit
  | "inv", [a] => some (F.inv a)
  | "div", [a, b] => some (F.div a b)
  | _, _ => none

/-- A method of a domain that answers an element; those with a name in `base_` are the derivations from the
lattice operations and the complement. -/
def elementCall (D : Domain σ α) (method : String) (operands : List α) : Option (Build σ α) :=
  match method, operands with
  | "check_member", [a] => some (D.checkMember a)
  | "bot", [] => some D.bot
  | "top", [] => some D.top
  | "meet", [a, b] => some (D.meet a b)
  | "join", [a, b] => some (D.join a b)
  | "not_", [a] => some (D.compl a)
  | "imp", [a, b] => some (D.imp a b)
  | "equ", [a, b] => some (D.equ a b)
  | "xor", [a, b] => some (D.xor a b)
  | "base_imp", [a, b] => some (Derived.imp D.join D.compl a b)
  | "base_equ", [a, b] => some (Derived.bothWays D.meet D.imp a b)
  | "base_xor", [a, b] => some (Derived.equ D.compl D.equ a b)
  | _, _ => none

/-- A method of a domain, or of its field if it has one. -/
def call (D : Domain σ α) (field? : Option (FieldOps σ α)) (method : String) (operands : List α) :
    Option (Build σ Value) :=
  match method, operands with
  | "logic", [] => some (pure D.logic)
  | "contains", [a] => some (D.contains a)
  | "equals", [a, b] => some (D.equals a b)
  | "edge", [a, b] => some (D.edge a b)
  | method, operands =>
    match D.elementCall method operands, field? with
    | some act, _ => some (Shown.value <$> act)
    | none, some F => (Shown.value <$> ·) <$> fieldCall F method operands
    | none, none => none

end BoolCalculus.Domain
