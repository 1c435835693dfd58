import BoolCalculus.Fault

/-!
# Rules

A rule derives a binary relation, its head, from named binary relations: the composition of one or
more of them, the inverse of one, or one as it is.
-/

namespace BoolCalculus

/-- What the head of a rule is derived from. -/
inductive Premise where
  /-- The composition of a first relation with further ones. -/
  | composition (first : Text) (rest : List Text)
  /-- The inverse of a relation. -/
  | inverse (source : Text)
  /-- A relation as it is. -/
  | implication (source : Text)
  deriving DecidableEq, Repr

/-- A rule: the name of its head and its premise. -/
structure Rule where
  head : Text
  premise : Premise
  deriving DecidableEq, Repr

/-- The types of rules. -/
inductive RuleType where
  | composition | inverse | implication
  deriving DecidableEq, Repr

namespace RuleType

/-- The name of a type. -/
def name : RuleType → Text
  | composition => "composition"
  | inverse => "inverse"
  | implication => "implication"

/-- The type of a name. -/
def ofName? (type : Text) : Option RuleType :=
  [composition, inverse, implication].find? (·.name = type)

end RuleType

namespace Rule

/-- The names of the body relations, in their order. -/
def body (r : Rule) : List Text :=
  match r.premise with
  | .composition first rest => first :: rest
  | .inverse source => [source]
  | .implication source => [source]

/-- The type of a rule. -/
def type (r : Rule) : RuleType :=
  match r.premise with
  | .composition _ _ => .composition
  | .inverse _ => .inverse
  | .implication _ => .implication

/-- The rule with the given head, body and type. An unknown type is refused first, then an empty body,
then a body of several relations where the type has one. -/
def ofNames (head : Text) (body : List Text) (type : Text) : Except Fault Rule :=
  match RuleType.ofName? type, body with
  | none, _ => .error (.unknownRuleType type)
  | some _, [] => .error (.emptyBody head)
  | some .composition, first :: rest => .ok ⟨head, .composition first rest⟩
  | some .inverse, [source] => .ok ⟨head, .inverse source⟩
  | some .implication, [source] => .ok ⟨head, .implication source⟩
  | some _, _ => .error (.manyBodies type head)

/-- A rule as an arrow from its body to its head. -/
def display (r : Rule) : Text :=
  match r.premise with
  | .composition first rest => r.head ++ "(x,z) <- " ++ Text.join ", " (first :: rest)
  | .inverse source => r.head ++ "(y,x) <- " ++ source ++ "(x,y)"
  | .implication source => r.head ++ "(x,y) <- " ++ source ++ "(x,y)"

end Rule

end BoolCalculus
