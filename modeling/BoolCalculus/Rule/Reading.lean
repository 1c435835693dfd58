import BoolCalculus.Rule.Engine
import BoolCalculus.Value.Number

/-!
# Rules from outside

A rule whose parts are plain values, and chaining with a plain value for its budget. The body is whatever has
items, which are the names of the body relations: a list, but also a text with its characters. A name is what it
is displayed as; only the names that a composition is displayed with have to be texts.
-/

namespace BoolCalculus

namespace Rule

/-- The type of a rule with the given parts, or the refusal of one of them. -/
def typeOf (head body type : Value) : Except Fault RuleType :=
  match RuleType.ofName? type.display with
  | none => .error (.unknownRuleType type.display)
  | some t =>
    if !body.isTrue then .error (.emptyBody head.display)
    else if t = .composition then .ok t
    else
      match body.items? with
      | none => .error (.misuse (.noLength (.plain body.sort)))
      | some [_] => .ok t
      | some _ => .error (.manyBodies t.name head.display)

/-- The rule with the given parts. -/
def ofValues (head body type : Value) : Except Fault Rule := do
  let t ← typeOf head body type
  ofNames head.display ((← body.elements).map Value.display) t.name

/-- The names in a list, all of which have to be texts. -/
def texts : (position : Nat) → List Value → Except Fault (List Text)
  | _, [] => .ok []
  | position, .text name :: rest => do pure (name :: (← texts (position + 1) rest))
  | position, v :: _ => .error (.misuse (.noText position v.sort))

/-- The names in a body that is displayed. -/
def spokenBody (t : RuleType) (body : Value) : Except Fault (List Text) :=
  match t, body.items? with
  | .composition, some items => texts 0 items
  | .composition, none => .error (.misuse .notJoinable)
  | _, some items => .ok (items.map Value.display)
  | _, none => .error (.misuse (.noElements (.plain body.sort)))

/-- The rule with the given parts, all of which can be displayed. -/
def spoken (head body type : Value) : Except Fault Rule := do
  let t ← typeOf head body type
  ofNames head.display (← spokenBody t body) t.name

end Rule

/-- Forward chaining with a budget that may be no number of passes, which is seen before the first rule. -/
def Engine.forwardChainUpTo {σ ρ : Type} (O : RelationOps σ ρ) (budget : Value) :
    Build (Engine σ ρ) ChainEnd := do
  forwardChain O (← .ofExcept budget.count)

end BoolCalculus
