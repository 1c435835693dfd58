import BoolCalculus.Keyed
import BoolCalculus.Rule
import BoolCalculus.Universe.RelationOps

/-!
# The rule engine

An engine holds named binary relations and rules. Forward chaining runs through the rules again and
again and joins every derived relation into its head, until a pass changes nothing or the budget of
passes is used up. What a pass stored before a failure stays stored. The relations are of any type that
`RelationOps` acts on.
-/

namespace BoolCalculus

/-- The state of a rule engine: the state of the gates, the named relations and the rules. -/
structure Engine (σ ρ : Type) where
  gates : σ
  relations : Keyed ρ
  rules : List Rule

/-- How a run of forward chaining ended. -/
inductive ChainEnd where
  /-- The pass of that number was the first that changed nothing. -/
  | settled (passes : Nat)
  /-- The budget was used up, and its every pass changed something. -/
  | exhausted (budget : Int)
  deriving DecidableEq, Repr

namespace ChainEnd

/-- The number of passes, which is the whole budget of a run that did not settle. -/
def passes : ChainEnd → Int
  | settled passes => passes
  | exhausted budget => budget

/-- The warning of a run that did not settle. -/
def warning? : ChainEnd → Option String
  | settled _ => none
  | exhausted budget => some s!"Forward chaining did not converge in {budget} iterations"

end ChainEnd

variable {σ ρ : Type}

/-- The relation that a rule derives from named relations; none if a body relation is missing. A single
relation that is not inverted is handed on as it is. -/
def Rule.derive (O : RelationOps σ ρ) (relations : Keyed ρ) (r : Rule) : Build σ (Option ρ) :=
  match r.premise with
  | .composition first rest =>
    match relations.lookup first, rest.mapM (relations.lookup ·) with
    | some R, some Rs => some <$> Rs.foldlM O.circ R
    | _, _ => pure none
  | .inverse source =>
    match relations.lookup source with
    | some R => some <$> O.inv R
    | none => pure none
  | .implication source => pure (relations.lookup source)

namespace Engine

/-- Runs a construction on the state of the gates. -/
def onGates {β : Type} (act : Build σ β) : Build (Engine σ ρ) β :=
  .onPart Engine.gates (fun gates e => { e with gates }) act

/-- Stores a binary relation under a name. -/
def setRelation (O : RelationOps σ ρ) (name : Text) (R : ρ) : Build (Engine σ ρ) Unit := do
  onGates (O.require R)
  modify fun e => { e with relations := e.relations.put name R }

/-- Adds a rule after the others. -/
def addRule (head : Text) (body : List Text) (type : Text) : Build (Engine σ ρ) Unit := do
  let r ← .ofExcept (Rule.ofNames head body type)
  modify fun e => { e with rules := e.rules ++ [r] }

/-- The relation that a rule derives from the stored ones. -/
def applyRule (O : RelationOps σ ρ) (r : Rule) : Build (Engine σ ρ) (Option ρ) := do
  onGates (r.derive O (← get).relations)

/-- Joins what a rule derives into its head, and answers whether that changed the head. -/
def fire (O : RelationOps σ ρ) (r : Rule) : Build (Engine σ ρ) Bool := do
  match ← applyRule O r with
  | none => pure false
  | some derived =>
    match (← get).relations.lookup r.head with
    | none =>
      modify fun e => { e with relations := e.relations.put r.head derived }
      pure true
    | some old =>
      let combined ← onGates (O.join old derived)
      if ← onGates (O.same old combined) then
        pure false
      else
        modify fun e => { e with relations := e.relations.put r.head combined }
        pure true

/-- Fires rules one after the other, and answers whether one of them changed its head. -/
def pass (O : RelationOps σ ρ) : List Rule → Build (Engine σ ρ) Bool
  | [] => pure false
  | r :: rest => do
    let changed ← fire O r
    let later ← pass O rest
    pure (changed || later)

/-- Makes passes until one changes nothing; `before` counts the passes already made. -/
def passes (O : RelationOps σ ρ) (budget : Int) : (left before : Nat) → Build (Engine σ ρ) ChainEnd
  | 0, _ => pure (.exhausted budget)
  | left + 1, before => do
    if ← pass O (← get).rules then
      passes O budget left (before + 1)
    else
      pure (.settled (before + 1))

/-- Forward chaining with a budget of passes; a budget below one allows none. -/
def forwardChain (O : RelationOps σ ρ) (budget : Int) : Build (Engine σ ρ) ChainEnd :=
  passes O budget budget.toNat 0

end Engine

end BoolCalculus
