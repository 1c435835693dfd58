import BoolCalculus.Universe.Closure
import BoolCalculus.Universe.Relation

/-!
# Straight-line programs on tensors

A step is one operation on tensors: of the tensor operations, of the scalars, or on relations. A program
is a list of steps whose operands are registers; every step appends its result.
-/

namespace BoolCalculus.Universe

/-- The operations with one tensor for their operand. -/
inductive Unary where
  | not | any | all
  | scalarNot
  | comp | inv
  | relComp | relExists
  deriving DecidableEq, Repr

/-- The operations with two tensors for their operands. -/
inductive Binary where
  | or | and | xor | equ | imp
  | meet | join | circ | equals | leq | deMorganJoin
  | relMeet | relJoin
  | scalar (gate : GateSet.Binary)
  deriving DecidableEq, Repr

variable {σ α : Type}

/-- The operation of one tensor by its name. -/
def unary (U : Universe σ α) : Unary → Tensor α → Build σ (Tensor α)
  | .not => U.tensors.not
  | .any => U.tensors.any
  | .all => U.tensors.all
  | .scalarNot => U.scalars.not
  | .comp => U.comp
  | .inv => U.inv
  | .relComp => U.relComp
  | .relExists => U.relExists

/-- The operation of two tensors by its name. -/
def binary (U : Universe σ α) : Binary → Tensor α → Tensor α → Build σ (Tensor α)
  | .or => U.tensors.or
  | .and => U.tensors.and
  | .xor => U.tensors.xor
  | .equ => U.tensors.equ
  | .imp => U.tensors.imp
  | .meet => U.meet
  | .join => U.join
  | .circ => U.circ
  | .equals => U.equals
  | .leq => U.leq
  | .deMorganJoin => U.deMorganJoin
  | .relMeet => U.relMeet
  | .relJoin => U.relJoin
  | .scalar gate => U.scalars.binary gate

/-- One step, with operands of type `ρ`: register numbers, or the tensors themselves. -/
inductive Step (ρ : Type) where
  /-- The lifted values of a function on coordinates. -/
  | create (shape : Shape) (f : List Nat → Bool)
  | reindex (r : ρ) (shape : Shape) (mapping : List Int)
  | unary (op : Unary) (r : ρ)
  | binary (op : Binary) (r s : ρ)
  | scalarLift (b : Bool)
  | scalarTernary (gate : GateSet.Ternary) (r s t : ρ)
  | binLift (b : Bool)
  | diag
  | relLift (arity : Int) (b : Bool)
  | relReindex (r : ρ) (arity : Int) (mapping : List Int)
  | closure (r : ρ) (reflexive : Bool)

namespace Step

variable {ρ τ : Type}

/-- Runs a step on its operands. -/
def run (U : Universe σ α) : Step (Tensor α) → Build σ (Tensor α)
  | create shape f => U.tensors.create shape f
  | reindex R shape mapping => U.tensors.reindex R shape mapping
  | unary op R => U.unary op R
  | binary op R S => U.binary op R S
  | scalarLift b => U.scalars.lift b
  | scalarTernary gate R S T => U.scalars.ternary gate R S T
  | binLift b => U.binLift b
  | diag => U.diag
  | relLift arity b => U.relLift arity b
  | relReindex R arity mapping => U.relReindex R arity mapping
  | closure R reflexive => U.closure R reflexive

/-- Looks the operands of a step up, from left to right. -/
def resolve {m : Type → Type} [Monad m] (get : ρ → m τ) : Step ρ → m (Step τ)
  | create shape f => pure (create shape f)
  | reindex r shape mapping => do pure (reindex (← get r) shape mapping)
  | unary op r => do pure (unary op (← get r))
  | binary op r s => do pure (binary op (← get r) (← get s))
  | scalarLift b => pure (scalarLift b)
  | scalarTernary gate r s t => do pure (scalarTernary gate (← get r) (← get s) (← get t))
  | binLift b => pure (binLift b)
  | diag => pure diag
  | relLift arity b => pure (relLift arity b)
  | relReindex r arity mapping => do pure (relReindex (← get r) arity mapping)
  | closure r reflexive => do pure (closure (← get r) reflexive)

end Step

/-- The steps of a program; their operands are register numbers. -/
abbrev Program : Type := List (Step Nat)

/-- The content of a register. -/
def register (regs : List (Tensor α)) (r : Nat) : Build σ (Tensor α) :=
  match regs[r]? with
  | some R => pure R
  | none => throw .noItem

/-- Runs a program from the given registers and answers all registers at its end. -/
def Program.registers (U : Universe σ α) : Program → List (Tensor α) → Build σ (List (Tensor α))
  | [], regs => pure regs
  | step :: rest, regs => do
    let operands ← step.resolve (register regs)
    let R ← operands.run U
    Program.registers U rest (regs ++ [R])

end BoolCalculus.Universe
