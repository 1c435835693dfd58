import BoolCalculus.GateSet

/-!
# Circuits

A gate set that builds a circuit: every call of a primitive appends a node that records the gate and
its operands, and answers the handle of the new node. Nothing is shared and nothing is simplified, so the
nodes are the calls in their order. Handles are elements of any type that the positions of nodes are
taken into; the positions themselves do, with `id`.
-/

namespace BoolCalculus

/-- A node of a circuit, with operands of type `α`: handles of earlier nodes, or what else a gate was
given. -/
inductive Node (α : Type) where
  /-- A free input. -/
  | input
  /-- A constant. -/
  | const (b : Bool)
  | not (a : α)
  | or (a b : α)
  | and (a b : α)
  deriving DecidableEq, Repr

/-- The nodes of a circuit, in the order in which they were built. -/
abbrev Circuit (α : Type) : Type := Array (Node α)

namespace Circuit

variable {α : Type}

/-- Appends a node and answers the handle of its position. -/
def emit (handle : Nat → α) (node : Node α) : Build (Circuit α) α :=
  modifyGet fun c => (handle c.size, c.push node)

/-- A fresh free input. -/
def input (handle : Nat → α) : Build (Circuit α) α :=
  emit handle .input

/-- The gate set of circuits; all but the primitives is derived. -/
def gates (handle : Nat → α) : GateSet (Circuit α) α :=
  .ofPrimitives (fun b => emit handle (.const b)) (fun a => emit handle (.not a))
    (fun a b => emit handle (.or a b)) (fun a b => emit handle (.and a b))

@[simp] theorem runFrom_emit (handle : Nat → α) (node : Node α) (c : Circuit α) :
    (emit handle node).runFrom c = (.ok (handle c.size), c.push node) := rfl

end Circuit

end BoolCalculus
