import BoolCalculus.Operand.Equality
import BoolCalculus.Rule.Engine

/-!
# Registers

What the steps of a session left behind: the objects that they made, by the numbers of the steps. Every array
that a step makes is a new object; a relation that an engine stores is the object that was given to it, so
labels are given out by one count for both (`Operand.registered`).
-/

namespace BoolCalculus

namespace Operand

variable {σ γ : Type}

/-- Labels the arrays that a step made. -/
def registered (a : Operand γ) : Build (Counted σ) (Operand γ) :=
  modifyGet fun s =>
    let (a, labels) := a.labelled.run s.labels
    (a, { s with labels })

/-- A stored relation as an object. -/
def ofRelation (R : Labelled (Tensor γ)) : Operand γ :=
  .tensor R.content (some R.label)

/-- Named relations as one object, in the order of their names. -/
def ofRelations (relations : Keyed (Labelled (Tensor γ))) : Operand γ :=
  .record (relations.sorted.map fun (name, R) => (name, ofRelation R))

/-- The relation that an object is, if it is a tensor with cells that `read` finds among plain values. -/
def relation? (read : Value → Option γ) (a : Operand γ) : Option (Labelled (Tensor γ)) := do
  pure ⟨← a.tensor? read, ← a.label?⟩

end Operand

/-- The objects of a session. A step that failed has no object. -/
structure Registers (γ : Type) where
  objects : Array (Option (Operand γ))

namespace Registers

variable {γ : Type}

/-- The registers before the first step. -/
def empty : Registers γ := ⟨#[]⟩

/-- The object in a register. -/
def object? (R : Registers γ) (n : Int) : Option (Operand γ) :=
  if n < 0 then none else (R.objects[n.toNat]?).join

/-- Appends the object of a step. -/
def push (R : Registers γ) (object? : Option (Operand γ)) : Registers γ :=
  ⟨R.objects.push object?⟩

end Registers

end BoolCalculus
