import BoolCalculus.Universe.Binary

/-!
# Operations on relations

What deriving relations from relations takes: the inverse, the composition, the union and a decided
equality, on relations of an abstract type `ρ`. A universe offers them on its tensors
(`Universe.relationOps`), and what is offered on some relations is offered on labelled ones too
(`RelationOps.labelled`): a label tells which object a relation is, and every operation makes a new one.
-/

namespace BoolCalculus

/-- Operations on binary relations of type `ρ`. -/
structure RelationOps (σ ρ : Type) where
  /-- Refuses what is no binary relation. -/
  require : ρ → Build σ Unit
  /-- The inverse, which swaps the coordinates. -/
  inv : ρ → Build σ ρ
  /-- The composition. -/
  circ : ρ → ρ → Build σ ρ
  /-- The union. -/
  join : ρ → ρ → Build σ ρ
  /-- Whether two relations are equal, as a truth value. -/
  same : ρ → ρ → Build σ Bool

/-- The operations on the binary relations of a universe. -/
def Universe.relationOps {σ α : Type} [Shown α] (U : Universe σ α) : RelationOps σ (Tensor α) where
  require R := U.requireBinary [R]
  inv := U.inv
  circ := U.circ
  join := U.join
  same := U.same

/-- A thing with the label of the object that it is. Two things with one label are one object. -/
structure Labelled (ρ : Type) where
  content : ρ
  label : Nat
  deriving Repr

/-- A state together with the number of the labels that were given out. -/
structure Counted (σ : Type) where
  state : σ
  labels : Nat

namespace Counted

variable {σ ρ β : Type}

/-- Runs a construction that makes no object. -/
def onState (act : Build σ β) : Build (Counted σ) β :=
  .onPart Counted.state (fun state s => { s with state }) act

/-- Gives out a label that no object has. -/
def label (content : ρ) : Build (Counted σ) (Labelled ρ) :=
  modifyGet fun s => (⟨content, s.labels⟩, { s with labels := s.labels + 1 })

/-- Runs a construction of a new object. -/
def fresh (act : Build σ ρ) : Build (Counted σ) (Labelled ρ) := do
  label (← onState act)

@[simp] theorem runFrom_onState (act : Build σ β) (s : Counted σ) :
    (onState act).runFrom s =
      ((act.runFrom s.state).1, { s with state := (act.runFrom s.state).2 }) := rfl

@[simp] theorem runFrom_label (content : ρ) (s : Counted σ) :
    (label content).runFrom s = (.ok ⟨content, s.labels⟩, { s with labels := s.labels + 1 }) := rfl

end Counted

/-- The operations on labelled relations. What they make is a new object, also where it has the content of
an operand. -/
def RelationOps.labelled {σ ρ : Type} (R : RelationOps σ ρ) : RelationOps (Counted σ) (Labelled ρ) where
  require a := Counted.onState (R.require a.content)
  inv a := Counted.fresh (R.inv a.content)
  circ a b := Counted.fresh (R.circ a.content b.content)
  join a b := Counted.fresh (R.join a.content b.content)
  same a b := Counted.onState (R.same a.content b.content)

end BoolCalculus
