import BoolCalculus.GateSet

/-!
# Domains

A domain is a Boolean algebra of elements together with its predicates. The predicates of a classical
domain are decided by truth values; those of another domain give elements of the domain itself. A
gate set over a domain can check that its operands are members (`GateSet.ofDomain`).
-/

namespace BoolCalculus

namespace Derived

variable {σ α : Type}

/-- Implication both ways. -/
def bothWays (meet imp : α → α → Build σ α) (a b : α) : Build σ α := do
  let there ← imp a b
  let back ← imp b a
  meet there back

end Derived

/-- The predicates of a domain: membership, equality and the order. -/
inductive Predicates (σ α : Type) where
  /-- Predicates that are decided. -/
  | classical (contains : α → Bool) (equals edge : α → α → Bool)
  /-- Predicates whose values are elements of the domain. -/
  | internal (contains : α → Build σ α) (equals edge : α → α → Build σ α)

/-- A Boolean algebra with predicates. Implication, equivalence and symmetric difference have
derivations from the lattice operations and the complement. -/
structure Domain (σ α : Type) where
  /-- The name by which messages call the domain. -/
  name : String
  /-- Membership, equality and order. -/
  predicates : Predicates σ α
  /-- The least element. -/
  bot : Build σ α
  /-- The largest element. -/
  top : Build σ α
  /-- The greatest lower bound. -/
  meet : α → α → Build σ α
  /-- The least upper bound. -/
  join : α → α → Build σ α
  /-- The complement. -/
  compl : α → Build σ α
  /-- Relative complement. -/
  imp : α → α → Build σ α := Derived.imp join compl
  /-- Equivalence. -/
  equ : α → α → Build σ α := Derived.bothWays meet imp
  /-- Symmetric difference. -/
  xor : α → α → Build σ α := Derived.equ compl equ

/-- The operations of a field. Difference and quotient have derivations. -/
structure FieldOps (σ α : Type) where
  /-- The neutral element of the sum. -/
  zero : Build σ α
  /-- The additive inverse. -/
  neg : α → Build σ α
  /-- The sum. -/
  add : α → α → Build σ α
  /-- The product. -/
  mul : α → α → Build σ α
  /-- The neutral element of the product. -/
  unit : Build σ α
  /-- The multiplicative inverse. -/
  inv : α → Build σ α
  /-- The difference. -/
  sub : α → α → Build σ α := fun a b => do add a (← neg b)
  /-- The quotient. -/
  div : α → α → Build σ α := fun a b => do mul a (← inv b)

namespace Domain

variable {σ α : Type} [Shown α]

/-- Refuses an element that a classical domain does not contain. In another domain membership is not
decided, and every element passes. -/
def checkMember (D : Domain σ α) (a : α) : Build σ α :=
  match D.predicates with
  | .classical contains _ _ =>
    if contains a then pure a else throw (.foreign D.name (Shown.value a))
  | .internal _ _ _ => pure a

/-- Checks operands in their order, if checking is asked for. -/
def guard (D : Domain σ α) (check : Bool) (operands : List α) : Build σ Unit :=
  if check then operands.forM fun a => discard (D.checkMember a) else pure ()

end Domain

/-- The gate set of a domain. With `check` every gate first checks that its operands are members. -/
def GateSet.ofDomain {σ α : Type} [Shown α] (D : Domain σ α) (check : Bool) : GateSet σ α where
  lift b := if b then D.top else D.bot
  not a := do
    D.guard check [a]
    D.compl a
  or a b := do
    D.guard check [a, b]
    D.join a b
  and a b := do
    D.guard check [a, b]
    D.meet a b
  xor a b := do
    D.guard check [a, b]
    D.xor a b
  equ a b := do
    D.guard check [a, b]
    D.equ a b
  imp a b := do
    D.guard check [a, b]
    D.imp a b

end BoolCalculus
