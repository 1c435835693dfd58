import BoolCalculus.Build

/-!
# Gate sets

A gate set is what a construction builds with: a lift of the two truth values, the three gates `not`,
`or` and `and`, and nine operations that have a derivation from these. Its elements are opaque: truth
values, handles of a circuit, arrays without axes. A gate may allocate in the state and may fail, so
the order in which a construction calls its gates can be observed.
-/

namespace BoolCalculus

/-! The derivations of operations from simpler ones, each with its order of calls. -/

namespace Derived

variable {σ α : Type}

/-- One of the two, but not both. -/
def xor (or and : α → α → Build σ α) (not : α → Build σ α) (a b : α) : Build σ α := do
  let either ← or a b
  let both ← and a b
  and either (← not both)

/-- Not exactly one of the two. -/
def equ (not : α → Build σ α) (xor : α → α → Build σ α) (a b : α) : Build σ α := do
  not (← xor a b)

/-- The second, or not the first. -/
def imp (or : α → α → Build σ α) (not : α → Build σ α) (a b : α) : Build σ α := do
  or (← not a) b

/-- The sum output of a full adder. -/
def ad3 (add : α → α → Build σ α) (a b c : α) : Build σ α := do
  add (← add a b) c

/-- The carry output of a full adder. -/
def maj (or and : α → α → Build σ α) (a b c : α) : Build σ α := do
  let ab ← and a b
  let ac ← and a c
  let bc ← and b c
  or (← or ab ac) bc

end Derived

/-- A gate set with state `σ` and elements `α`. Only the first four operations have to be given; each
of the others calls the operations of this gate set unless a cheaper one is given for it. -/
structure GateSet (σ α : Type) where
  /-- The element for a truth value. -/
  lift : Bool → Build σ α
  /-- Negation. -/
  not : α → Build σ α
  /-- Disjunction. -/
  or : α → α → Build σ α
  /-- Conjunction. -/
  and : α → α → Build σ α
  /-- Exclusive disjunction. -/
  xor : α → α → Build σ α := Derived.xor or and not
  /-- Equivalence. -/
  equ : α → α → Build σ α := Derived.equ not xor
  /-- Implication. -/
  imp : α → α → Build σ α := Derived.imp or not
  /-- Addition of single bits. -/
  add : α → α → Build σ α := xor
  /-- The order in which false is below true. -/
  leq : α → α → Build σ α := imp
  /-- The element for false. -/
  zero : Build σ α := lift false
  /-- The element for true. -/
  unit : Build σ α := lift true
  /-- The sum output of a full adder. -/
  ad3 : α → α → α → Build σ α := Derived.ad3 add
  /-- The carry output of a full adder. -/
  maj : α → α → α → Build σ α := Derived.maj or and

namespace GateSet

variable {σ τ α : Type}

/-- The gate set that derives everything from the four primitives. -/
def ofPrimitives (lift : Bool → Build σ α) (not : α → Build σ α) (or and : α → α → Build σ α) :
    GateSet σ α :=
  { lift, not, or, and }

/-- The operations with two operands. -/
inductive Binary where
  | or | and | xor | equ | imp | add | leq
  deriving DecidableEq, Repr

/-- The operations with three operands. -/
inductive Ternary where
  | ad3 | maj
  deriving DecidableEq, Repr

/-- The operation of a gate set by its name. -/
def binary (A : GateSet σ α) : Binary → α → α → Build σ α
  | .or => A.or
  | .and => A.and
  | .xor => A.xor
  | .equ => A.equ
  | .imp => A.imp
  | .add => A.add
  | .leq => A.leq

/-- The operation of a gate set by its name. -/
def ternary (A : GateSet σ α) : Ternary → α → α → α → Build σ α
  | .ad3 => A.ad3
  | .maj => A.maj

/-- A gate set on a larger type, into which `render` takes the elements. An operand that `read` does not
find among the elements is refused. -/
def through {β : Type} (read : β → Option α) (render : α → β) (A : GateSet σ α) : GateSet σ β :=
  let get (b : β) : Build σ α :=
    match read b with
    | some a => pure a
    | none => throw .noItem
  let unary (f : α → Build σ α) (b : β) : Build σ β := do
    pure (render (← f (← get b)))
  let binary (f : α → α → Build σ α) (b c : β) : Build σ β := do
    pure (render (← f (← get b) (← get c)))
  let ternary (f : α → α → α → Build σ α) (b c d : β) : Build σ β := do
    pure (render (← f (← get b) (← get c) (← get d)))
  { lift := fun b => render <$> A.lift b
    not := unary A.not
    or := binary A.or
    and := binary A.and
    xor := binary A.xor
    equ := binary A.equ
    imp := binary A.imp
    add := binary A.add
    leq := binary A.leq
    zero := render <$> A.zero
    unit := render <$> A.unit
    ad3 := ternary A.ad3
    maj := ternary A.maj }

/-- A gate set that works on a part of a larger state. -/
def onPart (read : σ → τ) (write : τ → σ → σ) (A : GateSet τ α) : GateSet σ α where
  lift b := .onPart read write (A.lift b)
  not a := .onPart read write (A.not a)
  or a b := .onPart read write (A.or a b)
  and a b := .onPart read write (A.and a b)
  xor a b := .onPart read write (A.xor a b)
  equ a b := .onPart read write (A.equ a b)
  imp a b := .onPart read write (A.imp a b)
  add a b := .onPart read write (A.add a b)
  leq a b := .onPart read write (A.leq a b)
  zero := .onPart read write A.zero
  unit := .onPart read write A.unit
  ad3 a b c := .onPart read write (A.ad3 a b c)
  maj a b c := .onPart read write (A.maj a b c)

end GateSet

end BoolCalculus
