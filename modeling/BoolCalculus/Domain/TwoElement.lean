import BoolCalculus.Domain

/-!
# The two-element algebra

The Boolean algebra of the truth values, which is also the field of two elements and a chain. Its
elements may be truth values themselves or plain values, of which just the truth values are members.
-/

namespace BoolCalculus

/-- Elements among which the two truth values are found. -/
class HasTruth (α : Type) extends Shown α where
  /-- The element for a truth value. -/
  ofTruth : Bool → α

instance : HasTruth Bool := ⟨id⟩

instance : HasTruth Value := ⟨.truth⟩

@[simp] theorem HasTruth.ofTruth_bool (b : Bool) : (HasTruth.ofTruth b : Bool) = b := rfl

namespace TwoElement

variable {σ α : Type} [HasTruth α]

/-- Acts on the truth values that two elements count as. -/
def onTruth (f : Bool → Bool → Bool) (a b : α) : Build σ α :=
  pure (HasTruth.ofTruth (f (Shown.isTrue a) (Shown.isTrue b)))

/-- The two-element Boolean algebra, with its own symmetric difference, implication and
equivalence. -/
def domain : Domain σ α where
  name := "TwoElementAlg"
  predicates := .classical
    (fun a => (Shown.truth? a).isSome)
    (fun a b => (Shown.value a).same (Shown.value b))
    (fun a b => !Shown.isTrue a || Shown.isTrue b)
  bot := pure (HasTruth.ofTruth false)
  top := pure (HasTruth.ofTruth true)
  meet := onTruth (· && ·)
  join := onTruth (· || ·)
  compl a := pure (HasTruth.ofTruth !Shown.isTrue a)
  imp := onTruth (!· || ·)
  equ := onTruth (· == ·)
  xor := onTruth (· != ·)

/-- The field of two elements: the sum is the symmetric difference, the product is the meet, and
every element is its own inverse both ways. -/
def field : FieldOps σ α where
  zero := pure (HasTruth.ofTruth false)
  neg a := pure a
  add := onTruth (· != ·)
  mul := onTruth (· && ·)
  unit := pure (HasTruth.ofTruth true)
  inv a := pure a

end TwoElement

namespace GateSet

variable {σ α : Type} [HasTruth α]

/-- The gate set of the two-element algebra. -/
def boolean (check : Bool) : GateSet σ α :=
  ofDomain TwoElement.domain check

/-- The gate set of the truth values that gives no more than the four primitives. -/
def minimal : GateSet σ α :=
  ofPrimitives (fun b => pure (HasTruth.ofTruth b)) (fun a => pure (HasTruth.ofTruth !Shown.isTrue a))
    (TwoElement.onTruth (· || ·)) (TwoElement.onTruth (· && ·))

end GateSet

end BoolCalculus
