import BoolCalculus.GateSet

/-!
# Embedded gate sets

A function embeds a gate set into another one if every gate of the second does on images what the gate of the first
does on the elements: the same outcome and the same state. Where both leave the arithmetic of single bits
to its derivations, it is enough to compare the other gates (`GateSet.Embeds.of_derives`).
-/

namespace BoolCalculus

variable {σ α β γ : Type}

/-- A construction of an image runs as the construction of the element does. -/
theorem Build.runFrom_map (f : β → γ) (act : Build σ β) (s : σ) :
    (f <$> act).runFrom s = (f <$> (act.runFrom s).1, (act.runFrom s).2) := by
  rw [map_eq_pure_bind, runFrom_bind]
  rcases act.runFrom s with ⟨_ | b, t⟩ <;> rfl

theorem Build.ofExcept_map (f : β → γ) (r : Except Fault β) :
    (ofExcept (f <$> r) : Build σ γ) = f <$> ofExcept r := by
  cases r <;> rfl

namespace GateSet

/-- Sums and the order of single bits, the constants and the full adder are derived from the other gates. -/
structure DerivesArithmetic (A : GateSet σ α) : Prop where
  add : A.add = A.xor
  leq : A.leq = A.imp
  zero : A.zero = A.lift false
  unit : A.unit = A.lift true
  ad3 : A.ad3 = Derived.ad3 A.add
  maj : A.maj = Derived.maj A.or A.and

/-- On images, every gate of the second gate set makes the image of what the gate of the first makes. -/
structure Embeds (f : α → β) (A : GateSet σ α) (A' : GateSet σ β) : Prop where
  lift : ∀ b, A'.lift b = f <$> A.lift b
  not : ∀ a, A'.not (f a) = f <$> A.not a
  binary : ∀ gate a b, A'.binary gate (f a) (f b) = f <$> A.binary gate a b
  zero : A'.zero = f <$> A.zero
  unit : A'.unit = f <$> A.unit
  ternary : ∀ gate a b c, A'.ternary gate (f a) (f b) (f c) = f <$> A.ternary gate a b c

/-- The gates that nothing is derived from are enough to embed a gate set into another one. -/
theorem Embeds.of_derives {f : α → β} {A : GateSet σ α} {A' : GateSet σ β} (derives : A.DerivesArithmetic)
    (derives' : A'.DerivesArithmetic) (lift : ∀ b, A'.lift b = f <$> A.lift b)
    (not : ∀ a, A'.not (f a) = f <$> A.not a) (or : ∀ a b, A'.or (f a) (f b) = f <$> A.or a b)
    (and : ∀ a b, A'.and (f a) (f b) = f <$> A.and a b)
    (xor : ∀ a b, A'.xor (f a) (f b) = f <$> A.xor a b)
    (equ : ∀ a b, A'.equ (f a) (f b) = f <$> A.equ a b)
    (imp : ∀ a b, A'.imp (f a) (f b) = f <$> A.imp a b) : A.Embeds f A' := by
  constructor
  case lift => exact lift
  case not => exact not
  case zero => rw [derives.zero, derives'.zero, lift]
  case unit => rw [derives.unit, derives'.unit, lift]
  case binary =>
    intro gate a b
    cases gate with
    | or => exact or a b
    | and => exact and a b
    | xor => exact xor a b
    | equ => exact equ a b
    | imp => exact imp a b
    | add =>
        show A'.add (f a) (f b) = f <$> A.add a b
        rw [derives.add, derives'.add, xor]
    | leq =>
        show A'.leq (f a) (f b) = f <$> A.leq a b
        rw [derives.leq, derives'.leq, imp]
  case ternary =>
    intro gate a b c
    cases gate with
    | ad3 =>
        show A'.ad3 (f a) (f b) (f c) = f <$> A.ad3 a b c
        rw [derives.ad3, derives'.ad3, derives.add, derives'.add]
        simp only [Derived.ad3, xor, map_bind, bind_map_left]
    | maj =>
        show A'.maj (f a) (f b) (f c) = f <$> A.maj a b c
        rw [derives.maj, derives'.maj]
        simp only [Derived.maj, or, and, map_bind, bind_map_left]

/-! ## The calls of a gate set -/

/-- A call of one of the gates that nothing else is derived from. -/
inductive Call (α : Type) where
  | lift (b : Bool)
  | not (a : α)
  | or (a b : α)
  | and (a b : α)
  | xor (a b : α)
  | equ (a b : α)
  | imp (a b : α)
  deriving DecidableEq, Repr

/-- Notes a call, and then makes it. -/
def note (call : Call α) (act : Build σ β) : Build (σ × List (Call α)) β := do
  modify fun s => (s.1, s.2 ++ [call])
  Build.onPart Prod.fst (fun t s => (t, s.2)) act

/-- The gate set that notes its calls in their order. -/
def logged (A : GateSet σ α) : GateSet (σ × List (Call α)) α where
  lift b := note (.lift b) (A.lift b)
  not a := note (.not a) (A.not a)
  or a b := note (.or a b) (A.or a b)
  and a b := note (.and a b) (A.and a b)
  xor a b := note (.xor a b) (A.xor a b)
  equ a b := note (.equ a b) (A.equ a b)
  imp a b := note (.imp a b) (A.imp a b)

theorem derivesArithmetic_logged (A : GateSet σ α) : A.logged.DerivesArithmetic :=
  ⟨rfl, rfl, rfl, rfl, rfl, rfl⟩

/-- A call that is noted has the outcome that it has anyway, also where it fails. -/
theorem runFrom_note (call : Call α) (act : Build σ β) (s : σ) (calls : List (Call α)) :
    (note call act).runFrom (s, calls) =
      ((act.runFrom s).1, ((act.runFrom s).2, calls ++ [call])) := rfl

end GateSet

end BoolCalculus
