import BoolCalculus.Domain

/-!
# Sets of points as masks

The Boolean algebra of the subsets of `n` points. A set is the integer whose bit `i` says whether
point `i` belongs to it, so the members are the integers from 0 to `2 ^ n - 1`.
-/

namespace BoolCalculus.Powerset

-- Powers of numbers are not taken in a monoid.
attribute [local instance (high)] instPowNat

/-- The mask that a value is read as; what is no mask counts as the empty set. -/
def mask (v : Value) : Nat :=
  (v.int?.getD 0).toNat

/-- Whether a value is a set of `n` points. -/
def contains (n : Nat) (v : Value) : Bool :=
  match v.int? with
  | some k => decide (0 ≤ k ∧ k < 2 ^ n)
  | none => false

variable {σ : Type}

/-- Acts on the masks of two values. -/
def onMasks (f : Nat → Nat → Nat) (a b : Value) : Build σ Value :=
  pure (.int (f (mask a) (mask b)))

/-- The subsets of `n` points. -/
def domain (n : Nat) : Domain σ Value where
  name := "SubsetAlg"
  predicates := .classical (contains n) (fun a b => a.same b)
    (fun a b => mask a &&& mask b == mask a)
  bot := pure (.int 0)
  top := pure (.int (2 ^ n - 1 : Nat))
  meet := onMasks (· &&& ·)
  join := onMasks (· ||| ·)
  compl a := pure (.int ((2 ^ n - 1) ^^^ mask a : Nat))

end BoolCalculus.Powerset
