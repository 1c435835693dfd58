import BoolCalculus.GateSet
import BoolCalculus.Tensor.Reindex

/-!
# Tensor operations

What a construction of tensors calls: the lift of a truth-valued function on coordinates, the
pointwise gates, the reindexing, and the two quantifications over the first axis. Two things offer
them: dense tensors of truth values (`TensorOps.dense`) and tensors of elements of any gate set
(`TensorOps.lifted`).
-/

namespace BoolCalculus

/-- Operations on tensors with cells of type `α`. The operations with a derivation call the operations
of this structure unless another way is given for them. -/
structure TensorOps (σ α : Type) where
  /-- The tensor of the lifted values of a function. -/
  create : Shape → (List Nat → Bool) → Build σ (Tensor α)
  /-- Pointwise negation. -/
  not : Tensor α → Build σ (Tensor α)
  /-- Pointwise disjunction of tensors of one shape. -/
  or : Tensor α → Tensor α → Build σ (Tensor α)
  /-- Pointwise conjunction of tensors of one shape. -/
  and : Tensor α → Tensor α → Build σ (Tensor α)
  /-- Pointwise exclusive disjunction. -/
  xor : Tensor α → Tensor α → Build σ (Tensor α) := Derived.xor or and not
  /-- Pointwise equivalence. -/
  equ : Tensor α → Tensor α → Build σ (Tensor α) := Derived.equ not xor
  /-- Pointwise implication. -/
  imp : Tensor α → Tensor α → Build σ (Tensor α) := Derived.imp or not
  /-- Reindexing into a shape along a mapping. -/
  reindex : Tensor α → Shape → List Int → Build σ (Tensor α)
  /-- Whether some cell along the first axis is true. -/
  any : Tensor α → Build σ (Tensor α)
  /-- Whether all cells along the first axis are true. -/
  all : Tensor α → Build σ (Tensor α) := fun T => do not (← any (← not T))

end BoolCalculus
