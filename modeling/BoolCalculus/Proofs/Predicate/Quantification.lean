import BoolCalculus.Proofs.Matrix.Closure
import Mathlib.Data.Fin.Tuple.Basic

/-!
# Existential quantification of predicates

A predicate of arity `k` on `n` points has an element of a Boolean algebra for every `k` points. Moving a
predicate along a mapping of coordinates puts points in other places, and existential quantification joins
the elements over the first coordinate. Quantification is left adjoint to adding a first coordinate
(`exists_le_iff`), and every other law is proved from what lies above a disjunction.
-/

namespace BoolCalculus

/-- The predicates of arity `k` on `n` points. -/
abbrev Predicate (k n : Nat) (α : Type) : Type := (Fin k → Fin n) → α

namespace Predicate

variable {α : Type} {k l n : Nat}

/-- The predicate of arity `l` that holds of the points that a mapping picks. -/
def move (m : Fin k → Fin l) (P : Predicate k n α) : Predicate l n α := fun p =>
  P (p ∘ m)

/-- The mapping that leaves a new first coordinate alone. -/
def keep (m : Fin k → Fin l) : Fin (k + 1) → Fin (l + 1) :=
  Fin.cons 0 (Fin.succ ∘ m)

/-- The mapping that swaps the first two coordinates. -/
def swap : Fin (k + 2) → Fin (k + 2) :=
  Fin.cons 1 (Fin.cons 0 fun i => i.succ.succ)

theorem cons_comp_succ (x : Fin n) (p : Fin k → Fin n) :
    (Fin.cons x p : Fin (k + 1) → Fin n) ∘ Fin.succ = p := by
  funext i
  rw [Function.comp_apply, Fin.cons_succ]

theorem cons_comp_keep (x : Fin n) (p : Fin l → Fin n) (m : Fin k → Fin l) :
    (Fin.cons x p : Fin (l + 1) → Fin n) ∘ keep m = Fin.cons x (p ∘ m) := by
  funext i
  cases i using Fin.cases with
  | zero => simp [keep]
  | succ i => simp [keep]

theorem cons_cons_comp_swap (x y : Fin n) (p : Fin k → Fin n) :
    (Fin.cons x (Fin.cons y p : Fin (k + 1) → Fin n) : Fin (k + 2) → Fin n) ∘ swap =
      Fin.cons y (Fin.cons x p : Fin (k + 1) → Fin n) := by
  funext i
  cases i using Fin.cases with
  | zero => rfl
  | succ i => cases i using Fin.cases <;> rfl

variable [BooleanAlgebra α] {P P' : Predicate (k + 1) n α} {Q : Predicate k n α} {b : α}
variable {p : Fin k → Fin n}

/-- Whether some point in the first place makes a predicate hold. -/
def ex (P : Predicate (k + 1) n α) : Predicate k n α := fun p =>
  Fin.foldl n (fun acc x => acc ⊔ P (Fin.cons x p)) ⊥

/-- A projection is below a bound if all of its instances are. -/
theorem ex_apply_le_iff : ex P p ≤ b ↔ ∀ x, P (Fin.cons x p) ≤ b := by
  unfold ex
  rw [Matrix.foldl_sup_le_iff]
  exact and_iff_right bot_le

/-- Quantification is left adjoint to a new first coordinate. -/
theorem ex_le_iff : ex P ≤ Q ↔ P ≤ move Fin.succ Q := by
  constructor
  · intro below p
    have first : p = Fin.cons (p 0) (p ∘ Fin.succ) := (Fin.cons_self_tail p).symm
    rw [first]
    unfold move
    rw [cons_comp_succ]
    exact ex_apply_le_iff.1 (below (p ∘ Fin.succ)) (p 0)
  · intro below p
    rw [ex_apply_le_iff]
    intro x
    have cell := below (Fin.cons x p)
    unfold move at cell
    rwa [cons_comp_succ] at cell

/-- A predicate is below its own projection, taken back to its arity. -/
theorem le_move_ex : P ≤ move Fin.succ (ex P) :=
  ex_le_iff.1 le_rfl

/-- What does not depend on the first coordinate is not enlarged by projecting it away. -/
theorem ex_move_le : ex (move Fin.succ Q) ≤ Q :=
  ex_le_iff.2 le_rfl

/-- What does not depend on the first coordinate can be taken out of the quantifier. -/
theorem ex_inf : ex (P ⊓ move Fin.succ Q) = ex P ⊓ Q := by
  funext p
  refine eq_of_forall_ge_iff fun b => ?_
  calc ex (P ⊓ move Fin.succ Q) p ≤ b
      ↔ ∀ x, P (Fin.cons x p) ⊓ Q p ≤ b := by
        simp [ex_apply_le_iff, move]
    _ ↔ ∀ x, P (Fin.cons x p) ≤ Q p ⇨ b := by simp only [le_himp_iff]
    _ ↔ ex P p ≤ Q p ⇨ b := ex_apply_le_iff.symm
    _ ↔ (ex P ⊓ Q) p ≤ b := le_himp_iff

/-- Projections commute with joins. -/
theorem ex_sup : ex (P ⊔ P') = ex P ⊔ ex P' := by
  funext p
  refine eq_of_forall_ge_iff fun b => ?_
  calc ex (P ⊔ P') p ≤ b
      ↔ ∀ x, P (Fin.cons x p) ≤ b ∧ P' (Fin.cons x p) ≤ b := by
        simp [ex_apply_le_iff]
    _ ↔ ex P p ≤ b ∧ ex P' p ≤ b := by simp only [ex_apply_le_iff, forall_and]
    _ ↔ (ex P ⊔ ex P') p ≤ b := sup_le_iff.symm

/-- Quantification commutes with moving the other coordinates. -/
theorem ex_move_keep (m : Fin k → Fin l) (P : Predicate (k + 1) n α) :
    ex (move (keep m) P) = move m (ex P) := by
  funext p
  unfold ex move
  simp only [cons_comp_keep]

/-- Two quantifiers may be swapped. -/
theorem ex_ex_swap (Q : Predicate (k + 2) n α) : ex (ex (move swap Q)) = ex (ex Q) := by
  funext p
  refine eq_of_forall_ge_iff fun b => ?_
  simp only [ex_apply_le_iff, move, cons_cons_comp_swap]
  exact forall_comm

end Predicate

end BoolCalculus
