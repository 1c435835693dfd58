import BoolCalculus.Universe.Relation
import BoolCalculus.Universe.Closure

/-!
# Requirements on operands

The operands that a universe accepts: tensors without axes for scalars, and tensors with two axes of the
size of the universe for binary relations. What a requirement answers depends on shapes alone.
-/

namespace BoolCalculus.Universe

variable {σ α : Type} (U : Universe σ α)

/-- Operands that are all accepted are not refused. -/
theorem forM_require_ok {accepted : Tensor α → Bool} {kind : OperandKind} {rank : Tensor α → Nat}
    {operands : List (Tensor α)} (h : ∀ T ∈ operands, accepted T) :
    (operands.forM fun T => U.require (accepted T) kind (rank T) T) = pure () := by
  induction operands with
  | nil => rfl
  | cons T operands ih =>
      have here := h T List.mem_cons_self
      rw [List.forM, require, if_pos here, pure_bind]
      exact ih fun S hS => h S (List.mem_cons_of_mem T hS)

theorem isScalar_iff {T : Tensor α} : U.isScalar T ↔ T.axes = [] := by
  simp [isScalar, Tensor.shape]

theorem isRelation_iff {T : Tensor α} :
    U.isRelation T ↔ T.axes = List.replicate T.axes.length U.size := by
  rw [List.eq_replicate_iff]
  simp only [isRelation, Shape.isRectangular, Tensor.shape, Shape.ofAxes, List.all_map, List.all_eq_true,
    Function.comp_apply, Int.ofNat_eq_natCast, beq_iff_eq, Int.ofNat_inj, true_and]

theorem isBinaryRelation_iff {T : Tensor α} : U.isBinaryRelation T ↔ T.axes = [U.size, U.size] := by
  rw [isBinaryRelation, Bool.and_eq_true, beq_iff_eq, Tensor.shape, Shape.rank_ofAxes, isRelation_iff]
  constructor
  · intro holds
    rcases holds with ⟨two, same⟩
    rwa [two] at same
  · intro binary
    simp [binary]

theorem requireScalars_ok {operands : List (Tensor α)} (h : ∀ T ∈ operands, T.axes = []) :
    U.requireScalars operands = pure () :=
  U.forM_require_ok fun T hT => U.isScalar_iff.2 (h T hT)

theorem requireBinary_ok {operands : List (Tensor α)}
    (h : ∀ T ∈ operands, T.axes = [U.size, U.size]) : U.requireBinary operands = pure () :=
  U.forM_require_ok fun T hT => U.isBinaryRelation_iff.2 (h T hT)

/-- What is no binary relation is refused with the shape that is required. -/
theorem runFrom_requireBinary (T : Tensor α) (s : σ) :
    (U.requireBinary [T]).runFrom s = (if T.axes = [U.size, U.size] then .ok () else
      .error (.shapeMismatch (.operand .binaryRelation U.size (U.newShape 2) T.shape)), s) := by
  by_cases binary : T.axes = [U.size, U.size]
  · rw [if_pos binary, U.requireBinary_ok (by simp [binary])]
    rfl
  · have refused : ¬U.isBinaryRelation T := by rwa [isBinaryRelation_iff]
    show (U.require _ .binaryRelation 2 T >>= fun _ => pure ()).runFrom s = _
    rw [if_neg binary, require, if_neg refused]
    rfl

end BoolCalculus.Universe
