import BoolCalculus.Proofs.Tensor.Axes
import BoolCalculus.Proofs.Universe.Matrices
import BoolCalculus.Universe.Closure

/-!
# The axes of relations

Over tensor operations that obey shapes, the operations of a universe make relations from relations: no check inside
an operation refuses what the operation itself accepted.
-/

namespace BoolCalculus

/-- A mapping of two axes into a shape that has both places fits. -/
theorem Tensor.misfit?_square {α : Type} {R : Tensor α} {n rank a b : Nat} (hR : R.axes = [n, n])
    (ha : a < rank) (hb : b < rank) :
    (Shape.rectangular rank n).misfit? R.shape [(a : Int), (b : Int)] = none := by
  simp [Shape.misfit?, Shape.axisMisfit?, Tensor.shape, Shape.ofAxes, Shape.rank, Shape.rectangular,
    hR, ha, hb]

namespace TensorOps

variable {σ α : Type} {E : Fault → Prop} {allowed : Shape → Prop} {O : TensorOps σ α} {n : Nat}
variable {R S T : Tensor α}

theorem KeepsAxes.square {f : Tensor α → Tensor α → Build σ (Tensor α)} (keeps : KeepsAxes E f)
    (hR : R.axes = [n, n]) (hS : S.axes = [n, n]) : (f R S).Makes E (·.axes = [n, n]) :=
  (keeps (hR.trans hS.symm)).weaken fun _ same => same.trans hR

namespace ObeysShapes

variable (obeys : O.ObeysShapes E allowed)

include obeys

/-- All axes can be quantified over, one after the other. -/
theorem allAxes {k : Nat} (length : T.axes.length = k) :
    ((Universe.mk O n).allAxes k T).Makes E (·.axes = []) := by
  induction k generalizing T with
  | zero => exact .pure (List.length_eq_zero_iff.1 length)
  | succ k ih =>
      obtain ⟨m, ms, axes⟩ := List.exists_cons_of_length_eq_add_one length
      refine (obeys.all axes).bind fun rest shorter => ih ?_
      simpa [shorter, axes] using length

theorem forAll (T : Tensor α) : ((Universe.mk O n).forAll T).Makes E (·.axes = []) :=
  obeys.allAxes rfl

variable (hR : R.axes = [n, n]) (hS : S.axes = [n, n])

section

include hR

theorem comp : ((Universe.mk O n).comp R).Makes E (·.axes = [n, n]) := by
  rw [Universe.comp, Universe.requireBinary_ok _ (by simp [hR]), pure_bind]
  exact (obeys.not R).weaken fun _ same => same.trans hR

/-- A relation that is moved to other coordinates has an axis for each of them. -/
theorem moved {rank a b : Nat} (target : allowed (.rectangular rank n)) (ha : a < rank) (hb : b < rank) :
    (O.reindex R (.rectangular rank n) [(a : Int), (b : Int)]).Makes E
      (·.axes = List.replicate rank n) :=
  obeys.reindex target (Tensor.misfit?_square hR ha hb) (Tensor.axes?_rectangular rank)

theorem inv (square : allowed (.rectangular 2 n)) :
    ((Universe.mk O n).inv R).Makes E (·.axes = [n, n]) := by
  rw [Universe.inv, Universe.requireBinary_ok _ (by simp [hR]), pure_bind]
  exact obeys.moved (a := 1) (b := 0) hR square (by decide) (by decide)

include hS

theorem meet : ((Universe.mk O n).meet R S).Makes E (·.axes = [n, n]) := by
  rw [Universe.meet, Universe.requireBinary_ok _ (by simp [hR, hS]), pure_bind]
  exact obeys.and.square hR hS

theorem join : ((Universe.mk O n).join R S).Makes E (·.axes = [n, n]) := by
  rw [Universe.join, Universe.requireBinary_ok _ (by simp [hR, hS]), pure_bind]
  exact obeys.or.square hR hS

theorem equals : ((Universe.mk O n).equals R S).Makes E (·.axes = []) := by
  rw [Universe.equals, Universe.requireBinary_ok _ (by simp [hR, hS]), pure_bind]
  exact (obeys.equ.square hR hS).bind fun T _ => obeys.forAll T

theorem leq : ((Universe.mk O n).leq R S).Makes E (·.axes = []) := by
  rw [Universe.leq, Universe.requireBinary_ok _ (by simp [hR, hS]), pure_bind]
  exact (obeys.imp.square hR hS).bind fun T _ => obeys.forAll T

/-- Both relations fit into the cube, where they have one shape, and the cube has an axis to quantify over. -/
theorem circ (cube : allowed (.rectangular 3 n)) :
    ((Universe.mk O n).circ R S).Makes E (·.axes = [n, n]) := by
  rw [Universe.circ, Universe.requireBinary_ok _ (by simp [hR, hS]), pure_bind]
  refine (obeys.moved (a := 1) (b := 0) hR cube (by decide) (by decide)).bind fun left axes => ?_
  refine (obeys.moved (a := 0) (b := 2) hS cube (by decide) (by decide)).bind fun right axes' => ?_
  refine (obeys.and (axes.trans axes'.symm)).bind fun both same => ?_
  exact obeys.any (same.trans axes)

end

theorem square (cube : allowed (.rectangular 3 n)) (k : Nat) {R : Tensor α} (hR : R.axes = [n, n]) :
    ((Universe.mk O n).square k R).Makes E (·.axes = [n, n]) := by
  induction k generalizing R with
  | zero => exact .pure hR
  | succ k ih =>
      apply (obeys.circ hR hR cube).bind
      intro twice axes
      apply (obeys.join hR axes).bind
      intro both axes
      exact ih axes

end ObeysShapes

end TensorOps

end BoolCalculus
