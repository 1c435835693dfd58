import BoolCalculus.Proofs.Matrix.RelationAlgebra
import Mathlib.Logic.Equiv.Basic

/-!
# Renaming the points of matrices

A permutation of the points acts on matrices: what stood at two points stands at their images afterwards. The
operations on matrices commute with the action. That the composition does is where the order in which the
points are gone through does not matter.
-/

namespace BoolCalculus.Matrix

variable {α : Type} {n : Nat}

/-- The matrix with every point `x` renamed to `p x`. -/
def rename (p : Equiv.Perm (Fin n)) (M : Matrix n α) : Matrix n α :=
  fun x y => M (p.symm x) (p.symm y)

variable (p : Equiv.Perm (Fin n))

@[simp] theorem rename_image (M : Matrix n α) (x y : Fin n) : rename p M (p x) (p y) = M x y := by
  simp [rename]

theorem rename_injective : Function.Injective (rename p : Matrix n α → Matrix n α) := by
  intro M N same
  funext x y
  rw [← rename_image p M, ← rename_image p N, same]

theorem rename_transpose (M : Matrix n α) : rename p (transpose M) = transpose (rename p M) := rfl

theorem rename_const (a : α) : rename p (fun _ _ => a) = fun _ _ => a := rfl

variable [BooleanAlgebra α]

theorem rename_compl (M : Matrix n α) : rename p Mᶜ = (rename p M)ᶜ := rfl

theorem rename_inf (M N : Matrix n α) : rename p (M ⊓ N) = rename p M ⊓ rename p N := rfl

theorem rename_sup (M N : Matrix n α) : rename p (M ⊔ N) = rename p M ⊔ rename p N := rfl

theorem rename_le_iff {M N : Matrix n α} : rename p M ≤ rename p N ↔ M ≤ N := by
  constructor
  · intro below x y
    have image := below (p x) (p y)
    rwa [rename_image, rename_image] at image
  · intro below x y
    exact below (p.symm x) (p.symm y)

theorem rename_diag : rename p (diag : Matrix n α) = diag := by
  funext x y
  simp [rename, diag]

/-- The points between two points are renamed with them. -/
theorem rename_comp (M N : Matrix n α) : rename p (comp M N) = comp (rename p M) (rename p N) := by
  funext x z
  apply eq_of_forall_ge_iff
  intro b
  unfold rename
  rw [comp_le_iff, comp_le_iff]
  constructor
  · intro below y
    exact below (p.symm y)
  · intro below y
    have image := below (p y)
    rwa [Equiv.symm_apply_apply] at image

end BoolCalculus.Matrix
