import BoolCalculus.Proofs.Matrix.Closure

/-!
# The relation algebra of matrices

Matrices over a Boolean algebra are one cell by cell. Their composition is a monoid with the diagonal for its
unit and keeps unions, the transpose reverses it, and composition with a matrix has the composition with its transpose
for its conjugate (`Matrix.comp_le_iff_conjugate`).
-/

namespace BoolCalculus.Matrix

variable {α : Type} {n : Nat}

/-- The matrix with rows for columns. -/
def transpose (M : Matrix n α) : Matrix n α := fun x y => M y x

variable [BooleanAlgebra α] {K L M N : Matrix n α} {x z : Fin n} {b : α}

/-! ## The monoid -/

theorem comp_comp_le_iff :
    comp (comp M N) L x z ≤ b ↔ ∀ v w, M x v ⊓ N v w ⊓ L w z ≤ b := by
  simp only [comp_le_iff, ← le_himp_iff]
  exact forall_comm

theorem comp_le_iff_comp :
    comp M (comp N L) x z ≤ b ↔ ∀ v w, M x v ⊓ N v w ⊓ L w z ≤ b := by
  have residue : ∀ v, M x v ⊓ comp N L v z ≤ b ↔ ∀ w, M x v ⊓ N v w ⊓ L w z ≤ b := by
    intro v
    rw [inf_comm, ← le_himp_iff, comp_le_iff]
    exact forall_congr' fun w => by rw [le_himp_iff, inf_comm, inf_assoc]
  simp only [comp_le_iff, residue]

theorem comp_assoc (M N L : Matrix n α) : comp (comp M N) L = comp M (comp N L) := by
  funext x z
  refine eq_of_forall_ge_iff fun b => ?_
  rw [comp_comp_le_iff, comp_le_iff_comp]

theorem diag_inf_le_iff {y : Fin n} {a : α} : diag x y ⊓ a ≤ b ↔ x = y → a ≤ b := by
  rw [diag]
  split
  · rename_i same
    simp [same]
  · rename_i distinct
    simp [distinct]

theorem diag_comp (M : Matrix n α) : comp diag M = M := by
  funext x z
  refine eq_of_forall_ge_iff fun b => ?_
  simp only [comp_le_iff, diag_inf_le_iff]
  exact forall_eq'

theorem sup_comp (M N L : Matrix n α) : comp (M ⊔ N) L = comp M L ⊔ comp N L := by
  funext x z
  refine eq_of_forall_ge_iff fun b => ?_
  simp only [Pi.sup_apply, sup_le_iff, comp_le_iff, inf_sup_right, forall_and]

/-! ## The transpose -/

theorem transpose_comp (M N : Matrix n α) :
    transpose (comp M N) = comp (transpose N) (transpose M) := by
  funext x z
  refine eq_of_forall_ge_iff fun b => ?_
  simp only [transpose, comp_le_iff, inf_comm]

theorem transpose_diag : transpose (diag : Matrix n α) = diag := by
  funext x y
  simp only [transpose, diag, eq_comm]

theorem comp_diag (M : Matrix n α) : comp M diag = M := by
  have reversed := congrArg transpose (diag_comp (transpose M))
  rwa [transpose_comp, transpose_diag] at reversed

/-! ## Conjugates -/

theorem comp_le_iff_forall : comp M N ≤ L ↔ ∀ x y z, M x y ⊓ N y z ≤ L x z := by
  simp only [Pi.le_def, comp_le_iff]
  exact forall_congr' fun x => forall_comm

/-- What a composition stays below is known from the composition of the transpose with the complements. -/
theorem comp_le_iff_conjugate : comp M N ≤ L ↔ comp (transpose M) Lᶜ ≤ Nᶜ := by
  have cell : ∀ a b c : α, a ⊓ b ≤ c ↔ a ⊓ cᶜ ≤ bᶜ := by
    intro a b c
    rw [← disjoint_compl_right_iff, ← disjoint_compl_right_iff, compl_compl, disjoint_iff,
      disjoint_iff, inf_right_comm]
  rw [comp_le_iff_forall, comp_le_iff_forall]
  constructor
  · intro below y x z
    exact (cell _ _ _).1 (below x y z)
  · intro below x y z
    exact (cell _ _ _).2 (below y x z)

theorem comp_compl_le (M N : Matrix n α) : comp (transpose M) (comp M N)ᶜ ≤ Nᶜ :=
  comp_le_iff_conjugate.1 le_rfl

theorem comp_inf_eq_bot_iff : comp M N ⊓ L = ⊥ ↔ comp (transpose M) L ⊓ N = ⊥ := by
  simp only [← disjoint_iff, ← le_compl_iff_disjoint_right]
  rw [comp_le_iff_conjugate, compl_compl]

end BoolCalculus.Matrix
