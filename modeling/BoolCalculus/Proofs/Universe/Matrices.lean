import BoolCalculus.Proofs.Matrix.Closure
import BoolCalculus.Proofs.Tensor.Reading
import BoolCalculus.Proofs.Universe.Requirements

/-!
# Binary relations as matrices

The binary relations of a universe of size `n` are the tensors of matrices on `n` points, and the operations on
binary relations are read as operations on matrices.
-/

namespace BoolCalculus

open scoped symmDiff

namespace Tensor

variable {α : Type} {n : Nat}

/-- The entry of a matrix at a coordinate of the square. -/
def entry (M : Matrix n α) (coord : List Nat) (h : Axes.InBounds [n, n] coord) : α :=
  M ⟨coord[0]?.getD 0, Axes.lt_of_inBounds h rfl⟩ ⟨coord[1]?.getD 0, Axes.lt_of_inBounds h rfl⟩

/-- The tensor of a matrix. -/
def ofMatrix (M : Matrix n α) : Tensor α :=
  ofFn [n, n] (entry M)

theorem inBounds_points (x y : Fin n) : Axes.InBounds [n, n] [x.val, y.val] :=
  ⟨x.isLt, y.isLt, trivial⟩

/-- The matrix of a tensor with two axes of one size. -/
def toMatrix (T : Tensor α) (h : T.axes = [n, n]) : Matrix n α := fun x y =>
  T.get [x.val, y.val] (h ▸ inBounds_points x y)

@[simp] theorem axes_ofMatrix (M : Matrix n α) : (ofMatrix M).axes = [n, n] := rfl

theorem get_ofMatrix (M : Matrix n α) (x y : Fin n) :
    (ofMatrix M).get [x.val, y.val] (inBounds_points x y) = M x y :=
  get_ofFn [n, n] (entry M) (inBounds_points x y)

/-- A tensor has one matrix. -/
theorem ofMatrix_injective : Function.Injective (ofMatrix : Matrix n α → Tensor α) := by
  intro M N same
  funext x y
  rw [← get_ofMatrix M, ← get_ofMatrix N]
  simp only [same]

/-- A coordinate of a square is a pair of points. -/
theorem exists_points {c : List Nat} (h : Axes.InBounds [n, n] c) :
    ∃ x y : Fin n, c = [x.val, y.val] := by
  match c, h with
  | [x, y], ⟨hx, hy, _⟩ => exact ⟨⟨x, hx⟩, ⟨y, hy⟩, rfl⟩

theorem ofMatrix_toMatrix {T : Tensor α} (h : T.axes = [n, n]) : ofMatrix (T.toMatrix h) = T :=
  ext_get h.symm fun c hc hT => by
    obtain ⟨x, y, rfl⟩ := exists_points hc
    exact get_ofMatrix (T.toMatrix h) x y

/-- Every tensor with the axes of the universe is that of a matrix. -/
theorem exists_ofMatrix {T : Tensor α} (h : T.axes = [n, n]) : ∃ M : Matrix n α, T = ofMatrix M :=
  ⟨T.toMatrix h, (ofMatrix_toMatrix h).symm⟩

theorem zip?_ofMatrix (f : α → α → α) (M N : Matrix n α) :
    (ofMatrix M).zip? f (ofMatrix N) = .ok (ofMatrix fun x y => f (M x y) (N x y)) :=
  (zip?_of_eq f (T := ofMatrix M) (U := ofMatrix N) rfl).trans
    (congrArg Except.ok (zip_ofFn f [n, n] (entry M) (entry N)))

theorem map_ofMatrix (f : α → α) (M : Matrix n α) :
    (ofMatrix M).map f = ofMatrix fun x y => f (M x y) :=
  map_ofFn f [n, n] (entry M)

theorem axes?_rectangular (rank : Nat) :
    (Shape.rectangular rank n).axes? = some (List.replicate rank n) := by
  simp [Shape.rectangular, Shape.axes?]

theorem isSome_axes?_rectangular (rank n : Nat) : (Shape.rectangular rank n).axes?.isSome := by
  rw [axes?_rectangular]
  rfl

theorem create?_square (f : List Nat → α) :
    create? (.rectangular 2 n) f = .ok (ofMatrix fun x y : Fin n => f [x.val, y.val]) := by
  have size : (Shape.rectangular 2 n).axes? = some [n, n] := axes?_rectangular 2
  rw [create?, size]
  refine congrArg Except.ok (congrArg (ofFn [n, n]) (funext fun c => funext fun hc => ?_))
  obtain ⟨x, y, rfl⟩ := exists_points hc
  rfl

/-- A matrix moved along a mapping into a shape of axes of the same size. -/
theorem reindex?_ofMatrix (M : Matrix n α) (rank : Nat) {a b : Nat} (ha : a < rank)
    (hb : b < rank) :
    ∃ fits, (ofMatrix M).reindex? (.rectangular rank n) [a, b] =
      .ok (ofFn (List.replicate rank n) fun c hc =>
        entry M (Axes.pick c [a, b]) (Axes.inBounds_pick fits hc)) := by
  have fits : (Shape.rectangular rank n).misfit? (ofMatrix M).shape [(a : Int), (b : Int)] = none := by
    simp [Shape.misfit?, Shape.axisMisfit?, Tensor.shape, ofMatrix, Shape.ofAxes, Shape.rank,
      Shape.rectangular, ha, hb]
  obtain ⟨found, moved⟩ := reindex?_fits fits (axes?_rectangular rank)
  exact ⟨found, moved.trans (congrArg Except.ok (reindex_ofFn (entry M) found))⟩

/-- Swapping the axes transposes a matrix. -/
theorem reindex?_swap (M : Matrix n α) :
    (ofMatrix M).reindex? (.rectangular 2 n) [1, 0] = .ok (ofMatrix fun x y => M y x) := by
  obtain ⟨_, moved⟩ := reindex?_ofMatrix M 2 (a := 1) (b := 0) (by decide) (by decide)
  exact moved

variable [BooleanAlgebra α]

/-- The conjunction over the shared point, which comes first, is the composition. -/
theorem compose_ofMatrix (M N : Matrix n α) :
    ((ofMatrix M).reindex? (.rectangular 3 n) [1, 0] >>= fun left =>
      (ofMatrix N).reindex? (.rectangular 3 n) [0, 2] >>= fun right =>
        left.zip? (· ⊓ ·) right >>= fun both => both.foldFirst (· ⊔ ·) ⊥) =
      .ok (ofMatrix (Matrix.comp M N)) := by
  obtain ⟨left, movedM⟩ := reindex?_ofMatrix M 3 (a := 1) (b := 0) (by decide) (by decide)
  obtain ⟨right, movedN⟩ := reindex?_ofMatrix N 3 (a := 0) (b := 2) (by decide) (by decide)
  have movedM : (ofMatrix M).reindex? (.rectangular 3 n) [1, 0] = .ok _ := movedM
  have movedN : (ofMatrix N).reindex? (.rectangular 3 n) [0, 2] = .ok _ := movedN
  rw [movedM, movedN]
  show ((ofFn _ _).zip? (· ⊓ ·) (ofFn _ _) >>= fun both => both.foldFirst (· ⊔ ·) ⊥) = _
  rw [zip?_of_eq _ (by rfl), zip_ofFn]
  exact foldFirst_ofFn _ _ _

/-- The conjunction over both axes is that of all entries. -/
theorem foldFirst_twice (M : Matrix n α) :
    ((ofMatrix M).foldFirst (· ⊓ ·) ⊤ >>= fun T => T.foldFirst (· ⊓ ·) ⊤) = .ok (scalar M.all) := by
  rw [ofMatrix, foldFirst_ofFn, ← Matrix.foldl_foldl_inf]
  refine (foldFirst_ofFn (· ⊓ ·) ⊤ _).trans (congrArg Except.ok ?_)
  exact eq_scalar (T := ofFn [] _) rfl

end Tensor

namespace Valuation

variable {σ α B : Type} {V : Valuation σ α B} {O : TensorOps σ α} {n : Nat} {s : σ}
variable {R S : Tensor α} {M N : Matrix n B}

variable (V) in
/-- In a state, a tensor is there and is read as a matrix. -/
abbrev IsMatrix (s : σ) (R : Tensor α) (M : Matrix n B) : Prop :=
  V.IsTensor s R (.ofMatrix M)

theorem Runs.ofMatrix {act : Build σ (Tensor α)}
    (run : V.Runs V.IsTensor s act (.ok (.ofMatrix M))) : V.Runs V.IsMatrix s act (.ok M) :=
  run.relate id

/-- Every matrix is that of its tensor, where elements are read as they are. -/
theorem isMatrix_ofMatrix {s : σ} (M : Matrix n B) : (ofFn id).IsMatrix s (.ofMatrix M) M :=
  (isTensor_iff_eq fun _ _ => ⟨trivial, rfl⟩).2 rfl

/-- What is read as itself runs to the tensor of the matrix. -/
theorem Runs.runFrom_matrix {s : σ} {act : Build σ (Tensor B)} {M : Matrix n B}
    (h : (ofFn id : Valuation σ B B).Runs (ofFn id).IsMatrix s act (.ok M)) :
    ∃ t, act.runFrom s = (.ok (.ofMatrix M), t) := by
  cases h with
  | ok run later is =>
      obtain rfl := (isTensor_iff_eq fun _ _ => ⟨trivial, rfl⟩).1 is
      exact ⟨_, run⟩

theorem requireBinary_one (hR : V.IsMatrix s R M) :
    (Universe.mk O n).requireBinary [R] = pure () :=
  Universe.requireBinary_ok _ (by simp [← hR.axes_eq])

theorem requireBinary_two (hR : V.IsMatrix s R M) (hS : V.IsMatrix s S N) :
    (Universe.mk O n).requireBinary [R, S] = pure () :=
  Universe.requireBinary_ok _ (by simp [← hR.axes_eq, ← hS.axes_eq])

namespace Reads

variable [BooleanAlgebra B] {allowed : Shape → Prop} (reads : V.Reads allowed O)

include reads

theorem runs_binLift (square : allowed (.rectangular 2 n)) (b : Bool) :
    V.Runs V.IsMatrix s ((Universe.mk O n).binLift b)
      (.ok fun _ _ : Fin n => if b then ⊤ else ⊥) := by
  have created := reads.create (s := s) (fun _ => b) square
  rw [Tensor.create?_square] at created
  exact .ofMatrix created

theorem runs_empty (square : allowed (.rectangular 2 n)) :
    V.Runs V.IsMatrix s (Universe.mk O n).empty (.ok (⊥ : Matrix n B)) :=
  reads.runs_binLift square false

theorem runs_total (square : allowed (.rectangular 2 n)) :
    V.Runs V.IsMatrix s (Universe.mk O n).total (.ok (⊤ : Matrix n B)) :=
  reads.runs_binLift square true

/-- The complement of a relation is that of its matrix, and likewise for meet and join. -/
theorem runs_comp (hR : V.IsMatrix s R M) :
    V.Runs V.IsMatrix s ((Universe.mk O n).comp R) (.ok Mᶜ) := by
  have complement := reads.not hR
  rw [Tensor.map_ofMatrix] at complement
  rw [Universe.comp, requireBinary_one hR, pure_bind]
  exact .ofMatrix complement

theorem runs_meet (hR : V.IsMatrix s R M) (hS : V.IsMatrix s S N) :
    V.Runs V.IsMatrix s ((Universe.mk O n).meet R S) (.ok (M ⊓ N)) := by
  have both := reads.and hR hS
  rw [Tensor.zip?_ofMatrix] at both
  rw [Universe.meet, requireBinary_two hR hS, pure_bind]
  exact .ofMatrix both

theorem runs_join (hR : V.IsMatrix s R M) (hS : V.IsMatrix s S N) :
    V.Runs V.IsMatrix s ((Universe.mk O n).join R S) (.ok (M ⊔ N)) := by
  have joined := reads.or hR hS
  rw [Tensor.zip?_ofMatrix] at joined
  rw [Universe.join, requireBinary_two hR hS, pure_bind]
  exact .ofMatrix joined

theorem runs_inv (square : allowed (.rectangular 2 n)) (hR : V.IsMatrix s R M) :
    V.Runs V.IsMatrix s ((Universe.mk O n).inv R) (.ok fun x y => M y x) := by
  have moved := reads.reindex [1, 0] square hR
  rw [Tensor.reindex?_swap] at moved
  rw [Universe.inv, requireBinary_one hR, pure_bind]
  exact .ofMatrix moved

/-- The composition is read as the product of the matrices, by way of their cube. -/
theorem runs_circ (cube : allowed (.rectangular 3 n)) (hR : V.IsMatrix s R M)
    (hS : V.IsMatrix s S N) :
    V.Runs V.IsMatrix s ((Universe.mk O n).circ R S) (.ok (Matrix.comp M N)) := by
  have composed := (reads.reindex [1, 0] cube hR).bind fun first left =>
    (reads.reindex [0, 2] cube (hS.later first)).bind fun second right =>
      (reads.and (left.later second) right).bind fun _ both => reads.any both
  rw [Tensor.compose_ofMatrix] at composed
  rw [Universe.circ, requireBinary_two hR hS, pure_bind]
  exact .ofMatrix composed

/-- The diagonal is read as the unit of the product. -/
theorem runs_diag (square : allowed (.rectangular 2 n)) :
    V.Runs V.IsMatrix s (Universe.mk O n).diag (.ok (Matrix.diag : Matrix n B)) := by
  have created := reads.create (s := s) (fun coord => coord[0]? == coord[1]?) square
  rw [Tensor.create?_square] at created
  have diagonal : (fun x y : Fin n => if [x.val, y.val][0]? == [x.val, y.val][1]? then ⊤ else ⊥) =
      (Matrix.diag : Matrix n B) := by
    funext x y
    simp [Matrix.diag, Fin.val_inj]
  rw [diagonal] at created
  exact .ofMatrix created

/-- Quantifying over all cells makes the meet of the entries. -/
theorem runs_forAll (hR : V.IsMatrix s R M) :
    V.Runs V.IsTensor s ((Universe.mk O n).forAll R) (.ok (.scalar M.all)) := by
  have twice : (Universe.mk O n).forAll R = O.all R >>= O.all := by
    rw [Universe.forAll, ← hR.axes_eq]
    simp only [Tensor.axes_ofMatrix, List.length_cons, List.length_nil, Universe.allAxes, bind_pure]
  rw [twice, ← Tensor.foldFirst_twice]
  exact (reads.all hR).bind fun _ row => reads.all row

/-- The equality of two relations is the meet of the equivalences of their entries. -/
theorem runs_equals_all (hR : V.IsMatrix s R M) (hS : V.IsMatrix s S N) :
    V.Runs V.IsTensor s ((Universe.mk O n).equals R S) (.ok (.scalar (M ⇔ N).all)) := by
  have compared := reads.equ hR hS
  rw [Tensor.zip?_ofMatrix] at compared
  rw [Universe.equals, requireBinary_two hR hS, pure_bind]
  exact compared.bind_ok fun _ cells => reads.runs_forAll cells

/-- The containment of two relations is the meet of the implications of their entries. -/
theorem runs_leq_all (hR : V.IsMatrix s R M) (hS : V.IsMatrix s S N) :
    V.Runs V.IsTensor s ((Universe.mk O n).leq R S) (.ok (.scalar (M ⇨ N).all)) := by
  have compared := reads.imp hR hS
  rw [Tensor.zip?_ofMatrix] at compared
  rw [Universe.leq, requireBinary_two hR hS, pure_bind]
  exact compared.bind_ok fun _ cells => reads.runs_forAll cells

/-- The equality of two relations has the greatest value only for equal matrices. -/
theorem runs_equals (hR : V.IsMatrix s R M) (hS : V.IsMatrix s S N) :
    ∃ v, V.Runs V.IsTensor s ((Universe.mk O n).equals R S) (.ok (.scalar v)) ∧
      (v = ⊤ ↔ M = N) :=
  ⟨_, reads.runs_equals_all hR hS, Matrix.all_eq_top_iff.trans bihimp_eq_top⟩

/-- The containment of two relations has the greatest value only where the first matrix is below the second. -/
theorem runs_leq (hR : V.IsMatrix s R M) (hS : V.IsMatrix s S N) :
    ∃ v, V.Runs V.IsTensor s ((Universe.mk O n).leq R S) (.ok (.scalar v)) ∧ (v = ⊤ ↔ M ≤ N) :=
  ⟨_, reads.runs_leq_all hR hS, Matrix.all_eq_top_iff.trans himp_eq_top_iff⟩

/-- Rounds of squaring are those of matrices. -/
theorem runs_square (cube : allowed (.rectangular 3 n)) (k : Nat) (hR : V.IsMatrix s R M) :
    V.Runs V.IsMatrix s ((Universe.mk O n).square k R) (.ok (Matrix.squared^[k] M)) := by
  induction k generalizing s R M with
  | zero => exact .pure hR
  | succ k ih =>
      refine (reads.runs_circ cube hR hR).bind_ok fun first twice => ?_
      refine (reads.runs_join (hR.later first) twice).bind_ok fun _ joined => ?_
      exact ih joined

end Reads

end Valuation

end BoolCalculus
