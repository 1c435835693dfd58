import BoolCalculus.Proofs.GateSet.Boolean
import BoolCalculus.Proofs.Rule.Operations
import BoolCalculus.Proofs.Shape.Storage
import BoolCalculus.Proofs.Universe.Matrices

/-!
# Relations of truth values

The binary relations of a universe of truth values stand for relations on its points, and the operations that a
universe offers to an engine of rules compute on them, over dense and over lifted tensors.
-/

namespace BoolCalculus

namespace Matrix

variable {n : Nat}

theorem comp_eq_true_iff {M N : Matrix n Bool} {x z : Fin n} :
    comp M N x z = true ↔ ∃ y, M x y = true ∧ N y z = true := by
  constructor
  · intro related
    by_contra none
    have empty : comp M N x z ≤ false := comp_le_iff.2 fun y => by
      have := not_exists.1 none y
      revert this
      cases M x y <;> cases N y z <;> decide
    rw [related] at empty
    exact absurd empty (by decide)
  · intro holds
    rcases holds with ⟨y, first, second⟩
    have below := le_comp M N x y z
    rw [first, second] at below
    exact top_le_iff.1 below

end Matrix

namespace Tensor

variable {n : Nat}

/-- A tensor of truth values relates two points. -/
def Has (T : Tensor Bool) (x y : Nat) : Prop :=
  ∃ h : Axes.InBounds T.axes [x, y], T.get [x, y] h = true

theorem has_ofFn {axes : List Nat} {f : (c : List Nat) → Axes.InBounds axes c → Bool} {x y : Nat} :
    (ofFn axes f).Has x y ↔ ∃ h : Axes.InBounds axes [x, y], f [x, y] h = true :=
  exists_congr fun h => Eq.congr_left (get_ofFn axes f h)

theorem has_ofMatrix {M : Matrix n Bool} {x y : Nat} :
    (ofMatrix M).Has x y ↔ ∃ (hx : x < n) (hy : y < n), M ⟨x, hx⟩ ⟨y, hy⟩ = true := by
  constructor
  · intro holds
    rcases holds with ⟨⟨hx, hy, _⟩, related⟩
    exact ⟨hx, hy, (get_ofMatrix M ⟨x, hx⟩ ⟨y, hy⟩).symm.trans related⟩
  · intro holds
    rcases holds with ⟨hx, hy, related⟩
    exact ⟨⟨hx, hy, trivial⟩, (get_ofMatrix M ⟨x, hx⟩ ⟨y, hy⟩).trans related⟩

theorem has_points {M : Matrix n Bool} (x y : Fin n) : (ofMatrix M).Has x y ↔ M x y = true := by
  rw [has_ofMatrix]
  exact ⟨fun ⟨_, _, related⟩ => related, fun related => ⟨x.isLt, y.isLt, related⟩⟩

theorem has_comp {M N : Matrix n Bool} {x z : Nat} :
    (ofMatrix (Matrix.comp M N)).Has x z ↔ ∃ y, (ofMatrix M).Has x y ∧ (ofMatrix N).Has y z := by
  simp only [has_ofMatrix, Matrix.comp_eq_true_iff]
  constructor
  · intro holds
    rcases holds with ⟨hx, hz, y, first, second⟩
    exact ⟨y, ⟨hx, y.isLt, first⟩, y.isLt, hz, second⟩
  · intro holds
    rcases holds with ⟨y, ⟨hx, hy, first⟩, _, hz, second⟩
    exact ⟨hx, hz, ⟨y, hy⟩, first, second⟩

theorem has_sup {M N : Matrix n Bool} {x y : Nat} :
    (ofMatrix (M ⊔ N)).Has x y ↔ (ofMatrix M).Has x y ∨ (ofMatrix N).Has x y := by
  simp only [has_ofMatrix, ← exists_or]
  exact exists_congr fun hx => exists_congr fun hy => Bool.or_eq_true_iff

/-- Matrices that relate the same points are equal. -/
theorem matrix_eq_iff {M N : Matrix n Bool} :
    (∀ x y, (ofMatrix M).Has x y ↔ (ofMatrix N).Has x y) ↔ M = N := by
  constructor
  · intro same
    funext x y
    have cell := same x y
    rw [has_points, has_points] at cell
    exact Bool.eq_iff_iff.2 cell
  · rintro rfl x y
    exact Iff.rfl

/-- Binary relations that relate the same points are equal. -/
theorem eq_of_has {S T : Tensor Bool} (squareS : S.axes = [n, n]) (squareT : T.axes = [n, n])
    (same : ∀ x y, S.Has x y ↔ T.Has x y) : S = T := by
  obtain ⟨M, rfl⟩ := exists_ofMatrix squareS
  obtain ⟨N, rfl⟩ := exists_ofMatrix squareT
  rw [matrix_eq_iff.1 same]

end Tensor

namespace Valuation

variable {σ : Type} {allowed : Shape → Prop} {O : TensorOps σ Bool} {n : Nat} {s : σ} {R S : Tensor Bool}

/-- What is read as a matrix of truth values is the tensor of the matrix. -/
theorem Runs.ensures {act : Build σ (Tensor Bool)} {M : Matrix n Bool}
    (h : (ofFn id : Valuation σ Bool Bool).Runs (ofFn id).IsMatrix s act (.ok M)) :
    act.Ensures s fun T _ => T = .ofMatrix M := by
  obtain ⟨t, run⟩ := h.runFrom_matrix
  exact ⟨_, t, run, rfl⟩

namespace Reads

theorem require_ensures (binary : R.axes = [n, n]) :
    ((Universe.mk O n).relationOps.require R).Ensures s fun _ _ => True := by
  have run := (Universe.mk O n).runFrom_requireBinary R s
  rw [if_pos binary] at run
  exact ⟨(), s, run, trivial⟩

/-- A tensor of other axes is refused before it is stored. -/
theorem require_refused (other : R.axes ≠ [n, n]) :
    ∃ f t, ((Universe.mk O n).relationOps.require R).runFrom s = (.error f, t) := by
  have run := (Universe.mk O n).runFrom_requireBinary R s
  rw [if_neg other] at run
  exact ⟨_, s, run⟩

variable (reads : (ofFn id).Reads allowed O)

include reads

theorem inv_ensures (square : allowed (.rectangular 2 n)) (binary : R.axes = [n, n]) :
    ((Universe.mk O n).inv R).Ensures s fun T _ => T.axes = [n, n] ∧ ∀ x y, T.Has x y ↔ R.Has y x := by
  obtain ⟨M, rfl⟩ := Tensor.exists_ofMatrix binary
  have inverse := reads.runs_inv (s := s) square (isMatrix_ofMatrix M)
  refine inverse.ensures.mono ?_
  rintro _ _ rfl
  refine ⟨rfl, fun x y => ?_⟩
  rw [Tensor.has_ofMatrix, Tensor.has_ofMatrix]
  exact exists_comm

theorem circ_ensures (cube : allowed (.rectangular 3 n)) (hR : R.axes = [n, n]) (hS : S.axes = [n, n]) :
    ((Universe.mk O n).circ R S).Ensures s fun T _ => T.axes = [n, n] ∧
      ∀ x z, T.Has x z ↔ ∃ y, R.Has x y ∧ S.Has y z := by
  obtain ⟨M, rfl⟩ := Tensor.exists_ofMatrix hR
  obtain ⟨N, rfl⟩ := Tensor.exists_ofMatrix hS
  have composed := reads.runs_circ (s := s) cube (isMatrix_ofMatrix M) (isMatrix_ofMatrix N)
  refine composed.ensures.mono ?_
  rintro _ _ rfl
  exact ⟨rfl, fun x z => Tensor.has_comp⟩

theorem join_ensures (hR : R.axes = [n, n]) (hS : S.axes = [n, n]) :
    ((Universe.mk O n).join R S).Ensures s fun T _ => T.axes = [n, n] ∧
      ∀ x y, T.Has x y ↔ R.Has x y ∨ S.Has x y := by
  obtain ⟨M, rfl⟩ := Tensor.exists_ofMatrix hR
  obtain ⟨N, rfl⟩ := Tensor.exists_ofMatrix hS
  have joined := reads.runs_join (s := s) (isMatrix_ofMatrix M) (isMatrix_ofMatrix N)
  refine joined.ensures.mono ?_
  rintro _ _ rfl
  exact ⟨rfl, fun x y => Tensor.has_sup⟩

/-- Relations are found to be the same if they relate the same points. -/
theorem same_ensures (hR : R.axes = [n, n]) (hS : S.axes = [n, n]) :
    ((Universe.mk O n).same R S).Ensures s fun d _ =>
      (d = true ↔ ∀ x y, R.Has x y ↔ S.Has x y) := by
  obtain ⟨M, rfl⟩ := Tensor.exists_ofMatrix hR
  obtain ⟨N, rfl⟩ := Tensor.exists_ofMatrix hS
  obtain ⟨v, equal, greatest⟩ :=
    reads.runs_equals (s := s) (O := O) (isMatrix_ofMatrix M) (isMatrix_ofMatrix N)
  cases equal with
  | ok run later is =>
      obtain rfl := (isTensor_iff_eq fun _ _ => ⟨trivial, rfl⟩).1 is
      refine ⟨v, _, (Build.runFrom_bind_ok run).trans rfl, ?_⟩
      exact greatest.trans Tensor.matrix_eq_iff.symm

/-- The operations of a universe of truth values compute on its binary relations. -/
theorem computes (square : allowed (.rectangular 2 n)) (cube : allowed (.rectangular 3 n)) :
    (Universe.mk O n).relationOps.Computes (fun R => R.axes = [n, n]) Tensor.Has where
  require _ _ := require_ensures
  refuse _ _ := require_refused
  inv _ _ := reads.inv_ensures square
  circ _ _ _ := reads.circ_ensures cube
  join _ _ _ := reads.join_ensures
  same _ _ _ := reads.same_ensures

end Reads

end Valuation

end BoolCalculus
