import BoolCalculus.Proofs.Rule.Relations
import BoolCalculus.Proofs.Universe.Renaming

/-!
# Comparing relations

The containment and the equality of two relations are scalars: the meets, over all pairs of points, of the implications
and of the equivalences of their cells. So they are the greatest element just for contained and for equal relations,
over every Boolean algebra and also where there are no points (`Universe.comparisons_decide`).
-/

namespace BoolCalculus

open scoped symmDiff

/-! ## Comparing matrices -/

namespace Tensor

variable {n : Nat} {M N : Matrix n Bool}

/-- Matrices of truth values are ordered like the pairs that they relate. -/
theorem matrix_le_iff : (∀ x y, (ofMatrix M).Has x y → (ofMatrix N).Has x y) ↔ M ≤ N := by
  constructor
  · intro contained x y
    rw [Bool.le_iff_imp]
    intro related
    obtain ⟨_, _, cell⟩ := has_ofMatrix.1 (contained x y (has_ofMatrix.2 ⟨x.isLt, y.isLt, related⟩))
    exact cell
  · intro below x y related
    obtain ⟨hx, hy, cell⟩ := has_ofMatrix.1 related
    exact has_ofMatrix.2 ⟨hx, hy, Bool.le_iff_imp.1 (below ⟨x, hx⟩ ⟨y, hy⟩) cell⟩

end Tensor

/-! ## Comparing relations of a universe -/

namespace Valuation

variable {σ α B : Type} [BooleanAlgebra B] {V : Valuation σ α B} {O : TensorOps σ α} {n : Nat} {s : σ}
variable {R S : Tensor α} {M N : Matrix n B}

variable (V) in
/-- What the comparisons of two relations make, in a state in which these are read as `M` and `N`. -/
structure DecidesAt (U : Universe σ α) (s : σ) (R S : Tensor α) (M N : Matrix U.size B) : Prop where
  /-- The containment is the meet over all pairs of points. -/
  leq : V.Runs V.IsTensor s (U.leq R S) (.ok (.scalar (Mᶜ ⊔ N).all))
  /-- The equality is the meet over all pairs of points. -/
  equals : V.Runs V.IsTensor s (U.equals R S) (.ok (.scalar (M ⇔ N).all))
  leq_top : V.Runs V.IsTensor s (U.leq R S) (.ok (.scalar ⊤)) ↔ ∀ x y, M x y ≤ N x y
  equals_top : V.Runs V.IsTensor s (U.equals R S) (.ok (.scalar ⊤)) ↔ ∀ x y, M x y = N x y
  /-- Containment both ways is equality. -/
  bothWays : ∃ v, V.Runs V.IsTensor s (do U.scalars.and (← U.leq R S) (← U.leq S R)) (.ok (.scalar v)) ∧
    V.Runs V.IsTensor s (U.equals R S) (.ok (.scalar v))

namespace Reads

variable {allowed : Shape → Prop} (reads : V.Reads allowed O)

include reads

/-- The conjunction of scalars is the meet of their cells. -/
theorem runs_scalars_and {S T : Tensor α} {v w : B} (hS : V.IsTensor s S (.scalar v))
    (hT : V.IsTensor s T (.scalar w)) :
    V.Runs V.IsTensor s ((Universe.mk O n).scalars.and S T) (.ok (.scalar (v ⊓ w))) := by
  have both := reads.and hS hT
  rw [Tensor.zip?_scalar] at both
  have accepted : ∀ U ∈ [S, T], U.axes = [] := by simp [← hS.axes_eq, ← hT.axes_eq, Tensor.scalar]
  show V.Runs V.IsTensor s ((Universe.mk O n).requireScalars [S, T] >>= fun _ => O.and S T) _
  rw [Universe.requireScalars_ok _ accepted, pure_bind]
  exact both

/-- Two relations are compared as their matrices are. -/
theorem decidesAt (hR : V.IsMatrix s R M) (hS : V.IsMatrix s S N) :
    V.DecidesAt (Universe.mk O n) s R S M N := by
  have leq := reads.runs_leq_all (n := n) hR hS
  have equals := reads.runs_equals_all (n := n) hR hS
  have implication : M ⇨ N = Mᶜ ⊔ N := by rw [himp_eq, sup_comm]
  constructor
  case leq => exact implication ▸ leq
  case equals => exact equals
  case leq_top =>
    rw [leq.scalar_iff, Matrix.all_eq_top_iff, himp_eq_top_iff]
    exact Iff.rfl
  case equals_top =>
    rw [equals.scalar_iff, Matrix.all_eq_top_iff, bihimp_eq_top]
    exact ⟨fun same x y => by rw [same], fun same => funext fun x => funext fun y => same x y⟩
  case bothWays =>
    refine ⟨(M ⇨ N).all ⊓ (N ⇨ M).all, leq.bind_ok fun later contained => ?_, ?_⟩
    · refine (reads.runs_leq_all (n := n) (hS.later later) (hR.later later)).bind_ok fun later' contains => ?_
      exact reads.runs_scalars_and (contained.later later') contains
    · rw [← Matrix.all_inf, inf_comm]
      exact equals

end Reads

end Valuation

/-! ## Comparing sets of pairs -/

namespace Universe

open BoolCalculus.Valuation

variable {σ : Type} {n : Nat}

/-- The truth values of the comparisons of two relations. -/
structure DecidesPairs (U : Universe σ Bool) (R S : Tensor Bool) : Prop where
  leq : ∃ b, (do U.truthValue (← U.leq R S)) = pure b ∧ (b = true ↔ ∀ x y, R.Has x y → S.Has x y)
  equals : ∃ b, (do U.truthValue (← U.equals R S)) = pure b ∧ (b = true ↔ ∀ x y, R.Has x y ↔ S.Has x y)

/-- The truth value of a scalar is its cell. -/
theorem truthValue_scalar (U : Universe σ Bool) (b : Bool) : U.truthValue (.scalar b) = pure b :=
  rfl

theorem TruthTensors.decidesPairs {O : TensorOps σ Bool} (ops : TruthTensors O) {R S : Tensor Bool}
    (hR : R.axes = [n, n]) (hS : S.axes = [n, n]) : (mk O n).DecidesPairs R S := by
  obtain ⟨_, reads, _⟩ := ops.reads n
  obtain ⟨M, rfl⟩ := Tensor.exists_ofMatrix hR
  obtain ⟨N, rfl⟩ := Tensor.exists_ofMatrix hS
  have leq : (mk O n).leq (.ofMatrix M) (.ofMatrix N) = pure (.scalar (M ⇨ N).all) :=
    eq_pure_of_runs fun s => reads.runs_leq_all (isMatrix_still s M) (isMatrix_still s N)
  have equals : (mk O n).equals (.ofMatrix M) (.ofMatrix N) = pure (.scalar (M ⇔ N).all) :=
    eq_pure_of_runs fun s => reads.runs_equals_all (isMatrix_still s M) (isMatrix_still s N)
  constructor
  · refine ⟨(M ⇨ N).all, by rw [leq, pure_bind, truthValue_scalar], ?_⟩
    exact Matrix.all_eq_top_iff.trans (himp_eq_top_iff.trans Tensor.matrix_le_iff.symm)
  · refine ⟨(M ⇔ N).all, by rw [equals, pure_bind, truthValue_scalar], ?_⟩
    exact Matrix.all_eq_top_iff.trans (bihimp_eq_top.trans Tensor.matrix_eq_iff.symm)

/-- Over dense tensors, and over lifted tensors of gates that are read in a Boolean algebra, the comparisons of
relations of a universe of any size are meets over all pairs of points, and they decide containment and equality. Over
truth values they have truth values, which are those of the containment and the equality of sets of pairs. -/
theorem comparisons_decide (n : Nat) :
    (∀ {σ α B : Type} [BooleanAlgebra B] {V : Valuation σ α B} {A : GateSet σ α} {s : σ} {R S : Tensor α}
      {M N : Matrix n B}, V.Respects A → V.IsMatrix s R M → V.IsMatrix s S N →
        V.DecidesAt (mk (TensorOps.lifted A) n) s R S M N ∧
        V.DecidesAt (mk (TensorOps.lifted A).stored n) s R S M N) ∧
    (∀ {σ : Type} (s : σ) (M N : Matrix n Bool),
      (Valuation.ofFn id).DecidesAt (mk .dense n) s (.ofMatrix M) (.ofMatrix N) M N) ∧
    ∀ {σ : Type} {O : TensorOps σ Bool} {R S : Tensor Bool}, TruthTensors O → R.axes = [n, n] →
      S.axes = [n, n] → (mk O n).DecidesPairs R S := by
  refine ⟨fun respects hR hS => ?_, fun {σ} s M N => ?_, fun ops hR hS => ops.decidesPairs hR hS⟩
  · have reads := Reads.lifted respects
    exact ⟨reads.decidesAt hR hS, reads.stored.decidesAt hR hS⟩
  · have reads := Reads.dense (V := (.ofFn id : Valuation σ Bool Bool)) fun _ _ => ⟨trivial, rfl⟩
    exact reads.decidesAt (isMatrix_ofMatrix M) (isMatrix_ofMatrix N)

/-- Relations of pairs of truth values on two points, and relations of a universe without points. -/
theorem comparisons_decide_pairs :
    let below : Matrix 2 (Bool × Bool) := fun x y => (x < y, true)
    let full : Matrix 2 (Bool × Bool) := ⊤
    (Valuation.ofFn id).DecidesAt (mk (TensorOps.lifted .ofAlgebra).stored 2) () (.ofMatrix below) (.ofMatrix full)
      below full ∧
    (mk .dense 0 : Universe Unit Bool).DecidesPairs (.ofFn [0, 0] fun _ _ => true) (.ofFn [0, 0] fun _ _ => false) := by
  intro below full
  have lifted := (comparisons_decide 2).1 (s := ()) GateSet.lawful_ofAlgebra (isMatrix_ofMatrix below)
    (isMatrix_ofMatrix full)
  exact ⟨lifted.2, (comparisons_decide 0).2.2 .dense rfl rfl⟩

end Universe

end BoolCalculus
