import BoolCalculus.Proofs.GateSet.Boolean
import BoolCalculus.Proofs.Shape.Storage
import BoolCalculus.Proofs.Universe.Matrices
import Mathlib.Order.Bounds.Basic

/-!
# The transitive closure is the least one

Tensors over a Boolean algebra are ordered cell by cell. Over dense tensors, and over lifted tensors of
any gate set that is a Boolean algebra, the closure of a binary relation is the least transitive relation above
it, and the reflexive closure the least one above it and the diagonal (`Universe.closure_isLeast`).
-/

namespace BoolCalculus

namespace Tensor

variable {α : Type} {n : Nat}

theorem inBounds_of_eq {S T : Tensor α} (same : S.axes = T.axes) {c : List Nat}
    (h : Axes.InBounds S.axes c) : Axes.InBounds T.axes c :=
  same ▸ h

/-- The order of tensors of one shape, cell by cell. -/
instance [PartialOrder α] : PartialOrder (Tensor α) where
  le S T := ∃ same : S.axes = T.axes, ∀ c h, S.get c h ≤ T.get c (inBounds_of_eq same h)
  le_refl _ := ⟨rfl, fun _ _ => le_rfl⟩
  le_trans := by
    intro S T U first second
    rcases first with ⟨same, below⟩
    rcases second with ⟨same', below'⟩
    exact ⟨same.trans same', fun c h => (below c h).trans (below' c (inBounds_of_eq same h))⟩
  le_antisymm := by
    intro S T le ge
    rcases le with ⟨same, below⟩
    rcases ge with ⟨_, above⟩
    exact ext_get same fun c hS hT => le_antisymm (below c hS) (above c hT)

theorem axes_eq_of_le [PartialOrder α] {S T : Tensor α} (h : S ≤ T) : S.axes = T.axes :=
  h.1

theorem ofMatrix_le_iff [PartialOrder α] {M N : Matrix n α} :
    ofMatrix M ≤ ofMatrix N ↔ M ≤ N := by
  constructor
  · intro le x y
    rcases le with ⟨_, below⟩
    have cell := below _ (inBounds_points x y)
    rwa [get_ofMatrix, get_ofMatrix] at cell
  · intro below
    refine ⟨rfl, fun c h => ?_⟩
    obtain ⟨x, y, rfl⟩ := exists_points h
    rw [get_ofMatrix, get_ofMatrix]
    exact below x y

/-- What is above the union of two matrices is above both. -/
theorem ofMatrix_sup_le_iff [BooleanAlgebra α] {M N : Matrix n α} {T : Tensor α} :
    ofMatrix (M ⊔ N) ≤ T ↔ ofMatrix M ≤ T ∧ ofMatrix N ≤ T := by
  have matrix : ∀ L : Matrix n α, ofMatrix L ≤ T → ∃ S : Matrix n α, T = ofMatrix S := fun _ h =>
    exists_ofMatrix (axes_eq_of_le h).symm
  constructor
  · intro above
    obtain ⟨S, rfl⟩ := matrix _ above
    simpa only [ofMatrix_le_iff, sup_le_iff] using above
  · intro holds
    rcases holds with ⟨above, above'⟩
    obtain ⟨S, rfl⟩ := matrix _ above
    rw [ofMatrix_le_iff] at above above' ⊢
    exact sup_le above above'

end Tensor

variable {σ α β : Type}

namespace Universe

section

variable [PartialOrder α] (U : Universe σ α)

/-- The composition of a relation with itself is contained in it. -/
def IsTransitive (s : σ) (T : Tensor α) : Prop :=
  ∃ D, (U.circ T T).Yields s D ∧ D ≤ T

/-- The closures of a relation are the least transitive relations above it: above the relation, and above its
union with the diagonal. -/
structure ClosesToLeast (s : σ) (R : Tensor α) : Prop where
  transitive : ∃ C, (U.closure R false).Yields s C ∧
    IsLeast {T | R ≤ T ∧ U.IsTransitive s T} C
  reflexive : ∃ D base C, U.diag.Yields s D ∧ (U.join R D).Yields s base ∧
    (U.closure R true).Yields s C ∧
    IsLeast {T | base ≤ T ∧ U.IsTransitive s T} C ∧
    IsLeast {T | R ≤ T ∧ D ≤ T ∧ U.IsTransitive s T} C

end

end Universe

namespace Valuation

variable {allowed : Shape → Prop} {O : TensorOps σ α} {n : Nat} {s : σ} {M N : Matrix n α}

theorem Runs.yields {act : Build σ (Tensor α)}
    (h : (ofFn id : Valuation σ α α).Runs (ofFn id).IsMatrix s act (.ok M)) :
    act.Yields s (.ofMatrix M) := by
  obtain ⟨t, run⟩ := h.runFrom_matrix
  rw [Build.Yields, run]

namespace Reads

variable [BooleanAlgebra α] (reads : (ofFn id).Reads allowed O) (square : allowed (.rectangular 2 n))
variable (cube : allowed (.rectangular 3 n))

include reads cube

theorem isTransitive_ofMatrix :
    (Universe.mk O n).IsTransitive s (.ofMatrix M) ↔ Matrix.comp M M ≤ M := by
  have composed :=
    (reads.runs_circ (s := s) cube (isMatrix_ofMatrix M) (isMatrix_ofMatrix M)).yields
  constructor
  · intro holds
    rcases holds with ⟨D, yield, below⟩
    obtain rfl := Except.ok.inj (composed.symm.trans yield)
    exact Tensor.ofMatrix_le_iff.1 below
  · exact fun below => ⟨_, composed, Tensor.ofMatrix_le_iff.2 below⟩

/-- The rounds of squaring reach the least transitive relation above a matrix. -/
theorem isLeast_squared (s : σ) (M : Matrix n α) :
    IsLeast {T | .ofMatrix M ≤ T ∧ (Universe.mk O n).IsTransitive s T}
      (.ofMatrix (Matrix.squared^[(Universe.mk O n).rounds] M)) := by
  have enough := (Universe.mk O n).size_lt_two_pow_rounds
  refine ⟨⟨Tensor.ofMatrix_le_iff.2 (Matrix.le_squared_iterate M _), ?_⟩, ?_⟩
  · exact (reads.isTransitive_ofMatrix cube).2 (Matrix.comp_squared_iterate_le enough)
  · intro T holds
    rcases holds with ⟨above, transitive⟩
    obtain ⟨S, rfl⟩ := Tensor.exists_ofMatrix (Tensor.axes_eq_of_le above).symm
    refine Tensor.ofMatrix_le_iff.2 (Matrix.squared_iterate_le ?_ ?_ _)
    · exact Tensor.ofMatrix_le_iff.1 above
    · exact (reads.isTransitive_ofMatrix cube).1 transitive

include square

theorem closesToLeast (s : σ) {R : Tensor α} (binary : (Universe.mk O n).isBinaryRelation R) :
    (Universe.mk O n).ClosesToLeast s R := by
  obtain ⟨M, rfl⟩ := Tensor.exists_ofMatrix ((Universe.mk O n).isBinaryRelation_iff.1 binary)
  have isM := isMatrix_ofMatrix (s := s) M
  refine ⟨⟨_, (reads.runs_square cube _ isM).yields, reads.isLeast_squared cube s M⟩, ?_⟩
  have diagonal := reads.runs_diag (s := s) square
  have joined := reads.runs_join isM (isMatrix_ofMatrix (Matrix.diag : Matrix n α))
  have closed := diagonal.bind_ok fun later isD =>
    (reads.runs_join (isM.later later) isD).bind_ok fun _ base =>
      reads.runs_square cube (Universe.mk O n).rounds base
  have least := reads.isLeast_squared cube s (M ⊔ Matrix.diag)
  refine ⟨_, _, _, diagonal.yields, joined.yields, closed.yields, least, ?_⟩
  simpa only [Tensor.ofMatrix_sup_le_iff, and_assoc] using least

end Reads

end Valuation

namespace Universe

/-- The gates of truth values compute the Boolean algebra of truth values. -/
theorem lawful_boolean (check : Bool) : (GateSet.boolean check : GateSet σ Bool).Lawful :=
  Valuation.respects_boolean Valuation.readsTruths_ofFn check

/-- Over dense tensors, and over lifted tensors of gates that compute any Boolean algebra, the closure of every
binary relation over a universe of every size is the least transitive relation above it, and the
reflexive closure the least transitive relation above its union with the diagonal. For stored tensors the
cube that a composition goes through must be one that can be stored. -/
theorem closure_isLeast (n : Nat) :
    (∀ {σ : Type} (s : σ) (R : Tensor Bool),
      (mk .dense n : Universe σ Bool).isBinaryRelation R →
        (mk .dense n : Universe σ Bool).ClosesToLeast s R) ∧
    ∀ {σ α : Type} [BooleanAlgebra α] {A : GateSet σ α}, A.Lawful → ∀ (s : σ) (R : Tensor α),
      (mk (TensorOps.lifted A) n).isBinaryRelation R →
        (mk (TensorOps.lifted A) n).ClosesToLeast s R ∧
        ((Shape.rectangular 3 n).checkStorage = .ok () →
          (mk (TensorOps.lifted A).stored n).ClosesToLeast s R) := by
  constructor
  · intro σ s R binary
    have reads := Valuation.Reads.dense (V := (.ofFn id : Valuation σ Bool Bool))
      fun _ _ => ⟨trivial, rfl⟩
    have square := Tensor.isSome_axes?_rectangular 2 n
    have cube := Tensor.isSome_axes?_rectangular 3 n
    exact reads.closesToLeast square cube s binary
  · intro σ α _ A lawful s R binary
    have reads := Valuation.Reads.lifted lawful
    refine ⟨reads.closesToLeast trivial trivial s binary, fun cube => ?_⟩
    exact reads.stored.closesToLeast ⟨trivial, Shape.checkStorage_square cube⟩ ⟨trivial, cube⟩ s binary

/-- The closures of a chain of three points. -/
theorem closure_isLeast_chain :
    let chain : Tensor Bool := .ofFn [3, 3] fun coord _ => coord[1]? == coord[0]?.map (· + 1)
    (mk .dense 3 : Universe Unit Bool).ClosesToLeast () chain ∧
    (mk (TensorOps.lifted (.boolean true)) 3 : Universe Unit Bool).ClosesToLeast () chain ∧
    (mk (TensorOps.lifted (.boolean true)).stored 3 : Universe Unit Bool).ClosesToLeast () chain :=
  ⟨(closure_isLeast 3).1 () _ rfl, ((closure_isLeast 3).2 (lawful_boolean true) () _ rfl).1,
    ((closure_isLeast 3).2 (lawful_boolean true) () _ rfl).2 rfl⟩

end Universe

end BoolCalculus
