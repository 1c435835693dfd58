import BoolCalculus.Proofs.Circuit.Evaluation
import BoolCalculus.Proofs.Matrix.RelationAlgebra
import BoolCalculus.Proofs.Universe.TransitiveClosure

/-!
# Universes are relation algebras

The operations on the binary relations of a universe are those of matrices, and so they satisfy the laws of a
relation algebra: over dense tensors, and over lifted tensors of every gate set that computes a Boolean algebra
(`Universe.relationAlgebra`). Where a gate set is read by a valuation, the laws hold of what the cells are
read as.
-/

namespace BoolCalculus

variable {σ α B ι : Type}

/-- Two constructions, run from `s`, succeed, and the result of the first is below that of the second. -/
def Build.Below [LE α] (s : σ) (act act' : Build σ α) : Prop :=
  ∃ a a', act.Yields s a ∧ act'.Yields s a' ∧ a ≤ a'

namespace Universe

/-- A binary relation of a universe whose cells are all `there`. -/
abbrev BinaryRelation (U : Universe σ α) (there : α → Prop) : Type :=
  {R : Tensor α // U.isBinaryRelation R ∧ ∀ c h, there (R.get c h)}

/-- The binary relations with their union, intersection and complement satisfy the laws of a Boolean algebra. What
two constructions make is compared by `Same`. -/
structure IsBooleanAlgebra (U : Universe σ α) (there : α → Prop)
    (Same : Build σ (Tensor α) → Build σ (Tensor α) → Prop) : Prop where
  join_comm : ∀ R S : U.BinaryRelation there, Same (U.join R S) (U.join S R)
  meet_comm : ∀ R S : U.BinaryRelation there, Same (U.meet R S) (U.meet S R)
  join_assoc : ∀ R S T : U.BinaryRelation there,
    Same (do U.join (← U.join R S) T) (do U.join R (← U.join S T))
  meet_assoc : ∀ R S T : U.BinaryRelation there,
    Same (do U.meet (← U.meet R S) T) (do U.meet R (← U.meet S T))
  join_meet_self : ∀ R S : U.BinaryRelation there, Same (do U.join R (← U.meet R S)) (pure R)
  meet_join_self : ∀ R S : U.BinaryRelation there, Same (do U.meet R (← U.join R S)) (pure R)
  join_meet : ∀ R S T : U.BinaryRelation there,
    Same (do U.join R (← U.meet S T)) (do U.meet (← U.join R S) (← U.join R T))
  meet_join : ∀ R S T : U.BinaryRelation there,
    Same (do U.meet R (← U.join S T)) (do U.join (← U.meet R S) (← U.meet R T))
  join_empty : ∀ R : U.BinaryRelation there, Same (do U.join R (← U.empty)) (pure R)
  meet_total : ∀ R : U.BinaryRelation there, Same (do U.meet R (← U.total)) (pure R)
  join_comp : ∀ R : U.BinaryRelation there, Same (do U.join R (← U.comp R)) U.total
  meet_comp : ∀ R : U.BinaryRelation there, Same (do U.meet R (← U.comp R)) U.empty

/-- With composition, inverse and diagonal, the binary relations satisfy the laws of a relation algebra. What two
constructions make is compared by `Same` and by `Below`. -/
structure IsRelationAlgebra (U : Universe σ α) (there : α → Prop)
    (Same Below : Build σ (Tensor α) → Build σ (Tensor α) → Prop) : Prop
    extends U.IsBooleanAlgebra there Same where
  circ_assoc : ∀ R S T : U.BinaryRelation there,
    Same (do U.circ (← U.circ R S) T) (do U.circ R (← U.circ S T))
  circ_diag : ∀ R : U.BinaryRelation there, Same (do U.circ R (← U.diag)) (pure R)
  diag_circ : ∀ R : U.BinaryRelation there, Same (do U.circ (← U.diag) R) (pure R)
  join_circ : ∀ R S T : U.BinaryRelation there,
    Same (do U.circ (← U.join R S) T) (do U.join (← U.circ R T) (← U.circ S T))
  inv_inv : ∀ R : U.BinaryRelation there, Same (do U.inv (← U.inv R)) (pure R)
  inv_join : ∀ R S : U.BinaryRelation there,
    Same (do U.inv (← U.join R S)) (do U.join (← U.inv R) (← U.inv S))
  inv_circ : ∀ R S : U.BinaryRelation there,
    Same (do U.inv (← U.circ R S)) (do U.circ (← U.inv S) (← U.inv R))
  /-- Tarski's law. -/
  circ_comp_below : ∀ R S : U.BinaryRelation there,
    Below (do U.circ (← U.inv R) (← U.comp (← U.circ R S))) (U.comp S)
  meet_circ_empty_iff : ∀ R S T : U.BinaryRelation there,
    Same (do U.meet (← U.circ R S) T) U.empty ↔
      Same (do U.meet (← U.circ (← U.inv R) T) S) U.empty

/-! ## Terms -/

/-- The terms of a relation algebra with variables from `ι`. -/
inductive RelationTerm (ι : Type) where
  | var (i : ι)
  | empty | total | diag
  | comp (t : RelationTerm ι)
  | inv (t : RelationTerm ι)
  | meet (t u : RelationTerm ι)
  | join (t u : RelationTerm ι)
  | circ (t u : RelationTerm ι)

namespace RelationTerm

/-- The construction of a term in a universe. -/
def run (U : Universe σ α) (R : ι → Tensor α) : RelationTerm ι → Build σ (Tensor α)
  | var i => pure (R i)
  | empty => U.empty
  | total => U.total
  | diag => U.diag
  | comp t => do U.comp (← t.run U R)
  | inv t => do U.inv (← t.run U R)
  | meet t u => do U.meet (← t.run U R) (← u.run U R)
  | join t u => do U.join (← t.run U R) (← u.run U R)
  | circ t u => do U.circ (← t.run U R) (← u.run U R)

/-- The matrix of a term. -/
def matrix [BooleanAlgebra B] {n : Nat} (M : ι → Matrix n B) : RelationTerm ι → Matrix n B
  | var i => M i
  | empty => ⊥
  | total => ⊤
  | diag => Matrix.diag
  | comp t => (t.matrix M)ᶜ
  | inv t => (t.matrix M).transpose
  | meet t u => t.matrix M ⊓ u.matrix M
  | join t u => t.matrix M ⊔ u.matrix M
  | circ t u => Matrix.comp (t.matrix M) (u.matrix M)

section

variable [BooleanAlgebra B] {n : Nat} {U : Universe σ α} {there : α → Prop}
variable {Same Below : Build σ (Tensor α) → Build σ (Tensor α) → Prop}
variable (M : U.BinaryRelation there → Matrix n B)
variable (same : ∀ t u : RelationTerm (U.BinaryRelation there),
  Same (t.run U (·.1)) (u.run U (·.1)) ↔ t.matrix M = u.matrix M)

include same

/-- The laws of a Boolean algebra are equations of terms that hold of all matrices. -/
theorem isBooleanAlgebra_of_terms : U.IsBooleanAlgebra there Same := by
  constructor
  case join_comm =>
    intro R S
    exact (same (join (var R) (var S)) (join (var S) (var R))).2 (sup_comm _ _)
  case meet_comm =>
    intro R S
    exact (same (meet (var R) (var S)) (meet (var S) (var R))).2 (inf_comm _ _)
  case join_assoc =>
    intro R S T
    exact (same (join (join (var R) (var S)) (var T)) (join (var R) (join (var S) (var T)))).2
      (sup_assoc _ _ _)
  case meet_assoc =>
    intro R S T
    exact (same (meet (meet (var R) (var S)) (var T)) (meet (var R) (meet (var S) (var T)))).2
      (inf_assoc _ _ _)
  case join_meet_self =>
    intro R S
    exact (same (join (var R) (meet (var R) (var S))) (var R)).2 sup_inf_self
  case meet_join_self =>
    intro R S
    exact (same (meet (var R) (join (var R) (var S))) (var R)).2 inf_sup_self
  case join_meet =>
    intro R S T
    exact (same (join (var R) (meet (var S) (var T)))
      (meet (join (var R) (var S)) (join (var R) (var T)))).2 (sup_inf_left _ _ _)
  case meet_join =>
    intro R S T
    exact (same (meet (var R) (join (var S) (var T)))
      (join (meet (var R) (var S)) (meet (var R) (var T)))).2 (inf_sup_left _ _ _)
  case join_empty =>
    intro R
    exact (same (join (var R) empty) (var R)).2 (sup_bot_eq _)
  case meet_total =>
    intro R
    exact (same (meet (var R) total) (var R)).2 (inf_top_eq _)
  case join_comp =>
    intro R
    exact (same (join (var R) (comp (var R))) total).2 sup_compl_eq_top
  case meet_comp =>
    intro R
    exact (same (meet (var R) (comp (var R))) empty).2 (inf_compl_self _)

/-- The laws of a relation algebra are equations and inequations of terms that hold of all matrices. -/
theorem isRelationAlgebra_of_terms (below : ∀ t u : RelationTerm (U.BinaryRelation there),
    Below (t.run U (·.1)) (u.run U (·.1)) ↔ t.matrix M ≤ u.matrix M) :
    U.IsRelationAlgebra there Same Below := by
  constructor
  case toIsBooleanAlgebra => exact isBooleanAlgebra_of_terms M same
  case circ_assoc =>
    intro R S T
    exact (same (circ (circ (var R) (var S)) (var T)) (circ (var R) (circ (var S) (var T)))).2
      (Matrix.comp_assoc _ _ _)
  case circ_diag =>
    intro R
    exact (same (circ (var R) diag) (var R)).2 (Matrix.comp_diag _)
  case diag_circ =>
    intro R
    exact (same (circ diag (var R)) (var R)).2 (Matrix.diag_comp _)
  case join_circ =>
    intro R S T
    exact (same (circ (join (var R) (var S)) (var T))
      (join (circ (var R) (var T)) (circ (var S) (var T)))).2 (Matrix.sup_comp _ _ _)
  case inv_inv =>
    intro R
    exact (same (inv (inv (var R))) (var R)).2 rfl
  case inv_join =>
    intro R S
    exact (same (inv (join (var R) (var S))) (join (inv (var R)) (inv (var S)))).2 rfl
  case inv_circ =>
    intro R S
    exact (same (inv (circ (var R) (var S))) (circ (inv (var S)) (inv (var R)))).2
      (Matrix.transpose_comp _ _)
  case circ_comp_below =>
    intro R S
    -- An operand of an operand is constructed here, so the binds have to be reassociated.
    have tarski := below (circ (inv (var R)) (comp (circ (var R) (var S)))) (comp (var S))
    simp only [RelationTerm.run, pure_bind, bind_assoc] at tarski
    exact tarski.2 (Matrix.comp_compl_le _ _)
  case meet_circ_empty_iff =>
    intro R S T
    have left := same (meet (circ (var R) (var S)) (var T)) empty
    have right := same (meet (circ (inv (var R)) (var T)) (var S)) empty
    simp only [RelationTerm.run, pure_bind, bind_assoc] at left right
    rw [left, right]
    exact Matrix.comp_inf_eq_bot_iff

end

end RelationTerm

end Universe

namespace Valuation

open Universe

variable {V : Valuation σ α B} {O : TensorOps σ α} {n : Nat} {s : σ} {R S : Tensor α}
variable {act act' : Build σ (Tensor α)} {M N : Matrix n B}

/-- A relation whose cells are there is read as a matrix. -/
theorem exists_isMatrix (binary : (Universe.mk O n).isBinaryRelation R)
    (there : ∀ c h, V.Elem s (R.get c h)) : ∃ M : Matrix n B, V.IsMatrix s R M := by
  have axes : (R.map (V.value s)).axes = [n, n] := (Universe.mk O n).isBinaryRelation_iff.1 binary
  obtain ⟨M, same⟩ := Tensor.exists_ofMatrix axes
  exact ⟨M, there, same⟩

variable (V) in
/-- Two constructions, run from `s`, make relations that are read as matrices in the given relation. -/
def ReadAs (n : Nat) (le : Matrix n B → Matrix n B → Prop) (s : σ)
    (act act' : Build σ (Tensor α)) : Prop :=
  ∃ M N : Matrix n B, V.Runs V.IsMatrix s act (.ok M) ∧ V.Runs V.IsMatrix s act' (.ok N) ∧ le M N

/-- An action is read as one matrix. -/
theorem Runs.matrix_unique (runs : V.Runs V.IsMatrix s act (.ok M))
    (runs' : V.Runs V.IsMatrix s act (.ok N)) : M = N :=
  Tensor.ofMatrix_injective (Runs.tensor_unique (runs.relate id) (runs'.relate id))

theorem ReadAs.iff {le : Matrix n B → Matrix n B → Prop} (runs : V.Runs V.IsMatrix s act (.ok M))
    (runs' : V.Runs V.IsMatrix s act' (.ok N)) : V.ReadAs n le s act act' ↔ le M N := by
  constructor
  · intro holds
    obtain ⟨M', N', first, second, related⟩ := holds
    rwa [first.matrix_unique runs, second.matrix_unique runs'] at related
  · exact fun related => ⟨M, N, runs, runs', related⟩

namespace Reads

variable [BooleanAlgebra B] {allowed : Shape → Prop} (reads : V.Reads allowed O)
variable (square : allowed (.rectangular 2 n)) (cube : allowed (.rectangular 3 n))

include reads square cube

/-- The construction of a term makes its matrix. -/
theorem runs_term {R : ι → Tensor α} {M : ι → Matrix n B} (isM : ∀ i, V.IsMatrix s (R i) (M i))
    (t : RelationTerm ι) :
    V.Runs V.IsMatrix s (t.run (Universe.mk O n) R) (.ok (t.matrix M)) := by
  induction t generalizing s with
  | var i => exact .pure (isM i)
  | empty => exact reads.runs_empty square
  | total => exact reads.runs_total square
  | diag => exact reads.runs_diag square
  | comp t ih => exact (ih isM).bind_ok fun _ made => reads.runs_comp made
  | inv t ih => exact (ih isM).bind_ok fun _ made => reads.runs_inv square made
  | meet t u iht ihu =>
      refine (iht isM).bind_ok fun first left => ?_
      refine (ihu fun i => (isM i).later first).bind_ok fun second right => ?_
      exact reads.runs_meet (left.later second) right
  | join t u iht ihu =>
      refine (iht isM).bind_ok fun first left => ?_
      refine (ihu fun i => (isM i).later first).bind_ok fun second right => ?_
      exact reads.runs_join (left.later second) right
  | circ t u iht ihu =>
      refine (iht isM).bind_ok fun first left => ?_
      refine (ihu fun i => (isM i).later first).bind_ok fun second right => ?_
      exact reads.runs_circ cube (left.later second) right

/-- The laws of relation algebras hold for all relations whose cells are there. -/
theorem isRelationAlgebra (s : σ) {Same Below : Build σ (Tensor α) → Build σ (Tensor α) → Prop}
    (same : ∀ {act act'} {M N : Matrix n B}, V.Runs V.IsMatrix s act (.ok M) →
      V.Runs V.IsMatrix s act' (.ok N) → (Same act act' ↔ M = N))
    (below : ∀ {act act'} {M N : Matrix n B}, V.Runs V.IsMatrix s act (.ok M) →
      V.Runs V.IsMatrix s act' (.ok N) → (Below act act' ↔ M ≤ N)) :
    (Universe.mk O n).IsRelationAlgebra (V.Elem s) Same Below := by
  have read : ∀ R : (Universe.mk O n).BinaryRelation (V.Elem s),
      ∃ M : Matrix n B, V.IsMatrix s R.1 M := fun R => exists_isMatrix R.2.1 R.2.2
  choose M isM using read
  have runs := reads.runs_term square cube isM
  exact RelationTerm.isRelationAlgebra_of_terms M (fun t u => same (runs t) (runs u)) fun t u =>
    below (runs t) (runs u)

end Reads

end Valuation

namespace Universe

open BoolCalculus.Valuation

/-- Equality and order of tensors are those of their matrices, where elements are read as they are. -/
theorem agree_iff {n : Nat} {s : σ} {act act' : Build σ (Tensor α)} {M N : Matrix n α}
    (runs : (ofFn id : Valuation σ α α).Runs (ofFn id).IsMatrix s act (.ok M))
    (runs' : (ofFn id : Valuation σ α α).Runs (ofFn id).IsMatrix s act' (.ok N)) :
    Build.Agree s act act' ↔ M = N := by
  constructor
  · intro agree
    obtain ⟨T, yields, yields'⟩ := agree
    have first := Except.ok.inj (runs.yields.symm.trans yields)
    have second := Except.ok.inj (runs'.yields.symm.trans yields')
    exact Tensor.ofMatrix_injective (first.trans second.symm)
  · rintro rfl
    exact ⟨_, runs.yields, runs'.yields⟩

theorem below_iff [PartialOrder α] {n : Nat} {s : σ} {act act' : Build σ (Tensor α)}
    {M N : Matrix n α}
    (runs : (ofFn id : Valuation σ α α).Runs (ofFn id).IsMatrix s act (.ok M))
    (runs' : (ofFn id : Valuation σ α α).Runs (ofFn id).IsMatrix s act' (.ok N)) :
    Build.Below s act act' ↔ M ≤ N := by
  constructor
  · intro below
    obtain ⟨S, T, yields, yields', le⟩ := below
    obtain rfl := Except.ok.inj (runs.yields.symm.trans yields)
    obtain rfl := Except.ok.inj (runs'.yields.symm.trans yields')
    exact Tensor.ofMatrix_le_iff.1 le
  · exact fun le => ⟨_, _, runs.yields, runs'.yields, Tensor.ofMatrix_le_iff.2 le⟩

/-- Over dense tensors, and over lifted tensors of gates that compute any Boolean algebra, the binary relations over
a universe of every size are a relation algebra; over lifted tensors of gates that are read in a Boolean
algebra, they are one up to their reading. For stored tensors the cube that a composition goes through must be
one that can be stored. -/
theorem relationAlgebra (n : Nat) :
    (∀ {σ : Type} (s : σ), (mk .dense n : Universe σ Bool).IsRelationAlgebra (fun _ => True)
      (Build.Agree s) (Build.Below s)) ∧
    ∀ {σ α : Type} {A : GateSet σ α} (s : σ),
      (∀ [BooleanAlgebra α], A.Lawful →
        (mk (TensorOps.lifted A) n).IsRelationAlgebra (fun _ => True) (Build.Agree s)
          (Build.Below s) ∧
        ((Shape.rectangular 3 n).checkStorage = .ok () →
          (mk (TensorOps.lifted A).stored n).IsRelationAlgebra (fun _ => True) (Build.Agree s)
            (Build.Below s))) ∧
      ∀ {B : Type} [BooleanAlgebra B] {V : Valuation σ α B}, V.Respects A →
        (mk (TensorOps.lifted A) n).IsRelationAlgebra (V.Elem s) (V.ReadAs n (· = ·) s)
          (V.ReadAs n (· ≤ ·) s) ∧
        ((Shape.rectangular 3 n).checkStorage = .ok () →
          (mk (TensorOps.lifted A).stored n).IsRelationAlgebra (V.Elem s) (V.ReadAs n (· = ·) s)
            (V.ReadAs n (· ≤ ·) s)) := by
  refine ⟨fun {σ} s => ?_, fun s => ⟨fun lawful => ?_, fun respects => ?_⟩⟩
  · have reads := Reads.dense (V := (.ofFn id : Valuation σ Bool Bool)) fun _ _ => ⟨trivial, rfl⟩
    have square := Tensor.isSome_axes?_rectangular 2 n
    have cube := Tensor.isSome_axes?_rectangular 3 n
    exact reads.isRelationAlgebra square cube s agree_iff below_iff
  · have reads := Reads.lifted lawful
    refine ⟨reads.isRelationAlgebra trivial trivial s agree_iff below_iff, fun cube => ?_⟩
    exact reads.stored.isRelationAlgebra ⟨trivial, Shape.checkStorage_square cube⟩ ⟨trivial, cube⟩ s
      agree_iff below_iff
  · have reads := Reads.lifted respects
    refine ⟨reads.isRelationAlgebra trivial trivial s ReadAs.iff ReadAs.iff, fun cube => ?_⟩
    exact reads.stored.isRelationAlgebra ⟨trivial, Shape.checkStorage_square cube⟩ ⟨trivial, cube⟩ s
      ReadAs.iff ReadAs.iff

/-- Relations of pairs of truth values on three points, and relations of handles of a circuit with two inputs. -/
theorem relationAlgebra_pairs :
    (mk (TensorOps.lifted .ofAlgebra).stored 3 : Universe Unit (Bool × Bool)).IsRelationAlgebra
      (fun _ => True) (Build.Agree ()) (Build.Below ()) ∧
    (mk (TensorOps.lifted (Circuit.gates id)).stored 3).IsRelationAlgebra
      ((Circuit.evaluation fun i => i == 0).Elem #[.input, .input])
      ((Circuit.evaluation fun i => i == 0).ReadAs 3 (· = ·) #[.input, .input])
      ((Circuit.evaluation fun i => i == 0).ReadAs 3 (· ≤ ·) #[.input, .input]) :=
  ⟨(((relationAlgebra 3).2 ()).1 GateSet.lawful_ofAlgebra).2 rfl,
    (((relationAlgebra 3).2 _).2 (Circuit.respects_evaluation fun i => i == 0)).2 rfl⟩

end Universe

end BoolCalculus
