import BoolCalculus.Proofs.Universe.Axes
import BoolCalculus.Proofs.Universe.Backends

/-!
# What universes refuse

An operation of a universe refuses malformed operands and nothing else, as long as the shapes that it asks for can be
stored, and it refuses them before a gate is called (`Universe.refuses_malformed`). `Step.misfit?` names the cause by
the axes of the operands alone, and `Step.Malformed` says which operands are malformed.
-/

namespace BoolCalculus

/-- The axes that an operand of a kind has, in a universe of size `n`. -/
def OperandKind.axes {α : Type} (n : Nat) : OperandKind → Tensor α → List Nat
  | scalar, _ => []
  | binaryRelation, _ => [n, n]
  | relation, T => List.replicate T.axes.length n

/-- Whether a misfit is one that tensor operations find, and not the universe. -/
def Misfit.isInner : Misfit → Bool
  | uncovered _ _ | noTarget _ _ | sizes .. | unequal _ _ | notReducible => true
  | operand .. | arities .. | notProjectable => false

/-- Refuses for a cause, if there is one. -/
def Build.refuse {σ : Type} : Option Misfit → Build σ Unit
  | some cause => throw (.shapeMismatch cause)
  | none => pure ()

namespace Universe

variable {σ α β ρ : Type} {E : Fault → Prop} {n : Nat}

/-! ## Malformed operands -/

/-- The kind of operands that a step takes, if the universe checks them before anything else. -/
def Step.kind? : Step ρ → Option OperandKind
  | .unary .scalarNot _ | .binary (.scalar _) _ _ => some .scalar
  | .unary .comp _ | .unary .inv _ => some .binaryRelation
  | .binary .meet _ _ | .binary .join _ _ | .binary .circ _ _ | .binary .equals _ _
  | .binary .leq _ _ => some .binaryRelation
  | .unary .relComp _ | .unary .relExists _ | .binary .relMeet _ _ | .binary .relJoin _ _
  | .relReindex _ _ _ => some .relation
  | _ => none

/-- The operands of a step that takes one or two. -/
def Step.operands : Step ρ → List ρ
  | .unary _ r | .relReindex r _ _ => [r]
  | .binary _ r s => [r, s]
  | _ => []

/-- The first operand that has not the axes of its kind. -/
def unlike? (kind : OperandKind) (n : Nat) (operands : List (Tensor α)) : Option Misfit :=
  (operands.find? fun T => T.axes != kind.axes n T).map fun T =>
    .operand kind n (.ofAxes (kind.axes n T)) T.shape

/-- What else is wrong with relations that are combined, moved or projected. -/
def Step.mismatch? (n : Nat) : Step (Tensor α) → Option Misfit
  | .binary .relMeet R S | .binary .relJoin R S =>
    if S.axes.length = R.axes.length then none
    else some (.arities R.axes.length (.rectangular R.axes.length n) S.shape)
  | .relReindex R arity mapping =>
    if mapping.length = R.axes.length then
      (mapping.find? fun target => !(0 ≤ target && target < max arity 0)).map
        (.noTarget · (.rectangular arity n))
    else some (.uncovered mapping R.shape)
  | .unary .relExists R => if R.axes = [] then some .notProjectable else none
  | _ => none

/-- Why the operands of a step are refused: the first operand of another kind, or else what is wrong with
operands of that kind. -/
def Step.misfit? (n : Nat) (step : Step (Tensor α)) : Option Misfit :=
  (step.kind?.bind (unlike? · n step.operands)).or (step.mismatch? n)

/-- Relations of two arities are combined, a mapping has not one place for every coordinate, or a relation without
coordinates is projected. -/
def Step.Mismatched : Step (Tensor α) → Prop
  | .binary .relMeet R S | .binary .relJoin R S => S.axes.length ≠ R.axes.length
  | .relReindex R arity mapping => mapping.length ≠ R.axes.length ∨
      ∃ target ∈ mapping, ¬(0 ≤ target ∧ target ≤ max arity 0 - 1)
  | .unary .relExists R => R.axes = []
  | _ => False

/-- Some operand of a step is not of the kind that the step takes, or the operands do not fit. -/
def Step.Malformed (n : Nat) (step : Step (Tensor α)) : Prop :=
  (∃ kind ∈ step.kind?, ∃ T ∈ step.operands, T.axes ≠ kind.axes n T) ∨ step.Mismatched

theorem isSome_unlike? {kind : OperandKind} {operands : List (Tensor α)} :
    (unlike? kind n operands).isSome ↔ ∃ T ∈ operands, T.axes ≠ kind.axes n T := by
  simp [unlike?]

theorem unlike?_eq_none {kind : OperandKind} {operands : List (Tensor α)}
    (h : unlike? kind n operands = none) : ∀ T ∈ operands, T.axes = kind.axes n T := by
  simpa [unlike?] using h

/-- A reindexing is refused if its mapping does not fit. -/
theorem Step.isSome_mismatch? {step : Step (Tensor α)} :
    (step.mismatch? n).isSome ↔ step.Mismatched := by
  have places : ∀ (arity : Int) (mapping : List Int),
      (mapping.find? fun target => !(0 ≤ target && target < max arity 0)).isSome ↔
        ∃ target ∈ mapping, ¬(0 ≤ target ∧ target ≤ max arity 0 - 1) := by
    intro arity mapping
    simp only [List.find?_isSome, Bool.not_eq_true', Bool.and_eq_false_iff, decide_eq_false_iff_not,
      not_and_or, Int.le_sub_one_iff]
  cases step with
  | unary op R => cases op <;> simp [Step.mismatch?, Step.Mismatched]
  | binary op R S => cases op <;> simp [Step.mismatch?, Step.Mismatched]
  | relReindex R arity mapping =>
      by_cases covered : mapping.length = R.axes.length
      · simpa [Step.mismatch?, Step.Mismatched, covered] using places arity mapping
      · simp [Step.mismatch?, Step.Mismatched, covered]
  | _ => simp [Step.mismatch?, Step.Mismatched]

/-- A step is refused if an operand of it does not fit, or its mapping. -/
theorem Step.isSome_misfit? {step : Step (Tensor α)} : (step.misfit? n).isSome ↔ step.Malformed n := by
  rw [Step.misfit?, Option.isSome_or, Bool.or_eq_true, Step.isSome_mismatch?, Step.Malformed]
  refine or_congr ?_ Iff.rfl
  cases step.kind? with
  | none => simp
  | some kind => simpa using isSome_unlike?

/-! ## Requirements -/

section

variable (U : Universe σ α)

/-- The requirement of a kind refuses the first operand of another kind. -/
theorem forM_require_eq {kind : OperandKind} {accepted : Tensor α → Bool} {rank : Tensor α → Nat}
    (iff : ∀ T, accepted T = true ↔ T.axes = kind.axes U.size T)
    (shape : ∀ T, U.newShape (rank T) = .ofAxes (kind.axes U.size T)) (operands : List (Tensor α)) :
    (operands.forM fun T => U.require (accepted T) kind (rank T) T) =
      .refuse (unlike? kind U.size operands) := by
  induction operands with
  | nil => rfl
  | cons T operands ih =>
      rw [List.forM, unlike?, List.find?_cons]
      by_cases fits : T.axes = kind.axes U.size T
      · have same : (T.axes != kind.axes U.size T) = false := by simpa using fits
        rw [same, require, if_pos ((iff T).2 fits), pure_bind]
        exact ih
      · have other : (T.axes != kind.axes U.size T) = true := by simpa using fits
        rw [other, require, if_neg (mt (iff T).1 fits), shape]
        rfl

theorem newShape_eq_ofAxes (rank : Nat) : U.newShape rank = .ofAxes (List.replicate rank U.size) := by
  simp [newShape, Shape.rectangular, Shape.ofAxes]

theorem requireScalars_eq (operands : List (Tensor α)) :
    U.requireScalars operands = .refuse (unlike? .scalar U.size operands) :=
  U.forM_require_eq (fun _ => U.isScalar_iff) (fun _ => U.newShape_eq_ofAxes 0) operands

theorem requireBinary_eq (operands : List (Tensor α)) :
    U.requireBinary operands = .refuse (unlike? .binaryRelation U.size operands) :=
  U.forM_require_eq (fun _ => U.isBinaryRelation_iff) (fun _ => U.newShape_eq_ofAxes 2) operands

theorem forM_requireRelation_eq (operands : List (Tensor α)) :
    (operands.forM fun T => U.require (U.isRelation T) .relation T.shape.rank T) =
      .refuse (unlike? .relation U.size operands) := by
  refine U.forM_require_eq (fun _ => U.isRelation_iff) (fun T => ?_) operands
  rw [Tensor.shape, Shape.rank_ofAxes]
  exact U.newShape_eq_ofAxes _

theorem requireRelations_one (R : Tensor α) : U.requireRelations [R] =
    (.refuse (unlike? .relation U.size [R]) >>= fun _ => pure R.axes.length) := by
  rw [requireRelations, forM_requireRelation_eq]
  simp [Tensor.shape]

/-- Two operands that are relations still need to have one arity. -/
theorem requireRelations_two (R S : Tensor α) : U.requireRelations [R, S] =
    (.refuse (unlike? .relation U.size [R, S]) >>= fun _ =>
      .refuse (Step.mismatch? U.size (.binary .relMeet R S)) >>= fun _ => pure R.axes.length) := by
  rw [requireRelations, forM_requireRelation_eq]
  refine bind_congr fun _ => ?_
  by_cases same : S.axes.length = R.axes.length
  · simp [Step.mismatch?, Tensor.shape, same, Build.refuse]
  · simp [Step.mismatch?, Tensor.shape, same, Build.refuse]
    rfl

end

/-! ## Mappings of relations -/

/-- All places of a rectangular shape have the size of the coordinates that are sent there. -/
theorem axisMisfit?_rectangular (n : Nat) (arity : Int) (old : Shape) (axis : Nat) (mapping : List Int) :
    (Shape.rectangular arity n).axisMisfit? old axis (List.replicate mapping.length (n : Int)) mapping =
      (mapping.find? fun target => !(0 ≤ target && target < max arity 0)).map
        (.noTarget · (.rectangular arity n)) := by
  have places : ((Shape.rectangular arity n).rank : Int) = max arity 0 := by
    rw [Shape.rank_rectangular, Int.toNat_eq_max]
  induction mapping generalizing axis with
  | nil => rfl
  | cons target targets ih =>
      rw [List.length_cons, List.replicate_succ, Shape.axisMisfit?, places, List.find?_cons]
      by_cases range : 0 ≤ target ∧ target < max arity 0
      · have inside : target.toNat < arity.toNat := by omega
        have size : (Shape.rectangular arity n).sizes[target.toNat]?.getD 0 = n := by
          simp [Shape.rectangular, inside]
        have passed : (!(0 ≤ target && target < max arity 0)) = false := by
          rw [← Bool.decide_and, decide_eq_true range]
          rfl
        rw [passed, if_pos range, size]
        exact (if_pos rfl).trans (ih (axis + 1))
      · have found : (!(0 ≤ target && target < max arity 0)) = true := by
          rw [← Bool.decide_and, decide_eq_false range]
          rfl
        rw [found, if_neg range]
        rfl

/-- A relation is moved under the condition of its mapping only. -/
theorem misfit?_relReindex {R : Tensor α} (relation : R.axes = List.replicate R.axes.length n)
    (arity : Int) (mapping : List Int) :
    (Shape.rectangular arity n).misfit? R.shape mapping =
      Step.mismatch? n (.relReindex R arity mapping) := by
  rw [Shape.misfit?, Tensor.shape, Shape.rank_ofAxes, Step.mismatch?]
  split
  · rename_i covered
    have sizes : (Shape.ofAxes R.axes).sizes = List.replicate mapping.length (n : Int) := by
      rw [relation, covered]
      simp [Shape.ofAxes]
    rw [sizes, axisMisfit?_rectangular]
  · rfl

/-! ## Steps -/

/-- A construction that is a refusal where there is a misfit, and else makes something or fails with a fault in `E`. -/
structure Guarded (E : Fault → Prop) (misfit? : Option Misfit) (act : Build σ β) : Prop where
  refused : ∀ cause, misfit? = some cause → act = throw (.shapeMismatch cause)
  accepted : misfit? = none → act.Makes E fun _ => True

/-- A refusal comes before what is guarded by a second one. -/
theorem Guarded.or {first? second? : Option Misfit} {rest : Build σ β}
    (h : first? = none → Guarded E second? rest) :
    Guarded E (first?.or second?) (Build.refuse first? >>= fun _ => rest) := by
  cases first? with
  | some cause => exact ⟨fun _ same => by rw [← Option.some.inj same]; rfl, nofun⟩
  | none => exact h rfl

theorem Guarded.of_makes {P : β → Prop} {act : Build σ β} (made : act.Makes E P) :
    Guarded E none act :=
  ⟨nofun, fun _ => made.weaken fun _ _ => trivial⟩

theorem Guarded.refuse {misfit? : Option Misfit} {P : β → Prop} {rest : Build σ β}
    (h : misfit? = none → rest.Makes E P) :
    Guarded E misfit? (Build.refuse misfit? >>= fun _ => rest) := by
  have guarded := Guarded.or fun fits => Guarded.of_makes (h fits)
  rwa [Option.or_none] at guarded

/-- The rule for a construction that requires a kind of its operands. -/
theorem Guarded.of_require {kind : OperandKind} {operands : List (Tensor α)} {P : β → Prop}
    {act rest : Build σ β} (required : act = Build.refuse (unlike? kind n operands) >>= fun _ => rest)
    (makes : (∀ T ∈ operands, T.axes = kind.axes n T) → act.Makes E P) :
    Guarded E ((unlike? kind n operands).or none) act := by
  cases found : unlike? kind n operands with
  | some cause =>
      rw [found] at required
      exact ⟨fun _ same => by rw [← Option.some.inj same]; exact required, nofun⟩
  | none => exact .of_makes (makes (unlike?_eq_none found))

/-- Two relations of one arity have one shape. -/
theorem guarded_onRelations {O : TensorOps σ α} {f : Tensor α → Tensor α → Build σ (Tensor α)}
    (keeps : TensorOps.KeepsAxes E f) (R S : Tensor α) :
    Guarded E (Step.misfit? n (.binary .relMeet R S))
      ((mk O n).requireRelations [R, S] >>= fun _ => f R S) := by
  rw [requireRelations_two, bind_assoc]
  refine Guarded.or fun relations => ?_
  have relations := unlike?_eq_none relations
  rw [bind_assoc]
  refine Guarded.refuse (P := fun T => T.axes = R.axes) fun fits => keeps ?_
  have arity : S.axes.length = R.axes.length := by
    by_contra differ
    simp [Step.mismatch?, differ] at fits
  rw [relations R (.head _), relations S (.tail _ (.head _))]
  simp only [OperandKind.axes, arity]

section

variable {O : TensorOps σ α} {allowed : Shape → Prop} (obeys : O.ObeysShapes E allowed)

include obeys

theorem guarded_scalars (gate : GateSet.Binary) (S T : Tensor α) :
    Guarded E (Step.misfit? n (.binary (.scalar gate) S T)) ((mk O n).scalars.binary gate S T) := by
  have onScalars : ∀ {f : Tensor α → Tensor α → Build σ (Tensor α)}, TensorOps.KeepsAxes E f →
      Guarded E ((unlike? .scalar n [S, T]).or none)
        ((mk O n).requireScalars [S, T] >>= fun _ => f S T) := by
    intro f keeps
    rw [requireScalars_eq]
    refine Guarded.or fun scalars => .of_makes (keeps ?_)
    have scalars := unlike?_eq_none scalars
    exact (scalars S (.head _)).trans (scalars T (.tail _ (.head _))).symm
  cases gate with
  | or => exact onScalars obeys.or
  | and => exact onScalars obeys.and
  | xor => exact onScalars obeys.xor
  | equ => exact onScalars obeys.equ
  | imp => exact onScalars obeys.imp
  | add => exact onScalars obeys.xor
  | leq => exact onScalars obeys.imp

/-- Moving coordinates checks the relation first, then the mapping. -/
theorem guarded_relReindex {R : Tensor α} {arity : Int} {mapping : List Int}
    (ok : allowed (.rectangular arity n)) :
    Guarded E (Step.misfit? n (.relReindex R arity mapping)) ((mk O n).relReindex R arity mapping) := by
  rw [relReindex, requireRelations_one, bind_assoc]
  refine Guarded.or fun relation => ?_
  have relation := unlike?_eq_none relation R (.head _)
  rw [← misfit?_relReindex relation]
  have size : (Shape.rectangular arity n).axes? = some (List.replicate arity.toNat n) := by
    simp [Shape.rectangular, Shape.axes?]
  exact ⟨fun _ found => obeys.misfit found, fun fits =>
    (obeys.reindex ok fits size).weaken fun _ _ => trivial⟩

theorem guarded_relExists (R : Tensor α) :
    Guarded E (Step.misfit? n (.unary .relExists R)) ((mk O n).relExists R) := by
  rw [relExists, requireRelations_one, bind_assoc]
  refine Guarded.or fun _ => ?_
  simp only [pure_bind, List.length_eq_zero_iff, Step.mismatch?]
  cases axes : R.axes with
  | nil => exact ⟨fun _ same => by rw [← Option.some.inj same]; rfl, nofun⟩
  | cons m ms => exact .of_makes (obeys.any axes)

/-- The steps whose operands the universe checks refuse for the misfits of their operands alone. -/
theorem guarded_run {step : Step (Tensor α)} (checked : step.kind?.isSome)
    (ok : ∀ shape ∈ step.shapes n, allowed shape) :
    Guarded E (step.misfit? n) (step.run (mk O n)) := by
  cases step with
  | unary op R =>
      have binary : ∀ {act rest : Build σ (Tensor α)} {P},
          act = ((mk O n).requireBinary [R] >>= fun _ => rest) →
          (R.axes = [n, n] → act.Makes E P) →
          Guarded E ((unlike? .binaryRelation n [R]).or none) act := by
        intro act rest P required makes
        rw [requireBinary_eq] at required
        exact .of_require required fun fits => makes (fits R (.head _))
      cases op with
      | scalarNot =>
          show Guarded E _ ((mk O n).requireScalars [R] >>= fun _ => O.not R)
          rw [requireScalars_eq]
          exact Guarded.or fun _ => .of_makes (obeys.not R)
      | comp => exact binary rfl obeys.comp
      | inv => exact binary rfl fun hR => obeys.inv hR (ok _ (.head _))
      | relComp =>
          show Guarded E _ ((mk O n).requireRelations [R] >>= fun _ => O.not R)
          rw [requireRelations_one, bind_assoc]
          exact Guarded.or fun _ => .of_makes (obeys.not R)
      | relExists => exact guarded_relExists obeys R
      | not => cases checked
      | any => cases checked
      | all => cases checked
  | binary op R S =>
      have binary : ∀ {act rest : Build σ (Tensor α)} {P},
          act = ((mk O n).requireBinary [R, S] >>= fun _ => rest) →
          (R.axes = [n, n] → S.axes = [n, n] → act.Makes E P) →
          Guarded E ((unlike? .binaryRelation n [R, S]).or none) act := by
        intro act rest P required makes
        rw [requireBinary_eq] at required
        exact .of_require required fun fits => makes (fits R (.head _)) (fits S (.tail _ (.head _)))
      cases op with
      | meet => exact binary rfl obeys.meet
      | join => exact binary rfl obeys.join
      | circ => exact binary rfl fun hR hS => obeys.circ hR hS (ok _ (.head _))
      | equals => exact binary rfl obeys.equals
      | leq => exact binary rfl obeys.leq
      | relMeet => exact guarded_onRelations obeys.and R S
      | relJoin => exact guarded_onRelations obeys.or R S
      | scalar gate => exact guarded_scalars obeys gate R S
      | or => cases checked
      | and => cases checked
      | xor => cases checked
      | equ => cases checked
      | imp => cases checked
      | deMorganJoin => cases checked
  | relReindex R arity mapping => exact guarded_relReindex obeys (ok _ (.head _))
  | _ => cases checked

end

/-! ## Storage -/

/-- A shape that cannot be stored is refused after the mapping. -/
theorem stored_reindex_refused (O : TensorOps σ α) {T : Tensor α} {shape : Shape} {mapping : List Int}
    {f : Fault} (fits : shape.misfit? T.shape mapping = none) (refused : shape.checkStorage = .error f) :
    O.stored.reindex T shape mapping = throw f := by
  show (Build.ofExcept (shape.checkReindex T.shape mapping) >>= fun _ =>
    .ofExcept shape.checkStorage >>= fun _ => O.reindex T shape mapping) = _
  rw [Shape.checkReindex, fits, refused]
  rfl

/-- A shape that cannot be stored is refused before a gate is called. -/
theorem run_unstorable (O : TensorOps σ α) {step : Step (Tensor α)} (checked : step.kind?.isSome)
    (fits : step.misfit? n = none) {shape : Shape} (asked : shape ∈ step.shapes n) {f : Fault}
    (refused : shape.checkStorage = .error f) : step.run (mk O.stored n) = throw f := by
  obtain ⟨kinds, others⟩ := Option.or_eq_none_iff.1 fits
  cases step with
  | unary op R =>
      cases op with
      | inv =>
          obtain rfl := List.mem_singleton.1 asked
          have binary : R.axes = [n, n] := unlike?_eq_none kinds R (.head _)
          show (mk O.stored n).inv R = _
          rw [inv, requireBinary_ok _ (by simp [binary]), pure_bind]
          exact stored_reindex_refused O
            (Tensor.misfit?_square (a := 1) (b := 0) binary (by decide) (by decide)) refused
      | _ => cases asked
  | binary op R S =>
      cases op with
      | circ =>
          obtain rfl := List.mem_singleton.1 asked
          have binary : R.axes = [n, n] := unlike?_eq_none kinds R (.head _)
          have binary' : S.axes = [n, n] := unlike?_eq_none kinds S (.tail _ (.head _))
          have cube := stored_reindex_refused O
            (Tensor.misfit?_square (a := 1) (b := 0) binary (by decide) (by decide)) refused
          have cube : (mk O.stored n).tensors.reindex R ((mk O.stored n).newShape 3) [1, 0] = throw f :=
            cube
          show (mk O.stored n).circ R S = _
          rw [circ, requireBinary_ok _ (by simp [binary, binary']), pure_bind, cube]
          rfl
      | _ => cases asked
  | relReindex R arity mapping =>
      obtain rfl := List.mem_singleton.1 asked
      have relation : R.axes = List.replicate R.axes.length n := unlike?_eq_none kinds R (.head _)
      have place := stored_reindex_refused O ((misfit?_relReindex relation arity mapping).trans others)
        refused
      have found : unlike? .relation n [R] = none := kinds
      show (mk O.stored n).relReindex R arity mapping = _
      rw [relReindex, requireRelations_one, found]
      exact place
  | _ => cases checked

/-! ## Refusals -/

/-- What a tensor operation would refuse is met by reindexings alone: a mapping of another length, or a target that is
no place. -/
theorem isInner_misfit? {step : Step (Tensor α)} {cause : Misfit} (found : step.misfit? n = some cause)
    (inner : cause.isInner) : ∃ R arity mapping, step = .relReindex R arity mapping ∧
      (cause = .uncovered mapping R.shape ∨
        ∃ target ∈ mapping, cause = .noTarget target (.rectangular arity n)) := by
  rw [Step.misfit?, Option.or_eq_some_iff] at found
  rcases found with found | ⟨-, found⟩
  · obtain ⟨kind, -, found⟩ := Option.bind_eq_some_iff.1 found
    obtain ⟨T, -, rfl⟩ := Option.map_eq_some_iff.1 found
    cases inner
  · cases step with
    | unary op R =>
        cases op with
        | relExists =>
            rw [Step.mismatch?] at found
            split at found
            · cases found
              cases inner
            · cases found
        | _ => cases found
    | binary op R S =>
        have arities : ∀ {P : Prop} [Decidable P] {k : Nat} {required found' : Shape},
            (if P then none else some (Misfit.arities k required found')) ≠ some cause := by
          intro P _ k required found' same
          split at same
          · cases same
          · cases same
            cases inner
        cases op with
        | relMeet => exact (arities found).elim
        | relJoin => exact (arities found).elim
        | _ => cases found
    | relReindex R arity mapping =>
        refine ⟨R, arity, mapping, rfl, ?_⟩
        rw [Step.mismatch?] at found
        split at found
        · obtain ⟨target, first, rfl⟩ := Option.map_eq_some_iff.1 found
          exact .inr ⟨target, List.mem_of_find?_eq_some first, rfl⟩
        · exact .inl (Option.some.inj found).symm
    | _ => cases found

/-- A step checks its operands before it does anything, and nothing goes wrong after that but storage. -/
structure RefusesMalformed (U : Universe σ α) (step : Step (Tensor α)) : Prop where
  /-- The step fails with a mismatch if and only if its operands are malformed. -/
  mismatch_iff : ∀ s, (∃ f t, (step.run U).runFrom s = (.error f, t) ∧ f.isMismatch) ↔
    step.Malformed U.size
  /-- It is then the failure for that cause alone, with no gate called before. -/
  refused : step.Malformed U.size → ∃ cause, step.misfit? U.size = some cause ∧
    step.run U = throw (.shapeMismatch cause)
  /-- The first operand that is not of the kind is named with the shape required and its own shape. -/
  operand : ∀ kind ∈ step.kind?, ∀ T,
    step.operands.find? (fun T => T.axes != kind.axes U.size T) = some T →
      step.run U = throw (.shapeMismatch (.operand kind U.size (.ofAxes (kind.axes U.size T)) T.shape))
  /-- A tensor operation finds a misfit only in the mapping of a reindexing. -/
  inner : ∀ cause, step.misfit? U.size = some cause → cause.isInner →
    ∃ R arity mapping, step = .relReindex R arity mapping ∧
      (cause = .uncovered mapping R.shape ∨
        ∃ target ∈ mapping, cause = .noTarget target (.rectangular arity U.size))
  /-- Other operands fail only for a shape that cannot be stored, with no gate called before. -/
  unstorable : ¬step.Malformed U.size → ∀ shape ∈ step.shapes U.size, ∀ f,
    shape.checkStorage = .error f → step.run U = throw f
  /-- Where all shapes can be stored, the step makes a tensor. -/
  succeeds : ¬step.Malformed U.size → (∀ shape ∈ step.shapes U.size, shape.checkStorage = .ok ()) →
    ∀ s, ∃ T t, (step.run U).runFrom s = (.ok T, t)

/-- Over lifted tensors of gates that never fail, the operations of a universe that check their operands refuse malformed
operands before any gate is called, and refuse no others. -/
theorem refuses_malformed {A : GateSet σ α} (gates : A.Total) (n : Nat) {step : Step (Tensor α)}
    (checked : step.kind?.isSome) : RefusesMalformed (mk (TensorOps.lifted A).stored n) step := by
  have other : TensorOps.ObeysShapes (fun f => f.isMismatch = false) (fun _ => True)
      (TensorOps.lifted A).stored :=
    (TensorOps.ObeysShapes.lifted gates.failsWithin).stored (fun _ _ => trivial)
      fun _ _ _ => Shape.isMismatch_of_checkStorage
  have guarded := guarded_run (n := n) other checked fun _ _ => trivial
  have fits : ¬step.Malformed n → step.misfit? n = none := fun well =>
    Option.not_isSome_iff_eq_none.1 (mt Step.isSome_misfit?.1 well)
  have refused : step.Malformed n → ∃ cause, step.misfit? n = some cause ∧
      step.run (mk (TensorOps.lifted A).stored n) = throw (.shapeMismatch cause) := by
    intro malformed
    obtain ⟨cause, found⟩ := Option.isSome_iff_exists.1 (Step.isSome_misfit?.2 malformed)
    exact ⟨cause, found, guarded.refused cause found⟩
  constructor
  case refused => exact refused
  case inner => exact fun _ => isInner_misfit?
  case mismatch_iff =>
    intro s
    constructor
    · rintro ⟨f, t, failed, mismatch⟩
      by_contra well
      have outcome := guarded.accepted (fits well) s
      rw [failed] at outcome
      have outcome : f.isMismatch = false := outcome
      rw [outcome] at mismatch
      cases mismatch
    · intro malformed
      obtain ⟨cause, -, failed⟩ := refused malformed
      exact ⟨_, s, by rw [failed]; rfl, rfl⟩
  case operand =>
    intro kind member T first
    refine guarded.refused _ ?_
    have first : step.operands.find? (fun T => T.axes != kind.axes n T) = some T := first
    rw [Step.misfit?, Option.mem_def.1 member, Option.bind_some, unlike?, first]
    rfl
  case unstorable =>
    exact fun well shape asked f refused => run_unstorable _ checked (fits well) asked refused
  case succeeds =>
    intro well storable s
    have never := (TensorOps.ObeysShapes.lifted gates).storable
    have outcome := (guarded_run never checked storable).accepted (fits well) s
    rcases run : (step.run (mk (TensorOps.lifted A).stored n)).runFrom s with ⟨f | T, t⟩
    · rw [run] at outcome
      exact outcome.elim
    · exact ⟨T, t, rfl⟩

/-- A composition over a circuit refuses its second operand, whose two axes differ, before a gate is made. -/
theorem refuses_malformed_circuit :
    let R : Tensor Nat := .ofFn [2, 2] fun _ _ => 0
    let S : Tensor Nat := .ofFn [2, 3] fun _ _ => 0
    (Step.binary .circ R S).kind?.isSome ∧ (Step.binary .circ R S).Malformed 2 ∧
    RefusesMalformed (mk (TensorOps.lifted (Circuit.gates id)).stored 2) (.binary .circ R S) := by
  intro R S
  refine ⟨rfl, .inl ⟨.binaryRelation, rfl, S, .tail _ (.head _), ?_⟩, ?_⟩
  · decide
  · exact refuses_malformed (Circuit.total_gates id) 2 rfl

/-- A relation that is moved to sixty-five coordinates is well-formed, but cannot be stored. -/
theorem relReindex_manyAxes :
    let step : Step (Tensor Bool) := .relReindex (.scalar true) 65 []
    (GateSet.boolean false : GateSet Unit Bool).Total ∧ ¬step.Malformed 1 ∧
    (step.run (mk (TensorOps.lifted (.boolean false)).stored 1)).runFrom () =
      (.error (.manyAxes 65), ()) := by
  have lawful : (GateSet.boolean false : GateSet Unit Bool).Lawful :=
    Valuation.respects_boolean Valuation.readsTruths_ofFn false
  refine ⟨lawful.total, ?_, rfl⟩
  rw [← Step.isSome_misfit?]
  decide

end Universe

end BoolCalculus
