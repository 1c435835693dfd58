import BoolCalculus.Proofs.Circuit.Evaluation
import BoolCalculus.Proofs.Universe.Predicates
import BoolCalculus.Proofs.Universe.RelationAlgebra

/-!
# Projections are existential quantifiers

Relations of every arity, with their unions, intersections, movings and projections, are predicates with
disjunction, conjunction, substitution and existential quantification: over dense tensors, and over lifted
tensors of every gate set that computes a Boolean algebra (`Universe.quantifierLaws`). A law is an equation
of formulas, and every formula runs to the tensor of its predicate (`Valuation.Reads.runs_formula`).
-/

namespace BoolCalculus

variable {σ α B : Type} {k l n : Nat}

namespace Universe

/-- A relation of arity `k` of a universe whose cells are all `there`. -/
abbrev Relation (U : Universe σ α) (there : α → Prop) (k : Nat) : Type :=
  {R : Tensor α // R.axes = List.replicate k U.size ∧ ∀ c h, there (R.get c h)}

/-- A relation of arity `k` with a new first coordinate, on which it does not depend. -/
def up (U : Universe σ α) (k : Nat) (S : Tensor α) : Build σ (Tensor α) :=
  U.relReindex S (k + 1 : Nat) (List.ofFn fun i : Fin k => (i.val : Int) + 1)

/-- The relations of every arity, with union, intersection, moving and projection, satisfy the laws of existential
quantification, as long as the arities that coordinates are moved to are `allowed`. What two constructions
make is compared by `Same` and by `Below`. -/
structure QuantifierLaws (U : Universe σ α) (there : α → Prop) (allowed : Nat → Prop)
    (Same Below : Build σ (Tensor α) → Build σ (Tensor α) → Prop) : Prop where
  below_up_exists : ∀ {k} (R : U.Relation there (k + 1)), allowed (k + 1) →
    Below (pure R) (do U.up k (← U.relExists R))
  exists_up_below : ∀ {k} (S : U.Relation there k), allowed (k + 1) →
    Below (do U.relExists (← U.up k S)) (pure S)
  /-- The projection is left adjoint to a new first coordinate. -/
  exists_below_iff : ∀ {k} (R : U.Relation there (k + 1)) (S : U.Relation there k), allowed (k + 1) →
    (Below (U.relExists R) (pure S) ↔ Below (pure R) (U.up k S))
  exists_meet : ∀ {k} (R : U.Relation there (k + 1)) (S : U.Relation there k), allowed (k + 1) →
    Same (do U.relExists (← U.relMeet R (← U.up k S))) (do U.relMeet (← U.relExists R) S)
  exists_join : ∀ {k} (R R' : U.Relation there (k + 1)),
    Same (do U.relExists (← U.relJoin R R')) (do U.relJoin (← U.relExists R) (← U.relExists R'))
  exists_move : ∀ {k l} (R : U.Relation there (k + 1)) (m : Fin k → Fin l), allowed (l + 1) →
    Same
      (do U.relExists (← U.relReindex R (l + 1 : Nat) (0 :: List.ofFn fun i => ((m i).val : Int) + 1)))
      (do U.relReindex (← U.relExists R) l (List.ofFn fun i => ((m i).val : Int)))
  exists_swap : ∀ {k} (Q : U.Relation there (k + 2)), allowed (k + 2) →
    Same
      (do U.relExists (← U.relExists
        (← U.relReindex Q (k + 2 : Nat) (1 :: 0 :: List.ofFn fun i : Fin k => (i.val : Int) + 2))))
      (do U.relExists (← U.relExists Q))

/-! ## Formulas -/

/-- The formulas of arity `k` with variables from `ι` for relations. -/
inductive Formula (ι : Nat → Type) : Nat → Type
  | var {k : Nat} (i : ι k) : Formula ι k
  | meet {k : Nat} (t u : Formula ι k) : Formula ι k
  | join {k : Nat} (t u : Formula ι k) : Formula ι k
  | move {k l : Nat} (m : Fin k → Fin l) (t : Formula ι k) : Formula ι l
  | ex {k : Nat} (t : Formula ι (k + 1)) : Formula ι k

namespace Formula

variable {ι : Nat → Type}

/-- The construction of a formula in a universe. -/
def run (U : Universe σ α) (R : ∀ {k}, ι k → Tensor α) : {k : Nat} → Formula ι k → Build σ (Tensor α)
  | _, var i => pure (R i)
  | _, meet t u => do U.relMeet (← t.run U R) (← u.run U R)
  | _, join t u => do U.relJoin (← t.run U R) (← u.run U R)
  | l, move m t => do U.relReindex (← t.run U R) l (List.ofFn fun i => ((m i).val : Int))
  | _, ex t => do U.relExists (← t.run U R)

/-- The predicate of a formula. -/
def predicate [BooleanAlgebra B] {n : Nat} (P : ∀ {k}, ι k → Predicate k n B) :
    {k : Nat} → Formula ι k → Predicate k n B
  | _, var i => P i
  | _, meet t u => t.predicate P ⊓ u.predicate P
  | _, join t u => t.predicate P ⊔ u.predicate P
  | _, move m t => (t.predicate P).move m
  | _, ex t => (t.predicate P).ex

/-- All arities that coordinates are moved to are allowed. -/
def Within (allowed : Nat → Prop) : {k : Nat} → Formula ι k → Prop
  | _, var _ => True
  | _, meet t u => t.Within allowed ∧ u.Within allowed
  | _, join t u => t.Within allowed ∧ u.Within allowed
  | l, move _ t => allowed l ∧ t.Within allowed
  | _, ex t => t.Within allowed

theorem ofFn_keep (m : Fin k → Fin l) :
    (List.ofFn fun i => ((Predicate.keep m i).val : Int)) =
      0 :: List.ofFn fun i => ((m i).val : Int) + 1 := by
  simp [List.ofFn_succ, Predicate.keep]

theorem ofFn_swap (k : Nat) :
    (List.ofFn fun i : Fin (k + 2) => ((Predicate.swap i).val : Int)) =
      1 :: 0 :: List.ofFn fun i : Fin k => (i.val : Int) + 2 := by
  rw [List.ofFn_succ, List.ofFn_succ]
  rfl

section

variable [BooleanAlgebra B] {U : Universe σ α} {there : α → Prop} {allowed : Nat → Prop}
variable {Same Below : Build σ (Tensor α) → Build σ (Tensor α) → Prop}
variable (P : ∀ {k}, U.Relation there k → Predicate k n B)

/-- The laws of existential quantification are equations and inequations of formulas that hold of all predicates. -/
theorem quantifierLaws_of_formulas
    (fewer : ∀ k, allowed (k + 1) → allowed k)
    (same : ∀ {k} (t u : Formula (U.Relation there) k), t.Within allowed → u.Within allowed →
      (Same (t.run U (·.1)) (u.run U (·.1)) ↔ t.predicate P = u.predicate P))
    (below : ∀ {k} (t u : Formula (U.Relation there) k), t.Within allowed → u.Within allowed →
      (Below (t.run U (·.1)) (u.run U (·.1)) ↔ t.predicate P ≤ u.predicate P)) :
    U.QuantifierLaws there allowed Same Below := by
  constructor
  case below_up_exists =>
    intro k R ok
    have law := below (var R) (move Fin.succ (ex (var R))) trivial ⟨ok, trivial⟩
    exact law.2 Predicate.le_move_ex
  case exists_up_below =>
    intro k S ok
    exact (below (ex (move Fin.succ (var S))) (var S) ⟨ok, trivial⟩ trivial).2 Predicate.ex_move_le
  case exists_below_iff =>
    intro k R S ok
    have left := below (ex (var R)) (var S) trivial trivial
    have right := below (var R) (move Fin.succ (var S)) trivial ⟨ok, trivial⟩
    exact (left.trans Predicate.ex_le_iff).trans right.symm
  case exists_meet =>
    intro k R S ok
    -- An operand of an operand is constructed here, so the binds have to be reassociated.
    have law := same (ex (meet (var R) (move Fin.succ (var S)))) (meet (ex (var R)) (var S))
      ⟨trivial, ok, trivial⟩ ⟨trivial, trivial⟩
    simp only [run, pure_bind, bind_assoc] at law
    exact law.2 Predicate.ex_inf
  case exists_join =>
    intro k R R'
    exact (same (ex (join (var R) (var R'))) (join (ex (var R)) (ex (var R')))
      ⟨trivial, trivial⟩ ⟨trivial, trivial⟩).2 Predicate.ex_sup
  case exists_move =>
    intro k l R m ok
    rw [← ofFn_keep]
    exact (same (ex (move (Predicate.keep m) (var R))) (move m (ex (var R)))
      ⟨ok, trivial⟩ ⟨fewer l ok, trivial⟩).2 (Predicate.ex_move_keep m _)
  case exists_swap =>
    intro k Q ok
    rw [← ofFn_swap]
    have law := same (ex (ex (move Predicate.swap (var Q)))) (ex (ex (var Q))) ⟨ok, trivial⟩ trivial
    simp only [run, pure_bind, bind_assoc] at law
    exact law.2 (Predicate.ex_ex_swap _)

end

end Formula

end Universe

namespace Valuation

open Universe

variable {V : Valuation σ α B} {O : TensorOps σ α} {s : σ} {act act' : Build σ (Tensor α)}
variable {X Y : Tensor B}

variable (V) in
/-- Two constructions, run from `s`, make tensors that are read as tensors in the given relation. -/
def Compares (le : Tensor B → Tensor B → Prop) (s : σ) (act act' : Build σ (Tensor α)) : Prop :=
  ∃ X Y, V.Runs V.IsTensor s act (.ok X) ∧ V.Runs V.IsTensor s act' (.ok Y) ∧ le X Y

theorem Compares.iff {le : Tensor B → Tensor B → Prop} (runs : V.Runs V.IsTensor s act (.ok X))
    (runs' : V.Runs V.IsTensor s act' (.ok Y)) : V.Compares le s act act' ↔ le X Y := by
  constructor
  · intro holds
    obtain ⟨X', Y', first, second, related⟩ := holds
    rwa [first.tensor_unique runs, second.tensor_unique runs'] at related
  · exact fun related => ⟨X, Y, runs, runs', related⟩

/-- A relation whose cells are there is read as a predicate. -/
theorem exists_isPredicate {R : Tensor α} (axes : R.axes = List.replicate k n)
    (there : ∀ c h, V.Elem s (R.get c h)) : ∃ P : Predicate k n B, V.IsPredicate s R P := by
  have axes : (R.map (V.value s)).axes = List.replicate k n := axes
  obtain ⟨P, same⟩ := Tensor.exists_ofPredicate axes
  exact ⟨P, there, same⟩

namespace Reads

variable [BooleanAlgebra B] {allowed : Shape → Prop} {arities : Nat → Prop}
variable (reads : V.Reads allowed O) (rectangular : ∀ k, arities k → allowed (.rectangular k n))

include reads rectangular

/-- The construction of a formula makes its predicate. -/
theorem runs_formula {ι : Nat → Type} {R : ∀ {k}, ι k → Tensor α} {P : ∀ {k}, ι k → Predicate k n B}
    (isP : ∀ {k} (i : ι k), V.IsPredicate s (R i) (P i)) (t : Formula ι k) (ok : t.Within arities) :
    V.Runs V.IsPredicate s (t.run (Universe.mk O n) R) (.ok (t.predicate P)) := by
  induction t generalizing s with
  | var i => exact .pure (isP i)
  | meet t u iht ihu =>
      refine (iht isP ok.1).bind_ok fun first left => ?_
      refine (ihu (fun i => (isP i).later first) ok.2).bind_ok fun second right => ?_
      exact reads.runs_relMeet (left.later second) right
  | join t u iht ihu =>
      refine (iht isP ok.1).bind_ok fun first left => ?_
      refine (ihu (fun i => (isP i).later first) ok.2).bind_ok fun second right => ?_
      exact reads.runs_relJoin (left.later second) right
  | move m t ih =>
      exact (ih isP ok.2).bind_ok fun _ made => reads.runs_relReindex (rectangular _ ok.1) m made
  | ex t ih => exact (ih isP ok).bind_ok fun _ made => reads.runs_relExists made

/-- The laws of quantification hold for all relations whose cells are there. -/
theorem hasQuantifierLaws (s : σ) {Same Below : Build σ (Tensor α) → Build σ (Tensor α) → Prop}
    (fewer : ∀ k, arities (k + 1) → arities k)
    (same : ∀ {act act' X Y}, V.Runs V.IsTensor s act (.ok X) →
      V.Runs V.IsTensor s act' (.ok Y) → (Same act act' ↔ X = Y))
    (below : ∀ {act act' X Y}, V.Runs V.IsTensor s act (.ok X) →
      V.Runs V.IsTensor s act' (.ok Y) → (Below act act' ↔ X ≤ Y)) :
    (Universe.mk O n).QuantifierLaws (V.Elem s) arities Same Below := by
  have read : ∀ k (R : (Universe.mk O n).Relation (V.Elem s) k),
      ∃ P : Predicate k n B, V.IsPredicate s R.1 P := fun k R => exists_isPredicate R.2.1 R.2.2
  choose P isP using read
  have runs := fun {k} (t : Formula ((Universe.mk O n).Relation (V.Elem s)) k) ok =>
    runs_isPredicate_iff.1 (reads.runs_formula rectangular (isP _) t ok)
  refine Formula.quantifierLaws_of_formulas (P _) fewer ?_ ?_
  · intro k t u okT okU
    exact (same (runs t okT) (runs u okU)).trans Tensor.ofPredicate_injective.eq_iff
  · intro k t u okT okU
    exact (below (runs t okT) (runs u okU)).trans Tensor.ofPredicate_le_iff

end Reads

end Valuation

namespace Universe

open BoolCalculus.Valuation

/-- Where elements are read as they are, tensors are compared as they are. -/
theorem agree_iff_eq {s : σ} {act act' : Build σ (Tensor α)} {X Y : Tensor α}
    (runs : (ofFn id : Valuation σ α α).Runs (ofFn id).IsTensor s act (.ok X))
    (runs' : (ofFn id : Valuation σ α α).Runs (ofFn id).IsTensor s act' (.ok Y)) :
    Build.Agree s act act' ↔ X = Y := by
  constructor
  · intro agree
    obtain ⟨T, yields, yields'⟩ := agree
    have first := Except.ok.inj (runs.yields_tensor.symm.trans yields)
    have second := Except.ok.inj (runs'.yields_tensor.symm.trans yields')
    exact first.trans second.symm
  · rintro rfl
    exact ⟨_, runs.yields_tensor, runs'.yields_tensor⟩

theorem below_iff_le [PartialOrder α] {s : σ} {act act' : Build σ (Tensor α)} {X Y : Tensor α}
    (runs : (ofFn id : Valuation σ α α).Runs (ofFn id).IsTensor s act (.ok X))
    (runs' : (ofFn id : Valuation σ α α).Runs (ofFn id).IsTensor s act' (.ok Y)) :
    Build.Below s act act' ↔ X ≤ Y := by
  constructor
  · intro below
    obtain ⟨S, T, yields, yields', le⟩ := below
    obtain rfl := Except.ok.inj (runs.yields_tensor.symm.trans yields)
    obtain rfl := Except.ok.inj (runs'.yields_tensor.symm.trans yields')
    exact le
  · exact fun le => ⟨_, _, runs.yields_tensor, runs'.yields_tensor, le⟩

/-- The arities of the relations of a universe that can be stored. -/
def Storable (n k : Nat) : Prop :=
  (Shape.rectangular k n).checkStorage = .ok ()

/-- Over dense tensors, and over lifted tensors of gates that compute any Boolean algebra, the relations over a
universe of every size satisfy the laws of existential quantification in every arity; over lifted tensors
of gates that are read in a Boolean algebra, they satisfy them up to their reading. For stored tensors
the relations that coordinates are moved to must be ones that can be stored. -/
theorem quantifierLaws (n : Nat) :
    (∀ {σ : Type} (s : σ), (mk .dense n : Universe σ Bool).QuantifierLaws (fun _ => True)
      (fun _ => True) (Build.Agree s) (Build.Below s)) ∧
    ∀ {σ α : Type} {A : GateSet σ α} (s : σ),
      (∀ [BooleanAlgebra α], A.Lawful →
        (mk (TensorOps.lifted A) n).QuantifierLaws (fun _ => True) (fun _ => True) (Build.Agree s)
          (Build.Below s) ∧
        (mk (TensorOps.lifted A).stored n).QuantifierLaws (fun _ => True) (Storable n)
          (Build.Agree s) (Build.Below s)) ∧
      ∀ {B : Type} [BooleanAlgebra B] {V : Valuation σ α B}, V.Respects A →
        (mk (TensorOps.lifted A) n).QuantifierLaws (V.Elem s) (fun _ => True)
          (V.Compares (· = ·) s) (V.Compares (· ≤ ·) s) ∧
        (mk (TensorOps.lifted A).stored n).QuantifierLaws (V.Elem s) (Storable n)
          (V.Compares (· = ·) s) (V.Compares (· ≤ ·) s) := by
  have fewer : ∀ k, Storable n (k + 1) → Storable n k := fun k =>
    Shape.checkStorage_rectangular (Nat.le_succ k)
  refine ⟨fun {σ} s => ?_, fun s => ⟨fun lawful => ?_, fun respects => ?_⟩⟩
  · have reads := Reads.dense (V := (.ofFn id : Valuation σ Bool Bool)) fun _ _ => ⟨trivial, rfl⟩
    have sizes := fun k (_ : True) => Tensor.isSome_axes?_rectangular k n
    exact reads.hasQuantifierLaws sizes s (fun _ => id) agree_iff_eq below_iff_le
  · have reads := Reads.lifted lawful
    constructor
    · exact reads.hasQuantifierLaws (fun _ => id) s (fun _ => id) agree_iff_eq below_iff_le
    · exact reads.stored.hasQuantifierLaws (fun _ ok => ⟨trivial, ok⟩) s fewer agree_iff_eq below_iff_le
  · have reads := Reads.lifted respects
    constructor
    · exact reads.hasQuantifierLaws (fun _ => id) s (fun _ => id) Compares.iff Compares.iff
    · exact reads.stored.hasQuantifierLaws (fun _ ok => ⟨trivial, ok⟩) s fewer Compares.iff Compares.iff

/-- Relations of pairs of truth values on three points, and relations of handles of a circuit with two inputs. -/
theorem quantifierLaws_pairs :
    (mk (TensorOps.lifted .ofAlgebra).stored 3 : Universe Unit (Bool × Bool)).QuantifierLaws
      (fun _ => True) (Storable 3) (Build.Agree ()) (Build.Below ()) ∧
    (mk (TensorOps.lifted (Circuit.gates id)).stored 3).QuantifierLaws
      ((Circuit.evaluation fun i => i == 0).Elem #[.input, .input]) (Storable 3)
      ((Circuit.evaluation fun i => i == 0).Compares (· = ·) #[.input, .input])
      ((Circuit.evaluation fun i => i == 0).Compares (· ≤ ·) #[.input, .input]) :=
  ⟨(((quantifierLaws 3).2 ()).1 GateSet.lawful_ofAlgebra).2,
    (((quantifierLaws 3).2 _).2 (Circuit.respects_evaluation fun i => i == 0)).2⟩

/-- What is projected after moving it to sixty-five coordinates cannot be stored, so the move to sixty-four coordinates
that is claimed to be the same, which is not refused for that, differs from it. -/
theorem exists_move_manyAxes :
    let U : Universe Unit Bool := mk (TensorOps.lifted (.boolean true)).stored 1
    let R : Tensor Bool := .ofFn [1] fun _ _ => true
    ((do U.relExists (← U.relReindex R (64 + 1) [0])).runFrom ()).1 = .error (.manyAxes 65) ∧
    (∀ f, ((do U.relReindex (← U.relExists R) 64 []).runFrom ()).1 = .error f → f ≠ .manyAxes 65) ∧
    ¬U.QuantifierLaws (fun _ => True) (fun _ => True) (Build.Agree ()) (Build.Below ()) := by
  intro U R
  have refused : ((do U.relExists (← U.relReindex R (64 + 1) [0])).runFrom ()).1 =
      .error (.manyAxes 65) := rfl
  refine ⟨refused, ?_, fun laws => ?_⟩
  · have reads := (Reads.lifted (lawful_boolean (σ := Unit) true)).stored
    have isR : (ofFn id : Valuation Unit Bool Bool).IsPredicate () R (fun _ : Fin 1 → Fin 1 => true) :=
      (isTensor_iff_eq fun _ _ => ⟨trivial, rfl⟩).2 rfl
    have storable : Storable 1 64 := rfl
    have moved := (reads.runs_relExists isR).bind_ok fun _ made =>
      reads.runs_relReindex (l := 64) ⟨trivial, storable⟩ Fin.elim0 made
    intro f failed
    cases failed.symm.trans (runs_isPredicate_iff.1 moved).yields_tensor
  · have law := laws.exists_move ⟨R, rfl, fun _ _ => trivial⟩ (Fin.elim0 : Fin 0 → Fin 64) trivial
    obtain ⟨T, yields, _⟩ := law
    cases refused.symm.trans yields

end Universe

end BoolCalculus
