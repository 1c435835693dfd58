import BoolCalculus.Proofs.Tensor.Simulation
import BoolCalculus.Universe.Program
import Mathlib.Data.List.Forall2

/-!
# Simulation of universes

A universe over tensor operations that simulate others simulates the universe of the same size over those:
every operation of the universe, every step and so every program has the same outcomes. What has to be
allowed are the shapes that a step asks for (`Step.shapes`).
-/

namespace BoolCalculus

namespace Valuation

variable {σ α B : Type} {V : Valuation σ α B} {s : σ} {T : Tensor α} {X : Tensor B}
variable {O : TensorOps σ α} {P : TensorOps Unit B} {n : Nat}

theorem IsTensor.shape_eq (hT : V.IsTensor s T X) : X.shape = T.shape :=
  congrArg Shape.ofAxes hT.axes_eq

/-! ## Requirements -/

/-- What is required of a tensor is required of the one it is read as. -/
theorem Matches.require (hT : V.IsTensor s T X) {accepted accepted' : Bool}
    (same : accepted = accepted') (kind : OperandKind) {rank rank' : Nat} (ranks : rank = rank') :
    V.Matches (fun _ _ _ => True) s ((Universe.mk O n).require accepted kind rank T)
      ((Universe.mk P n).require accepted' kind rank' X) := by
  subst same ranks
  rw [Universe.require, Universe.require]
  cases accepted with
  | true => exact .pure trivial
  | false =>
      rw [hT.shape_eq]
      exact .throw _

/-- Requirements match in their order, so that the first one that fails is the same. -/
theorem Matches.forM {f : Tensor α → Build σ Unit} {g : Tensor B → Build Unit Unit}
    {Ts : List (Tensor α)} {Xs : List (Tensor B)} (h : List.Forall₂ (V.IsTensor s) Ts Xs)
    (each : ∀ {t T X}, V.IsTensor t T X → V.Matches (fun _ _ _ => True) t (f T) (g X)) :
    V.Matches (fun _ _ _ => True) s (Ts.forM f) (Xs.forM g) := by
  induction Ts generalizing s Xs with
  | nil =>
      cases h
      exact .pure trivial
  | cons T Ts ih =>
      cases h with
      | cons hT rest =>
          refine (each hT).bind fun later _ => ?_
          exact ih (rest.imp fun _ _ is => is.later later)

theorem isScalar_eq (hT : V.IsTensor s T X) :
    (Universe.mk O n).isScalar T = (Universe.mk P n).isScalar X := by
  rw [Universe.isScalar, Universe.isScalar, hT.shape_eq]

/-- Tensors that correspond have the same axes, so they are relations together. -/
theorem isRelation_eq (hT : V.IsTensor s T X) :
    (Universe.mk O n).isRelation T = (Universe.mk P n).isRelation X := by
  rw [Universe.isRelation, Universe.isRelation, hT.shape_eq]

theorem isBinaryRelation_eq (hT : V.IsTensor s T X) :
    (Universe.mk O n).isBinaryRelation T = (Universe.mk P n).isBinaryRelation X := by
  rw [Universe.isBinaryRelation, Universe.isBinaryRelation, isRelation_eq hT, hT.shape_eq]

variable {Ts : List (Tensor α)} {Xs : List (Tensor B)}

theorem Matches.requireScalars (h : List.Forall₂ (V.IsTensor s) Ts Xs) :
    V.Matches (fun _ _ _ => True) s ((Universe.mk O n).requireScalars Ts)
      ((Universe.mk P n).requireScalars Xs) :=
  .forM h fun hT => .require hT (isScalar_eq hT) _ rfl

theorem Matches.requireBinary (h : List.Forall₂ (V.IsTensor s) Ts Xs) :
    V.Matches (fun _ _ _ => True) s ((Universe.mk O n).requireBinary Ts)
      ((Universe.mk P n).requireBinary Xs) :=
  .forM h fun hT => .require hT (isBinaryRelation_eq hT) _ rfl

/-- The common arity is the same. -/
theorem Matches.requireRelations (h : List.Forall₂ (V.IsTensor s) Ts Xs) :
    V.Matches (fun _ rank rank' => rank = rank') s ((Universe.mk O n).requireRelations Ts)
      ((Universe.mk P n).requireRelations Xs) := by
  have each : ∀ {t T X}, V.IsTensor t T X → V.Matches (fun _ _ _ => True) t
      ((Universe.mk O n).require ((Universe.mk O n).isRelation T) .relation T.shape.rank T)
      ((Universe.mk P n).require ((Universe.mk P n).isRelation X) .relation X.shape.rank X) :=
    fun hT => .require hT (isRelation_eq hT) _ (by rw [hT.shape_eq])
  refine (Matches.forM h each).bind fun later _ => ?_
  cases h with
  | nil => exact .throw _
  | cons hT rest =>
      have rest := rest.imp fun _ _ is => is.later later
      refine (Matches.forM rest fun hS => ?_).bind fun _ _ => ?_
      · rw [hT.shape_eq, hS.shape_eq]
        split
        · exact .pure trivial
        · exact .throw _
      · exact .pure (by rw [hT.shape_eq])

/-! ## Operations -/

variable {allowed : Shape → Prop} {f : Tensor α → Build σ (Tensor α)}
variable {f' : Tensor B → Build Unit (Tensor B)} {g : Tensor α → Tensor α → Build σ (Tensor α)}
variable {g' : Tensor B → Tensor B → Build Unit (Tensor B)}

theorem MatchesUnary.onBinary (h : V.MatchesUnary f f') :
    V.MatchesUnary (fun R => do (Universe.mk O n).requireBinary [R]; f R)
      (fun R => do (Universe.mk P n).requireBinary [R]; f' R) := by
  intro s T X hT
  exact (Matches.requireBinary (.cons hT .nil)).bind fun later _ => h (hT.later later)

/-- Operations that match still do behind matching requirements. -/
theorem MatchesBinary.onBinary (h : V.MatchesBinary g g') :
    V.MatchesBinary (fun R S => do (Universe.mk O n).requireBinary [R, S]; g R S)
      (fun R S => do (Universe.mk P n).requireBinary [R, S]; g' R S) := by
  intro s S T X Y hS hT
  exact (Matches.requireBinary (.cons hS (.cons hT .nil))).bind fun later _ =>
    h (hS.later later) (hT.later later)

theorem MatchesBinary.onScalars (h : V.MatchesBinary g g') :
    V.MatchesBinary (fun R S => do (Universe.mk O n).requireScalars [R, S]; g R S)
      (fun R S => do (Universe.mk P n).requireScalars [R, S]; g' R S) := by
  intro s S T X Y hS hT
  exact (Matches.requireScalars (.cons hS (.cons hT .nil))).bind fun later _ =>
    h (hS.later later) (hT.later later)

theorem MatchesBinary.onRelations (h : V.MatchesBinary g g') :
    V.MatchesBinary (fun R S => do let _ ← (Universe.mk O n).requireRelations [R, S]; g R S)
      (fun R S => do let _ ← (Universe.mk P n).requireRelations [R, S]; g' R S) := by
  intro s S T X Y hS hT
  exact (Matches.requireRelations (.cons hS (.cons hT .nil))).bind fun later _ =>
    h (hS.later later) (hT.later later)

namespace Simulates

variable (sim : V.Simulates allowed O P)

include sim

theorem allAxes (k : Nat) :
    V.MatchesUnary ((Universe.mk O n).allAxes k) ((Universe.mk P n).allAxes k) := by
  induction k with
  | zero => exact fun _ _ _ hT => .pure hT
  | succ k ih => exact fun _ _ _ hT => (sim.all hT).bind fun _ all => ih all

theorem forAll : V.MatchesUnary (Universe.mk O n).forAll (Universe.mk P n).forAll := by
  intro s T X hT
  rw [Universe.forAll, Universe.forAll, hT.axes_eq]
  exact sim.allAxes _ hT

theorem comp : V.MatchesUnary (Universe.mk O n).comp (Universe.mk P n).comp :=
  sim.not.onBinary

theorem meet : V.MatchesBinary (Universe.mk O n).meet (Universe.mk P n).meet :=
  sim.and.onBinary

theorem join : V.MatchesBinary (Universe.mk O n).join (Universe.mk P n).join :=
  sim.or.onBinary

theorem deMorganJoin :
    V.MatchesBinary (Universe.mk O n).deMorganJoin (Universe.mk P n).deMorganJoin := by
  intro s S T X Y hS hT
  refine (sim.comp hS).bind fun first notS => ?_
  refine (sim.comp (hT.later first)).bind fun second notT => ?_
  refine (sim.meet (notS.later second) notT).bind fun _ neither => ?_
  exact sim.comp neither

theorem equals : V.MatchesBinary (Universe.mk O n).equals (Universe.mk P n).equals :=
  MatchesBinary.onBinary fun _ _ _ _ _ hS hT => (sim.equ hS hT).bind fun _ equ => sim.forAll equ

theorem leq : V.MatchesBinary (Universe.mk O n).leq (Universe.mk P n).leq :=
  MatchesBinary.onBinary fun _ _ _ _ _ hS hT => (sim.imp hS hT).bind fun _ imp => sim.forAll imp

theorem inv (square : allowed (.rectangular 2 n)) :
    V.MatchesUnary (Universe.mk O n).inv (Universe.mk P n).inv :=
  (sim.reindex [1, 0] square).onBinary

theorem circ (cube : allowed (.rectangular 3 n)) :
    V.MatchesBinary (Universe.mk O n).circ (Universe.mk P n).circ := by
  refine MatchesBinary.onBinary fun s S T X Y hS hT => ?_
  refine (sim.reindex [1, 0] cube hS).bind fun first left => ?_
  refine (sim.reindex [0, 2] cube (hT.later first)).bind fun second right => ?_
  refine (sim.and (left.later second) right).bind fun _ both => ?_
  exact sim.any both

/-- Squaring is simulated round by round. -/
theorem square (cube : allowed (.rectangular 3 n)) (k : Nat) :
    V.MatchesUnary ((Universe.mk O n).square k) ((Universe.mk P n).square k) := by
  induction k with
  | zero => exact fun _ _ _ hT => .pure hT
  | succ k ih =>
      intro s T X hT
      refine (sim.circ cube hT hT).bind fun first twice => ?_
      refine (sim.join (hT.later first) twice).bind fun _ joined => ?_
      exact ih joined

theorem diag (square : allowed (.rectangular 2 n)) :
    V.Matches V.IsTensor s (Universe.mk O n).diag (Universe.mk P n).diag :=
  sim.create _ square

theorem closure (reflexive : Bool) (square : reflexive → allowed (.rectangular 2 n))
    (cube : allowed (.rectangular 3 n)) :
    V.MatchesUnary ((Universe.mk O n).closure · reflexive)
      ((Universe.mk P n).closure · reflexive) := by
  intro s T X hT
  cases reflexive with
  | false => exact sim.square cube _ hT
  | true =>
      refine (sim.diag (square rfl)).bind fun first diagonal => ?_
      refine (sim.join (hT.later first) diagonal).bind fun _ joined => ?_
      exact sim.square cube _ joined

theorem relComp : V.MatchesUnary (Universe.mk O n).relComp (Universe.mk P n).relComp := by
  intro s T X hT
  exact (Matches.requireRelations (.cons hT .nil)).bind fun later _ => sim.not (hT.later later)

theorem relReindex (arity : Int) (mapping : List Int) (target : allowed (.rectangular arity n)) :
    V.MatchesUnary ((Universe.mk O n).relReindex · arity mapping)
      ((Universe.mk P n).relReindex · arity mapping) := by
  intro s T X hT
  exact (Matches.requireRelations (.cons hT .nil)).bind fun later _ =>
    sim.reindex mapping target (hT.later later)

theorem relExists : V.MatchesUnary (Universe.mk O n).relExists (Universe.mk P n).relExists := by
  intro s T X hT
  refine (Matches.requireRelations (.cons hT .nil)).bind ?_
  rintro t rank _ later rfl
  split
  · exact .throw _
  · exact sim.any (hT.later later)

/-! ### Scalars -/

theorem scalarsBinary (gate : GateSet.Binary) :
    V.MatchesBinary ((Universe.mk O n).scalars.binary gate) ((Universe.mk P n).scalars.binary gate) := by
  cases gate with
  | or => exact sim.or.onScalars
  | and => exact sim.and.onScalars
  | xor => exact sim.xor.onScalars
  | equ => exact sim.equ.onScalars
  | imp => exact sim.imp.onScalars
  | add => exact sim.xor.onScalars
  | leq => exact sim.imp.onScalars

theorem scalarsNot :
    V.MatchesUnary (Universe.mk O n).scalars.not (Universe.mk P n).scalars.not := by
  intro s T X hT
  exact (Matches.requireScalars (.cons hT .nil)).bind fun later _ => sim.not (hT.later later)

theorem scalarsTernary (gate : GateSet.Ternary) {R S T : Tensor α} {X Y Z : Tensor B}
    (hR : V.IsTensor s R X) (hS : V.IsTensor s S Y) (hT : V.IsTensor s T Z) :
    V.Matches V.IsTensor s ((Universe.mk O n).scalars.ternary gate R S T)
      ((Universe.mk P n).scalars.ternary gate X Y Z) := by
  cases gate with
  | ad3 =>
      refine (sim.scalarsBinary .add hR hS).bind fun first sum => ?_
      exact sim.scalarsBinary .add sum (hT.later first)
  | maj =>
      refine (sim.scalarsBinary .and hR hS).bind fun first both => ?_
      refine (sim.scalarsBinary .and (hR.later first) (hT.later first)).bind fun second ends => ?_
      have later := V.later_trans first second
      refine (sim.scalarsBinary .and (hS.later later) (hT.later later)).bind fun third last => ?_
      refine (sim.scalarsBinary .or (both.later (V.later_trans second third))
        (ends.later third)).bind fun fourth either => ?_
      exact sim.scalarsBinary .or either (last.later fourth)

end Simulates

end Valuation

end BoolCalculus
