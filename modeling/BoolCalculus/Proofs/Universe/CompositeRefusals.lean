import BoolCalculus.Proofs.Universe.TensorRefusals

/-!
# What composite operations of a universe refuse

A closure, a sum or carry of three scalars and a union by complements are composed of operations that check their operands one
after the other. They refuse the first operand that is not of their kind, and have no other mismatches, but some
operands are looked at only after a first operation has been built: the diagonal, the gate of the first two scalars,
the first complement (`Universe.composites_refuse`).
-/

namespace BoolCalculus.Universe

open TensorOps

variable {σ α ρ : Type} {E : Fault → Prop} {n : Nat}

/-! ## Operands -/

/-- The kind and the operands of a step that is composed of steps of the universe. -/
def Step.composite? : Step ρ → Option (OperandKind × List ρ)
  | .closure r _ => some (.binaryRelation, [r])
  | .scalarTernary _ r s t => some (.scalar, [r, s, t])
  | .binary .deMorganJoin r s => some (.binaryRelation, [r, s])
  | _ => none

/-- The first operand of a composite step that is not of its kind. -/
def Step.unlikeOperand? (n : Nat) (step : Step (Tensor α)) : Option Misfit :=
  step.composite?.bind fun (kind, operands) => unlike? kind n operands

/-- The operation on the first two scalars with which a sum or a carry begins. -/
def firstGate (U : Universe σ α) : GateSet.Ternary → Tensor α → Tensor α → Build σ (Tensor α)
  | .ad3 => U.tensors.xor
  | .maj => U.tensors.and

/-- What a composite step has built when it refuses an operand: the diagonal of a reflexive closure, the first gate if the
first two scalars are scalars, or the complement of the first relation if it is one. Where there are no points there are
no cells to build. -/
def Step.builtFirst? (U : Universe σ α) : Step (Tensor α) → Option (Build σ (Tensor α))
  | .closure _ reflexive => if reflexive ∧ U.size ≠ 0 then some U.diag else none
  | .scalarTernary gate R S _ =>
    if R.axes = [] ∧ S.axes = [] then some (U.firstGate gate R S) else none
  | .binary .deMorganJoin R _ =>
    if R.axes = [U.size, U.size] ∧ U.size ≠ 0 then some (U.tensors.not R) else none
  | _ => none

/-- The first operand that does not fit is found from the left. -/
theorem unlike?_append (kind : OperandKind) (first second : List (Tensor α)) :
    unlike? kind n (first ++ second) = (unlike? kind n first).or (unlike? kind n second) := by
  rw [unlike?, List.find?_append, Option.map_or, unlike?, unlike?]

theorem unlike?_of_axes {kind : OperandKind} {operands : List (Tensor α)}
    (fits : ∀ T ∈ operands, T.axes = kind.axes n T) : unlike? kind n operands = none := by
  simpa [unlike?] using fits

/-- An operand that is refused alone is refused before those that come after it, and after those that are accepted. -/
theorem unlike?_second {kind : OperandKind} {S T : Tensor α} (fits : S.axes = kind.axes n S) :
    unlike? kind n [S, T] = unlike? kind n [T] := by
  have accepted : unlike? kind n [S] = none := unlike?_of_axes (by simp [fits])
  have split := unlike?_append (n := n) kind [S] [T]
  rwa [accepted, Option.none_or] at split

/-- Once an operand does not fit, the others are not looked at. -/
theorem unlike?_first {kind : OperandKind} {T : Tensor α} {cause : Misfit}
    (found : unlike? kind n [T] = some cause) (rest : List (Tensor α)) :
    unlike? kind n (T :: rest) = some cause := by
  have split := unlike?_append (n := n) kind [T] rest
  rwa [found, Option.some_or] at split

/-! ## Scalars and relations -/

section

variable {O : TensorOps σ α} {f : Tensor α → Tensor α → Build σ (Tensor α)} {R S T : Tensor α} {cause : Misfit}

/-- A scalar operation refuses the operand that does not fit before it is run. -/
theorem onScalars_unlike (found : unlike? .scalar n [S, T] = some cause) :
    ((mk O n).requireScalars [S, T] >>= fun _ => f S T) = throw (.shapeMismatch cause) := by
  rw [requireScalars_eq, found]
  rfl

theorem onScalars_eq (hS : S.axes = []) (hT : T.axes = []) :
    ((mk O n).requireScalars [S, T] >>= fun _ => f S T) = f S T := by
  rw [requireScalars_ok _ (by simp [hS, hT]), pure_bind]

theorem makes_onScalars (keeps : KeepsAxes E f) (hS : S.axes = []) (hT : T.axes = []) :
    ((mk O n).requireScalars [S, T] >>= fun _ => f S T).Makes E (·.axes = []) := by
  rw [onScalars_eq hS hT]
  exact (keeps (hS.trans hT.symm)).weaken fun _ same => same.trans hS

theorem comp_unlike (found : unlike? .binaryRelation n [R] = some cause) :
    (mk O n).comp R = throw (.shapeMismatch cause) := by
  rw [comp, requireBinary_eq, found]
  rfl

/-- A relation that does not fit is refused by the first squaring. -/
theorem square_unlike (found : unlike? .binaryRelation n [R] = some cause) (k : Nat) :
    (mk O n).square (k + 1) R = throw (.shapeMismatch cause) := by
  have circ : (mk O n).circ R R = throw (.shapeMismatch cause) := by
    rw [circ, requireBinary_eq, unlike?_first found]
    rfl
  rw [square, circ, Build.throw_bind]

variable {allowed : Shape → Prop} (obeys : O.ObeysShapes E allowed)

include obeys

/-- A ternary operation refuses its third operand after it has run on the first two. -/
theorem ternary_refused (gate : GateSet.Ternary)
    (found : Step.unlikeOperand? n (.scalarTernary gate R S T) = some cause) :
    (mk O n).scalars.ternary gate R S T =
      .after? (Step.builtFirst? (mk O n) (.scalarTernary gate R S T)) (throw (.shapeMismatch cause)) := by
  have found : (unlike? .scalar n [R, S]).or (unlike? .scalar n [T]) = some cause := by
    rwa [← unlike?_append]
  rw [Step.builtFirst?]
  cases first : unlike? .scalar n [R, S] with
  | some earlier =>
      have both : ¬(R.axes = [] ∧ S.axes = []) := by
        rintro ⟨hR, hS⟩
        rw [unlike?_of_axes (by simp [OperandKind.axes, hR, hS])] at first
        cases first
      rw [first, Option.some_or] at found
      obtain rfl := Option.some.inj found
      rw [if_neg both]
      cases gate with
      | ad3 =>
          show ((mk O n).scalars.add R S >>= fun RS => (mk O n).scalars.add RS T) = _
          rw [show (mk O n).scalars.add R S = _ from onScalars_unlike first]
          rfl
      | maj =>
          show ((mk O n).scalars.and R S >>= _) = _
          rw [show (mk O n).scalars.and R S = _ from onScalars_unlike first]
          rfl
  | none =>
      have scalars := unlike?_eq_none first
      have hR : R.axes = [] := scalars R (.head _)
      have hS : S.axes = [] := scalars S (.tail _ (.head _))
      have third : ∀ X : Tensor α, X.axes = [] → unlike? .scalar n [X, T] = some cause := by
        intro X hX
        rw [unlike?_second hX]
        rwa [first, Option.none_or] at found
      rw [if_pos ⟨hR, hS⟩]
      cases gate with
      | ad3 =>
          show ((mk O n).scalars.add R S >>= fun RS => (mk O n).scalars.add RS T) = _
          rw [show (mk O n).scalars.add R S = O.xor R S from onScalars_eq hR hS]
          apply (obeys.xor (hR.trans hS.symm)).bind_congr
          intro RS axes
          exact onScalars_unlike (third RS (axes.trans hR))
      | maj =>
          show ((mk O n).scalars.and R S >>= fun _ => (mk O n).scalars.and R T >>= _) = _
          rw [show (mk O n).scalars.and R S = O.and R S from onScalars_eq hR hS,
            show (mk O n).scalars.and R T = _ from onScalars_unlike (third R hR)]
          rfl

theorem makes_ternary (gate : GateSet.Ternary) (hR : R.axes = []) (hS : S.axes = []) (hT : T.axes = []) :
    ((mk O n).scalars.ternary gate R S T).Makes E (·.axes = []) := by
  have and : ∀ {X Y : Tensor α}, X.axes = [] → Y.axes = [] →
      ((mk O n).scalars.and X Y).Makes E (·.axes = []) := makes_onScalars obeys.and
  have or : ∀ {X Y : Tensor α}, X.axes = [] → Y.axes = [] →
      ((mk O n).scalars.or X Y).Makes E (·.axes = []) := makes_onScalars obeys.or
  cases gate with
  | ad3 =>
      apply (makes_onScalars obeys.xor hR hS).bind
      intro RS axes
      exact makes_onScalars obeys.xor axes hT
  | maj =>
      apply (and hR hS).bind
      intro RS axesRS
      apply (and hR hT).bind
      intro RT axesRT
      apply (and hS hT).bind
      intro ST axesST
      apply (or axesRS axesRT).bind
      intro either axes
      exact or axes axesST

theorem makes_deMorganJoin (hR : R.axes = [n, n]) (hS : S.axes = [n, n]) :
    ((mk O n).deMorganJoin R S).Makes E (·.axes = [n, n]) := by
  apply (obeys.comp hR).bind
  intro notR axesR
  apply (obeys.comp hS).bind
  intro notS axesS
  apply (obeys.meet axesR axesS).bind
  intro neither axes
  exact obeys.comp axes

variable (create : ∀ {shape : Shape} {axes : List Nat} (f : List Nat → Bool), shape.axes? = some axes →
  (O.create shape f).Makes E (·.axes = axes))

include create

omit obeys in
theorem makes_diag : (mk O n).diag.Makes E (·.axes = [n, n]) :=
  create _ (Tensor.axes?_rectangular 2)

theorem makes_closure (cube : allowed (.rectangular 3 n)) (reflexive : Bool) (hR : R.axes = [n, n]) :
    ((mk O n).closure R reflexive).Makes E (·.axes = [n, n]) := by
  cases reflexive with
  | false => exact obeys.square cube _ hR
  | true =>
      apply (makes_diag create).bind
      intro D axes
      apply (obeys.join hR axes).bind
      intro both axes
      exact obeys.square cube _ axes

/-- What is built before a refusal can be built. -/
theorem makes_builtFirst {step : Step (Tensor α)} {before : Build σ (Tensor α)}
    (member : before ∈ step.builtFirst? (mk O n)) : before.Makes E fun _ => True := by
  cases step with
  | closure R reflexive =>
      obtain ⟨_, ⟨⟩⟩ := Option.mem_ite_none_right.1 member
      exact (makes_diag create).weaken fun _ _ => trivial
  | scalarTernary gate R S T =>
      obtain ⟨⟨hR, hS⟩, ⟨⟩⟩ := Option.mem_ite_none_right.1 member
      have same : R.axes = S.axes := hR.trans hS.symm
      cases gate with
      | ad3 => exact (obeys.xor same).weaken fun _ _ => trivial
      | maj => exact (obeys.and same).weaken fun _ _ => trivial
  | binary op R S =>
      cases op with
      | deMorganJoin =>
          obtain ⟨_, ⟨⟩⟩ := Option.mem_ite_none_right.1 member
          exact (obeys.not R).weaken fun _ _ => trivial
      | _ => cases member
  | _ => cases member

/-- A composite step whose operands are of its kind makes a tensor. -/
theorem makes_composite (cube : allowed (.rectangular 3 n)) {step : Step (Tensor α)}
    (composite : step.composite?.isSome) (fits : step.unlikeOperand? n = none) :
    (step.run (mk O n)).Makes E fun _ => True := by
  cases step with
  | closure R reflexive =>
      have hR := unlike?_eq_none fits R (.head _)
      exact (makes_closure obeys create cube reflexive hR).weaken fun _ _ => trivial
  | scalarTernary gate R S T =>
      have scalars := unlike?_eq_none fits
      have hR := scalars R (.head _)
      have hS := scalars S (.tail _ (.head _))
      have hT := scalars T (.tail _ (.tail _ (.head _)))
      exact (makes_ternary obeys gate hR hS hT).weaken fun _ _ => trivial
  | binary op R S =>
      cases op with
      | deMorganJoin =>
          have relations := unlike?_eq_none fits
          have hR := relations R (.head _)
          have hS := relations S (.tail _ (.head _))
          exact (makes_deMorganJoin obeys hR hS).weaken fun _ _ => trivial
      | _ => cases composite
  | _ => cases composite

end

section

variable {A : GateSet σ α} {d : Derivations} {R S T : Tensor α} {cause : Misfit}

/-- The join by De Morgan's law refuses its second operand after the complement of the first. -/
theorem deMorganJoin_refused
    (found : Step.unlikeOperand? n (.binary .deMorganJoin R S) = some cause) :
    (mk (liftedWith A d).stored n).deMorganJoin R S =
      .after? (Step.builtFirst? (mk (liftedWith A d).stored n) (.binary .deMorganJoin R S))
        (throw (.shapeMismatch cause)) := by
  have found : unlike? .binaryRelation n [R, S] = some cause := found
  rw [Step.builtFirst?]
  cases first : unlike? .binaryRelation n [R] with
  | some earlier =>
      have other : R.axes ≠ [n, n] := by
        intro hR
        rw [unlike?_of_axes (by simp [OperandKind.axes, hR])] at first
        cases first
      rw [unlike?_first first] at found
      obtain rfl := Option.some.inj found
      rw [if_neg fun both => other both.1]
      show ((mk (liftedWith A d).stored n).comp R >>= _) = _
      rw [comp_unlike first]
      rfl
  | none =>
      have hR : R.axes = [n, n] := unlike?_eq_none first R (.head _)
      rw [unlike?_second hR] at found
      have late : (mk (liftedWith A d).stored n).deMorganJoin R S =
          notCells A R >>= fun _ => throw (.shapeMismatch cause) := by
        show ((mk (liftedWith A d).stored n).comp R >>= fun _ =>
          (mk (liftedWith A d).stored n).comp S >>= _) = _
        rw [comp_unlike found, comp, requireBinary_ok _ (by simp [hR]), pure_bind]
        rfl
      rw [late]
      apply Build.bind_eq_after?
      intro idle
      exact Tensor.build_empty (by simp_all [Axes.volume]) _

/-- A diagonal that can be stored is built cell by cell. -/
theorem diag_eq (storable : (Shape.rectangular 2 n).checkStorage = .ok ()) :
    (mk (liftedWith A d).stored n).diag = Tensor.build [n, n] fun coord _ => A.lift (coord[0]? == coord[1]?) := by
  have axes : (Shape.rectangular 2 n).axes? = some [n, n] := Tensor.axes?_rectangular 2
  show (Build.ofExcept (Shape.rectangular 2 n).checkStorage >>= fun _ =>
    liftCells A (.rectangular 2 n) fun coord => coord[0]? == coord[1]?) = _
  rw [storable, liftCells, axes]
  rfl

/-- The closure refuses its operand after the diagonal was built, if there is one. -/
theorem closure_refused {reflexive : Bool}
    (found : Step.unlikeOperand? n (.closure R reflexive) = some cause) :
    (mk (liftedWith A d).stored n).closure R reflexive =
      .after? (Step.builtFirst? (mk (liftedWith A d).stored n) (.closure R reflexive))
        (throw (.shapeMismatch cause)) := by
  have found : unlike? .binaryRelation n [R] = some cause := found
  rw [Step.builtFirst?]
  cases reflexive with
  | false => exact square_unlike found _
  | true =>
      have late : (mk (liftedWith A d).stored n).closure R true =
          (mk (liftedWith A d).stored n).diag >>= fun _ => throw (.shapeMismatch cause) := by
        show ((mk (liftedWith A d).stored n).diag >>= fun D =>
          (mk (liftedWith A d).stored n).join R D >>= _) = _
        congr 1
        funext D
        rw [join, requireBinary_eq, unlike?_first found]
        rfl
      rw [late]
      apply Build.bind_eq_after?
      intro idle
      obtain rfl : n = 0 := by simpa using idle
      have storable : (Shape.rectangular 2 0).checkStorage = .ok () := rfl
      rw [diag_eq storable]
      exact Tensor.build_empty rfl _

/-- A tensor of lifted values fails at most like the gates, or because it cannot be stored. -/
theorem makes_create (gates : A.FailsWithin fun f => f.isMismatch = false) {shape : Shape} {axes : List Nat}
    (f : List Nat → Bool) (size : shape.axes? = some axes) :
    ((liftedWith A d).stored.create shape f).Makes (fun f => f.isMismatch = false) (·.axes = axes) := by
  show (Build.ofExcept shape.checkStorage >>= fun _ => liftCells A shape f).Makes _ _
  rw [liftCells, size]
  cases check : shape.checkStorage with
  | error f => exact .throw (Shape.isMismatch_of_checkStorage check)
  | ok => exact .build fun c _ => gates.lift (f c)

/-- A closure, a sum or carry of three scalars and a union by complements over lifted tensors refuse the first operand that is
not of their kind, and have no mismatches but that. They refuse it before any gate is called, except for the diagonal of
a reflexive closure, for a third operand after two scalars and for a second operand after a relation. -/
theorem composites_refuse (gates : A.FailsWithin fun f => f.isMismatch = false) (n : Nat)
    {step : Step (Tensor α)} (composite : step.composite?.isSome) :
    (step.run (mk (liftedWith A d).stored n)).RefusesAfter
      (step.builtFirst? (mk (liftedWith A d).stored n)) (step.unlikeOperand? n) := by
  have obeys := obeys_liftedWith (d := d) gates
  have refused : ∀ cause, step.unlikeOperand? n = some cause → step.run (mk (liftedWith A d).stored n) =
      .after? (step.builtFirst? (mk (liftedWith A d).stored n)) (throw (.shapeMismatch cause)) := by
    intro cause found
    cases step with
    | closure R reflexive => exact closure_refused found
    | scalarTernary gate R S T => exact ternary_refused obeys gate found
    | binary op R S =>
        cases op with
        | deMorganJoin => exact deMorganJoin_refused found
        | _ => cases composite
    | _ => cases composite
  apply Build.RefusesAfter.of_makes refused
  · intro before member
    exact makes_builtFirst obeys (makes_create gates) member
  · intro fits
    exact makes_composite obeys (makes_create gates) trivial composite fits

end

/-- A closure over a circuit refuses a tensor with one axis before a gate is made. -/
theorem composites_refuse_circuit :
    let step : Step (Tensor Nat) := .closure (.ofFn [3] fun _ _ => 0) false
    let U := mk (liftedWith (Circuit.gates id) ⟨false, false, false⟩).stored 2
    step.composite?.isSome ∧ (step.run U).runFrom #[.input] =
      (.error (.shapeMismatch (.operand .binaryRelation 2 ⟨[2, 2]⟩ ⟨[3]⟩)), #[.input]) := by
  intro step U
  have composite : step.composite?.isSome := rfl
  have refuses := composites_refuse (d := ⟨false, false, false⟩) (Circuit.total_gates id).failsWithin 2 composite
  have thrown : step.run U = throw (.shapeMismatch (.operand .binaryRelation 2 ⟨[2, 2]⟩ ⟨[3]⟩)) :=
    refuses.refused _ rfl
  rw [thrown]
  exact ⟨composite, rfl⟩

/-- A reflexive closure of a tensor that is no relation, a carry whose third operand is no scalar and a union by complements
whose second operand is no relation have made a gate when they fail. -/
theorem composites_allocate :
    let circuit : Circuit Nat := #[.input]
    let U := mk (TensorOps.lifted (Circuit.gates id)).stored 1
    let other : Tensor Nat := .ofFn [3] fun _ _ => 0
    let cell : Tensor Nat := .ofFn [1, 1] fun _ _ => 0
    (U.closure other true).runFrom circuit =
      (.error (.shapeMismatch (.operand .binaryRelation 1 ⟨[1, 1]⟩ ⟨[3]⟩)), #[.input, .const true]) ∧
    (U.scalars.maj (.scalar 0) (.scalar 0) other).runFrom circuit =
      (.error (.shapeMismatch (.operand .scalar 1 ⟨[]⟩ ⟨[3]⟩)), #[.input, .and 0 0]) ∧
    (U.deMorganJoin cell other).runFrom circuit =
      (.error (.shapeMismatch (.operand .binaryRelation 1 ⟨[1, 1]⟩ ⟨[3]⟩)), #[.input, .not 0]) :=
  ⟨by with_unfolding_all rfl, by with_unfolding_all rfl, by with_unfolding_all rfl⟩

end BoolCalculus.Universe
