import BoolCalculus.Proofs.Universe.Refusals

/-!
# What tensor operations refuse

An operation on lifted tensors refuses operands that do not fit, and has no other mismatches. It does so before a gate is
called, but for two operations that negate their first operand before: the conjunction over the first axis, and the
implication where it is derived (`Universe.tensors_refuse`). `Build.RefusesAfter` says what a construction has done
when it refuses.
-/

namespace BoolCalculus

variable {σ α β γ ρ : Type} {E : Fault → Prop}

/-! ## Late refusals -/

namespace Build

/-- Runs a construction after another one, if there is one. -/
def after? (before? : Option (Build σ γ)) (act : Build σ β) : Build σ β :=
  match before? with
  | none => act
  | some before => before >>= fun _ => act

/-- A misfit is refused after `before?`, and there are no other mismatches. -/
structure RefusesAfter (before? : Option (Build σ γ)) (misfit? : Option Misfit) (act : Build σ β) :
    Prop where
  /-- All that is done for a misfit is what comes before. -/
  refused : ∀ cause, misfit? = some cause → act = .after? before? (throw (.shapeMismatch cause))
  /-- A mismatch is the refusal of a misfit. -/
  mismatch : ∀ s f t, act.runFrom s = (.error f, t) → f.isMismatch →
    ∃ cause, misfit? = some cause ∧ f = .shapeMismatch cause
  /-- If nothing comes before, a mismatch is a failure that leaves the state alone. -/
  untouched : before? = none → ∀ s f t, act.runFrom s = (.error f, t) → f.isMismatch →
    act = throw f ∧ t = s

/-- What comes before need not be mentioned where it does nothing. -/
theorem bind_eq_after? {before : Build σ γ} {p : Prop} [Decidable p] (idle : ¬p → ∃ c, before = pure c)
    (act : Build σ β) : (before >>= fun _ => act) = .after? (if p then some before else none) act := by
  by_cases h : p
  · rw [if_pos h]
    rfl
  · obtain ⟨c, done⟩ := idle h
    rw [if_neg h, done, pure_bind]
    rfl

/-- What follows a failure is never run. -/
theorem throw_bind (f : Fault) (next : β → Build σ γ) : (throw f >>= next : Build σ γ) = throw f :=
  rfl

/-- What follows a construction matters for what it can make. -/
theorem Makes.bind_congr {P : β → Prop} {act : Build σ β} {next next' : β → Build σ γ}
    (made : act.Makes E P) (same : ∀ b, P b → next b = next' b) : act >>= next = act >>= next' := by
  apply ext_runFrom
  intro s
  have outcome := made s
  rcases run : act.runFrom s with ⟨f | b, t⟩
  all_goals rw [run] at outcome
  · rw [runFrom_bind_error run, runFrom_bind_error run]
  · rw [runFrom_bind_ok run, runFrom_bind_ok run, same b outcome]

theorem Makes.anything (act : Build σ β) : act.Makes (fun _ => True) fun _ => True := by
  intro s
  split <;> trivial

/-- A construction refuses after what comes before if that has no mismatches of its own, and if the construction makes
something where there is no misfit. -/
theorem RefusesAfter.of_makes {before? : Option (Build σ γ)} {misfit? : Option Misfit} {act : Build σ β}
    (refused : ∀ cause, misfit? = some cause → act = .after? before? (throw (.shapeMismatch cause)))
    (quiet : ∀ before ∈ before?, before.Makes (fun f => f.isMismatch = false) fun _ => True)
    (accepted : misfit? = none → act.Makes (fun f => f.isMismatch = false) fun _ => True) :
    act.RefusesAfter before? misfit? := by
  have mismatch : ∀ s f t, act.runFrom s = (.error f, t) → f.isMismatch →
      ∃ cause, misfit? = some cause ∧ f = .shapeMismatch cause := by
    intro s f t failed mismatch
    cases found : misfit? with
    | none =>
        have outcome := accepted found s
        rw [failed] at outcome
        exact absurd mismatch (Bool.eq_false_iff.1 outcome)
    | some cause =>
        refine ⟨cause, rfl, ?_⟩
        rw [refused cause found] at failed
        cases before? with
        | none => exact (Except.error.inj (Prod.mk.inj failed).1).symm
        | some before =>
            have outcome := quiet before rfl s
            rcases run : before.runFrom s with ⟨g | c, u⟩
            · rw [after?, runFrom_bind_error run] at failed
              rw [run, Except.error.inj (Prod.mk.inj failed).1] at outcome
              exact absurd mismatch (Bool.eq_false_iff.1 outcome)
            · rw [after?, runFrom_bind_ok run] at failed
              exact (Except.error.inj (Prod.mk.inj failed).1).symm
  refine ⟨refused, mismatch, ?_⟩
  rintro rfl s f t failed isMismatch
  obtain ⟨cause, found, rfl⟩ := mismatch s f t failed isMismatch
  have thrown : act = throw (.shapeMismatch cause) := refused cause found
  rw [thrown] at failed
  exact ⟨thrown, (Prod.mk.inj failed).2.symm⟩

/-- What is guarded is refused at once. -/
theorem RefusesAfter.of_guarded {misfit? : Option Misfit} {act : Build σ β}
    (guarded : Universe.Guarded (fun f => f.isMismatch = false) misfit? act) :
    act.RefusesAfter (none : Option (Build σ γ)) misfit? :=
  .of_makes guarded.refused nofun guarded.accepted

end Build

/-! ## Lifted operations, given or derived -/

namespace TensorOps

/-- Which of the pointwise operations are derived. -/
structure Derivations where
  xor : Bool
  equ : Bool
  imp : Bool

/-- The operations on tensors over a gate set, with some of the pointwise ones derived. -/
def liftedWith (A : GateSet σ α) (d : Derivations) : TensorOps σ α :=
  let own := lifted A
  let xor := if d.xor then Derived.xor own.or own.and own.not else own.xor
  { own with
    xor
    equ := if d.equ then Derived.equ own.not xor else own.equ
    imp := if d.imp then Derived.imp own.or own.not else own.imp }

section

variable (A : GateSet σ α) (d : Derivations)

theorem liftedWith_xor : (liftedWith A d).xor =
    if d.xor then Derived.xor (Tensor.zipBuild A.or) (Tensor.zipBuild A.and) (notCells A)
    else Tensor.zipBuild A.xor := rfl

theorem liftedWith_equ : (liftedWith A d).equ =
    if d.equ then Derived.equ (notCells A) (liftedWith A d).xor else Tensor.zipBuild A.equ := rfl

theorem liftedWith_imp : (liftedWith A d).imp =
    if d.imp then Derived.imp (Tensor.zipBuild A.or) (notCells A) else Tensor.zipBuild A.imp := rfl

end

theorem ObeysShapes.liftedWith {A : GateSet σ α} (gates : A.FailsWithin E) (d : Derivations) :
    (liftedWith A d).ObeysShapes E fun _ => True := by
  have own := ObeysShapes.lifted gates
  have xor : KeepsAxes E (TensorOps.liftedWith A d).xor := by
    rw [liftedWith_xor]
    split
    · exact .derivedXor own.or own.and own.not
    · exact own.xor
  have equ : KeepsAxes E (TensorOps.liftedWith A d).equ := by
    rw [liftedWith_equ]
    split
    · exact .derivedEqu own.not xor
    · exact own.equ
  have imp : KeepsAxes E (TensorOps.liftedWith A d).imp := by
    rw [liftedWith_imp]
    split
    · exact .derivedImp own.or own.not
    · exact own.imp
  exact { own with xor, equ, imp }

/-! ## Refusals by operation -/

section

variable {S T : Tensor α}

/-- Tensors of different axes are refused before any gate is called. -/
theorem zipBuild_unequal (f : α → α → Build σ α) (differ : S.axes ≠ T.axes) :
    Tensor.zipBuild f S T = throw (.shapeMismatch (.unequal S.shape T.shape)) :=
  dif_neg differ

/-- A tensor without axes is refused before any gate is called. -/
theorem anyCells_scalar (A : GateSet σ α) (scalar : T.axes = []) :
    anyCells A T = throw (.shapeMismatch .notReducible) := by
  obtain ⟨_, cells⟩ := T
  obtain rfl := scalar
  rfl

/-- Negation keeps the axes, whatever the gates do. -/
theorem makes_notCells (A : GateSet σ α) (T : Tensor α) :
    (notCells A T).Makes (fun _ => True) (·.axes = T.axes) :=
  .build fun _ _ => .anything _

/-- A derived implication negates the first operand before it finds that the second has another shape. -/
theorem derivedImp_unequal (A : GateSet σ α) (differ : S.axes ≠ T.axes) :
    Derived.imp (Tensor.zipBuild A.or) (notCells A) S T =
      notCells A S >>= fun _ => throw (.shapeMismatch (.unequal S.shape T.shape)) := by
  apply (makes_notCells A S).bind_congr
  intro notS axes
  rw [zipBuild_unequal A.or (axes ▸ differ), Tensor.shape, axes, ← Tensor.shape]

/-- The derived conjunction negates the one cell before it finds that there is no axis. -/
theorem derivedAll_scalar (A : GateSet σ α) (scalar : T.axes = []) :
    (lifted A).all T = notCells A T >>= fun _ => throw (.shapeMismatch .notReducible) := by
  apply (makes_notCells A T).bind_congr
  intro notT axes
  rw [anyCells_scalar A (axes.trans scalar), Build.throw_bind]

end

end TensorOps

namespace Universe

open TensorOps

/-- Whether a step is an operation on given tensors alone. -/
def Step.isTensor : Step ρ → Bool
  | .reindex _ _ _ => true
  | .unary .not _ | .unary .any _ | .unary .all _ => true
  | .binary .or _ _ | .binary .and _ _ | .binary .xor _ _ | .binary .equ _ _ | .binary .imp _ _ => true
  | _ => false

/-- Why the operands of a tensor operation do not fit. -/
def Step.unfit? : Step (Tensor α) → Option Misfit
  | .reindex T shape mapping => shape.misfit? T.shape mapping
  | .unary .any T | .unary .all T => if T.axes = [] then some .notReducible else none
  | .binary _ S T => if S.axes = T.axes then none else some (.unequal S.shape T.shape)
  | _ => none

/-- What a tensor operation has negated when it finds a misfit. -/
def Step.negated? (A : GateSet σ α) (d : Derivations) : Step (Tensor α) → Option (Build σ (Tensor α))
  | .unary .all T => some (notCells A T)
  | .binary .imp S _ => if d.imp ∧ Axes.volume S.axes ≠ 0 then some (notCells A S) else none
  | _ => none

/-- An operation on two tensors that fails at once where their shapes differ. -/
theorem guarded_unequal {f : Tensor α → Tensor α → Build σ (Tensor α)} (keeps : KeepsAxes E f)
    (unequal : ∀ {S T}, S.axes ≠ T.axes → f S T = throw (.shapeMismatch (.unequal S.shape T.shape)))
    (op : Binary) (S T : Tensor α) : Guarded E (Step.unfit? (.binary op S T)) (f S T) := by
  rw [Step.unfit?]
  by_cases same : S.axes = T.axes
  · rw [if_pos same]
    exact .of_makes (keeps same)
  · rw [if_neg same]
    refine ⟨?_, nofun⟩
    rintro _ ⟨⟩
    exact unequal same

section

variable {A : GateSet σ α} {d : Derivations} (gates : A.FailsWithin fun f => f.isMismatch = false)

theorem liftedWith_xor_unequal {S T : Tensor α} (differ : S.axes ≠ T.axes) :
    (liftedWith A d).xor S T = throw (.shapeMismatch (.unequal S.shape T.shape)) := by
  rw [liftedWith_xor]
  split
  · rw [Derived.xor, zipBuild_unequal A.or differ, Build.throw_bind]
  · exact zipBuild_unequal A.xor differ

theorem liftedWith_equ_unequal {S T : Tensor α} (differ : S.axes ≠ T.axes) :
    (liftedWith A d).equ S T = throw (.shapeMismatch (.unequal S.shape T.shape)) := by
  rw [liftedWith_equ]
  split
  · rw [Derived.equ, liftedWith_xor_unequal differ, Build.throw_bind]
  · exact zipBuild_unequal A.equ differ

/-- A derived implication of tensors without cells has nothing to negate. -/
theorem liftedWith_imp_unequal {S T : Tensor α} (differ : S.axes ≠ T.axes) :
    (liftedWith A d).imp S T = .after? (Step.negated? A d (.binary .imp S T))
      (throw (.shapeMismatch (.unequal S.shape T.shape))) := by
  rw [liftedWith_imp, Step.negated?]
  by_cases derived : d.imp
  · rw [if_pos derived, derivedImp_unequal A differ]
    apply Build.bind_eq_after?
    intro idle
    exact Tensor.build_empty (by simpa [derived] using idle) _
  · rw [if_neg derived, if_neg fun both => derived both.1]
    exact zipBuild_unequal A.imp differ

include gates

theorem obeys_liftedWith : (liftedWith A d).stored.ObeysShapes (fun f => f.isMismatch = false) fun _ => True :=
  (ObeysShapes.liftedWith gates d).stored (fun _ _ => trivial) fun _ _ _ => Shape.isMismatch_of_checkStorage

theorem quiet_notCells (T : Tensor α) :
    (notCells A T).Makes (fun f => f.isMismatch = false) fun _ => True :=
  (Build.Makes.notCells gates T).weaken fun _ _ => trivial

/-- A reindexing that fits fails at most for its new shape, which cannot be stored. -/
theorem guarded_reindex (T : Tensor α) (shape : Shape) (mapping : List Int) :
    Guarded (fun f => f.isMismatch = false) (Step.unfit? (.reindex T shape mapping))
      ((liftedWith A d).stored.reindex T shape mapping) := by
  have obeys := obeys_liftedWith (d := d) gates
  refine ⟨fun cause found => obeys.misfit found, fun fits => ?_⟩
  have fits : shape.misfit? T.shape mapping = none := fits
  cases check : shape.checkStorage with
  | error f =>
      rw [stored_reindex_refused _ fits check]
      exact .throw (Shape.isMismatch_of_checkStorage check)
  | ok =>
      obtain ⟨axes, size⟩ := Option.isSome_iff_exists.1 (Shape.isSome_axes?_of_checkStorage check)
      exact (obeys.reindex trivial fits size).weaken fun _ _ => trivial

theorem guarded_any (T : Tensor α) :
    Guarded (fun f => f.isMismatch = false) (Step.unfit? (.unary .any T)) ((liftedWith A d).stored.any T) := by
  rw [Step.unfit?]
  cases axes : T.axes with
  | nil =>
      refine ⟨?_, nofun⟩
      rintro _ ⟨⟩
      exact anyCells_scalar A axes
  | cons n ns =>
      have obeys := obeys_liftedWith (d := d) gates
      exact .of_makes (obeys.any axes)

/-- The derived conjunction refuses a tensor without axes after it has negated the cell. -/
theorem refusesAfter_all (T : Tensor α) :
    ((liftedWith A d).stored.all T).RefusesAfter (Step.negated? A d (.unary .all T))
      (Step.unfit? (.unary .all T)) := by
  rw [Step.unfit?, Step.negated?]
  cases axes : T.axes with
  | nil =>
      refine .of_makes ?_ ?_ nofun
      · rintro _ ⟨⟩
        exact derivedAll_scalar A axes
      · rintro _ ⟨⟩
        exact quiet_notCells gates T
  | cons n ns =>
      have obeys := obeys_liftedWith (d := d) gates
      refine .of_makes nofun ?_ fun _ => (obeys.all axes).weaken fun _ _ => trivial
      rintro _ ⟨⟩
      exact quiet_notCells gates T

/-- A derived implication refuses different axes after it has negated the first tensor. -/
theorem refusesAfter_imp (S T : Tensor α) :
    ((liftedWith A d).stored.imp S T).RefusesAfter (Step.negated? A d (.binary .imp S T))
      (Step.unfit? (.binary .imp S T)) := by
  have quiet : ∀ before ∈ Step.negated? A d (.binary .imp S T),
      before.Makes (fun f => f.isMismatch = false) fun _ => True := by
    intro before member
    rw [Step.negated?] at member
    split at member
    · cases member
      exact quiet_notCells gates S
    · cases member
  rw [Step.unfit?]
  by_cases same : S.axes = T.axes
  · have obeys := obeys_liftedWith (d := d) gates
    rw [if_pos same]
    exact .of_makes nofun quiet fun _ => (obeys.imp same).weaken fun _ _ => trivial
  · rw [if_neg same]
    refine .of_makes ?_ quiet nofun
    rintro _ ⟨⟩
    exact liftedWith_imp_unequal same

/-- An operation on lifted tensors refuses operands that do not fit, and has no mismatches but that. Except for a conjunction
over the first axis and a derived implication it does so before any gate is called. -/
theorem tensors_refuse (n : Nat) {step : Step (Tensor α)} (tensor : step.isTensor) :
    (step.run (mk (liftedWith A d).stored n)).RefusesAfter (step.negated? A d) step.unfit? := by
  have obeys := obeys_liftedWith (d := d) gates
  cases step with
  | reindex T shape mapping => exact .of_guarded (guarded_reindex gates T shape mapping)
  | unary op T =>
      cases op with
      | not => exact .of_guarded (.of_makes (obeys.not T))
      | any => exact .of_guarded (guarded_any gates T)
      | all => exact refusesAfter_all gates T
      | _ => cases tensor
  | binary op S T =>
      cases op with
      | or => exact .of_guarded (guarded_unequal obeys.or (zipBuild_unequal A.or) _ S T)
      | and => exact .of_guarded (guarded_unequal obeys.and (zipBuild_unequal A.and) _ S T)
      | xor => exact .of_guarded (guarded_unequal obeys.xor liftedWith_xor_unequal _ S T)
      | equ => exact .of_guarded (guarded_unequal obeys.equ liftedWith_equ_unequal _ S T)
      | imp => exact refusesAfter_imp gates S T
      | _ => cases tensor
  | _ => cases tensor

end

/-- A derived exclusive disjunction over a circuit refuses tensors of different shapes before a gate is made. -/
theorem tensors_refuse_circuit :
    let S : Tensor Nat := .ofFn [1] fun _ _ => 0
    let T : Tensor Nat := .ofFn [2] fun _ _ => 0
    let U := mk (liftedWith (Circuit.gates id) ⟨true, true, true⟩).stored 0
    (Step.binary .xor S T).isTensor ∧ (U.binary .xor S T).runFrom #[.input] =
      (.error (.shapeMismatch (.unequal ⟨[1]⟩ ⟨[2]⟩)), #[.input]) := by
  intro S T U
  have tensor : (Step.binary .xor S T).isTensor := rfl
  have refuses := tensors_refuse (d := ⟨true, true, true⟩) (Circuit.total_gates id).failsWithin 0 tensor
  have thrown : U.binary .xor S T = throw (.shapeMismatch (.unequal ⟨[1]⟩ ⟨[2]⟩)) :=
    refuses.refused _ rfl
  rw [thrown]
  exact ⟨tensor, rfl⟩

/-- A conjunction over the first axis that is not there, and a derived implication between tensors of different shapes, have
made a gate when they fail. -/
theorem refusals_allocate :
    let circuit : Circuit Nat := #[.input]
    let all : Build (Circuit Nat) (Tensor Nat) :=
      (TensorOps.lifted (Circuit.gates id)).stored.all (.scalar 0)
    let imp : Build (Circuit Nat) (Tensor Nat) :=
      (TensorOps.liftedDerived (Circuit.gates id)).stored.imp (.scalar 0) (.ofFn [1] fun _ _ => 0)
    all.runFrom circuit = (.error (.shapeMismatch .notReducible), #[.input, .not 0]) ∧
    imp.runFrom circuit = (.error (.shapeMismatch (.unequal ⟨[]⟩ ⟨[1]⟩)), #[.input, .not 0]) :=
  ⟨by with_unfolding_all rfl, by with_unfolding_all rfl⟩

end Universe

end BoolCalculus
