import BoolCalculus.Proofs.GateSet.Existence
import BoolCalculus.Proofs.Universe.Refusals

/-!
# Tensors of elements that exist

Under a valuation that a gate set respects, every step of a universe over its lifted tensors, on tensors whose
cells exist, leaves a later state, also where the step is refused, and makes a tensor whose cells exist there
(`Valuation.Respects.keeps_step`). The shapes that are asked for may be refused by the storage. The scalars of
the universe are closed, as gates on tensors of any shape (`Valuation.Respects.closed_scalars`).
-/

namespace BoolCalculus

namespace Valuation

open Universe

variable {σ α B : Type} {V : Valuation σ α B} {s : σ}
variable {O : TensorOps σ α} {P : TensorOps Unit B} {allowed : Shape → Prop} {n : Nat}

variable (V) in
/-- The valuation that says which tensors a state has: those of whose cells it has every one. They have no
values. -/
def tensors : Valuation σ (Tensor α) Unit where
  Elem s T := ∀ c h, V.Elem s (T.get c h)
  value _ _ := ()
  Later := V.Later
  later_refl := V.later_refl
  later_trans := V.later_trans
  elem_later later there c h := V.elem_later later (there c h)
  value_later _ _ := rfl

/-- A tensor that exists is read cell by cell. -/
theorem tensors_is {T : Tensor α} (there : V.tensors.Elem s T) :
    V.IsTensor s T (T.map (V.value s)) :=
  ⟨there, rfl⟩

theorem Matches.ofExcept {β : Type} (r : Except Fault β) :
    V.Matches (fun _ _ _ => True) s (.ofExcept r) (.ofExcept r) :=
  Runs.ofExcept fun _ => trivial

/-- What makes a tensor as another construction does keeps to tensors that exist. -/
theorem Matches.keeps {act : Build σ (Tensor α)} {act' : Build Unit (Tensor B)}
    (same : V.Matches V.IsTensor s act act') : V.tensors.Keeps V.tensors.Elem s act :=
  Runs.keeps (V := V) same IsTensor.elem

/-- Where both sides have the limits of storage, they refuse the same shapes. -/
theorem Simulates.stored (sim : V.Simulates allowed O P) : V.Simulates allowed O.stored P.stored :=
  { sim with
    create := fun _ _ f ok => (Matches.ofExcept _).bind fun _ _ => sim.create f ok
    reindex := by
      intro shape mapping ok s T X hT
      show V.Matches V.IsTensor s (do
          .ofExcept (shape.checkReindex T.shape mapping)
          .ofExcept shape.checkStorage
          O.reindex T shape mapping) (do
          .ofExcept (shape.checkReindex X.shape mapping)
          .ofExcept shape.checkStorage
          P.reindex X shape mapping)
      rw [hT.shape_eq]
      refine (Matches.ofExcept _).bind fun first _ => (Matches.ofExcept _).bind fun second _ => ?_
      exact sim.reindex mapping ok (hT.later (V.later_trans first second)) }

/-- A step whose operands are looked up as they are is the step itself. -/
theorem resolve_pure {β : Type} (step : Step (Tensor α)) (run : Step (Tensor α) → Build σ β) :
    step.resolve pure >>= run = run step := by
  cases step <;> simp only [Step.resolve, pure_bind]

/-- A step on tensors whose cells are there makes such tensors. -/
theorem Simulates.keeps_step (sim : V.Simulates allowed O P) {step : Step (Tensor α)}
    (ok : ∀ shape ∈ step.shapes n, allowed shape) (there : ∀ T ∈ step.arguments, V.tensors.Elem s T) :
    V.tensors.Keeps V.tensors.Elem s (step.run (.mk O n)) := by
  have same : V.Matches V.IsTensor s (do (← step.resolve pure).run (.mk O n))
      (do (← step.resolve fun T => pure (T.map (V.value s))).run (.mk P n)) :=
    sim.resolve step ok fun later T member => .pure ((tensors_is (there T member)).later later)
  rw [resolve_pure] at same
  exact same.keeps

/-- The scalars of a universe are closed under its gates. -/
theorem Simulates.closed_scalars (sim : V.Simulates (fun _ => True) O P) (n : Nat) :
    V.tensors.Closed (Universe.mk O n).scalars where
  lift _ b := (sim.create (fun _ => b) trivial).keeps
  not hT := (sim.scalarsNot (tensors_is hT)).keeps
  binary gate _ _ _ hS hT := (sim.scalarsBinary gate (tensors_is hS) (tensors_is hT)).keeps
  zero _ := (sim.create (fun _ => false) trivial).keeps
  unit _ := (sim.create (fun _ => true) trivial).keeps
  ternary gate _ _ _ _ hR hS hT :=
    (sim.scalarsTernary gate (tensors_is hR) (tensors_is hS) (tensors_is hT)).keeps

/-- The truth value of a scalar is read, or refused, without a call of a gate. -/
theorem keeps_truthValue [Shown α] (U : Universe σ α) (T : Tensor α) :
    V.Keeps (fun _ _ => True) s (U.truthValue T) := by
  rw [truthValue, requireScalars_eq]
  cases unlike? .scalar U.size [T] with
  | some cause => exact .throw _
  | none =>
      rw [Build.refuse, pure_bind]
      split
      · split
        · exact .pure trivial
        · exact .throw _
      · exact .throw _

variable [BooleanAlgebra B] {A : GateSet σ α}

/-- Stored lifted tensors simulate stored lifted tensors over the Boolean algebra itself, also in what is refused. -/
theorem Respects.simulates_stored (respects : V.Respects A) :
    V.Simulates (fun _ => True) (TensorOps.lifted A).stored
      (TensorOps.lifted (GateSet.ofAlgebra : GateSet Unit B)).stored :=
  (Simulates.of_reads (.lifted respects) (.lifted GateSet.lawful_ofAlgebra)).stored

theorem Respects.keeps_step (respects : V.Respects A) (n : Nat) {step : Step (Tensor α)}
    (there : ∀ T ∈ step.arguments, V.tensors.Elem s T) :
    V.tensors.Keeps V.tensors.Elem s (step.run (.mk (TensorOps.lifted A).stored n)) :=
  respects.simulates_stored.keeps_step (fun _ _ => trivial) there

theorem Respects.closed_scalars (respects : V.Respects A) (n : Nat) :
    V.tensors.Closed (Universe.mk (TensorOps.lifted A).stored n).scalars :=
  respects.simulates_stored.closed_scalars n

end Valuation

end BoolCalculus
