import BoolCalculus.Proofs.GateSet.Metered
import BoolCalculus.Proofs.Tensor.Axes

/-!
# The cost of lifted tensors

Lifted tensor operations call a gate for every cell that they make, and a disjunction over the first axis one for every
cell that it goes through, besides its start, which is made once (`TensorOps.Meters.lifted`). The limits of storage call nothing.
-/

namespace BoolCalculus

open Build

variable {σ α : Type} {E : Fault → Prop} {M : GateSet (Metered σ) α} {A : GateSet σ α} {k n : Nat} {ns : List Nat}

/-! ## Loops -/

namespace Build.CallsExactly

/-- A tensor that is built calls what its cells call. -/
theorem build {axes : List Nat} {f : (c : List Nat) → Axes.InBounds axes c → Build (Metered σ) α}
    {g : (c : List Nat) → Axes.InBounds axes c → Build σ α}
    (each : ∀ c h, CallsExactly E k (fun _ => True) (f c h) (g c h)) :
    CallsExactly E (Axes.volume axes * k) (·.axes = axes) (Tensor.build axes f) (Tensor.build axes g) := by
  have cells := ofFnM fun j : Fin (Axes.volume axes) => each (Axes.coordAt axes j) (Axes.inBounds_coordAt j.isLt)
  exact of_eq (cells.bind fun _ _ => .pure rfl) (Nat.add_zero _)

theorem zipBuild {f : α → α → Build (Metered σ) α} {g : α → α → Build σ α} {S T : Tensor α}
    (each : ∀ a b, CallsExactly E k (fun _ => True) (f a b) (g a b)) (same : S.axes = T.axes) :
    CallsExactly E (Axes.volume S.axes * k) (·.axes = S.axes) (Tensor.zipBuild f S T) (Tensor.zipBuild g S T) := by
  rw [Tensor.zipBuild, Tensor.zipBuild, dif_pos same, dif_pos same]
  exact .build fun _ _ => each _ _

theorem liftCells {shape : Shape} {axes : List Nat} (meters : M.Meters E A) (f : List Nat → Bool)
    (size : shape.axes? = some axes) : CallsExactly E (Axes.volume axes) (·.axes = axes)
      (TensorOps.liftCells M shape f) (TensorOps.liftCells A shape f) := by
  rw [TensorOps.liftCells, TensorOps.liftCells, size]
  have cells := build fun (c : List Nat) (_ : Axes.InBounds axes c) => meters.lift (f c)
  exact cells.of_eq (Nat.mul_one _)

theorem anyCells {T : Tensor α} (meters : M.Meters E A) (axes : T.axes = n :: ns) :
    CallsExactly E (1 + Axes.volume ns * n) (·.axes = ns) (TensorOps.anyCells M T) (TensorOps.anyCells A T) := by
  obtain ⟨_, cells⟩ := T
  obtain rfl := axes
  refine meters.zero.bind fun zero _ => .build fun _ _ => ?_
  refine of_eq ?_ (Nat.mul_one n)
  exact foldlM (fun _ _ => meters.binary .or _ _) zero

end Build.CallsExactly

/-! ## Operations -/

namespace TensorOps

variable {O : TensorOps σ α} {O' : TensorOps (Metered σ) α}

/-- On operands that fit, the first tensor operations do what the second ones do, and call a gate for every cell that they
make or go through. Creating and reindexing do so into shapes that are `allowed`, and reindexing calls nothing. -/
structure Meters (E : Fault → Prop) (allowed : Shape → Prop) (O' : TensorOps (Metered σ) α) (O : TensorOps σ α) :
    Prop where
  create : ∀ {shape axes} f, allowed shape → shape.axes? = some axes →
    CallsExactly E (Axes.volume axes) (·.axes = axes) (O'.create shape f) (O.create shape f)
  or : ∀ {S T axes}, S.axes = axes → T.axes = axes →
    CallsExactly E (Axes.volume axes) (·.axes = axes) (O'.or S T) (O.or S T)
  and : ∀ {S T axes}, S.axes = axes → T.axes = axes →
    CallsExactly E (Axes.volume axes) (·.axes = axes) (O'.and S T) (O.and S T)
  reindex : ∀ {T shape mapping axes}, allowed shape → shape.misfit? T.shape mapping = none → shape.axes? = some axes →
    CallsExactly E 0 (·.axes = axes) (O'.reindex T shape mapping) (O.reindex T shape mapping)
  any : ∀ {T n ns}, T.axes = n :: ns → CallsExactly E (1 + Axes.volume ns * n) (·.axes = ns) (O'.any T) (O.any T)

namespace Meters

theorem lifted (meters : M.Meters E A) :
    Meters E (fun _ => True) (TensorOps.lifted M) (TensorOps.lifted A) where
  create f _ size := .liftCells meters f size
  or := by
    rintro S T axes rfl same
    exact (CallsExactly.zipBuild (meters.binary .or) same.symm).of_eq (Nat.mul_one _)
  and := by
    rintro S T axes rfl same
    exact (CallsExactly.zipBuild (meters.binary .and) same.symm).of_eq (Nat.mul_one _)
  reindex _ fits size := by
    rw [reindex_lifted, reindex_lifted]
    exact .ofExcept (.reindex fits size)
  any axes := .anyCells meters axes

/-- Shapes that can be stored pass the limits. -/
theorem stored (meters : Meters E (fun _ => True) O' O) :
    Meters E (fun shape => shape.checkStorage = .ok ()) O'.stored O.stored where
  create := by
    intro shape axes f storable size
    show CallsExactly _ _ _ (Build.ofExcept shape.checkStorage >>= fun _ => O'.create shape f)
      (Build.ofExcept shape.checkStorage >>= fun _ => O.create shape f)
    rw [storable]
    exact meters.create f trivial size
  or := meters.or
  and := meters.and
  reindex := by
    intro T shape mapping axes storable fits size
    show CallsExactly _ _ _
      (Build.ofExcept (shape.checkReindex T.shape mapping) >>= fun _ =>
        .ofExcept shape.checkStorage >>= fun _ => O'.reindex T shape mapping)
      (Build.ofExcept (shape.checkReindex T.shape mapping) >>= fun _ =>
        .ofExcept shape.checkStorage >>= fun _ => O.reindex T shape mapping)
    rw [Shape.checkReindex, fits, storable]
    exact meters.reindex trivial fits size
  any := meters.any

end Meters

end TensorOps

end BoolCalculus
