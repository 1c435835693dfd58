import BoolCalculus.Proofs.Tensor.Reading
import BoolCalculus.Proofs.Universe.Requirements

/-!
# Scalars of a universe

The scalars of a universe are a gate set. If its tensor operations are read under a valuation of cells, the
scalars respect the valuation that reads a tensor without axes by its only cell
(`Valuation.respects_scalars`).
-/

namespace BoolCalculus

namespace Valuation

variable {σ α B : Type} [BooleanAlgebra B] (V : Valuation σ α B)

/-- The reading of tensors without axes by their cells. -/
def scalars : Valuation σ (Tensor α) B where
  Elem s T := T.axes = [] ∧ ∀ c h, V.Elem s (T.get c h)
  value s T := (T.scalar?.map (V.value s)).getD ⊥
  Later := V.Later
  later_refl := V.later_refl
  later_trans := V.later_trans
  elem_later := fun later elem => ⟨elem.1, fun c h => V.elem_later later (elem.2 c h)⟩
  value_later := by
    intro s t T later holds
    rcases holds with ⟨none, elem⟩
    have cell := V.value_later later (elem [] (none.symm ▸ trivial))
    rw [Tensor.eq_scalar none, Tensor.scalar?_scalar, Option.map_some, Option.map_some, cell]

variable {V} {s : σ} {T : Tensor α} {x : B}

/-- A scalar is read as its cell. -/
theorem scalars_is : V.scalars.Is s T x ↔ V.IsTensor s T (.scalar x) := by
  constructor
  · intro holds
    rcases holds with ⟨⟨none, elem⟩, rfl⟩
    refine ⟨elem, ?_⟩
    show _ = Tensor.scalar ((T.scalar?.map (V.value s)).getD ⊥)
    rw [Tensor.eq_scalar none, Tensor.map_scalar]
    rfl
  · intro hT
    have none : T.axes = [] := hT.axes_eq.symm
    refine ⟨⟨none, hT.elem⟩, ?_⟩
    have read := (hT.is_get (c := []) (none.symm ▸ trivial) trivial).2
    show (T.scalar?.map (V.value s)).getD ⊥ = x
    rw [Tensor.eq_scalar none]
    exact read

theorem Runs.scalars {act : Build σ (Tensor α)}
    (h : V.Runs V.IsTensor s act (.ok (.scalar x))) :
    V.scalars.Runs V.scalars.Is s act (.ok x) := by
  cases h with
  | ok run later is => exact .ok run later (scalars_is.2 is)

variable {O : TensorOps σ α} {allowed : Shape → Prop} {n : Nat}

/-- The scalars of a universe respect the reading of scalars by their cells. -/
theorem respects_scalars (reads : V.Reads allowed O) (scalar : allowed ⟨[]⟩) (n : Nat) :
    V.scalars.Respects (Universe.mk O n).scalars := by
  have binary : ∀ {f g}, V.Pointwise f g → V.scalars.Binary (fun S T => do
      (Universe.mk O n).requireScalars [S, T]
      f S T) g := by
    intro f g pointwise s S T x y hS hT
    have run := pointwise (scalars_is.1 hS) (scalars_is.1 hT)
    rw [Tensor.zip?_scalar] at run
    have accepted : ∀ U ∈ [S, T], U.axes = [] := by simp [hS.1.1, hT.1.1]
    show V.scalars.Runs V.scalars.Is s
      ((Universe.mk O n).requireScalars [S, T] >>= fun _ => f S T) _
    rw [Universe.requireScalars_ok _ accepted, pure_bind]
    exact run.scalars
  refine
    { lift := ?_
      not := ?_
      or := binary reads.or
      and := binary reads.and
      xor := .inr (binary reads.xor)
      equ := .inr (binary reads.equ)
      imp := .inr (binary reads.imp)
      add := .inl rfl
      leq := .inl rfl
      zero := .inl rfl
      unit := .inl rfl
      ad3 := .inl rfl
      maj := .inl rfl }
  · intro b s
    have run := reads.create (s := s) (fun _ => b) scalar
    rw [Tensor.create?_scalar] at run
    exact run.scalars
  · intro s T x hT
    have run := reads.not (scalars_is.1 hT)
    rw [Tensor.map_scalar] at run
    have accepted : ∀ U ∈ [T], U.axes = [] := by simp [hT.1.1]
    show V.scalars.Runs V.scalars.Is s ((Universe.mk O n).requireScalars [T] >>= fun _ => O.not T) _
    rw [Universe.requireScalars_ok _ accepted, pure_bind]
    exact run.scalars

end Valuation

end BoolCalculus
