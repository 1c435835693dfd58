import BoolCalculus.Proofs.Matrix.Closure
import BoolCalculus.Proofs.Tensor.Reading
import Mathlib.Data.Finset.Lattice.Fold
import Mathlib.Data.Fintype.Basic

/-!
# Derived tensor operations

Tensor operations may leave exclusive disjunction, equivalence, implication and the conjunction over the first
axis to their derivations. Derived operations are read as the operations of their names, whatever they are
derived from (`Valuation.Reads.derived`); over dense tensors they are the operations that are given there
(`TensorOps.derived_dense`).
-/

namespace BoolCalculus

open scoped symmDiff

variable {σ α B β γ : Type}

/-- The tensor operations that give no more than they have to. -/
def TensorOps.derived (O : TensorOps σ α) : TensorOps σ α :=
  { create := O.create, not := O.not, or := O.or, and := O.and, reindex := O.reindex, any := O.any }

theorem TensorOps.derived_lifted (A : GateSet σ α) : (lifted A).derived = liftedDerived A := rfl

/-! ## Cells -/

namespace Tensor

variable [BooleanAlgebra B]

/-- What is in one of two tensors but not in both is their symmetric difference. -/
theorem zip?_symmDiff (X Y : Tensor B) :
    (X.zip? (· ⊔ ·) Y >>= fun either => X.zip? (· ⊓ ·) Y >>= fun both =>
      either.zip? (· ⊓ ·) (both.map (·ᶜ))) = X.zip? (· ∆ ·) Y := by
  by_cases same : X.axes = Y.axes
  · rw [zip?_of_eq _ same, zip?_of_eq _ same, zip?_of_eq _ same]
    show (X.zip (· ⊔ ·) Y same).zip? (· ⊓ ·) ((X.zip (· ⊓ ·) Y same).map (·ᶜ)) = _
    unfold zip
    rw [map_ofFn, zip?_of_eq _ (by rfl), zip_ofFn]
    simp only [symmDiff_eq_sup_sdiff_inf, sdiff_eq]
  · rw [zip?_of_ne _ same, zip?_of_ne _ same, zip?_of_ne _ same]
    rfl

theorem zip?_bihimp (X Y : Tensor B) :
    (X.zip? (· ∆ ·) Y >>= fun differ => .ok (differ.map (·ᶜ))) = X.zip? (· ⇔ ·) Y := by
  by_cases same : X.axes = Y.axes
  · rw [zip?_of_eq _ same, zip?_of_eq _ same]
    show Except.ok ((X.zip (· ∆ ·) Y same).map (·ᶜ)) = _
    unfold zip
    rw [map_ofFn]
    simp only [compl_symmDiff]
  · rw [zip?_of_ne _ same, zip?_of_ne _ same]
    rfl

theorem zip?_himp (X Y : Tensor B) : (X.map (·ᶜ)).zip? (· ⊔ ·) Y = X.zip? (· ⇨ ·) Y := by
  by_cases same : X.axes = Y.axes
  · rw [zip?_of_eq _ same, zip?_of_eq _ (by exact same)]
    refine congrArg Except.ok (congrArg (ofFn X.axes) (funext fun c => funext fun hc => ?_))
    calc (X.map (·ᶜ)).get c hc ⊔ Y.get c (same ▸ hc)
        = (X.get c hc)ᶜ ⊔ Y.get c (same ▸ hc) := by rw [get_map (·ᶜ) X hc]
      _ = X.get c hc ⇨ Y.get c (same ▸ hc) := by rw [himp_eq, sup_comm]
  · rw [zip?_of_ne _ same, zip?_of_ne _ (by exact same)]
    rfl

/-- A conjunction over the first axis is the meet of the cells; without cells it is the greatest element. -/
theorem foldFirst_inf {X : Tensor B} {m : Nat} {ms : List Nat} (axes : X.axes = m :: ms) :
    X.foldFirst (· ⊓ ·) ⊤ = .ok (ofFn ms fun c hc => Finset.univ.inf (X.fibre axes c hc)) := by
  obtain ⟨old, cells⟩ := X
  have same : old = m :: ms := axes
  subst same
  refine congrArg Except.ok (congrArg (ofFn ms) (funext fun c => funext fun hc => ?_))
  refine eq_of_forall_le_iff fun b => ?_
  rw [Matrix.le_foldl_inf_iff, Finset.le_inf_iff]
  simp

end Tensor

/-! ## Operations -/

namespace Valuation

variable [BooleanAlgebra B] {V : Valuation σ α B}

section

variable {or and xor : Tensor α → Tensor α → Build σ (Tensor α)} {not : Tensor α → Build σ (Tensor α)}
variable (hnot : ∀ {s T X}, V.IsTensor s T X → V.Runs V.IsTensor s (not T) (.ok (X.map (·ᶜ))))

include hnot

theorem Pointwise.derivedXor (hor : V.Pointwise or (· ⊔ ·)) (hand : V.Pointwise and (· ⊓ ·)) :
    V.Pointwise (Derived.xor or and not) (· ∆ ·) := by
  intro s S T X Y hS hT
  rw [← Tensor.zip?_symmDiff]
  refine (hor hS hT).bind fun first either => ?_
  refine (hand (hS.later first) (hT.later first)).bind fun second both => ?_
  refine (hnot both).bind_ok fun third notBoth => ?_
  exact hand (either.later (V.later_trans second third)) notBoth

theorem Pointwise.derivedEqu (hxor : V.Pointwise xor (· ∆ ·)) :
    V.Pointwise (Derived.equ not xor) (· ⇔ ·) := by
  intro s S T X Y hS hT
  rw [← Tensor.zip?_bihimp]
  exact (hxor hS hT).bind fun _ differ => hnot differ

theorem Pointwise.derivedImp (hor : V.Pointwise or (· ⊔ ·)) :
    V.Pointwise (Derived.imp or not) (· ⇨ ·) := by
  intro s S T X Y hS hT
  rw [← Tensor.zip?_himp]
  exact (hnot hS).bind_ok fun first notS => hor notS (hT.later first)

end

/-- Derived operations are read as those that are given. -/
theorem Reads.derived {allowed : Shape → Prop} {O : TensorOps σ α} (reads : V.Reads allowed O) :
    V.Reads allowed O.derived := by
  have negates : ∀ {s T X}, V.IsTensor s T X → V.Runs V.IsTensor s (O.not T) (.ok (X.map (·ᶜ))) :=
    fun h => reads.not h
  have xor := Pointwise.derivedXor negates reads.or reads.and
  exact { reads with
    xor := xor
    equ := .derivedEqu negates xor
    imp := .derivedImp negates reads.or
    all := fun _ _ _ hT => .derivedAll negates (fun h => reads.any h) hT }

end Valuation

theorem Build.ofExcept_bind (r : Except Fault β) (next : β → Except Fault γ) :
    (ofExcept (r >>= next) : Build σ γ) = ofExcept r >>= fun b => ofExcept (next b) := by
  cases r <;> rfl

namespace TensorOps

open BoolCalculus.Valuation

theorem derived_dense_xor : (dense.derived.xor : Tensor Bool → Tensor Bool → Build σ _) = dense.xor := by
  funext S T
  have cells := Tensor.zip?_symmDiff S T
  rw [← bne_eq_symmDiff] at cells
  have run := congrArg (Build.ofExcept (σ := σ)) cells
  simp only [Build.ofExcept_bind] at run
  exact run

theorem derived_dense_equ : (dense.derived.equ : Tensor Bool → Tensor Bool → Build σ _) = dense.equ := by
  funext S T
  have cells := Tensor.zip?_bihimp S T
  rw [← bne_eq_symmDiff, ← beq_eq_bihimp] at cells
  have run := congrArg (Build.ofExcept (σ := σ)) cells
  rw [Build.ofExcept_bind] at run
  show (do dense.not (← dense.derived.xor S T)) = _
  rw [derived_dense_xor]
  exact run

theorem derived_dense_imp : (dense.derived.imp : Tensor Bool → Tensor Bool → Build σ _) = dense.imp := by
  funext S T
  have cells := Tensor.zip?_himp S T
  rw [← not_or_eq_himp] at cells
  exact congrArg (Build.ofExcept (σ := σ)) cells

theorem derived_dense_all : (dense.derived.all : Tensor Bool → Build σ _) = dense.all := by
  funext T
  refine Eq.trans ?_ (congrArg (Build.ofExcept (σ := σ)) (Tensor.foldFirst_compl T))
  show (do dense.not (← Build.ofExcept ((T.map (·ᶜ)).foldFirst (· ⊔ ·) ⊥))) = _
  cases (T.map (·ᶜ)).foldFirst (· ⊔ ·) ⊥ <;> rfl

/-- Over dense tensors the derivations are what is given. -/
theorem derived_dense : (dense : TensorOps σ Bool).derived = dense := by
  calc dense.derived
      = { dense with
          xor := dense.derived.xor, equ := dense.derived.equ, imp := dense.derived.imp,
          all := dense.derived.all } := rfl
    _ = dense := by
        rw [derived_dense_xor, derived_dense_equ, derived_dense_imp, derived_dense_all]

end TensorOps

end BoolCalculus
