import Mathlib.Order.BooleanAlgebra.Basic
import Mathlib.Order.Hom.BoundedLattice
import Mathlib.Order.PrimeSeparator

/-!
# Two-valued homomorphisms

Elements of a Boolean algebra that differ are told apart by a homomorphism into the truth values. So an
equation that holds under all of these homomorphisms holds in the algebra itself.
-/

namespace BoolCalculus

open Order

/-- The homomorphisms from one Boolean algebra to another. -/
abbrev BooleanHom (B C : Type) [BooleanAlgebra B] [BooleanAlgebra C] : Type :=
  BoundedLatticeHom B C

variable {B : Type} [BooleanAlgebra B] {x y : B}

/-- A prime ideal holds a meet only through one of its two sides. -/
theorem inf_mem_iff_of_isPrime {J : Ideal B} (prime : J.IsPrime) : x ⊓ y ∈ J ↔ x ∈ J ∨ y ∈ J := by
  refine ⟨prime.mem_or_mem, fun holds => ?_⟩
  rcases holds with inside | inside
  · exact J.lower inf_le_left inside
  · exact J.lower inf_le_right inside

open Classical in
/-- The homomorphism that takes the elements outside a prime ideal to true. -/
noncomputable def outside (J : Ideal B) (prime : J.IsPrime) : BooleanHom B Bool where
  toFun x := decide (x ∉ J)
  map_sup' x y := by
    simp only [Ideal.sup_mem_iff, Bool.max_eq_or, ← Bool.decide_or, decide_eq_decide]
    tauto
  map_inf' x y := by
    simp only [inf_mem_iff_of_isPrime prime, Bool.min_eq_and, ← Bool.decide_and, decide_eq_decide]
    tauto
  map_top' := by simpa using prime.toIsProper.top_notMem
  map_bot' := by simp

open Classical in
/-- The two-valued reading outside a prime ideal is true of what is not in it. -/
theorem outside_eq_true_iff (J : Ideal B) (prime : J.IsPrime) : outside J prime x = true ↔ x ∉ J := by
  change decide (x ∉ J) = true ↔ x ∉ J
  exact decide_eq_true_iff

/-- An element that is not below another one is true under some homomorphism that makes the other false. -/
theorem exists_twoValued_of_not_le (h : ¬x ≤ y) :
    ∃ f : BooleanHom B Bool, f x = true ∧ f y = false := by
  have apart : Disjoint (PFilter.principal x : Set B) (Ideal.principal y : Set B) := by
    rw [Set.disjoint_left]
    intro z above below
    exact h ((PFilter.mem_principal.1 above).trans (Ideal.mem_principal.1 below))
  obtain ⟨J, prime, below, separate⟩ := DistribLattice.prime_ideal_of_disjoint_filter_ideal apart
  have insideY : y ∈ J := below (Ideal.mem_principal.2 le_rfl)
  have outsideX : x ∉ J := Set.disjoint_left.1 separate (PFilter.mem_principal.2 le_rfl)
  refine ⟨outside J prime, (outside_eq_true_iff J prime).2 outsideX, ?_⟩
  rw [Bool.eq_false_iff, Ne, outside_eq_true_iff]
  exact not_not_intro insideY

/-- Elements that no two-valued reading tells apart are equal. -/
theorem eq_of_twoValued (h : ∀ f : BooleanHom B Bool, f x = f y) : x = y := by
  have below : ∀ {x y : B}, (∀ f : BooleanHom B Bool, f x = f y) → x ≤ y := by
    intro x y same
    by_contra notBelow
    obtain ⟨f, hx, hy⟩ := exists_twoValued_of_not_le notBelow
    have := same f
    simp [hx, hy] at this
  exact le_antisymm (below h) (below fun f => (h f).symm)

end BoolCalculus
