import BoolCalculus.Tensor.Storage

/-!
# Shapes that can be stored

A shape that passes the limits of storage has no negative size, and the limits that a shape passes are
passed by its first axes.
-/

namespace BoolCalculus.Shape

/-- Only sizes that are not negative are counted in bytes. -/
theorem nonneg_of_addressable {bytes : Int} {sizes : List Int}
    (h : addressable bytes sizes = .ok ()) : ∀ n ∈ sizes, 0 ≤ n := by
  induction sizes generalizing bytes with
  | nil => simp
  | cons n ns ih =>
      rw [addressable] at h
      split at h
      · rename_i zero
        exact List.forall_mem_cons.2 ⟨zero ▸ Int.le_refl 0, ih h⟩
      · split at h
        · simp at h
        · split at h
          · exact List.forall_mem_cons.2 ⟨by omega, ih h⟩
          · simp at h

/-- The first axes of what can be addressed can be addressed. -/
theorem addressable_of_append {bytes : Int} {sizes more : List Int}
    (h : addressable bytes (sizes ++ more) = .ok ()) : addressable bytes sizes = .ok () := by
  induction sizes generalizing bytes with
  | nil => rfl
  | cons n ns ih =>
      rw [List.cons_append, addressable] at h
      rw [addressable]
      split
      · rename_i zero
        rw [if_pos zero] at h
        exact ih h
      · rename_i nonzero
        rw [if_neg nonzero] at h
        split at h
        · simp at h
        · split at h
          · rename_i nonneg fits
            rw [if_neg nonneg, if_pos fits]
            exact ih h
          · simp at h

/-- A shape is stored if it passes all three limits. -/
theorem checkStorage_ok_iff {s : Shape} : s.checkStorage = .ok () ↔
    s.rank ≤ maxAxes ∧ s.sizes.all fitsWord ∧ addressable 8 s.sizes = .ok () := by
  by_cases many : maxAxes < s.rank
  · simp [checkStorage_manyAxes many, Nat.not_le_of_lt many]
  · by_cases fits : s.sizes.all fitsWord
    · rw [checkStorage, if_neg many, if_pos fits]
      exact ⟨fun h => ⟨Nat.le_of_not_lt many, fits, h⟩, fun h => h.2.2⟩
    · rw [checkStorage, if_neg many, if_neg fits]
      simp [fits]

/-- What can be stored is the shape of an array. -/
theorem isSome_axes?_of_checkStorage {s : Shape} (h : s.checkStorage = .ok ()) :
    s.axes?.isSome := by
  obtain ⟨_, _, addressed⟩ := checkStorage_ok_iff.1 h
  have nonneg : s.sizes.all (0 ≤ ·) := by simpa using nonneg_of_addressable addressed
  rw [axes?, if_pos nonneg]
  rfl

/-- Where a shape of axes of one size can be stored, one with fewer of them can be. -/
theorem checkStorage_rectangular {k l n : Nat} (fewer : k ≤ l)
    (h : (rectangular l n).checkStorage = .ok ()) : (rectangular k n).checkStorage = .ok () := by
  obtain ⟨few, wide, addressed⟩ := checkStorage_ok_iff.1 h
  refine checkStorage_ok_iff.2 ⟨?_, ?_, ?_⟩
  · rw [rank_rectangular] at few ⊢
    omega
  · rw [List.all_eq_true] at wide ⊢
    intro m mem
    have mem : m ∈ List.replicate k (n : Int) := mem
    obtain ⟨positive, rfl⟩ := List.mem_replicate.1 mem
    have more : (l : Int).toNat ≠ 0 := by omega
    exact wide _ (List.mem_replicate.2 ⟨more, rfl⟩)
  · have cut : (rectangular l n).sizes = (rectangular k n).sizes ++ List.replicate (l - k) (n : Int) := by
      simp [rectangular, fewer]
    rw [cut] at addressed
    exact addressable_of_append addressed

/-- Where the cube of a size can be stored, its square can be. -/
theorem checkStorage_square {n : Nat} (h : (rectangular 3 n).checkStorage = .ok ()) :
    (rectangular 2 n).checkStorage = .ok () :=
  checkStorage_rectangular (k := 2) (l := 3) (by decide) h

end BoolCalculus.Shape
