import BoolCalculus.Shape.Coordinates
import Mathlib.Algebra.BigOperators.Ring.Finset
import Mathlib.Algebra.BigOperators.Ring.List
import Mathlib.Data.List.Forall2

/-!
# The enumeration of coordinates

The coordinates of a shape are those of nested loops over its axes, the last one innermost (`Axes.positions_cons`). So
they come in rising lexicographic order, every coordinate in bounds just once, and the place of a coordinate is the
number that it writes with the sizes for its radices (`Shape.isRowMajor`). A shape with a negative size has none.
-/

namespace BoolCalculus

namespace Axes

theorem volume_eq_prod (ns : List Nat) : volume ns = ns.prod := by
  induction ns with
  | nil => rfl
  | cons n ns ih => rw [volume, ih, List.prod_cons]

/-- A coordinate under `i` of the first axis stands in the block of `i`. -/
theorem coordAt_block (n i : Nat) {ns : List Nat} {j : Nat} (h : j < volume ns) :
    coordAt (n :: ns) (i * volume ns + j) = i :: coordAt ns j := by
  have positive : 0 < volume ns := Nat.zero_lt_of_lt h
  rw [coordAt, Nat.mul_comm, Nat.mul_add_div positive, Nat.mul_add_mod, Nat.div_eq_of_lt h, Nat.mod_eq_of_lt h,
    Nat.add_zero]

/-- The loop over the first axis goes through the coordinates of the other axes in every round. -/
theorem positions_cons (n : Nat) (ns : List Nat) :
    positions (n :: ns) = (List.range n).flatMap fun i => (positions ns).map (i :: ·) := by
  have loop : ∀ k, (List.range (k * volume ns)).map (coordAt (n :: ns)) =
      (List.range k).flatMap fun i => (positions ns).map (i :: ·) := by
    intro k
    induction k with
    | zero => simp
    | succ k ih =>
        rw [Nat.succ_mul, List.range_add, List.map_append, ih, List.range_succ, List.flatMap_append]
        congr 1
        simp only [positions, List.map_map, List.flatMap_cons, List.flatMap_nil, List.append_nil]
        refine List.map_congr_left fun j inside => ?_
        exact coordAt_block n k (List.mem_range.1 inside)
  exact loop n

/-- Every coordinate within the sizes is listed, and no other. -/
theorem mem_positions {ns c : List Nat} : c ∈ positions ns ↔ InBounds ns c := by
  constructor
  · intro member
    obtain ⟨j, inside, rfl⟩ := List.mem_map.1 member
    exact inBounds_coordAt (List.mem_range.1 inside)
  · intro inside
    exact List.mem_map.2 ⟨flat ns c, List.mem_range.2 (flat_lt inside), coordAt_flat inside⟩

/-- The place of a coordinate in the list is its number in mixed radix. -/
theorem getElem?_positions {ns c : List Nat} {j : Nat} :
    (positions ns)[j]? = some c ↔ InBounds ns c ∧ flat ns c = j := by
  simp only [positions, List.getElem?_map, Option.map_eq_some_iff, List.getElem?_eq_some_iff, List.length_range,
    List.getElem_range, exists_prop]
  constructor
  · rintro ⟨_, ⟨inside, rfl⟩, rfl⟩
    exact ⟨inBounds_coordAt inside, flat_coordAt inside⟩
  · rintro ⟨inside, rfl⟩
    exact ⟨_, ⟨flat_lt inside, rfl⟩, coordAt_flat inside⟩

/-- Within one round of a loop the later axes decide, and between two rounds the first one does. -/
theorem sorted_positions (ns : List Nat) : (positions ns).Pairwise (· < ·) := by
  induction ns with
  | nil => simp [positions, volume]
  | cons n ns ih =>
      rw [positions_cons, List.pairwise_flatMap]
      constructor
      · intro i _
        rw [List.pairwise_map]
        exact ih.imp fun less => List.cons_lt_cons_iff.2 (.inr ⟨rfl, less⟩)
      · refine List.pairwise_lt_range.imp fun less => ?_
        intro c hc d hd
        obtain ⟨c, _, rfl⟩ := List.mem_map.1 hc
        obtain ⟨d, _, rfl⟩ := List.mem_map.1 hd
        exact List.cons_lt_cons_iff.2 (.inl less)

/-- The flat position of a coordinate weighs every entry by the sizes of the later axes. -/
theorem flat_eq_sum {ns coord : List Nat} (h : InBounds ns coord) :
    flat ns coord = ∑ i ∈ Finset.range ns.length, coord[i]?.getD 0 * (ns.drop (i + 1)).prod := by
  induction ns generalizing coord with
  | nil => cases coord <;> simp [flat]
  | cons n ns ih =>
      cases coord with
      | nil => exact h.elim
      | cons i coord =>
          rw [List.length_cons, Finset.sum_range_succ', flat, ih h.2, volume_eq_prod, Nat.add_comm]
          simp

theorem inBounds_iff {ns c : List Nat} : InBounds ns c ↔ List.Forall₂ (fun i n => i < n) c ns := by
  induction ns generalizing c with
  | nil => cases c <;> simp [InBounds]
  | cons n ns ih => cases c <;> simp [InBounds, ih]

end Axes

namespace Shape

variable {s : Shape}

theorem exists_ofAxes (nonneg : ∀ n ∈ s.sizes, 0 ≤ n) : ∃ axes, s = ofAxes axes := by
  refine ⟨s.sizes.map Int.toNat, ?_⟩
  have size : s.axes? = some (s.sizes.map Int.toNat) := if_pos (by simpa using nonneg)
  exact (ofAxes_of_axes? size).symm

theorem positions_ofAxes (axes : List Nat) : (ofAxes axes).positions = Axes.positions axes := by
  simp [positions, ofAxes, Function.comp_def]

theorem volume_ofAxes (axes : List Nat) : (ofAxes axes).volume = Axes.volume axes := by
  induction axes with
  | nil => rfl
  | cons n ns ih =>
      have step : (ofAxes (n :: ns)).volume = n * (ofAxes ns).volume := rfl
      rw [step, ih, Axes.volume, Int.natCast_mul]

/-- The coordinates of a shape in their order: as many as its volume says, rising, each one in bounds once, and each
one at the place that it writes with the sizes for its radices. -/
structure IsRowMajor (s : Shape) (positions : List (List Nat)) : Prop where
  count : (positions.length : Int) = s.volume
  sorted : positions.Pairwise (· < ·)
  nodup : positions.Nodup
  mem_iff : ∀ c, c ∈ positions ↔ List.Forall₂ (fun (i : Nat) (n : Int) => (i : Int) < n) c s.sizes
  place : ∀ {j : Nat} {coord}, positions[j]? = some coord →
    ∑ i ∈ Finset.range s.rank, ((coord[i]?.getD 0 : Nat) : Int) * (s.sizes.drop (i + 1)).prod = j

theorem isRowMajor (nonneg : ∀ n ∈ s.sizes, 0 ≤ n) : s.IsRowMajor s.positions := by
  obtain ⟨axes, rfl⟩ := exists_ofAxes nonneg
  have sorted := Axes.sorted_positions axes
  rw [positions_ofAxes]
  constructor
  case count => rw [Axes.length_positions, volume_ofAxes]
  case sorted => exact sorted
  case nodup => exact sorted.imp fun less => ne_of_lt less
  case mem_iff =>
    intro c
    rw [Axes.mem_positions, Axes.inBounds_iff, ofAxes, List.forall₂_map_right_iff]
    simp
  case place =>
    intro j c found
    obtain ⟨inside, rfl⟩ := Axes.getElem?_positions.1 found
    rw [Axes.flat_eq_sum inside, rank_ofAxes, Nat.cast_sum]
    refine Finset.sum_congr rfl fun i _ => ?_
    have later : ((ofAxes axes).sizes.drop (i + 1)).prod = ((axes.drop (i + 1)).prod : Int) := by
      rw [ofAxes, ← List.map_drop, Nat.cast_list_prod]
      rfl
    rw [later, Nat.cast_mul]

/-- An axis of negative size has no entries. -/
theorem positions_eq_nil (negative : ∃ n ∈ s.sizes, n < 0) : s.positions = [] := by
  obtain ⟨n, member, negative⟩ := negative
  have empty : (s.sizes.map Int.toNat).prod = 0 :=
    List.prod_eq_zero (List.mem_map.2 ⟨n, member, Int.toNat_of_nonpos (by omega)⟩)
  rw [positions, ← List.length_eq_zero_iff, Axes.length_positions, Axes.volume_eq_prod, empty]

end Shape

end BoolCalculus
