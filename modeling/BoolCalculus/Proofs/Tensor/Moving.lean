import BoolCalculus.Tensor.Reindex
import Mathlib.Data.List.Forall2

/-!
# The reindexed tensor

The tensor that is reindexed along a mapping holds at a coordinate `c` the cell at `c (m 0), …, c (m (k - 1))`: two axes
sent to one place take a diagonal, and a new axis that nothing is sent to repeats the cells. Here it is one tensor, known
by its cells; dense and lifted tensors make it in ways of their own.
-/

namespace BoolCalculus

namespace Axes

/-- The mapping sends every axis to an axis of the same size. -/
def Fits (new : List Nat) : List Nat → List Nat → Prop
  | [], [] => True
  | n :: ns, a :: as => new[a]? = some n ∧ Fits new ns as
  | _, _ => False

/-- The entries of a coordinate that a mapping asks for. -/
def pick (coord : List Nat) (mapping : List Nat) : List Nat :=
  mapping.map fun a => coord[a]?.getD 0

theorem lt_of_inBounds {ns coord : List Nat} (h : InBounds ns coord) {a n : Nat}
    (hn : ns[a]? = some n) : coord[a]?.getD 0 < n := by
  induction ns generalizing coord a with
  | nil => simp at hn
  | cons m ms ih =>
      cases coord with
      | nil => simp [InBounds] at h
      | cons i coord =>
          cases a with
          | zero =>
              obtain rfl : m = n := by simpa using hn
              simpa using h.1
          | succ a =>
              have hlt := ih h.2 (by simpa using hn)
              simpa using hlt

/-- A coordinate of the new axes picks a coordinate of the old ones. -/
theorem inBounds_pick {new old mapping c : List Nat} (fits : Fits new old mapping)
    (h : InBounds new c) : InBounds old (pick c mapping) := by
  induction old generalizing mapping with
  | nil => cases mapping <;> simp_all [Fits, pick, InBounds]
  | cons n ns ih =>
      cases mapping with
      | nil => simp [Fits] at fits
      | cons a as => exact ⟨lt_of_inBounds h fits.1, ih fits.2⟩

variable {new old : List Nat} {mapping : List Int}

/-- Why a mapping does not fit: it has not one entry for every old axis, an entry is no new axis, or an old axis is
sent to a new one of another size. -/
def Unfit (new old : List Nat) (mapping : List Int) : Prop :=
  mapping.length ≠ old.length ∨ (∃ a ∈ mapping, ¬(0 ≤ a ∧ a < new.length)) ∨
  ∃ (i : Nat) (_ : i < old.length) (_ : i < mapping.length), new[mapping[i].toNat]? ≠ some old[i]

/-- An axis of size `n` has a place of that size. -/
def Target (new : List Nat) (n : Nat) (a : Int) : Prop :=
  0 ≤ a ∧ a < new.length ∧ new[a.toNat]? = some n

theorem not_unfit_iff : ¬Unfit new old mapping ↔ List.Forall₂ (Target new) old mapping := by
  rw [List.forall₂_iff_get, Unfit]
  constructor
  · intro fit
    push Not at fit
    obtain ⟨length, range, sizes⟩ := fit
    refine ⟨length.symm, fun i h h' => ?_⟩
    obtain ⟨nonneg, lt⟩ := range mapping[i] (List.getElem_mem h')
    exact ⟨nonneg, lt, sizes i h h'⟩
  · rintro ⟨length, targets⟩
    push Not
    refine ⟨length.symm, fun a member => ?_, fun i h h' => (targets i h h').2.2⟩
    obtain ⟨i, h', rfl⟩ := List.getElem_of_mem member
    obtain ⟨nonneg, lt, -⟩ := targets i (length ▸ h') h'
    exact ⟨nonneg, lt⟩

/-- A mapping that fits names axes of the new shape. -/
theorem range_of_fit (fit : ¬Unfit new old mapping) : ∀ a ∈ mapping, 0 ≤ a ∧ a < new.length := by
  intro a member
  by_contra outside
  exact fit (.inr (.inl ⟨a, member, outside⟩))

end Axes

namespace Shape

theorem fits_of_axisMisfit? {new : List Nat} {old : Shape} {axis : Nat} {ns : List Nat}
    {mapping : List Int} (length : mapping.length = ns.length)
    (h : (ofAxes new).axisMisfit? old axis (ns.map Int.ofNat) mapping = none) :
    Axes.Fits new ns (mapping.map Int.toNat) := by
  induction ns generalizing axis mapping with
  | nil => cases mapping <;> simp_all [Axes.Fits]
  | cons n ns ih =>
      cases mapping with
      | nil => simp at length
      | cons target targets =>
          simp only [List.map_cons, axisMisfit?] at h
          split at h
          · rename_i range
            split at h
            · rename_i same
              refine ⟨?_, ih (by simpa using length) h⟩
              obtain ⟨nonneg, lt⟩ := range
              have hlt : target.toNat < new.length := by
                rw [rank_ofAxes] at lt
                omega
              simp only [ofAxes, List.getElem?_map, List.getElem?_eq_getElem hlt, Option.map_some,
                Option.getD_some] at same
              rw [List.getElem?_eq_getElem hlt]
              exact congrArg some (Int.ofNat.inj same).symm
            · simp at h
          · simp at h

/-- A mapping without misfit sends every axis to an axis of the same size. -/
theorem fits_of_misfit? {new old : List Nat} {mapping : List Int}
    (h : (ofAxes new).misfit? (ofAxes old) mapping = none) :
    Axes.Fits new old (mapping.map Int.toNat) := by
  unfold misfit? at h
  split at h
  · rename_i length
    exact fits_of_axisMisfit? (by simpa using length) h
  · simp at h

theorem axisMisfit?_eq_none_iff {new : List Nat} {old : Shape} {axis : Nat} {ns : List Nat} {mapping : List Int}
    (length : mapping.length = ns.length) :
    (ofAxes new).axisMisfit? old axis (ns.map Int.ofNat) mapping = none ↔
      List.Forall₂ (Axes.Target new) ns mapping := by
  induction ns generalizing axis mapping with
  | nil =>
      obtain rfl := List.length_eq_zero_iff.1 length
      simp [axisMisfit?]
  | cons n ns ih =>
      obtain ⟨a, as, rfl⟩ := List.exists_cons_of_length_eq_add_one length
      rw [List.map_cons, axisMisfit?, List.forall₂_cons, Axes.Target, rank_ofAxes]
      by_cases range : 0 ≤ a ∧ a < new.length
      · have inside : a.toNat < new.length := by omega
        have place : ((ofAxes new).sizes[a.toNat]?).getD 0 = new[a.toNat] := by simp [ofAxes, inside]
        rw [if_pos range, place]
        by_cases same : Int.ofNat n = new[a.toNat]
        · have size : new[a.toNat]? = some n := by
            rw [List.getElem?_eq_getElem inside]
            exact congrArg some (Int.ofNat.inj same).symm
          simp only [if_pos same, range, size, true_and]
          exact ih (by simpa using length)
        · have size : new[a.toNat]? ≠ some n := by
            rw [List.getElem?_eq_getElem inside]
            exact fun found => same (congrArg Int.ofNat (Option.some.inj found).symm)
          rw [if_neg same]
          simp [size]
      · rw [if_neg range]
        constructor
        · intro found
          cases found
        · intro both
          exact absurd ⟨both.1.1, both.1.2.1⟩ range

/-- The check of a mapping finds nothing just where the mapping fits. -/
theorem misfit?_eq_none_iff {new old : List Nat} {mapping : List Int} :
    (ofAxes new).misfit? (ofAxes old) mapping = none ↔ ¬Axes.Unfit new old mapping := by
  rw [Axes.not_unfit_iff, misfit?, rank_ofAxes]
  by_cases length : mapping.length = old.length
  · rw [if_pos length]
    exact axisMisfit?_eq_none_iff length
  · rw [if_neg length]
    constructor
    · intro found
      cases found
    · intro targets
      exact absurd targets.length_eq.symm length

end Shape

namespace Tensor

variable {α : Type}

/-- Reindexes a tensor along a mapping that fits. -/
def reindex (T : Tensor α) (axes mapping : List Nat) (fits : Axes.Fits axes T.axes mapping) :
    Tensor α :=
  ofFn axes fun c hc => T.get (Axes.pick c mapping) (Axes.inBounds_pick fits hc)

/-- Reindexes a tensor into a new shape, or says why the mapping does not fit. -/
def reindex? (T : Tensor α) (new : Shape) (mapping : List Int) : Except Fault (Tensor α) :=
  match h : new.misfit? T.shape mapping with
  | some cause => .error (.shapeMismatch cause)
  | none =>
    match hnew : new.axes? with
    | none => .error .negativeAxis
    | some axes =>
      .ok (T.reindex axes (mapping.map Int.toNat)
        (Shape.fits_of_misfit? (by rw [Shape.ofAxes_of_axes? hnew]; exact h)))

end Tensor

end BoolCalculus
