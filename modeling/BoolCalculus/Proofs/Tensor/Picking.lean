import BoolCalculus.Proofs.Tensor.Cells

/-!
# Reindexing by fills and by grids

Lifted tensors are reindexed cell by cell, dense ones by tensors of indices, with a way of its own for a tensor without
axes. Once a mapping has been accepted no entry of it and no index is out of bounds, so both make the reindexed tensor
(`TensorOps.reindexCells_eq`, `Tensor.reindexDense_eq`).
-/

namespace BoolCalculus

variable {σ α β γ : Type}

/-! ## Items by their indices -/

theorem mapM_ok {f : β → Except Fault γ} {g : β → γ} {items : List β} (each : ∀ b ∈ items, f b = .ok (g b)) :
    items.mapM f = .ok (items.map g) := by
  induction items with
  | nil => rfl
  | cons b items ih =>
      obtain ⟨first, rest⟩ := List.forall_mem_cons.1 each
      rw [List.mapM_cons, first, ih rest]
      rfl

/-- Indices from 0 on that are below the length name items. -/
theorem entries_ok {items : List β} {indices : List Int} {f : Nat → β}
    (named : ∀ a ∈ indices, 0 ≤ a ∧ a < items.length ∧ items[a.toNat]? = some (f a.toNat)) :
    entries items indices = .ok (indices.map fun a => f a.toNat) := by
  refine mapM_ok fun a member => ?_
  obtain ⟨nonneg, lt, item⟩ := named a member
  have position : position? items.length a = some a.toNat := by simp [position?, nonneg, lt]
  rw [atIndex?, position, Option.bind_some, item]

namespace Axes

variable {axes coord : List Nat} {mapping : List Int}

/-- What a coordinate has at the places of an accepted mapping. -/
theorem entries_pick (targets : ∀ a ∈ mapping, 0 ≤ a ∧ a < axes.length) (inside : InBounds axes coord) :
    entries coord mapping = .ok (pick coord (mapping.map Int.toNat)) := by
  have length := length_of_inBounds inside
  have named : ∀ a ∈ mapping, 0 ≤ a ∧ a < coord.length ∧ coord[a.toNat]? = some (coord[a.toNat]?.getD 0) := by
    intro a member
    obtain ⟨nonneg, lt⟩ := targets a member
    have below : a.toNat < coord.length := by omega
    exact ⟨nonneg, length ▸ lt, by simp [below]⟩
  have found : entries coord mapping = .ok (mapping.map fun a => coord[a.toNat]?.getD 0) :=
    entries_ok (f := fun k => coord[k]?.getD 0) named
  rw [found, pick, List.map_map]
  rfl

end Axes

namespace Tensor

variable {axes : List Nat} {mapping : List Int} {T : Tensor α}

theorem read_of_inBounds (T : Tensor α) {coord : List Nat} (inside : Axes.InBounds T.axes coord) :
    T.read coord = .ok (T.get coord inside) :=
  dif_pos inside

/-! ## Grids -/

/-- The grid of an axis holds at a coordinate its entry at that axis. -/
def grid (axes : List Nat) (k : Nat) : Tensor Nat :=
  ofFn axes fun coord _ => coord[k]?.getD 0

theorem read_grid {coord : List Nat} (k : Nat) (inside : Axes.InBounds axes coord) :
    (grid axes k).read coord = .ok (coord[k]?.getD 0) :=
  (read_of_inBounds _ inside).trans (congrArg Except.ok (get_ofFn axes (fun coord _ => coord[k]?.getD 0) inside))

/-- Numbers below the sizes of axes, spread over a grid, are the entries of its coordinates. -/
theorem meshgrid_range (axes : List Nat) :
    meshgrid (axes.map List.range) = (List.range axes.length).map (grid axes) := by
  have sizes : (axes.map List.range).map List.length = axes := by simp [Function.comp_def]
  apply List.ext_getElem (by simp [meshgrid])
  intro k h h'
  have below : k < axes.length := by simpa using h'
  simp only [meshgrid, List.getElem_mapIdx, List.getElem_map, List.getElem_range]
  refine ext_get sizes fun coord hc hc' => ?_
  have entry : coord[k]?.getD 0 < axes[k] := Axes.lt_of_inBounds hc' (List.getElem?_eq_getElem below)
  refine (get_ofFn _ _ hc).trans (Eq.trans ?_ (get_ofFn axes (fun coord _ => coord[k]?.getD 0) hc').symm)
  simp [entry]

theorem gather_grids (targets : ∀ a ∈ mapping, 0 ≤ a ∧ a < axes.length) (some : mapping ≠ [])
    (fits : Axes.Fits axes T.axes (mapping.map Int.toNat)) :
    (T.gather (mapping.map fun a => grid axes a.toNat) : Build σ (Tensor α)) =
      pure (T.reindex axes (mapping.map Int.toNat) fits) := by
  obtain ⟨a, as, rfl⟩ := List.exists_cons_of_ne_nil some
  rw [List.map_cons, gather, reindex, ← build_pure]
  refine build_congr axes fun coord inside => ?_
  have coordinate : ((a :: as).map fun a => grid axes a.toNat).mapM (·.read coord) =
      Except.ok (Axes.pick coord ((a :: as).map Int.toNat)) := by
    rw [List.mapM_map, mapM_ok (g := fun a => coord[a.toNat]?.getD 0) fun a _ => read_grid a.toNat inside, Axes.pick,
      List.map_map]
    rfl
  rw [List.map_cons] at coordinate
  rw [coordinate]
  exact congrArg Build.ofExcept (read_of_inBounds T (Axes.inBounds_pick fits inside))

/-! ## Accepted mappings -/

/-- What reindexes along the mappings that fit, after their check, reindexes as it is specified. -/
theorem reindex?_of_fit {new : Shape} {rest : List Nat → Build σ (Tensor α)}
    (accepted : ∀ {axes}, ¬Axes.Unfit axes T.axes mapping → ∀ fits : Axes.Fits axes T.axes (mapping.map Int.toNat),
      rest axes = pure (T.reindex axes (mapping.map Int.toNat) fits)) :
    (do
      .ofExcept (new.checkReindex T.shape mapping)
      let some axes := new.axes? | throw .negativeAxis
      rest axes) = (.ofExcept (T.reindex? new mapping) : Build σ (Tensor α)) := by
  rw [Shape.checkReindex]
  cases misfit : new.misfit? T.shape mapping with
  | some cause =>
      rw [reindex?_misfit misfit]
      rfl
  | none =>
      cases size : new.axes? with
      | none =>
          rw [reindex?_negative misfit size]
          rfl
      | some axes =>
          obtain ⟨fits, moved⟩ := reindex?_fits misfit size
          obtain rfl := Shape.ofAxes_of_axes? size
          rw [moved]
          exact accepted (Shape.misfit?_eq_none_iff.1 misfit) fits

/-- The cell of a tensor without axes is repeated everywhere. -/
theorem full_of_scalar (fits : Axes.Fits axes T.axes []) :
    ∃ a, T.toList = [a] ∧ full axes a = T.reindex axes [] fits := by
  obtain ⟨old, cells⟩ := T
  cases old with
  | nil =>
      have single : (⟨[], cells⟩ : Tensor α) = scalar (get ⟨[], cells⟩ [] trivial) := eq_scalar rfl
      exact ⟨get ⟨[], cells⟩ [] trivial, congrArg toList single, rfl⟩
  | cons n ns => exact fits.elim

/-- Grids of indices reindex a dense tensor. -/
theorem reindexDense_eq (T : Tensor α) (new : Shape) (mapping : List Int) :
    (T.reindexDense new mapping : Build σ (Tensor α)) = .ofExcept (T.reindex? new mapping) := by
  refine reindex?_of_fit fun {axes} fit fits => ?_
  cases mapping with
  | nil =>
      obtain ⟨a, single, repeated⟩ := full_of_scalar fits
      rw [single]
      exact congrArg pure repeated
  | cons b bs =>
      have targets := Axes.range_of_fit fit
      have indices : entries (meshgrid (axes.map List.range)) (b :: bs) =
          .ok ((b :: bs).map fun a => grid axes a.toNat) := by
        rw [meshgrid_range]
        refine entries_ok fun a member => ?_
        obtain ⟨nonneg, lt⟩ := targets a member
        have below : a.toNat < axes.length := by omega
        simp [nonneg, lt, below]
      rw [indices]
      exact gather_grids targets (by simp) fits

end Tensor

namespace TensorOps

/-- A fill cell by cell reindexes a tensor. -/
theorem reindexCells_eq (T : Tensor α) (new : Shape) (mapping : List Int) :
    (reindexCells T new mapping : Build σ (Tensor α)) = .ofExcept (T.reindex? new mapping) := by
  refine Tensor.reindex?_of_fit fun {axes} fit fits => ?_
  rw [Tensor.reindex, ← Tensor.build_pure]
  refine Tensor.build_congr axes fun coord inside => ?_
  rw [Axes.entries_pick (Axes.range_of_fit fit) inside]
  exact congrArg Build.ofExcept (Tensor.read_of_inBounds T (Axes.inBounds_pick fits inside))

variable {T : Tensor α} {new : Shape} {mapping : List Int}

@[simp] theorem reindex_dense {T : Tensor Bool} :
    (dense : TensorOps σ Bool).reindex T new mapping = .ofExcept (T.reindex? new mapping) :=
  Tensor.reindexDense_eq T new mapping

@[simp] theorem reindex_lifted (A : GateSet σ α) :
    (lifted A).reindex T new mapping = .ofExcept (T.reindex? new mapping) :=
  reindexCells_eq T new mapping

@[simp] theorem reindex_liftedDerived (A : GateSet σ α) :
    (liftedDerived A).reindex T new mapping = .ofExcept (T.reindex? new mapping) :=
  reindexCells_eq T new mapping

end TensorOps

end BoolCalculus
