import BoolCalculus.Proofs.Shape.Enumeration
import BoolCalculus.Proofs.Tensor.Axes

/-!
# Filling tensors

A tensor is filled by calls for its cells in row-major order, each from the state that the call before it left; it holds
at every coordinate what the call for that coordinate answered (`Build.ends_fill`). Tensors that are created from a
function are filled so, and a tensor that is rebuilt from the list of its cells is the same tensor
(`Shape.enumeration`).
-/

namespace BoolCalculus

variable {σ α β : Type} {E : Fault → Prop}

/-- Takes the first of the values that are left. -/
def Build.next : Build (List α) α := do
  match ← get with
  | [] => throw .noItem
  | a :: rest => do
    set rest
    pure a

/-- A tensor holds at every coordinate what the call for it answered, where the calls are made in row-major order from a
first state to a last one, each from the state that the one before it left. -/
def Tensor.FilledBy (f : List Nat → Build σ α) (first last : σ) (T : Tensor α) : Prop :=
  ∃ state : Nat → σ, state 0 = first ∧ state T.shape.positions.length = last ∧
    ∀ {j c}, T.shape.positions[j]? = some c →
      ∃ inside, (f c).runFrom (state j) = (.ok (T.get c inside), state (j + 1))

theorem Tensor.ofCells?_toList {axes : List Nat} (cells : Vector α (Axes.volume axes)) :
    ofCells? axes cells.toList = some ⟨axes, cells⟩ := by
  obtain ⟨items, size⟩ := cells
  simp [ofCells?, size]

namespace Build

/-- What follows a construction has a result only if the construction has one. -/
theorem exists_of_bind_ok {act : Build σ α} {next : α → Build σ β} {s t : σ} {b : β}
    (run : (act >>= next).runFrom s = (.ok b, t)) :
    ∃ a u, act.runFrom s = (.ok a, u) ∧ (next a).runFrom u = (.ok b, t) := by
  rw [runFrom_bind] at run
  rcases first : act.runFrom s with ⟨_ | a, u⟩
  · simp [first] at run
  · rw [first] at run
    exact ⟨a, u, rfl, run⟩

theorem mapM_ofFn {n : Nat} (f : β → Build σ α) (g : Fin n → β) :
    (List.ofFn g).mapM f = List.ofFnM fun i => f (g i) := by
  induction n with
  | zero => simp
  | succ n ih => rw [List.ofFn_succ, List.mapM_cons, List.ofFnM_succ, ih]

theorem runFrom_next (a : α) (rest : List α) : next.runFrom (a :: rest) = (.ok a, rest) := rfl

/-- The states between the calls that make the items of a vector. -/
theorem exists_states {n : Nat} {f : Fin n → Build σ β} {s t : σ} {bs : Vector β n}
    (run : (Vector.ofFnM f).runFrom s = (.ok bs, t)) : ∃ state : Nat → σ, state 0 = s ∧ state n = t ∧
      ∀ i : Fin n, (f i).runFrom (state i) = (.ok bs[i], state (i + 1)) := by
  induction n generalizing t with
  | zero =>
      rw [Vector.ofFnM_zero, runFrom_pure] at run
      obtain ⟨_, rfl⟩ := Prod.mk.inj run
      exact ⟨fun _ => s, rfl, rfl, fun i => i.elim0⟩
  | succ n ih =>
      rw [Vector.ofFnM_succ] at run
      obtain ⟨as, u, before, run⟩ := exists_of_bind_ok run
      obtain ⟨a, v, final, run⟩ := exists_of_bind_ok run
      obtain ⟨rfl, rfl⟩ : as.push a = bs ∧ v = t := by simpa using run
      obtain ⟨state, rfl, rfl, calls⟩ := ih before
      refine ⟨fun k => if k ≤ n then state k else v, by simp, by simp, fun i => ?_⟩
      cases i using Fin.lastCases with
      | last =>
          have past : ¬n + 1 ≤ n := by omega
          simpa [past] using final
      | cast i =>
          have here : (i : Nat) ≤ n := by omega
          have after : (i : Nat) + 1 ≤ n := by omega
          simpa [here, after, Vector.getElem_push_lt i.isLt] using calls i

/-- Filling a tensor makes the calls for its cells in row-major order, and fails only if a call does. -/
theorem ends_fill {f : List Nat → Build σ α} (calls : ∀ c, (f c).Makes E fun _ => True) (axes : List Nat) (s : σ) :
    (Tensor.build axes fun c _ => f c).Ends E (fun _ => True)
      (fun T t => T.axes = axes ∧ T.FilledBy f s t) s := by
  have made := Makes.build (fun c (_ : Axes.InBounds axes c) => calls c) s
  rw [Ends]
  rcases run : (Tensor.build axes fun c _ => f c).runFrom s with ⟨fault | T, t⟩
  all_goals rw [run] at made
  · exact ⟨made, trivial⟩
  · rw [Tensor.build] at run
    obtain ⟨bs, u, cells, run⟩ := exists_of_bind_ok run
    obtain ⟨rfl, rfl⟩ : (⟨axes, bs⟩ : Tensor α) = T ∧ u = t := by simpa using run
    obtain ⟨state, first, last, each⟩ := exists_states cells
    refine ⟨rfl, state, first, ?_, ?_⟩
    · rw [Tensor.shape, Shape.positions_ofAxes, Axes.length_positions, last]
    · intro j c found
      rw [Tensor.shape, Shape.positions_ofAxes] at found
      obtain ⟨inside, rfl⟩ := Axes.getElem?_positions.1 found
      have call := each ⟨Axes.flat axes c, Axes.flat_lt inside⟩
      rw [Axes.coordAt_flat inside] at call
      exact ⟨inside, call⟩

/-- Filling a tensor is collecting the answers for all coordinates in a list and giving the list its axes. -/
theorem fill_eq_collect (f : List Nat → Build σ α) (axes : List Nat) :
    some <$> (Tensor.build axes fun c _ => f c) = Tensor.ofCells? axes <$> (Axes.positions axes).mapM f := by
  have inOrder : Axes.positions axes = List.ofFn fun j : Fin (Axes.volume axes) => Axes.coordAt axes j := by
    rw [Axes.positions, ← List.map_coe_finRange_eq_range, List.map_map, List.ofFn_eq_map]
    rfl
  rw [inOrder, mapM_ofFn, ← Vector.toList_ofFnM, Tensor.build]
  simp only [map_eq_pure_bind, bind_assoc, pure_bind, Tensor.ofCells?_toList]

/-- The values of a vector, taken one after the other, make the vector again. -/
theorem ofFnM_next {n : Nat} (bs : Vector α n) (rest : List α) :
    (Vector.ofFnM fun _ : Fin n => next).runFrom (bs.toList ++ rest) = (.ok bs, rest) := by
  induction n generalizing rest with
  | zero =>
      obtain rfl : bs = #v[] := Vector.eq_empty
      rw [Vector.ofFnM_zero]
      rfl
  | succ n ih =>
      obtain ⟨as, a, rfl⟩ : ∃ as a, bs = Vector.push as a := Vector.exists_push
      rw [Vector.ofFnM_succ, Vector.toList_push, List.append_assoc, runFrom_bind_ok (ih as _),
        List.singleton_append, runFrom_bind_ok (runFrom_next a rest)]
      rfl

end Build

namespace Tensor

/-- The list of the cells has the cell of a coordinate at its place. -/
theorem getElem?_toList {T : Tensor α} {j : Nat} {c : List Nat} (found : T.shape.positions[j]? = some c) :
    ∃ inside, T.toList[j]? = some (T.get c inside) := by
  rw [shape, Shape.positions_ofAxes] at found
  obtain ⟨inside, rfl⟩ := Axes.getElem?_positions.1 found
  refine ⟨inside, ?_⟩
  show T.cells.toList[Axes.flat T.axes c]? = some (T.get c inside)
  have place : Axes.flat T.axes c < T.cells.toList.length := by
    rw [Vector.length_toList]
    exact Axes.flat_lt inside
  rw [List.getElem?_eq_getElem place, Vector.getElem_toList, get]

/-- A tensor that is filled with its own cells, taken one after the other, is the same tensor. -/
theorem build_next (T : Tensor α) :
    (build T.axes fun _ _ => Build.next).runFrom T.toList = (.ok T, []) := by
  have cells := Build.ofFnM_next T.cells []
  rw [List.append_nil] at cells
  rw [build, toList, Build.runFrom_bind_ok cells]
  rfl

end Tensor

namespace Shape

variable {s : Shape}

/-- Tensors of a shape are filled with the answers of calls in row-major order, and flattening undoes filling. -/
structure FillsRowMajor (s : Shape) (axes : List Nat) : Prop where
  /-- A fill ends with the answers of the calls, or with a fault of one of them. -/
  answers : ∀ {σ α : Type} {E : Fault → Prop} {f : List Nat → Build σ α}, (∀ c, (f c).Makes E fun _ => True) →
    ∀ first, (Tensor.build axes fun c _ => f c).Ends E (fun _ => True)
      (fun T last => T.shape = s ∧ T.FilledBy f first last) first
  /-- The answers may be collected in a list first. -/
  collect : ∀ {σ α : Type} (f : List Nat → Build σ α),
    some <$> (Tensor.build axes fun c _ => f c) = Tensor.ofCells? axes <$> s.positions.mapM f
  /-- Dense tensors are created by a fill. -/
  dense : ∀ {σ : Type} (f : List Nat → Bool),
    (TensorOps.dense : TensorOps σ Bool).create s f = Tensor.build axes fun c _ => pure (f c)
  /-- Lifted tensors are created by a fill. -/
  lifted : ∀ {σ α : Type} (A : GateSet σ α) (f : List Nat → Bool),
    (TensorOps.lifted A).create s f = Tensor.build axes fun c _ => A.lift (f c)
  /-- Lifted tensors that are stored are created by a fill, if the shape can be stored. -/
  stored : ∀ {σ α : Type} (A : GateSet σ α) (f : List Nat → Bool), (TensorOps.lifted A).stored.create s f =
    .ofExcept s.checkStorage >>= fun _ => Tensor.build axes fun c _ => A.lift (f c)
  /-- The list of all cells goes through the coordinates in row-major order. -/
  flatten : ∀ {α : Type} {T : Tensor α}, T.shape = s → ∀ {j : Nat} {c}, s.positions[j]? = some c →
    ∃ inside, T.toList[j]? = some (T.get c inside)
  /-- The list of all cells, given the axes of the tensor, is the tensor. -/
  rebuild : ∀ {α : Type} {T : Tensor α}, T.shape = s → Tensor.ofCells? axes T.toList = some T ∧
    (Tensor.build axes fun _ _ => Build.next).runFrom T.toList = (.ok T, [])

theorem liftCells_ofAxes (A : GateSet σ α) (axes : List Nat) (f : List Nat → Bool) :
    TensorOps.liftCells A (ofAxes axes) f = Tensor.build axes fun c _ => A.lift (f c) := by
  rw [TensorOps.liftCells, axes?_ofAxes]

theorem fillsRowMajor (axes : List Nat) : (ofAxes axes).FillsRowMajor axes where
  answers calls first := (Build.ends_fill calls axes first).mono (fun _ => id)
    fun T last ⟨same, filled⟩ => ⟨congrArg ofAxes same, filled⟩
  collect f := by
    rw [positions_ofAxes]
    exact Build.fill_eq_collect f axes
  dense f := by
    rw [TensorOps.dense, Tensor.build_pure]
    simp only [axes?_ofAxes, Option.some_or]
  lifted A f := liftCells_ofAxes A axes f
  stored A f := by
    show (Build.ofExcept (ofAxes axes).checkStorage >>= fun _ => TensorOps.liftCells A (ofAxes axes) f) = _
    rw [liftCells_ofAxes]
  flatten := by
    rintro α T same j c found
    rw [← same] at found
    exact Tensor.getElem?_toList found
  rebuild := by
    intro α T same
    obtain rfl := ofAxes_injective same
    exact ⟨Tensor.ofCells?_toList T.cells, T.build_next⟩

/-- The coordinates of a shape without negative sizes come in row-major order, one for every flat position, and tensors
of the shape are filled and flattened in this order. A shape with a negative size has no coordinates. -/
theorem enumeration (s : Shape) :
    ((∀ n ∈ s.sizes, 0 ≤ n) → s.IsRowMajor s.positions ∧ s.FillsRowMajor (s.sizes.map Int.toNat)) ∧
    ((∃ n ∈ s.sizes, n < 0) → s.positions = []) := by
  refine ⟨fun nonneg => ⟨isRowMajor nonneg, ?_⟩, positions_eq_nil⟩
  obtain ⟨axes, rfl⟩ := exists_ofAxes nonneg
  have sizes : (ofAxes axes).sizes.map Int.toNat = axes := by simp [ofAxes, Function.comp_def]
  rw [sizes]
  exact fillsRowMajor axes

/-- The coordinates of two rows of three. An axis of size -1 leaves none. -/
theorem enumeration_rows :
    let rows : Shape := ⟨[2, 3]⟩
    let other : Shape := ⟨[2, -1]⟩
    (∀ n ∈ rows.sizes, 0 ≤ n) ∧ (∃ n ∈ other.sizes, n < 0) ∧
    rows.IsRowMajor [[0, 0], [0, 1], [0, 2], [1, 0], [1, 1], [1, 2]] ∧ rows.FillsRowMajor [2, 3] ∧
    other.positions = [] := by
  intro rows other
  have nonneg : ∀ n ∈ rows.sizes, 0 ≤ n := by decide
  have negative : ∃ n ∈ other.sizes, n < 0 := ⟨-1, by decide, by decide⟩
  obtain ⟨inOrder, fills⟩ := (enumeration rows).1 nonneg
  exact ⟨nonneg, negative, inOrder, fills, (enumeration other).2 negative⟩

end Shape

end BoolCalculus
