import BoolCalculus.Proofs.Shape.Storage
import BoolCalculus.Proofs.Tensor.Cost
import BoolCalculus.Proofs.Universe.Axes
import BoolCalculus.Proofs.Word.Cost
import Mathlib.Data.Nat.Size

/-!
# The cost of constructions

Over gates that derive all but their primitives, the number of primitives that a construction calls is fixed by the
sizes alone: by the length of words, and by the number of points of a universe, which tells the rounds of a closure as
well (`Universe.cost_of_sizes`).
-/

namespace BoolCalculus

/-- The cells of a tensor whose axes all have one size. -/
theorem Axes.volume_replicate (rank n : Nat) : volume (List.replicate rank n) = n ^ rank := by
  induction rank with
  | zero => rfl
  | succ rank ih => rw [List.replicate_succ, volume, ih, pow_succ']

namespace Universe

open Build

variable {σ α : Type} {E : Fault → Prop} {n : Nat}

/-! ## Rounds -/

/-- The number of times that relations over `n` points are squared, one more than the binary digits of `n - 1`. -/
def squarings (n : Nat) : Nat :=
  Nat.size (n - 1) + 1

theorem le_two_pow_squarings (n : Nat) : n ≤ 2 ^ (squarings n - 1) :=
  Nat.le_of_pred_lt (Nat.lt_size_self (n - 1))

/-- A closure takes as many rounds as a path needs squarings. -/
theorem rounds_eq_squarings (U : Universe σ α) : U.rounds = squarings U.size := by
  have digits : ∀ m, binaryLength m = Nat.size m := by
    intro m
    rw [binaryLength]
    split
    case isTrue zero => rw [zero, Nat.size_zero]
    case isFalse nonzero =>
      apply Nat.le_antisymm
      · exact Nat.lt_size.2 (Nat.log2_self_le nonzero)
      · exact Nat.size_le.2 Nat.lt_log2_self
  rw [rounds, digits, squarings]

/-! ## Relations -/

variable {allowed : Shape → Prop} {O : TensorOps σ α} {O' : TensorOps (Metered σ) α} {R S : Tensor α}

section

variable (meters : TensorOps.Meters E allowed O' O)

include meters

theorem callsExactly_diag (square : allowed (.rectangular 2 n)) :
    CallsExactly E (n ^ 2) (·.axes = [n, n]) (mk O' n).diag (mk O n).diag := by
  have calls := meters.create (fun coord => coord[0]? == coord[1]?) square (Tensor.axes?_rectangular 2)
  exact calls.of_eq (Axes.volume_replicate 2 n)

theorem callsExactly_join (hR : R.axes = [n, n]) (hS : S.axes = [n, n]) :
    CallsExactly E (n ^ 2) (·.axes = [n, n]) ((mk O' n).join R S) ((mk O n).join R S) := by
  rw [join, join, requireBinary_ok _ (by simp [hR, hS]), requireBinary_ok _ (by simp [hR, hS]), pure_bind, pure_bind]
  exact (meters.or hR hS).of_eq (Axes.volume_replicate 2 n)

section

variable (cube : allowed (.rectangular 3 n))

include cube

/-- A relation is moved into the cube. -/
theorem callsExactly_moved {a b : Nat} (hR : R.axes = [n, n]) (ha : a < 3) (hb : b < 3) :
    CallsExactly E 0 (·.axes = [n, n, n]) (O'.reindex R (.rectangular 3 n) [(a : Int), (b : Int)])
      (O.reindex R (.rectangular 3 n) [(a : Int), (b : Int)]) :=
  meters.reindex cube (Tensor.misfit?_square hR ha hb) (Tensor.axes?_rectangular 3)

/-- The conjunction calls a gate for every cell of the cube, and the disjunction over the shared point another one,
besides its start. -/
theorem callsExactly_circ (hR : R.axes = [n, n]) (hS : S.axes = [n, n]) :
    CallsExactly E (2 * n ^ 3 + 1) (·.axes = [n, n]) ((mk O' n).circ R S) ((mk O n).circ R S) := by
  have cells : Axes.volume [n, n, n] = n ^ 3 := Axes.volume_replicate 3 n
  have fibres : Axes.volume [n, n] * n = n ^ 3 := by
    rw [pow_succ]
    exact congrArg (· * n) (Axes.volume_replicate 2 n)
  rw [circ, circ, requireBinary_ok _ (by simp [hR, hS]), requireBinary_ok _ (by simp [hR, hS]), pure_bind, pure_bind]
  have composed := (callsExactly_moved (a := 1) (b := 0) meters cube hR (by decide) (by decide)).bind fun left axes =>
    (callsExactly_moved (a := 0) (b := 2) meters cube hS (by decide) (by decide)).bind fun right axes' =>
      (meters.and axes axes').bind fun both axes => meters.any axes
  -- The cells of the cube are counted twice: once as cells and once by the fibres that go through them.
  refine composed.of_eq ?_
  rw [cells, fibres]
  omega

/-- Every squaring takes a composition and a join. -/
theorem callsExactly_square (k : Nat) {R : Tensor α} (hR : R.axes = [n, n]) :
    CallsExactly E (k * (2 * n ^ 3 + n ^ 2 + 1)) (·.axes = [n, n]) ((mk O' n).square k R) ((mk O n).square k R) := by
  induction k generalizing R with
  | zero =>
      rw [Nat.zero_mul]
      exact .pure hR
  | succ k ih =>
      have round := (callsExactly_circ meters cube hR hR).bind fun twice axes =>
        (callsExactly_join meters hR axes).bind fun both axes' => ih axes'
      refine round.of_eq ?_
      rw [Nat.succ_mul k]
      omega

/-- The rounds of a closure are fixed beforehand; a reflexive one makes the diagonal and joins it first. -/
theorem callsExactly_closure (square : allowed (.rectangular 2 n)) (hR : R.axes = [n, n]) (reflexive : Bool) :
    CallsExactly E (squarings n * (2 * n ^ 3 + n ^ 2 + 1) + if reflexive then 2 * n ^ 2 else 0) (·.axes = [n, n])
      ((mk O' n).closure R reflexive) ((mk O n).closure R reflexive) := by
  have squares : ∀ {T : Tensor α}, T.axes = [n, n] →
      CallsExactly E (squarings n * (2 * n ^ 3 + n ^ 2 + 1)) (·.axes = [n, n])
        ((mk O' n).square (mk O' n).rounds T) ((mk O n).square (mk O n).rounds T) := by
    intro T axes
    rw [rounds_eq_squarings, rounds_eq_squarings]
    exact callsExactly_square meters cube _ axes
  cases reflexive with
  | false => exact squares hR
  | true =>
      have joined := (callsExactly_diag meters square).bind fun D axes =>
        (callsExactly_join meters hR axes).bind fun both axes' => squares axes'
      refine joined.of_eq ?_
      rw [if_pos rfl]
      omega

end

end

/-- Compositions and closures of relations over `n` points make relations, and call as many primitives as `n` tells. -/
structure CostOfSize (E : Fault → Prop) (O' : TensorOps (Metered σ) α) (O : TensorOps σ α) (n : Nat) : Prop where
  circ : ∀ R S, (mk O n).isBinaryRelation R → (mk O n).isBinaryRelation S →
    CallsExactly E (2 * n ^ 3 + 1) (fun T => (mk O n).isBinaryRelation T) ((mk O' n).circ R S) ((mk O n).circ R S)
  closure : ∀ R, (mk O n).isBinaryRelation R → ∀ reflexive,
    CallsExactly E (squarings n * (2 * n ^ 3 + n ^ 2 + 1) + if reflexive then 2 * n ^ 2 else 0)
      (fun T => (mk O n).isBinaryRelation T) ((mk O' n).closure R reflexive) ((mk O n).closure R reflexive)

/-- The costs hold in every universe whose cube is allowed. -/
theorem costOfSize (meters : TensorOps.Meters E allowed O' O) (square : allowed (.rectangular 2 n))
    (cube : allowed (.rectangular 3 n)) : CostOfSize E O' O n where
  circ := by
    intro R S hR hS
    rw [isBinaryRelation_iff] at hR hS
    exact (callsExactly_circ meters cube hR hS).weaken fun T => (mk O n).isBinaryRelation_iff.2
  closure := by
    intro R hR reflexive
    rw [isBinaryRelation_iff] at hR
    exact (callsExactly_closure meters cube square hR reflexive).weaken fun T => (mk O n).isBinaryRelation_iff.2

/-- Over gates that derive all but their primitives, whatever these do and whatever the elements are, sums, differences and
negatives call as many primitives as the length of the words tells, and compositions and closures over lifted tensors as
many as the number of points tells. For stored tensors the cube that a composition goes through must be one that can be
stored. -/
theorem cost_of_sizes {A : GateSet σ α} (derived : A.IsDerived) (gates : A.FailsWithin E) :
    Word.CostOfLength E A.metered A ∧ ∀ n,
      n ≤ 2 ^ (squarings n - 1) ∧ CostOfSize E (.lifted A.metered) (.lifted A) n ∧
        ((Shape.rectangular 3 n).checkStorage = .ok () →
          CostOfSize E (TensorOps.lifted A.metered).stored (TensorOps.lifted A).stored n) := by
  have meters := GateSet.meters_metered derived gates
  have lifted := TensorOps.Meters.lifted meters
  constructor
  · exact ⟨fun _ _ same => Word.callsExactly_add meters same, fun _ _ same => Word.callsExactly_sub meters same,
      Word.callsExactly_neg meters⟩
  · intro n
    refine ⟨le_two_pow_squarings n, costOfSize lifted trivial trivial, fun cube => ?_⟩
    exact costOfSize lifted.stored (Shape.checkStorage_square cube) cube

/-- A circuit of four inputs is built further: a sum of two bits each calls 27 gates, a composition over two points 17 and
a reflexive closure 50. -/
theorem cost_of_sizes_circuit :
    let A : GateSet (Circuit Nat) Nat := Circuit.gates id
    let R : Tensor Nat := .ofFn [2, 2] fun c _ => Axes.flat [2, 2] c
    let start : Metered (Circuit Nat) := ⟨.replicate 4 .input, 0⟩
    A.IsDerived ∧ A.FailsWithin (fun _ => False) ∧
      (∃ sum c, (Word.add A.metered [0, 1] [2, 3]).runFrom start = (.ok sum, ⟨c, 27⟩)) ∧
      (∃ T c, ((mk (.lifted A.metered) 2).circ R R).runFrom start = (.ok T, ⟨c, 17⟩)) ∧
      ∃ T c, ((mk (TensorOps.lifted A.metered).stored 2).closure R true).runFrom start = (.ok T, ⟨c, 50⟩) := by
  intro A R start
  have total : A.FailsWithin fun _ => False := Circuit.total_gates id
  obtain ⟨words, relations⟩ := cost_of_sizes (A := A) rfl total
  obtain ⟨-, lifted, stored⟩ := relations 2
  have storable : (Shape.rectangular 3 (2 : Nat)).checkStorage = .ok () := rfl
  have binary : (mk (TensorOps.lifted A).stored 2).isBinaryRelation R := rfl
  have twice : squarings 2 = 2 := by decide
  have closed := (stored storable).closure R binary true
  rw [twice] at closed
  obtain ⟨sum, c, -, -, added⟩ := (words.add [0, 1] [2, 3] rfl).counts start
  obtain ⟨T, c', -, -, composed⟩ := (lifted.circ R R binary binary).counts start
  obtain ⟨T', c'', -, -, closed⟩ := closed.counts start
  exact ⟨rfl, total, ⟨sum, c, added⟩, ⟨T, c', composed⟩, T', c'', closed⟩

end Universe

end BoolCalculus
