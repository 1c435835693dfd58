import BoolCalculus.Proofs.Predicate.Quantification
import BoolCalculus.Proofs.Universe.Refusals
import BoolCalculus.Proofs.Universe.TransitiveClosure

/-!
# Relations as predicates

The relations of arity `k` over a universe of size `n` are the tensors of predicates of arity `k` on `n` points,
and the operations on relations are read as operations on predicates.
-/

namespace BoolCalculus

namespace Axes

variable {k n : Nat}

/-- The points of a coordinate of axes of one size. -/
def points {d : List Nat} (h : InBounds (List.replicate k n) d) : Fin k → Fin n := fun i =>
  ⟨d[i.val]?.getD 0, lt_of_inBounds h (by simp)⟩

theorem inBounds_ofFn (p : Fin k → Fin n) :
    InBounds (List.replicate k n) (List.ofFn fun i => (p i).val) := by
  induction k with
  | zero => trivial
  | succ k ih =>
      rw [List.replicate_succ, List.ofFn_succ]
      exact ⟨(p 0).isLt, ih fun i => p i.succ⟩

theorem points_ofFn (p : Fin k → Fin n) : points (inBounds_ofFn p) = p := by
  funext i
  apply Fin.ext
  simp [points]

/-- A coordinate of axes of one size is that of its points. -/
theorem ofFn_points {c : List Nat} (h : InBounds (List.replicate k n) c) :
    (List.ofFn fun i => (points h i).val) = c := by
  have length : c.length = k := by simpa using length_of_inBounds h
  apply List.ext_getElem
  · simp [length]
  · intro i hi hc
    simp [points, hc]

/-- A coordinate of a cube of any arity is a row of points. -/
theorem exists_ofFn {c : List Nat} (h : InBounds (List.replicate k n) c) :
    ∃ p : Fin k → Fin n, c = List.ofFn fun i => (p i).val :=
  ⟨points h, (ofFn_points h).symm⟩

/-- The points of a coordinate that is picked are those that the mapping picks. -/
theorem points_pick {l : Nat} (m : Fin k → Fin l) {c : List Nat}
    (h : InBounds (List.replicate l n) c)
    (picked : InBounds (List.replicate k n)
      (pick c ((List.ofFn fun i => ((m i).val : Int)).map Int.toNat))) :
    points picked = points h ∘ m := by
  funext i
  apply Fin.ext
  simp [points, pick]

theorem points_cons {c : List Nat} (h : InBounds (List.replicate k n) c) (x : Fin n) :
    points (k := k + 1) (d := x.val :: c) ⟨x.isLt, h⟩ = Fin.cons x (points h) := by
  funext i
  cases i using Fin.cases with
  | zero => rfl
  | succ i => rfl

end Axes

namespace Tensor

variable {α : Type} {k l n : Nat}

/-- The tensor of a predicate. -/
def ofPredicate (P : Predicate k n α) : Tensor α :=
  ofFn (List.replicate k n) fun _ h => P (Axes.points h)

@[simp] theorem axes_ofPredicate (P : Predicate k n α) :
    (ofPredicate P).axes = List.replicate k n := rfl

theorem get_ofPredicate (P : Predicate k n α) (p : Fin k → Fin n) :
    (ofPredicate P).get (List.ofFn fun i => (p i).val) (Axes.inBounds_ofFn p) = P p := by
  unfold ofPredicate
  rw [get_ofFn, Axes.points_ofFn]

/-- A tensor has one predicate of its arity. -/
theorem ofPredicate_injective :
    Function.Injective (ofPredicate : Predicate k n α → Tensor α) := by
  intro P Q same
  funext p
  rw [← get_ofPredicate P, ← get_ofPredicate Q]
  simp only [same]

/-- Every tensor with as many axes of the size of the universe is that of a predicate. -/
theorem exists_ofPredicate {T : Tensor α} (h : T.axes = List.replicate k n) :
    ∃ P : Predicate k n α, T = ofPredicate P := by
  refine ⟨fun p => T.get _ (h ▸ Axes.inBounds_ofFn p), ext_get h fun c hT hP => ?_⟩
  obtain ⟨p, rfl⟩ := Axes.exists_ofFn hP
  exact (get_ofPredicate (fun p => T.get _ (h ▸ Axes.inBounds_ofFn p)) p).symm

theorem ofPredicate_le_iff [PartialOrder α] {P Q : Predicate k n α} :
    ofPredicate P ≤ ofPredicate Q ↔ P ≤ Q := by
  constructor
  · intro le p
    rcases le with ⟨_, below⟩
    have cell := below _ (Axes.inBounds_ofFn p)
    rwa [get_ofPredicate, get_ofPredicate] at cell
  · intro below
    refine ⟨rfl, fun c h => ?_⟩
    obtain ⟨p, rfl⟩ := Axes.exists_ofFn h
    rw [get_ofPredicate, get_ofPredicate]
    exact below p

theorem zip?_ofPredicate (f : α → α → α) (P Q : Predicate k n α) :
    (ofPredicate P).zip? f (ofPredicate Q) = .ok (ofPredicate fun p => f (P p) (Q p)) := by
  rw [zip?_of_eq f (by rfl)]
  unfold ofPredicate
  rw [zip_ofFn]

/-- The disjunction over the first axis quantifies over the first coordinate. -/
theorem foldFirst_ofPredicate [BooleanAlgebra α] (P : Predicate (k + 1) n α) :
    (ofPredicate P).foldFirst (· ⊔ ·) ⊥ = .ok (ofPredicate P.ex) := by
  refine (foldFirst_ofFn (· ⊔ ·) ⊥ _).trans (congrArg Except.ok ?_)
  refine congrArg (ofFn _) (funext fun c => funext fun h => ?_)
  unfold Predicate.ex
  congr
  funext acc x
  rw [← Axes.points_cons]

/-- A mapping into coordinates that are there has no misfit. -/
theorem misfit?_ofPredicate (P : Predicate k n α) (m : Fin k → Fin l) :
    (Shape.rectangular l n).misfit? (ofPredicate P).shape (List.ofFn fun i => ((m i).val : Int)) =
      none := by
  have inside : ∀ target ∈ List.ofFn fun i => ((m i).val : Int),
      0 ≤ target ∧ target < max (l : Int) 0 := by
    intro target mem
    obtain ⟨i, rfl⟩ := List.mem_ofFn.1 mem
    have below := (m i).isLt
    omega
  rw [Universe.misfit?_relReindex (by simp)]
  simp only [Universe.Step.mismatch?, List.length_ofFn, axes_ofPredicate, List.length_replicate,
    if_true, Option.map_eq_none_iff, List.find?_eq_none]
  intro target mem
  simpa using inside target mem

/-- Reindexing along a mapping moves the predicate along it. -/
theorem reindex?_ofPredicate (P : Predicate k n α) (m : Fin k → Fin l) :
    (ofPredicate P).reindex? (.rectangular l n) (List.ofFn fun i => ((m i).val : Int)) =
      .ok (ofPredicate (P.move m)) := by
  obtain ⟨fits, moved⟩ := reindex?_fits (misfit?_ofPredicate P m) (axes?_rectangular l)
  rw [moved]
  refine congrArg Except.ok ((reindex_ofFn _ fits).trans ?_)
  refine congrArg (ofFn _) (funext fun c => funext fun h => ?_)
  exact congrArg P (Axes.points_pick m h (Axes.inBounds_pick fits h))

end Tensor

namespace Valuation

variable {σ α B : Type} {V : Valuation σ α B} {O : TensorOps σ α} {k l n : Nat} {s : σ}
variable {R S : Tensor α}

variable (V) in
/-- In a state, a tensor is there and is read as a predicate. -/
abbrev IsPredicate (s : σ) (R : Tensor α) (P : Predicate k n B) : Prop :=
  V.IsTensor s R (.ofPredicate P)

theorem runs_isPredicate_iff {act : Build σ (Tensor α)} {P : Predicate k n B} :
    V.Runs V.IsPredicate s act (.ok P) ↔ V.Runs V.IsTensor s act (.ok (.ofPredicate P)) :=
  ⟨fun runs => runs.relate id, fun runs => runs.relate id⟩

theorem requireRelations_isPredicate {P : Predicate k n B} (hR : V.IsPredicate s R P) :
    (Universe.mk O n).requireRelations [R] = pure k := by
  have axes : R.axes = List.replicate k n := hR.axes_eq.symm
  have like : Universe.unlike? .relation n [R] = none := by
    simp [Universe.unlike?, OperandKind.axes, axes]
  rw [Universe.requireRelations_one, like]
  simp [Build.refuse, axes]

theorem requireRelations_arePredicates {P Q : Predicate k n B} (hR : V.IsPredicate s R P)
    (hS : V.IsPredicate s S Q) : (Universe.mk O n).requireRelations [R, S] = pure k := by
  have axes : R.axes = List.replicate k n := hR.axes_eq.symm
  have axes' : S.axes = List.replicate k n := hS.axes_eq.symm
  have like : Universe.unlike? .relation n [R, S] = none := by
    simp [Universe.unlike?, OperandKind.axes, axes, axes']
  rw [Universe.requireRelations_two, like]
  simp [Build.refuse, Universe.Step.mismatch?, axes, axes']

namespace Reads

variable [BooleanAlgebra B] {allowed : Shape → Prop} (reads : V.Reads allowed O)

include reads

theorem runs_relMeet {P Q : Predicate k n B} (hR : V.IsPredicate s R P)
    (hS : V.IsPredicate s S Q) :
    V.Runs V.IsPredicate s ((Universe.mk O n).relMeet R S) (.ok (P ⊓ Q)) := by
  have both := reads.and hR hS
  rw [Tensor.zip?_ofPredicate] at both
  rw [Universe.relMeet, requireRelations_arePredicates hR hS, pure_bind]
  exact runs_isPredicate_iff.2 both

theorem runs_relJoin {P Q : Predicate k n B} (hR : V.IsPredicate s R P)
    (hS : V.IsPredicate s S Q) :
    V.Runs V.IsPredicate s ((Universe.mk O n).relJoin R S) (.ok (P ⊔ Q)) := by
  have either := reads.or hR hS
  rw [Tensor.zip?_ofPredicate] at either
  rw [Universe.relJoin, requireRelations_arePredicates hR hS, pure_bind]
  exact runs_isPredicate_iff.2 either

theorem runs_relReindex {P : Predicate k n B} (target : allowed (.rectangular l n))
    (m : Fin k → Fin l) (hR : V.IsPredicate s R P) :
    V.Runs V.IsPredicate s
      ((Universe.mk O n).relReindex R l (List.ofFn fun i => ((m i).val : Int))) (.ok (P.move m)) := by
  have moved := reads.reindex (List.ofFn fun i => ((m i).val : Int)) target hR
  rw [Tensor.reindex?_ofPredicate] at moved
  rw [Universe.relReindex, requireRelations_isPredicate hR, pure_bind]
  exact runs_isPredicate_iff.2 moved

/-- A projection joins the predicate over its first argument. -/
theorem runs_relExists {P : Predicate (k + 1) n B} (hR : V.IsPredicate s R P) :
    V.Runs V.IsPredicate s ((Universe.mk O n).relExists R) (.ok P.ex) := by
  have some := reads.any hR
  rw [Tensor.foldFirst_ofPredicate] at some
  rw [Universe.relExists, requireRelations_isPredicate hR, pure_bind, if_neg (Nat.succ_ne_zero k)]
  exact runs_isPredicate_iff.2 some

end Reads

end Valuation

end BoolCalculus
