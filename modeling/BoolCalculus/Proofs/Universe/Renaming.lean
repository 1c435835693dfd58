import BoolCalculus.Proofs.Matrix.Renaming
import BoolCalculus.Proofs.Universe.Refusals

/-!
# Renaming the points of a universe

A permutation of the points of a universe acts on its binary relations. On truth values, every operation of the
universe on binary relations does the same before and after such a renaming: it makes the renamed relation, or
fails with the same fault. The comparisons of two relations have the same value. Operands may have any shape,
since a requirement names shapes alone.
-/

namespace BoolCalculus

namespace Build

variable {σ β β' γ γ' : Type} {g : β → γ} {g' : β' → γ'}

/-- Both constructions have an outcome that no state has a part in, and that of the second is that of the first with
`g` applied to what is made. -/
def Maps (g : β → γ) (act : Build σ β) (act' : Build σ γ) : Prop :=
  ∃ r, act = .ofExcept r ∧ act' = .ofExcept (r.map g)

namespace Maps

theorem pure {b : β} {c : γ} (same : c = g b) : Maps g (pure b : Build σ β) (pure c) :=
  ⟨.ok b, rfl, by rw [same]; rfl⟩

theorem throw (f : Fault) : Maps g (throw f : Build σ β) (throw f) :=
  ⟨.error f, rfl, rfl⟩

theorem bind {act : Build σ β} {act' : Build σ γ} {next : β → Build σ β'} {next' : γ → Build σ γ'}
    (first : act.Maps g act') (rest : ∀ b, (next b).Maps g' (next' (g b))) :
    (act >>= next).Maps g' (act' >>= next') := by
  obtain ⟨r, rfl, rfl⟩ := first
  cases r with
  | error f => exact ⟨.error f, rfl, rfl⟩
  | ok b => exact rest b

/-- An action that maps to another one determines it. -/
theorem eq_map {act : Build σ β} {act' : Build σ γ} (h : act.Maps g act') : act' = g <$> act := by
  obtain ⟨r, rfl, rfl⟩ := h
  cases r <;> rfl

theorem follows {E : Fault → Prop} {act : Build σ β} {act' : Build σ γ} (h : act.Maps g act') :
    act.Follows E (fun b c => c = g b) act' := by
  obtain ⟨r, rfl, rfl⟩ := h
  intro s t
  cases r with
  | error f => exact .error f
  | ok b => exact .ok rfl

/-- What is made may be made as it is. -/
theorem follows_same {E : Fault → Prop} {act act' : Build σ β} (h : act.Maps id act') :
    act.Follows E (· = ·) act' := by
  obtain ⟨r, rfl, rfl⟩ := h
  intro s t
  cases r with
  | error f => exact .error f
  | ok b => exact .ok rfl

end Maps

end Build

namespace Tensor

variable {α : Type} {n : Nat} (p : Equiv.Perm (Fin n))

/-- The binary relation with every point `x` renamed to `p x`. Tensors of other axes stay as they are. -/
def rename (T : Tensor α) : Tensor α :=
  if h : T.axes = [n, n] then ofMatrix (Matrix.rename p (T.toMatrix h)) else T

theorem rename_ofMatrix (M : Matrix n α) : (ofMatrix M).rename p = ofMatrix (Matrix.rename p M) := by
  have square : (ofMatrix M).axes = [n, n] := rfl
  have same : (ofMatrix M).toMatrix square = M := ofMatrix_injective (ofMatrix_toMatrix square)
  rw [rename, dif_pos square, same]

@[simp] theorem axes_rename (T : Tensor α) : (T.rename p).axes = T.axes := by
  unfold rename
  split
  · rename_i square
    exact square.symm
  · rfl

@[simp] theorem shape_rename (T : Tensor α) : (T.rename p).shape = T.shape :=
  congrArg Shape.ofAxes (axes_rename p T)

end Tensor

namespace Universe

open BoolCalculus.Valuation

variable {σ α β : Type} {n : Nat}

/-! ## Operands -/

section

variable (U : Universe σ α) (p : Equiv.Perm (Fin U.size))

/-- Whether operands are accepted does not depend on the names of points. -/
theorem requireBinary_rename (operands : List (Tensor α)) :
    U.requireBinary (operands.map (Tensor.rename p)) = U.requireBinary operands := by
  induction operands with
  | nil => rfl
  | cons T operands ih =>
      change (U.require _ .binaryRelation 2 (T.rename p) >>= fun _ =>
        U.requireBinary (operands.map (Tensor.rename p))) = _
      rw [ih, isBinaryRelation, isRelation, require, Tensor.shape_rename]
      rfl

/-- Operands are all binary relations, or they are refused with one fault before and after a renaming. -/
theorem binary_or_refused (operands : List (Tensor α)) :
    (∀ T ∈ operands, T.axes = [U.size, U.size]) ∨
      ∃ f, U.requireBinary operands = throw f ∧
        U.requireBinary (operands.map (Tensor.rename p)) = throw f := by
  rw [requireBinary_rename, requireBinary_eq]
  cases found : unlike? .binaryRelation U.size operands with
  | none => exact .inl (unlike?_eq_none found)
  | some cause => exact .inr ⟨.shapeMismatch cause, rfl, rfl⟩

variable {U} {p}

/-- An operation that requires a binary relation commutes with a renaming if it does so on matrices. -/
theorem rename_of_matrix {f rest : Tensor α → Build σ β} {g : β → β}
    (required : ∀ R, f R = U.requireBinary [R] >>= fun _ => rest R)
    (square : ∀ M : Matrix U.size α, (f (.ofMatrix M)).Maps g (f (.ofMatrix (Matrix.rename p M))))
    (R : Tensor α) : (f R).Maps g (f (R.rename p)) := by
  rcases U.binary_or_refused p [R] with binary | ⟨f, refused, refused'⟩
  · obtain ⟨M, rfl⟩ := Tensor.exists_ofMatrix (binary R (.head _))
    rw [Tensor.rename_ofMatrix]
    exact square M
  · rw [List.map_singleton] at refused'
    rw [required, required, refused, refused']
    exact .throw f

/-- So does an operation that requires two of them. -/
theorem rename_of_matrices {f rest : Tensor α → Tensor α → Build σ β} {g : β → β}
    (required : ∀ R S, f R S = U.requireBinary [R, S] >>= fun _ => rest R S)
    (square : ∀ M N : Matrix U.size α, (f (.ofMatrix M) (.ofMatrix N)).Maps g
      (f (.ofMatrix (Matrix.rename p M)) (.ofMatrix (Matrix.rename p N))))
    (R S : Tensor α) : (f R S).Maps g (f (R.rename p) (S.rename p)) := by
  rcases U.binary_or_refused p [R, S] with binary | ⟨f, refused, refused'⟩
  · obtain ⟨M, rfl⟩ := Tensor.exists_ofMatrix (binary R (.head _))
    obtain ⟨N, rfl⟩ := Tensor.exists_ofMatrix (binary S (.tail _ (.head _)))
    rw [Tensor.rename_ofMatrix, Tensor.rename_ofMatrix]
    exact square M N
  · rw [List.map_cons, List.map_singleton] at refused'
    rw [required, required, refused, refused']
    exact .throw f

end

/-! ## Operations on truth values -/

/-- A shape is refused with one fault, whatever is made or moved into it. -/
structure RefusesShape (O : TensorOps σ α) (shape : Shape) (f : Fault) : Prop where
  create : ∀ g, O.create shape g = throw f
  reindex : ∀ {T mapping}, shape.misfit? T.shape mapping = none → O.reindex T shape mapping = throw f

/-- The tensor operations on truth values: dense ones, and lifted ones over the two-element algebra, with the limits of
storage or without. -/
inductive TruthTensors : TensorOps σ Bool → Prop
  | dense : TruthTensors .dense
  | lifted (check : Bool) : TruthTensors (.lifted (.boolean check))
  | stored (check : Bool) : TruthTensors (TensorOps.lifted (.boolean check)).stored

/-- Such operations keep the state and compute on truth values, and a shape whose axes have one size is allowed or
refused. -/
theorem TruthTensors.reads {O : TensorOps σ Bool} (ops : TruthTensors O) (n : Nat) :
    ∃ allowed : Shape → Prop, still.Reads allowed O ∧
      ∀ rank : Nat, allowed (.rectangular rank n) ∨ ∃ f, RefusesShape O (.rectangular rank n) f := by
  cases ops with
  | dense =>
      refine ⟨_, .dense fun _ _ => ⟨trivial, rfl⟩, ?_⟩
      intro rank
      exact .inl (Tensor.isSome_axes?_rectangular rank n)
  | lifted check =>
      refine ⟨_, .lifted (respects_boolean readsTruths_still check), ?_⟩
      intro rank
      exact .inl trivial
  | stored check =>
      refine ⟨_, .storable_lifted (respects_boolean readsTruths_still check), ?_⟩
      intro rank
      cases limits : (Shape.rectangular rank n).checkStorage with
      | ok => exact .inl rfl
      | error f =>
          refine .inr ⟨f, ?_, ?_⟩
          · intro g
            change (Build.ofExcept (Shape.checkStorage _) >>= fun _ => _) = _
            rw [limits]
            rfl
          · intro T mapping fits
            exact stored_reindex_refused _ fits limits

/-- A construction that keeps the state and makes one tensor from every state is that tensor. -/
theorem eq_pure_of_runs {act : Build σ (Tensor Bool)} {X : Tensor Bool}
    (runs : ∀ s, still.Runs still.IsTensor s act (.ok X)) : act = pure X := by
  apply Build.ext_runFrom
  intro s
  cases runs s with
  | ok run later is =>
      obtain rfl := isTensor_still.1 is
      rw [run, ← show s = _ from later]
      rfl

theorem eq_ofMatrix_of_runs {act : Build σ (Tensor Bool)} {M : Matrix n Bool}
    (runs : ∀ s, still.Runs still.IsMatrix s act (.ok M)) : act = pure (.ofMatrix M) :=
  eq_pure_of_runs fun s => (runs s).relate id

theorem isMatrix_still (s : σ) (M : Matrix n Bool) : still.IsMatrix s (.ofMatrix M) M :=
  isTensor_still.2 rfl

section

variable {O : TensorOps σ Bool} {p : Equiv.Perm (Fin n)}

/-- Actions that are read as a matrix and as the renamed one map to one another. -/
theorem maps_ofMatrix {M N : Matrix n Bool} {act act' : Build σ (Tensor Bool)}
    (runs : ∀ s, still.Runs still.IsMatrix s act (.ok M))
    (runs' : ∀ s, still.Runs still.IsMatrix s act' (.ok N)) (same : N = Matrix.rename p M) :
    act.Maps (Tensor.rename p) act' := by
  rw [eq_ofMatrix_of_runs runs, eq_ofMatrix_of_runs runs', same]
  exact .pure (Tensor.rename_ofMatrix p M).symm

/-- Comparisons with values that tell properties of matrices have the same value where the properties are one. -/
theorem maps_compared {P P' : Prop} {act act' : Build σ (Tensor Bool)}
    (compared : ∀ s, ∃ v, still.Runs still.IsTensor s act (.ok (.scalar v)) ∧ (v = ⊤ ↔ P))
    (compared' : ∀ s, ∃ v, still.Runs still.IsTensor s act' (.ok (.scalar v)) ∧ (v = ⊤ ↔ P'))
    (same : P' ↔ P) : act.Maps id act' := by
  classical
  have value : ∀ {P : Prop} {v : Bool}, (v = ⊤ ↔ P) → v = decide P := by
    intro P v greatest
    rw [Bool.eq_iff_iff, decide_eq_true_iff]
    exact greatest
  have made : act = pure (.scalar (decide P)) := by
    apply eq_pure_of_runs
    intro s
    obtain ⟨v, runs, greatest⟩ := compared s
    rwa [← value greatest]
  have made' : act' = pure (.scalar (decide P)) := by
    apply eq_pure_of_runs
    intro s
    obtain ⟨v, runs, greatest⟩ := compared' s
    rwa [← value (greatest.trans same)]
  rw [made, made']
  exact .pure rfl

variable (ops : TruthTensors O) (p)

include ops

theorem rename_comp (R : Tensor Bool) :
    ((mk O n).comp R).Maps (Tensor.rename p) ((mk O n).comp (R.rename p)) := by
  obtain ⟨_, reads, _⟩ := ops.reads n
  apply rename_of_matrix (f := (mk O n).comp) (fun _ => rfl)
  intro M
  apply maps_ofMatrix
  · exact fun s => reads.runs_comp (isMatrix_still s M)
  · exact fun s => reads.runs_comp (isMatrix_still s _)
  · exact (Matrix.rename_compl p M).symm

theorem rename_meet (R S : Tensor Bool) :
    ((mk O n).meet R S).Maps (Tensor.rename p) ((mk O n).meet (R.rename p) (S.rename p)) := by
  obtain ⟨_, reads, _⟩ := ops.reads n
  apply rename_of_matrices (f := (mk O n).meet) (fun _ _ => rfl)
  intro M N
  apply maps_ofMatrix
  · exact fun s => reads.runs_meet (isMatrix_still s M) (isMatrix_still s N)
  · exact fun s => reads.runs_meet (isMatrix_still s _) (isMatrix_still s _)
  · exact (Matrix.rename_inf p M N).symm

theorem rename_join (R S : Tensor Bool) :
    ((mk O n).join R S).Maps (Tensor.rename p) ((mk O n).join (R.rename p) (S.rename p)) := by
  obtain ⟨_, reads, _⟩ := ops.reads n
  apply rename_of_matrices (f := (mk O n).join) (fun _ _ => rfl)
  intro M N
  apply maps_ofMatrix
  · exact fun s => reads.runs_join (isMatrix_still s M) (isMatrix_still s N)
  · exact fun s => reads.runs_join (isMatrix_still s _) (isMatrix_still s _)
  · exact (Matrix.rename_sup p M N).symm

/-- Where the square cannot be stored, every inverse is refused with the same fault. -/
theorem rename_inv (R : Tensor Bool) :
    ((mk O n).inv R).Maps (Tensor.rename p) ((mk O n).inv (R.rename p)) := by
  obtain ⟨_, reads, shapes⟩ := ops.reads n
  apply rename_of_matrix (f := (mk O n).inv) (fun _ => rfl)
  intro M
  rcases shapes 2 with square | ⟨f, refuses⟩
  · apply maps_ofMatrix
    · exact fun s => reads.runs_inv square (isMatrix_still s M)
    · exact fun s => reads.runs_inv square (isMatrix_still s _)
    · exact (Matrix.rename_transpose p M).symm
  · have refused : ∀ N : Matrix n Bool, (mk O n).inv (.ofMatrix N) = throw f := by
      intro N
      have square : (Tensor.ofMatrix N).axes = [n, n] := rfl
      rw [inv, requireBinary_ok _ (by simp), pure_bind]
      exact refuses.reindex (Tensor.misfit?_square (a := 1) (b := 0) square (by decide) (by decide))
    rw [refused, refused]
    exact .throw f

/-- Where the cube cannot be stored, every composition is refused with the same fault. -/
theorem rename_circ (R S : Tensor Bool) :
    ((mk O n).circ R S).Maps (Tensor.rename p) ((mk O n).circ (R.rename p) (S.rename p)) := by
  obtain ⟨_, reads, shapes⟩ := ops.reads n
  apply rename_of_matrices (f := (mk O n).circ) (fun _ _ => rfl)
  intro M N
  rcases shapes 3 with cube | ⟨f, refuses⟩
  · apply maps_ofMatrix
    · exact fun s => reads.runs_circ cube (isMatrix_still s M) (isMatrix_still s N)
    · exact fun s => reads.runs_circ cube (isMatrix_still s _) (isMatrix_still s _)
    · exact (Matrix.rename_comp p M N).symm
  · have refused : ∀ M N : Matrix n Bool, (mk O n).circ (.ofMatrix M) (.ofMatrix N) = throw f := by
      intro M N
      have square : (Tensor.ofMatrix M).axes = [n, n] := rfl
      have moved := refuses.reindex
        (Tensor.misfit?_square (a := 1) (b := 0) square (by decide) (by decide))
      rw [circ, requireBinary_ok _ (by simp), pure_bind]
      change (O.reindex _ (.rectangular (3 : Nat) n) [((1 : Nat) : Int), ((0 : Nat) : Int)] >>= _) = _
      rw [moved]
      rfl
    rw [refused, refused]
    exact .throw f

/-- A relation that is made for itself is its own renaming. -/
theorem rename_create {g : List Nat → Bool} {M : Matrix n Bool}
    (created : ∀ {allowed}, still.Reads allowed O → allowed (.rectangular (2 : Nat) n) → ∀ s,
      still.Runs still.IsMatrix s (O.create (.rectangular (2 : Nat) n) g) (.ok M))
    (same : Matrix.rename p M = M) :
    (O.create (.rectangular (2 : Nat) n) g).Maps (Tensor.rename p)
      (O.create (.rectangular (2 : Nat) n) g) := by
  obtain ⟨_, reads, shapes⟩ := ops.reads n
  rcases shapes 2 with square | ⟨f, refuses⟩
  · exact maps_ofMatrix (created reads square) (created reads square) same.symm
  · rw [refuses.create]
    exact .throw f

/-- A renaming keeps the diagonal, since it is a permutation. -/
theorem rename_diag : (mk O n).diag.Maps (Tensor.rename p) (mk O n).diag :=
  rename_create p ops (fun reads square _ => reads.runs_diag square) (Matrix.rename_diag p)

theorem rename_binLift (b : Bool) : ((mk O n).binLift b).Maps (Tensor.rename p) ((mk O n).binLift b) :=
  rename_create p ops (fun reads square _ => reads.runs_binLift square b) (Matrix.rename_const p _)

/-- Renamed relations are compared as the relations are. -/
theorem rename_equals (R S : Tensor Bool) :
    ((mk O n).equals R S).Maps id ((mk O n).equals (R.rename p) (S.rename p)) := by
  obtain ⟨_, reads, _⟩ := ops.reads n
  apply rename_of_matrices (f := (mk O n).equals) (fun _ _ => rfl)
  intro M N
  apply maps_compared
  · exact fun s => reads.runs_equals (isMatrix_still s M) (isMatrix_still s N)
  · exact fun s => reads.runs_equals (isMatrix_still s _) (isMatrix_still s _)
  · exact (Matrix.rename_injective p).eq_iff

theorem rename_leq (R S : Tensor Bool) :
    ((mk O n).leq R S).Maps id ((mk O n).leq (R.rename p) (S.rename p)) := by
  obtain ⟨_, reads, _⟩ := ops.reads n
  apply rename_of_matrices (f := (mk O n).leq) (fun _ _ => rfl)
  intro M N
  apply maps_compared
  · exact fun s => reads.runs_leq (isMatrix_still s M) (isMatrix_still s N)
  · exact fun s => reads.runs_leq (isMatrix_still s _) (isMatrix_still s _)
  · exact Matrix.rename_le_iff p

/-- Every round of squaring commutes with a renaming. -/
theorem rename_square (k : Nat) (R : Tensor Bool) :
    ((mk O n).square k R).Maps (Tensor.rename p) ((mk O n).square k (R.rename p)) := by
  induction k generalizing R with
  | zero => exact .pure rfl
  | succ k ih =>
      apply (rename_circ p ops R R).bind
      intro twice
      apply (rename_join p ops R twice).bind
      exact ih

theorem rename_closure (reflexive : Bool) (R : Tensor Bool) :
    ((mk O n).closure R reflexive).Maps (Tensor.rename p) ((mk O n).closure (R.rename p) reflexive) := by
  cases reflexive with
  | false => exact rename_square p ops _ R
  | true =>
      apply (rename_diag p ops).bind
      intro diagonal
      apply (rename_join p ops R diagonal).bind
      exact rename_square p ops _

end

end Universe

end BoolCalculus
