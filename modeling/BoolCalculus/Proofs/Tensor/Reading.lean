import BoolCalculus.Proofs.Tensor.Picking
import BoolCalculus.Proofs.Valuation
import BoolCalculus.Tensor.Storage

/-!
# Reading tensors

A valuation reads a tensor cell by cell. `Valuation.Reads` says of tensor operations that each of them
is read as the operation of that name on tensors over a Boolean algebra, with the same failures. The
lifted operations of a gate set are read under every valuation that the gate set respects
(`Reads.lifted`), and dense tensors are read as they are (`Reads.dense`).
-/

namespace BoolCalculus

open scoped symmDiff

namespace Valuation

variable {σ α B β γ : Type} {V : Valuation σ α B} {Rel : σ → β → γ → Prop} {s t : σ}

/-! ## Loops -/

/-- The rule for a fold: what one step preserves, all steps preserve. -/
theorem Runs.foldlM {n : Nat} {f : β → Fin n → Build σ β} {g : γ → Fin n → γ} {b : β} {c : γ}
    (start : Rel s b c)
    (step : ∀ i {t b c}, V.Later s t → Rel t b c → V.Runs Rel t (f b i) (.ok (g c i))) :
    V.Runs Rel s (Fin.foldlM n f b) (.ok (Fin.foldl n g c)) := by
  induction n with
  | zero =>
      rw [Fin.foldlM_zero, Fin.foldl_zero]
      exact .pure start
  | succ n ih =>
      rw [Fin.foldlM_succ_last, Fin.foldl_succ_last]
      show V.Runs Rel s (Fin.foldlM n (fun b i => f b i.castSucc) b >>= (f · (Fin.last n))) _
      refine (ih fun i _ _ _ later related => step i.castSucc later related).bind_ok
        fun later related => ?_
      exact step (Fin.last n) later related

/-- The rule for a vector that is built item by item, where related items stay related. -/
theorem Runs.ofFnM {n : Nat} {f : Fin n → Build σ β} {g : Fin n → γ}
    (stays : ∀ {s t b c}, V.Later s t → Rel s b c → Rel t b c)
    (each : ∀ i {t}, V.Later s t → V.Runs Rel t (f i) (.ok (g i))) :
    V.Runs (fun t (bs : Vector β n) (cs : Vector γ n) => ∀ i (h : i < n), Rel t bs[i] cs[i]) s
      (Vector.ofFnM f) (.ok (Vector.ofFn g)) := by
  induction n with
  | zero =>
      rw [Vector.ofFnM_zero]
      exact .pure fun i h => absurd h (Nat.not_lt_zero i)
  | succ n ih =>
      rw [Vector.ofFnM_succ]
      refine (ih fun i _ later => each _ later).bind_ok fun first items => ?_
      refine (each _ first).bind_ok fun second last => ?_
      refine .pure fun i h => ?_
      rcases Nat.lt_succ_iff_lt_or_eq.1 h with before | rfl
      · simpa [Vector.getElem_push_lt before] using stays second (items i before)
      · simpa [Fin.last] using last

/-! ## Tensors -/

variable (V) in
/-- In a state, the cells of a tensor are there and are read as those of `X`. -/
structure IsTensor (s : σ) (T : Tensor α) (X : Tensor B) : Prop where
  elem : ∀ c h, V.Elem s (T.get c h)
  reads : T.map (V.value s) = X

namespace IsTensor

variable {T : Tensor α} {X : Tensor B}

theorem axes_eq (h : V.IsTensor s T X) : X.axes = T.axes := by
  rw [← h.reads, Tensor.axes_map]

theorem is_get (h : V.IsTensor s T X) {c : List Nat} (hT : Axes.InBounds T.axes c)
    (hX : Axes.InBounds X.axes c) : V.Is s (T.get c hT) (X.get c hX) := by
  obtain ⟨elem, rfl⟩ := h
  exact ⟨elem c hT, (Tensor.get_map _ T hT).symm⟩

/-- A tensor is read cell by cell. -/
theorem of_get (axes : X.axes = T.axes)
    (cells : ∀ c hT hX, V.Is s (T.get c hT) (X.get c hX)) : V.IsTensor s T X where
  elem c h := (cells c h (axes ▸ h)).1
  reads := Tensor.ext_get axes.symm fun c hT hX => by
    rw [Tensor.get_map _ T hT]
    exact (cells c hT hX).2

theorem later (h : V.IsTensor s T X) (later : V.Later s t) : V.IsTensor t T X :=
  .of_get h.axes_eq fun _ hT hX => (h.is_get hT hX).later later

end IsTensor

/-- Where cells are read as they are, so are tensors. -/
theorem isTensor_iff_eq {V : Valuation σ B B} (plain : ∀ s b, V.Is s b b) {T X : Tensor B} :
    V.IsTensor s T X ↔ T = X := by
  constructor
  · intro hT
    refine Tensor.ext_get hT.axes_eq.symm fun c inT inX => ?_
    have read := (hT.is_get inT inX).2
    rwa [(plain s _).2] at read
  · rintro rfl
    exact .of_get rfl fun _ _ _ => plain s _

/-- A tensor that is read as it is is the one that was known beforehand. -/
theorem Runs.yields_tensor {act : Build σ (Tensor B)} {X : Tensor B}
    (runs : (ofFn id : Valuation σ B B).Runs (ofFn id).IsTensor s act (.ok X)) : act.Yields s X := by
  cases runs with
  | ok run later is =>
      obtain rfl := (isTensor_iff_eq fun _ _ => ⟨trivial, rfl⟩).1 is
      rw [Build.Yields, run]

/-- A run has one reading. -/
theorem Runs.tensor_unique {act : Build σ (Tensor α)} {X Y : Tensor B} (runs : V.Runs V.IsTensor s act (.ok X))
    (runs' : V.Runs V.IsTensor s act (.ok Y)) : X = Y := by
  cases runs with
  | ok run _ is =>
      cases runs' with
      | ok run' _ is' =>
          obtain ⟨same, rfl⟩ := Prod.mk.inj (run.symm.trans run')
          obtain rfl := Except.ok.inj same
          exact is.reads.symm.trans is'.reads

/-- A run that makes a scalar makes that of a given element just where the two are equal. -/
theorem Runs.scalar_iff {act : Build σ (Tensor α)} {v w : B}
    (runs : V.Runs V.IsTensor s act (.ok (.scalar v))) :
    V.Runs V.IsTensor s act (.ok (.scalar w)) ↔ v = w :=
  ⟨fun runs' => Tensor.scalar_injective (runs.tensor_unique runs'), fun same => same ▸ runs⟩

/-- The rule for a tensor that is built cell by cell. -/
theorem Runs.build {axes : List Nat} {f : (c : List Nat) → Axes.InBounds axes c → Build σ α}
    {g : (c : List Nat) → Axes.InBounds axes c → B}
    (each : ∀ c h {t}, V.Later s t → V.Runs V.Is t (f c h) (.ok (g c h))) :
    V.Runs V.IsTensor s (Tensor.build axes f) (.ok (Tensor.ofFn axes g)) := by
  refine (Runs.ofFnM (fun later is => is.later later) fun j _ later => each _ _ later).bind_ok
    fun _ cells => ?_
  refine .pure (.of_get rfl fun c hT hX => ?_)
  exact cells _ _

/-! ## Tensor operations -/

variable (V) in
/-- An operation on two tensors is read as the one that combines their cells. -/
def Pointwise (f : Tensor α → Tensor α → Build σ (Tensor α)) (g : B → B → B) : Prop :=
  ∀ ⦃s S T X Y⦄, V.IsTensor s S X → V.IsTensor s T Y →
    V.Runs V.IsTensor s (f S T) (X.zip? g Y)

/-! ## The lifted operations -/

variable {f : α → α → Build σ α} {g : B → B → B} {T : Tensor α} {X : Tensor B}

theorem Runs.liftCells {A : GateSet σ α} {h : Bool → B} (hlift : ∀ b, V.Constant (A.lift b) (h b))
    (shape : Shape) (f : List Nat → Bool) :
    V.Runs V.IsTensor s (TensorOps.liftCells A shape f) (Tensor.create? shape fun c => h (f c)) := by
  rw [TensorOps.liftCells, Tensor.create?]
  cases shape.axes? with
  | none => exact .throw _
  | some axes => exact .build fun c _ _ _ => hlift (f c) _

theorem Runs.notCells {A : GateSet σ α} {g : B → B} (hnot : V.Unary A.not g) (hT : V.IsTensor s T X) :
    V.Runs V.IsTensor s (TensorOps.notCells A T) (.ok (X.map g)) := by
  obtain rfl := hT.reads
  rw [Tensor.map_eq_ofFn g]
  exact .build fun c hc _ later => hnot ((hT.is_get hc hc).later later)

theorem Pointwise.zipBuild (h : V.Binary f g) : V.Pointwise (Tensor.zipBuild f) g := by
  intro s S T X Y hS hT
  obtain rfl := hS.reads
  obtain rfl := hT.reads
  by_cases same : S.axes = T.axes
  · rw [Tensor.zipBuild, dif_pos same, Tensor.zip?_of_eq g (by exact same)]
    exact .build fun c hc _ later =>
      h ((hS.is_get hc hc).later later) ((hT.is_get (same ▸ hc) (same ▸ hc)).later later)
  · rw [Tensor.zipBuild, dif_neg same, Tensor.zip?_of_ne g (by exact same)]
    exact .throw _

/-- The disjunction over the first axis is the fold of its cells from the first. -/
theorem Runs.anyCells {A : GateSet σ α} {x : B} (hzero : V.Constant A.zero x) (hor : V.Binary A.or g)
    (hT : V.IsTensor s T X) :
    V.Runs V.IsTensor s (TensorOps.anyCells A T) (X.foldFirst g x) := by
  obtain rfl := hT.reads
  obtain ⟨axes, cells⟩ := T
  cases axes with
  | nil => exact .throw _
  | cons n ns =>
      refine (hzero s).bind_ok fun first zero => ?_
      refine .build fun c hc _ second => ?_
      refine .foldlM (zero.later second) fun i _ _ _ third acc => ?_
      have inside : Axes.InBounds (n :: ns) (i :: c) := ⟨i.isLt, hc⟩
      have cell := hT.is_get inside inside
      exact hor acc (cell.later (V.later_trans first (V.later_trans second third)))

/-- The negated disjunction of the negated cells is read as their conjunction. -/
theorem Runs.derivedAll [BooleanAlgebra B] {not any : Tensor α → Build σ (Tensor α)}
    (hnot : ∀ {s T X}, V.IsTensor s T X → V.Runs V.IsTensor s (not T) (.ok (X.map (·ᶜ))))
    (hany : ∀ {s T X}, V.IsTensor s T X → V.Runs V.IsTensor s (any T) (X.foldFirst (· ⊔ ·) ⊥))
    (hT : V.IsTensor s T X) :
    V.Runs V.IsTensor s (do not (← any (← not T))) (X.foldFirst (· ⊓ ·) ⊤) := by
  rw [← Tensor.foldFirst_compl]
  refine (hnot hT).bind_ok fun _ notT => ?_
  exact (hany notT).bind fun _ anyNot => hnot anyNot

/-- A reindexing moves cells and calls no gate. -/
theorem Runs.reindex (shape : Shape) (mapping : List Int) (hT : V.IsTensor s T X) :
    V.Runs V.IsTensor s (.ofExcept (T.reindex? shape mapping)) (X.reindex? shape mapping) := by
  obtain rfl := hT.reads
  cases misfit : shape.misfit? T.shape mapping with
  | some cause =>
      rw [Tensor.reindex?_misfit misfit, Tensor.reindex?_misfit (by exact misfit)]
      exact .error rfl (V.later_refl s)
  | none =>
      cases size : shape.axes? with
      | none =>
          rw [Tensor.reindex?_negative misfit size, Tensor.reindex?_negative (by exact misfit) size]
          exact .error rfl (V.later_refl s)
      | some axes =>
          obtain ⟨fits, here⟩ := Tensor.reindex?_fits misfit size
          obtain ⟨fits', there⟩ :=
            Tensor.reindex?_fits (T := T.map (V.value s)) (by exact misfit) size
          rw [here, there]
          refine .ok rfl (V.later_refl s) (.of_get rfl fun c hc hc' => ?_)
          rw [Tensor.get_reindex T fits hc, Tensor.get_reindex _ fits' hc']
          exact hT.is_get _ _

variable (V) in
/-- Tensor operations are read as those of the same names on tensors over a Boolean algebra, with the
same failures, as long as the shapes that are asked for are `allowed`. -/
structure Reads [BooleanAlgebra B] (allowed : Shape → Prop) (O : TensorOps σ α) : Prop where
  create : ∀ ⦃s shape⦄ f, allowed shape → V.Runs V.IsTensor s (O.create shape f)
    (Tensor.create? shape fun c => if f c then ⊤ else ⊥)
  not : ∀ ⦃s T X⦄, V.IsTensor s T X → V.Runs V.IsTensor s (O.not T) (.ok (X.map (·ᶜ)))
  or : V.Pointwise O.or (· ⊔ ·)
  and : V.Pointwise O.and (· ⊓ ·)
  xor : V.Pointwise O.xor (· ∆ ·)
  equ : V.Pointwise O.equ (· ⇔ ·)
  imp : V.Pointwise O.imp (· ⇨ ·)
  reindex : ∀ ⦃s T X shape⦄ mapping, allowed shape → V.IsTensor s T X →
    V.Runs V.IsTensor s (O.reindex T shape mapping) (X.reindex? shape mapping)
  any : ∀ ⦃s T X⦄, V.IsTensor s T X →
    V.Runs V.IsTensor s (O.any T) (X.foldFirst (· ⊔ ·) ⊥)
  all : ∀ ⦃s T X⦄, V.IsTensor s T X →
    V.Runs V.IsTensor s (O.all T) (X.foldFirst (· ⊓ ·) ⊤)

namespace Reads

variable [BooleanAlgebra B]

variable {allowed allowed' : Shape → Prop} {O : TensorOps σ α}

theorem mono (h : V.Reads allowed O) (fewer : ∀ shape, allowed' shape → allowed shape) :
    V.Reads allowed' O :=
  { h with
    create := fun _ shape f ok => h.create f (fewer shape ok)
    reindex := fun _ _ _ shape mapping ok hT => h.reindex mapping (fewer shape ok) hT }

/-- The lifted operations of a gate set are read under every valuation that it respects. -/
theorem lifted {A : GateSet σ α} (respects : V.Respects A) :
    V.Reads (fun _ => True) (TensorOps.lifted A) where
  create _ shape f _ := .liftCells respects.lift shape f
  not _ _ _ hT := .notCells respects.not hT
  or := .zipBuild respects.or
  and := .zipBuild respects.and
  xor := .zipBuild respects.reads_xor
  equ := .zipBuild respects.reads_equ
  imp := .zipBuild respects.reads_imp
  reindex _ _ _ shape mapping _ hT := by
    rw [TensorOps.reindex_lifted]
    exact .reindex shape mapping hT
  any _ _ _ hT := .anyCells respects.reads_zero respects.or hT
  all _ _ _ hT :=
    .derivedAll (.notCells respects.not) (.anyCells respects.reads_zero respects.or) hT

/-- The limits of storage refuse no shape that can be stored. -/
theorem stored (h : V.Reads allowed O) :
    V.Reads (fun shape => allowed shape ∧ shape.checkStorage = .ok ()) O.stored :=
  { h with
    create := by
      intro s shape f ⟨ok, fits⟩
      show V.Runs V.IsTensor s (.ofExcept shape.checkStorage >>= fun _ => O.create shape f) _
      rw [fits]
      exact h.create f ok
    reindex := by
      intro s T X shape mapping ⟨ok, fits⟩ hT
      show V.Runs V.IsTensor s (.ofExcept (shape.checkReindex T.shape mapping) >>= fun _ =>
        .ofExcept shape.checkStorage >>= fun _ => O.reindex T shape mapping) _
      rw [fits, Shape.checkReindex]
      cases misfit : shape.misfit? T.shape mapping with
      | none => exact h.reindex mapping ok hT
      | some cause =>
          obtain rfl := hT.reads
          rw [Tensor.reindex?_misfit (by exact misfit)]
          exact .error rfl (V.later_refl s) }

/-- Dense tensors are read as they are, where no size is negative. -/
theorem dense {V : Valuation σ Bool Bool} (plain : ∀ s b, V.Is s b b) :
    V.Reads (fun shape => shape.axes?.isSome) TensorOps.dense := by
  have same : ∀ s T, V.IsTensor s T T := fun _ _ => (isTensor_iff_eq plain).2 rfl
  have alone : ∀ {s T X}, V.IsTensor s T X → T = X := (isTensor_iff_eq plain).1
  have pointwise : ∀ {f g : Bool → Bool → Bool}, f = g →
      V.Pointwise (fun S T => .ofExcept (S.zip? f T)) g := by
    rintro f _ rfl s S T X Y hS hT
    rw [alone hS, alone hT]
    exact .ofExcept (same s)
  refine ⟨?_, ?_, pointwise rfl, pointwise rfl, pointwise bne_eq_symmDiff,
    pointwise beq_eq_bihimp, pointwise not_or_eq_himp, ?_, ?_, ?_⟩
  · intro s shape f ok
    obtain ⟨axes, size⟩ := Option.isSome_iff_exists.1 ok
    have truths : (fun c => if f c then (⊤ : Bool) else ⊥) = f := by
      funext c
      cases f c <;> rfl
    rw [truths, TensorOps.dense, Tensor.create?]
    simp only [size, Option.some_or]
    exact .pure (same s _)
  · intro s T X hT
    rw [alone hT]
    exact .pure (same s _)
  · intro s T X shape mapping _ hT
    rw [alone hT, TensorOps.reindex_dense]
    exact .ofExcept (same s)
  · intro s T X hT
    rw [alone hT]
    exact .ofExcept (same s)
  · intro s T X hT
    rw [alone hT]
    exact .ofExcept (same s)

end Reads

end Valuation

end BoolCalculus
