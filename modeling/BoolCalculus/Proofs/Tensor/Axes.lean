import BoolCalculus.Proofs.Outcome
import BoolCalculus.Proofs.Tensor.Picking
import BoolCalculus.Tensor.Storage

/-!
# The axes of results

On operands that fit, tensor operations make tensors whose axes the operands tell (`TensorOps.ObeysShapes`), and fail at
most like their gates and the limits of storage. This holds of dense and of lifted tensors, whether all operations are
given or some are derived.
-/

namespace BoolCalculus

variable {σ α β : Type} {E : Fault → Prop}

/-- Whether a fault is a mismatch of shapes, or of lengths, which is one of shapes. -/
def Fault.isMismatch : Fault → Bool
  | .shapeMismatch _ | .lengthMismatch _ _ => true
  | _ => false

/-! ## Loops -/

namespace Build.Makes

theorem ofFnM {n : Nat} {P : β → Prop} {f : Fin n → Build σ β} (each : ∀ i, (f i).Makes E P) :
    (Vector.ofFnM f).Makes E fun bs => ∀ b ∈ bs, P b := by
  induction n with
  | zero =>
      rw [Vector.ofFnM_zero]
      exact .pure fun b member => absurd member (Vector.not_mem_empty b)
  | succ n ih =>
      rw [Vector.ofFnM_succ]
      refine (ih fun i => each i.castSucc).bind fun bs before => ?_
      refine (each (Fin.last n)).bind fun b last => .pure fun c member => ?_
      rcases Vector.mem_push.1 member with earlier | rfl
      · exact before c earlier
      · exact last

theorem foldlM {n : Nat} {f : β → Fin n → Build σ β} (each : ∀ b i, (f b i).Makes E fun _ => True)
    (start : β) : (Fin.foldlM n f start).Makes E fun _ => True := by
  induction n generalizing start with
  | zero =>
      rw [Fin.foldlM_zero]
      exact .pure trivial
  | succ n ih =>
      rw [Fin.foldlM_succ]
      exact (each start 0).bind fun b _ => ih (fun b i => each b i.succ) b

/-- A tensor that is built has the axes that it is built with. -/
theorem build {axes : List Nat} {f : (c : List Nat) → Axes.InBounds axes c → Build σ α}
    (each : ∀ c h, (f c h).Makes E fun _ => True) :
    (Tensor.build axes f).Makes E (·.axes = axes) :=
  (ofFnM fun _ => each _ _).bind fun _ _ => .pure rfl

/-- The cells of a tensor that is built are what is built in its places. -/
theorem buildCells {axes : List Nat} {P : α → Prop}
    {f : (c : List Nat) → Axes.InBounds axes c → Build σ α} (each : ∀ c h, (f c h).Makes E P) :
    (Tensor.build axes f).Makes E fun T => ∀ a ∈ T.toList, P a :=
  (ofFnM fun _ => each _ _).bind fun _ cells => .pure fun a member => cells a (Vector.mem_toList_iff.1 member)

theorem zipBuild {f : α → α → Build σ α} (each : ∀ a b, (f a b).Makes E fun _ => True)
    {S T : Tensor α} (same : S.axes = T.axes) : (Tensor.zipBuild f S T).Makes E (·.axes = S.axes) := by
  rw [Tensor.zipBuild, dif_pos same]
  exact .build fun _ _ => each _ _

theorem notCells {A : GateSet σ α} (gates : A.FailsWithin E) (T : Tensor α) :
    (TensorOps.notCells A T).Makes E (·.axes = T.axes) :=
  .build fun _ _ => gates.not _

theorem anyCells {A : GateSet σ α} (gates : A.FailsWithin E) {T : Tensor α} {n : Nat} {ns : List Nat}
    (axes : T.axes = n :: ns) : (TensorOps.anyCells A T).Makes E (·.axes = ns) := by
  obtain ⟨_, cells⟩ := T
  obtain rfl := axes
  exact gates.zero.bind fun zero _ => .build fun _ _ => .foldlM (fun _ _ => gates.binary .or _ _) zero

/-- A mapping without misfit reindexes into the axes of the new shape. -/
theorem reindex {T : Tensor α} {shape : Shape} {mapping : List Int} {axes : List Nat}
    (fits : shape.misfit? T.shape mapping = none) (size : shape.axes? = some axes) :
    (.ofExcept (T.reindex? shape mapping) : Build σ (Tensor α)).Makes E (·.axes = axes) := by
  obtain ⟨_, moved⟩ := Tensor.reindex?_fits fits size
  rw [moved]
  exact .pure rfl

end Build.Makes

/-! ## Operations -/

namespace TensorOps

/-- An operation on two tensors of one shape keeps the shape. -/
def KeepsAxes (E : Fault → Prop) (f : Tensor α → Tensor α → Build σ (Tensor α)) : Prop :=
  ∀ ⦃S T⦄, S.axes = T.axes → (f S T).Makes E (·.axes = S.axes)

/-- On operands that fit, tensor operations make tensors of the axes that are due, or fail with a fault in `E`.
Reindexing does so into shapes that are `allowed`, and refuses a mapping that does not fit. -/
structure ObeysShapes (E : Fault → Prop) (allowed : Shape → Prop) (O : TensorOps σ α) : Prop where
  not : ∀ T, (O.not T).Makes E (·.axes = T.axes)
  or : KeepsAxes E O.or
  and : KeepsAxes E O.and
  xor : KeepsAxes E O.xor
  equ : KeepsAxes E O.equ
  imp : KeepsAxes E O.imp
  reindex : ∀ {T shape mapping axes}, allowed shape → shape.misfit? T.shape mapping = none →
    shape.axes? = some axes → (O.reindex T shape mapping).Makes E (·.axes = axes)
  misfit : ∀ {T shape mapping cause}, shape.misfit? T.shape mapping = some cause →
    O.reindex T shape mapping = throw (.shapeMismatch cause)
  any : ∀ {T n ns}, T.axes = n :: ns → (O.any T).Makes E (·.axes = ns)
  all : ∀ {T n ns}, T.axes = n :: ns → (O.all T).Makes E (·.axes = ns)

section

variable {or and : Tensor α → Tensor α → Build σ (Tensor α)} {not : Tensor α → Build σ (Tensor α)}
variable (hor : KeepsAxes E or) (hand : KeepsAxes E and) (hnot : ∀ T, (not T).Makes E (·.axes = T.axes))

include hnot

theorem KeepsAxes.derivedEqu {xor : Tensor α → Tensor α → Build σ (Tensor α)} (hxor : KeepsAxes E xor) :
    KeepsAxes E (Derived.equ not xor) := by
  intro S T same
  refine (hxor same).bind fun differ axes => ?_
  exact (hnot differ).weaken fun _ made => made.trans axes

include hor

theorem KeepsAxes.derivedImp : KeepsAxes E (Derived.imp or not) := by
  intro S T same
  refine (hnot S).bind fun notS axes => ?_
  exact (hor (axes.trans same)).weaken fun _ made => made.trans axes

include hand

theorem KeepsAxes.derivedXor : KeepsAxes E (Derived.xor or and not) := by
  intro S T same
  refine (hor same).bind fun either axes => (hand same).bind fun both axes' => ?_
  refine (hnot both).bind fun notBoth axes'' => ?_
  have fits : either.axes = notBoth.axes := by rw [axes, axes'', axes']
  exact (hand fits).weaken fun _ made => made.trans axes

end

theorem reindex_misfit {T : Tensor α} {shape : Shape} {mapping : List Int} {cause : Misfit}
    (h : shape.misfit? T.shape mapping = some cause) :
    (.ofExcept (T.reindex? shape mapping) : Build σ (Tensor α)) = throw (.shapeMismatch cause) := by
  rw [Tensor.reindex?_misfit h]
  rfl

/-- The derived conjunction over the first axis. -/
theorem makes_derivedAll {A : GateSet σ α} (gates : A.FailsWithin E) {T : Tensor α} {n : Nat}
    {ns : List Nat} (axes : T.axes = n :: ns) :
    (do notCells A (← anyCells A (← notCells A T)) : Build σ (Tensor α)).Makes E (·.axes = ns) := by
  refine (Build.Makes.notCells gates T).bind fun notT same => ?_
  refine (Build.Makes.anyCells gates (same.trans axes)).bind fun some shorter => ?_
  exact (Build.Makes.notCells gates some).weaken fun _ made => made.trans shorter

namespace ObeysShapes

theorem lifted {A : GateSet σ α} (gates : A.FailsWithin E) :
    (TensorOps.lifted A).ObeysShapes E fun _ => True where
  not := .notCells gates
  or _ _ := .zipBuild (gates.binary .or)
  and _ _ := .zipBuild (gates.binary .and)
  xor _ _ := .zipBuild (gates.binary .xor)
  equ _ _ := .zipBuild (gates.binary .equ)
  imp _ _ := .zipBuild (gates.binary .imp)
  reindex _ fits size := by
    rw [reindex_lifted]
    exact .reindex fits size
  misfit h := (reindex_lifted A).trans (reindex_misfit h)
  any := .anyCells gates
  all := makes_derivedAll gates

theorem liftedDerived {A : GateSet σ α} (gates : A.FailsWithin E) :
    (TensorOps.liftedDerived A).ObeysShapes E fun _ => True :=
  have or : KeepsAxes E (Tensor.zipBuild A.or) := fun _ _ => .zipBuild (gates.binary .or)
  have and : KeepsAxes E (Tensor.zipBuild A.and) := fun _ _ => .zipBuild (gates.binary .and)
  { not := .notCells gates
    or := or
    and := and
    xor := .derivedXor or and (.notCells gates)
    equ := .derivedEqu (.notCells gates) (.derivedXor or and (.notCells gates))
    imp := .derivedImp or (.notCells gates)
    reindex := fun _ fits size => by
      rw [reindex_liftedDerived]
      exact .reindex fits size
    misfit := fun h => (reindex_liftedDerived A).trans (reindex_misfit h)
    any := .anyCells gates
    all := makes_derivedAll gates }

theorem dense : (TensorOps.dense : TensorOps σ Bool).ObeysShapes E fun _ => True := by
  have pointwise : ∀ f : Bool → Bool → Bool, KeepsAxes E fun S T : Tensor Bool =>
      (.ofExcept (S.zip? f T) : Build σ (Tensor Bool)) := by
    intro f S T same
    show (Build.ofExcept (S.zip? f T)).Makes E _
    rw [Tensor.zip?_of_eq f same]
    exact .pure rfl
  have folded : ∀ (f : Bool → Bool → Bool) (start : Bool) {T : Tensor Bool} {n : Nat} {ns : List Nat},
      T.axes = n :: ns →
        (.ofExcept (T.foldFirst f start) : Build σ (Tensor Bool)).Makes E (·.axes = ns) := by
    intro f start T n ns axes
    obtain ⟨_, cells⟩ := T
    obtain rfl := axes
    exact .pure rfl
  exact
    { not := fun _ => .pure rfl
      or := pointwise _
      and := pointwise _
      xor := pointwise _
      equ := pointwise _
      imp := pointwise _
      reindex := fun _ fits size => by
        rw [reindex_dense]
        exact .reindex fits size
      misfit := fun h => reindex_dense.trans (reindex_misfit h)
      any := folded _ _
      all := folded _ _ }

variable {allowed : Shape → Prop} {O : TensorOps σ α}

/-- The limits of storage refuse shapes with faults of their own. -/
theorem stored (h : O.ObeysShapes E allowed) {allowed' : Shape → Prop}
    (fewer : ∀ shape, allowed' shape → allowed shape)
    (limits : ∀ shape, allowed' shape → ∀ f, shape.checkStorage = .error f → E f) :
    O.stored.ObeysShapes E allowed' :=
  { h with
    reindex := by
      intro T shape mapping axes ok fits size
      show (Build.ofExcept (shape.checkReindex T.shape mapping) >>= fun _ =>
        .ofExcept shape.checkStorage >>= fun _ => O.reindex T shape mapping).Makes E _
      rw [Shape.checkReindex, fits]
      cases check : shape.checkStorage with
      | error f => exact .throw (limits shape ok f check)
      | ok => exact h.reindex (fewer shape ok) fits size
    misfit := by
      intro T shape mapping cause h
      show (Build.ofExcept (shape.checkReindex T.shape mapping) >>= fun _ =>
        .ofExcept shape.checkStorage >>= fun _ => O.reindex T shape mapping) = _
      rw [Shape.checkReindex, h]
      rfl }

/-- Shapes that can be stored meet no limit. -/
theorem storable (h : O.ObeysShapes E fun _ => True) :
    O.stored.ObeysShapes E fun shape => shape.checkStorage = .ok () :=
  h.stored (fun _ _ => trivial) fun shape ok f refused => by
    rw [ok] at refused
    cases refused

end ObeysShapes

end TensorOps

namespace Shape

theorem isMismatch_of_addressable {bytes : Int} {sizes : List Int} {f : Fault}
    (h : addressable bytes sizes = .error f) : f.isMismatch = false := by
  induction sizes generalizing bytes with
  | nil => cases h
  | cons n ns ih =>
      rw [addressable] at h
      split at h
      · exact ih h
      · split at h
        · cases h
          rfl
        · split at h
          · exact ih h
          · cases h
            rfl

/-- The limits of storage are no mismatches. -/
theorem isMismatch_of_checkStorage {s : Shape} {f : Fault} (h : s.checkStorage = .error f) :
    f.isMismatch = false := by
  rw [checkStorage] at h
  split at h
  · cases h
    rfl
  · split at h
    · exact isMismatch_of_addressable h
    · cases h
      rfl

end Shape

end BoolCalculus
