import BoolCalculus.Proofs.Circuit.Evaluation
import BoolCalculus.Proofs.Tensor.Axes
import BoolCalculus.Proofs.Universe.Derivations

/-!
# Reindexing

A mapping that does not fit is refused as a mismatch. One that fits makes a tensor of the new axes from cells of the old
one and calls no gate; two such reindexings are one, and a reindexing may come before or after a pointwise operation.
This holds of dense tensors, and of lifted tensors as far as the new shape can be stored (`TensorOps.reindexing`).
-/

namespace BoolCalculus

variable {σ α β B : Type}

/-! ## Mappings -/

namespace Axes

variable {new new' old c : List Nat} {mapping mapping' : List Int}

/-- The mapping that sends every axis to itself. -/
def places (axes : List Nat) : List Int :=
  (List.range axes.length).map Int.ofNat

theorem fit_places (axes : List Nat) : ¬Unfit axes axes (places axes) := by
  rw [not_unfit_iff, List.forall₂_iff_get]
  refine ⟨by simp [places], fun i h h' => ?_⟩
  simp [Target, places, h]

/-- The mapping that sends an axis where the second mapping sends its place. -/
def follow (mapping mapping' : List Int) : List Int :=
  mapping.map fun a => mapping'[a.toNat]?.getD 0

theorem Target.follow {n : Nat} {a : Int} (target : Target new n a)
    (second : List.Forall₂ (Target new') new mapping') :
    ∃ b, mapping'[a.toNat]? = some b ∧ Target new' n b := by
  obtain ⟨length, targets⟩ := List.forall₂_iff_get.1 second
  obtain ⟨h, same⟩ := List.getElem?_eq_some_iff.1 target.2.2
  have h' : a.toNat < mapping'.length := length ▸ h
  have place : Target new' new[a.toNat] mapping'[a.toNat] := targets a.toNat h h'
  exact ⟨mapping'[a.toNat], List.getElem?_eq_getElem h', same ▸ place⟩

theorem fit_follow (first : ¬Unfit new old mapping) (second : ¬Unfit new' new mapping') :
    ¬Unfit new' old (follow mapping mapping') := by
  rw [not_unfit_iff] at first second ⊢
  rw [Axes.follow, List.forall₂_map_right_iff]
  refine first.imp fun n a target => ?_
  obtain ⟨b, found, target'⟩ := target.follow second
  rwa [found]

theorem pick_places {axes : List Nat} (h : InBounds axes c) : pick c ((places axes).map Int.toNat) = c := by
  have length := length_of_inBounds h
  apply List.ext_getElem
  · simp [pick, places, length]
  · intro i h h'
    simp [pick, places, h']

/-- Picking along one mapping and then along another is picking along where they lead. -/
theorem pick_follow (first : ¬Unfit new old mapping) (second : ¬Unfit new' new mapping') (c : List Nat) :
    pick c ((follow mapping mapping').map Int.toNat) =
      pick (pick c (mapping'.map Int.toNat)) (mapping.map Int.toNat) := by
  simp only [pick, Axes.follow, List.map_map]
  apply List.map_congr_left
  intro a member
  have length : mapping'.length = new.length := by
    by_contra other
    exact second (.inl other)
  obtain ⟨nonneg, lt⟩ := range_of_fit first a member
  have inside : a.toNat < mapping'.length := by omega
  simp [inside]

end Axes

/-! ## Cells -/

namespace Tensor

variable {T : Tensor α} {new new' : List Nat} {mapping mapping' : List Int}

theorem reindex?_fit (fit : ¬Axes.Unfit new T.axes mapping) :
    ∃ fits, T.reindex? (.ofAxes new) mapping = .ok (T.reindex new (mapping.map Int.toNat) fits) :=
  reindex?_fits (Shape.misfit?_eq_none_iff.2 fit) (Shape.axes?_ofAxes new)

theorem reindex?_unfit (unfit : Axes.Unfit new T.axes mapping) :
    ∃ cause, T.reindex? (.ofAxes new) mapping = .error (.shapeMismatch cause) := by
  cases misfit : (Shape.ofAxes new).misfit? T.shape mapping with
  | none => exact absurd unfit (Shape.misfit?_eq_none_iff.1 misfit)
  | some cause => exact ⟨cause, reindex?_misfit misfit⟩

/-- Axes that stay where they are keep the tensor. -/
theorem reindex_places (T : Tensor α) (fits : Axes.Fits T.axes T.axes ((Axes.places T.axes).map Int.toNat)) :
    T.reindex T.axes ((Axes.places T.axes).map Int.toNat) fits = T := by
  refine ext_get rfl fun c hc hT => ?_
  rw [get_reindex T fits hc]
  simp only [Axes.pick_places hT]

theorem reindex_reindex (first : ¬Axes.Unfit new T.axes mapping) (second : ¬Axes.Unfit new' new mapping')
    (fits : Axes.Fits new T.axes (mapping.map Int.toNat))
    (fits' : Axes.Fits new' new (mapping'.map Int.toNat))
    (both : Axes.Fits new' T.axes ((Axes.follow mapping mapping').map Int.toNat)) :
    (T.reindex new (mapping.map Int.toNat) fits).reindex new' (mapping'.map Int.toNat) fits' =
      T.reindex new' ((Axes.follow mapping mapping').map Int.toNat) both := by
  refine (reindex_ofFn _ fits').trans (congrArg (ofFn new') (funext fun c => funext fun hc => ?_))
  simp only [Axes.pick_follow first second]

/-- Cells are mapped before or after they are moved. -/
theorem reindex_map (f : α → β) {places : List Nat} (fits : Axes.Fits new T.axes places) :
    (T.map f).reindex new places fits = (T.reindex new places fits).map f := by
  refine Eq.trans (congrArg (ofFn new) (funext fun c => funext fun hc => ?_)) (map_ofFn f new _).symm
  exact get_map f T (Axes.inBounds_pick fits hc)

theorem reindex_zip (f : α → α → α) {U : Tensor α} (same : T.axes = U.axes) {places : List Nat}
    (fits : Axes.Fits new T.axes places) :
    (T.zip f U same).reindex new places fits =
      (T.reindex new places fits).zip f (U.reindex new places (same ▸ fits)) rfl :=
  (reindex_ofFn _ fits).trans (zip_ofFn f new _ _).symm

/-- Tensors that one mapping fits have the same axes. -/
theorem axes_eq_of_fit {U : Tensor α} (fit : ¬Axes.Unfit new T.axes mapping)
    (fit' : ¬Axes.Unfit new U.axes mapping) : T.axes = U.axes := by
  rw [Axes.not_unfit_iff, List.forall₂_iff_get] at fit fit'
  obtain ⟨length, targets⟩ := fit
  obtain ⟨length', targets'⟩ := fit'
  apply List.ext_getElem (length.trans length'.symm)
  intro i h h'
  have inside : i < mapping.length := length ▸ h
  exact Option.some.inj ((targets i h inside).2.2.symm.trans (targets' i h' inside).2.2)

theorem map_reindex? (f : α → β) (fit : ¬Axes.Unfit new T.axes mapping) :
    ∃ U, (T.map f).reindex? (.ofAxes new) mapping = .ok U ∧
      (T.reindex? (.ofAxes new) mapping >>= fun T' => .ok (T'.map f)) = .ok U := by
  obtain ⟨fits, moved⟩ := reindex?_fit fit
  obtain ⟨_, movedMap⟩ := reindex?_fit (T := T.map f) fit
  exact ⟨_, movedMap, by rw [moved]; exact congrArg Except.ok (reindex_map f fits).symm⟩

theorem zip?_reindex? (f : α → α → α) {U : Tensor α} (fit : ¬Axes.Unfit new T.axes mapping)
    (fit' : ¬Axes.Unfit new U.axes mapping) :
    ∃ R, (T.zip? f U >>= fun both => both.reindex? (.ofAxes new) mapping) = .ok R ∧
      (T.reindex? (.ofAxes new) mapping >>= fun T' => U.reindex? (.ofAxes new) mapping >>= fun U' =>
        T'.zip? f U') = .ok R := by
  have same := axes_eq_of_fit fit fit'
  obtain ⟨fits, moved⟩ := reindex?_fit fit
  obtain ⟨fits', moved'⟩ := reindex?_fit fit'
  obtain ⟨_, movedBoth⟩ := reindex?_fit (T := T.zip f U same) fit
  refine ⟨_, by rw [zip?_of_eq f same]; exact movedBoth, ?_⟩
  rw [moved, moved']
  refine (zip?_of_eq f (T := T.reindex new _ fits) (U := U.reindex new _ fits') rfl).trans ?_
  exact congrArg Except.ok (reindex_zip f same fits).symm

end Tensor

/-! ## Operations -/

namespace TensorOps

/-- Reindexing moves cells, and refuses new shapes that are not `allowed`. -/
structure MovesCells (allowed : Shape → Prop) (O : TensorOps σ α) : Prop where
  reindex : ∀ T new mapping, (new.misfit? T.shape mapping = none → allowed new) →
    O.reindex T new mapping = .ofExcept (T.reindex? new mapping)
  refused : ∀ T new mapping, new.misfit? T.shape mapping = none → ¬allowed new →
    ∃ f, f.isMismatch = false ∧ O.reindex T new mapping = throw f

theorem movesCells_dense : (dense : TensorOps σ Bool).MovesCells fun _ => True :=
  ⟨fun _ _ _ _ => reindex_dense, fun _ _ _ _ refused => absurd trivial refused⟩

theorem movesCells_lifted (A : GateSet σ α) : (lifted A).MovesCells fun _ => True :=
  ⟨fun _ _ _ _ => reindex_lifted A, fun _ _ _ _ refused => absurd trivial refused⟩

theorem MovesCells.stored {O : TensorOps σ α} (moves : O.MovesCells fun _ => True) :
    O.stored.MovesCells fun new => new.checkStorage = .ok () := by
  have unfold : ∀ T new mapping, O.stored.reindex T new mapping =
      (Build.ofExcept (new.checkReindex T.shape mapping) >>= fun _ =>
        .ofExcept new.checkStorage >>= fun _ => O.reindex T new mapping) := fun _ _ _ => rfl
  constructor
  · intro T new mapping fits
    rw [unfold, Shape.checkReindex]
    cases misfit : new.misfit? T.shape mapping with
    | none =>
        rw [fits misfit]
        exact moves.reindex T new mapping fun _ => trivial
    | some cause =>
        rw [Tensor.reindex?_misfit misfit]
        rfl
  · intro T new mapping fits limits
    rw [unfold, Shape.checkReindex, fits]
    cases check : new.checkStorage with
    | ok => exact absurd check limits
    | error f => exact ⟨f, Shape.isMismatch_of_checkStorage check, rfl⟩

namespace MovesCells

variable {allowed : Shape → Prop} {O : TensorOps σ α} (moves : O.MovesCells allowed)
variable {T : Tensor α} {new : List Nat} {mapping : List Int}

include moves

theorem reindex_unfit (unfit : Axes.Unfit new T.axes mapping) :
    ∃ cause, O.reindex T (.ofAxes new) mapping = throw (.shapeMismatch cause) := by
  obtain ⟨cause, refused⟩ := Tensor.reindex?_unfit unfit
  refine ⟨cause, ?_⟩
  rw [moves.reindex T _ _ fun fits => absurd unfit (Shape.misfit?_eq_none_iff.1 fits), refused]
  rfl

theorem reindex_fit (ok : allowed (.ofAxes new)) (fit : ¬Axes.Unfit new T.axes mapping) :
    ∃ fits, O.reindex T (.ofAxes new) mapping = pure (T.reindex new (mapping.map Int.toNat) fits) := by
  obtain ⟨fits, moved⟩ := Tensor.reindex?_fit fit
  refine ⟨fits, ?_⟩
  rw [moves.reindex T _ _ fun _ => ok, moved]
  rfl

/-- A run of a reindexing, of whatever kind, keeps the state. -/
theorem runFrom_reindex (T : Tensor α) (new : List Nat) (mapping : List Int) (s : σ) :
    ((∃ cause, ((O.reindex T (.ofAxes new) mapping).runFrom s).1 = .error (.shapeMismatch cause)) ↔
      Axes.Unfit new T.axes mapping) ∧ ((O.reindex T (.ofAxes new) mapping).runFrom s).2 = s := by
  by_cases unfit : Axes.Unfit new T.axes mapping
  · obtain ⟨cause, refused⟩ := moves.reindex_unfit unfit
    rw [refused]
    exact ⟨⟨fun _ => unfit, fun _ => ⟨cause, rfl⟩⟩, rfl⟩
  · by_cases ok : allowed (.ofAxes new)
    · obtain ⟨_, moved⟩ := moves.reindex_fit ok unfit
      rw [moved]
      refine ⟨⟨?_, fun absurdity => absurd absurdity unfit⟩, rfl⟩
      rintro ⟨cause, failed⟩
      cases failed
    · obtain ⟨f, other, refused⟩ := moves.refused T (.ofAxes new) mapping (Shape.misfit?_eq_none_iff.2 unfit) ok
      rw [refused]
      refine ⟨⟨?_, fun absurdity => absurd absurdity unfit⟩, rfl⟩
      rintro ⟨cause, failed⟩
      obtain rfl := Except.error.inj failed
      cases other

end MovesCells

/-- What reindexing does: it refuses what does not fit, it moves cells, and two reindexings are one. -/
structure Reindexes (allowed : Shape → Prop) (O : TensorOps σ α) : Prop where
  mismatch : ∀ T new mapping s,
    (∃ cause, ((O.reindex T (.ofAxes new) mapping).runFrom s).1 = .error (.shapeMismatch cause)) ↔
      Axes.Unfit new T.axes mapping
  still : ∀ T new mapping s, ((O.reindex T (.ofAxes new) mapping).runFrom s).2 = s
  cells : ∀ {T new mapping}, allowed (.ofAxes new) → ¬Axes.Unfit new T.axes mapping →
    ∃ R, O.reindex T (.ofAxes new) mapping = pure R ∧ R.axes = new ∧ ∀ c (hc : Axes.InBounds R.axes c),
      ∃ inside : Axes.InBounds T.axes (Axes.pick c (mapping.map Int.toNat)), R.get c hc = T.get _ inside
  identity : ∀ T, allowed T.shape → O.reindex T T.shape (Axes.places T.axes) = pure T
  twice : ∀ {T new mapping new' mapping'}, allowed (.ofAxes new) → allowed (.ofAxes new') →
    ¬Axes.Unfit new T.axes mapping → ¬Axes.Unfit new' new mapping' →
    ¬Axes.Unfit new' T.axes (Axes.follow mapping mapping') ∧
    (do O.reindex (← O.reindex T (.ofAxes new) mapping) (.ofAxes new') mapping') =
      O.reindex T (.ofAxes new') (Axes.follow mapping mapping')

theorem MovesCells.reindexes {allowed : Shape → Prop} {O : TensorOps σ α} (moves : O.MovesCells allowed) :
    O.Reindexes allowed where
  mismatch T new mapping s := (moves.runFrom_reindex T new mapping s).1
  still T new mapping s := (moves.runFrom_reindex T new mapping s).2
  cells := by
    intro T new mapping ok fit
    obtain ⟨fits, moved⟩ := moves.reindex_fit ok fit
    exact ⟨_, moved, rfl, fun c hc => ⟨Axes.inBounds_pick fits hc, Tensor.get_reindex T fits hc⟩⟩
  identity := by
    intro T ok
    obtain ⟨fits, moved⟩ := moves.reindex_fit ok (Axes.fit_places T.axes)
    rw [Tensor.reindex_places] at moved
    exact moved
  twice := by
    intro T new mapping new' mapping' ok ok' fit fit'
    have both := Axes.fit_follow fit fit'
    obtain ⟨fits, first⟩ := moves.reindex_fit ok fit
    obtain ⟨fits', second⟩ := moves.reindex_fit (T := T.reindex new (mapping.map Int.toNat) fits) ok' fit'
    obtain ⟨fitsBoth, once⟩ := moves.reindex_fit ok' both
    refine ⟨both, ?_⟩
    rw [first, pure_bind, second, once, Tensor.reindex_reindex fit fit' fits fits' fitsBoth]

/-- Reindexing may come before or after an operation on two tensors, as far as `Same` tells. -/
def Passes (Same : Build σ (Tensor α) → Build σ (Tensor α) → Prop) (There : Tensor α → Prop)
    (allowed : Shape → Prop) (O : TensorOps σ α) (f : Tensor α → Tensor α → Build σ (Tensor α)) : Prop :=
  ∀ {S T new mapping}, There S → There T → allowed (.ofAxes new) → ¬Axes.Unfit new S.axes mapping →
    ¬Axes.Unfit new T.axes mapping → Same (do O.reindex (← f S T) (.ofAxes new) mapping)
      (do f (← O.reindex S (.ofAxes new) mapping) (← O.reindex T (.ofAxes new) mapping))

/-- Reindexing commutes with the pointwise operations. -/
structure ReindexingCommutes (Same : Build σ (Tensor α) → Build σ (Tensor α) → Prop) (There : Tensor α → Prop)
    (allowed : Shape → Prop) (O : TensorOps σ α) : Prop where
  not : ∀ {T new mapping}, There T → allowed (.ofAxes new) → ¬Axes.Unfit new T.axes mapping →
    Same (do O.reindex (← O.not T) (.ofAxes new) mapping) (do O.not (← O.reindex T (.ofAxes new) mapping))
  or : O.Passes Same There allowed O.or
  and : O.Passes Same There allowed O.and
  xor : O.Passes Same There allowed O.xor
  equ : O.Passes Same There allowed O.equ
  imp : O.Passes Same There allowed O.imp

/-- On dense tensors the two orders are one construction. -/
theorem commutes_dense :
    (dense : TensorOps σ Bool).ReindexingCommutes (· = ·) (fun _ => True) fun _ => True := by
  have passes : ∀ g : Bool → Bool → Bool, (dense : TensorOps σ Bool).Passes (· = ·) (fun _ => True) (fun _ => True)
      fun S T => .ofExcept (S.zip? g T) := by
    intro g S T new mapping _ _ _ fit fit'
    obtain ⟨R, before, after⟩ := Tensor.zip?_reindex? g fit fit'
    have left := congrArg (Build.ofExcept (σ := σ)) before
    have right := congrArg (Build.ofExcept (σ := σ)) after
    simp only [Build.ofExcept_bind] at left right
    simp only [reindex_dense]
    exact left.trans right.symm
  refine ⟨?_, passes _, passes _, passes _, passes _, passes _⟩
  intro T new mapping _ _ fit
  obtain ⟨R, before, after⟩ := Tensor.map_reindex? (!·) fit
  have left := congrArg (Build.ofExcept (σ := σ)) before
  have right := congrArg (Build.ofExcept (σ := σ)) after
  rw [Build.ofExcept_bind] at right
  simp only [reindex_dense]
  exact left.trans right.symm

section

open BoolCalculus.Valuation

variable {V : Valuation σ α B} {allowed : Shape → Prop} {O : TensorOps σ α} (moves : O.MovesCells allowed)

include moves

theorem MovesCells.runs_reindex {s : σ} {T : Tensor α} {X : Tensor B} {new : List Nat} {mapping : List Int}
    (ok : allowed (.ofAxes new)) (hT : V.IsTensor s T X) :
    V.Runs V.IsTensor s (O.reindex T (.ofAxes new) mapping) (X.reindex? (.ofAxes new) mapping) := by
  rw [moves.reindex T _ _ fun _ => ok]
  exact .reindex (.ofAxes new) mapping hT

theorem MovesCells.passes {f : Tensor α → Tensor α → Build σ (Tensor α)} {g : B → B → B} (pointwise : V.Pointwise f g)
    (s : σ) : O.Passes (V.Coincide V.IsTensor s) (fun T => ∀ c h, V.Elem s (T.get c h)) allowed f := by
  intro S T new mapping there there' ok fit fit'
  have hS : V.IsTensor s S (S.map (V.value s)) := ⟨there, rfl⟩
  have hT : V.IsTensor s T (T.map (V.value s)) := ⟨there', rfl⟩
  obtain ⟨R, before, after⟩ := Tensor.zip?_reindex? g (T := S.map (V.value s)) (U := T.map (V.value s)) fit fit'
  refine ⟨R, ?_, ?_⟩
  · rw [← before]
    exact (pointwise hS hT).bind fun _ both => moves.runs_reindex ok both
  · rw [← after]
    refine (moves.runs_reindex ok hS).bind fun first movedS => ?_
    exact (moves.runs_reindex ok (hT.later first)).bind fun second movedT =>
      pointwise (movedS.later second) movedT

/-- An operation that negates every cell commutes with reindexing. -/
theorem MovesCells.passes_map {f : Tensor α → Build σ (Tensor α)} {g : B → B}
    (negates : ∀ {s T X}, V.IsTensor s T X → V.Runs V.IsTensor s (f T) (.ok (X.map g))) {s : σ} {T : Tensor α}
    {new : List Nat} {mapping : List Int} (there : ∀ c h, V.Elem s (T.get c h)) (ok : allowed (.ofAxes new))
    (fit : ¬Axes.Unfit new T.axes mapping) : V.Coincide V.IsTensor s
      (do O.reindex (← f T) (.ofAxes new) mapping) (do f (← O.reindex T (.ofAxes new) mapping)) := by
  have hT : V.IsTensor s T (T.map (V.value s)) := ⟨there, rfl⟩
  obtain ⟨R, before, after⟩ := Tensor.map_reindex? g (T := T.map (V.value s)) fit
  refine ⟨R, ?_, ?_⟩
  · rw [← before]
    exact (negates hT).bind_ok fun _ negated => moves.runs_reindex ok negated
  · rw [← after]
    exact (moves.runs_reindex ok hT).bind fun _ moved => negates moved

/-- Operations that are read cell by cell commute with reindexing. -/
theorem MovesCells.commutes {negate : B → B}
    (negates : ∀ {s T X}, V.IsTensor s T X → V.Runs V.IsTensor s (O.not T) (.ok (X.map negate)))
    (pointwise : ∀ f ∈ [O.or, O.and, O.xor, O.equ, O.imp], ∃ g, V.Pointwise f g) (s : σ) :
    O.ReindexingCommutes (V.Coincide V.IsTensor s) (fun T => ∀ c h, V.Elem s (T.get c h)) allowed := by
  have passes : ∀ f ∈ [O.or, O.and, O.xor, O.equ, O.imp],
      O.Passes (V.Coincide V.IsTensor s) (fun T => ∀ c h, V.Elem s (T.get c h)) allowed f := by
    intro f member
    obtain ⟨g, reads⟩ := pointwise f member
    exact moves.passes reads s
  exact ⟨moves.passes_map negates, passes _ (by simp), passes _ (by simp), passes _ (by simp), passes _ (by simp),
    passes _ (by simp)⟩

end

/-- Reindexing is exact on dense tensors of any axes, on lifted ones, and on lifted ones that are stored where the new
shape can be stored. It refuses what does not fit and nothing else as a mismatch, calls no gate, and two reindexings are
one. It commutes with the pointwise operations; over gates, as far as a reading shows under which they are functions. -/
theorem reindexing :
    (∀ {σ : Type}, (dense : TensorOps σ Bool).Reindexes (fun _ => True) ∧
      (dense : TensorOps σ Bool).ReindexingCommutes (· = ·) (fun _ => True) fun _ => True) ∧
    ∀ {σ α : Type} (A : GateSet σ α),
      (lifted A).Reindexes (fun _ => True) ∧
      (lifted A).stored.Reindexes (fun new => new.checkStorage = .ok ()) ∧
      ∀ {B : Type} {V : Valuation σ α B} {negate : B → B} {combine : GateSet.Binary → B → B → B},
        V.Unary A.not negate →
        (∀ gate ∈ [GateSet.Binary.or, .and, .xor, .equ, .imp], V.Binary (A.binary gate) (combine gate)) → ∀ s,
          (lifted A).ReindexingCommutes (V.Coincide V.IsTensor s) (fun T => ∀ c h, V.Elem s (T.get c h))
            (fun _ => True) ∧
          (lifted A).stored.ReindexingCommutes (V.Coincide V.IsTensor s) (fun T => ∀ c h, V.Elem s (T.get c h))
            fun new => new.checkStorage = .ok () := by
  refine ⟨⟨movesCells_dense.reindexes, commutes_dense⟩, fun {σ α} A => ?_⟩
  have moves := movesCells_lifted A
  refine ⟨moves.reindexes, moves.stored.reindexes, ?_⟩
  intro B V negate combine hnot hbinary s
  have negates : ∀ {s T X}, V.IsTensor s T X → V.Runs V.IsTensor s (notCells A T) (.ok (X.map negate)) :=
    .notCells hnot
  have pointwise : ∀ f ∈ [Tensor.zipBuild A.or, Tensor.zipBuild A.and, Tensor.zipBuild A.xor,
      Tensor.zipBuild A.equ, Tensor.zipBuild A.imp], ∃ g, V.Pointwise f g := by
    have gate : ∀ gate ∈ [GateSet.Binary.or, .and, .xor, .equ, .imp],
        ∃ g, V.Pointwise (Tensor.zipBuild (A.binary gate)) g := fun gate member => ⟨_, .zipBuild (hbinary gate member)⟩
    simp only [List.forall_mem_cons]
    exact ⟨gate .or (by simp), gate .and (by simp), gate .xor (by simp), gate .equ (by simp), gate .imp (by simp),
      by simp⟩
  exact ⟨moves.commutes negates pointwise s, moves.stored.commutes negates pointwise s⟩

/-- Handles of a circuit with one input, moved before or after gates are made. -/
theorem reindexing_circuit :
    (lifted (Circuit.gates (id : Nat → Nat))).stored.ReindexingCommutes
      ((Circuit.evaluation fun _ => true).Coincide (Circuit.evaluation fun _ => true).IsTensor #[.input])
      (fun T => ∀ c h, (Circuit.evaluation fun _ => true).Elem #[.input] (T.get c h))
      fun new => new.checkStorage = .ok () :=
  have respects := Circuit.respects_evaluation fun _ => true
  ((reindexing.2 (Circuit.gates id)).2.2 respects.not (fun gate _ => respects.reads_binary gate) #[.input]).2

/-- A cell is not repeated along sixty-five axes, though the mapping fits. -/
theorem reindex_manyAxes :
    ¬Axes.Unfit (List.replicate 65 1) (Tensor.scalar true).axes [] ∧
    ∀ s : Unit, ((lifted (.boolean false)).stored.reindex (.scalar true) (.ofAxes (List.replicate 65 1)) []).runFrom s =
      (.error (.manyAxes 65), s) := by
  refine ⟨?_, fun s => rfl⟩
  rw [Axes.not_unfit_iff]
  exact .nil

end TensorOps

end BoolCalculus
