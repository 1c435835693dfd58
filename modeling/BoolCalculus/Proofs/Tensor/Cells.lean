import BoolCalculus.Proofs.Tensor.Moving
import BoolCalculus.Tensor.Dense
import BoolCalculus.Tensor.Lifted
import Mathlib.Order.BooleanAlgebra.Basic

/-!
# Cells of tensors

What pointwise operations, reindexing and folding along the first axis do to cells, and how they commute
with a map of the cells, and what is built for no cell or for one.
-/

namespace BoolCalculus

/-- A coordinate has one entry for every axis. -/
theorem Axes.length_of_inBounds {axes c : List Nat} (h : InBounds axes c) : c.length = axes.length := by
  induction axes generalizing c with
  | nil =>
      cases c with
      | nil => rfl
      | cons i c => exact h.elim
  | cons m ms ih =>
      cases c with
      | nil => exact h.elim
      | cons i c => simpa using ih h.2

namespace Tensor

variable {σ α β γ : Type}

/-- The tensor of the values of a function, if no size is negative. -/
def create? (shape : Shape) (f : List Nat → β) : Except Fault (Tensor β) :=
  match shape.axes? with
  | some axes => .ok (ofFn axes fun c _ => f c)
  | none => .error .negativeAxis

/-- The cells of a tensor are those at its coordinates. -/
theorem forall_mem_toList {T : Tensor α} {P : α → Prop} :
    (∀ a ∈ T.toList, P a) ↔ ∀ c h, P (T.get c h) := by
  obtain ⟨axes, cells⟩ := T
  simp only [toList, Vector.mem_toList_iff]
  constructor
  · exact fun each c h => each _ (Vector.getElem_mem _)
  · intro each a member
    obtain ⟨j, inside, rfl⟩ := Vector.getElem_of_mem member
    have cell := each _ (Axes.inBounds_coordAt inside)
    simpa only [get, Axes.flat_coordAt inside] using cell

theorem mem_toList {T : Tensor α} {a : α} : a ∈ T.toList ↔ ∃ c h, a = T.get c h := by
  have none : (∀ b ∈ T.toList, a ≠ b) ↔ ∀ c h, a ≠ T.get c h := forall_mem_toList
  constructor
  · intro member
    by_contra other
    simp only [not_exists] at other
    exact none.2 other a member rfl
  · rintro ⟨c, h, rfl⟩
    exact forall_mem_toList.1 (fun b member => member) c h

theorem map_eq_ofFn (f : α → β) (T : Tensor α) :
    T.map f = ofFn T.axes fun c h => f (T.get c h) :=
  ext_get rfl fun _ hT _ =>
    (get_map f T hT).trans (get_ofFn T.axes (fun c h => f (T.get c h)) hT).symm

theorem map_ofFn (f : α → β) (axes : List Nat) (g : (c : List Nat) → Axes.InBounds axes c → α) :
    (ofFn axes g).map f = ofFn axes fun c h => f (g c h) :=
  ext_get rfl fun _ hT _ =>
    (get_map f _ hT).trans ((congrArg f (get_ofFn axes g hT)).trans
      (get_ofFn axes (fun c h => f (g c h)) hT).symm)

theorem zip?_of_eq (f : α → α → β) {T U : Tensor α} (same : T.axes = U.axes) :
    T.zip? f U = .ok (T.zip f U same) :=
  dif_pos same

theorem zip?_of_ne (f : α → α → β) {T U : Tensor α} (differ : T.axes ≠ U.axes) :
    T.zip? f U = .error (.shapeMismatch (.unequal T.shape U.shape)) :=
  dif_neg differ

theorem zip_ofFn (f : α → β → γ) (axes : List Nat)
    (g : (c : List Nat) → Axes.InBounds axes c → α) (h : (c : List Nat) → Axes.InBounds axes c → β) :
    (ofFn axes g).zip f (ofFn axes h) rfl = ofFn axes fun c hc => f (g c hc) (h c hc) :=
  congrArg (ofFn axes) (funext fun _ => funext fun hc =>
    congrArg₂ f (get_ofFn axes g hc) (get_ofFn axes h hc))

/-! ## Tensors without axes -/

theorem eq_scalar {T : Tensor α} (none : T.axes = []) :
    T = scalar (T.get [] (none.symm ▸ trivial)) :=
  ext_get none fun c hT hU => by
    obtain ⟨axes, cells⟩ := T
    obtain rfl : axes = [] := none
    cases c with
    | nil => rfl
    | cons i c => exact hT.elim

theorem scalar?_scalar (a : α) : (scalar a).scalar? = some a := rfl

theorem scalar_injective : Function.Injective (scalar : α → Tensor α) := by
  intro a b same
  have cells := congrArg scalar? same
  rwa [scalar?_scalar, scalar?_scalar, Option.some_inj] at cells

theorem map_scalar (f : α → β) (a : α) : (scalar a).map f = scalar (f a) :=
  (eq_scalar (T := (scalar a).map f) rfl).trans
    (congrArg scalar (get_map f (scalar a) (c := []) trivial))

theorem zip?_scalar (f : α → α → β) (a b : α) :
    (scalar a).zip? f (scalar b) = .ok (scalar (f a b)) := by
  have same : (scalar a).axes = (scalar b).axes := rfl
  rw [zip?_of_eq f same, eq_scalar (T := (scalar a).zip f (scalar b) same) rfl]
  rfl

theorem create?_scalar (f : List Nat → β) : create? ⟨[]⟩ f = .ok (scalar (f [])) :=
  congrArg Except.ok (eq_scalar (T := ofFn [] fun c _ => f c) rfl)

/-! ## Reindexing -/

theorem get_reindex (T : Tensor α) {axes mapping : List Nat} (fits : Axes.Fits axes T.axes mapping)
    {c : List Nat} (hc : Axes.InBounds axes c) :
    (T.reindex axes mapping fits).get c hc =
      T.get (Axes.pick c mapping) (Axes.inBounds_pick fits hc) :=
  get_ofFn axes (fun c hc => T.get (Axes.pick c mapping) (Axes.inBounds_pick fits hc)) hc

/-- Cells that are moved to some place each are still there, and no others. -/
theorem mem_toList_reindex {T : Tensor α} {axes mapping : List Nat} (fits : Axes.Fits axes T.axes mapping)
    (onto : ∀ c, Axes.InBounds T.axes c → ∃ d, Axes.InBounds axes d ∧ Axes.pick d mapping = c) {a : α} :
    a ∈ (T.reindex axes mapping fits).toList ↔ a ∈ T.toList := by
  rw [mem_toList, mem_toList]
  constructor
  · rintro ⟨d, inside, rfl⟩
    exact ⟨_, _, get_reindex T fits inside⟩
  · rintro ⟨c, inside, rfl⟩
    obtain ⟨d, inside', rfl⟩ := onto c inside
    exact ⟨d, inside', (get_reindex T fits inside').symm⟩

theorem reindex_ofFn {old axes mapping : List Nat} (f : (c : List Nat) → Axes.InBounds old c → α)
    (fits : Axes.Fits axes old mapping) :
    (ofFn old f).reindex axes mapping fits =
      ofFn axes fun c hc => f (Axes.pick c mapping) (Axes.inBounds_pick fits hc) :=
  congrArg (ofFn axes) (funext fun _ => funext fun hc => get_ofFn old f (Axes.inBounds_pick fits hc))

theorem reindex?_misfit {T : Tensor α} {shape : Shape} {mapping : List Int} {cause : Misfit}
    (h : shape.misfit? T.shape mapping = some cause) :
    T.reindex? shape mapping = .error (.shapeMismatch cause) := by
  unfold reindex?
  split
  · rename_i found
    rw [h] at found
    rw [Option.some.inj found]
  · rename_i found
    rw [h] at found
    simp at found

theorem reindex?_negative {T : Tensor α} {shape : Shape} {mapping : List Int}
    (h : shape.misfit? T.shape mapping = none) (negative : shape.axes? = none) :
    T.reindex? shape mapping = .error .negativeAxis := by
  unfold reindex?
  split
  · rename_i found
    rw [h] at found
    simp at found
  · split
    · rfl
    · rename_i found
      rw [negative] at found
      simp at found

theorem reindex?_fits {T : Tensor α} {shape : Shape} {mapping : List Int} {axes : List Nat}
    (h : shape.misfit? T.shape mapping = none) (size : shape.axes? = some axes) :
    ∃ fits, T.reindex? shape mapping = .ok (T.reindex axes (mapping.map Int.toNat) fits) := by
  obtain rfl := Shape.ofAxes_of_axes? size
  refine ⟨Shape.fits_of_misfit? h, ?_⟩
  unfold reindex?
  split
  · rename_i found
    rw [h] at found
    simp at found
  · split
    · rename_i found
      rw [size] at found
      simp at found
    · rename_i found
      rw [size] at found
      obtain rfl := Option.some.inj found
      rfl

/-! ## Folding along the first axis -/

theorem foldFirst_ofFn (f : β → α → β) (start : β) {n : Nat} {ns : List Nat}
    (g : (c : List Nat) → Axes.InBounds (n :: ns) c → α) :
    (ofFn (n :: ns) g).foldFirst f start = .ok (ofFn ns fun c hc =>
      Fin.foldl n (fun acc i => f acc (g (i :: c) ⟨i.isLt, hc⟩)) start) := by
  refine congrArg Except.ok (congrArg (ofFn ns) ?_)
  funext c hc
  have inside : ∀ i : Fin n, Axes.InBounds (n :: ns) (i :: c) := fun i => ⟨i.isLt, hc⟩
  have cells : ∀ i, (ofFn (n :: ns) g).fibre rfl c hc i = g (i :: c) (inside i) :=
    fun i => get_ofFn (n :: ns) g (inside i)
  simp only [cells]

theorem foldl_compl [BooleanAlgebra β] {n : Nat} (x : Fin n → β) (start : β) :
    (Fin.foldl n (fun acc i => acc ⊔ (x i)ᶜ) start)ᶜ =
      Fin.foldl n (fun acc i => acc ⊓ x i) startᶜ := by
  induction n generalizing start with
  | zero => simp only [Fin.foldl_zero]
  | succ n ih => rw [Fin.foldl_succ, Fin.foldl_succ, ih, compl_sup, compl_compl]

/-- A conjunction of cells is the complement of the disjunction of their complements. -/
theorem foldFirst_compl [BooleanAlgebra β] (T : Tensor β) :
    ((T.map (·ᶜ)).foldFirst (· ⊔ ·) ⊥).map (map (·ᶜ)) = T.foldFirst (· ⊓ ·) ⊤ := by
  obtain ⟨axes, cells⟩ := T
  cases axes with
  | nil => rfl
  | cons n ns =>
      refine congrArg Except.ok ((map_ofFn _ _ _).trans (congrArg (ofFn ns) ?_))
      funext c hc
      have complements : ∀ i, (map (·ᶜ) ⟨n :: ns, cells⟩ : Tensor β).fibre rfl c hc i =
          ((⟨n :: ns, cells⟩ : Tensor β).fibre rfl c hc i)ᶜ := fun _ => get_map _ _ _
      simp only [complements]
      rw [foldl_compl, compl_bot]

/-! ## No cell and one cell -/

theorem build_congr (axes : List Nat) {f g : (c : List Nat) → Axes.InBounds axes c → Build σ α}
    (same : ∀ c h, f c h = g c h) : build axes f = build axes g :=
  congrArg (build axes) (funext fun c => funext fun h => same c h)

/-- A tensor without cells is built at once. -/
theorem build_empty {axes : List Nat} (empty : Axes.volume axes = 0)
    (f : (c : List Nat) → Axes.InBounds axes c → Build σ α) : ∃ T, build axes f = pure T := by
  have cells : ∀ {n : Nat} (g : Fin n → Build σ α), n = 0 → ∃ xs, Vector.ofFnM g = pure xs := by
    rintro n g rfl
    exact ⟨#v[], Vector.ofFnM_zero⟩
  obtain ⟨xs, built⟩ := cells (fun j => f (Axes.coordAt axes j) (Axes.inBounds_coordAt j.isLt)) empty
  refine ⟨⟨axes, xs⟩, ?_⟩
  rw [build, built, pure_bind]

theorem ofFnM_one (f : Fin 1 → Build σ α) : Vector.ofFnM f = (fun a => #v[a]) <$> f 0 := by
  rw [Vector.ofFnM_succ, Vector.ofFnM_zero, pure_bind, map_eq_pure_bind]
  rfl

/-- A tensor without axes is built by building its cell. -/
theorem build_scalar (f : (c : List Nat) → Axes.InBounds [] c → Build σ α) :
    build [] f = scalar <$> f [] trivial := by
  calc build [] f
      = ((Vector.ofFnM fun _ : Fin 1 => f [] trivial) >>= fun cells => pure ⟨[], cells⟩) := rfl
    _ = scalar <$> f [] trivial := by
        rw [ofFnM_one, bind_map_left, map_eq_pure_bind]
        rfl

theorem zipBuild_scalar (f : α → α → Build σ α) (a b : α) :
    zipBuild f (scalar a) (scalar b) = scalar <$> f a b := by
  have same : (scalar a).axes = (scalar b).axes := rfl
  rw [zipBuild, dif_pos same]
  exact build_scalar _

end Tensor

theorem TensorOps.notCells_scalar {σ α : Type} (A : GateSet σ α) (a : α) :
    notCells A (.scalar a) = Tensor.scalar <$> A.not a :=
  Tensor.build_scalar _

end BoolCalculus
