import BoolCalculus.Proofs.Domain.Screening
import BoolCalculus.Proofs.Tensor.Cells
import BoolCalculus.Tensor.Storage

/-!
# Tensors of unchecked cells

Over gates that screen their operands, the operations on lifted tensors screen all cells of their operands
(`TensorOps.Screens.lifted`). A quantification over the first axis screens every cell too, and its seed and its
accumulators are members.
-/

namespace BoolCalculus

variable {σ α : Type}

/-- A tensor with the given axes whose cells are members. -/
def Tensor.OfMembers (contains : α → Bool) (axes : List Nat) (T : Tensor α) : Prop :=
  T.axes = axes ∧ ∀ a ∈ T.toList, contains a

variable [Shown α] {D : Domain σ α} {contains : α → Bool}

open Domain

/-- A tensor is built of what its cells are built of. -/
theorem Domain.Screens.build {axes : List Nat} {F : (c : List Nat) → Axes.InBounds axes c → α → Prop}
    {f f' : (c : List Nat) → Axes.InBounds axes c → Build σ α}
    (each : ∀ c h, D.Screens contains (F c h) (contains ·) (f c h) (f' c h)) :
    D.Screens contains (fun a => ∃ c h, F c h a) (Tensor.OfMembers contains axes) (Tensor.build axes f)
      (Tensor.build axes f') := by
  have cells := Screens.ofFnM fun j : Fin (Axes.volume axes) =>
    each (Axes.coordAt axes j) (Axes.inBounds_coordAt j.isLt)
  have tensor := cells.bind fun cells members => Screens.pure (b := ⟨axes, cells⟩)
    (P := Tensor.OfMembers contains axes) ⟨rfl, fun a member => members a (Vector.mem_toList_iff.1 member)⟩
  refine tensor.of_iff fun a _ => ?_
  constructor
  · rintro (⟨j, operand⟩ | none)
    · exact ⟨_, _, operand⟩
    · exact none.elim
  · rintro ⟨c, h, operand⟩
    refine .inl ⟨⟨Axes.flat axes c, Axes.flat_lt h⟩, ?_⟩
    simpa only [Axes.coordAt_flat h] using operand

namespace TensorOps

variable (D contains) in
/-- Two operations on pairs of tensors, of which the first screens the cells of both operands. -/
def ScreensPairs (f f' : Tensor α → Tensor α → Build σ (Tensor α)) : Prop :=
  ∀ S T, S.axes = T.axes → D.Screens contains (fun a => a ∈ S.toList ∨ a ∈ T.toList)
    (Tensor.OfMembers contains S.axes) (f S T) (f' S T)

variable (D contains) in
/-- Two operations along the first axis, of which the first screens all cells of its operand. -/
def ScreensFirst (f f' : Tensor α → Build σ (Tensor α)) : Prop :=
  ∀ T n ns, T.axes = n :: ns →
    D.Screens contains (· ∈ T.toList) (Tensor.OfMembers contains ns) (f T) (f' T)

/-- The operations of `O` screen the cells of the operands of those of `O'`, and make tensors of members. -/
structure Screens (D : Domain σ α) (contains : α → Bool) (O O' : TensorOps σ α) : Prop where
  not : ∀ T, D.Screens contains (· ∈ T.toList) (Tensor.OfMembers contains T.axes) (O.not T) (O'.not T)
  or : ScreensPairs D contains O.or O'.or
  and : ScreensPairs D contains O.and O'.and
  xor : ScreensPairs D contains O.xor O'.xor
  equ : ScreensPairs D contains O.equ O'.equ
  imp : ScreensPairs D contains O.imp O'.imp
  any : ScreensFirst D contains O.any O'.any
  all : ScreensFirst D contains O.all O'.all

variable {A A' : GateSet σ α} (gates : GateSet.Screens D contains A A')

include gates

theorem screens_notCells (T : Tensor α) : D.Screens contains (· ∈ T.toList) (Tensor.OfMembers contains T.axes)
    (notCells A T) (notCells A' T) :=
  (Screens.build fun _ _ => gates.not _).of_iff fun _ _ => Tensor.mem_toList.symm

theorem screens_zipBuild (gate : GateSet.Binary) :
    ScreensPairs D contains (Tensor.zipBuild (A.binary gate)) (Tensor.zipBuild (A'.binary gate)) := by
  intro S T same
  rw [Tensor.zipBuild, Tensor.zipBuild, dif_pos same, dif_pos same]
  refine (Screens.build fun _ _ => gates.binary gate _ _).of_iff fun a _ => ?_
  obtain ⟨axes, cells⟩ := T
  obtain rfl : S.axes = axes := same
  simp only [Tensor.mem_toList, ← exists_or]

/-- The disjunction over the first axis reaches every cell. -/
theorem screens_anyCells : ScreensFirst D contains (anyCells A) (anyCells A') := by
  intro T n ns axes
  obtain ⟨_, cells⟩ := T
  obtain rfl := axes
  have step : ∀ (acc b : α), contains acc →
      D.Screens contains (· = b) (contains ·) (A.or acc b) (A'.or acc b) :=
    fun acc b member => (gates.binary .or acc b).of_iff fun x alien => by simp [ne_of_member member alien]
  refine (gates.zero.bind fun zero member => Screens.build fun c hc =>
    Screens.foldlM (fun acc i held => step acc _ held) member).of_iff fun a _ => ?_
  rw [Tensor.mem_toList]
  constructor
  · rintro (none | ⟨c, hc, i, rfl⟩)
    · exact none.elim
    · exact ⟨_, _, rfl⟩
  · rintro ⟨c, h, rfl⟩
    cases c with
    | nil => exact h.elim
    | cons i c => exact .inr ⟨c, h.2, ⟨i, h.1⟩, rfl⟩

theorem Screens.lifted : Screens D contains (lifted A) (TensorOps.lifted A') where
  not := screens_notCells gates
  or := screens_zipBuild gates .or
  and := screens_zipBuild gates .and
  xor := screens_zipBuild gates .xor
  equ := screens_zipBuild gates .equ
  imp := screens_zipBuild gates .imp
  any := screens_anyCells gates
  all := by
    -- The cells are checked by the first negation, and what comes after it works on members.
    intro T n ns axes
    have later : ∀ notT, Tensor.OfMembers contains T.axes notT → D.Screens contains (fun _ => False)
        (Tensor.OfMembers contains ns) (do notCells A (← anyCells A notT)) (do notCells A' (← anyCells A' notT)) := by
      intro notT negated
      have any := (screens_anyCells gates notT n ns (negated.1.trans axes)).settled negated.2
      have last : ∀ S, Tensor.OfMembers contains ns S → D.Screens contains (fun _ => False)
          (Tensor.OfMembers contains ns) (notCells A S) (notCells A' S) := by
        rintro S ⟨rfl, members⟩
        exact (screens_notCells gates S).settled members
      exact (any.bind last).of_iff (by simp)
    exact ((screens_notCells gates T).bind later).of_iff (by simp)

omit gates in
/-- The limits of storage concern none of the operations. -/
theorem Screens.stored {O O' : TensorOps σ α} (screens : Screens D contains O O') :
    Screens D contains O.stored O'.stored :=
  { screens with }

end TensorOps

end BoolCalculus
