/-!
# Shapes

A shape is the list of axis sizes that an array is asked to have. Sizes are integers, so a shape can
also ask for what no array has; `Shape.axes?` gives the sizes of an array if there is one.
-/

namespace BoolCalculus

/-- A list of axis sizes. -/
structure Shape where
  sizes : List Int
  deriving DecidableEq, Repr, Inhabited

namespace Shape

/-- The shape with `rank` axes of one size; a negative rank counts as none. -/
def rectangular (rank size : Int) : Shape :=
  ⟨List.replicate rank.toNat size⟩

/-- The shape of an array with the given axis sizes. -/
def ofAxes (axes : List Nat) : Shape :=
  ⟨axes.map Int.ofNat⟩

/-- The axis sizes of an array of this shape, if no size is negative. -/
def axes? (s : Shape) : Option (List Nat) :=
  if s.sizes.all (0 ≤ ·) then some (s.sizes.map Int.toNat) else none

/-- The number of axes. -/
def rank (s : Shape) : Nat :=
  s.sizes.length

/-- The product of the sizes. -/
def volume (s : Shape) : Int :=
  s.sizes.foldr (· * ·) 1

/-- Whether every axis has the given size. -/
def isRectangular (s : Shape) (size : Int) : Bool :=
  s.sizes.all (· == size)

/-- A list of integers in brackets. -/
def listText (ns : List Int) : String :=
  "[" ++ ", ".intercalate (ns.map toString) ++ "]"

/-- Axis sizes in parentheses, with a text between any two; a single size is followed by a comma. -/
def sizesText (gap : String) : List Nat → String
  | [n] => s!"({n},)"
  | ns => "(" ++ gap.intercalate (ns.map toString) ++ ")"

/-- A shape as messages show it. -/
def display (s : Shape) : String :=
  "Shape(" ++ listText s.sizes ++ ")"

@[simp] theorem rank_ofAxes (axes : List Nat) : (ofAxes axes).rank = axes.length := by
  simp [rank, ofAxes]

@[simp] theorem rank_rectangular (rank size : Int) :
    (rectangular rank size).rank = rank.toNat := by
  simp [rectangular, Shape.rank]

theorem ofAxes_injective {a b : List Nat} (h : ofAxes a = ofAxes b) : a = b := by
  have h : (a.map Int.ofNat).map Int.toNat = (b.map Int.ofNat).map Int.toNat :=
    congrArg (List.map Int.toNat) (congrArg sizes h)
  simpa [Function.comp_def] using h

theorem axes?_ofAxes (axes : List Nat) : (ofAxes axes).axes? = some axes := by
  simp [axes?, ofAxes, Function.comp_def]

theorem ofAxes_of_axes? {s : Shape} {axes : List Nat} (h : s.axes? = some axes) :
    ofAxes axes = s := by
  obtain ⟨sizes⟩ := s
  simp only [axes?, List.all_eq_true, decide_eq_true_eq] at h
  split at h
  · rename_i nonneg
    obtain rfl := Option.some.inj h
    simp only [ofAxes, List.map_map, mk.injEq]
    exact (List.map_congr_left fun n hn => Int.toNat_of_nonneg (nonneg n hn)).trans
      (List.map_id sizes)
  · simp at h

end Shape

end BoolCalculus
