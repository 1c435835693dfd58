import BoolCalculus.Amount
import BoolCalculus.Build

/-!
# Draws

Where the relations and integers of law checks come from: a generator, or lists of given values that
are gone through again and again. What was drawn is counted.
-/

namespace BoolCalculus.Laws

-- Powers of numbers are not taken in a monoid.
attribute [local instance (high)] instPowNat

/-- The state of a linear congruential generator modulo `2 ^ 64`. -/
structure Generator where
  state : Nat

namespace Generator

/-- The generator of a seed. -/
def ofSeed (seed : Int) : Generator :=
  ⟨(seed % 2 ^ (64 : Nat)).toNat⟩

/-- The next thirty-two bits. -/
def next (g : Generator) : Nat × Generator :=
  let state := (6364136223846793005 * g.state + 1442695040888963407) % 2 ^ (64 : Nat)
  (state / 2 ^ (32 : Nat), ⟨state⟩)

/-- A number of the given count of thirty-two bit pieces. -/
def pieces : Nat → Generator → Nat × Generator
  | 0, g => (0, g)
  | k + 1, g =>
    let (low, g) := g.next
    let (high, g) := pieces k g
    (low + 2 ^ (32 : Nat) * high, g)

end Generator

/-- A source of relations and integers, with a record of what was asked of it. -/
structure Draws where
  generator : Generator
  /-- The probability that a pair belongs to a generated relation. -/
  density : Amount
  /-- The cells of the given relations, if relations are given. -/
  relations? : Option (List (List Bool))
  /-- The given integers, if integers are given. -/
  integers? : Option (List Int)
  /-- The number of relations drawn. -/
  relationsDrawn : Nat
  /-- The number of integers drawn. -/
  integersDrawn : Nat
  /-- The ranges of which integers were drawn, without repetitions. -/
  ranges : List (Int × Int)

namespace Draws

/-- A source that generates everything. -/
def generated (seed : Int) (density : Amount) : Draws where
  generator := .ofSeed seed
  density
  relations? := none
  integers? := none
  relationsDrawn := 0
  integersDrawn := 0
  ranges := []

/-- The entry of a list that is gone through again and again. -/
def cyclic {β : Type} (values : List β) (k : Nat) : Option β :=
  values[k % values.length]?

/-- Generates cells one after the other. -/
def generateCells (density : Amount) : Nat → Generator → List Bool × Generator
  | 0, g => ([], g)
  | k + 1, g =>
    let (n, g) := g.next
    let (cells, g) := generateCells density k g
    (density.exceeds n (2 ^ (32 : Nat)) :: cells, g)

/-- Draws the cells of a relation with the given number of pairs. -/
def cells (count : Nat) : Build Draws (List Bool) :=
  modifyGet fun d =>
    let drawn := d.relationsDrawn + 1
    match d.relations? with
    | some relations => ((cyclic relations d.relationsDrawn).getD [], { d with relationsDrawn := drawn })
    | none =>
      let (cells, generator) := generateCells d.density count d.generator
      (cells, { d with generator, relationsDrawn := drawn })

/-- Moves a number into a range by a multiple of the length of the range. -/
def intoRange (low high n : Int) : Int :=
  low + (n - low) % (high - low)

/-- Draws an integer from `low` to below `high`. -/
def integer (low high : Int) : Build Draws Int :=
  modifyGet fun d =>
    let d := { d with ranges := if (low, high) ∈ d.ranges then d.ranges else d.ranges ++ [(low, high)] }
    let drawn := d.integersDrawn + 1
    match d.integers? with
    | some integers =>
      (intoRange low high ((cyclic integers d.integersDrawn).getD 0), { d with integersDrawn := drawn })
    | none =>
      let (n, generator) := d.generator.pieces ((high - low).toNat.log2 / 32 + 2)
      (intoRange low high n, { d with generator, integersDrawn := drawn })

/-- A number that was moved into a range lies in it. -/
theorem intoRange_mem {low high : Int} (n : Int) (h : low < high) :
    low ≤ intoRange low high n ∧ intoRange low high n < high := by
  have nonneg := Int.emod_nonneg (n - low) (by omega : high - low ≠ 0)
  have lt := Int.emod_lt_of_pos (n - low) (by omega : 0 < high - low)
  unfold intoRange
  omega

end Draws

end BoolCalculus.Laws
