import BoolCalculus.Amount
import BoolCalculus.Keyed

/-!
# Plain values

A value that comes from outside: a setting, an element whose membership is still to be checked, an
item of a vector. Values have a sort (`Value.sort`), a reading as a truth value
(`Value.isTrue`) and an equality in which numbers and truth values are compared by size
(`Value.same`).
-/

namespace BoolCalculus

/-- A plain value. A `record` keeps its fields in the order in which they were first written. A
`foreign` value stands for something that is no plain value, such as a word or a tensor: `sort` is the
name of its sort, `shown` is how messages show it, and `content` is how it is written. -/
inductive Value where
  | null
  | truth (b : Bool)
  | int (n : Int)
  | real (a : Amount)
  | text (s : Text)
  | list (items : List Value)
  | record (fields : List (Text × Value))
  | foreign (sort shown : String) (content : Value)
  deriving Inhabited, Repr, BEq

namespace Value

/-- The sort of a value, by the name that messages use for it. -/
def sort : Value → String
  | null => "NoneType"
  | truth _ => "bool"
  | int _ => "int"
  | real _ => "float"
  | text _ => "str"
  | list _ => "list"
  | record _ => "dict"
  | foreign sort _ _ => sort

/-- The truth value that a value is, if it is one. -/
def truth? : Value → Option Bool
  | truth b => some b
  | _ => none

/-- The sort of the truth values that comparisons of arrays give. -/
def arrayTruth : String :=
  "numpy.bool"

/-- The truth value that a value is, whether it is a plain one or one that a comparison of arrays gave. -/
def concrete? : Value → Option Bool
  | truth b => some b
  | foreign sort _ content => if sort = arrayTruth then content.truth? else none
  | _ => none

/-- The whole number that a value is, if it is one. A truth value is no number here. -/
def int? : Value → Option Int
  | int n => some n
  | _ => none

/-- A value counts as true unless it is null, false, zero or empty. What is no plain value counts as
its content. -/
def isTrue : Value → Bool
  | null => false
  | truth b => b
  | int n => n != 0
  | real a => a.isNonzero
  | text s => !s.points.isEmpty
  | list items => !items.isEmpty
  | record fields => !fields.isEmpty
  | foreign _ _ content => content.isTrue

/-- The amount of a number or truth value. -/
def amount? : Value → Option Amount
  | truth b => some (.finite false b.toNat 0)
  | int n => some (.finite (n < 0) n.natAbs 0)
  | real a => some a
  | _ => none

/-- The number that a number or truth value stands for. Integers are exact. -/
def magnitude? : Value → Option Magnitude
  | truth b => some (.dyadic b.toNat 0)
  | int n => some (.dyadic n 0)
  | real a => some a.magnitude
  | _ => none

/-- The items that a value goes through: those of a list, the code points of a text, the names of a
record. -/
def items? : Value → Option (List Value)
  | text s => some (s.points.map fun point => text ⟨[point]⟩)
  | list items => some items
  | record fields => some (fields.map fun (name, _) => text name)
  | _ => none

mutual

/-- Equality of values. Numbers and truth values are equal when their sizes are, so `true` equals
`1`; the order of the fields of a record does not count. -/
def same : Value → Value → Bool
  | null, null => true
  | text s, text t => s == t
  | list xs, list ys => sameItems xs ys
  | record fs, record gs => fs.length == gs.length && sameFields fs gs
  | foreign _ _ x, foreign _ _ y => same x y
  | x, y =>
    match magnitude? x, magnitude? y with
    | some a, some b => a.same b
    | _, _ => false

/-- Item by item equality of two lists of values. -/
def sameItems : List Value → List Value → Bool
  | [], [] => true
  | x :: xs, y :: ys => same x y && sameItems xs ys
  | _, _ => false

/-- Each field of the first record is found, with an equal value, in the second. -/
def sameFields : List (Text × Value) → List (Text × Value) → Bool
  | [], _ => true
  | (name, x) :: fs, gs =>
    (match gs.lookup name with
      | some y => same x y
      | none => false) && sameFields fs gs

end

/-- The value of the field of that name; null where there is no such field or no record. -/
def field (v : Value) (name : Text) : Value :=
  match v with
  | record fields => (fields.lookup name).getD null
  | _ => null

end Value

/-- The elements of `α` can be shown as plain values. A handle of a circuit shows as its number. -/
class Shown (α : Type) where
  /-- The plain value that stands for an element in messages and checks. -/
  value : α → Value

/-- The truth value that an element counts as. -/
def Shown.isTrue {α : Type} [Shown α] (a : α) : Bool :=
  (Shown.value a).isTrue

/-- The truth value that an element is, if it is one. -/
def Shown.truth? {α : Type} [Shown α] (a : α) : Option Bool :=
  (Shown.value a).truth?

/-- The truth value of either kind that an element is, if it is one. -/
def Shown.concrete? {α : Type} [Shown α] (a : α) : Option Bool :=
  (Shown.value a).concrete?

instance : Shown Value := ⟨id⟩

instance : Shown Bool := ⟨.truth⟩

instance : Shown Nat := ⟨fun n => .int n⟩

@[simp] theorem Shown.isTrue_bool (b : Bool) : Shown.isTrue b = b := rfl

@[simp] theorem Shown.truth?_bool (b : Bool) : Shown.truth? b = some b := rfl

@[simp] theorem Shown.concrete?_bool (b : Bool) : Shown.concrete? b = some b := rfl

end BoolCalculus
