import BoolCalculus.Tensor.Display
import BoolCalculus.Value.Number
import BoolCalculus.Word.Arithmetic

/-!
# Operands

What an operation can be given: a plain value, a shape, a tensor, truth values that a comparison of tensors
gave, a word of operands or a record of them. An operand has elements if it is a word, a record, a shape, a
tensor with axes, or a plain value with items; only then has it a length. Operands can be shown as plain
values for checks of membership.
-/

namespace BoolCalculus

/-- An operand over tensors with cells of type `γ`. Tensors of one label are one object, which equals
itself without a look at its cells (`Operand.same`); a tensor without a label is an object of its own. -/
inductive Operand (γ : Type) where
  | plain (v : Value)
  | shape (s : Shape)
  | tensor (T : Tensor γ) (label : Option Nat)
  /-- What a comparison with a tensor of opaque cells gave, cell by cell. -/
  | truths (T : Tensor Bool) (label : Option Nat)
  | word (w : List (Operand γ))
  | record (fields : List (Text × Operand γ))

/-- A shape as a plain value. -/
def Shape.value (s : Shape) : Value :=
  .record [("sizes", .list (s.sizes.map .int))]

/-- A tensor as a plain value. -/
def Tensor.value {γ : Type} [Shown γ] (T : Tensor γ) : Value :=
  .record [("shape", .list (T.axes.map fun (n : Nat) => .int n)),
    ("cells", .list (T.toList.map Shown.value))]

namespace Operand

variable {γ : Type}

/-- An integer as an operand. -/
def int (n : Int) : Operand γ :=
  plain (.int n)

mutual

/-- Labels the arrays that have no label yet, in the order in which they stand, and counts the labels. -/
def labelled : Operand γ → StateM Nat (Operand γ)
  | tensor T none => do
    let n ← get
    set (n + 1)
    pure (tensor T (some n))
  | truths T none => do
    let n ← get
    set (n + 1)
    pure (truths T (some n))
  | word w => do pure (word (← labelledAll w))
  | record fields => do pure (record (← labelledFields fields))
  | a => pure a

/-- Labels the arrays of operands. -/
def labelledAll : List (Operand γ) → StateM Nat (List (Operand γ))
  | [] => pure []
  | a :: rest => do
    let b ← labelled a
    pure (b :: (← labelledAll rest))

/-- Labels the arrays of the fields of a record. -/
def labelledFields : List (Text × Operand γ) → StateM Nat (List (Text × Operand γ))
  | [] => pure []
  | (name, a) :: rest => do
    let b ← labelled a
    pure ((name, b) :: (← labelledFields rest))

end

/-- The label of the object that an array is. -/
def label? : Operand γ → Option Nat
  | tensor _ label => label
  | truths _ label => label
  | _ => none

/-- Whether two operands are arrays that are one object. -/
def isObject (a b : Operand γ) : Bool :=
  a.label?.isSome && a.label? == b.label?

variable [Shown γ]

mutual

/-- How an operand is written as a plain value. -/
def written : Operand γ → Value
  | plain v => v
  | shape s => s.value
  | tensor T _ => T.value
  | truths T _ => T.scalar?.elim T.value .truth
  | word w => .record [("vec", .list (writtenAll w))]
  | record fields => .record (writtenFields fields)

/-- How operands are written. -/
def writtenAll : List (Operand γ) → List Value
  | [] => []
  | a :: rest => written a :: writtenAll rest

/-- How the fields of a record are written. -/
def writtenFields : List (Text × Operand γ) → List (Text × Value)
  | [] => []
  | (name, a) :: rest => (name, written a) :: writtenFields rest

end

mutual

/-- How messages show an operand; `dense` says whether its tensors are dense. -/
def display (dense : Bool) : Operand γ → String
  | plain v => v.quoted
  | shape s => s.display
  | tensor T _ => if dense then T.displayDense else T.display
  | truths T _ => T.displayTruths
  | word w => "GenVec([" ++ ", ".intercalate (displayAll dense w) ++ "])"
  | record fields => "\x7b" ++ ", ".intercalate (displayFields dense fields) ++ "\x7d"

/-- How messages show operands. -/
def displayAll (dense : Bool) : List (Operand γ) → List String
  | [] => []
  | a :: rest => display dense a :: displayAll dense rest

/-- How messages show the fields of a record, each with its name. -/
def displayFields (dense : Bool) : List (Text × Operand γ) → List String
  | [] => []
  | (name, a) :: rest => (Text.quoted name ++ ": " ++ display dense a) :: displayFields dense rest

end

/-- The sort of an operand, by the name that messages use for it. -/
def sort (dense : Bool) : Operand γ → String
  | plain v => v.sort
  | shape _ => "Shape"
  | tensor _ _ => if dense then "Tensor" else "ndarray"
  | truths T _ => if T.axes.isEmpty then Value.arrayTruth else "ndarray"
  | word _ => "GenVec"
  | record _ => "dict"

/-- An operand as a value that can be checked for membership. -/
def value (dense : Bool) : Operand γ → Value
  | plain v => v
  | a => .foreign (a.sort dense) (a.display dense) a.written

/-- The elements of an operand, or what it is instead. The elements of a tensor are the tensors along its
first axis; for opaque cells those without axes are the cells themselves. The elements of a record are
the names of its fields. -/
def elements (dense : Bool) : Operand γ → Except Itemless (List (Operand γ))
  | plain v =>
    match v.items? with
    | some items => .ok (items.map .plain)
    | none => .error (.plain v.sort)
  | shape s => .ok (s.sizes.map .int)
  | word w => .ok w
  | record fields => .ok (fields.map fun (name, _) => .plain (.text name))
  | tensor T _ =>
    match T.slices? with
    | none => .error (if dense then .truthCell else .cell)
    | some parts => .ok (parts.map fun part =>
      match dense, part.scalar? with
      | false, some a => .plain (Shown.value a)
      | _, _ => .tensor part none)
  | truths T _ =>
    match T.slices? with
    | none => .error (.plain Value.arrayTruth)
    | some parts => .ok (parts.map (.truths · none))

/-- The operand as an operation on words takes it. -/
def content (dense : Bool) (a : Operand γ) : Word.Content (Operand γ) :=
  match a, a.elements dense with
  | plain (.record _), .ok names => .named names (plain .null)
  | record _, .ok names => .named names (plain .null)
  | _, .ok w => .word w
  | _, .error what => .other (.misuse (.noLength what))

/-- The operand that the result of an operation on words is. -/
def ofContent : Word.Content (Operand γ) → Operand γ
  | .word w => word w
  | .named names _ => word names
  | .number n => int n
  | .other _ => plain .null

/-- The word operations over a gate set of operands. -/
def wordOps {σ : Type} (dense : Bool) (G : GateSet σ (Operand γ)) : WordOps σ (Operand γ) :=
  (Word.ops G).through (content dense) ofContent

/-- The field of a record that a value names. A list or record is no name. -/
def fieldAt (fields : List (Text × Operand γ)) : Value → Except Fault (Operand γ)
  | .text name => .ok ((fields.lookup name).getD (plain .null))
  | .list _ => .error (.misuse (.noName "list"))
  | .record _ => .error (.misuse (.noName "dict"))
  | _ => .ok (plain .null)

/-- The element of a word at an index, or the field of a record of that name. -/
def item? (index : Value) : Operand γ → Option (Except Fault (Operand γ))
  | word w => some do Word.item w (← index.index "list")
  | record fields => some (fieldAt fields index)
  | plain (.record fields) => some (fieldAt (fields.map fun (name, v) => (name, plain v)) index)
  | _ => none

/-- The tensor that an operand is, with cells that `read` finds among plain values. -/
def tensor? (read : Value → Option γ) : Operand γ → Option (Tensor γ)
  | tensor T _ => some T
  | truths T _ => (T.toList.mapM (read ∘ .truth)).bind (Tensor.ofCells? T.axes)
  | _ => none

end Operand

end BoolCalculus
