import BoolCalculus.Shape
import BoolCalculus.Value.Display

/-!
# Faults

Why an operation was refused. Each cause has its own constructor, `Fault.message` words it, and a
mismatch of shapes or lengths also says which extent was expected and which was found.
-/

namespace BoolCalculus

-- Powers of numbers are not taken in a monoid.
attribute [local instance (high)] instPowNat

/-- What a mismatch compares: a number or a whole shape. -/
inductive Extent where
  | count (n : Int)
  | shape (s : Shape)
  deriving DecidableEq, Repr

/-- The kinds of operand that a universe asks for. -/
inductive OperandKind where
  | scalar
  | binaryRelation
  | relation
  deriving DecidableEq, Repr

/-- The operand kind with its article. -/
def OperandKind.phrase : OperandKind → String
  | scalar => "a scalar"
  | binaryRelation => "a binary relation"
  | relation => "a relation"

/-- How operands of an array operation fail to fit. -/
inductive Misfit where
  /-- A reindexing must send every axis of the old shape somewhere. -/
  | uncovered (mapping : List Int) (old : Shape)
  /-- An axis is sent to a place where the new shape has none. -/
  | noTarget (target : Int) (new : Shape)
  /-- An axis is sent to an axis of another size. -/
  | sizes (axis : Nat) (old : Shape) (target : Int) (new : Shape) (required found : Int)
  /-- Pointwise operands have one shape. -/
  | unequal (left right : Shape)
  /-- An array without axes cannot be reduced. -/
  | notReducible
  /-- An operand of a universe of the given size has not the required shape. -/
  | operand (kind : OperandKind) (size : Nat) (required found : Shape)
  /-- Relations that are combined have one arity. -/
  | arities (rank : Nat) (required found : Shape)
  /-- A relation without coordinates cannot be projected. -/
  | notProjectable
  deriving DecidableEq, Repr

namespace Misfit

/-- The wording of a misfit. -/
def message : Misfit → String
  | uncovered mapping old =>
    s!"mapping {Shape.listText mapping} does not cover the {old.rank} axes of {old.display}"
  | noTarget target new => s!"mapping target {target} is not an axis of {new.display}"
  | sizes axis old target new _ _ =>
    s!"axis {axis} of {old.display} does not fit axis {target} of {new.display}"
  | unequal left right =>
    s!"pointwise operands differ in shape: {left.display} != {right.display}"
  | notReducible => "cannot reduce a rank-0 tensor"
  | operand kind size _ found =>
    s!"expected {kind.phrase} over a universe of size {size}, got shape {found.display}"
  | arities rank _ found => s!"relations of different arities: {rank} and {found.rank}"
  | notProjectable => "cannot project a nullary relation"

/-- The extent that was required. -/
def expected : Misfit → Extent
  | uncovered _ old => .count old.rank
  | noTarget _ new => .count new.rank
  | sizes _ _ _ _ required _ => .count required
  | unequal left _ => .shape left
  | notReducible => .count 1
  | operand _ _ required _ => .shape required
  | arities _ required _ => .shape required
  | notProjectable => .count 1

/-- The extent that was found. -/
def actual : Misfit → Extent
  | uncovered mapping _ => .count mapping.length
  | noTarget target _ => .count target
  | sizes _ _ _ _ _ found => .count found
  | unequal _ right => .shape right
  | notReducible => .count 0
  | operand _ _ _ found => .shape found
  | arities _ _ found => .shape found
  | notProjectable => .count 0

end Misfit

/-- What has no items, and so neither a length nor elements to go through. -/
inductive Itemless where
  /-- A plain value of the named sort. -/
  | plain (sort : String)
  /-- A tensor without axes of opaque cells. -/
  | cell
  /-- A dense tensor without axes. -/
  | truthCell
  deriving DecidableEq, Repr

namespace Itemless

/-- The refusal of a length. -/
def lengthMessage : Itemless → String
  | plain sort => s!"object of type '{sort}' has no len()"
  | cell => "len() of unsized object"
  | truthCell => "len() of a 0-d tensor"

/-- The refusal of elements. -/
def elementsMessage : Itemless → String
  | plain sort => s!"'{sort}' object is not iterable"
  | cell => "iteration over a 0-d array"
  | truthCell => "iteration over a 0-d tensor"

end Itemless

/-- How a thing is used as what it is not. -/
inductive Misuse where
  /-- The length was asked of what has none. -/
  | noLength (what : Itemless)
  /-- The elements were asked of what has none. -/
  | noElements (what : Itemless)
  /-- Things of these sorts were compared, which have no order. -/
  | notOrdered (left right : String)
  /-- Things of these sorts were added, which have no sum. -/
  | noSum (left right : String)
  /-- A thing of this sort was used as a number. -/
  | noNumber (sort : String)
  /-- A thing of this sort was to be converted into a number. -/
  | notConvertible (sort : String)
  /-- A thing of this sort was used as a number of repetitions. -/
  | noFactor (sort : String)
  /-- A thing of this sort was used as an index into a sequence of that name. -/
  | noIndex (sequence sort : String)
  /-- A thing of this sort was used as a name. -/
  | noName (sort : String)
  /-- A thing of this sort stood among texts that were to be joined. -/
  | noText (position : Nat) (sort : String)
  /-- Something without items was to be joined. -/
  | notJoinable
  /-- Something that names no device was used as one. -/
  | noDevice (device : Value)
  deriving Repr

namespace Misuse

/-- The sort of a value, and for a list those of its items. -/
def sortText : Value → String
  | .list items => "list of [" ++ ", ".intercalate (items.map Value.sort) ++ "]"
  | v => v.sort

/-- The wording of a misuse. -/
def message : Misuse → String
  | noLength what => what.lengthMessage
  | noElements what => what.elementsMessage
  | notOrdered left right => s!"'<' not supported between instances of '{left}' and '{right}'"
  | noSum left right => s!"unsupported operand type(s) for +: '{left}' and '{right}'"
  | noNumber sort => s!"'{sort}' object cannot be interpreted as an integer"
  | notConvertible sort =>
    s!"int() argument must be a string, a bytes-like object or a real number, not '{sort}'"
  | noFactor sort => s!"can't multiply sequence by non-int of type '{sort}'"
  | noIndex sequence sort => s!"{sequence} indices must be integers or slices, not {sort}"
  | noName sort => s!"unhashable type: '{sort}'"
  | noText position sort => s!"sequence item {position}: expected str instance, {sort} found"
  | notJoinable => "can only join an iterable"
  | noDevice device =>
    "device() received an invalid combination of arguments - got (" ++ device.sort ++
      "), but expected one of:\n * (torch.device device)\n" ++
      "      didn't match because some of the arguments have invalid types: (!" ++ sortText device ++
      "!)\n * (str type, int index = -1)\n"

end Misuse

/-- The cause for which an operation was refused. -/
inductive Fault where
  /-- The operands of an array operation do not fit. -/
  | shapeMismatch (cause : Misfit)
  /-- The operands of a word operation have different lengths. -/
  | lengthMismatch (left right : Value)
  /-- A checked operand is no element of the domain of that name. -/
  | foreign (domain : String) (elem : Value)
  /-- A truth value was asked of a cell of another sort. -/
  | notConcrete (sort : String)
  /-- An index lies outside a vector. -/
  | noItem
  /-- An index lies outside a shape or a list of operands. -/
  | noAxis
  /-- An index is wider than the machine's. -/
  | wideIndex
  /-- A thing was used as what it is not. -/
  | misuse (how : Misuse)
  /-- The truth value was asked of an array with several cells. -/
  | severalTruths
  /-- The truth value was asked of an array without cells. -/
  | noTruths
  /-- Arrays with axes of these sizes were compared, and have no common axes. -/
  | notBroadcast (left right : List Nat)
  /-- An array was asked for whose parts agree in no more axes than these. -/
  | ragged (axes : List Nat)
  /-- An array was asked for whose parts have more axes than it can have. -/
  | tooDeep (limit : Nat)
  /-- The cells of an array of the first axes were to be put into a part with the second axes. -/
  | notAssignable (source target : List Nat)
  /-- A text was to be read as a number, which it is not. -/
  | noDigits (text : Text)
  /-- A number has more digits than are read or written; the number of digits of a text is known. -/
  | manyDigits (digits? : Option Nat)
  /-- A number was to be reduced to a negative width. -/
  | negativeShift
  /-- An array was asked for with a negative size. -/
  | negativeAxis
  /-- An array was asked for with more axes than can be stored. -/
  | manyAxes (rank : Nat)
  /-- The cells were listed of an array with more axes than can be gone through in a row. -/
  | manyListedAxes (rank : Nat)
  /-- An array was asked for with a size wider than the machine's integers. -/
  | wideAxis
  /-- An array was asked for with more cells than can be addressed. -/
  | manyCells
  /-- A number is wider than the machine's integers. -/
  | wideNumber
  /-- The bytes of a text were asked for, and a half in it has none; its place, and the last place of the row of
  halves that it starts. -/
  | notEncodable (half : Point) (first last : Nat)
  /-- The system refused to say what is at a path. -/
  | system (number : Nat) (reason : String) (path : Text)
  /-- A list or a record stands inside more others than are read. -/
  | tooNested (record : Bool)
  /-- A universe was asked for with a negative size. -/
  | negativeUniverse (size : Int)
  /-- Arithmetic laws were to be checked at a width below one. -/
  | emptyWidth (width : Int)
  /-- A device was asked for by a name that none has. -/
  | unknownDevice (name : Text)
  /-- A rule was given an unknown type. -/
  | unknownRuleType (type : Text)
  /-- A rule was given no body relation. -/
  | emptyBody (head : Text)
  /-- A rule of a type with one body relation was given several. -/
  | manyBodies (type head : Text)
  deriving Repr

/-- The wording of a fault. -/
def Fault.message : Fault → Text
  | shapeMismatch cause => cause.message
  | lengthMismatch left right =>
    "bit-vector length mismatch: " ++ left.display ++ " != " ++ right.display
  | foreign domain elem => s!"{elem.quoted} is not an element of {domain}"
  | notConcrete sort => s!"scalar holds {sort}, not a concrete truth value"
  | noItem => "list index out of range"
  | noAxis => "tuple index out of range"
  | wideIndex => "cannot fit 'int' into an index-sized integer"
  | misuse how => how.message
  | severalTruths =>
    "The truth value of an array with more than one element is ambiguous. Use a.any() or a.all()"
  | noTruths =>
    "The truth value of an empty array is ambiguous. Use `array.size > 0` to check that an array is not empty."
  | notBroadcast left right =>
    "operands could not be broadcast together with shapes " ++ Shape.sizesText "," left ++ " " ++
      Shape.sizesText "," right ++ " "
  | ragged axes =>
    "setting an array element with a sequence. The requested array has an inhomogeneous shape after " ++
      s!"{axes.length} dimensions. The detected shape was " ++ Shape.sizesText ", " axes ++
      " + inhomogeneous part."
  | tooDeep limit =>
    "setting an array element with a sequence. The requested array would exceed the maximum number of " ++
      s!"dimension of {limit}."
  | notAssignable source target =>
    "could not broadcast input array from shape " ++ Shape.sizesText "," source ++ " into shape " ++
      Shape.sizesText "," target
  | noDigits text => "invalid literal for int() with base 10: " ++ Text.quoted text
  | manyDigits digits? =>
    "Exceeds the limit (4300 digits) for integer string conversion" ++
      digits?.elim "" (fun digits => s!": value has {digits} digits") ++
      "; use sys.set_int_max_str_digits() to increase the limit"
  | negativeShift => "negative shift count"
  | negativeAxis => "negative dimensions are not allowed"
  | manyAxes rank =>
    s!"maximum supported dimension for an ndarray is currently 64, found {rank}"
  | manyListedAxes rank =>
    s!"this function only supports up to 32 dimensions but the array has {rank}."
  | wideAxis => "Maximum allowed dimension exceeded"
  | manyCells =>
    "array is too big; `arr.size * arr.dtype.itemsize` is larger than the maximum possible size."
  | wideNumber => "Overflow when unpacking long long"
  | notEncodable half first last =>
    "'utf-8' codec can't encode character" ++
      (if first = last then " " ++ Text.quoted ⟨[half]⟩ ++ s!" in position {first}"
        else s!"s in position {first}-{last}") ++ ": surrogates not allowed"
  | system number reason path => s!"[Errno {number}] {reason}: " ++ Text.quoted path
  | tooNested record =>
    "maximum recursion depth exceeded while decoding a JSON " ++ (if record then "object" else "array") ++
      " from a unicode string"
  | negativeUniverse size => s!"universe size must be non-negative, got {size}"
  | emptyWidth width => s!"width must be positive, got {width}"
  | unknownDevice name => "Expected one of cpu device type at start of device string: " ++ name
  | unknownRuleType type => "Unknown rule type: " ++ type
  | emptyBody head => "Rule for " ++ head ++ " has an empty body"
  | manyBodies type head => type ++ " rule for " ++ head ++ " needs exactly one body relation"

/-- The items that a value goes through, or the refusal. -/
def Value.elements (v : Value) : Except Fault (List Value) :=
  match v.items? with
  | some items => .ok items
  | none => .error (.misuse (.noElements (.plain v.sort)))

/-- The position that an index names in a sequence of the given length, where negative indices count
from the end. -/
def position? (length : Nat) (index : Int) : Option Nat :=
  if 0 ≤ index then
    if index < length then some index.toNat else none
  else if 0 ≤ index + length then some (index + length).toNat
  else none

theorem position?_lt {length : Nat} {index : Int} {i : Nat} (h : position? length index = some i) :
    i < length := by
  unfold position? at h
  split at h <;> split at h <;> simp_all <;> omega

/-- The item that an index names, if there is one; negative indices count from the end. -/
def atIndex? {β : Type} (items : List β) (index : Int) : Option β :=
  (position? items.length index).bind (items[·]?)

/-- The items that several indices name, one after the other. -/
def entries {β : Type} (items : List β) (indices : List Int) : Except Fault (List β) :=
  indices.mapM fun index =>
    match atIndex? items index with
    | some b => .ok b
    | none => .error .noAxis

/-- Whether an integer has at most the sixty-four bits of the machine's integers. -/
def fitsWord (n : Int) : Bool :=
  -2 ^ (63 : Nat) ≤ n && n < 2 ^ (63 : Nat)

/-- The item that an index names, where negative indices count from the end. An index that is too wide
is refused as such, any other index without an item by the given fault. -/
def itemAt {β : Type} (items : List β) (outside : Fault) (index : Int) : Except Fault β :=
  if fitsWord index then
    match atIndex? items index with
    | some b => .ok b
    | none => .error outside
  else .error .wideIndex

/-- The size of one axis; negative axes count from the last. -/
def Shape.axis (s : Shape) (index : Int) : Except Fault Int :=
  itemAt s.sizes .noAxis index

end BoolCalculus
