import BoolCalculus.Amount
import BoolCalculus.Text.Blank
import BoolCalculus.Text.Digit

/-!
# Numbers as arguments

Whole numbers and amounts as they are typed: with blanks around them, a sign, digits of any script, and
single underscores between digits. The four separators U+001C to U+001F are no blanks around a number.
-/

namespace BoolCalculus.Text

/-- Whether a character may stand around a number. -/
def isNumberBlank (c : Char) : Bool :=
  isBlank c && !(0x1C ≤ c.toNat && c.toNat ≤ 0x1F)

/-- Further digits after a first one, each perhaps after an underscore. -/
def moreDigits : List Char → List Nat × List Char
  | [] => ([], [])
  | '_' :: c :: rest =>
    match digit? c with
    | some d =>
      let (ds, rest) := moreDigits rest
      (d :: ds, rest)
    | none => ([], '_' :: c :: rest)
  | c :: rest =>
    match digit? c with
    | some d =>
      let (ds, rest) := moreDigits rest
      (d :: ds, rest)
    | none => ([], c :: rest)

/-- A run of at least one digit. -/
def digitRun : List Char → Option (List Nat × List Char)
  | c :: rest =>
    match digit? c with
    | some d =>
      let (ds, rest) := moreDigits rest
      some (d :: ds, rest)
    | none => none
  | [] => none

/-- Takes off a sign, and answers whether it was a minus. -/
def signed : List Char → Bool × List Char
  | '-' :: rest => (true, rest)
  | '+' :: rest => (false, rest)
  | rest => (false, rest)

/-- The most digits that a whole number may have. -/
def maxDigits : Nat := 4300

/-- Reads a whole number. -/
def readInt (s : String) : Option Int :=
  let (negative, rest) := signed (stripList isNumberBlank s.toList)
  match digitRun rest with
  | some (ds, []) =>
    if ds.length ≤ maxDigits then some (Amount.signedDigits negative (ofDigits ds)) else none
  | _ => none

/-- The exponent at the end of an amount, which is 0 if there is none. -/
def readExponent : List Char → Option Int
  | [] => some 0
  | c :: rest =>
    if c = 'e' ∨ c = 'E' then
      let (negative, rest) := signed rest
      match digitRun rest with
      | some (ds, []) => some (Amount.signedDigits negative (ofDigits ds))
      | _ => none
    else none

/-- The digits of an amount with those after the point counted, and what follows them. -/
def readDigits : List Char → Option (List Nat × Nat × List Char)
  | '.' :: rest => (digitRun rest).map fun (ds, rest) => (ds, ds.length, rest)
  | cs =>
    match digitRun cs with
    | some (whole, '.' :: rest) =>
      match digitRun rest with
      | some (part, rest) => some (whole ++ part, part.length, rest)
      | none => some (whole, 0, rest)
    | some (whole, rest) => some (whole, 0, rest)
    | none => none

/-- Reads an amount. -/
def readAmount (s : String) : Option Amount :=
  let (negative, rest) := signed (stripList isNumberBlank s.toList)
  let word := (String.ofList rest).toLower
  if word = "inf" ∨ word = "infinity" then some (.infinite negative)
  else if word = "nan" then some .undefined
  else do
    let (ds, places, rest) ← readDigits rest
    let exponent ← readExponent rest
    pure (.ofDecimal negative (ofDigits ds) (exponent - places))

end BoolCalculus.Text
