import BoolCalculus.Text.Digit
import BoolCalculus.Value

/-!
# Reading JSON

The reader takes one JSON value with white space around it. It is strict: white space is space, tab,
line feed and carriage return; control characters do not stand in a text as they are; numbers have no
leading zeros, but the names `NaN`, `Infinity` and `-Infinity` are numbers too. A number without point
and exponent is a whole number of at most `maxDigits` digits. Of the fields of one name in a record the
last counts. An escape for half of a surrogate pair joins with an escape for the other half after it;
alone, it is a code point of its own. Lists and records may stand inside one another up to a number of levels.
-/

namespace BoolCalculus.Json

/-- The characters that have not been read. -/
abbrev Rest : Type := List Char

/-- White space between the parts of a value. -/
def isSpace (c : Char) : Bool :=
  c == ' ' || c == '\t' || c == '\n' || c == '\r'

/-- Skips white space. -/
def skip (cs : Rest) : Rest :=
  cs.dropWhile isSpace

/-- The longest run of plain digits and what follows it. -/
def digits (cs : Rest) : List Nat × Rest :=
  ((cs.takeWhile Char.isDigit).map (fun c => c.toNat - '0'.toNat), cs.dropWhile Char.isDigit)

/-- The most digits that a whole number may have. -/
def maxDigits : Nat := 4300

/-- The fraction after the whole part of a number: a point and at least one digit. -/
def fraction : Rest → Option (List Nat × Rest)
  | '.' :: cs =>
    match digits cs with
    | ([], _) => none
    | (ds, rest) => some (ds, rest)
  | _ => none

/-- The unsigned digits of an exponent. -/
def exponentDigits (negative : Bool) (cs : Rest) : Option (Int × Rest) :=
  match digits cs with
  | ([], _) => none
  | (ds, rest) => some (Amount.signedDigits negative (Text.ofDigits ds), rest)

/-- The exponent of a number: the letter, perhaps a sign, and at least one digit. -/
def exponent : Rest → Option (Int × Rest)
  | c :: cs =>
    if c == 'e' || c == 'E' then
      match cs with
      | '-' :: rest => exponentDigits true rest
      | '+' :: rest => exponentDigits false rest
      | rest => exponentDigits false rest
    else none
  | [] => none

/-- A number without its sign. -/
def unsigned (negative : Bool) (cs : Rest) : Option (Value × Rest) :=
  let (whole, rest) := digits cs
  if whole.isEmpty || (whole.head? == some 0 && whole.length != 1) then none else
  let (part, rest) := (fraction rest).getD ([], rest)
  match exponent rest with
  | some (power, rest) =>
    some (.real (.ofDecimal negative (Text.ofDigits (whole ++ part)) (power - part.length)), rest)
  | none =>
    if !part.isEmpty then
      some (.real (.ofDecimal negative (Text.ofDigits (whole ++ part)) (-part.length)), rest)
    else if whole.length ≤ maxDigits then
      some (.int (Amount.signedDigits negative (Text.ofDigits whole)), rest)
    else none

/-- The value of a hexadecimal digit. -/
def hexValue? (c : Char) : Option Nat :=
  if c.isDigit then some (c.toNat - '0'.toNat)
  else if 'a' ≤ c ∧ c ≤ 'f' then some (c.toNat - 'a'.toNat + 10)
  else if 'A' ≤ c ∧ c ≤ 'F' then some (c.toNat - 'A'.toNat + 10)
  else none

/-- Four hexadecimal digits. -/
def hexUnit : Rest → Option (Nat × Rest)
  | a :: b :: c :: d :: rest => do
    let a ← hexValue? a
    let b ← hexValue? b
    let c ← hexValue? c
    let d ← hexValue? d
    pure (((a * 16 + b) * 16 + c) * 16 + d, rest)
  | _ => none

/-- The code point after a backslash and the letter `u`: four hexadecimal digits, or eight in two escapes
for a surrogate pair. -/
def unicodeEscape (cs : Rest) : Option (Point × Rest) := do
  let (high, rest) ← hexUnit cs
  if 0xD800 ≤ high && high ≤ 0xDBFF then
    match rest with
    | '\\' :: 'u' :: rest' =>
      let (low, rest'') ← hexUnit rest'
      if 0xDC00 ≤ low && low ≤ 0xDFFF then
        pure (.char (Char.ofNat (0x10000 + (high - 0xD800) * 0x400 + (low - 0xDC00))), rest'')
      else
        pure (.ofUnit high, rest)
    | _ => pure (.ofUnit high, rest)
  else
    pure (.ofUnit high, rest)

/-- The code point after a backslash. -/
def escape : Rest → Option (Point × Rest)
  | '"' :: rest => some (.char '"', rest)
  | '\\' :: rest => some (.char '\\', rest)
  | '/' :: rest => some (.char '/', rest)
  | 'b' :: rest => some (.char '\x08', rest)
  | 'f' :: rest => some (.char '\x0c', rest)
  | 'n' :: rest => some (.char '\n', rest)
  | 'r' :: rest => some (.char '\r', rest)
  | 't' :: rest => some (.char '\t', rest)
  | 'u' :: rest => unicodeEscape rest
  | _ => none

/-- The code points of a text up to its closing quote. The fuel bounds their number. -/
def textPoints : (fuel : Nat) → Rest → Option (List Point × Rest)
  | 0, _ => none
  | fuel + 1, cs =>
    match cs with
    | [] => none
    | '"' :: rest => some ([], rest)
    | '\\' :: rest => do
      let (point, rest) ← escape rest
      let (text, rest) ← textPoints fuel rest
      pure (point :: text, rest)
    | c :: rest =>
      if c.toNat < 0x20 then none else do
        let (text, rest) ← textPoints fuel rest
        pure (.char c :: text, rest)

/-- A text after its opening quote. -/
def text (cs : Rest) : Option (Text × Rest) := do
  let (points, rest) ← textPoints (cs.length + 1) cs
  pure (⟨points⟩, rest)

/-- Why no value was read. -/
inductive Misread where
  /-- The text is no value. -/
  | malformed
  /-- A list, or a record, stands inside too many others. -/
  | tooNested (record : Bool)

/-- A part of a value, or the refusal of the text. -/
def wellFormed {β : Type} : Option β → Except Misread β
  | some b => .ok b
  | none => .error .malformed

mutual

/-- One value, with no white space before it. The fuel bounds the number of characters, and `levels` how many lists
and records stand inside one another. A bracket that is too deep is refused before what follows it is read. -/
def value : (fuel levels : Nat) → Rest → Except Misread (Value × Rest)
  | 0, _, _ => .error .malformed
  | fuel + 1, levels, cs =>
    match cs with
    | '"' :: rest => do
      let (s, rest) ← wellFormed (text rest)
      pure (.text s, rest)
    | '[' :: rest =>
      match levels, skip rest with
      | 0, _ => .error (.tooNested false)
      | _ + 1, ']' :: rest => .ok (.list [], rest)
      | levels + 1, rest => do
        let (vs, rest) ← items fuel levels rest
        pure (.list vs, rest)
    | '\x7b' :: rest =>
      match levels, skip rest with
      | 0, _ => .error (.tooNested true)
      | _ + 1, '\x7d' :: rest => .ok (.record [], rest)
      | levels + 1, rest => do
        let (fs, rest) ← fields fuel levels [] rest
        pure (.record fs, rest)
    | 'n' :: 'u' :: 'l' :: 'l' :: rest => .ok (.null, rest)
    | 't' :: 'r' :: 'u' :: 'e' :: rest => .ok (.truth true, rest)
    | 'f' :: 'a' :: 'l' :: 's' :: 'e' :: rest => .ok (.truth false, rest)
    | 'N' :: 'a' :: 'N' :: rest => .ok (.real .undefined, rest)
    | 'I' :: 'n' :: 'f' :: 'i' :: 'n' :: 'i' :: 't' :: 'y' :: rest => .ok (.real (.infinite false), rest)
    | '-' :: 'I' :: 'n' :: 'f' :: 'i' :: 'n' :: 'i' :: 't' :: 'y' :: rest => .ok (.real (.infinite true), rest)
    | '-' :: rest => wellFormed (unsigned true rest)
    | rest => wellFormed (unsigned false rest)

/-- The items of a list, up to its closing bracket. -/
def items : (fuel levels : Nat) → Rest → Except Misread (List Value × Rest)
  | 0, _, _ => .error .malformed
  | fuel + 1, levels, cs => do
    let (v, rest) ← value fuel levels cs
    match skip rest with
    | ']' :: rest => pure ([v], rest)
    | ',' :: rest =>
      let (vs, rest) ← items fuel levels (skip rest)
      pure (v :: vs, rest)
    | _ => .error .malformed

/-- The fields of a record, up to its closing brace, added to those already read. -/
def fields : (fuel levels : Nat) → Keyed Value → Rest → Except Misread (Keyed Value × Rest)
  | 0, _, _, _ => .error .malformed
  | fuel + 1, levels, before, cs =>
    match cs with
    | '"' :: rest => do
      let (name, rest) ← wellFormed (text rest)
      match skip rest with
      | ':' :: rest =>
        let (v, rest) ← value fuel levels (skip rest)
        let after := before.put name v
        match skip rest with
        | '\x7d' :: rest => pure (after, rest)
        | ',' :: rest => fields fuel levels after (skip rest)
        | _ => .error .malformed
      | _ => .error .malformed
    | _ => .error .malformed

end

/-- Reads a text that holds one value and nothing else but white space, with at most so many lists and records
inside one another. -/
def readNested (levels : Nat) (s : String) : Except Misread Value := do
  let (v, rest) ← value (s.length + 1) levels (skip s.toList)
  if (skip rest).isEmpty then pure v else .error .malformed

/-- Reads a text that holds one value and nothing else but white space. No text has more levels than characters. -/
def read (s : String) : Option Value :=
  (readNested s.length s).toOption

end BoolCalculus.Json
