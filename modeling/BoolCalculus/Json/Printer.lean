import BoolCalculus.Text.Quoted
import BoolCalculus.Value

/-!
# Writing JSON

Values as JSON in plain ASCII: characters outside it are written by their UTF-16 units. `compact`
writes one line; `indented` puts every item and field on a line of its own.
-/

namespace BoolCalculus.Json

/-- The UTF-16 units of a character. -/
def units (c : Char) : List Nat :=
  if c.toNat < 0x10000 then [c.toNat]
  else [0xD800 + (c.toNat - 0x10000) / 0x400, 0xDC00 + (c.toNat - 0x10000) % 0x400]

/-- One character between the quotes of a text. -/
def escapeChar (c : Char) : List Char :=
  if c = '"' ∨ c = '\\' then ['\\', c]
  else if c = '\n' then ['\\', 'n']
  else if c = '\r' then ['\\', 'r']
  else if c = '\t' then ['\\', 't']
  else if c = '\x08' then ['\\', 'b']
  else if c = '\x0c' then ['\\', 'f']
  else if 0x20 ≤ c.toNat && c.toNat ≤ 0x7E then [c]
  else (units c).flatMap fun unit => '\\' :: 'u' :: Text.hex 4 unit

/-- One code point between the quotes of a text. -/
def escapePoint : Point → List Char
  | .char c => escapeChar c
  | .half n => '\\' :: 'u' :: Text.hex 4 (Point.half n).code

/-- A text in quotes. -/
def textText (s : Text) : String :=
  String.ofList ('"' :: s.points.flatMap escapePoint ++ ['"'])

/-- An amount; infinities and what is no number have names. -/
def amountText : Amount → String
  | .finite negative digits exponent =>
    (if negative then "-" else "") ++ toString digits ++ "e" ++ toString exponent
  | .infinite negative => if negative then "-Infinity" else "Infinity"
  | .undefined => "NaN"

/-- A line break and the given number of spaces, where lines are broken. -/
def lineBreak (broken : Bool) (indent : Nat) : String :=
  if broken then "\n" ++ String.ofList (List.replicate indent ' ') else ""

/-- Parts between brackets, each at the given indentation and with a comma between them. -/
def bracketed (broken : Bool) (indent : Nat) (left right : String) (parts : List String) : String :=
  if parts.isEmpty then left ++ right
  else
    let gap := if broken then "," else ", "
    left ++ lineBreak broken (indent + 2) ++ (gap ++ lineBreak broken (indent + 2)).intercalate parts
      ++ lineBreak broken indent ++ right

mutual

/-- A value at an indentation, with or without line breaks. -/
def written (broken : Bool) (indent : Nat) : Value → String
  | .null => "null"
  | .truth b => if b then "true" else "false"
  | .int n => toString n
  | .real a => amountText a
  | .text s => textText s
  | .list vs => bracketed broken indent "[" "]" (writtenItems broken (indent + 2) vs)
  | .record fs => bracketed broken indent "\x7b" "\x7d" (writtenFields broken (indent + 2) fs)
  | .foreign _ _ content => written broken indent content

/-- The items of a list. -/
def writtenItems (broken : Bool) (indent : Nat) : List Value → List String
  | [] => []
  | v :: rest => written broken indent v :: writtenItems broken indent rest

/-- The fields of a record, each with its name. -/
def writtenFields (broken : Bool) (indent : Nat) : List (Text × Value) → List String
  | [] => []
  | (name, v) :: rest =>
    (textText name ++ ": " ++ written broken indent v) :: writtenFields broken indent rest

end

/-- A value on one line. -/
def compact (v : Value) : String :=
  written false 0 v

/-- A value with every item and field on a line of its own, two spaces deeper than its container. -/
def indented (v : Value) : String :=
  written true 0 v

end BoolCalculus.Json
