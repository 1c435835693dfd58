import BoolCalculus.Text
import BoolCalculus.Text.Printable

/-!
# Quoted text

Text in quotes on one line: single quotes, or double quotes if the text holds a single quote and no
double one. The quote in use and the backslash are written after a backslash, tab, line feed and
carriage return by their letters, and every other character that is not printable by its code point
in two, four or eight hexadecimal digits.
-/

namespace BoolCalculus.Text

/-- A hexadecimal digit, with small letters. -/
def hexDigit (n : Nat) : Char :=
  if n < 10 then Char.ofNat (48 + n) else Char.ofNat (87 + n)

/-- The last `width` hexadecimal digits of a number, the most significant first. -/
def hex : (width : Nat) → Nat → List Char
  | 0, _ => []
  | width + 1, n => hex width (n / 16) ++ [hexDigit (n % 16)]

/-- The quote that suits a text. -/
def quoteFor (s : Text) : Char :=
  if .char '\'' ∈ s.points ∧ .char '"' ∉ s.points then '"' else '\''

/-- One character as it stands between the quotes. -/
def escapeChar (quote c : Char) : List Char :=
  if c = quote ∨ c = '\\' then ['\\', c]
  else if c = '\t' then ['\\', 't']
  else if c = '\n' then ['\\', 'n']
  else if c = '\r' then ['\\', 'r']
  else if isPrintable c then [c]
  else if c.toNat ≤ 0xFF then '\\' :: 'x' :: hex 2 c.toNat
  else if c.toNat ≤ 0xFFFF then '\\' :: 'u' :: hex 4 c.toNat
  else '\\' :: 'U' :: hex 8 c.toNat

/-- One code point as it stands between the quotes. Half of a surrogate pair is not printable. -/
def escapePoint (quote : Char) : Point → List Char
  | .char c => escapeChar quote c
  | .half n => '\\' :: 'u' :: hex 4 (Point.half n).code

/-- A text in quotes. -/
def quoted (s : Text) : String :=
  let quote := quoteFor s
  String.ofList (quote :: s.points.flatMap (escapePoint quote) ++ [quote])

end BoolCalculus.Text
