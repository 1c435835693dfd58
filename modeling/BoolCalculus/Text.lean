/-!
# Text

A text is a list of code points. A code point is a character or half of a surrogate pair that stands
alone: an escape in a file can name such a half, and no string can hold it. `Text.toString` is for
printing only; everything that is compared is compared as text.
-/

namespace BoolCalculus

/-- A code point of a text. -/
inductive Point where
  | char (c : Char)
  /-- Half of a surrogate pair that stands alone, by its distance from U+D800. -/
  | half (n : Fin 2048)
  deriving DecidableEq, Repr

namespace Point

/-- The number of a code point. -/
def code : Point → Nat
  | char c => c.toNat
  | half n => 0xD800 + n

/-- The code point of a UTF-16 unit that is not paired with another one. -/
def ofUnit (unit : Nat) : Point :=
  if h : 0xD800 ≤ unit ∧ unit ≤ 0xDFFF then .half ⟨unit - 0xD800, by omega⟩
  else .char (Char.ofNat unit)

/-- The character that a code point is, if it is one. -/
def char? : Point → Option Char
  | char c => some c
  | half _ => none

/-- The character that stands for a code point in a string: U+FFFD for half of a surrogate pair. -/
def toChar (p : Point) : Char :=
  p.char?.getD '\uFFFD'

end Point

/-- A list of code points. -/
structure Text where
  points : List Point
  deriving DecidableEq, Repr, Inhabited

namespace Text

/-- The text of a string. -/
def ofString (s : String) : Text :=
  ⟨s.toList.map .char⟩

instance : Coe String Text := ⟨ofString⟩

instance : Append Text := ⟨fun s t => ⟨s.points ++ t.points⟩⟩

/-- The string of a text, for printing. -/
def toString (s : Text) : String :=
  String.ofList (s.points.map Point.toChar)

/-- The characters of a text all of whose code points are characters. -/
def chars? (s : Text) : Option (List Char) :=
  s.points.mapM Point.char?

/-- Texts one after the other, with a text between any two. -/
def join (gap : Text) (parts : List Text) : Text :=
  ⟨gap.points.intercalate (parts.map points)⟩

/-- Whether a text comes before another in the order of their code points. -/
def precedes (s t : Text) : Bool :=
  s.points.map Point.code < t.points.map Point.code

/-- The parts of a list of code points between the occurrences of a character. -/
def splitPoints (separator : Char) : List Point → List (List Point)
  | [] => [[]]
  | p :: rest =>
    match splitPoints separator rest with
    | [] => [[p]]
    | part :: parts =>
      if p = .char separator then [] :: part :: parts else (p :: part) :: parts

/-- The parts of a text between the occurrences of a character. -/
def split (s : Text) (separator : Char) : List Text :=
  (splitPoints separator s.points).map Text.mk

end Text

end BoolCalculus
