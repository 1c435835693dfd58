import BoolCalculus.Fault
import BoolCalculus.Text.Number

/-!
# Values as numbers

What a plain value counts as where a number is needed: an index, a number of rounds, a number of
repetitions, or an integer that it is converted into. Truth values count as zero and one everywhere; only a
conversion takes texts and drops fractions.
-/

namespace BoolCalculus.Value

-- Powers of numbers are not taken in a monoid.
attribute [local instance (high)] instPowNat

/-- The integer that a value is, with truth values among them. -/
def integer? : Value → Option Int
  | int n => some n
  | truth b => some b.toNat
  | _ => none

/-- An index into a sequence of that name. -/
def index (sequence : String) (v : Value) : Except Fault Int :=
  match v.integer? with
  | some n => .ok n
  | none => .error (.misuse (.noIndex sequence v.sort))

/-- A number of rounds. -/
def count (v : Value) : Except Fault Int :=
  match v.integer? with
  | some n => .ok n
  | none => .error (.misuse (.noNumber v.sort))

/-- A number of repetitions. -/
def factor (v : Value) : Except Fault Int :=
  match v.integer? with
  | some n => .ok n
  | none => .error (.misuse (.noFactor v.sort))

/-- The integer that a text says, if it has no more digits than are read. -/
def ofDigits (s : Text) : Except Fault Int :=
  let digits := s.points.countP fun point => (point.char?.bind Text.digit?).isSome
  if Text.maxDigits < digits then .error (.manyDigits (some digits))
  else
    match Text.readInt s.toString with
    | some n => .ok n
    | none => .error (.noDigits s)

/-- The integer that a value is converted into; the fraction of an amount is dropped. -/
def whole : Value → Except Fault Int
  | text s => ofDigits s
  | real a =>
    match a.magnitude with
    | .dyadic m p => .ok (Int.tdiv (m * 2 ^ p.toNat) (2 ^ (-p).toNat))
    | _ => .error (.misuse (.notConvertible "float"))
  | v =>
    match v.integer? with
    | some n => .ok n
    | none => .error (.misuse (.notConvertible v.sort))

/-- An integer as text, if it has no more digits than are read. -/
def ofInteger (n : Int) : Except Fault Value :=
  if n.natAbs < 10 ^ Text.maxDigits then .ok (text (toString n)) else .error (.manyDigits none)

end BoolCalculus.Value

namespace BoolCalculus.Shape

/-- The shape whose sizes are the items of a value. -/
def ofValue (v : Value) : Except Fault Shape := do
  pure ⟨← (← v.elements).mapM Value.whole⟩

end BoolCalculus.Shape
