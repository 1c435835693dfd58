import BoolCalculus.Amount

/-!
# Sums of amounts

The sum of two amounts is the number of binary64 that is nearest to the sum of the numbers that they stand
for. It is written with the fewest digits that stand for it.
-/

namespace BoolCalculus.Amount

-- Powers of numbers are not taken in a monoid.
attribute [local instance (high)] instPowNat

/-- The place of the first digit of a positive quotient: 0 for quotients from 1 to below 10. -/
def leadingPlace (n d : Nat) : Int :=
  if d ≤ n then (Nat.toDigits 10 (n / d)).length - 1
  else -(Nat.toDigits 10 ((d - 1) / n)).length

/-- A positive quotient rounded to the given number of digits. -/
def withDigits (negative : Bool) (n d count : Nat) : Amount :=
  let exponent := leadingPlace n d + 1 - count
  .finite negative (roundQuotient (n * 10 ^ (-exponent).toNat) (d * 10 ^ exponent.toNat)) exponent

/-- The most digits that a number of binary64 needs. -/
def mostDigits : Nat := 17

/-- The amount with the fewest digits that stands for a number of binary64. -/
def ofMagnitude : Magnitude → Amount
  | .dyadic m p =>
    if m = 0 then .finite false 0 0 else
    let n := m.natAbs * 2 ^ p.toNat
    let d := 2 ^ (-p).toNat
    if infiniteFrom * d ≤ n then .infinite (m < 0) else
    let candidates := (List.range mostDigits).map fun k => withDigits (m < 0) n d (k + 1)
    (candidates.find? fun a => a.magnitude.same (.dyadic m p)).getD
      (withDigits (m < 0) n d mostDigits)
  | .infinite negative => .infinite negative
  | .undefined => .undefined

/-- The sum of two magnitudes. -/
def sumOf : Magnitude → Magnitude → Magnitude
  | .dyadic m p, .dyadic n q =>
    let power := min p q
    .dyadic (m * 2 ^ (p - power).toNat + n * 2 ^ (q - power).toNat) power
  | .dyadic _ _, b => b
  | a, .dyadic _ _ => a
  | .infinite s, .infinite t => if s = t then .infinite s else .undefined
  | _, _ => .undefined

/-- The sum of two numbers as an amount. -/
def sum (a b : Magnitude) : Amount :=
  ofMagnitude (binary64.nearestTo (sumOf (binary64.nearestTo a) (binary64.nearestTo b)))

end BoolCalculus.Amount
