/-!
# Amounts

Numbers with a fraction, as they are written in decimal. They have the range of binary64: what is too
large is infinite, and what is too small to be told from zero is zero. Zero keeps its sign. An amount
keeps the digits with which it was written, but it stands for the nearest number of binary64
(`Amount.magnitude`), and amounts are compared by the numbers that they stand for.
-/

namespace BoolCalculus

-- Powers of numbers are not taken in a monoid.
attribute [local instance (high)] instPowNat

/-- An amount: the number `digits * 10 ^ exponent` with a sign, an infinity, or no number. -/
inductive Amount where
  | finite (negative : Bool) (digits : Nat) (exponent : Int)
  | infinite (negative : Bool)
  | undefined
  deriving DecidableEq, Repr

namespace Amount

/-- The smallest size that counts as infinite: half a step above the largest number of binary64. -/
def infiniteFrom : Nat :=
  2 ^ (1024 : Nat) - 2 ^ (970 : Nat)

/-- The power of two that is half the smallest positive number of binary64 is `2 ^ -1075`. -/
def zeroPower : Nat := 1075

/-- The amount that is written with the given digits and power of ten. The number of digits decides
first, so that no larger power is computed than the digits are long. -/
def ofDecimal (negative : Bool) (digits : Nat) (exponent : Int) : Amount :=
  let lead := exponent + (Nat.toDigits 10 digits).length
  if digits = 0 ∨ lead < -330 then .finite negative 0 0
  else if 320 < lead then .infinite negative
  else if digits * 2 ^ zeroPower ≤ 10 ^ (-exponent).toNat then .finite negative 0 0
  else if infiniteFrom * 10 ^ (-exponent).toNat ≤ digits * 10 ^ exponent.toNat then
    .infinite negative
  else .finite negative digits exponent

/-- The digits with their sign. -/
def signedDigits (negative : Bool) (digits : Nat) : Int :=
  if negative then -digits else digits

/-- Whether an amount is no zero. What is no number is no zero either. -/
def isNonzero : Amount → Bool
  | finite _ digits _ => digits != 0
  | _ => true

/-- Whether the fraction `n / d` lies below an amount. -/
def exceeds (a : Amount) (n d : Nat) : Bool :=
  match a with
  | finite negative digits exponent =>
    !negative && decide (n * 10 ^ (-exponent).toNat < digits * 10 ^ exponent.toNat * d)
  | infinite negative => !negative
  | undefined => false

end Amount

/-- A number `factor * 2 ^ power`, an infinity, or no number. -/
inductive Magnitude where
  | dyadic (factor power : Int)
  | infinite (negative : Bool)
  | undefined
  deriving DecidableEq, Repr

namespace Magnitude

/-- Equality of two dyadic numbers. -/
def sameDyadic (m p n q : Int) : Bool :=
  if p ≤ q then m == n * 2 ^ (q - p).toNat else m * 2 ^ (p - q).toNat == n

/-- Equality of magnitudes; what is no number equals nothing. -/
def same : Magnitude → Magnitude → Bool
  | dyadic m p, dyadic n q => sameDyadic m p n q
  | infinite s, infinite t => s == t
  | _, _ => false

end Magnitude

namespace Amount

/-- The quotient rounded to the nearest integer, a half to the even one. -/
def roundQuotient (n d : Nat) : Nat :=
  let q := n / d
  let twice := 2 * (n % d)
  if twice < d then q
  else if d < twice then q + 1
  else q + q % 2

/-- A format of binary numbers: `factor * 2 ^ power` with fewer than `2 ^ digits` for the factor, and with
no power below the least one. -/
structure BinaryFormat where
  digits : Nat
  least : Int

/-- The numbers of sixty-four bits. -/
def binary64 : BinaryFormat := ⟨53, -1074⟩

/-- The numbers of thirty-two bits. -/
def binary32 : BinaryFormat := ⟨24, -149⟩

/-- The largest power of two that is at most the quotient of two positive numbers. -/
def floorLog2 (n d : Nat) : Int :=
  let guess := (n.log2 : Int) - d.log2
  if d * 2 ^ guess.toNat ≤ n * 2 ^ (-guess).toNat then guess else guess - 1

/-- The number of a format that is nearest to a positive quotient, as a factor and a power of two. -/
def BinaryFormat.nearest (F : BinaryFormat) (n d : Nat) : Nat × Int :=
  let power := max (floorLog2 n d + 1 - F.digits) F.least
  (roundQuotient (n * 2 ^ (-power).toNat) (d * 2 ^ power.toNat), power)

/-- The number of a format that is nearest to a quotient with a sign, if the format has no largest number. -/
def BinaryFormat.rounded (F : BinaryFormat) (negative : Bool) (n d : Nat) : Magnitude :=
  if n = 0 then .dyadic 0 0 else
  let (factor, power) := F.nearest n d
  .dyadic (if negative then -factor else factor) power

/-- The number that an amount stands for. -/
def magnitude : Amount → Magnitude
  | finite negative digits exponent =>
    binary64.rounded negative (digits * 10 ^ exponent.toNat) (10 ^ (-exponent).toNat)
  | infinite negative => .infinite negative
  | undefined => .undefined

/-- The number of a format that is nearest to a magnitude. -/
def BinaryFormat.nearestTo (F : BinaryFormat) : Magnitude → Magnitude
  | .dyadic m p => F.rounded (m < 0) (m.natAbs * 2 ^ p.toNat) (2 ^ (-p).toNat)
  | a => a

end Amount

end BoolCalculus
