import BoolCalculus.Text.Quoted
import BoolCalculus.Value

/-!
# The text of a value

`Value.quoted` writes a value so that its sort can be told: text stands in quotes. `Value.display`
is the same except that a value which is itself text is written as it is.
-/

namespace BoolCalculus.Value

/-- Drops the zeros at the end of the digits of a number other than zero, and counts them. The fuel
bounds the number of zeros. -/
def dropZeros : (fuel : Nat) → Nat → Nat × Nat
  | 0, n => (n, 0)
  | fuel + 1, n =>
    if n ≠ 0 ∧ n % 10 = 0 then
      let (m, k) := dropZeros fuel (n / 10)
      (m, k + 1)
    else (n, 0)

/-- An exponent has a sign and two digits at least. -/
def exponentText (x : Int) : String :=
  let digits := toString x.natAbs
  (if x < 0 then "e-" else "e+") ++ (if digits.length < 2 then "0" ++ digits else digits)

/-- The digits of a finite amount with a point: positional for sizes from `10 ^ -4` to below
`10 ^ 16`, else with one digit before the point and an exponent. -/
def decimalText (digits : Nat) (exponent : Int) : String :=
  if digits = 0 then "0.0" else
  let (m, k) := dropZeros digits digits
  let ds := toString m
  let lead : Int := exponent + k + ds.length - 1
  if -4 ≤ lead ∧ lead < 0 then
    "0." ++ String.ofList (List.replicate (-lead - 1).toNat '0') ++ ds
  else if 0 ≤ lead ∧ lead < 16 then
    let whole := lead.toNat + 1
    if ds.length ≤ whole then
      ds ++ String.ofList (List.replicate (whole - ds.length) '0') ++ ".0"
    else
      String.ofList (ds.toList.take whole) ++ "." ++ String.ofList (ds.toList.drop whole)
  else
    let rest := ds.toList.drop 1
    String.ofList (ds.toList.take 1) ++ (if rest.isEmpty then "" else "." ++ String.ofList rest)
      ++ exponentText lead

/-- The minus of a negative amount. -/
def minus (negative : Bool) : String :=
  if negative then "-" else ""

/-- The text of an amount. -/
def amountText : Amount → String
  | .finite negative digits exponent => minus negative ++ decimalText digits exponent
  | .infinite negative => minus negative ++ "inf"
  | .undefined => "nan"

mutual

/-- The text of a value, with text in quotes. -/
def quoted : Value → String
  | null => "None"
  | truth b => if b then "True" else "False"
  | int n => toString n
  | real a => amountText a
  | text s => Text.quoted s
  | list items => "[" ++ ", ".intercalate (quotedItems items) ++ "]"
  | record fields => "\x7b" ++ ", ".intercalate (quotedFields fields) ++ "\x7d"
  | foreign _ shown _ => shown

/-- The texts of the items of a list. -/
def quotedItems : List Value → List String
  | [] => []
  | v :: rest => quoted v :: quotedItems rest

/-- The texts of the fields of a record, each with its name. -/
def quotedFields : List (Text × Value) → List String
  | [] => []
  | (name, v) :: rest => (Text.quoted name ++ ": " ++ quoted v) :: quotedFields rest

end

/-- The text of a value; text is written as it is. -/
def display : Value → Text
  | text s => s
  | v => quoted v

end BoolCalculus.Value
