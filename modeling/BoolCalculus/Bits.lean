import BoolCalculus.Fault

/-!
# Integers and their bits

The two's-complement reading of a list of bits, least significant first. Bit `i` of an integer is
bit 0 of the integer shifted right by `i` places, where the shift of a negative number keeps its
sign.
-/

namespace BoolCalculus.Bits

-- Powers of numbers are not taken in a monoid.
attribute [local instance (high)] instPowNat

/-- The bits that a number has and another one lacks. -/
def without (m n : Nat) : Nat :=
  m ^^^ (m &&& n)

/-- The bits that two integers have in common. A negative integer has just the bits that its complement lacks,
so there is no highest one among them. -/
def land : Int → Int → Int
  | .ofNat m, .ofNat n => .ofNat (m &&& n)
  | .ofNat m, .negSucc n => .ofNat (without m n)
  | .negSucc m, .ofNat n => .ofNat (without n m)
  | .negSucc m, .negSucc n => .negSucc (m ||| n)

/-- Bit `i` of an integer. -/
def bit (value : Int) (i : Nat) : Bool :=
  land (value >>> i) 1 != 0

/-- The lowest `width` bits of an integer, least significant first; none for a width below one. -/
def ofInt (value width : Int) : List Bool :=
  (List.range width.toNat).map (bit value)

/-- Sets one bit after the other in a number, from place `i` on. -/
def accumulate : (result i : Nat) → List Bool → Nat
  | result, _, [] => result
  | result, i, b :: bits => accumulate (if b then result ||| 1 <<< i else result) (i + 1) bits

/-- The unsigned reading of a list of bits. -/
def toUnsigned (bits : List Bool) : Nat :=
  accumulate 0 0 bits

/-- The two's-complement reading: if the last bit is set, `2 ^ length` is taken off. -/
def toSigned (bits : List Bool) : Int :=
  if bits.getLast? = some true then toUnsigned bits - (1 <<< bits.length : Nat) else toUnsigned bits

/-- The number with the lowest `width` bits. -/
def mask (width : Nat) : Int :=
  (1 <<< width : Nat) - 1

/-- The lowest bits of an integer as a number. -/
def masked (value : Int) (width : Nat) : Int :=
  land value (mask width)

/-- The lowest bits of an integer as a number, refused for a negative width. -/
def wrap (value width : Int) : Except Fault Int :=
  if width < 0 then .error .negativeShift else .ok (masked value width.toNat)

@[simp] theorem length_ofInt (value width : Int) : (ofInt value width).length = width.toNat := by
  simp [ofInt]

/-! ## Setting bits is adding powers of two -/

theorem or_shiftLeft {result i : Nat} (small : result < 2 ^ i) : result ||| 1 <<< i = result + 2 ^ i := by
  have disjoint := Nat.two_pow_add_eq_or_of_lt small 1
  rw [Nat.mul_one] at disjoint
  rw [Nat.one_shiftLeft, Nat.or_comm, ← disjoint, Nat.add_comm]

@[simp] theorem toUnsigned_nil : toUnsigned [] = 0 := rfl

theorem toUnsigned_first (b : Bool) (bits : List Bool) : toUnsigned (b :: bits) = accumulate b.toNat 1 bits := by
  cases b <;> rfl

/-- What was set before stays below the bits that follow. -/
theorem accumulate_eq {result i : Nat} (small : result < 2 ^ i) (bits : List Bool) :
    accumulate result i bits = result + 2 ^ i * toUnsigned bits := by
  induction bits generalizing result i with
  | nil => simp [accumulate]
  | cons b bits ih =>
      have next : (if b then result ||| 1 <<< i else result) = result + 2 ^ i * b.toNat := by
        cases b with
        | false => simp
        | true => simpa using or_shiftLeft small
      have bit := b.toNat_le
      have place : 2 ^ i * b.toNat ≤ 2 ^ i * 1 := Nat.mul_le_mul_left _ bit
      calc accumulate result i (b :: bits)
          = result + 2 ^ i * b.toNat + 2 ^ (i + 1) * toUnsigned bits := by
            rw [accumulate, next, ih (by rw [Nat.pow_succ]; omega)]
        _ = result + 2 ^ i * (b.toNat + 2 ^ 1 * toUnsigned bits) := by
            rw [Nat.pow_succ, Nat.mul_add, Nat.mul_assoc, Nat.add_assoc, Nat.pow_one]
        _ = result + 2 ^ i * toUnsigned (b :: bits) := by
            rw [toUnsigned_first, ih (by omega)]

/-- The first bit counts once, and the others count twice what they count by themselves. -/
@[simp] theorem toUnsigned_cons (b : Bool) (bits : List Bool) :
    toUnsigned (b :: bits) = b.toNat + 2 * toUnsigned bits := by
  have bit := b.toNat_le
  rw [toUnsigned_first, accumulate_eq (by omega), Nat.pow_one]

/-- The unsigned reading of `n` bits is below `2 ^ n`. -/
theorem toUnsigned_lt (bits : List Bool) : toUnsigned bits < 2 ^ bits.length := by
  induction bits with
  | nil => simp
  | cons b bits ih =>
      have := b.toNat_le
      simp only [toUnsigned_cons, List.length_cons, Nat.pow_succ]
      omega

end BoolCalculus.Bits
