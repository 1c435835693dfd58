import BoolCalculus.Bits
import Mathlib.Algebra.Group.Nat.Defs
import Mathlib.Algebra.Order.Ring.Int

/-!
# Integers and their bits, there and back

The lowest bits of an integer, read without a sign or cut out by a mask, are its remainder, and read with a sign the integer
from `-2 ^ (width - 1)` on that has this remainder. A list of bits is known by its length and its unsigned reading, so both
readings are undone by taking the lowest bits.
-/

namespace BoolCalculus.Bits

/-! ## Masks -/

/-- The places below `width` at which a number has no bit. -/
theorem without_mask (n width : Nat) : without (2 ^ width - 1) n = 2 ^ width - (n % 2 ^ width + 1) := by
  have low : n % 2 ^ width < 2 ^ width := Nat.mod_lt _ (Nat.two_pow_pos width)
  refine Nat.eq_of_testBit_eq fun i => ?_
  rw [without, Nat.testBit_xor, Nat.testBit_and, Nat.testBit_two_pow_sub_one, Nat.testBit_two_pow_sub_succ low,
    Nat.testBit_mod_two_pow]
  cases decide (i < width) <;> cases n.testBit i <;> rfl

theorem natCast_one_shiftLeft (width : Nat) : ((1 <<< width : Nat) : Int) = 2 ^ width := by
  rw [Nat.one_shiftLeft, Int.natCast_pow]
  rfl

theorem mask_eq (width : Nat) : mask width = Int.ofNat (2 ^ width - 1) := by
  have positive := Nat.two_pow_pos width
  rw [mask, Nat.one_shiftLeft, Int.ofNat_eq_natCast]
  omega

/-- A mask takes the remainder, also of a negative integer. -/
theorem masked_eq (value : Int) (width : Nat) : masked value width = value % 2 ^ width := by
  have power : (2 : Int) ^ width = (2 ^ width : Nat) := (Int.natCast_pow 2 width).symm
  have positive := Nat.two_pow_pos width
  rw [masked, mask_eq, power]
  cases value with
  | ofNat n =>
      rw [land, Nat.and_two_pow_sub_one_eq_mod]
      exact Int.natCast_emod n (2 ^ width)
  | negSucc n =>
      have low : n % 2 ^ width < 2 ^ width := Nat.mod_lt _ positive
      rw [land, without_mask, Int.negSucc_emod _ (by omega), ← Int.natCast_emod]
      simp only [Int.ofNat_eq_natCast]
      omega

/-- A bit is the last binary digit of the shifted integer, also of a negative one. -/
theorem bit_eq (value : Int) (i : Nat) : bit value i = ((value >>> i) % 2 == 1) := by
  have remainder : land (value >>> i) 1 = value >>> i % 2 := masked_eq _ 1
  have two := Int.emod_two_eq (value >>> i)
  rw [bit, remainder]
  rcases two with even | odd
  · rw [even]; rfl
  · rw [odd]; rfl

/-! ## The unsigned reading -/

/-- Lists of one length are told apart by their unsigned readings. -/
theorem eq_of_toUnsigned_eq {bits bits' : List Bool} (length : bits.length = bits'.length)
    (same : toUnsigned bits = toUnsigned bits') : bits = bits' := by
  induction bits generalizing bits' with
  | nil => exact (List.length_eq_zero_iff.1 length.symm).symm
  | cons b bits ih =>
      cases bits' with
      | nil => simp at length
      | cons b' bits' =>
          simp only [toUnsigned_cons] at same
          have head : b = b' := by
            cases b <;> cases b' <;> simp at same ⊢ <;> omega
          subst head
          rw [ih (Nat.succ.inj length) (by omega)]

theorem ofInt_succ (value : Int) (width : Nat) :
    ofInt value (width + 1 : Nat) = bit value 0 :: ofInt (value >>> (1 : Nat)) width := by
  have shifted : bit value ∘ Nat.succ = bit (value >>> (1 : Nat)) := by
    funext i
    simp only [Function.comp_apply, bit, Nat.succ_eq_add_one, Nat.add_comm i 1, Int.shiftRight_add]
  simp only [ofInt, Int.toNat_natCast, List.range_succ_eq_map, List.map_cons, List.map_map, shifted]

theorem bit_zero_toNat (value : Int) : ((bit value 0).toNat : Int) = value % 2 := by
  have : value % 2 = 0 ∨ value % 2 = 1 := Int.emod_two_eq value
  rcases this with even | odd
  · simp [bit_eq, even]
  · simp [bit_eq, odd]

/-- The bits of a word are those of any integer that differs from it by a multiple of `2 ^ width`. -/
theorem toUnsigned_eq_emod {bits : List Bool} {width : Nat} {n k : Int}
    (length : bits.length = width) (h : n = toUnsigned bits + 2 ^ width * k) :
    (toUnsigned bits : Int) = n % 2 ^ width := by
  have bound := toUnsigned_lt bits
  rw [length] at bound
  rw [h, Int.add_mul_emod_self_left, Int.emod_eq_of_lt (Int.natCast_nonneg _)]
  exact_mod_cast bound

/-- The lowest bits of an integer and the rest above them make up the integer. -/
theorem toUnsigned_ofInt_add (value : Int) (width : Nat) :
    (toUnsigned (ofInt value width) : Int) + 2 ^ width * (value >>> width) = value := by
  induction width generalizing value with
  | zero => simp [ofInt]
  | succ width ih =>
      have rest := ih (value >>> (1 : Nat))
      have half : value >>> (1 : Nat) = value / 2 := by
        rw [Int.shiftRight_eq_div_pow]
        rfl
      have shifted : value >>> (width + 1) = value >>> (1 : Nat) >>> width := by
        rw [Nat.add_comm, Int.shiftRight_add]
      rw [ofInt_succ, toUnsigned_cons, shifted, pow_succ']
      push_cast
      rw [bit_zero_toNat, Int.mul_assoc]
      omega

/-- The bits of an integer are read as its remainder. -/
theorem toUnsigned_ofInt (value : Int) (width : Nat) :
    (toUnsigned (ofInt value width) : Int) = value % 2 ^ width := by
  refine toUnsigned_eq_emod (by simp) (k := value >>> width) ?_
  exact (toUnsigned_ofInt_add value width).symm

/-- The mask keeps the remainder, which is never negative. -/
theorem wrap_eq (value : Int) (width : Nat) : wrap value width = .ok (value % 2 ^ width) := by
  rw [wrap, if_neg (Int.not_lt.2 (Int.natCast_nonneg width)), Int.toNat_natCast, masked_eq]

/-! ## One word after another -/

/-- Bits after others count by the weight of the place where they start. -/
theorem toUnsigned_append (bits bits' : List Bool) :
    toUnsigned (bits ++ bits') = toUnsigned bits + 2 ^ bits.length * toUnsigned bits' := by
  induction bits with
  | nil => simp
  | cons b bits ih =>
      rw [List.cons_append, toUnsigned_cons, ih, toUnsigned_cons, List.length_cons, Nat.pow_succ,
        Nat.mul_right_comm]
      omega

/-- The bits above the lowest ones are the lowest bits of the shifted integer. -/
theorem ofInt_add (value : Int) (low high : Nat) :
    ofInt value (low + high : Nat) = ofInt value low ++ ofInt (value >>> low) high := by
  have shifted : (bit value ∘ (low + ·)) = bit (value >>> low) := by
    funext i
    simp only [Function.comp_apply, bit, Int.shiftRight_add]
  simp only [ofInt, Int.toNat_natCast, List.range_add, List.map_append, List.map_map, shifted]

/-! ## The reading with a sign -/

/-- The last bit counts with the negative sign. -/
theorem toSigned_concat (bits : List Bool) (b : Bool) :
    toSigned (bits ++ [b]) = toUnsigned bits - 2 ^ bits.length * b.toNat := by
  have pow : (2 : Int) ^ (bits.length + 1) = 2 * 2 ^ bits.length := Int.pow_succ' ..
  simp only [toSigned, List.getLast?_append, List.getLast?_singleton, Option.some_or, toUnsigned_append,
    List.length_append, List.length_singleton]
  cases b with
  | false => simp
  | true =>
      rw [if_pos rfl, natCast_one_shiftLeft, pow]
      push_cast [toUnsigned_cons, toUnsigned_nil, Bool.toNat_true]
      omega

/-- A list with a sign bit is read as an integer of its width. -/
theorem toSigned_range {bits : List Bool} {width : Nat} (length : bits.length = width + 1) :
    -2 ^ width ≤ toSigned bits ∧ toSigned bits < 2 ^ width := by
  obtain ⟨low, b, rfl⟩ := (List.eq_nil_or_concat bits).resolve_left (by rintro rfl; simp at length)
  obtain rfl : low.length = width := by simpa using length
  have bound : (toUnsigned low : Int) < 2 ^ low.length := by exact_mod_cast toUnsigned_lt low
  rw [List.concat_eq_append, toSigned_concat]
  cases b with
  | false =>
      rw [Bool.toNat_false, Int.natCast_zero, Int.mul_zero]
      omega
  | true =>
      rw [Bool.toNat_true, Int.natCast_one, Int.mul_one]
      omega

/-- The two readings of a list differ by a multiple of the power of its length. -/
theorem toSigned_emod (bits : List Bool) : toSigned bits % 2 ^ bits.length = toUnsigned bits := by
  have bound : (toUnsigned bits : Int) < 2 ^ bits.length := by exact_mod_cast toUnsigned_lt bits
  have unsigned : (toUnsigned bits : Int) % 2 ^ bits.length = toUnsigned bits :=
    Int.emod_eq_of_lt (Int.natCast_nonneg _) bound
  rw [toSigned]
  split
  · rw [natCast_one_shiftLeft, Int.sub_emod_right, unsigned]
  · exact unsigned

theorem toSigned_ofInt_emod (value : Int) (width : Nat) :
    toSigned (ofInt value width) % 2 ^ width = value % 2 ^ width := by
  have remainder := toSigned_emod (ofInt value width)
  rwa [length_ofInt, Int.toNat_natCast, toUnsigned_ofInt] at remainder

/-- Just the integers from `-2 ^ width` to `2 ^ width - 1` are read again from their `width + 1` lowest bits. -/
theorem toSigned_ofInt_eq_iff (value : Int) (width : Nat) :
    toSigned (ofInt value (width + 1 : Nat)) = value ↔ -2 ^ width ≤ value ∧ value < 2 ^ width := by
  have range := toSigned_range (length_ofInt value (width + 1 : Nat))
  constructor
  · intro same
    rwa [same] at range
  · intro inside
    -- Both are remainders once they are moved to the right by `2 ^ width`.
    have pow : (2 : Int) ^ (width + 1) = 2 * 2 ^ width := Int.pow_succ' ..
    have same := Int.add_emod_eq_add_emod_right (2 ^ width) (toSigned_ofInt_emod value (width + 1))
    rw [Int.emod_eq_of_lt (by omega) (by omega), Int.emod_eq_of_lt (by omega) (by omega)] at same
    omega

/-- An integer with the remainder that a list is read as has the bits of the list. -/
theorem ofInt_of_emod {bits : List Bool} {value : Int} (h : value % 2 ^ bits.length = toUnsigned bits) :
    ofInt value bits.length = bits := by
  refine eq_of_toUnsigned_eq (by simp) ?_
  have remainder := (toUnsigned_ofInt value bits.length).trans h
  exact_mod_cast remainder

theorem ofInt_toSigned (bits : List Bool) : ofInt (toSigned bits) bits.length = bits :=
  ofInt_of_emod (toSigned_emod bits)

theorem ofInt_toUnsigned (bits : List Bool) : ofInt (toUnsigned bits) bits.length = bits := by
  refine ofInt_of_emod (Int.emod_eq_of_lt (Int.natCast_nonneg _) ?_)
  exact_mod_cast toUnsigned_lt bits

end BoolCalculus.Bits
