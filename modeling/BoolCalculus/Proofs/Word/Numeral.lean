import BoolCalculus.Proofs.TwoValued
import BoolCalculus.Proofs.Word.Exact
import Mathlib.Data.ZMod.Basic
import Mathlib.Tactic.LinearCombination
import Mathlib.Tactic.Ring

/-!
# Numerals over a Boolean algebra

A numeral is a word of a fixed width over a Boolean algebra. It has no integer value, but every two-valued
homomorphism makes bits of it, which have one. The chains of adders commute with homomorphisms, and a numeral
is known by the integers modulo `2 ^ width` that the homomorphisms make of it (`Numeral.ext_residue`). So
numerals are an abelian group like the integers modulo `2 ^ width`, whatever the Boolean algebra is.
-/

namespace BoolCalculus

open Bits
open BoolCalculus.Valuation (majority)
open scoped symmDiff

namespace Word

variable {B : Type} [BooleanAlgebra B] (f : BooleanHom B Bool)

/-- A homomorphism keeps majorities, and with them carries. -/
theorem map_majority (x y z : B) : f (majority x y z) = majority (f x) (f y) (f z) := by
  simp only [majority, map_sup, map_inf]

/-- It maps sums with carries to those of the images. -/
theorem map_sums (xs ys : List B) (carry : B) :
    (sums xs ys carry).map f = sums (xs.map f) (ys.map f) (f carry) := by
  induction xs generalizing ys carry with
  | nil => simp [sums]
  | cons x xs ih =>
      cases ys with
      | nil => simp [sums]
      | cons y ys => simp only [sums, List.map_cons, ih, map_symmDiff', map_majority]

theorem map_halfSums (xs : List B) (carry : B) :
    (halfSums xs carry).map f = halfSums (xs.map f) (f carry) := by
  induction xs generalizing carry with
  | nil => simp [halfSums]
  | cons x xs ih => simp only [halfSums, List.map_cons, ih, map_symmDiff', map_inf]

/-- The word of the constants for truth values. -/
def constants (bits : List Bool) : List B :=
  bits.map fun b => if b then ⊤ else ⊥

theorem map_constants (bits : List Bool) : (constants bits : List B).map f = bits := by
  induction bits with
  | nil => rfl
  | cons b bits ih =>
      have head : f (if b then ⊤ else ⊥) = b := by
        cases b
        · exact map_bot f
        · exact map_top f
      simp only [constants, List.map_cons, head] at ih ⊢
      rw [ih]

end Word

open Word

/-- The words of a width over a Boolean algebra. -/
@[ext] structure Numeral (B : Type) (width : Nat) where
  bits : List B
  length_bits : bits.length = width

namespace Numeral

variable {B : Type} [BooleanAlgebra B] {width : Nat}

/-- The sum of two numerals and a carry. -/
def addCarry (a b : Numeral B width) (carry : B) : Numeral B width where
  bits := sums a.bits b.bits carry
  length_bits := by rw [length_sums (a.length_bits.trans b.length_bits.symm), a.length_bits]

/-- The sum of a numeral and a carry. -/
def increment (a : Numeral B width) (carry : B) : Numeral B width where
  bits := halfSums a.bits carry
  length_bits := by rw [length_halfSums, a.length_bits]

/-- The complement of every element. -/
def complement (a : Numeral B width) : Numeral B width where
  bits := a.bits.map (·ᶜ)
  length_bits := by rw [List.length_map, a.length_bits]

/-- The numeral of an integer. -/
def ofInt (value : Int) : Numeral B width where
  bits := constants (Bits.ofInt value width)
  length_bits := by simp [constants]

instance : Zero (Numeral B width) := ⟨ofInt 0⟩
instance : Add (Numeral B width) := ⟨fun a b => a.addCarry b ⊥⟩
instance : Neg (Numeral B width) := ⟨fun a => a.complement.increment ⊤⟩
instance : Sub (Numeral B width) := ⟨fun a b => a.addCarry b.complement ⊤⟩

section

variable (f : BooleanHom B Bool) (a b : Numeral B width)

/-- The integer modulo `2 ^ width` that a homomorphism makes of a numeral. -/
def residue : ZMod (2 ^ width) :=
  toUnsigned (a.bits.map f)

theorem length_map_bits : (a.bits.map f).length = width := by
  rw [List.length_map, a.length_bits]

/-- A carry that is left over at the end weighs nothing. -/
theorem cast_eq_of_carry {m n c : Nat} (weight : m + 2 ^ width * c = n) :
    (m : ZMod (2 ^ width)) = n := by
  rw [← weight, Nat.cast_add, Nat.cast_mul, ZMod.natCast_self, zero_mul, add_zero]

/-- Sums with carries are sums of remainders. -/
theorem residue_addCarry (carry : B) :
    (a.addCarry b carry).residue f = a.residue f + b.residue f + (f carry).toNat := by
  have same := (a.length_map_bits f).trans (b.length_map_bits f).symm
  have weight := toUnsigned_sums same (f carry)
  rw [a.length_map_bits] at weight
  rw [residue, addCarry, map_sums, cast_eq_of_carry weight, Nat.cast_add, Nat.cast_add]
  rfl

theorem residue_increment (carry : B) :
    (a.increment carry).residue f = a.residue f + (f carry).toNat := by
  have weight := toUnsigned_halfSums (a.bits.map f) (f carry)
  rw [a.length_map_bits] at weight
  rw [residue, increment, map_halfSums, cast_eq_of_carry weight, Nat.cast_add]
  rfl

/-- The complement of all bits is one less than the negative. -/
@[simp] theorem residue_complement : a.complement.residue f = -a.residue f - 1 := by
  have complements : a.complement.bits.map f = (a.bits.map f).map (·ᶜ) := by
    simp only [complement, List.map_map, Function.comp_def, map_compl']
  have weight := congrArg (fun n : Nat => (n : ZMod (2 ^ width))) (toUnsigned_compl (a.bits.map f))
  simp only [a.length_map_bits, ZMod.natCast_self, Nat.cast_add, Nat.cast_one] at weight
  rw [residue, residue, complements]
  linear_combination weight

@[simp] theorem residue_ofInt (value : Int) : (ofInt value : Numeral B width).residue f = value := by
  have remainder := congrArg (fun n : Int => (n : ZMod (2 ^ width))) (toUnsigned_ofInt value width)
  simp only [Int.cast_natCast] at remainder
  rw [residue, ofInt, map_constants, remainder]
  exact_mod_cast ZMod.intCast_mod value (2 ^ width)

theorem toNat_map_bot : ((f ⊥).toNat : ZMod (2 ^ width)) = 0 := by
  rw [map_bot]
  exact Nat.cast_zero

theorem toNat_map_top : ((f ⊤).toNat : ZMod (2 ^ width)) = 1 := by
  rw [map_top]
  exact Nat.cast_one

@[simp] theorem residue_zero : (0 : Numeral B width).residue f = 0 := by
  change (ofInt 0 : Numeral B width).residue f = 0
  rw [residue_ofInt, Int.cast_zero]

@[simp] theorem residue_add : (a + b).residue f = a.residue f + b.residue f := by
  have sum := residue_addCarry f a b ⊥
  rwa [toNat_map_bot, add_zero] at sum

@[simp] theorem residue_neg : (-a).residue f = -a.residue f := by
  have negative := residue_increment f a.complement ⊤
  rw [residue_complement, toNat_map_top, sub_add_cancel] at negative
  exact negative

@[simp] theorem residue_sub : (a - b).residue f = a.residue f - b.residue f := by
  have difference := residue_addCarry f a b.complement ⊤
  rw [residue_complement, toNat_map_top] at difference
  exact difference.trans (by ring)

end

variable {a b : Numeral B width}

/-- A numeral is known by what the two-valued homomorphisms make of it. -/
theorem ext_residue (same : ∀ f, a.residue f = b.residue f) : a = b := by
  have bits : ∀ f : BooleanHom B Bool, a.bits.map f = b.bits.map f := by
    intro f
    have boundA := toUnsigned_lt (a.bits.map f)
    have boundB := toUnsigned_lt (b.bits.map f)
    have lengths := (a.length_map_bits f).trans (b.length_map_bits f).symm
    rw [length_map_bits] at boundA boundB
    have equal := (ZMod.natCast_eq_natCast_iff' _ _ _).1 (same f)
    rw [Nat.mod_eq_of_lt boundA, Nat.mod_eq_of_lt boundB] at equal
    exact eq_of_toUnsigned_eq lengths equal
  apply Numeral.ext
  refine List.ext_getElem (a.length_bits.trans b.length_bits.symm) fun i inA inB => ?_
  apply eq_of_twoValued
  intro f
  have item := congrArg (fun bits => bits[i]?) (bits f)
  simpa [inA, inB] using item

/-- Numerals add up as integers modulo `2 ^ width` do. -/
instance : AddCommGroup (Numeral B width) where
  add_assoc a b c := ext_residue fun f => by simp only [residue_add, add_assoc]
  zero_add a := ext_residue fun f => by simp only [residue_add, residue_zero, zero_add]
  add_zero a := ext_residue fun f => by simp only [residue_add, residue_zero, add_zero]
  add_comm a b := ext_residue fun f => by simp only [residue_add, add_comm]
  neg_add_cancel a := ext_residue fun f => by
    simp only [residue_add, residue_neg, residue_zero, neg_add_cancel]
  sub_eq_add_neg a b := ext_residue fun f => by
    simp only [residue_add, residue_sub, residue_neg, sub_eq_add_neg]
  nsmul := nsmulRec
  zsmul := zsmulRec

theorem neg_eq_complement_add_one (a : Numeral B width) : -a = a.complement + ofInt 1 :=
  ext_residue fun f => by
    simp only [residue_add, residue_neg, residue_complement, residue_ofInt, Int.cast_one,
      sub_add_cancel]

theorem ofInt_add (x y : Int) : (ofInt (x + y) : Numeral B width) = ofInt x + ofInt y :=
  ext_residue fun f => by simp only [residue_add, residue_ofInt, Int.cast_add]

theorem ofInt_sub (x y : Int) : (ofInt (x - y) : Numeral B width) = ofInt x - ofInt y :=
  ext_residue fun f => by simp only [residue_sub, residue_ofInt, Int.cast_sub]

theorem ofInt_neg (x : Int) : (ofInt (-x) : Numeral B width) = -ofInt x :=
  ext_residue fun f => by simp only [residue_neg, residue_ofInt, Int.cast_neg]

end Numeral

end BoolCalculus
