import BoolCalculus.Proofs.Bits
import BoolCalculus.Proofs.Circuit.Evaluation
import BoolCalculus.Proofs.Word.Carry
import Mathlib.Algebra.Order.Ring.Int

/-!
# Ripple-carry arithmetic is exact

Over every gate set, and under every valuation in the truth values that the gate set respects, the sum, the
difference and the negative of words are read as those of integers modulo `2 ^ width`
(`arithmetic_exact`). Each carry chain has an invariant of its own: the bits made so far and the carry
left over weigh as much as what was added (`toUnsigned_sums`, `toUnsigned_halfSums`).
-/

namespace BoolCalculus

namespace Word

open Bits BoolCalculus.Valuation
open scoped symmDiff

/-- The carry that is left over by a chain of full adders. -/
def carryOut : List Bool → List Bool → Bool → Bool
  | x :: xs, y :: ys, carry => carryOut xs ys (majority x y carry)
  | _, _, carry => carry

/-- The carry that is left over by a chain of half adders. -/
def halfCarryOut : List Bool → Bool → Bool
  | [], carry => carry
  | x :: xs, carry => halfCarryOut xs (x ⊓ carry)

/-- A full adder keeps the number of ones, the carry counting twice. -/
theorem fullAdder_weight (x y z : Bool) :
    (x ∆ y ∆ z).toNat + 2 * (majority x y z).toNat = x.toNat + y.toNat + z.toNat := by
  revert x y z
  decide

theorem halfAdder_weight (x z : Bool) :
    (x ∆ z).toNat + 2 * (x ⊓ z).toNat = x.toNat + z.toNat := by
  revert x z
  decide

/-- The invariant of the chain of full adders. -/
theorem toUnsigned_sums {xs ys : List Bool} (width : xs.length = ys.length) (carry : Bool) :
    toUnsigned (sums xs ys carry) + 2 ^ xs.length * (carryOut xs ys carry).toNat =
      toUnsigned xs + toUnsigned ys + carry.toNat := by
  induction xs generalizing ys carry with
  | nil =>
      obtain rfl := List.length_eq_zero_iff.1 width.symm
      simp [sums, carryOut]
  | cons x xs ih =>
      cases ys with
      | nil => simp at width
      | cons y ys =>
          have rest := ih (Nat.succ.inj width) (majority x y carry)
          have head := fullAdder_weight x y carry
          simp only [sums, carryOut, toUnsigned_cons, List.length_cons, Nat.pow_succ]
          rw [Nat.mul_right_comm]
          omega

/-- The invariant of the chain of half adders. -/
theorem toUnsigned_halfSums (xs : List Bool) (carry : Bool) :
    toUnsigned (halfSums xs carry) + 2 ^ xs.length * (halfCarryOut xs carry).toNat =
      toUnsigned xs + carry.toNat := by
  induction xs generalizing carry with
  | nil => simp [halfSums, halfCarryOut]
  | cons x xs ih =>
      have rest := ih (x ⊓ carry)
      have head := halfAdder_weight x carry
      simp only [halfSums, halfCarryOut, toUnsigned_cons, List.length_cons, Nat.pow_succ]
      rw [Nat.mul_right_comm]
      omega

/-- A word and its complement weigh one less than `2 ^ width`. -/
theorem toUnsigned_compl (xs : List Bool) :
    toUnsigned xs + toUnsigned (xs.map (·ᶜ)) + 1 = 2 ^ xs.length := by
  induction xs with
  | nil => rfl
  | cons x xs ih =>
      have head : x.toNat + xᶜ.toNat = 1 := by cases x <;> rfl
      simp only [List.map_cons, toUnsigned_cons, List.length_cons, Nat.pow_succ]
      omega

/-- The carry that leaves a sum is what its remainder is without. -/
theorem toUnsigned_sums_eq_emod {xs ys : List Bool} (width : xs.length = ys.length) :
    (toUnsigned (sums xs ys ⊥) : Int) =
      (toUnsigned xs + toUnsigned ys) % 2 ^ xs.length := by
  have weight := congrArg Int.ofNat (toUnsigned_sums width ⊥)
  refine toUnsigned_eq_emod (length_sums width) (k := (carryOut xs ys ⊥).toNat) ?_
  push_cast [Int.ofNat_eq_natCast] at weight
  simpa using weight.symm

/-- The complements of a word and a carry stand for its negative. -/
theorem toUnsigned_sums_compl_eq_emod {xs ys : List Bool} (width : xs.length = ys.length) :
    (toUnsigned (sums xs (ys.map (·ᶜ)) ⊤) : Int) =
      (toUnsigned xs - toUnsigned ys) % 2 ^ xs.length := by
  have width' : xs.length = (ys.map (·ᶜ)).length := by simpa using width
  have weight := congrArg Int.ofNat (toUnsigned_sums width' ⊤)
  have complement := congrArg Int.ofNat (toUnsigned_compl ys)
  refine toUnsigned_eq_emod (length_sums width')
    (k := (carryOut xs (ys.map (·ᶜ)) ⊤).toNat - 1) ?_
  rw [← width] at complement
  push_cast [Int.ofNat_eq_natCast] at weight complement
  have one : ((⊤ : Bool).toNat : Int) = 1 := rfl
  rw [one] at weight
  rw [Int.mul_sub, Int.mul_one]
  omega

theorem toUnsigned_halfSums_compl_eq_emod (xs : List Bool) :
    (toUnsigned (halfSums (xs.map (·ᶜ)) ⊤) : Int) = (-toUnsigned xs) % 2 ^ xs.length := by
  have weight := congrArg Int.ofNat (toUnsigned_halfSums (xs.map (·ᶜ)) ⊤)
  have complement := congrArg Int.ofNat (toUnsigned_compl xs)
  refine toUnsigned_eq_emod (by simp) (k := (halfCarryOut (xs.map (·ᶜ)) ⊤).toNat - 1) ?_
  rw [List.length_map] at weight
  push_cast [Int.ofNat_eq_natCast] at weight complement
  have one : ((⊤ : Bool).toNat : Int) = 1 := rfl
  rw [one] at weight
  rw [Int.mul_sub, Int.mul_one]
  omega

end Word

namespace Valuation

variable {σ α : Type} (V : Valuation σ α Bool)

open Bits Word

/-- The unsigned reading of the bits that the elements of a word are read as. -/
def unsigned (s : σ) (w : Word α) : Int :=
  toUnsigned (w.map (V.value s))

/-- A construction, run from `s`, makes a word of the given width whose elements are there and whose
unsigned reading is `n`. -/
def Makes (s : σ) (act : Build σ (Word α)) (width : Nat) (n : Int) : Prop :=
  ∃ w t, act.runFrom s = (.ok w, t) ∧ V.Later s t ∧ w.length = width ∧ (∀ a ∈ w, V.Elem t a) ∧
    V.unsigned t w = n

variable {V}

/-- A word that is read as bits makes the integer that the bits are read as. -/
theorem Runs.makes {s : σ} {act : Build σ (Word α)} {xs : List Bool} {width : Nat} {n : Int}
    (h : V.Runs V.IsWord s act (.ok xs)) (length : xs.length = width)
    (value : (toUnsigned xs : Int) = n) : V.Makes s act width n := by
  cases h with
  | ok run later is =>
      obtain ⟨there, values⟩ := isWord_iff.1 is
      refine ⟨_, _, run, later, is.length_eq.trans length, there, ?_⟩
      rw [unsigned, values, value]

/-- Sums, differences and negatives of words are exact modulo `2 ^ width`, over every gate set and under
every valuation that it respects. -/
theorem arithmetic_exact {A : GateSet σ α} (respects : V.Respects A) (s : σ) {a b : Word α}
    (width : a.length = b.length) (ha : ∀ x ∈ a, V.Elem s x) (hb : ∀ x ∈ b, V.Elem s x) :
    V.Makes s (add A a b) a.length ((V.unsigned s a + V.unsigned s b) % 2 ^ a.length) ∧
    V.Makes s (sub A a b) a.length ((V.unsigned s a - V.unsigned s b) % 2 ^ a.length) ∧
    V.Makes s (neg A a) a.length (-V.unsigned s a % 2 ^ a.length) := by
  have isA := isWord_iff.2 ⟨ha, rfl⟩
  have isB := isWord_iff.2 ⟨hb, rfl⟩
  have width' : (a.map (V.value s)).length = (b.map (V.value s)).length := by simpa using width
  refine ⟨?_, ?_, ?_⟩
  · refine (runs_add respects width isA isB).makes ?_ ?_
    · rw [length_sums width', List.length_map]
    · rw [toUnsigned_sums_eq_emod width', List.length_map]
      rfl
  · refine (runs_sub respects width isA isB).makes ?_ ?_
    · rw [length_sums (by simpa using width), List.length_map]
    · rw [toUnsigned_sums_compl_eq_emod width', List.length_map]
      rfl
  · refine (runs_neg respects isA).makes (by simp) ?_
    rw [toUnsigned_halfSums_compl_eq_emod, List.length_map]
    rfl

/-- The sums 3 + 2, 3 - 2 and -3 of words of inputs of a circuit, with two bits. -/
theorem arithmetic_exact_circuit :
    let V := Circuit.evaluation fun i => i != 3
    let inputs : Circuit Nat := #[.input, .input, .input, .input]
    (V.Makes inputs (add (Circuit.gates id) [0, 1] [3, 2]) 2 1) ∧
    (V.Makes inputs (sub (Circuit.gates id) [0, 1] [3, 2]) 2 1) ∧
    (V.Makes inputs (neg (Circuit.gates id) [0, 1]) 2 1) :=
  arithmetic_exact (Circuit.respects_evaluation fun i => i != 3)
    (#[.input, .input, .input, .input] : Circuit Nat) (a := [0, 1]) (b := [3, 2]) rfl
    (by simp [Circuit.evaluation]) (by simp [Circuit.evaluation])

end Valuation

end BoolCalculus
