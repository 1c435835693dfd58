import BoolCalculus.Proofs.GateSet.Metered
import BoolCalculus.Proofs.Word.Lengths

/-!
# The cost of word arithmetic

A sum calls a full adder for every element, a difference a negation besides, and a negative a negation and a half adder.
The carry that they start with is one call more.
-/

namespace BoolCalculus.Word

open Build

variable {σ α : Type} {E : Fault → Prop} {M : GateSet (Metered σ) α} {A : GateSet σ α} {v w : Word α}
variable (meters : M.Meters E A)

/-- An element is put before a word of one element less. -/
theorem callsExactly_cons {k n : Nat} {metered : Build (Metered σ) (Word α)} {act : Build σ (Word α)}
    (calls : CallsExactly E k (·.length = n) metered act) (a : α) :
    CallsExactly E k (·.length = n + 1) (metered >>= fun u => pure (a :: u)) (act >>= fun u => pure (a :: u)) :=
  calls.bind fun _ length => .pure (congrArg (· + 1) length)

section

include meters

/-- Each bit of an addition takes a sum and a carry of thirteen calls. -/
theorem callsExactly_rippleAdd (same : v.length = w.length) (carry : α) :
    CallsExactly E (13 * v.length) (·.length = v.length) (rippleAdd M v w carry) (rippleAdd A v w carry) := by
  induction v generalizing w carry with
  | nil => exact .pure rfl
  | cons a v ih =>
      cases w with
      | nil => simp at same
      | cons b w =>
          have element := (meters.ternary .ad3 a b carry).bind fun sum _ =>
            (meters.ternary .maj a b carry).bind fun next _ => callsExactly_cons (ih (Nat.succ.inj same) next) sum
          refine element.of_eq ?_
          simp only [GateSet.Ternary.cost, List.length_cons]
          omega

/-- Each bit of a subtraction takes one call more, for the complement. -/
theorem callsExactly_rippleSub (same : v.length = w.length) (carry : α) :
    CallsExactly E (14 * v.length) (·.length = v.length) (rippleSub M v w carry) (rippleSub A v w carry) := by
  induction v generalizing w carry with
  | nil => exact .pure rfl
  | cons a v ih =>
      cases w with
      | nil => simp at same
      | cons b w =>
          have element := (meters.not b).bind fun notB _ => (meters.ternary .ad3 a notB carry).bind fun sum _ =>
            (meters.ternary .maj a notB carry).bind fun next _ => callsExactly_cons (ih (Nat.succ.inj same) next) sum
          refine element.of_eq ?_
          simp only [GateSet.Ternary.cost, List.length_cons]
          omega

theorem callsExactly_rippleNeg (w : Word α) (carry : α) :
    CallsExactly E (6 * w.length) (·.length = w.length) (rippleNeg M w carry) (rippleNeg A w carry) := by
  induction w generalizing carry with
  | nil => exact .pure rfl
  | cons a w ih =>
      have element := (meters.not a).bind fun notA _ => (meters.binary .add notA carry).bind fun sum _ =>
        (meters.binary .and notA carry).bind fun next _ => callsExactly_cons (ih next) sum
      refine element.of_eq ?_
      simp only [GateSet.Binary.cost, List.length_cons]
      omega

/-! ## Operations -/

theorem callsExactly_add (same : v.length = w.length) :
    CallsExactly E (13 * v.length + 1) (·.length = v.length) (add M v w) (add A v w) := by
  rw [add, add, requireLengths_ok same, requireLengths_ok same, pure_bind, pure_bind]
  have sum := meters.zero.bind fun carry _ => callsExactly_rippleAdd meters same carry
  exact sum.of_eq (Nat.add_comm 1 _)

theorem callsExactly_sub (same : v.length = w.length) :
    CallsExactly E (14 * v.length + 1) (·.length = v.length) (sub M v w) (sub A v w) := by
  rw [sub, sub, requireLengths_ok same, requireLengths_ok same, pure_bind, pure_bind]
  have difference := meters.unit.bind fun carry _ => callsExactly_rippleSub meters same carry
  exact difference.of_eq (Nat.add_comm 1 _)

theorem callsExactly_neg (w : Word α) :
    CallsExactly E (6 * w.length + 1) (·.length = w.length) (neg M w) (neg A w) := by
  have negative := meters.unit.bind fun carry _ => callsExactly_rippleNeg meters w carry
  exact negative.of_eq (Nat.add_comm 1 _)

end

/-- Arithmetic on words makes words of the same length, and calls as many primitives as the length tells. -/
structure CostOfLength (E : Fault → Prop) (M : GateSet (Metered σ) α) (A : GateSet σ α) : Prop where
  add : ∀ v w, v.length = w.length →
    CallsExactly E (13 * v.length + 1) (·.length = v.length) (add M v w) (add A v w)
  sub : ∀ v w, v.length = w.length →
    CallsExactly E (14 * v.length + 1) (·.length = v.length) (sub M v w) (sub A v w)
  neg : ∀ w, CallsExactly E (6 * w.length + 1) (·.length = w.length) (neg M w) (neg A w)

end BoolCalculus.Word
