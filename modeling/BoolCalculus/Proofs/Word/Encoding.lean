import BoolCalculus.Proofs.Bits
import BoolCalculus.Proofs.GateSet.Embedding
import BoolCalculus.Proofs.Outcome
import BoolCalculus.Word.Arithmetic
import Mathlib.Data.Int.ModEq

/-!
# Encoding integers

Taking the lowest bits of an integer and reading bits as an integer are inverse to each other, up to multiples of
`2 ^ width` (`Word.encoding_inverse`). The word of an integer is the word of its bits, made by the same calls: one
lift for each bit, from the least significant one.
-/

namespace BoolCalculus.Word

open Bits GateSet

variable {σ α : Type}

/-- Over the gate set that notes its calls, a construction lifts the given bits one after the other and makes the
word of what the lifts answer. After a lift that fails there are no further calls. -/
def LiftsInOrder (bits : List Bool) (act : Build (σ × List (Call α)) (Content α)) : Prop :=
  ∀ s calls, act.Ends (fun _ => True)
    (fun t => ∃ done, done <+: bits ∧ t.2 = calls ++ done.map .lift)
    (fun v t => (∃ w : Word α, v = .word w ∧ w.length = bits.length) ∧ t.2 = calls ++ bits.map .lift) (s, calls)

/-- The calls of a lift are those for its bits, in their order, as far as it comes. -/
theorem lift_calls (A : GateSet σ α) (bits : List Bool) (s : σ) (calls : List (Call α)) :
    (lift A.logged bits).Ends (fun _ => True)
      (fun t => ∃ done, done <+: bits ∧ t.2 = calls ++ done.map .lift)
      (fun w t => w.length = bits.length ∧ t.2 = calls ++ bits.map .lift) (s, calls) := by
  induction bits generalizing s calls with
  | nil => exact .pure ⟨rfl, (List.append_nil calls).symm⟩
  | cons b bits ih =>
      have step : (A.logged.lift b).Ends (fun _ => True)
          (fun t => ∃ done, done <+: b :: bits ∧ t.2 = calls ++ done.map .lift)
          (fun _ t => t.2 = calls ++ [.lift b]) (s, calls) := by
        show (note (.lift b) (A.lift b)).Ends _ _ _ _
        rw [Build.Ends, runFrom_note]
        rcases A.lift b |>.runFrom s with ⟨f | a, t⟩
        · exact ⟨trivial, [b], ⟨bits, rfl⟩, rfl⟩
        · exact rfl
      rw [lift, List.mapM_cons]
      refine step.bind ?_
      rintro a ⟨t, _⟩ rfl
      refine Build.Ends.bind ((ih t (calls ++ [.lift b])).mono ?_ fun _ _ => id) ?_
      · rintro u ⟨done, before, same⟩
        exact ⟨b :: done, List.cons_prefix_cons.2 ⟨rfl, before⟩, by simp [same]⟩
      · rintro w u ⟨length, same⟩
        exact .pure ⟨congrArg Nat.succ length, by simp [same]⟩

theorem liftsInOrder_bitLift (A : GateSet σ α) (bits : List Bool) :
    LiftsInOrder bits ((ops A.logged).bitLift bits) := by
  intro s calls
  show (Content.word <$> lift A.logged bits).Ends _ _ _ _
  rw [map_eq_pure_bind]
  refine (lift_calls A bits s calls).bind ?_
  rintro w t ⟨length, same⟩
  exact .pure ⟨⟨w, rfl, length⟩, same⟩

/-- Encoding and decoding are inverse. The unsigned reading of the lowest bits of an integer is what a mask cuts out of it, and
its remainder; the signed one is congruent to it and, if there are bits at all, the integer itself just if it is in range; a list of
bits is encoded again from both of its readings; and the word of an integer is that of its bits, by the same calls.
-/
theorem encoding_inverse (value : Int) (width : Nat) (bits : List Bool) :
    (wrap value width = .ok (toUnsigned (ofInt value width) : Int) ∧
      (toUnsigned (ofInt value width) : Int) = value % 2 ^ width ∧ toUnsigned (ofInt value width) < 2 ^ width) ∧
    (toSigned (ofInt value width) ≡ value [ZMOD 2 ^ width] ∧
      -2 ^ width ≤ toSigned (ofInt value (width + 1 : Nat)) ∧ toSigned (ofInt value (width + 1 : Nat)) < 2 ^ width ∧
      (toSigned (ofInt value (width + 1 : Nat)) = value ↔ -2 ^ width ≤ value ∧ value < 2 ^ width)) ∧
    (ofInt (toUnsigned bits) bits.length = bits ∧ ofInt (toSigned bits) bits.length = bits) ∧
    ∀ {σ α : Type} (A : GateSet σ α),
      (ops A).numLift width value = (ops A).bitLift (ofInt value width) ∧
      LiftsInOrder (ofInt value width) ((ops A.logged).numLift width value) ∧
      LiftsInOrder bits ((ops A.logged).bitLift bits) := by
  have range := toSigned_range (length_ofInt value (width + 1 : Nat))
  have bound := toUnsigned_lt (ofInt value width)
  rw [length_ofInt, Int.toNat_natCast] at bound
  have wrapped : wrap value width = .ok (toUnsigned (ofInt value width) : Int) := by
    rw [wrap_eq, toUnsigned_ofInt]
  refine ⟨⟨wrapped, toUnsigned_ofInt value width, bound⟩, ?_, ?_, ?_⟩
  · exact ⟨toSigned_ofInt_emod value width, range.1, range.2, toSigned_ofInt_eq_iff value width⟩
  · exact ⟨ofInt_toUnsigned bits, ofInt_toSigned bits⟩
  · intro σ α A
    have noted := liftsInOrder_bitLift A (ofInt value width)
    rw [← numLift_eq_bitLift] at noted
    exact ⟨numLift_eq_bitLift A width value, noted, liftsInOrder_bitLift A bits⟩

end BoolCalculus.Word
