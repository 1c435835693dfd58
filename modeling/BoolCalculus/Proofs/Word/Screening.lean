import BoolCalculus.Proofs.Domain.Screening
import BoolCalculus.Proofs.Word.Lengths

/-!
# Words of unchecked elements

Over gates that screen their operands, the bitwise operations and the word arithmetic screen the elements of whole
words: every element reaches a gate that checks it, and no carry is ever refused (`Word.screened`).
-/

namespace BoolCalculus.Word

variable {σ α : Type}

/-- A word of members. -/
def OfMembers (contains : α → Bool) (w : Word α) : Prop :=
  ∀ a ∈ w, contains a

variable [Shown α] {D : Domain σ α} {contains : α → Bool} {A A' : GateSet σ α}

open Domain

variable (D contains) in
/-- Two operations on pairs of words of one length, of which the first screens the elements of both operands. -/
def ScreensPairs (f f' : Word α → Word α → Build σ (Word α)) : Prop :=
  ∀ ⦃v w⦄, v.length = w.length →
    D.Screens contains (fun a => a ∈ v ∨ a ∈ w) (OfMembers contains) (f v w) (f' v w)

/-- The word operations of `A` screen the elements of the operands of those of `A'`, and make words of members. -/
structure Screened (D : Domain σ α) (contains : α → Bool) (A A' : GateSet σ α) : Prop where
  bitNot : ∀ w, D.Screens contains (· ∈ w) (OfMembers contains) (bitNot A w) (bitNot A' w)
  bitwise : ∀ op, ScreensPairs D contains (bitwise A op) (bitwise A' op)
  neg : ∀ w, D.Screens contains (· ∈ w) (OfMembers contains) (neg A w) (neg A' w)
  arithmetic : ∀ op, ScreensPairs D contains (arithmetic A op) (arithmetic A' op)

theorem screens_nil :
    D.Screens contains (fun _ => False) (OfMembers contains) (pure [] : Build σ (Word α)) (pure []) :=
  .pure fun _ none => absurd none List.not_mem_nil

/-- An element in front of a word that is screened. -/
theorem screens_cons {F : α → Prop} {act act' : Build σ (Word α)} {b : α} (member : contains b)
    (rest : D.Screens contains F (OfMembers contains) act act') :
    D.Screens contains F (OfMembers contains) (do return b :: (← act)) (do return b :: (← act')) := by
  refine (rest.bind fun bs members => .pure ?_).of_iff (by simp)
  exact List.forall_mem_cons.2 ⟨member, members⟩

section

variable (gates : GateSet.Screens D contains A A')

include gates

/-- A gate with a carry that is a member. -/
theorem screens_carry (gate : GateSet.Ternary) (a b : α) {carry : α} (member : contains carry) :
    D.Screens contains (fun x => x = a ∨ x = b) (contains ·) (A.ternary gate a b carry)
      (A'.ternary gate a b carry) := by
  refine (gates.ternary gate a b carry).of_iff fun x alien => ?_
  simp [ne_of_member member alien]

/-- A gate between two words checks their elements pair by pair. -/
theorem screens_zipGates (op : BitOp) :
    ScreensPairs D contains (zipGates (gate A op)) (zipGates (gate A' op)) := by
  intro v w same
  induction v generalizing w with
  | nil =>
      obtain rfl := List.length_eq_zero_iff.1 same.symm
      exact screens_nil.of_iff (by simp)
  | cons a v ih =>
      cases w with
      | nil => simp at same
      | cons b w =>
          have first := gates.binary op.toBinary a b
          rw [← gate_eq, ← gate_eq] at first
          refine (first.bind fun c member => screens_cons member (ih (Nat.succ.inj same))).of_iff fun x _ => ?_
          simp only [List.mem_cons]
          tauto

/-- A sum checks each pair of elements with the carry, which is always a member. -/
theorem screens_rippleAdd {carry : α} (member : contains carry) :
    ScreensPairs D contains (rippleAdd A · · carry) (rippleAdd A' · · carry) := by
  intro v w same
  induction v generalizing w carry with
  | nil =>
      obtain rfl := List.length_eq_zero_iff.1 same.symm
      exact screens_nil.of_iff (by simp)
  | cons a v ih =>
      cases w with
      | nil => simp at same
      | cons b w =>
          have sum := screens_carry gates .ad3 a b member
          have next := screens_carry gates .maj a b member
          refine (sum.bind fun c hc => next.bind fun carry hcarry =>
            screens_cons hc (ih hcarry (Nat.succ.inj same))).of_iff fun x _ => ?_
          simp only [List.mem_cons]
          tauto

/-- A difference checks an element of the second word when it is negated. -/
theorem screens_rippleSub {carry : α} (member : contains carry) :
    ScreensPairs D contains (rippleSub A · · carry) (rippleSub A' · · carry) := by
  intro v w same
  induction v generalizing w carry with
  | nil =>
      obtain rfl := List.length_eq_zero_iff.1 same.symm
      exact screens_nil.of_iff (by simp)
  | cons a v ih =>
      cases w with
      | nil => simp at same
      | cons b w =>
          have single : ∀ gate {notB}, contains notB → D.Screens contains (· = a) (contains ·)
              (A.ternary gate a notB carry) (A'.ternary gate a notB carry) := by
            intro gate notB negated
            refine (screens_carry gates gate a notB member).of_iff fun x alien => ?_
            simp [ne_of_member negated alien]
          refine ((gates.not b).bind fun notB negated => (single .ad3 negated).bind fun c hc =>
            (single .maj negated).bind fun carry hcarry =>
              screens_cons hc (ih hcarry (Nat.succ.inj same))).of_iff fun x _ => ?_
          simp only [List.mem_cons]
          tauto

/-- A ripple checks the elements of its word; the carries are members already. -/
theorem screens_rippleNeg (w : Word α) {carry : α} (member : contains carry) :
    D.Screens contains (· ∈ w) (OfMembers contains) (rippleNeg A w carry) (rippleNeg A' w carry) := by
  induction w generalizing carry with
  | nil => exact screens_nil.of_iff (by simp)
  | cons a w ih =>
      have half : ∀ gate {notA}, contains notA → D.Screens contains (fun _ => False) (contains ·)
          (A.binary gate notA carry) (A'.binary gate notA carry) :=
        fun gate notA negated => (gates.binary gate notA carry).settled (by simp [negated, member])
      refine ((gates.not a).bind fun notA negated => (half .add negated).bind fun c hc =>
        (half .and negated).bind fun carry hcarry => screens_cons hc (ih hcarry)).of_iff ?_
      simp

/-- Checked gates and unchecked ones have word operations that screen their operands. -/
theorem screened : Screened D contains A A' where
  bitNot w := (Screens.mapM w gates.not).of_iff (by simp)
  bitwise op v w same := by
    rw [Word.bitwise, Word.bitwise, requireLengths_ok same]
    exact screens_zipGates gates op same
  neg w := (gates.unit.bind fun _ member => screens_rippleNeg gates w member).of_iff (by simp)
  arithmetic op v w same := by
    cases op with
    | add =>
        show D.Screens _ _ _ (add A v w) (add A' v w)
        rw [add, add, requireLengths_ok same]
        exact (gates.zero.bind fun _ member => screens_rippleAdd gates member same).of_iff (by simp)
    | sub =>
        show D.Screens _ _ _ (sub A v w) (sub A' v w)
        rw [sub, sub, requireLengths_ok same]
        exact (gates.unit.bind fun _ member => screens_rippleSub gates member same).of_iff (by simp)

end

end BoolCalculus.Word
