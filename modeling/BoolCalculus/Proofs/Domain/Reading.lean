import BoolCalculus.Domain.Powerset
import BoolCalculus.Proofs.Valuation
import Mathlib.Data.Nat.Bitwise

/-!
# Reading domains

A valuation respects a domain if it reads the lattice operations as those of a Boolean algebra, and reads only
members. The gate set of the domain respects the valuation then, with and without checks of its operands. The
sets of points respect the reading of masks as sets (`Powerset.respects_sets`).
-/

namespace BoolCalculus

open scoped symmDiff

namespace Valuation

variable {σ α B : Type} [BooleanAlgebra B] {V : Valuation σ α B}

variable (V) in
/-- The elements are members, and the valuation commutes with the lattice operations of the domain and with
every other operation that is not the derivation from these. -/
structure RespectsDomain [Shown α] (D : Domain σ α) : Prop where
  member : ∀ {s a}, V.Elem s a → D.checkMember a = pure a
  bot : V.Constant D.bot ⊥
  top : V.Constant D.top ⊤
  meet : V.Binary D.meet (· ⊓ ·)
  join : V.Binary D.join (· ⊔ ·)
  compl : V.Unary D.compl (·ᶜ)
  imp : D.imp = Derived.imp D.join D.compl ∨ V.Binary D.imp (· ⇨ ·)
  equ : D.equ = Derived.bothWays D.meet D.imp ∨ V.Binary D.equ (· ⇔ ·)
  xor : D.xor = Derived.equ D.compl D.equ ∨ V.Binary D.xor (· ∆ ·)

/-- Implication both ways is equivalence. -/
theorem Binary.bothWays {meet imp : α → α → Build σ α} (hmeet : V.Binary meet (· ⊓ ·))
    (himp : V.Binary imp (· ⇨ ·)) : V.Binary (Derived.bothWays meet imp) (· ⇔ ·) := by
  intro s a b x y ha hb
  refine (himp ha hb).bind_ok fun first there => ?_
  refine (himp (hb.later first) (ha.later first)).bind_ok fun second back => ?_
  show V.Runs V.Is _ _ (.ok (x ⇔ y))
  rw [bihimp_def, inf_comm]
  exact hmeet (there.later second) back

/-- What is not equivalent is different. -/
theorem Binary.notEqu {not : α → Build σ α} {equ : α → α → Build σ α} (hnot : V.Unary not (·ᶜ))
    (hequ : V.Binary equ (· ⇔ ·)) : V.Binary (Derived.equ not equ) (· ∆ ·) := by
  intro s a b x y ha hb
  refine (hequ ha hb).bind_ok fun _ same => ?_
  show V.Runs V.Is _ _ (.ok (x ∆ y))
  rw [← compl_bihimp]
  exact hnot same

variable (V) in
/-- Elements that are read as one are one, in whatever states. -/
def Faithful : Prop :=
  ∀ {s t a b x}, V.Is s a x → V.Is t b x → a = b

namespace RespectsDomain

variable [Shown α] {D : Domain σ α} (h : V.RespectsDomain D)

include h

theorem reads_imp : V.Binary D.imp (· ⇨ ·) :=
  Respects.of_derived (P := (V.Binary · (· ⇨ ·))) h.imp (.derivedImp h.join h.compl)

theorem reads_equ : V.Binary D.equ (· ⇔ ·) :=
  Respects.of_derived (P := (V.Binary · (· ⇔ ·))) h.equ (.bothWays h.meet h.reads_imp)

theorem reads_xor : V.Binary D.xor (· ∆ ·) :=
  Respects.of_derived (P := (V.Binary · (· ∆ ·))) h.xor (.notEqu h.compl h.reads_equ)

/-- Elements that are there pass the checks. -/
theorem guard {s : σ} {operands : List α} (there : ∀ a ∈ operands, V.Elem s a) (check : Bool) :
    D.guard check operands = pure () := by
  cases check with
  | false => rfl
  | true =>
      rw [Domain.guard, if_pos rfl]
      induction operands with
      | nil => rfl
      | cons a operands ih =>
          have here := h.member (there a List.mem_cons_self)
          rw [List.forM, here]
          exact ih fun b hb => there b (List.mem_cons_of_mem a hb)

/-- A check before an operation changes nothing for members. -/
theorem guarded {f : α → α → Build σ α} {g : B → B → B} (hf : V.Binary f g) (check : Bool) :
    V.Binary (fun a b => do
      D.guard check [a, b]
      f a b) g := by
  intro s a b x y ha hb
  have passed := h.guard (by simp [ha.1, hb.1] : ∀ x ∈ [a, b], V.Elem s x) check
  show V.Runs V.Is s (D.guard check [a, b] >>= fun _ => f a b) _
  rw [passed, pure_bind]
  exact hf ha hb

/-- The gate set of a domain respects what the domain respects. -/
theorem ofDomain (check : Bool) : V.Respects (GateSet.ofDomain D check) where
  lift b := by
    cases b with
    | false => exact h.bot
    | true => exact h.top
  not s a x ha := by
    have passed := h.guard (by simp [ha.1] : ∀ x ∈ [a], V.Elem s x) check
    show V.Runs V.Is s (D.guard check [a] >>= fun _ => D.compl a) _
    rw [passed, pure_bind]
    exact h.compl ha
  or := h.guarded h.join check
  and := h.guarded h.meet check
  xor := .inr (h.guarded h.reads_xor check)
  equ := .inr (h.guarded h.reads_equ check)
  imp := .inr (h.guarded h.reads_imp check)
  add := .inl rfl
  leq := .inl rfl
  zero := .inl rfl
  unit := .inl rfl
  ad3 := .inl rfl
  maj := .inl rfl

end RespectsDomain

end Valuation

/-! ## Sets of points -/

namespace Powerset

open BoolCalculus.Valuation

-- Powers of numbers are not taken in a monoid.
attribute [local instance (high)] instPowNat

/-- The masks of `n` bits, each read as the set of its points. -/
def sets (σ : Type) (n : Nat) : Valuation σ Value (Fin n → Bool) where
  Elem _ v := ∃ k : Nat, v = .int k ∧ k < 2 ^ n
  value _ v i := (mask v).testBit i
  Later _ _ := True
  later_refl _ := trivial
  later_trans _ _ := trivial
  elem_later _ there := there
  value_later _ _ := rfl

variable {σ : Type} {n : Nat} {s : σ} {v : Value}

/-- A mask stands for the set of the places of its bits. -/
theorem is_iff {x : Fin n → Bool} : (sets σ n).Is s v x ↔
    ∃ k : Nat, v = .int k ∧ k < 2 ^ n ∧ ∀ i : Fin n, k.testBit i = x i := by
  constructor
  · rintro ⟨⟨k, rfl, below⟩, rfl⟩
    exact ⟨k, rfl, below, fun i => rfl⟩
  · rintro ⟨k, rfl, below, bits⟩
    exact ⟨⟨k, rfl, below⟩, funext bits⟩

/-- A mask is known by the set of its points. -/
theorem mask_injective {k l : Nat} (hk : k < 2 ^ n) (hl : l < 2 ^ n)
    (same : ∀ i : Fin n, k.testBit i = l.testBit i) : k = l := by
  apply Nat.eq_of_testBit_eq
  intro i
  by_cases inside : i < n
  · exact same ⟨i, inside⟩
  · have high : 2 ^ n ≤ 2 ^ i := Nat.pow_le_pow_right (by decide) (by omega)
    rw [Nat.testBit_lt_two_pow (by omega), Nat.testBit_lt_two_pow (by omega)]

/-- No two masks stand for one set. -/
theorem faithful_sets : (sets σ n).Faithful := by
  intro s t a b x ha hb
  obtain ⟨k, rfl, hk, bits⟩ := is_iff.1 ha
  obtain ⟨l, rfl, hl, bits'⟩ := is_iff.1 hb
  rw [mask_injective hk hl fun i => (bits i).trans (bits' i).symm]

/-- An operation on masks that goes bit by bit is one on the sets. -/
theorem binary_onMasks {f : Nat → Nat → Nat} {g : Bool → Bool → Bool}
    (below : ∀ k l, k < 2 ^ n → l < 2 ^ n → f k l < 2 ^ n)
    (bits : ∀ k l i, (f k l).testBit i = g (k.testBit i) (l.testBit i)) :
    (sets σ n).Binary (onMasks f) fun x y i => g (x i) (y i) := by
  intro s a b x y ha hb
  obtain ⟨k, rfl, hk, bitsK⟩ := is_iff.1 ha
  obtain ⟨l, rfl, hl, bitsL⟩ := is_iff.1 hb
  refine .pure (is_iff.2 ⟨f k l, rfl, below k l hk hl, fun i => ?_⟩)
  rw [bits, bitsK, bitsL]

/-- The subsets of `n` points are the Boolean algebra of functions from the points to truth values. -/
theorem respects_sets (n : Nat) : (sets σ n).RespectsDomain (domain n) where
  member := by
    rintro s _ ⟨k, rfl, below⟩
    have inside : contains n (.int k) := by
      simp [contains, Value.int?]
      exact_mod_cast below
    exact if_pos inside
  bot s := .pure (is_iff.2 ⟨0, rfl, Nat.two_pow_pos n, fun i => Nat.zero_testBit i⟩)
  top s := by
    refine .pure (is_iff.2 ⟨2 ^ n - 1, rfl, ?_, fun i => ?_⟩)
    · exact Nat.sub_one_lt (Nat.two_pow_pos n).ne'
    · rw [Nat.testBit_two_pow_sub_one]
      simp
  meet := binary_onMasks (g := (· && ·)) (fun k _ _ hl => Nat.and_lt_two_pow k hl) Nat.testBit_and
  join := binary_onMasks (g := (· || ·)) (fun _ _ => Nat.or_lt_two_pow) Nat.testBit_or
  compl := by
    intro s a x ha
    obtain ⟨k, rfl, hk, bits⟩ := is_iff.1 ha
    have all : 2 ^ n - 1 < 2 ^ n := Nat.sub_one_lt (Nat.two_pow_pos n).ne'
    refine .pure (is_iff.2 ⟨(2 ^ n - 1) ^^^ k, rfl, Nat.xor_lt_two_pow all hk, fun i => ?_⟩)
    rw [Nat.testBit_xor, Nat.testBit_two_pow_sub_one, bits]
    simp
  imp := .inl rfl
  equ := .inl rfl
  xor := .inl rfl

end Powerset

end BoolCalculus
