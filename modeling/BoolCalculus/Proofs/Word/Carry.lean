import BoolCalculus.Proofs.Valuation
import BoolCalculus.Word.Arithmetic
import Mathlib.Data.List.Forall2

/-!
# Carry chains

What sums, differences and negatives of words are read as under a valuation. `sums` is the chain of full adders
over a Boolean algebra and `halfSums` the chain of half adders. A difference is read as a chain of full
adders on the complement of the second word, a negative as one of half adders on the complement.
-/

namespace BoolCalculus

namespace Word

variable {B : Type} [BooleanAlgebra B]

open BoolCalculus.Valuation (majority)
open scoped symmDiff

/-- The sum bits of two words and a carry. -/
def sums : List B → List B → B → List B
  | x :: xs, y :: ys, carry => x ∆ y ∆ carry :: sums xs ys (majority x y carry)
  | _, _, _ => []

/-- The sum bits of a word and a carry. -/
def halfSums : List B → B → List B
  | [], _ => []
  | x :: xs, carry => x ∆ carry :: halfSums xs (x ⊓ carry)

@[simp] theorem length_sums {xs ys : List B} {carry : B} (h : xs.length = ys.length) :
    (sums xs ys carry).length = xs.length := by
  induction xs generalizing ys carry with
  | nil => rfl
  | cons x xs ih =>
      cases ys with
      | nil => simp at h
      | cons y ys => simp [sums, ih (Nat.succ.inj h)]

@[simp] theorem length_halfSums (xs : List B) (carry : B) :
    (halfSums xs carry).length = xs.length := by
  induction xs generalizing carry with
  | nil => rfl
  | cons x xs ih => simp [halfSums, ih]

end Word

namespace Valuation

variable {σ α B : Type} {V : Valuation σ α B} {A : GateSet σ α}

variable (V) in
/-- In a state, the elements of a word are there and are read as the given ones. -/
abbrev IsWord (s : σ) (w : Word α) (xs : List B) : Prop :=
  List.Forall₂ (V.Is s) w xs

theorem isWord_later {s t : σ} {w : Word α} {xs : List B} (h : V.IsWord s w xs)
    (later : V.Later s t) : V.IsWord t w xs :=
  h.imp fun _ _ is => is.later later

/-- A word is read as the values of its elements. -/
theorem isWord_iff {s : σ} {w : Word α} {xs : List B} :
    V.IsWord s w xs ↔ (∀ a ∈ w, V.Elem s a) ∧ w.map (V.value s) = xs := by
  induction w generalizing xs with
  | nil => simp [IsWord, eq_comm]
  | cons a w ih =>
      constructor
      · rintro (_ | ⟨⟨there, rfl⟩, rest⟩)
        obtain ⟨others, rfl⟩ := ih.1 rest
        exact ⟨List.forall_mem_cons.2 ⟨there, others⟩, rfl⟩
      · rintro ⟨there, rfl⟩
        obtain ⟨here, others⟩ := List.forall_mem_cons.1 there
        exact .cons ⟨here, rfl⟩ (ih.2 ⟨others, rfl⟩)

/-- Words of one length pass the comparison of lengths. -/
theorem runs_requireLengths {s : σ} {m n : Int} (h : m = n) :
    V.Runs (fun _ _ _ => True) s (requireLengths m n) (.ok ()) := by
  rw [requireLengths, if_pos h]
  exact .pure trivial

/-- The rule for a word that is made of related items one by one. -/
theorem Runs.mapM {γ γ' : Type} (Rel : σ → γ → γ' → Prop) {f : γ → Build σ α} {g : γ' → B}
    (stays : ∀ {s t c c'}, V.Later s t → Rel s c c' → Rel t c c')
    (each : ∀ {t c c'}, Rel t c c' → V.Runs V.Is t (f c) (.ok (g c'))) {s : σ} {cs : List γ}
    {cs' : List γ'} (h : List.Forall₂ (Rel s) cs cs') :
    V.Runs V.IsWord s (cs.mapM f) (.ok (cs'.map g)) := by
  induction cs generalizing s cs' with
  | nil =>
      cases h
      exact .pure .nil
  | cons c cs ih =>
      cases h with
      | cons hc rest =>
          rw [List.mapM_cons]
          refine (each hc).bind_ok fun first head => ?_
          refine (ih (rest.imp fun _ _ related => stays first related)).bind_ok fun second tail => ?_
          exact .pure (.cons (head.later second) tail)

variable [BooleanAlgebra B]

open Word

/-- The ripple of an addition is read as sums with carries, bit by bit. -/
theorem runs_rippleAdd (respects : V.Respects A) {s : σ} {a b : Word α} {c : α}
    {xs ys : List B} {z : B} (ha : V.IsWord s a xs) (hb : V.IsWord s b ys) (hc : V.Is s c z) :
    V.Runs V.IsWord s (rippleAdd A a b c) (.ok (sums xs ys z)) := by
  induction a generalizing s b c xs ys z with
  | nil =>
      cases ha
      exact .pure .nil
  | cons _ a ih =>
      cases ha with
      | cons hx hxs =>
          cases hb with
          | nil => exact .pure .nil
          | cons hy hys =>
              refine (respects.reads_ad3 hx hy hc).bind_ok fun first sum => ?_
              refine (respects.reads_maj (hx.later first) (hy.later first)
                (hc.later first)).bind_ok fun second carry => ?_
              have later := V.later_trans first second
              refine (ih (isWord_later hxs later) (isWord_later hys later) carry).bind_ok
                fun third rest => ?_
              exact .pure (.cons (sum.later (V.later_trans second third)) rest)

/-- A subtraction adds the complements of the second word. -/
theorem runs_rippleSub (respects : V.Respects A) {s : σ} {a b : Word α} {c : α}
    {xs ys : List B} {z : B} (ha : V.IsWord s a xs) (hb : V.IsWord s b ys) (hc : V.Is s c z) :
    V.Runs V.IsWord s (rippleSub A a b c) (.ok (sums xs (ys.map (·ᶜ)) z)) := by
  induction a generalizing s b c xs ys z with
  | nil =>
      cases ha
      exact .pure .nil
  | cons _ a ih =>
      cases ha with
      | cons hx hxs =>
          cases hb with
          | nil => exact .pure .nil
          | cons hy hys =>
              refine (respects.not hy).bind_ok fun first notB => ?_
              refine (respects.reads_ad3 (hx.later first) notB
                (hc.later first)).bind_ok fun second sum => ?_
              have later := V.later_trans first second
              refine (respects.reads_maj (hx.later later) (notB.later second)
                (hc.later later)).bind_ok fun third carry => ?_
              have later := V.later_trans later third
              refine (ih (isWord_later hxs later) (isWord_later hys later) carry).bind_ok
                fun fourth rest => ?_
              exact .pure (.cons (sum.later (V.later_trans third fourth)) rest)

/-- A negation adds nothing but the carry to the complements of the word. -/
theorem runs_rippleNeg (respects : V.Respects A) {s : σ} {a : Word α} {c : α} {xs : List B} {z : B}
    (ha : V.IsWord s a xs) (hc : V.Is s c z) :
    V.Runs V.IsWord s (rippleNeg A a c) (.ok (halfSums (xs.map (·ᶜ)) z)) := by
  induction a generalizing s c xs z with
  | nil =>
      cases ha
      exact .pure .nil
  | cons _ a ih =>
      cases ha with
      | cons hx hxs =>
          refine (respects.not hx).bind_ok fun first notA => ?_
          refine (respects.reads_add notA (hc.later first)).bind_ok fun second sum => ?_
          have later := V.later_trans first second
          refine (respects.and (notA.later second) (hc.later later)).bind_ok fun third carry => ?_
          refine (ih (isWord_later hxs (V.later_trans later third)) carry).bind_ok fun fourth rest => ?_
          exact .pure (.cons (sum.later (V.later_trans third fourth)) rest)

theorem runs_lift (respects : V.Respects A) (s : σ) (bits : List Bool) :
    V.Runs V.IsWord s (lift A bits) (.ok (bits.map fun b => if b then ⊤ else ⊥)) := by
  have same : List.Forall₂ (fun b b' => b = b') bits bits := List.forall₂_same.2 fun _ _ => rfl
  refine Runs.mapM (fun _ b b' => b = b') (fun _ same => same) ?_ same
  rintro t b _ rfl
  exact respects.lift b t

theorem runs_bitNot (respects : V.Respects A) {s : σ} {a : Word α} {xs : List B}
    (ha : V.IsWord s a xs) : V.Runs V.IsWord s (bitNot A a) (.ok (xs.map (·ᶜ))) := by
  refine Runs.mapM V.Is (fun later is => is.later later) ?_ ha
  intro t x y is
  exact respects.not is

theorem runs_add (respects : V.Respects A) {s : σ} {a b : Word α} {xs ys : List B}
    (width : a.length = b.length) (ha : V.IsWord s a xs) (hb : V.IsWord s b ys) :
    V.Runs V.IsWord s (add A a b) (.ok (sums xs ys ⊥)) := by
  refine (runs_requireLengths (congrArg Int.ofNat width)).bind_ok fun first _ => ?_
  refine (respects.reads_zero _).bind_ok fun second carry => ?_
  have later := V.later_trans first second
  exact runs_rippleAdd respects (isWord_later ha later) (isWord_later hb later) carry

/-- A subtraction starts with a carry, which completes the complement to the negative. -/
theorem runs_sub (respects : V.Respects A) {s : σ} {a b : Word α} {xs ys : List B}
    (width : a.length = b.length) (ha : V.IsWord s a xs) (hb : V.IsWord s b ys) :
    V.Runs V.IsWord s (sub A a b) (.ok (sums xs (ys.map (·ᶜ)) ⊤)) := by
  refine (runs_requireLengths (congrArg Int.ofNat width)).bind_ok fun first _ => ?_
  refine (respects.reads_unit _).bind_ok fun second carry => ?_
  have later := V.later_trans first second
  exact runs_rippleSub respects (isWord_later ha later) (isWord_later hb later) carry

theorem runs_neg (respects : V.Respects A) {s : σ} {a : Word α} {xs : List B}
    (ha : V.IsWord s a xs) :
    V.Runs V.IsWord s (neg A a) (.ok (halfSums (xs.map (·ᶜ)) ⊤)) := by
  refine (respects.reads_unit s).bind_ok fun later carry => ?_
  exact runs_rippleNeg respects (isWord_later ha later) carry

end Valuation

end BoolCalculus
