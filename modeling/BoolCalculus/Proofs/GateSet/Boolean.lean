import BoolCalculus.Domain.TwoElement
import BoolCalculus.Proofs.Outcome
import BoolCalculus.Proofs.Valuation

/-!
# Truth values as elements

The gate sets of truth values respect every valuation that reads truth values as themselves, whether
members are checked or not. Truth values may stand among other elements, which are never members.
-/

namespace BoolCalculus

/-- The elements for the truth values are seen to be truth values. -/
class LawfulTruth (α : Type) [HasTruth α] : Prop where
  value_ofTruth : ∀ b, Shown.value (HasTruth.ofTruth b : α) = .truth b

instance : LawfulTruth Bool := ⟨fun _ => rfl⟩

instance : LawfulTruth Value := ⟨fun _ => rfl⟩

namespace Valuation

open scoped symmDiff

variable {σ α : Type} [HasTruth α]

/-- What is read as a truth value is the element for it. -/
def ReadsTruths (V : Valuation σ α Bool) : Prop :=
  ∀ s a x, V.Is s a x ↔ a = HasTruth.ofTruth x

/-- The reading of truth values as themselves, by constructions that keep the state. -/
def still : Valuation σ Bool Bool where
  Elem _ _ := True
  value _ b := b
  Later s t := s = t
  later_refl _ := rfl
  later_trans := Eq.trans
  elem_later _ _ := trivial
  value_later _ _ := rfl

theorem readsTruths_still : (still : Valuation σ Bool Bool).ReadsTruths :=
  fun _ _ _ => ⟨And.right, fun same => ⟨trivial, same⟩⟩

theorem readsTruths_ofFn : (ofFn id : Valuation σ Bool Bool).ReadsTruths :=
  fun _ _ _ => ⟨And.right, fun same => ⟨trivial, same⟩⟩

variable [LawfulTruth α] {V : Valuation σ α Bool}

theorem isTrue_ofTruth (b : Bool) : Shown.isTrue (HasTruth.ofTruth b : α) = b := by
  rw [Shown.isTrue, LawfulTruth.value_ofTruth]
  rfl

/-- The elements for the truth values are members of the two-element algebra. -/
theorem guard_ofTruth (check : Bool) (bs : List Bool) :
    (TwoElement.domain : Domain σ α).guard check (bs.map HasTruth.ofTruth) = pure () := by
  have member : ∀ b, (TwoElement.domain : Domain σ α).checkMember (HasTruth.ofTruth b) =
      pure (HasTruth.ofTruth b) := by
    intro b
    have truth : (Shown.truth? (HasTruth.ofTruth b : α)).isSome := by
      rw [Shown.truth?, LawfulTruth.value_ofTruth]
      rfl
    exact if_pos truth
  cases check with
  | false => rfl
  | true =>
      rw [Domain.guard, if_pos rfl]
      induction bs with
      | nil => rfl
      | cons b bs ih =>
          rw [List.map_cons, List.forM, member]
          exact ih

theorem ReadsTruths.onTruth (reads : V.ReadsTruths) (f : Bool → Bool → Bool) :
    V.Binary (TwoElement.onTruth f) f := by
  intro s a b x y ha hb
  obtain rfl := (reads s a x).1 ha
  obtain rfl := (reads s b y).1 hb
  rw [TwoElement.onTruth, isTrue_ofTruth, isTrue_ofTruth]
  exact .pure ((reads s _ _).2 rfl)

/-- The checks of the two-element algebra refuse no truth value. -/
theorem ReadsTruths.checked (reads : V.ReadsTruths) (check : Bool) {f : α → α → Build σ α}
    {g : Bool → Bool → Bool} (h : V.Binary f g) :
    V.Binary (fun a b => do
      (TwoElement.domain : Domain σ α).guard check [a, b]
      f a b) g := by
  intro s a b x y ha hb
  have members := guard_ofTruth (σ := σ) (α := α) check [x, y]
  rw [List.map_cons, List.map_cons, List.map_nil, ← (reads s a x).1 ha,
    ← (reads s b y).1 hb] at members
  show V.Runs V.Is s (TwoElement.domain.guard check [a, b] >>= fun _ => f a b) _
  rw [members, pure_bind]
  exact h ha hb

/-- The gate set of the two-element algebra respects the reading of truth values. -/
theorem respects_boolean (reads : V.ReadsTruths) (check : Bool) :
    V.Respects (GateSet.boolean check) where
  lift b s := by cases b <;> exact .pure ((reads s _ _).2 rfl)
  not s a x ha := by
    have members := guard_ofTruth (σ := σ) (α := α) check [x]
    rw [List.map_cons, List.map_nil, ← (reads s a x).1 ha] at members
    show V.Runs V.Is s (TwoElement.domain.guard check [a] >>= fun _ =>
      pure (HasTruth.ofTruth !Shown.isTrue a)) _
    obtain rfl := (reads s a x).1 ha
    rw [members, pure_bind, isTrue_ofTruth]
    exact .pure ((reads s _ _).2 rfl)
  or := reads.checked check (reads.onTruth _)
  and := reads.checked check (reads.onTruth _)
  xor := .inr (bne_eq_symmDiff ▸ reads.checked check (reads.onTruth (· != ·)))
  equ := .inr (beq_eq_bihimp ▸ reads.checked check (reads.onTruth (· == ·)))
  imp := .inr (not_or_eq_himp ▸ reads.checked check (reads.onTruth (!· || ·)))
  add := .inl rfl
  leq := .inl rfl
  zero := .inl rfl
  unit := .inl rfl
  ad3 := .inl rfl
  maj := .inl rfl

end Valuation

/-- Gates that compute a Boolean algebra never fail. -/
theorem GateSet.Lawful.total {σ α : Type} [BooleanAlgebra α] {A : GateSet σ α} (lawful : A.Lawful) :
    A.Total := by
  have is : ∀ s a, (Valuation.ofFn id : Valuation σ α α).Is s a a := fun _ _ => ⟨trivial, rfl⟩
  have made : ∀ {act : Build σ α}, (∀ s, ∃ x,
      (Valuation.ofFn id : Valuation σ α α).Runs (Valuation.ofFn id).Is s act (.ok x)) →
      act.Makes (fun _ => False) fun _ => True := by
    intro act runs s
    obtain ⟨x, runs⟩ := runs s
    cases runs with
    | ok run later value => rw [run]; trivial
  exact
    { lift := fun b => made fun s => ⟨_, lawful.lift b s⟩
      not := fun a => made fun s => ⟨_, lawful.not (is s a)⟩
      zero := made fun s => ⟨_, lawful.reads_zero s⟩
      unit := made fun s => ⟨_, lawful.reads_unit s⟩
      binary := fun gate a b => made fun s => ⟨_, lawful.reads_binary gate (is s a) (is s b)⟩
      ternary := fun gate a b c =>
        made fun s => ⟨_, lawful.reads_ternary gate (is s a) (is s b) (is s c)⟩ }

end BoolCalculus
