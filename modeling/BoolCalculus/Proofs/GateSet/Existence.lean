import BoolCalculus.Proofs.Outcome
import BoolCalculus.Proofs.Valuation

/-!
# Elements that exist

A valuation says which elements a state has, and that later states keep them. A construction keeps to this if it
leaves a later state, also where it fails, and makes only what exists there (`Valuation.Keeps`). A gate set is
closed if its gates, called on elements that exist, keep to it; they may fail. A gate set is closed under
every valuation that it respects (`Valuation.Respects.closed`).
-/

namespace BoolCalculus

namespace Valuation

variable {σ α β γ B : Type}

section

variable (V : Valuation σ α B)

/-- A construction, run from `s`, leaves a later state, whether it succeeds or fails, and that state has what was
made. -/
def Keeps (Has : σ → β → Prop) (s : σ) (act : Build σ β) : Prop :=
  act.Ends (fun _ => True) (V.Later s) (fun b t => V.Later s t ∧ Has t b) s

/-- The gates keep to the elements that exist. -/
structure Closed (A : GateSet σ α) : Prop where
  lift : ∀ s b, V.Keeps V.Elem s (A.lift b)
  not : ∀ {s a}, V.Elem s a → V.Keeps V.Elem s (A.not a)
  binary : ∀ gate {s a b}, V.Elem s a → V.Elem s b → V.Keeps V.Elem s (A.binary gate a b)
  zero : ∀ s, V.Keeps V.Elem s A.zero
  unit : ∀ s, V.Keeps V.Elem s A.unit
  ternary : ∀ gate {s a b c}, V.Elem s a → V.Elem s b → V.Elem s c →
    V.Keeps V.Elem s (A.ternary gate a b c)

end

variable {V : Valuation σ α B} {s : σ} {Has : σ → β → Prop} {Has' : σ → γ → Prop}

/-- What is compared with a known outcome makes only what exists. -/
theorem Runs.keeps {Rel : σ → β → γ → Prop} {act : Build σ β} {r : Except Fault γ}
    (runs : V.Runs Rel s act r) (there : ∀ {t b c}, Rel t b c → Has t b) : V.Keeps Has s act := by
  rw [Keeps, Build.Ends]
  cases runs with
  | ok run later related =>
      rw [run]
      exact ⟨later, there related⟩
  | error run later =>
      rw [run]
      exact ⟨trivial, later⟩

namespace Keeps

theorem pure {b : β} (there : Has s b) : V.Keeps Has s (pure b) :=
  ⟨V.later_refl s, there⟩

theorem throw (f : Fault) : V.Keeps Has s (throw f) :=
  ⟨trivial, V.later_refl s⟩

/-- A check makes nothing. -/
theorem ofExcept {r : Except Fault β} (there : ∀ b, r = .ok b → Has s b) :
    V.Keeps Has s (.ofExcept r) := by
  cases r with
  | error f => exact .throw f
  | ok b => exact .pure (there b rfl)

theorem bind {act : Build σ β} {next : β → Build σ γ} (first : V.Keeps Has s act)
    (rest : ∀ {t b}, V.Later s t → Has t b → V.Keeps Has' t (next b)) :
    V.Keeps Has' s (act >>= next) := by
  refine Build.Ends.bind first fun b t ⟨later, there⟩ => ?_
  refine (rest later there).mono (fun _ more => V.later_trans later more) ?_
  rintro c u ⟨more, made⟩
  exact ⟨V.later_trans later more, made⟩

theorem map {act : Build σ β} {f : β → γ} (first : V.Keeps Has s act)
    (there : ∀ {t b}, Has t b → Has' t (f b)) : V.Keeps Has' s (f <$> act) := by
  rw [map_eq_pure_bind]
  exact first.bind fun _ made => .pure (there made)

/-- Items that are made one by one exist in the end. -/
theorem mapM {f : γ → Build σ β} {xs : List γ}
    (stays : ∀ {t u b}, V.Later t u → Has t b → Has u b)
    (each : ∀ {t}, V.Later s t → ∀ x ∈ xs, V.Keeps Has t (f x)) :
    V.Keeps (fun t bs => ∀ b ∈ bs, Has t b) s (xs.mapM f) := by
  induction xs generalizing s with
  | nil => exact .pure (List.forall_mem_nil _)
  | cons x xs ih =>
      rw [List.mapM_cons]
      refine (each (V.later_refl s) x (.head _)).bind fun first head => ?_
      have others := ih fun later y member => each (V.later_trans first later) y (.tail _ member)
      exact others.bind fun second tail => .pure (List.forall_mem_cons.2 ⟨stays second head, tail⟩)

theorem later {act : Build σ β} (keeps : V.Keeps Has s act) : V.Later s (act.runFrom s).2 :=
  (keeps.mono (fun _ => id) fun _ _ => And.left).after

/-- The state that a success leaves has the result. -/
theorem has {act : Build σ β} {b : β} {t : σ} (keeps : V.Keeps Has s act)
    (run : act.runFrom s = (.ok b, t)) : Has t b := by
  rw [Keeps, Build.Ends, run] at keeps
  exact keeps.2

end Keeps

/-- A gate set is closed under a valuation that it respects. -/
theorem Respects.closed [BooleanAlgebra B] {A : GateSet σ α} (respects : V.Respects A) : V.Closed A := by
  have is : ∀ {t a}, V.Elem t a → V.Is t a (V.value t a) := fun there => ⟨there, rfl⟩
  have elem : ∀ {t a x}, V.Is t a x → V.Elem t a := And.left
  exact
    { lift := fun s b => (respects.lift b s).keeps elem
      not := fun ha => (respects.not (is ha)).keeps elem
      binary := fun gate _ _ _ ha hb => (respects.reads_binary gate (is ha) (is hb)).keeps elem
      zero := fun s => (respects.reads_zero s).keeps elem
      unit := fun s => (respects.reads_unit s).keeps elem
      ternary := fun gate _ _ _ _ ha hb hc =>
        (respects.reads_ternary gate (is ha) (is hb) (is hc)).keeps elem }

end Valuation

end BoolCalculus
