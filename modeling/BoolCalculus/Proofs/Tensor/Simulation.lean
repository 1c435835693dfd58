import BoolCalculus.Proofs.Tensor.Reading

/-!
# Simulation of tensor operations

Under a valuation, constructions over one kind of tensor operations do what constructions without state do
over another kind: they fail with the same faults, and else their results are related. Tensor
operations that are read as operations over a Boolean algebra simulate every operations that are
these (`Simulates.of_reads`).
-/

namespace BoolCalculus

namespace Build

variable {β γ : Type}

/-- The outcome of a construction without state. -/
def outcome (act : Build Unit β) : Except Fault β :=
  (act.runFrom ()).1

theorem outcome_bind (act : Build Unit β) (next : β → Build Unit γ) :
    (act >>= next).outcome = act.outcome >>= fun b => (next b).outcome := by
  rw [outcome, runFrom_bind, outcome]
  rcases act.runFrom () with ⟨b | f, t⟩ <;> rfl

end Build

namespace Valuation

variable {σ α B β β' γ γ' : Type} {V : Valuation σ α B}
variable {Rel : σ → β → γ → Prop} {Rel' : σ → β' → γ' → Prop} {s t : σ}

variable (V) in
/-- A construction, run from `s`, has the outcome of a construction without state. -/
def Matches (Rel : σ → β → γ → Prop) (s : σ) (act : Build σ β) (act' : Build Unit γ) : Prop :=
  V.Runs Rel s act act'.outcome

namespace Matches

theorem pure {b : β} {c : γ} (related : Rel s b c) : V.Matches Rel s (pure b) (pure c) :=
  Runs.pure related

theorem throw (f : Fault) : V.Matches Rel s (throw f) (throw f) :=
  Runs.throw f

theorem bind {act : Build σ β} {act' : Build Unit γ} {next : β → Build σ β'}
    {next' : γ → Build Unit γ'} (first : V.Matches Rel s act act')
    (rest : ∀ {t b c}, V.Later s t → Rel t b c → V.Matches Rel' t (next b) (next' c)) :
    V.Matches Rel' s (act >>= next) (act' >>= next') := by
  rw [Matches, Build.outcome_bind]
  exact Runs.bind first rest

end Matches

/-! ## Tensor operations -/

section

variable (V)

/-- An operation on tensors has the outcomes of another one on the tensors that they are read as. -/
def MatchesUnary (f : Tensor α → Build σ (Tensor α)) (g : Tensor B → Build Unit (Tensor B)) : Prop :=
  ∀ ⦃s T X⦄, V.IsTensor s T X → V.Matches V.IsTensor s (f T) (g X)

/-- An operation on two tensors has the outcomes of another one on the tensors that they are read as. -/
def MatchesBinary (f : Tensor α → Tensor α → Build σ (Tensor α))
    (g : Tensor B → Tensor B → Build Unit (Tensor B)) : Prop :=
  ∀ ⦃s S T X Y⦄, V.IsTensor s S X → V.IsTensor s T Y → V.Matches V.IsTensor s (f S T) (g X Y)

/-- Tensor operations have the outcomes of other ones on the tensors that their operands are read
as, as long as the shapes that are asked for are `allowed`. -/
structure Simulates (allowed : Shape → Prop) (O : TensorOps σ α) (P : TensorOps Unit B) : Prop where
  create : ∀ ⦃s shape⦄ f, allowed shape →
    V.Matches V.IsTensor s (O.create shape f) (P.create shape f)
  not : V.MatchesUnary O.not P.not
  or : V.MatchesBinary O.or P.or
  and : V.MatchesBinary O.and P.and
  xor : V.MatchesBinary O.xor P.xor
  equ : V.MatchesBinary O.equ P.equ
  imp : V.MatchesBinary O.imp P.imp
  reindex : ∀ ⦃shape⦄ mapping, allowed shape →
    V.MatchesUnary (O.reindex · shape mapping) (P.reindex · shape mapping)
  any : V.MatchesUnary O.any P.any
  all : V.MatchesUnary O.all P.all

end

theorem isTensor_ofFn_id {T X : Tensor B} : (ofFn id : Valuation σ B B).IsTensor s T X ↔ T = X :=
  isTensor_iff_eq fun _ _ => ⟨trivial, rfl⟩

/-- The outcome of a construction that is read as it is. -/
theorem Runs.outcome_eq {act : Build Unit (Tensor B)} {r : Except Fault (Tensor B)}
    (h : (ofFn id : Valuation Unit B B).Runs (ofFn id).IsTensor () act r) : act.outcome = r := by
  cases h with
  | ok run later is => rw [Build.outcome, run, isTensor_ofFn_id.1 is]
  | error run later => rw [Build.outcome, run]

variable [BooleanAlgebra B]

/-- What is read as the operations over a Boolean algebra has the outcomes of whatever are these
operations. -/
theorem Simulates.of_reads {allowed : Shape → Prop} {O : TensorOps σ α} {P : TensorOps Unit B}
    (reads : V.Reads allowed O) (plain : (ofFn id).Reads allowed P) : V.Simulates allowed O P := by
  have same : ∀ X : Tensor B, (ofFn id).IsTensor () X X := fun X => isTensor_ofFn_id.2 rfl
  have pointwise : ∀ {f g h}, V.Pointwise f h → (ofFn id).Pointwise g h → V.MatchesBinary f g := by
    intro f g h hf hg s S T X Y hS hT
    rw [Matches, (hg (same X) (same Y)).outcome_eq]
    exact hf hS hT
  refine
    { create := ?_
      not := ?_
      or := pointwise reads.or plain.or
      and := pointwise reads.and plain.and
      xor := pointwise reads.xor plain.xor
      equ := pointwise reads.equ plain.equ
      imp := pointwise reads.imp plain.imp
      reindex := ?_
      any := ?_
      all := ?_ }
  · intro s shape f ok
    rw [Matches, (plain.create (s := ()) f ok).outcome_eq]
    exact reads.create f ok
  · intro s T X hT
    rw [Matches, (plain.not (same X)).outcome_eq]
    exact reads.not hT
  · intro shape mapping ok s T X hT
    rw [Matches, (plain.reindex mapping ok (same X)).outcome_eq]
    exact reads.reindex mapping ok hT
  · intro s T X hT
    rw [Matches, (plain.any (same X)).outcome_eq]
    exact reads.any hT
  · intro s T X hT
    rw [Matches, (plain.all (same X)).outcome_eq]
    exact reads.all hT

end Valuation

end BoolCalculus
