import BoolCalculus.Proofs.Rule.Store
import BoolCalculus.Proofs.Universe.TransitiveClosure
import Mathlib.Logic.Relation

/-!
# Closing a relation by rules

An implication and one recursive composition close a relation under a name of their own. Chaining leaves there what walks
relate (`Engine.chain_relates_walks`), and squaring the relation comes to the same (`Tensor.has_squared_iff`). So the
two closures are one tensor (`Universe.forwardChain_closure`).
-/

namespace BoolCalculus

open Relation (TransGen)

variable {σ τ ρ : Type}

/-! ## Squaring and walks -/

namespace Tensor

variable {n k : Nat} {M N : Matrix n Bool} {x y z : Nat}

theorem Has.mono (below : M ≤ N) (h : (ofMatrix M).Has x y) : (ofMatrix N).Has x y := by
  obtain ⟨hx, hy, related⟩ := has_ofMatrix.1 h
  have cell := below ⟨x, hx⟩ ⟨y, hy⟩
  rw [related] at cell
  exact has_ofMatrix.2 ⟨hx, hy, top_le_iff.1 cell⟩

/-- What squares of a relation relate is joined by a walk. -/
theorem transGen_of_has_squared (h : (ofMatrix (Matrix.squared^[k] M)).Has x z) :
    TransGen (ofMatrix M).Has x z := by
  induction k generalizing x z with
  | zero => exact .single h
  | succ k ih =>
      rw [Function.iterate_succ_apply', Matrix.squared, has_sup, has_comp] at h
      rcases h with before | ⟨y, first, second⟩
      · exact ih before
      · exact (ih first).trans (ih second)

/-- With enough rounds, squaring relates what walks relate. -/
theorem has_squared_iff (enough : n < 2 ^ k) :
    (ofMatrix (Matrix.squared^[k] M)).Has x z ↔ TransGen (ofMatrix M).Has x z := by
  constructor
  · exact transGen_of_has_squared
  · intro walk
    have above := Matrix.le_squared_iterate M k
    have transitive := Matrix.comp_squared_iterate_le (M := M) enough
    induction walk with
    | single step => exact step.mono above
    | tail _ step before => exact Has.mono transitive (has_comp.2 ⟨_, before, step.mono above⟩)

end Tensor

/-! ## Rules and walks -/

namespace Engine

open Interpretation

/-- The recursive rules that close the relation `r` under the name `t`: walks get longer at the end, or at the front, or
two walks are joined. -/
inductive Recursive (t r : Text) : Rule → Prop
  | last : Recursive t r ⟨t, .composition t [r]⟩
  | first : Recursive t r ⟨t, .composition r [t]⟩
  | halves : Recursive t r ⟨t, .composition t [t]⟩

/-- Walks are related under `t` and their steps under `r`; any other name relates everything. -/
def walks (t r : Text) (step : Nat → Nat → Prop) : Interpretation where
  Named _ := True
  Related name x y := (name = t → TransGen step x y) ∧ (name = r → step x y)

variable {t r : Text} {step : Nat → Nat → Prop} {rule : Rule} {I : Interpretation} {x z : Nat}

theorem walks_closedUnder_base (other : t ≠ r) : (walks t r step).ClosedUnder ⟨t, .implication r⟩ where
  named _ := trivial
  related := by
    intro _ x z derives
    have here : step x z := derives.2 rfl
    exact ⟨fun _ => .single here, fun same => absurd same other⟩

/-- Walks are closed under each of the recursive rules. -/
theorem walks_closedUnder (other : t ≠ r) (recursive : Recursive t r rule) :
    (walks t r step).ClosedUnder rule where
  named _ := trivial
  related := by
    intro _ x z derives
    cases recursive with
    | last =>
        obtain ⟨y, walk, _, here, rfl⟩ := derives
        exact ⟨fun _ => (walk.1 rfl).tail (here.2 rfl), fun same => absurd same other⟩
    | first =>
        obtain ⟨y, here, _, walk, rfl⟩ := derives
        exact ⟨fun _ => .head (here.2 rfl) (walk.1 rfl), fun same => absurd same other⟩
    | halves =>
        obtain ⟨y, walk, _, walk', rfl⟩ := derives
        exact ⟨fun _ => (walk.1 rfl).trans (walk'.1 rfl), fun same => absurd same other⟩

theorem ofStore_le_walks {rel : ρ → Nat → Nat → Prop} {relations : Keyed ρ} {edge : ρ}
    (found : relations.lookup r = some edge) (new : relations.lookup t = none) :
    ofStore rel relations ≤ walks t r (rel edge) := by
  refine ⟨fun _ _ => trivial, fun name x z related => ⟨?_, ?_⟩⟩
  · rintro rfl
    obtain ⟨a, stored, -⟩ := related
    rw [new] at stored
    cases stored
  · rintro rfl
    exact (related_ofStore found).1 related

/-- What is closed under the rules relates all walks. -/
theorem related_of_walk (base : I.ClosedUnder ⟨t, .implication r⟩) (recursive : Recursive t r rule)
    (closed : I.ClosedUnder rule) (named : I.Named r) (walk : TransGen (I.Related r) x z) :
    I.Related t x z := by
  have single : ∀ x z, I.Related r x z → I.Related t x z :=
    base.related fun name member => List.mem_singleton.1 member ▸ named
  have namedT : I.Named t := base.named fun name member => List.mem_singleton.1 member ▸ named
  have body : ∀ name ∈ rule.body, I.Named name := by
    cases recursive <;> simp [Rule.body, named, namedT]
  have longer := closed.related body
  cases recursive with
  | last =>
      induction walk with
      | single here => exact single _ _ here
      | tail _ here before => exact longer _ _ ⟨_, before, _, here, rfl⟩
  | first =>
      induction walk using TransGen.head_induction_on with
      | single here => exact single _ _ here
      | head here _ after => exact longer _ _ ⟨_, here, _, after, rfl⟩
  | halves =>
      induction walk with
      | single here => exact single _ _ here
      | tail _ here before => exact longer _ _ ⟨_, before, _, single _ _ here, rfl⟩

/-! ## Chaining -/

/-- Engines that runs of chaining lead to, whatever their budgets, while others use the gates. -/
inductive Chained (O : RelationOps σ ρ) (e : Engine σ ρ) : Engine σ ρ → Prop
  | refl : Chained O e e
  | gates {e' : Engine σ ρ} (gates : σ) (before : Chained O e e') : Chained O e { e' with gates }
  | chain {e' : Engine σ ρ} (budget : Int) (before : Chained O e e') :
      Chained O e ((forwardChain O budget).runFrom e').2

variable {O : RelationOps σ ρ} {accepted : ρ → Prop} {rel : ρ → Nat → Nat → Prop} {e e' : Engine σ ρ}
variable (computes : O.Computes accepted rel)

include computes

/-- Earlier chainings have only made progress. -/
theorem Chained.progress (stored : Accepted accepted e.relations) (chained : Chained O e e') :
    Progress accepted rel e e' := by
  induction chained with
  | refl => exact .of_same rfl rfl stored
  | gates _ _ before => exact before.trans (.of_same rfl rfl before.stored)
  | chain budget _ before =>
      obtain ⟨_, _, run, after, _⟩ := passes_ensures computes budget budget.toNat 0 before.stored
      have run : (forwardChain O budget).runFrom _ = _ := run
      rw [run]
      exact before.trans after

theorem Chained.rewrites (stored : Accepted accepted e.relations) (chained : Chained O e e') :
    Rewrites accepted e e' := by
  induction chained with
  | refl => exact SameStore.rewrites ⟨rfl, rfl⟩ stored
  | gates _ _ before => exact before.trans (SameStore.rewrites ⟨rfl, rfl⟩ before.stored)
  | chain budget _ before =>
      exact before.trans (forwardChain_ends computes.keeps budget before.stored).after

/-- Chaining with an implication and a recursive rule keeps the relation and relates its walks. -/
theorem chain_relates_walks (stored : Accepted accepted e.relations) {edge : ρ}
    (found : e.relations.lookup r = some edge) (new : e.relations.lookup t = none)
    (recursive : Recursive t r rule)
    (rules : e.rules = [⟨t, .implication r⟩, rule] ∨ e.rules = [rule, ⟨t, .implication r⟩])
    (chained : Chained O e e') (budget : Int) :
    (forwardChain O budget).Ensures e' fun outcome e'' => e''.relations.lookup r = some edge ∧
      (outcome.warning? = none → ∃ closed, e''.relations.lookup t = some closed ∧ accepted closed ∧
        ∀ x z, rel closed x z ↔ TransGen (rel edge) x z) := by
  have other : t ≠ r := by
    rintro rfl
    rw [new] at found
    cases found
  have members : ∀ s, s ∈ e.rules ↔ s = ⟨t, .implication r⟩ ∨ s = rule := by
    intro s
    rcases rules with rules | rules
    · simp [rules]
    · simp [rules, or_comm]
  have heads : ∀ s ∈ e.rules, s.head ≠ r := by
    intro s member
    rcases (members s).1 member with rfl | rfl
    · exact other
    · cases recursive <;> exact other
  have before := chained.progress computes stored
  obtain ⟨outcome, e'', run, after, settled⟩ :=
    passes_ensures computes budget budget.toNat 0 before.stored
  have run : (forwardChain O budget).runFrom e' = (.ok outcome, e'') := run
  have whole : Chained O e e'' := by
    have next := chained.chain budget
    rwa [run] at next
  have kept : e''.relations.lookup r = some edge :=
    ((whole.rewrites computes stored).others r heads).trans found
  refine ⟨outcome, e'', run, kept, fun quiet => ?_⟩
  have closed : ∀ s ∈ e.rules, (ofStore rel e''.relations).ClosedUnder s :=
    before.rules ▸ settled quiet
  have base := closed _ ((members _).2 (.inl rfl))
  have step := closed _ ((members _).2 (.inr rfl))
  have named : (ofStore rel e''.relations).Named r := ⟨edge, kept⟩
  obtain ⟨path, there⟩ := base.named fun name member => List.mem_singleton.1 member ▸ named
  have progress := whole.progress computes stored
  refine ⟨path, there, progress.stored t path there, fun x z => ⟨fun related => ?_, fun walk => ?_⟩⟩
  · -- The walks are closed under the rules and above the store at the start, so chaining stays below them.
    have model : ∀ s ∈ e.rules, (walks t r (rel edge)).ClosedUnder s := by
      intro s member
      rcases (members s).1 member with rfl | rfl
      · exact walks_closedUnder_base other
      · exact walks_closedUnder other recursive
    have within := progress.sound _ model (ofStore_le_walks found new)
    exact (within.2 t x z ((related_ofStore there).2 related)).1 rfl
  · have here : ∀ x z, rel edge x z → (ofStore rel e''.relations).Related r x z := fun _ _ =>
      (related_ofStore kept).2
    have walked := related_of_walk base recursive step named (TransGen.mono here x z walk)
    exact (related_ofStore there).1 walked

end Engine

namespace Universe

open Engine

variable {n : Nat} {O : TensorOps σ Bool} {R : RelationOps τ ρ} {content : ρ → Tensor Bool}

/-- The closure of a matrix is a square of it. -/
theorem TruthOps.closure_yields (ops : TruthOps n O) (M : Matrix n Bool) (s : σ) :
    ((mk O n).closure (.ofMatrix M) false).Yields s (.ofMatrix (Matrix.squared^[(mk O n).rounds] M)) := by
  obtain ⟨_, reads, _, cube⟩ := ops.reads
  exact (reads.runs_square cube _ (Valuation.isMatrix_ofMatrix M)).yields

/-- Closing a relation by rules and by squaring comes to one tensor. The relation `edge` is stored under `r`, nothing is
stored under `t`, and the rules are the implication and one of the recursive rules, in either order. Then chaining,
whatever chaining came before, keeps `edge`, and unless it warns it leaves the transitive closure of `edge` under `t`. -/
theorem forwardChain_closure (ops : TruthOps n O) (offers : (mk O n).Offers R content)
    {e e' : Engine τ ρ} (reachable : Reachable R e) {t r : Text} {edge : ρ} {rule : Rule}
    (found : e.relations.lookup r = some edge) (new : e.relations.lookup t = none)
    (recursive : Recursive t r rule)
    (rules : e.rules = [⟨t, .implication r⟩, rule] ∨ e.rules = [rule, ⟨t, .implication r⟩])
    (chained : Chained R e e') (budget : Int) :
    ∃ outcome e'', (forwardChain R budget).runFrom e' = (.ok outcome, e'') ∧
      e''.relations.lookup r = some edge ∧
      (outcome.warning? = none → ∃ closed, e''.relations.lookup t = some closed ∧
        ∀ s, ((mk O n).closure (content edge) false).Yields s (content closed)) := by
  have computes := offers.computes ops
  have stored := reachable.stored computes.keeps
  obtain ⟨outcome, e'', run, kept, closes⟩ :=
    chain_relates_walks computes stored found new recursive rules chained budget
  refine ⟨outcome, e'', run, kept, fun quiet => ?_⟩
  obtain ⟨closed, there, square, related⟩ := closes quiet
  refine ⟨closed, there, fun s => ?_⟩
  obtain ⟨M, isM⟩ := Tensor.exists_ofMatrix (stored r edge found)
  obtain ⟨N, isN⟩ := Tensor.exists_ofMatrix square
  rw [isM, isN] at related
  have enough := (mk O n).size_lt_two_pow_rounds
  have same : Matrix.squared^[(mk O n).rounds] M = N := by
    refine Tensor.matrix_eq_iff.1 fun x y => ?_
    rw [Tensor.has_squared_iff enough, related]
  rw [isM, isN, ← same]
  exact ops.closure_yields M s

/-- A chain of three points, closed by joining walks. The recursive rule comes first, and the first pass skips it. -/
theorem forwardChain_closure_chain :
    let edge : Tensor Bool := .ofFn [3, 3] fun coord _ => coord[1]? == coord[0]?.map (· + 1)
    let R : RelationOps Unit (Tensor Bool) := (mk .dense 3).relationOps
    let e : Engine Unit (Tensor Bool) :=
      ⟨(), [("edge", edge)], [⟨"path", .composition "path" ["path"]⟩, ⟨"path", .implication "edge"⟩]⟩
    Reachable R e ∧ ∃ e' closed, (forwardChain R 10).runFrom e = (.ok (.settled 3), e') ∧
      e'.relations.lookup ("edge" : Text) = some edge ∧ e'.relations.lookup ("path" : Text) = some closed ∧
      ((mk .dense 3 : Universe Unit Bool).closure edge false).Yields () closed := by
  intro edge R e
  have reachable : Reachable R e :=
    .addRule "path" ["edge"] "implication" <| .addRule "path" ["path", "path"] "composition" <|
      .setRelation "edge" edge (.start ())
  obtain ⟨outcome, e', run, kept, closes⟩ :=
    forwardChain_closure .dense .tensors reachable (t := "path") (r := "edge") rfl rfl .halves (.inr rfl)
      .refl 10
  have settled : ((forwardChain R 10).runFrom e).1.toOption = some (.settled 3) := by decide +kernel
  rw [run] at settled
  obtain rfl := Option.some.inj settled
  obtain ⟨closed, there, yields⟩ := closes rfl
  exact ⟨reachable, e', closed, run, kept, there, yields ()⟩

end Universe

end BoolCalculus
