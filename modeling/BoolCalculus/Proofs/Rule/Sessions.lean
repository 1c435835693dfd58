import BoolCalculus.Proofs.Rule.Chaining
import BoolCalculus.Proofs.Rule.Relations

/-!
# Sessions of an engine of rules

An engine is used by adding rules, setting relations and chaining, in any order. After every call the store lies
between the relations that were set and the least model of these and of the rules, and a run of forward
chaining that ends without its warning leaves the least model (`Universe.forwardChain_leastModel`).
-/

namespace BoolCalculus

namespace Engine

open Interpretation

variable {σ ρ : Type}

/-- What calls make of a new engine, and the relations that they set. A name that is stored may only be set to a
relation that contains the one stored. A call may also be refused, which sets nothing. -/
inductive Reached (O : RelationOps σ ρ) (rel : ρ → Nat → Nat → Prop) :
    List (Text × ρ) → Engine σ ρ → Prop
  | start (gates : σ) : Reached O rel [] ⟨gates, [], []⟩
  | addRule {facts : List (Text × ρ)} {e e' : Engine σ ρ} {answer : Except Fault Unit}
      (head : Text) (body : List Text) (type : Text) (before : Reached O rel facts e)
      (run : (addRule head body type).runFrom e = (answer, e')) : Reached O rel facts e'
  | setRelation {facts : List (Text × ρ)} {e e' : Engine σ ρ} (name : Text) (R : ρ)
      (before : Reached O rel facts e)
      (contains : ∀ old, e.relations.lookup name = some old → ∀ x y, rel old x y → rel R x y)
      (run : (setRelation O name R).runFrom e = (.ok (), e')) : Reached O rel ((name, R) :: facts) e'
  | refused {facts : List (Text × ρ)} {e e' : Engine σ ρ} {f : Fault} (name : Text) (R : ρ)
      (before : Reached O rel facts e)
      (run : (setRelation O name R).runFrom e = (.error f, e')) : Reached O rel facts e'
  | forwardChain {facts : List (Text × ρ)} {e e' : Engine σ ρ} {answer : Except Fault ChainEnd}
      (budget : Int) (before : Reached O rel facts e)
      (run : (forwardChain O budget).runFrom e = (answer, e')) : Reached O rel facts e'

/-- The store is accepted and lies between the facts and the least model. -/
structure Between (accepted : ρ → Prop) (rel : ρ → Nat → Nat → Prop) (facts : List (Text × ρ))
    (e : Engine σ ρ) : Prop where
  stored : Accepted accepted e.relations
  facts_le : ofFacts rel facts ≤ ofStore rel e.relations
  le_least : ofStore rel e.relations ≤ leastModel (ofFacts rel facts) e.rules

variable {O : RelationOps σ ρ} {accepted : ρ → Prop} {rel : ρ → Nat → Nat → Prop}
variable {facts : List (Text × ρ)} {e e' : Engine σ ρ}

theorem Between.start (gates : σ) : Between accepted rel [] (⟨gates, [], []⟩ : Engine σ ρ) where
  stored _ _ found := by simp at found
  facts_le := by
    constructor
    · intro name named
      rcases named with ⟨a, member⟩
      simp at member
    · intro name x y holds
      rcases holds with ⟨a, member, _⟩
      simp at member
  le_least := by
    constructor
    · intro name named
      rcases named with ⟨a, found⟩
      simp at found
    · intro name x y holds
      rcases holds with ⟨a, found, _⟩
      simp at found

/-- Nothing is lost by adding rules. -/
theorem Between.addRule (h : Between accepted rel facts e) {head : Text} {body : List Text} {type : Text}
    {answer : Except Fault Unit} (run : (addRule head body type).runFrom e = (answer, e')) :
    Between accepted rel facts e' := by
  rw [Engine.addRule, Build.runFrom_bind, Build.runFrom_ofExcept] at run
  cases made : Rule.ofNames head body type with
  | error f =>
      rw [made] at run
      obtain rfl := (Prod.mk.inj run).2
      exact h
  | ok r =>
      rw [made] at run
      obtain rfl := (Prod.mk.inj run).2
      refine ⟨h.stored, h.facts_le, h.le_least.trans (leastModel_mono le_rfl ?_)⟩
      exact fun r member => List.mem_append_left _ member

theorem run_setRelation (O : RelationOps σ ρ) (name : Text) (R : ρ) (e : Engine σ ρ) :
    (setRelation O name R).runFrom e = match (O.require R).runFrom e.gates with
      | (.ok (), g) => (.ok (), { e with gates := g, relations := e.relations.put name R })
      | (.error f, g) => (.error f, { e with gates := g }) := by
  rw [Engine.setRelation, Build.runFrom_bind, onGates, Build.runFrom_onPart]
  rcases (O.require R).runFrom e.gates with ⟨⟨⟩ | f, g⟩ <;> rfl

/-- A relation that contains the one it replaces is a new fact. -/
theorem Between.setRelation (computes : O.Computes accepted rel) (h : Between accepted rel facts e)
    {name : Text} {R : ρ}
    (contains : ∀ old, e.relations.lookup name = some old → ∀ x y, rel old x y → rel R x y)
    (run : (setRelation O name R).runFrom e = (.ok (), e')) :
    Between accepted rel ((name, R) :: facts) e' := by
  have ok : accepted R := by
    by_contra other
    obtain ⟨f, g, refused⟩ := computes.refuse e.gates R other
    rw [run_setRelation, refused] at run
    simp at run
  obtain ⟨⟨⟩, g, required, _⟩ := computes.require e.gates R ok
  rw [run_setRelation, required] at run
  obtain rfl := (Prod.mk.inj run).2
  have more : ofFacts rel facts ≤ ofFacts rel ((name, R) :: facts) := by
    constructor
    · intro other named
      rcases named with ⟨a, member⟩
      exact ⟨a, .tail _ member⟩
    · intro other x y holds
      rcases holds with ⟨a, member, related⟩
      exact ⟨a, .tail _ member, related⟩
  have model : IsModel (ofFacts rel ((name, R) :: facts)) e.rules _ := isModel_leastModel
  refine ⟨accepted_put h.stored ok, ⟨?_, ?_⟩, ?_⟩
  · intro other named
    rcases named with ⟨a, member⟩
    rcases List.mem_cons.1 member with here | before
    · obtain ⟨rfl, rfl⟩ := Prod.mk.inj here
      exact ⟨a, Keyed.lookup_put_self e.relations other a⟩
    · exact (ofStore_le_put contains).1 _ (h.facts_le.1 other ⟨a, before⟩)
  · intro other x y holds
    rcases holds with ⟨a, member, related⟩
    rcases List.mem_cons.1 member with here | before
    · obtain ⟨rfl, rfl⟩ := Prod.mk.inj here
      exact ⟨a, Keyed.lookup_put_self e.relations other a, related⟩
    · exact (ofStore_le_put contains).2 _ _ _ (h.facts_le.2 other x y ⟨a, before, related⟩)
  · refine ofStore_put_le (h.le_least.trans (leastModel_mono more fun _ => id)) ?_ ?_
    · exact model.facts_le.1 name ⟨R, .head _⟩
    · exact fun x y related => model.facts_le.2 name x y ⟨R, .head _, related⟩

/-- A refused relation changes neither the store nor the facts. -/
theorem Between.refused (h : Between accepted rel facts e) {name : Text} {R : ρ} {f : Fault}
    (run : (Engine.setRelation O name R).runFrom e = (.error f, e')) :
    Between accepted rel facts e' := by
  rw [run_setRelation] at run
  rcases required : (O.require R).runFrom e.gates with ⟨f' | ⟨⟩, g⟩
  · rw [required] at run
    obtain rfl := (Prod.mk.inj run).2
    exact ⟨h.stored, h.facts_le, h.le_least⟩
  · rw [required] at run
    simp at run

/-- Chaining adds what the rules derive, so the store stays below the least model. -/
theorem Between.progress (h : Between accepted rel facts e) (made : Progress accepted rel e e') :
    Between accepted rel facts e' where
  stored := made.stored
  facts_le := h.facts_le.trans made.grows
  le_least := by
    rw [made.rules]
    exact made.sound _ isModel_leastModel.closed h.le_least

/-- Every call keeps the store between the facts and the least model. -/
theorem Reached.between (computes : O.Computes accepted rel) (h : Reached O rel facts e) :
    Between accepted rel facts e := by
  induction h with
  | start gates => exact .start gates
  | addRule _ _ _ _ run ih => exact ih.addRule run
  | setRelation _ _ _ contains run ih => exact ih.setRelation computes contains run
  | refused _ _ _ run ih => exact ih.refused run
  | @forwardChain _ e _ _ budget _ run ih =>
      obtain ⟨_, _, run', progress, _⟩ := passes_ensures computes budget budget.toNat 0 ih.stored
      have run := run
      rw [Engine.forwardChain, run'] at run
      obtain rfl := (Prod.mk.inj run).2
      exact ih.progress progress

/-- Chaining succeeds from every engine that calls lead to, and leaves the least model unless it warns. -/
theorem Reached.forwardChain_ensures (computes : O.Computes accepted rel)
    (h : Reached O rel facts e) (budget : Int) :
    (Engine.forwardChain O budget).Ensures e fun outcome e' => outcome.warning? = none →
      ofStore rel e'.relations = leastModel (ofFacts rel facts) e.rules := by
  have before := h.between computes
  refine (passes_ensures computes budget budget.toNat 0 before.stored).mono ?_
  intro outcome e' made quiet
  rcases made with ⟨progress, settled⟩
  have after := before.progress progress
  refine le_antisymm (progress.rules ▸ after.le_least) (leastModel_le ?_)
  exact ⟨after.facts_le, settled quiet⟩

end Engine

namespace Universe

open Engine Interpretation

variable {σ ρ : Type} {n : Nat}

/-- The tensor operations on truth values of a universe: dense ones, lifted ones over the two-element
algebra, and these as far as the cube that a composition goes through can be stored. -/
inductive TruthOps (n : Nat) : TensorOps σ Bool → Prop
  | dense : TruthOps n .dense
  | lifted (check : Bool) : TruthOps n (.lifted (.boolean check))
  | stored (check : Bool) (cube : (Shape.rectangular 3 n).checkStorage = .ok ()) :
      TruthOps n (TensorOps.lifted (.boolean check)).stored

/-- Such operations compute on truth values, and can store what relations go through. -/
theorem TruthOps.reads {O : TensorOps σ Bool} (h : TruthOps n O) : ∃ allowed : Shape → Prop,
    (Valuation.ofFn id).Reads allowed O ∧ allowed (.rectangular 2 n) ∧ allowed (.rectangular 3 n) := by
  have lifted : ∀ check, (Valuation.ofFn id).Reads (fun _ => True)
      (TensorOps.lifted (.boolean check : GateSet σ Bool)) := fun check =>
    .lifted (Valuation.respects_boolean Valuation.readsTruths_ofFn check)
  cases h with
  | dense =>
      have square := Tensor.isSome_axes?_rectangular 2 n
      have cube := Tensor.isSome_axes?_rectangular 3 n
      exact ⟨_, .dense fun _ _ => ⟨trivial, rfl⟩, square, cube⟩
  | lifted check => exact ⟨_, lifted check, trivial, trivial⟩
  | stored check cube =>
      exact ⟨_, (lifted check).stored, ⟨trivial, Shape.checkStorage_square cube⟩, trivial, cube⟩

/-- Tensors of truth values compute on the relations that they hold. -/
theorem TruthOps.computes {O : TensorOps σ Bool} (h : TruthOps n O) :
    (mk O n).relationOps.Computes (fun R => R.axes = [n, n]) Tensor.Has := by
  obtain ⟨_, reads, square, cube⟩ := h.reads
  exact reads.computes square cube

/-- What such a universe offers to an engine: its tensors as relations, with labels or without. -/
inductive EngineOps (n : Nat) : {σ ρ : Type} → RelationOps σ ρ → (ρ → Nat → Nat → Prop) → Prop
  | tensors {σ : Type} {O : TensorOps σ Bool} (ops : TruthOps n O) :
      EngineOps n (mk O n).relationOps Tensor.Has
  | labelled {σ : Type} {O : TensorOps σ Bool} (ops : TruthOps n O) :
      EngineOps n (mk O n).relationOps.labelled fun R => R.content.Has

theorem EngineOps.computes {R : RelationOps σ ρ} {rel : ρ → Nat → Nat → Prop}
    (h : EngineOps n R rel) : ∃ accepted, R.Computes accepted rel := by
  cases h with
  | tensors ops => exact ⟨_, ops.computes⟩
  | labelled ops => exact ⟨_, ops.computes.labelled⟩

/-- Forward chaining computes the least model. After every call every stored name is one of the least model,
and its relation lies between its facts and its relation in the least model. Forward chaining with any budget
succeeds, and unless it warns, what is stored then is the least model. -/
theorem forwardChain_leastModel {R : RelationOps σ ρ} {rel : ρ → Nat → Nat → Prop}
    (ops : EngineOps n R rel) {facts : List (Text × ρ)} {e : Engine σ ρ}
    (reached : Reached R rel facts e) :
    ofFacts rel facts ≤ ofStore rel e.relations ∧
    ofStore rel e.relations ≤ leastModel (ofFacts rel facts) e.rules ∧
    ∀ budget, ∃ outcome e', (forwardChain R budget).runFrom e = (.ok outcome, e') ∧
      (outcome.warning? = none →
        ofStore rel e'.relations = leastModel (ofFacts rel facts) e.rules) := by
  obtain ⟨accepted, computes⟩ := ops.computes
  have between := reached.between computes
  exact ⟨between.facts_le, between.le_least, reached.forwardChain_ensures computes⟩

/-- One relation and its inverse: the second pass changes nothing, and leaves the least model. -/
theorem forwardChain_leastModel_inverse :
    let edge : Tensor Bool := .ofFn [2, 2] fun c _ => c == [0, 1]
    let e : Engine Unit (Tensor Bool) := ⟨(), [("edge", edge)], [⟨"back", .inverse "edge"⟩]⟩
    Reached (mk .dense 2).relationOps Tensor.Has [("edge", edge)] e ∧
    ∃ e', (forwardChain (mk .dense 2).relationOps 10).runFrom e = (.ok (.settled 2), e') ∧
      ofStore Tensor.Has e'.relations =
        leastModel (ofFacts Tensor.Has [("edge", edge)]) e.rules := by
  intro edge e
  have reached : Reached (mk .dense 2).relationOps Tensor.Has [("edge", edge)] e :=
    .addRule "back" ["edge"] "inverse" (.setRelation "edge" edge (.start ()) (by simp) rfl) rfl
  obtain ⟨outcome, e', run, least⟩ := (forwardChain_leastModel (.tensors .dense) reached).2.2 10
  have settled : ((forwardChain (mk .dense 2).relationOps 10).runFrom e).1.toOption =
      some (.settled 2) := by decide +kernel
  rw [run] at settled
  obtain rfl := Option.some.inj settled
  exact ⟨reached, e', run, least rfl⟩

end Universe

end BoolCalculus
