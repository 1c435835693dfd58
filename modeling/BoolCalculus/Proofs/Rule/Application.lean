import BoolCalculus.Proofs.Rule.Store
import BoolCalculus.Proofs.Valuation
import Mathlib.Logic.Relation

/-!
# Applying rules

A composition relates the two ends of every path that steps through the relations of its body, in their order
(`composite_iff_path`). So a body may be cut anywhere, and inverted from its end (`composite_append`,
`flip_composite`), and what a rule derives grows with the relations of its body. All this is what an engine answers
if a rule is applied to it (`Universe.applyRule_chains`).
-/

namespace BoolCalculus

open Relation (Comp)

variable {σ τ ρ : Type}

/-! ## Relations one after the other -/

/-- Relations composed in their order. No relation at all is composed to the equality. -/
def composite (rels : List (Nat → Nat → Prop)) : Nat → Nat → Prop :=
  rels.foldr Comp Eq

theorem composite_cons (rel : Nat → Nat → Prop) (rels : List (Nat → Nat → Prop)) :
    composite (rel :: rels) = Comp rel (composite rels) := rfl

theorem composite_append (rels rels' : List (Nat → Nat → Prop)) :
    composite (rels ++ rels') = Comp (composite rels) (composite rels') := by
  induction rels with
  | nil => exact Relation.eq_comp.symm
  | cons rel rels ih => rw [List.cons_append, composite_cons, ih, composite_cons, Relation.comp_assoc]

/-- The inverse of a composite is that of the inverses in reverse. -/
theorem flip_composite (rels : List (Nat → Nat → Prop)) :
    flip (composite rels) = composite (rels.map flip).reverse := by
  induction rels with
  | nil =>
      funext x z
      exact propext eq_comm
  | cons rel rels ih =>
      have last : composite [flip rel] = flip rel := Relation.comp_eq
      rw [composite_cons, Relation.flip_comp, ih, List.map_cons, List.reverse_cons, composite_append, last]

/-- Two points are related by a composition if a path leads from one to the other, each step in the next relation. -/
theorem composite_iff_path {rels : List (Nat → Nat → Prop)} {x z : Nat} :
    composite rels x z ↔ ∃ y : Nat → Nat, y 0 = x ∧ y rels.length = z ∧
      ∀ i (h : i < rels.length), rels[i] (y i) (y (i + 1)) := by
  induction rels generalizing x with
  | nil =>
      constructor
      · intro same
        exact ⟨fun _ => x, rfl, same, nofun⟩
      · rintro ⟨y, start, stop, -⟩
        exact start.symm.trans stop
  | cons rel rels ih =>
      rw [composite_cons]
      constructor
      · rintro ⟨w, first, rest⟩
        obtain ⟨y, start, stop, steps⟩ := ih.1 rest
        refine ⟨fun | 0 => x | i + 1 => y i, rfl, stop, fun i inside => ?_⟩
        cases i with
        | zero =>
            show rel x (y 0)
            rwa [start]
        | succ i => exact steps i (Nat.lt_of_succ_lt_succ inside)
      · rintro ⟨y, start, stop, steps⟩
        have first : rel (y 0) (y 1) := steps 0 (Nat.succ_pos _)
        rw [start] at first
        refine ⟨y 1, first, ih.2 ⟨fun i => y (i + 1), rfl, stop, fun i inside => ?_⟩⟩
        exact steps (i + 1) (Nat.succ_lt_succ inside)

namespace Interpretation

variable {I J : Interpretation} {r : Rule} {x z : Nat}

theorem chain_eq_composite (names : List Text) : I.Chain names = composite (names.map I.Related) := by
  induction names with
  | nil => rfl
  | cons name names ih =>
      rw [List.map_cons, composite_cons, ← ih]
      rfl

/-- What a rule of that type derives is the composition of its body. -/
theorem derives_composition (type : r.type = .composition) :
    I.Derives r x z ↔ composite (r.body.map I.Related) x z := by
  rw [← chain_eq_composite]
  obtain ⟨head, premise⟩ := r
  cases premise with
  | composition first rest => exact Iff.rfl
  | inverse source => cases type
  | implication source => cases type

variable {rel : ρ → Nat → Nat → Prop} {relations : Keyed ρ} {names : List Text}

/-- Names that are all stored have relations, one after the other. -/
theorem exists_mapM_lookup (named : ∀ name ∈ names, (ofStore rel relations).Named name) :
    ∃ as, names.mapM (relations.lookup ·) = some as ∧
      as.map rel = names.map (ofStore rel relations).Related := by
  induction names with
  | nil => exact ⟨[], rfl, rfl⟩
  | cons name names ih =>
      obtain ⟨⟨a, found⟩, others⟩ := List.forall_mem_cons.1 named
      obtain ⟨as, rest, same⟩ := ih others
      have here : rel a = (ofStore rel relations).Related name := by
        funext x y
        exact propext (related_ofStore found).symm
      refine ⟨a :: as, ?_, by rw [List.map_cons, List.map_cons, here, same]⟩
      rw [List.mapM_cons, found, rest]
      rfl

end Interpretation

/-! ## Operations on several relations -/

namespace RelationOps.Computes

variable {O : RelationOps σ ρ} {accepted : ρ → Prop} {rel : ρ → Nat → Nat → Prop} {as : List ρ}
variable (computes : O.Computes accepted rel)

include computes

theorem foldl_circ (ok : ∀ b ∈ as, accepted b) {a : ρ} (okA : accepted a) (s : σ) :
    (as.foldlM O.circ a).Ensures s fun d _ => accepted d ∧ rel d = composite ((a :: as).map rel) := by
  induction as generalizing a s with
  | nil => exact .pure ⟨okA, Relation.comp_eq.symm⟩
  | cons b as ih =>
      obtain ⟨okB, others⟩ := List.forall_mem_cons.1 ok
      refine (computes.circ s a b okA okB).bind ?_
      rintro c t ⟨okC, composed⟩
      have both : rel c = Comp (rel a) (rel b) := by
        funext x z
        exact propext (composed x z)
      refine (ih others okC t).mono ?_
      rintro d _ ⟨okD, same⟩
      refine ⟨okD, same.trans ?_⟩
      simp only [List.map_cons, composite_cons, both, Relation.comp_assoc]

theorem mapM_inv (ok : ∀ a ∈ as, accepted a) (s : σ) :
    (as.mapM O.inv).Ensures s fun bs _ => (∀ b ∈ bs, accepted b) ∧ bs.map rel = (as.map rel).map flip := by
  induction as generalizing s with
  | nil => exact .pure ⟨List.forall_mem_nil _, rfl⟩
  | cons a as ih =>
      obtain ⟨okA, others⟩ := List.forall_mem_cons.1 ok
      rw [List.mapM_cons]
      refine (computes.inv s a okA).bind ?_
      rintro b t ⟨okB, inverted⟩
      have here : rel b = flip (rel a) := by
        funext x y
        exact propext (inverted x y)
      refine (ih others t).bind ?_
      rintro bs _ ⟨okBs, same⟩
      exact .pure ⟨List.forall_mem_cons.2 ⟨okB, okBs⟩, by simp only [List.map_cons, here, same]⟩

end RelationOps.Computes

namespace Universe

variable {n : Nat} {O : TensorOps σ Bool}

/-- Relations composed from the left, one after the other. No relation at all is composed to the diagonal. -/
def composeAll {α : Type} [Shown α] (U : Universe σ α) : List (Tensor α) → Build σ (Tensor α)
  | [] => U.diag
  | R :: Rs => Rs.foldlM U.circ R

/-- The inverses of relations, composed from the last to the first, are the inverse of the composition. -/
theorem composeAll_inverted (ops : TruthOps n O) {Rs : List (Tensor Bool)} (nonempty : Rs ≠ [])
    (square : ∀ R ∈ Rs, R.axes = [n, n]) (s : σ) :
    (do (mk O n).composeAll (← Rs.reverse.mapM (mk O n).inv)).Ensures s fun T _ =>
      T.axes = [n, n] ∧ T.Has = flip (composite (Rs.map Tensor.Has)) := by
  have members : ∀ R ∈ Rs.reverse, R.axes = [n, n] := fun R member => square R (List.mem_reverse.1 member)
  refine (ops.computes.mapM_inv members s).bind ?_
  rintro (_ | ⟨S, Ss⟩) t ⟨squareS, inverted⟩
  · have empty := congrArg List.length inverted
    simp only [List.length_map, List.length_reverse, List.length_nil] at empty
    exact absurd (List.length_eq_zero_iff.1 empty.symm) nonempty
  · obtain ⟨first, others⟩ := List.forall_mem_cons.1 squareS
    refine (ops.computes.foldl_circ others first t).mono ?_
    rintro T _ ⟨squareT, composed⟩
    refine ⟨squareT, composed.trans ?_⟩
    rw [inverted, List.map_reverse, List.map_reverse, flip_composite]

end Universe

/-! ## Answers -/

namespace Engine

open Interpretation

/-- If a rule is applied to an engine, the store stays, and the answer is a relation with that content, or none. -/
def Answers (R : RelationOps τ ρ) (content : ρ → Tensor Bool) (e : Engine τ ρ) (r : Rule)
    (T? : Option (Tensor Bool)) : Prop :=
  (applyRule R r).Ensures e fun d? e' => d?.map content = T? ∧ SameStore e e'

variable {R : RelationOps τ ρ} {content : ρ → Tensor Bool} {n : Nat} {e : Engine τ ρ}
variable {r : Rule} {T : Tensor Bool}
variable (computes : R.Computes (fun a => (content a).axes = [n, n]) fun a => (content a).Has)
variable (stored : Accepted (fun a => (content a).axes = [n, n]) e.relations)

include computes stored

/-- Every rule has an answer, which is none just if a body relation is missing. -/
theorem exists_answers (r : Rule) : ∃ T?, Answers R content e r T? ∧
    (T? = none ↔ ∃ name ∈ r.body, e.relations.lookup name = none) := by
  obtain ⟨d?, e', run, derived, relations, rules⟩ := applyRule_ensures computes stored r
  refine ⟨d?.map content, ⟨d?, e', run, rfl, relations, rules⟩, ?_⟩
  cases d? with
  | none =>
      refine ⟨fun _ => ?_, fun _ => rfl⟩
      by_contra all
      refine derived fun name member => ?_
      cases found : e.relations.lookup name with
      | none => exact absurd ⟨name, member, found⟩ all
      | some a => exact ⟨a, found⟩
  | some d =>
      refine ⟨nofun, ?_⟩
      rintro ⟨name, member, missing⟩
      exact absurd (derived.1 name member) (not_named_ofStore missing)

/-- A rule has an answer if all names of its body are stored. -/
theorem exists_answers_some
    (named : ∀ name ∈ r.body, (ofStore (fun a => (content a).Has) e.relations).Named name) :
    ∃ T, Answers R content e r (some T) := by
  obtain ⟨T?, answers, missing⟩ := exists_answers computes stored r
  cases T? with
  | none =>
      obtain ⟨name, member, new⟩ := missing.1 rfl
      exact absurd (named name member) (not_named_ofStore new)
  | some T => exact ⟨T, answers⟩

/-- A relation that is answered is the one that the rule derives. -/
theorem Answers.derived (answers : Answers R content e r (some T)) :
    (∀ name ∈ r.body, (ofStore (fun a => (content a).Has) e.relations).Named name) ∧ T.axes = [n, n] ∧
      ∀ x z, T.Has x z ↔ (ofStore (fun a => (content a).Has) e.relations).Derives r x z := by
  obtain ⟨d?, e', -, ⟨same, -⟩, derived, -⟩ := answers.and (applyRule_ensures computes stored r)
  cases d? with
  | none => cases same
  | some d =>
      obtain rfl : content d = T := Option.some.inj same
      exact derived

/-- The answer of a composition are the ends of paths through its relations. -/
theorem Answers.path (answers : Answers R content e r (some T)) (type : r.type = .composition) (x z : Nat) :
    T.Has x z ↔ ∃ y : Nat → Nat, y 0 = x ∧ y r.body.length = z ∧ ∀ i (h : i < r.body.length),
      ∃ b, e.relations.lookup r.body[i] = some b ∧ (content b).Has (y i) (y (i + 1)) := by
  obtain ⟨-, -, related⟩ := answers.derived computes stored
  rw [related, derives_composition type, composite_iff_path]
  simp only [List.length_map, List.getElem_map]
  rfl

/-- A rule with one body relation hands on that relation or its inverse. -/
theorem Answers.single (answers : Answers R content e r (some T)) {source : Text} {b : ρ}
    (found : e.relations.lookup source = some b) (x y : Nat) :
    (r.premise = .inverse source → (T.Has x y ↔ (content b).Has y x)) ∧
    (r.premise = .implication source → (T.Has x y ↔ (content b).Has x y)) := by
  obtain ⟨-, -, derives⟩ := answers.derived computes stored
  rw [derives, Derives]
  constructor
  · intro premise
    rw [premise]
    exact related_ofStore found
  · intro premise
    rw [premise]
    exact related_ofStore found

/-- What is answered grows with the stored relations. Only names that both engines store are compared. -/
theorem Answers.mono {e' : Engine τ ρ} {T' : Tensor Bool} (answers : Answers R content e r (some T))
    (stored' : Accepted (fun a => (content a).axes = [n, n]) e'.relations)
    (below : ∀ name a a', e.relations.lookup name = some a → e'.relations.lookup name = some a' →
      ∀ x y, (content a).Has x y → (content a').Has x y)
    (answers' : Answers R content e' r (some T')) (x z : Nat) (related : T.Has x z) : T'.Has x z := by
  obtain ⟨-, -, derives⟩ := answers.derived computes stored
  obtain ⟨named', -, derives'⟩ := answers'.derived computes stored'
  refine (derives' x z).2 (Derives.mono_on ?_ ((derives x z).1 related))
  rintro name member x y ⟨a, found, here⟩
  obtain ⟨a', found'⟩ := named' name member
  exact ⟨a', found', below name a a' found found' x y here⟩

end Engine

namespace Universe

open Engine Interpretation

/-- What applying rules to an engine answers. Compositions answer the ends of paths through their bodies; so they may
be cut in two, and reversed by the inverses from the end. -/
structure ChainsBodies (U : Universe σ Bool) (R : RelationOps τ ρ) (content : ρ → Tensor Bool)
    (e : Engine τ ρ) : Prop where
  answers : ∀ r, ∃ T?, Answers R content e r T? ∧
    (T? = none ↔ ∃ name ∈ r.body, e.relations.lookup name = none)
  square : ∀ {r T}, Answers R content e r (some T) → T.axes = [U.size, U.size]
  path : ∀ {r T}, r.type = .composition → Answers R content e r (some T) → ∀ x z, T.Has x z ↔
    ∃ y : Nat → Nat, y 0 = x ∧ y r.body.length = z ∧ ∀ i (h : i < r.body.length),
      ∃ b, e.relations.lookup r.body[i] = some b ∧ (content b).Has (y i) (y (i + 1))
  split : ∀ {r r₁ r₂ T}, r.type = .composition → r₁.type = .composition → r₂.type = .composition →
    r.body = r₁.body ++ r₂.body → Answers R content e r (some T) →
    ∃ T₁ T₂, Answers R content e r₁ (some T₁) ∧ Answers R content e r₂ (some T₂) ∧
      ∀ s, (U.circ T₁ T₂).Yields s T
  reverse : ∀ {r T}, r.type = .composition → Answers R content e r (some T) →
    ∃ bs, r.body.mapM (e.relations.lookup ·) = some bs ∧
      ∀ s, Build.Agree s (U.inv T) (do U.composeAll (← (bs.map content).reverse.mapM U.inv))
  single : ∀ {r T source b}, Answers R content e r (some T) → e.relations.lookup source = some b → ∀ x y,
    (r.premise = .inverse source → (T.Has x y ↔ (content b).Has y x)) ∧
    (r.premise = .implication source → (T.Has x y ↔ (content b).Has x y))

variable {n : Nat} {O : TensorOps σ Bool} {R : RelationOps τ ρ} {content : ρ → Tensor Bool} {e : Engine τ ρ}
variable {r r₁ r₂ : Rule} {T : Tensor Bool}

section

variable (ops : TruthOps n O)
variable (computes : R.Computes (fun a => (content a).axes = [n, n]) fun a => (content a).Has)
variable (stored : Accepted (fun a => (content a).axes = [n, n]) e.relations)

include ops computes stored

/-- The answer of a composition that is cut in two is the composition of the two answers. -/
theorem answers_split (type : r.type = .composition) (type₁ : r₁.type = .composition)
    (type₂ : r₂.type = .composition) (cut : r.body = r₁.body ++ r₂.body)
    (answers : Answers R content e r (some T)) :
    ∃ T₁ T₂, Answers R content e r₁ (some T₁) ∧ Answers R content e r₂ (some T₂) ∧
      ∀ s, ((mk O n).circ T₁ T₂).Yields s T := by
  obtain ⟨named, square, related⟩ := answers.derived computes stored
  rw [cut, List.forall_mem_append] at named
  obtain ⟨T₁, answers₁⟩ := exists_answers_some computes stored named.1
  obtain ⟨T₂, answers₂⟩ := exists_answers_some computes stored named.2
  obtain ⟨-, square₁, related₁⟩ := answers₁.derived computes stored
  obtain ⟨-, square₂, related₂⟩ := answers₂.derived computes stored
  refine ⟨T₁, T₂, answers₁, answers₂, fun s => ?_⟩
  obtain ⟨S, t, run, squareS, composed⟩ := ops.computes.circ s T₁ T₂ square₁ square₂
  -- Both are binary relations, so it is enough that they relate the same points.
  have same : S = T := by
    refine Tensor.eq_of_has squareS square fun x z => ?_
    rw [composed, related, derives_composition type, cut, List.map_append, composite_append]
    refine exists_congr fun y => ?_
    rw [related₁, related₂, derives_composition type₁, derives_composition type₂]
  rw [← same]
  exact congrArg Prod.fst run

/-- The inverse of an answer composes the inverses in reverse. -/
theorem answers_reverse (type : r.type = .composition) (answers : Answers R content e r (some T)) :
    ∃ bs, r.body.mapM (e.relations.lookup ·) = some bs ∧
      ∀ s, Build.Agree s ((mk O n).inv T)
        (do (mk O n).composeAll (← (bs.map content).reverse.mapM (mk O n).inv)) := by
  obtain ⟨named, square, related⟩ := answers.derived computes stored
  obtain ⟨bs, found, rels⟩ := exists_mapM_lookup named
  refine ⟨bs, found, fun s => ?_⟩
  have squares : ∀ S ∈ bs.map content, S.axes = [n, n] := by
    intro S member
    obtain ⟨b, inside, rfl⟩ := List.mem_map.1 member
    exact accepted_of_mapM stored found b inside
  have nonempty : bs.map content ≠ [] := by
    intro empty
    obtain rfl := List.map_eq_nil_iff.1 empty
    obtain ⟨-, -, body, -⟩ := r.wellFormed
    exact body (List.map_eq_nil_iff.1 rels.symm)
  obtain ⟨S, t, run, squareS, inverted⟩ := ops.computes.inv s T square
  obtain ⟨S', t', run', squareS', composed⟩ := composeAll_inverted ops nonempty squares s
  have same : S = S' := by
    refine Tensor.eq_of_has squareS squareS' fun x z => ?_
    rw [inverted, related, derives_composition type, composed, List.map_map]
    show composite _ z x ↔ composite (bs.map fun b => (content b).Has) z x
    rw [rels]
  refine ⟨S, congrArg Prod.fst run, ?_⟩
  rw [same]
  exact congrArg Prod.fst run'

end

/-- On a universe of truth values, rules that are applied to an engine follow their bodies and are monotone: they
answer more where the relations of their bodies are more. -/
theorem applyRule_chains (ops : TruthOps n O) (offers : (mk O n).Offers R content) (reachable : Reachable R e) :
    ChainsBodies (mk O n) R content e ∧
    ∀ {e'}, Reachable R e' →
      (∀ name a a', e.relations.lookup name = some a → e'.relations.lookup name = some a' →
        ∀ x y, (content a).Has x y → (content a').Has x y) →
      ∀ {r T T'}, Answers R content e r (some T) → Answers R content e' r (some T') →
        ∀ x z, T.Has x z → T'.Has x z := by
  have computes := offers.computes ops
  have stored := reachable.stored computes.keeps
  refine ⟨?_, ?_⟩
  · constructor
    case answers => exact exists_answers computes stored
    case square => exact fun answers => (answers.derived computes stored).2.1
    case path => exact fun type answers => answers.path computes stored type
    case split => exact answers_split ops computes stored
    case reverse => exact answers_reverse ops computes stored
    case single => exact fun answers => answers.single computes stored
  · intro e' reachable' below r T T' answers answers'
    exact answers.mono computes stored (reachable'.stored computes.keeps) below answers'

/-- Two steps lead from the first of three points to the last one, and by the order they lead there too. -/
theorem applyRule_chains_steps :
    let step : Tensor Bool := .ofFn [3, 3] fun coord _ => coord[1]? == coord[0]?.map (· + 1)
    let order : Tensor Bool := .ofFn [3, 3] fun coord _ => coord[0]?.any fun x => coord[1]?.any (x ≤ ·)
    let R : RelationOps Unit (Tensor Bool) := (mk .dense 3).relationOps
    let e : Engine Unit (Tensor Bool) := ⟨(), [("step", step)], []⟩
    let e' : Engine Unit (Tensor Bool) := ⟨(), [("step", order)], []⟩
    let r : Rule := ⟨"twice", .composition "step" ["step"]⟩
    Reachable R e ∧ Reachable R e' ∧ ∃ T T', Answers R id e r (some T) ∧ Answers R id e' r (some T') ∧
      T.Has 0 2 ∧ T'.Has 0 2 := by
  intro step order R e e' r
  have reachable : Reachable R e := .setRelation "step" step (.start ())
  have reachable' : Reachable R e' := .setRelation "step" order (.start ())
  have answered : ∀ {f : Engine Unit (Tensor Bool)} {T : Tensor Bool},
      f.relations.lookup ("step" : Text) = some T → Reachable R f → ∃ T', Answers R id f r (some T') := by
    intro f T found reachable
    have computes := (Offers.tensors : (mk .dense 3).Offers R id).computes .dense
    refine exists_answers_some computes (reachable.stored computes.keeps) fun name member => ?_
    obtain rfl : name = "step" := by simpa [r, Rule.body] using member
    exact ⟨T, found⟩
  obtain ⟨T, answers⟩ := answered rfl reachable
  obtain ⟨T', answers'⟩ := answered rfl reachable'
  obtain ⟨chains, monotone⟩ := applyRule_chains .dense .tensors reachable
  have related : T.Has 0 2 := by
    have first : step.Has 0 1 := ⟨⟨by decide, by decide, trivial⟩, rfl⟩
    have second : step.Has 1 2 := ⟨⟨by decide, by decide, trivial⟩, rfl⟩
    refine (chains.path rfl answers 0 2).2 ⟨id, rfl, rfl, fun i inside => ⟨step, ?_⟩⟩
    match i, inside with
    | 0, _ => exact ⟨rfl, first⟩
    | 1, _ => exact ⟨rfl, second⟩
  refine ⟨reachable, reachable', T, T', answers, answers', related, ?_⟩
  have below : ∀ x y, step.Has x y → order.Has x y := by
    intro x y here
    obtain ⟨inside, next⟩ := Tensor.has_ofFn.1 here
    refine Tensor.has_ofFn.2 ⟨inside, ?_⟩
    simp only [List.getElem?_cons_zero, List.getElem?_cons_succ, Option.map_some, beq_iff_eq,
      Option.some.injEq] at next
    simp only [List.getElem?_cons_zero, List.getElem?_cons_succ, Option.any_some, decide_eq_true_eq]
    omega
  have only : ∀ {name : Text} {S a : Tensor Bool}, List.lookup name [("step", S)] = some a → S = a := by
    intro name S a found
    rw [List.lookup_cons] at found
    split at found
    · exact Option.some.inj found
    · cases found
  refine monotone reachable' (fun name a a' found found' => ?_) answers answers' 0 2 related
  rw [← only found, ← only found']
  exact below

end Universe

end BoolCalculus
