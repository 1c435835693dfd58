import BoolCalculus.Proofs.Rule.Sessions
import BoolCalculus.Proofs.Universe.Refusals

/-!
# The store of an engine

Calls of an engine keep its store well-formed, whether they succeed or fail: what is stored are binary relations, and
forward chaining writes to heads of rules alone, also where it is abandoned midway. So no check of shapes inside an engine
ever fails (`Universe.engine_keepsStore`).
-/

namespace BoolCalculus

variable {σ α β γ ρ τ : Type} {E : Fault → Prop} {accepted : ρ → Prop}

/-! ## Operations -/

namespace Build.Makes

theorem onState {P : β → Prop} {act : Build σ β} (made : act.Makes E P) :
    (Counted.onState act).Makes E P := by
  intro s
  exact made s.state

theorem fresh {P : ρ → Prop} {act : Build σ ρ} (made : act.Makes E P) :
    (Counted.fresh act).Makes E fun a => P a.content :=
  made.onState.bind fun _ ok _ => ok

end Build.Makes

/-- Operations take accepted things to accepted things, or fail with a fault in `E`. -/
structure RelationOps.Keeps (E : Fault → Prop) (accepted : ρ → Prop) (O : RelationOps σ ρ) : Prop where
  require : ∀ {s t a}, (O.require a).runFrom s = (.ok (), t) → accepted a
  inv : ∀ {a}, accepted a → (O.inv a).Makes E accepted
  circ : ∀ {a b}, accepted a → accepted b → (O.circ a b).Makes E accepted
  join : ∀ {a b}, accepted a → accepted b → (O.join a b).Makes E accepted
  same : ∀ {a b}, accepted a → accepted b → (O.same a b).Makes E fun _ => True

theorem RelationOps.Keeps.labelled {O : RelationOps σ ρ} (h : O.Keeps E accepted) :
    O.labelled.Keeps E fun a => accepted a.content where
  require {s t a} run := by
    rw [RelationOps.labelled, Counted.runFrom_onState] at run
    obtain ⟨required, -⟩ := Prod.mk.inj run
    exact h.require (Prod.ext required rfl)
  inv ok := (h.inv ok).fresh
  circ ok ok' := (h.circ ok ok').fresh
  join ok ok' := (h.join ok ok').fresh
  same ok ok' := (h.same ok ok').onState

/-- The only fault of a truth value of a scalar is that its cell is none. -/
theorem Universe.makes_truthValue [Shown α] (U : Universe σ α) {T : Tensor α} (scalar : T.axes = [])
    (concrete : ∀ sort, E (.notConcrete sort)) : (U.truthValue T).Makes E fun _ => True := by
  rw [truthValue, requireScalars_ok _ (by simp [scalar]), pure_bind, Tensor.eq_scalar scalar,
    Tensor.scalar?_scalar]
  dsimp only
  split
  · exact .pure trivial
  · exact .throw (concrete _)

theorem TensorOps.ObeysShapes.keeps [Shown α] {O : TensorOps σ α} {n : Nat} {allowed : Shape → Prop}
    (obeys : O.ObeysShapes E allowed) (square : allowed (.rectangular 2 n)) (cube : allowed (.rectangular 3 n))
    (concrete : ∀ sort, E (.notConcrete sort)) : (Universe.mk O n).relationOps.Keeps E (·.axes = [n, n]) where
  require {s t R} run := by
    by_contra other
    have refused := (Universe.mk O n).runFrom_requireBinary R s
    rw [if_neg other] at refused
    cases refused.symm.trans run
  inv hR := obeys.inv hR square
  circ hR hS := obeys.circ hR hS cube
  join hR hS := obeys.join hR hS
  same hR hS := (obeys.equals hR hS).bind fun _ scalar => Universe.makes_truthValue _ scalar concrete

/-- What computes on accepted things keeps to them, and never fails. -/
theorem RelationOps.Computes.keeps {O : RelationOps σ ρ} {rel : ρ → Nat → Nat → Prop}
    (h : O.Computes accepted rel) : O.Keeps (fun _ => False) accepted := by
  have made : ∀ {β : Type} {act : Build σ β} {P : β → Prop} {Post : β → σ → Prop},
      (∀ s, act.Ensures s Post) → (∀ b t, Post b t → P b) → act.Makes (fun _ => False) P := by
    intro β act P Post ensures weaker s
    obtain ⟨b, t, run, post⟩ := ensures s
    rw [run]
    exact weaker b t post
  constructor
  case require =>
    intro s t a run
    by_contra other
    obtain ⟨f, u, refused⟩ := h.refuse s a other
    rw [refused] at run
    cases run
  case inv => exact fun ok => made (fun s => h.inv s _ ok) fun _ _ post => post.1
  case circ => exact fun ok ok' => made (fun s => h.circ s _ _ ok ok') fun _ _ post => post.1
  case join => exact fun ok ok' => made (fun s => h.join s _ _ ok ok') fun _ _ post => post.1
  case same => exact fun ok ok' => made (fun s => h.same s _ _ ok ok') fun _ _ _ => trivial

namespace Rule

/-- What a rule may be made from: a known type and a body that is not empty, of one name unless it is composed. -/
def WellFormed (body : List Text) (type : Text) : Prop :=
  ∃ known, RuleType.ofName? type = some known ∧ body ≠ [] ∧ (known = .composition ∨ body.length = 1)

theorem ofName?_name (type : RuleType) : RuleType.ofName? type.name = some type := by
  cases type <;> rfl

theorem name_of_ofName? {type : Text} {known : RuleType} (h : RuleType.ofName? type = some known) :
    known.name = type := by
  simpa using List.find?_some h

/-- Every rule was made from a body that suits its type. -/
theorem wellFormed (r : Rule) : WellFormed r.body r.type.name := by
  refine ⟨r.type, ofName?_name _, ?_⟩
  obtain ⟨head, premise⟩ := r
  cases premise with
  | composition first rest => exact ⟨List.cons_ne_nil first rest, .inl rfl⟩
  | inverse source => exact ⟨List.cons_ne_nil source [], .inr rfl⟩
  | implication source => exact ⟨List.cons_ne_nil source [], .inr rfl⟩

/-- From well-formed parts, the rule with these parts is made. -/
theorem ofNames_wellFormed (head : Text) {body : List Text} {type : Text} (h : WellFormed body type) :
    ∃ r, ofNames head body type = .ok r ∧ r.head = head ∧ r.body = body ∧ r.type.name = type := by
  obtain ⟨known, found, filled, one⟩ := h
  obtain ⟨first, rest, rfl⟩ := List.exists_cons_of_ne_nil filled
  have same := name_of_ofName? found
  simp only [ofNames, found]
  cases known with
  | composition => exact ⟨_, rfl, rfl, rfl, same⟩
  | inverse =>
      obtain rfl : rest = [] := by simpa using one
      exact ⟨_, rfl, rfl, rfl, same⟩
  | implication =>
      obtain rfl : rest = [] := by simpa using one
      exact ⟨_, rfl, rfl, rfl, same⟩

/-- No other rule is made. -/
theorem WellFormed.of_ofNames {head : Text} {body : List Text} {type : Text} {r : Rule}
    (made : ofNames head body type = .ok r) : WellFormed body type := by
  unfold ofNames at made
  split at made
  case h_3 found => exact ⟨.composition, found, List.cons_ne_nil _ _, .inl rfl⟩
  case h_4 found => exact ⟨.inverse, found, List.cons_ne_nil _ _, .inr rfl⟩
  case h_5 found => exact ⟨.implication, found, List.cons_ne_nil _ _, .inr rfl⟩
  all_goals cases made

end Rule

namespace Engine

open Interpretation

variable {O : RelationOps σ ρ} {e e' e'' : Engine σ ρ}

/-- Two engines store the same relations and have the same rules. -/
structure SameStore (e e' : Engine σ ρ) : Prop where
  relations : e'.relations = e.relations
  rules : e'.rules = e.rules

/-- What chaining leaves of an engine: its rules, what it stores under names that are no heads, and every name. -/
structure Rewrites (accepted : ρ → Prop) (e e' : Engine σ ρ) : Prop where
  rules : e'.rules = e.rules
  stored : Accepted accepted e'.relations
  names : ∀ name, (e.relations.lookup name).isSome → (e'.relations.lookup name).isSome
  others : ∀ name, (∀ r ∈ e.rules, r.head ≠ name) → e'.relations.lookup name = e.relations.lookup name

theorem SameStore.rewrites (same : SameStore e e') (stored : Accepted accepted e.relations) :
    Rewrites accepted e e' where
  rules := same.rules
  stored := same.relations ▸ stored
  names _ := by rw [same.relations]; exact id
  others _ _ := by rw [same.relations]

theorem Rewrites.trans (first : Rewrites accepted e e') (second : Rewrites accepted e' e'') :
    Rewrites accepted e e'' where
  rules := second.rules.trans first.rules
  stored := second.stored
  names name there := second.names name (first.names name there)
  others name noHead :=
    (second.others name (first.rules ▸ noHead)).trans (first.others name noHead)

theorem Rewrites.of_put (same : SameStore e e') (stored : Accepted accepted e.relations) {r : Rule}
    (member : r ∈ e.rules) {a : ρ} (ok : accepted a) :
    Rewrites accepted e { e' with relations := e'.relations.put r.head a } where
  rules := same.rules
  stored := same.relations ▸ accepted_put stored ok
  names name there := by
    show (Keyed.put e'.relations r.head a |>.lookup name).isSome
    rw [same.relations]
    by_cases here : name = r.head
    · rw [here, Keyed.lookup_put_self]
      rfl
    · rwa [Keyed.lookup_put_ne _ _ here]
  others name noHead := by
    show (Keyed.put e'.relations r.head a).lookup name = _
    rw [same.relations, Keyed.lookup_put_ne _ _ (noHead r member).symm]

/-! ## Steps of chaining -/

theorem accepted_of_mapM {relations : Keyed ρ} (stored : Accepted accepted relations) {names : List Text}
    {Rs : List ρ} (found : names.mapM (relations.lookup ·) = some Rs) : ∀ S ∈ Rs, accepted S := by
  induction names generalizing Rs with
  | nil =>
      obtain rfl : [] = Rs := Option.some.inj found
      exact fun S member => by cases member
  | cons name names ih =>
      rw [List.mapM_cons] at found
      obtain ⟨R, here, found⟩ := Option.bind_eq_some_iff.1 found
      obtain ⟨Rs', others, same⟩ := Option.bind_eq_some_iff.1 found
      obtain rfl := Option.some.inj same
      exact List.forall_mem_cons.2 ⟨stored name R here, ih others⟩

theorem ends_get {Left : Engine σ ρ → Prop} (e : Engine σ ρ) :
    (get : Build (Engine σ ρ) (Engine σ ρ)).Ends E Left (fun b t => b = e ∧ t = e) e :=
  ⟨rfl, rfl⟩

theorem ends_onGates {act : Build σ β} {P : β → Prop} (made : act.Makes E P) (same : SameStore e e') :
    (onGates act : Build (Engine σ ρ) β).Ends E (SameStore e) (fun b t => P b ∧ SameStore e t) e' := by
  have outcome := made e'.gates
  rw [Build.Ends, onGates, Build.runFrom_onPart]
  rcases run : act.runFrom e'.gates with ⟨f | b, g⟩
  all_goals rw [run] at outcome
  · exact ⟨outcome, same.relations, same.rules⟩
  · exact ⟨outcome, same.relations, same.rules⟩

section

variable (keeps : O.Keeps E accepted)

include keeps

/-- What a rule derives from accepted relations is accepted. -/
theorem makes_derive {relations : Keyed ρ} (stored : Accepted accepted relations) (r : Rule) :
    (r.derive O relations).Makes E fun d? => ∀ d ∈ d?, accepted d := by
  obtain ⟨head, premise⟩ := r
  cases premise with
  | composition first rest =>
      simp only [Rule.derive]
      cases found : relations.lookup first with
      | none => exact .pure fun d member => by cases member
      | some R =>
          cases others : rest.mapM (relations.lookup ·) with
          | none => exact .pure fun d member => by cases member
          | some Rs =>
              have members := accepted_of_mapM stored others
              have folded : (Rs.foldlM O.circ R).Makes E accepted :=
                .listFoldlM (fun _ ok S member => keeps.circ ok (members S member)) (stored first R found)
              refine Build.Makes.map_iff.2 (folded.weaken fun d ok d' same => ?_)
              exact Option.some.inj same ▸ ok
  | inverse source =>
      simp only [Rule.derive]
      cases found : relations.lookup source with
      | none => exact .pure fun d member => by cases member
      | some R =>
          refine Build.Makes.map_iff.2 ((keeps.inv (stored source R found)).weaken fun d ok d' same => ?_)
          exact Option.some.inj same ▸ ok
  | implication source => exact .pure fun d found => stored source d found

/-- Applying a rule stores nothing, also where it fails. -/
theorem applyRule_ends (stored : Accepted accepted e.relations) (r : Rule) :
    (applyRule O r).Ends E (SameStore e) (fun d? t => (∀ d ∈ d?, accepted d) ∧ SameStore e t) e := by
  refine (ends_get e).bind ?_
  rintro _ _ ⟨rfl, rfl⟩
  exact ends_onGates (makes_derive keeps stored r) ⟨rfl, rfl⟩

/-- The step lemma: whether it ends or fails, firing a rule writes at most to its head. -/
theorem fire_ends (stored : Accepted accepted e.relations) {r : Rule} (member : r ∈ e.rules) :
    (fire O r).Ends E (Rewrites accepted e) (fun _ => Rewrites accepted e) e := by
  have unchanged : ∀ t, SameStore e t → Rewrites accepted e t := fun t same => same.rewrites stored
  refine ((applyRule_ends keeps stored r).mono unchanged fun _ _ => id).bind ?_
  rintro (_ | d) e₁ ⟨ok, same⟩
  · exact .pure (unchanged _ same)
  · have okD : accepted d := ok d rfl
    refine (ends_get e₁).bind ?_
    rintro _ _ ⟨rfl, rfl⟩
    rw [same.relations]
    cases found : e.relations.lookup r.head with
    | none => exact Rewrites.of_put same stored member okD
    | some old =>
        have okOld := stored r.head old found
        refine ((ends_onGates (keeps.join okOld okD) same).mono unchanged fun _ _ => id).bind ?_
        rintro combined e₂ ⟨okC, same₂⟩
        refine ((ends_onGates (keeps.same okOld okC) same₂).mono unchanged fun _ _ => id).bind ?_
        rintro decided e₃ ⟨-, same₃⟩
        cases decided with
        | true => exact .pure (unchanged _ same₃)
        | false => exact Rewrites.of_put same₃ stored member okC

/-- A pass over some of the rules. -/
theorem pass_ends (stored : Accepted accepted e.relations) {rules : List Rule}
    (members : ∀ r ∈ rules, r ∈ e.rules) :
    (pass O rules).Ends E (Rewrites accepted e) (fun _ => Rewrites accepted e) e := by
  induction rules generalizing e with
  | nil => exact .pure (SameStore.rewrites ⟨rfl, rfl⟩ stored)
  | cons r rules ih =>
      refine (fire_ends keeps stored (members r List.mem_cons_self)).bind fun changed e₁ first => ?_
      have members' : ∀ r ∈ rules, r ∈ e₁.rules := fun r member =>
        first.rules ▸ members r (List.mem_cons_of_mem _ member)
      have rest := (ih first.stored members').mono (fun _ => first.trans) fun _ _ => first.trans
      exact rest.bind fun later e₂ both => .pure both

/-- The run lemma, for passes that are made and for those that are abandoned. -/
theorem passes_ends (budget : Int) (left before : Nat) (stored : Accepted accepted e.relations) :
    (passes O budget left before).Ends E (Rewrites accepted e) (fun _ => Rewrites accepted e) e := by
  induction left generalizing before e with
  | zero => exact .pure (SameStore.rewrites ⟨rfl, rfl⟩ stored)
  | succ left ih =>
      refine (ends_get e).bind ?_
      rintro _ _ ⟨rfl, rfl⟩
      refine (pass_ends keeps stored fun _ => id).bind fun changed e₁ first => ?_
      cases changed with
      | true => exact (ih (before + 1) first.stored).mono (fun _ => first.trans) fun _ _ => first.trans
      | false => exact .pure first

/-- However chaining ends, the store was rewritten by the rules only. -/
theorem forwardChain_ends (budget : Int) (stored : Accepted accepted e.relations) :
    (forwardChain O budget).Ends E (Rewrites accepted e) (fun _ => Rewrites accepted e) e :=
  passes_ends keeps budget _ 0 stored

end

/-! ## Reachable engines -/

/-- Rules are added from well-formed parts, after the others, and from no other parts. -/
theorem addRule_ends (head : Text) (body : List Text) (type : Text) (e : Engine σ ρ) :
    (addRule head body type).Ends (fun _ => ¬Rule.WellFormed body type) (SameStore e)
      (fun _ t => Rule.WellFormed body type ∧ t.relations = e.relations ∧
        ∃ r : Rule, r.head = head ∧ r.body = body ∧ r.type.name = type ∧ t.rules = e.rules ++ [r]) e := by
  rw [Build.Ends, addRule, Build.runFrom_bind, Build.runFrom_ofExcept]
  by_cases parts : Rule.WellFormed body type
  · obtain ⟨r, made, names⟩ := Rule.ofNames_wellFormed head parts
    rw [made]
    exact ⟨parts, rfl, r, names.1, names.2.1, names.2.2, rfl⟩
  · cases made : Rule.ofNames head body type with
    | error f => exact ⟨parts, rfl, rfl⟩
    | ok r => exact absurd (.of_ofNames made) parts

/-- The engines that calls lead to, refused and abandoned calls among them, while others use the gates. -/
inductive Reachable (O : RelationOps σ ρ) : Engine σ ρ → Prop
  | start (gates : σ) : Reachable O ⟨gates, [], []⟩
  | gates {e : Engine σ ρ} (gates : σ) (before : Reachable O e) : Reachable O { e with gates }
  | setRelation {e : Engine σ ρ} (name : Text) (R : ρ) (before : Reachable O e) :
      Reachable O ((setRelation O name R).runFrom e).2
  | addRule {e : Engine σ ρ} (head : Text) (body : List Text) (type : Text) (before : Reachable O e) :
      Reachable O ((addRule head body type).runFrom e).2
  | applyRule {e : Engine σ ρ} (r : Rule) (before : Reachable O e) :
      Reachable O ((applyRule O r).runFrom e).2
  | forwardChain {e : Engine σ ρ} (budget : Int) (before : Reachable O e) :
      Reachable O ((forwardChain O budget).runFrom e).2

/-- What is stored is accepted, whether a relation was refused or not. -/
theorem accepted_setRelation (keeps : O.Keeps E accepted) (stored : Accepted accepted e.relations)
    (name : Text) (R : ρ) : Accepted accepted ((setRelation O name R).runFrom e).2.relations := by
  rw [run_setRelation]
  rcases required : (O.require R).runFrom e.gates with ⟨f | ⟨⟩, g⟩
  · exact stored
  · exact accepted_put stored (keeps.require required)

/-- What is stored is accepted. -/
theorem Reachable.stored (keeps : O.Keeps E accepted) (h : Reachable O e) :
    Accepted accepted e.relations := by
  induction h with
  | start gates => exact fun _ _ found => by cases found
  | gates gates _ ih => exact ih
  | setRelation name R _ ih => exact accepted_setRelation keeps ih name R
  | @addRule e head body type _ ih =>
      have kept : (Engine.addRule head body type).Ends _ (fun t => t.relations = e.relations) _ e :=
        (addRule_ends head body type e).mono (fun _ same => same.relations) fun _ _ made => made.2.1
      have same : ((Engine.addRule head body type).runFrom e).2.relations = e.relations := kept.after
      exact same ▸ ih
  | applyRule r _ ih =>
      have same := (applyRule_ends keeps ih r).mono (fun _ => id) fun _ _ made => made.2
      exact same.after.relations ▸ ih
  | forwardChain budget _ ih => exact (forwardChain_ends keeps budget ih).after.stored

end Engine

namespace Universe

open Engine

variable {n : Nat}

/-- The tensor operations that universes are made of: dense ones, and lifted ones of gates that never fail, all of them
given or some derived, with the limits of storage or without. -/
inductive Backend {σ : Type} : {α : Type} → TensorOps σ α → Prop
  | dense : Backend (.dense : TensorOps σ Bool)
  | lifted {α : Type} {A : GateSet σ α} (gates : A.Total) : Backend (.lifted A)
  | liftedDerived {α : Type} {A : GateSet σ α} (gates : A.Total) : Backend (.liftedDerived A)
  | stored {α : Type} {O : TensorOps σ α} (ops : Backend O) : Backend O.stored

/-- What is offered to an engine: tensors as relations, or tensors with labels. -/
inductive Offers {σ α : Type} [Shown α] (U : Universe σ α) : {τ ρ : Type} → RelationOps τ ρ → (ρ → Tensor α) → Prop
  | tensors : Offers U U.relationOps id
  | labelled : Offers U U.relationOps.labelled Labelled.content

/-- The tensors of every backend have the axes that shapes ask for. -/
theorem Backend.obeysShapes {O : TensorOps σ α} (h : Backend O) :
    O.ObeysShapes (fun f => f.isMismatch = false) fun _ => True := by
  induction h with
  | dense => exact .dense
  | lifted gates => exact .lifted gates.failsWithin
  | liftedDerived gates => exact .liftedDerived gates.failsWithin
  | stored _ ih => exact ih.stored (fun _ _ => trivial) fun _ _ _ => Shape.isMismatch_of_checkStorage

/-- So an engine over them accepts what its operations make. -/
theorem Offers.keeps [Shown α] {O : TensorOps σ α} {R : RelationOps τ ρ} {content : ρ → Tensor α}
    (offers : (mk O n).Offers R content) (backend : Backend O) :
    R.Keeps (fun f => f.isMismatch = false) fun a => (content a).axes = [n, n] := by
  have keeps := backend.obeysShapes.keeps (n := n) trivial trivial fun _ => rfl
  cases offers with
  | tensors => exact keeps
  | labelled => exact keeps.labelled

/-- On truth values, what is offered computes relations on the points of the universe. -/
theorem Offers.computes {O : TensorOps σ Bool} {R : RelationOps τ ρ} {content : ρ → Tensor Bool}
    (offers : (mk O n).Offers R content) (ops : TruthOps n O) :
    R.Computes (fun a => (content a).axes = [n, n]) fun a => (content a).Has := by
  cases offers with
  | tensors => exact ops.computes
  | labelled => exact ops.computes.labelled

/-- A relation is accepted if it is binary over the universe. -/
theorem Offers.run_require [Shown α] {O : TensorOps σ α} {R : RelationOps τ ρ} {content : ρ → Tensor α}
    (offers : (mk O n).Offers R content) (a : ρ) (s : τ) :
    (R.require a).runFrom s = (if (content a).axes = [n, n] then .ok () else
      .error (.shapeMismatch (.operand .binaryRelation n (.rectangular 2 n) (content a).shape)), s) := by
  cases offers with
  | tensors => exact (mk O n).runFrom_requireBinary a s
  | labelled =>
      show ((Counted.onState ((mk O n).requireBinary [a.content])).runFrom s) = _
      rw [Counted.runFrom_onState, runFrom_requireBinary]
      rfl

/-- What holds of an engine over relations of a universe of size `n`, and what its calls do to it. -/
structure KeepsStore (R : RelationOps τ ρ) (content : ρ → Tensor α) (n : Nat) (e : Engine τ ρ) : Prop where
  square : Interpretation.Accepted (fun a => (content a).axes = [n, n]) e.relations
  rules : ∀ r ∈ e.rules, Rule.WellFormed r.body r.type.name
  setRelation : ∀ name a, (setRelation R name a).Ends
    (fun f => (content a).axes ≠ [n, n] ∧
      f = .shapeMismatch (.operand .binaryRelation n (.rectangular 2 n) (content a).shape))
    (SameStore e)
    (fun _ e' => (content a).axes = [n, n] ∧ e'.relations = e.relations.put name a ∧ e'.rules = e.rules) e
  addRule : ∀ head body type, (addRule head body type).Ends (fun _ => ¬Rule.WellFormed body type) (SameStore e)
    (fun _ e' => Rule.WellFormed body type ∧ e'.relations = e.relations ∧
      ∃ r : Rule, r.head = head ∧ r.body = body ∧ r.type.name = type ∧ e'.rules = e.rules ++ [r]) e
  applyRule : ∀ r, (applyRule R r).Ends (fun f => f.isMismatch = false) (SameStore e)
    (fun d? e' => (∀ d ∈ d?, (content d).axes = [n, n]) ∧ SameStore e e') e
  forwardChain : ∀ budget, (forwardChain R budget).Ends (fun f => f.isMismatch = false)
    (Rewrites (fun a => (content a).axes = [n, n]) e)
    (fun _ => Rewrites (fun a => (content a).axes = [n, n]) e) e

/-- In every engine that calls lead to, what is stored are binary relations under well-formed rules, and no call brings in
anything else. -/
theorem engine_keepsStore [Shown α] {O : TensorOps σ α} (backend : Backend O) {R : RelationOps τ ρ}
    {content : ρ → Tensor α} (offers : (mk O n).Offers R content) {e : Engine τ ρ}
    (reachable : Reachable R e) : KeepsStore R content n e := by
  have keeps := offers.keeps backend
  have square := reachable.stored keeps
  constructor
  case square => exact square
  case rules => exact fun r _ => r.wellFormed
  case setRelation =>
    intro name a
    rw [Build.Ends, run_setRelation, offers.run_require]
    by_cases binary : (content a).axes = [n, n]
    · rw [if_pos binary]
      exact ⟨binary, rfl, rfl⟩
    · rw [if_neg binary]
      exact ⟨⟨binary, rfl⟩, rfl, rfl⟩
  case addRule => exact fun head body type => addRule_ends head body type e
  case applyRule => exact fun r => applyRule_ends keeps square r
  case forwardChain => exact fun budget => forwardChain_ends keeps budget square

/-- Over a circuit, the second pass is abandoned, since it is not decided whether a head changed. The heads that the first
pass stored stay. -/
theorem engine_keepsStore_abandoned :
    let edge : Tensor Nat := .ofFn [1, 1] fun _ _ => 0
    let R := (mk (TensorOps.lifted (Circuit.gates id)).stored 1).relationOps
    let e : Engine (Circuit Nat) (Tensor Nat) :=
      ⟨#[.input], [("edge", edge)], [⟨"path", .implication "edge"⟩, ⟨"back", .inverse "path"⟩]⟩
    let e' := ((forwardChain R 5).runFrom e).2
    Backend (TensorOps.lifted (Circuit.gates (id : Nat → Nat))).stored ∧ Reachable R e ∧
    ((forwardChain R 5).runFrom e).1.toOption = none ∧
    e'.relations.map Prod.fst = (["edge", "path", "back"] : List Text) ∧ KeepsStore R id 1 e' := by
  intro edge R e e'
  have backend : Backend (TensorOps.lifted (Circuit.gates (id : Nat → Nat))).stored :=
    .stored (.lifted (Circuit.total_gates id))
  have reachable : Reachable R e :=
    .addRule "back" ["path"] "inverse" <| .addRule "path" ["edge"] "implication" <|
      .setRelation "edge" edge (.start #[Node.input])
  exact ⟨backend, reachable, by decide +kernel, by decide +kernel,
    engine_keepsStore backend .tensors (.forwardChain 5 reachable)⟩

end Universe

end BoolCalculus
