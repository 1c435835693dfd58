import BoolCalculus.Proofs.Rule.Operations

/-!
# Forward chaining

What one firing of a rule does to the stored relations, what a pass and a run of passes do by induction, and
which interpretations stay above the store: every one that is closed under the rules. A pass that changes
nothing leaves a store that is itself closed under the rules.
-/

namespace BoolCalculus.Engine

open Interpretation

variable {σ ρ β : Type} {O : RelationOps σ ρ} {accepted : ρ → Prop} {rel : ρ → Nat → Nat → Prop}

/-! ## Runs on the state of an engine -/

theorem ensures_get (e : Engine σ ρ) :
    (get : Build (Engine σ ρ) (Engine σ ρ)).Ensures e fun b t => b = e ∧ t = e :=
  ⟨e, e, rfl, rfl, rfl⟩

theorem ensures_onGates {act : Build σ β} {e : Engine σ ρ} {Post : β → σ → Prop}
    (h : act.Ensures e.gates Post) :
    (onGates act : Build (Engine σ ρ) β).Ensures e fun b t =>
      Post b t.gates ∧ t.relations = e.relations ∧ t.rules = e.rules := by
  obtain ⟨b, g, run, post⟩ := h
  refine ⟨b, { e with gates := g }, ?_, post, rfl, rfl⟩
  rw [onGates, Build.runFrom_onPart, run]

/-- Stores a relation, whatever was stored before. -/
theorem ensures_put (e : Engine σ ρ) (name : Text) (a : ρ) :
    (modify fun e => { e with relations := e.relations.put name a } :
      Build (Engine σ ρ) Unit).Ensures e fun _ t =>
        t.relations = e.relations.put name a ∧ t.rules = e.rules :=
  ⟨(), _, rfl, rfl, rfl⟩

/-! ## Progress -/

/-- What chaining preserves from one engine to a later one: the rules stay, the store only grows, and it
stays below every interpretation that is closed under the rules. -/
structure Progress (accepted : ρ → Prop) (rel : ρ → Nat → Nat → Prop) (e e' : Engine σ ρ) : Prop where
  rules : e'.rules = e.rules
  stored : Accepted accepted e'.relations
  grows : ofStore rel e.relations ≤ ofStore rel e'.relations
  sound : ∀ I : Interpretation, (∀ r ∈ e.rules, I.ClosedUnder r) →
    ofStore rel e.relations ≤ I → ofStore rel e'.relations ≤ I

theorem Progress.of_same {e e' : Engine σ ρ} (rules : e'.rules = e.rules)
    (relations : e'.relations = e.relations) (stored : Accepted accepted e.relations) :
    Progress accepted rel e e' where
  rules := rules
  stored := relations ▸ stored
  grows := by rw [relations]
  sound I _ below := by rwa [relations]

theorem Progress.trans {e₁ e₂ e₃ : Engine σ ρ} (first : Progress accepted rel e₁ e₂)
    (second : Progress accepted rel e₂ e₃) : Progress accepted rel e₁ e₃ where
  rules := second.rules.trans first.rules
  stored := second.stored
  grows := first.grows.trans second.grows
  sound I closed below := second.sound I (first.rules ▸ closed) (first.sound I closed below)

theorem accepted_put {relations : Keyed ρ} (stored : Accepted accepted relations) {name : Text} {a : ρ}
    (ok : accepted a) : Accepted accepted (relations.put name a) := by
  intro other b found
  by_cases same : other = name
  · subst same
    rw [Keyed.lookup_put_self] at found
    exact Option.some.inj found ▸ ok
  · rw [Keyed.lookup_put_ne relations a same] at found
    exact stored other b found

/-- Storing under the head of a rule what was stored there together with what the rule derives is progress. -/
theorem Progress.of_put {e e' : Engine σ ρ} {r : Rule} (member : r ∈ e.rules) {a : ρ}
    (rules : e'.rules = e.rules) (relations : e'.relations = e.relations.put r.head a)
    (stored : Accepted accepted e.relations) (ok : accepted a)
    (body : ∀ name ∈ r.body, (ofStore rel e.relations).Named name)
    (grows : ∀ old, e.relations.lookup r.head = some old → ∀ x y, rel old x y → rel a x y)
    (derived : ∀ x y, rel a x y →
      (ofStore rel e.relations).Related r.head x y ∨ (ofStore rel e.relations).Derives r x y) :
    Progress accepted rel e e' where
  rules := rules
  stored := relations ▸ accepted_put stored ok
  grows := relations ▸ ofStore_le_put grows
  sound I closed below := by
    have rule := closed r member
    have body : ∀ name ∈ r.body, I.Named name := fun name inBody => below.1 name (body name inBody)
    rw [relations]
    refine ofStore_put_le below (rule.named body) fun x y related => ?_
    rcases derived x y related with old | new
    · exact below.2 _ _ _ old
    · exact rule.related body x y (new.mono below)

/-! ## Firing -/

/-- What a firing does, and whether it reports a change. What it stores under the head is more than was stored there. -/
inductive Firing (accepted : ρ → Prop) (rel : ρ → Nat → Nat → Prop) (e : Engine σ ρ) (r : Rule) :
    Bool → Engine σ ρ → Prop
  | idle {e' : Engine σ ρ} (rules : e'.rules = e.rules) (relations : e'.relations = e.relations)
      (closed : (ofStore rel e.relations).ClosedUnder r) : Firing accepted rel e r false e'
  | stores {e' : Engine σ ρ} (a : ρ) (rules : e'.rules = e.rules)
      (relations : e'.relations = e.relations.put r.head a) (ok : accepted a)
      (body : ∀ name ∈ r.body, (ofStore rel e.relations).Named name)
      (grows : ∀ old, e.relations.lookup r.head = some old → ∀ x y, rel old x y → rel a x y)
      (adds : ∀ old, e.relations.lookup r.head = some old → ¬∀ x y, rel a x y → rel old x y)
      (derived : ∀ x y, rel a x y →
        (ofStore rel e.relations).Related r.head x y ∨ (ofStore rel e.relations).Derives r x y) :
      Firing accepted rel e r true e'

/-- What firing a rule and making passes achieve: progress, and if nothing changed, a store as before that is
closed under the rules that were fired. -/
structure Fired (accepted : ρ → Prop) (rel : ρ → Nat → Nat → Prop) (e : Engine σ ρ)
    (fired : List Rule) (changed : Bool) (e' : Engine σ ρ) : Prop where
  progress : Progress accepted rel e e'
  same : changed = false → e'.relations = e.relations
  closed : changed = false → ∀ r ∈ fired, (ofStore rel e.relations).ClosedUnder r

/-- A firing that changes nothing, since the store is closed under the rule. -/
theorem Fired.of_closed {e e' : Engine σ ρ} {r : Rule} (rules : e'.rules = e.rules)
    (relations : e'.relations = e.relations) (stored : Accepted accepted e.relations)
    (closed : (ofStore rel e.relations).ClosedUnder r) : Fired accepted rel e [r] false e' where
  progress := .of_same rules relations stored
  same _ := relations
  closed _ _ only := List.mem_singleton.1 only ▸ closed

/-- A firing that reports a change owes no more than progress. -/
theorem Fired.of_progress {e e' : Engine σ ρ} {r : Rule} (progress : Progress accepted rel e e') :
    Fired accepted rel e [r] true e' where
  progress := progress
  same unchanged := by simp at unchanged
  closed unchanged := by simp at unchanged

/-- Applying a rule derives its relation and stores nothing. -/
theorem applyRule_ensures (computes : O.Computes accepted rel) {e : Engine σ ρ}
    (stored : Accepted accepted e.relations) (r : Rule) :
    (applyRule O r).Ensures e fun d? t => IsDerived accepted rel e.relations r d? ∧
      t.relations = e.relations ∧ t.rules = e.rules := by
  refine (ensures_get e).bind ?_
  rintro _ _ ⟨rfl, rfl⟩
  exact ensures_onGates (derive_ensures computes stored r _)

/-- The step lemma of forward chaining: a firing does nothing, or it stores under the head of the rule what was stored there
together with what the rule derives. -/
theorem fire_firing (computes : O.Computes accepted rel) {e : Engine σ ρ}
    (stored : Accepted accepted e.relations) (r : Rule) :
    (fire O r).Ensures e (Firing accepted rel e r) := by
  refine (applyRule_ensures computes stored r).bind ?_
  rintro (_ | d) e₁ ⟨derived, relations, rules⟩
  · -- A body relation is missing.
    refine .pure (.idle rules relations ⟨?_, ?_⟩)
    · intro body
      exact absurd body derived
    · intro body
      exact absurd body derived
  · obtain ⟨body, okD, holds⟩ := derived
    refine (ensures_get e₁).bind ?_
    rintro _ _ ⟨rfl, rfl⟩
    rw [relations]
    cases found : e.relations.lookup r.head with
    | none =>
        refine (ensures_put _ r.head d).bind ?_
        intro _ e₂ put
        rcases put with ⟨relations', rules'⟩
        rw [relations] at relations'
        have nothing : ∀ {P : ρ → Prop} old, e.relations.lookup r.head = some old → P old := by
          intro P old found'
          rw [found] at found'
          cases found'
        refine .pure (.stores d (rules'.trans rules) relations' okD body nothing nothing ?_)
        intro x y related
        exact .inr ((holds x y).1 related)
    | some old =>
        have okOld := stored r.head old found
        refine (ensures_onGates (computes.join _ old d okOld okD)).bind ?_
        intro combined e₂ made
        rcases made with ⟨⟨okC, union⟩, relations₂, rules₂⟩
        refine (ensures_onGates (computes.same _ old combined okOld okC)).bind ?_
        intro decided e₃ made
        rcases made with ⟨equal, relations₃, rules₃⟩
        have relations₃ := relations₃.trans (relations₂.trans relations)
        have rules₃ := rules₃.trans (rules₂.trans rules)
        have only : ∀ {P : ρ → Prop}, P old → ∀ old', e.relations.lookup r.head = some old' → P old' := by
          intro P holds old' found'
          rw [found] at found'
          exact Option.some.inj found' ▸ holds
        have above : ∀ x y, rel old x y → rel combined x y := fun x y related => (union x y).2 (.inl related)
        cases decided with
        | true =>
            -- The head holds what the rule derives already.
            refine .pure (.idle rules₃ relations₃ ⟨?_, ?_⟩)
            · intro _
              exact ⟨old, found⟩
            · intro _ x z derives
              rw [related_ofStore found, equal.1 rfl x z, union]
              exact .inr ((holds x z).2 derives)
        | false =>
            refine (ensures_put _ r.head combined).bind ?_
            intro _ e₄ put
            rcases put with ⟨relations', rules'⟩
            rw [relations₃] at relations'
            refine .pure (.stores combined (rules'.trans rules₃) relations' okC body (only above) (only ?_) ?_)
            · intro below
              exact absurd (equal.2 fun x y => ⟨above x y, below x y⟩) Bool.false_ne_true
            · intro x y related
              rw [related_ofStore found]
              exact ((union x y).1 related).imp_right (holds x y).1

/-- Firing a rule makes progress, or leaves the engine as it is. -/
theorem fire_ensures (computes : O.Computes accepted rel) {e : Engine σ ρ}
    (stored : Accepted accepted e.relations) {r : Rule} (member : r ∈ e.rules) :
    (fire O r).Ensures e (Fired accepted rel e [r]) := by
  refine (fire_firing computes stored r).mono ?_
  intro changed e' firing
  cases firing with
  | idle rules relations closed => exact .of_closed rules relations stored closed
  | stores a rules relations ok body grows _ derived =>
      exact .of_progress (.of_put member rules relations stored ok body grows derived)

/-- A pass over some of the rules. -/
theorem pass_ensures (computes : O.Computes accepted rel) {e : Engine σ ρ}
    (stored : Accepted accepted e.relations) {rules : List Rule} (members : ∀ r ∈ rules, r ∈ e.rules) :
    (pass O rules).Ensures e (Fired accepted rel e rules) := by
  induction rules generalizing e with
  | nil => exact .pure ⟨.of_same rfl rfl stored, fun _ => rfl, fun _ r member => by simp at member⟩
  | cons r rules ih =>
      refine (fire_ensures computes stored (members r List.mem_cons_self)).bind ?_
      intro changed e₁ fired
      rcases fired with ⟨progress, same, closed⟩
      have members' : ∀ r ∈ rules, r ∈ e₁.rules := fun r member =>
        progress.rules ▸ members r (List.mem_cons_of_mem _ member)
      refine (ih progress.stored members').bind ?_
      intro later e₂ fired
      rcases fired with ⟨progress', same', closed'⟩
      refine .pure ⟨progress.trans progress', fun none => ?_, fun none => ?_⟩
      · obtain ⟨first, second⟩ := Bool.or_eq_false_iff.1 none
        exact (same' second).trans (same first)
      · obtain ⟨first, second⟩ := Bool.or_eq_false_iff.1 none
        have closed' := closed' second
        rw [same first] at closed'
        exact List.forall_mem_cons.2 ⟨closed first r List.mem_cons_self, closed'⟩

/-- Passes make progress, and if they settle, the store is closed under all rules. -/
theorem passes_ensures (computes : O.Computes accepted rel) (budget : Int) (left before : Nat)
    {e : Engine σ ρ} (stored : Accepted accepted e.relations) :
    (passes O budget left before).Ensures e fun outcome e' => Progress accepted rel e e' ∧
      (outcome.warning? = none → ∀ r ∈ e.rules, (ofStore rel e'.relations).ClosedUnder r) := by
  induction left generalizing before e with
  | zero => exact .pure ⟨.of_same rfl rfl stored, nofun⟩
  | succ left ih =>
      refine (ensures_get e).bind ?_
      rintro _ _ ⟨rfl, rfl⟩
      refine (pass_ensures computes stored fun _ => id).bind ?_
      intro changed e₁ fired
      rcases fired with ⟨progress, same, closed⟩
      cases changed with
      | true =>
          refine (ih (before + 1) progress.stored).mono ?_
          intro outcome e₂ made
          rcases made with ⟨progress', settled⟩
          exact ⟨progress.trans progress', fun none => progress.rules ▸ settled none⟩
      | false =>
          refine .pure ⟨progress, fun _ => ?_⟩
          rw [same rfl]
          exact closed rfl

end BoolCalculus.Engine
