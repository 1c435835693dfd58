import BoolCalculus.Keyed
import BoolCalculus.Rule
import Mathlib.Order.Bounds.Basic

/-!
# Least models of rules

An interpretation gives binary relations on points to some names. Facts are an interpretation, and so are the
relations that an engine stores. A model of facts and rules is above the facts and closed under the rules: once all
body relations of a rule have a name in it, the head has one too, and holds what the rule derives. The
intersection of all models is the least one (`isLeast_leastModel`).
-/

namespace BoolCalculus

/-- Names, and the points that are related under a name. -/
@[ext]
structure Interpretation where
  Named : Text → Prop
  Related : Text → Nat → Nat → Prop

namespace Interpretation

/-- An interpretation is below another one that has its names and relates what it relates. -/
instance : PartialOrder Interpretation where
  le I J := (∀ name, I.Named name → J.Named name) ∧
    ∀ name x y, I.Related name x y → J.Related name x y
  le_refl _ := ⟨fun _ => id, fun _ _ _ => id⟩
  le_trans := by
    intro I J K first second
    rcases first with ⟨names, related⟩
    rcases second with ⟨names', related'⟩
    exact ⟨fun name h => names' name (names name h),
      fun name x y h => related' name x y (related name x y h)⟩
  le_antisymm := by
    intro I J below above
    rcases below with ⟨names, related⟩
    rcases above with ⟨names', related'⟩
    ext name
    · exact ⟨names name, names' name⟩
    · exact ⟨related name _ _, related' name _ _⟩

/-- Two points are related by the composition of the relations of some names, in their order. -/
def Chain (I : Interpretation) : List Text → Nat → Nat → Prop
  | [], x, z => x = z
  | name :: names, x, z => ∃ y, I.Related name x y ∧ I.Chain names y z

/-- A chain grows with the relations of its own names. -/
theorem Chain.mono_on {I J : Interpretation} {names : List Text} {x z : Nat}
    (below : ∀ name ∈ names, ∀ x y, I.Related name x y → J.Related name x y) (h : I.Chain names x z) :
    J.Chain names x z := by
  induction names generalizing x with
  | nil => exact h
  | cons name names ih =>
      obtain ⟨y, here, rest⟩ := h
      obtain ⟨head, tail⟩ := List.forall_mem_cons.1 below
      exact ⟨y, head x y here, ih tail rest⟩

/-- What a rule derives about two points. -/
def Derives (I : Interpretation) (r : Rule) (x z : Nat) : Prop :=
  match r.premise with
  | .composition first rest => I.Chain (first :: rest) x z
  | .inverse source => I.Related source z x
  | .implication source => I.Related source x z

/-- What a rule derives grows with the relations of its body. -/
theorem Derives.mono_on {I J : Interpretation} {r : Rule} {x z : Nat}
    (below : ∀ name ∈ r.body, ∀ x y, I.Related name x y → J.Related name x y) (h : I.Derives r x z) :
    J.Derives r x z := by
  obtain ⟨head, premise⟩ := r
  cases premise with
  | composition first rest => exact Chain.mono_on below h
  | inverse source => exact below source (.head _) z x h
  | implication source => exact below source (.head _) x z h

theorem Derives.mono {I J : Interpretation} (below : I ≤ J) {r : Rule} {x z : Nat}
    (h : I.Derives r x z) : J.Derives r x z :=
  h.mono_on fun name _ => below.2 name

/-- A rule whose body relations all have a name adds nothing. -/
structure ClosedUnder (I : Interpretation) (r : Rule) : Prop where
  named : (∀ name ∈ r.body, I.Named name) → I.Named r.head
  related : (∀ name ∈ r.body, I.Named name) →
    ∀ x z, I.Derives r x z → I.Related r.head x z

/-- A model is above the facts and closed under the rules. -/
structure IsModel (facts : Interpretation) (rules : List Rule) (I : Interpretation) : Prop where
  facts_le : facts ≤ I
  closed : ∀ r ∈ rules, I.ClosedUnder r

/-- A model of more facts and rules is a model of fewer. -/
theorem IsModel.of_fewer {facts facts' : Interpretation} {rules rules' : List Rule}
    {I : Interpretation} (h : IsModel facts' rules' I) (fewer : facts ≤ facts')
    (fewerRules : ∀ r ∈ rules, r ∈ rules') : IsModel facts rules I where
  facts_le := fewer.trans h.facts_le
  closed r member := h.closed r (fewerRules r member)

/-- What all models have in common. -/
def leastModel (facts : Interpretation) (rules : List Rule) : Interpretation where
  Named name := ∀ I, IsModel facts rules I → I.Named name
  Related name x y := ∀ I, IsModel facts rules I → I.Related name x y

variable {facts facts' : Interpretation} {rules rules' : List Rule}

theorem leastModel_le {I : Interpretation} (h : IsModel facts rules I) :
    leastModel facts rules ≤ I := by
  constructor
  · intro name named
    exact named I h
  · intro name x y related
    exact related I h

theorem le_leastModel {J : Interpretation} (h : ∀ I, IsModel facts rules I → J ≤ I) :
    J ≤ leastModel facts rules := by
  constructor
  · intro name named I model
    exact (h I model).1 name named
  · intro name x y related I model
    exact (h I model).2 name x y related

/-- What all models have in common is a model. -/
theorem isModel_leastModel : IsModel facts rules (leastModel facts rules) where
  facts_le := le_leastModel fun _ model => model.facts_le
  closed := by
    intro r member
    constructor
    · intro body I model
      have rule := model.closed r member
      exact rule.named fun name inBody => body name inBody I model
    · intro body x z derives I model
      have rule := model.closed r member
      have bodyI : ∀ name ∈ r.body, I.Named name := fun name inBody => body name inBody I model
      exact rule.related bodyI x z (derives.mono (leastModel_le model))

theorem isLeast_leastModel :
    IsLeast {I | IsModel facts rules I} (leastModel facts rules) :=
  ⟨isModel_leastModel, fun _ model => leastModel_le model⟩

/-- More facts and more rules have a larger least model. -/
theorem leastModel_mono (fewer : facts ≤ facts') (fewerRules : ∀ r ∈ rules, r ∈ rules') :
    leastModel facts rules ≤ leastModel facts' rules' :=
  le_leastModel fun _ model => leastModel_le (model.of_fewer fewer fewerRules)

/-! ## Facts and stored relations -/

variable {ρ : Type} (rel : ρ → Nat → Nat → Prop)

/-- Facts: each of them is the relation of its name in part. -/
def ofFacts (facts : List (Text × ρ)) : Interpretation where
  Named name := ∃ a, (name, a) ∈ facts
  Related name x y := ∃ a, (name, a) ∈ facts ∧ rel a x y

/-- Stored relations, by their names. -/
def ofStore (relations : Keyed ρ) : Interpretation where
  Named name := ∃ a, relations.lookup name = some a
  Related name x y := ∃ a, relations.lookup name = some a ∧ rel a x y

variable {rel} {relations : Keyed ρ} {name : Text} {a : ρ} {x y : Nat}

theorem related_ofStore (found : relations.lookup name = some a) :
    (ofStore rel relations).Related name x y ↔ rel a x y := by
  constructor
  · intro holds
    rcases holds with ⟨b, found', related⟩
    rw [found] at found'
    rwa [Option.some.inj found']
  · exact fun related => ⟨a, found, related⟩

theorem not_named_ofStore (missing : relations.lookup name = none) :
    ¬(ofStore rel relations).Named name := by
  intro named
  rcases named with ⟨a, found⟩
  rw [missing] at found
  simp at found

/-- Storing a relation that contains the one stored before adds to the store. -/
theorem ofStore_le_put
    (grows : ∀ old, relations.lookup name = some old → ∀ x y, rel old x y → rel a x y) :
    ofStore rel relations ≤ ofStore rel (relations.put name a) := by
  constructor
  · intro other named
    rcases named with ⟨b, found⟩
    by_cases same : other = name
    · subst same
      exact ⟨a, Keyed.lookup_put_self relations other a⟩
    · exact ⟨b, (Keyed.lookup_put_ne relations a same).trans found⟩
  · intro other x y holds
    rcases holds with ⟨b, found, related⟩
    by_cases same : other = name
    · subst same
      exact ⟨a, Keyed.lookup_put_self relations other a, grows b found x y related⟩
    · exact ⟨b, (Keyed.lookup_put_ne relations a same).trans found, related⟩

/-- A store stays below what is above it and above the relation that is stored. -/
theorem ofStore_put_le {I : Interpretation} (below : ofStore rel relations ≤ I)
    (named : I.Named name) (related : ∀ x y, rel a x y → I.Related name x y) :
    ofStore rel (relations.put name a) ≤ I := by
  constructor
  · intro other stored
    rcases stored with ⟨b, found⟩
    by_cases same : other = name
    · rwa [same]
    · exact below.1 other ⟨b, (Keyed.lookup_put_ne relations a same).symm.trans found⟩
  · intro other x y holds
    rcases holds with ⟨b, found, here⟩
    by_cases same : other = name
    · subst same
      rw [Keyed.lookup_put_self] at found
      obtain rfl := Option.some.inj found
      exact related x y here
    · exact below.2 other x y ⟨b, (Keyed.lookup_put_ne relations a same).symm.trans found, here⟩

end Interpretation

end BoolCalculus
