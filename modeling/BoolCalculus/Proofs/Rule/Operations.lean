import BoolCalculus.Proofs.Rule.LeastModel
import BoolCalculus.Rule.Engine

/-!
# Deriving relations

What a rule derives by operations that compute on relations (`RelationOps.Computes`). The composition of several
relations is folded from the left and read as the chain of all of them.
-/

namespace BoolCalculus

namespace Build

variable {σ β γ : Type}

/-- A construction, run from `s`, succeeds with a result and a state of which `Post` holds. -/
def Ensures (act : Build σ β) (s : σ) (Post : β → σ → Prop) : Prop :=
  ∃ b t, act.runFrom s = (.ok b, t) ∧ Post b t

variable {s : σ} {Post : β → σ → Prop} {Post' : γ → σ → Prop}

theorem Ensures.pure {b : β} (h : Post b s) : (pure b : Build σ β).Ensures s Post :=
  ⟨b, s, rfl, h⟩

theorem Ensures.bind {act : Build σ β} {next : β → Build σ γ} (first : act.Ensures s Post)
    (rest : ∀ b t, Post b t → (next b).Ensures t Post') : (act >>= next).Ensures s Post' := by
  obtain ⟨b, t, run, post⟩ := first
  obtain ⟨c, u, run', post'⟩ := rest b t post
  exact ⟨c, u, (runFrom_bind_ok run).trans run', post'⟩

theorem Ensures.mono {act : Build σ β} {Weaker : β → σ → Prop} (h : act.Ensures s Post)
    (weaker : ∀ b t, Post b t → Weaker b t) : act.Ensures s Weaker := by
  obtain ⟨b, t, run, post⟩ := h
  exact ⟨b, t, run, weaker b t post⟩

theorem Ensures.and {act : Build σ β} {Other : β → σ → Prop} (first : act.Ensures s Post)
    (second : act.Ensures s Other) : act.Ensures s fun b t => Post b t ∧ Other b t := by
  obtain ⟨b, t, run, post⟩ := first
  obtain ⟨b', t', run', post'⟩ := second
  rw [run] at run'
  cases run'
  exact ⟨b, t, run, post, post'⟩

theorem Ensures.reached {act : Build σ β} (h : act.Ensures s Post) :
    act.Ensures s fun b t => Post b t ∧ t = (act.runFrom s).2 := by
  obtain ⟨b, t, run, post⟩ := h
  exact ⟨b, t, run, post, by rw [run]⟩

end Build

variable {σ ρ : Type}

/-- Operations compute on the accepted things, which stand for binary relations on points. -/
structure RelationOps.Computes (O : RelationOps σ ρ) (accepted : ρ → Prop)
    (rel : ρ → Nat → Nat → Prop) : Prop where
  require : ∀ s a, accepted a → (O.require a).Ensures s fun _ _ => True
  refuse : ∀ s a, ¬accepted a → ∃ f t, (O.require a).runFrom s = (.error f, t)
  inv : ∀ s a, accepted a → (O.inv a).Ensures s fun b _ =>
    accepted b ∧ ∀ x y, rel b x y ↔ rel a y x
  circ : ∀ s a b, accepted a → accepted b → (O.circ a b).Ensures s fun c _ =>
    accepted c ∧ ∀ x z, rel c x z ↔ ∃ y, rel a x y ∧ rel b y z
  join : ∀ s a b, accepted a → accepted b → (O.join a b).Ensures s fun c _ =>
    accepted c ∧ ∀ x y, rel c x y ↔ rel a x y ∨ rel b x y
  same : ∀ s a b, accepted a → accepted b → (O.same a b).Ensures s fun d _ =>
    (d = true ↔ ∀ x y, rel a x y ↔ rel b x y)

namespace Counted

variable {β : Type}

theorem ensures_onState {act : Build σ β} {s : Counted σ} {Post : β → Prop}
    (h : act.Ensures s.state fun b _ => Post b) : (onState act).Ensures s fun b _ => Post b := by
  obtain ⟨b, t, run, post⟩ := h
  refine ⟨b, { s with state := t }, ?_, post⟩
  rw [runFrom_onState, run]

theorem ensures_fresh {act : Build σ ρ} {s : Counted σ} {Post : ρ → Prop}
    (h : act.Ensures s.state fun a _ => Post a) : (fresh act).Ensures s fun a _ => Post a.content :=
  (ensures_onState h).bind fun a t post => ⟨⟨a, t.labels⟩, _, rfl, post⟩

end Counted

/-- Labels do not change what operations compute. -/
theorem RelationOps.Computes.labelled {O : RelationOps σ ρ} {accepted : ρ → Prop}
    {rel : ρ → Nat → Nat → Prop} (h : O.Computes accepted rel) :
    O.labelled.Computes (fun a => accepted a.content) fun a => rel a.content where
  require _ _ ok := Counted.ensures_onState (h.require _ _ ok)
  refuse s a other := by
    obtain ⟨f, t, run⟩ := h.refuse s.state a.content other
    refine ⟨f, { s with state := t }, ?_⟩
    rw [RelationOps.labelled, Counted.runFrom_onState, run]
  inv _ _ ok := Counted.ensures_fresh (h.inv _ _ ok)
  circ _ _ _ ok ok' := Counted.ensures_fresh (h.circ _ _ _ ok ok')
  join _ _ _ ok ok' := Counted.ensures_fresh (h.join _ _ _ ok ok')
  same _ _ _ ok ok' := Counted.ensures_onState (h.same _ _ _ ok ok')

namespace Interpretation

variable {O : RelationOps σ ρ} {accepted : ρ → Prop} {rel : ρ → Nat → Nat → Prop}
variable {relations : Keyed ρ}

/-- What is stored is accepted by the operations. -/
def Accepted (accepted : ρ → Prop) (relations : Keyed ρ) : Prop :=
  ∀ name a, relations.lookup name = some a → accepted a

/-- What a rule derives from stored relations: nothing if a body relation is missing, and else a relation that
holds what the rule derives. -/
def IsDerived (accepted : ρ → Prop) (rel : ρ → Nat → Nat → Prop) (relations : Keyed ρ) (r : Rule) :
    Option ρ → Prop
  | none => ¬∀ name ∈ r.body, (ofStore rel relations).Named name
  | some d => (∀ name ∈ r.body, (ofStore rel relations).Named name) ∧ accepted d ∧
      ∀ x z, rel d x z ↔ (ofStore rel relations).Derives r x z

/-- Composing further relations extends the chain; this goes through only if all of them are stored. -/
theorem fold_computes (computes : O.Computes accepted rel) (stored : Accepted accepted relations)
    (names : List Text) :
    match names.mapM (relations.lookup ·) with
    | none => ¬∀ name ∈ names, (ofStore rel relations).Named name
    | some Rs => (∀ name ∈ names, (ofStore rel relations).Named name) ∧
        ∀ s a, accepted a → (Rs.foldlM O.circ a).Ensures s fun d _ => accepted d ∧
          ∀ x z, rel d x z ↔ ∃ y, rel a x y ∧ (ofStore rel relations).Chain names y z := by
  induction names with
  | nil =>
      refine ⟨by simp, fun s a ok => .pure ⟨ok, fun x z => ?_⟩⟩
      simp [Chain]
  | cons name names ih =>
      rw [List.mapM_cons]
      cases found : relations.lookup name with
      | none => exact fun all => not_named_ofStore found (all name List.mem_cons_self)
      | some b =>
          cases rest : names.mapM (relations.lookup ·) with
          | none =>
              rw [rest] at ih
              exact fun all => ih fun other member => all other (List.mem_cons_of_mem name member)
          | some Rs =>
              rw [rest] at ih
              obtain ⟨named, folded⟩ := ih
              refine ⟨List.forall_mem_cons.2 ⟨⟨b, found⟩, named⟩, fun s a ok => ?_⟩
              refine (computes.circ s a b ok (stored name b found)).bind ?_
              intro c t made
              rcases made with ⟨okC, composed⟩
              refine (folded t c okC).mono ?_
              intro d _ made
              rcases made with ⟨okD, chained⟩
              refine ⟨okD, fun x z => (chained x z).trans ?_⟩
              simp only [composed, Chain, related_ofStore found]
              constructor
              · intro walk
                rcases walk with ⟨w, ⟨y, first, second⟩, more⟩
                exact ⟨y, first, w, second, more⟩
              · intro walk
                rcases walk with ⟨y, first, w, second, more⟩
                exact ⟨w, ⟨y, first, second⟩, more⟩

/-- The specification of a derivation, for all types of rules. -/
theorem derive_ensures (computes : O.Computes accepted rel) (stored : Accepted accepted relations)
    (r : Rule) (s : σ) :
    (r.derive O relations).Ensures s fun d? _ => IsDerived accepted rel relations r d? := by
  obtain ⟨head, premise⟩ := r
  cases premise with
  | composition first rest =>
      have folded := fold_computes computes stored rest
      simp only [Rule.derive]
      cases found : relations.lookup first with
      | none =>
          refine .pure fun all => ?_
          exact not_named_ofStore found (all first List.mem_cons_self)
      | some R =>
          cases others : rest.mapM (relations.lookup ·) with
          | none =>
              rw [others] at folded
              refine .pure fun all => folded fun name member => ?_
              exact all name (List.mem_cons_of_mem first member)
          | some Rs =>
              rw [others] at folded
              obtain ⟨named, folded⟩ := folded
              show (some <$> Rs.foldlM O.circ R).Ensures s _
              rw [map_eq_pure_bind]
              refine (folded s R (stored first R found)).bind ?_
              intro d t made
              rcases made with ⟨okD, chained⟩
              refine .pure ⟨List.forall_mem_cons.2 ⟨⟨R, found⟩, named⟩, okD, fun x z => ?_⟩
              simp only [chained, Derives, Chain, related_ofStore found]
  | inverse source =>
      simp only [Rule.derive]
      cases found : relations.lookup source with
      | none => exact .pure fun all => not_named_ofStore found (all source List.mem_cons_self)
      | some R =>
          show (some <$> O.inv R).Ensures s _
          rw [map_eq_pure_bind]
          refine (computes.inv s R (stored source R found)).bind ?_
          intro d t made
          rcases made with ⟨okD, inverted⟩
          refine .pure ⟨?_, okD, fun x z => ?_⟩
          · exact List.forall_mem_cons.2 ⟨⟨R, found⟩, by simp⟩
          · simp only [inverted, Derives, related_ofStore found]
  | implication source =>
      show Build.Ensures (pure (relations.lookup source)) s _
      cases found : relations.lookup source with
      | none => exact .pure fun all => not_named_ofStore found (all source List.mem_cons_self)
      | some R =>
          refine .pure ⟨?_, stored source R found, fun x z => ?_⟩
          · exact List.forall_mem_cons.2 ⟨⟨R, found⟩, by simp⟩
          · simp only [Derives, related_ofStore found]

end Interpretation

end BoolCalculus
