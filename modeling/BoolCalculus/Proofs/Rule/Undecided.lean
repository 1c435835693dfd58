import BoolCalculus.Domain.TwoElement
import BoolCalculus.Proofs.Rule.Store
import BoolCalculus.Rule.Reading

/-!
# Chaining without decided equalities

Where negations are no truth values, as over a circuit or over sets, no universe decides whether two relations are
equal. Chaining then stores what the heads of rules lack and compares nothing, or it is abandoned at the first head that
is there. So it fails just where the body of a rule is stored, and does nothing otherwise
(`Universe.forwardChain_undecided`).
-/

namespace BoolCalculus

variable {σ α β ρ τ : Type}

/-- Whether a fault says that a scalar is no truth value. -/
def Fault.IsUndecided (f : Fault) : Prop :=
  ∃ sort, f = .notConcrete sort

/-- Operations that keep to accepted things, and that never decide whether two of them are equal. -/
structure RelationOps.Undecides (accepted : ρ → Prop) (O : RelationOps σ ρ) : Prop where
  keeps : O.Keeps Fault.IsUndecided accepted
  same : ∀ {a b}, accepted a → accepted b → (O.same a b).Makes Fault.IsUndecided fun _ => False

theorem RelationOps.Undecides.labelled {accepted : ρ → Prop} {O : RelationOps σ ρ} (h : O.Undecides accepted) :
    O.labelled.Undecides fun a => accepted a.content where
  keeps := h.keeps.labelled
  same ok ok' := (h.same ok ok').onState

/-! ## Equalities of universes -/

namespace TensorOps

variable {E : Fault → Prop} {allowed : Shape → Prop} {P : α → Prop} {O : TensorOps σ α} {n : Nat} {T R S : Tensor α}

theorem makes_notCells_cells {A : GateSet σ α} (negates : ∀ a, (A.not a).Makes E P) (T : Tensor α) :
    (notCells A T).Makes E fun T' => ∀ a ∈ T'.toList, P a :=
  .buildCells fun _ _ => negates _

/-- The conjunction over the first axis ends with negations, also where no cell is there. -/
theorem makes_all_cells {A : GateSet σ α} (gates : A.FailsWithin E) (negates : ∀ a, (A.not a).Makes E P)
    (axes : T.axes ≠ []) : ((lifted A).all T).Makes E fun T' => ∀ a ∈ T'.toList, P a := by
  obtain ⟨n, ns, axes⟩ := List.exists_cons_of_ne_nil axes
  refine (Build.Makes.notCells gates T).bind fun notT same => ?_
  refine (Build.Makes.anyCells gates (same.trans axes)).bind fun some _ => ?_
  exact makes_notCells_cells negates some

/-- A conjunction over all axes, of which there is one, is one over the first of them. -/
theorem ObeysShapes.allAxes_cells (obeys : O.ObeysShapes E allowed)
    (all : ∀ T, T.axes ≠ [] → (O.all T).Makes E fun T' => ∀ a ∈ T'.toList, P a) {k : Nat} (length : T.axes.length = k)
    (cells : 0 < k ∨ ∀ a ∈ T.toList, P a) :
    ((Universe.mk O n).allAxes k T).Makes E fun T' => ∀ a ∈ T'.toList, P a := by
  induction k generalizing T with
  | zero => exact .pure (cells.resolve_left (Nat.lt_irrefl 0))
  | succ k ih =>
      obtain ⟨m, ms, axes⟩ := List.exists_cons_of_length_eq_add_one length
      have filled : T.axes ≠ [] := by simp [axes]
      apply ((obeys.all axes).and (all T filled)).bind
      rintro rest ⟨shorter, made⟩
      exact ih (by simpa [shorter, axes] using length) (.inr made)

variable [Shown α]

/-- The scalar of an equality is made by a negation, so it has no truth value where negations have none. -/
theorem ObeysShapes.same_undecided (obeys : O.ObeysShapes Fault.IsUndecided allowed)
    (all : ∀ T, T.axes ≠ [] →
      (O.all T).Makes Fault.IsUndecided fun T' => ∀ a ∈ T'.toList, Shown.concrete? a = none)
    (hR : R.axes = [n, n]) (hS : S.axes = [n, n]) :
    ((Universe.mk O n).same R S).Makes Fault.IsUndecided fun _ => False := by
  have equals : ((Universe.mk O n).equals R S).Makes Fault.IsUndecided fun T =>
      T.axes = [] ∧ ∀ a ∈ T.toList, Shown.concrete? a = none := by
    refine (obeys.equals hR hS).and ?_
    rw [Universe.equals, Universe.requireBinary_ok _ (by simp [hR, hS]), pure_bind]
    refine (obeys.equ.square hR hS).bind fun T axes => ?_
    exact obeys.allAxes_cells all rfl (.inl (by simp [axes]))
  apply equals.bind
  rintro T ⟨scalar, cells⟩
  rw [Universe.truthValue, Universe.requireScalars_ok _ (by simp [scalar]), pure_bind, Tensor.eq_scalar scalar,
    Tensor.scalar?_scalar]
  have undecided := Tensor.forall_mem_toList.1 cells [] (by rw [scalar]; trivial)
  simp only [undecided]
  exact .throw ⟨_, rfl⟩

end TensorOps

/-! ## Rules that apply -/

/-- Whether the relations of the body of a rule are all there. -/
def Rule.Applies (relations : Keyed ρ) (r : Rule) : Prop :=
  ∀ name ∈ r.body, (relations.lookup name).isSome

namespace Rule

variable {O : RelationOps σ ρ} {relations : Keyed ρ} {r : Rule}

/-- All relations of a body are found if each of its names is stored. -/
theorem isSome_mapM_lookup {names : List Text} :
    (names.mapM (relations.lookup ·)).isSome ↔ ∀ name ∈ names, (relations.lookup name).isSome := by
  induction names with
  | nil => simp
  | cons name names ih =>
      rw [List.mapM_cons, List.forall_mem_cons, ← ih]
      cases relations.lookup name <;> cases names.mapM (relations.lookup ·) <;> simp

/-- A rule that applies derives a relation, if it derives at all, and another one derives nothing. -/
theorem applies_or_not (O : RelationOps σ ρ) (relations : Keyed ρ) (r : Rule) :
    (r.Applies relations ∧ ∃ act, r.derive O relations = some <$> act) ∨
    (¬r.Applies relations ∧ r.derive O relations = pure none) := by
  obtain ⟨head, premise⟩ := r
  cases premise with
  | composition first rest =>
      rw [Applies, body, List.forall_mem_cons, ← isSome_mapM_lookup]
      simp only [derive]
      cases relations.lookup first <;> cases rest.mapM (relations.lookup ·)
      case some.some R Rs => exact .inl ⟨⟨rfl, rfl⟩, _, rfl⟩
      all_goals exact .inr ⟨by simp, rfl⟩
  | inverse source =>
      rw [Applies, body, List.forall_mem_singleton]
      simp only [derive]
      cases relations.lookup source with
      | none => exact .inr ⟨Bool.false_ne_true, rfl⟩
      | some R => exact .inl ⟨rfl, _, rfl⟩
  | implication source =>
      rw [Applies, body, List.forall_mem_singleton]
      simp only [derive]
      cases relations.lookup source with
      | none => exact .inr ⟨Bool.false_ne_true, rfl⟩
      | some R => exact .inl ⟨rfl, pure R, rfl⟩

end Rule

namespace Engine

open Interpretation

variable {accepted : ρ → Prop} {O : RelationOps σ ρ} {e e' e'' : Engine σ ρ}

/-- What chaining leaves of an engine that decides no equality: all that it stored, and besides heads of rules that
apply. -/
structure Extends (accepted : ρ → Prop) (e e' : Engine σ ρ) : Prop where
  rules : e'.rules = e.rules
  stored : Accepted accepted e'.relations
  stays : ∀ name R, e.relations.lookup name = some R → e'.relations.lookup name = some R
  added : ∀ name, e.relations.lookup name = none → (e'.relations.lookup name).isSome →
    ∃ r ∈ e.rules, r.head = name ∧ r.Applies e'.relations

/-- What is stored stays stored. -/
theorem Extends.isSome (h : Extends accepted e e') {name : Text} (there : (e.relations.lookup name).isSome) :
    (e'.relations.lookup name).isSome := by
  obtain ⟨R, found⟩ := Option.isSome_iff_exists.1 there
  simp [h.stays name R found]

theorem Extends.applies (h : Extends accepted e e') {r : Rule} (applies : r.Applies e.relations) :
    r.Applies e'.relations :=
  fun name member => h.isSome (applies name member)

theorem SameStore.extends (same : SameStore e e') (stored : Accepted accepted e.relations) :
    Extends accepted e e' where
  rules := same.rules
  stored := same.relations ▸ stored
  stays _ _ found := same.relations ▸ found
  added name missing there := by simp [same.relations, missing] at there

theorem Extends.trans (first : Extends accepted e e') (second : Extends accepted e' e'') :
    Extends accepted e e'' where
  rules := second.rules.trans first.rules
  stored := second.stored
  stays name R found := second.stays name R (first.stays name R found)
  added name missing there := by
    by_cases between : (e'.relations.lookup name).isSome
    · obtain ⟨r, member, head, applies⟩ := first.added name missing between
      exact ⟨r, member, head, second.applies applies⟩
    · rw [← first.rules]
      exact second.added name (Option.not_isSome_iff_eq_none.1 between) there

/-- A head that was missing is stored. -/
theorem Extends.of_put (same : SameStore e e') (stored : Accepted accepted e.relations) {r : Rule}
    (member : r ∈ e.rules) (applies : r.Applies e.relations) (missing : e.relations.lookup r.head = none) {a : ρ}
    (ok : accepted a) : Extends accepted e { e' with relations := e'.relations.put r.head a } := by
  have stays : ∀ name R, e.relations.lookup name = some R →
      (e'.relations.put r.head a).lookup name = some R := by
    intro name R found
    have other : name ≠ r.head := by
      rintro rfl
      simp [missing] at found
    rwa [same.relations, Keyed.lookup_put_ne _ _ other]
  refine ⟨same.rules, same.relations ▸ accepted_put stored ok, stays, ?_⟩
  intro name nothing there
  by_cases here : name = r.head
  · refine ⟨r, member, here.symm, fun source inBody => ?_⟩
    obtain ⟨R, found⟩ := Option.isSome_iff_exists.1 (applies source inBody)
    exact Option.isSome_iff_exists.2 ⟨R, stays source R found⟩
  · simp only [same.relations, Keyed.lookup_put_ne _ _ here, nothing] at there
    exact absurd there Bool.false_ne_true

/-! ## Chaining -/

/-- A rule with a name missing changes nothing, and no operation is called. -/
theorem fire_of_not_applies {r : Rule} (h : ¬r.Applies e.relations) : (fire O r).runFrom e = (.ok false, e) := by
  have nothing := ((r.applies_or_not O e.relations).resolve_left fun both => h both.1).2
  have run : (applyRule O r).runFrom e = (.ok none, e) := by
    show (onGates (r.derive O e.relations)).runFrom e = _
    rw [nothing]
    rfl
  rw [fire, Build.runFrom_bind_ok run]
  rfl

/-- Where no rule applies, a pass calls no gate. -/
theorem pass_of_not_applies {rules : List Rule} (h : ∀ r ∈ rules, ¬r.Applies e.relations) :
    (pass O rules).runFrom e = (.ok false, e) := by
  induction rules with
  | nil => rfl
  | cons r rules ih =>
      rw [pass, Build.runFrom_bind_ok (fire_of_not_applies (h r List.mem_cons_self)),
        Build.runFrom_bind_ok (ih fun s member => h s (List.mem_cons_of_mem r member))]
      rfl

/-- A head is new: it was not stored, and now it is. -/
structure Gains (name : Text) (e e' : Engine σ ρ) : Prop where
  missing : e.relations.lookup name = none
  there : (e'.relations.lookup name).isSome

section

variable (undecides : O.Undecides accepted)

include undecides

/-- A rule that applies derives a relation, if no gate fails. -/
theorem makes_derive_of_applies (stored : Accepted accepted e.relations) {r : Rule}
    (applies : r.Applies e.relations) :
    (r.derive O e.relations).Makes Fault.IsUndecided fun d? => ∃ d, d? = some d ∧ accepted d := by
  have made := makes_derive undecides.keeps stored r
  obtain ⟨-, act, derived⟩ := (r.applies_or_not O e.relations).resolve_right fun both => both.1 applies
  rw [derived, Build.Makes.map_iff] at made ⊢
  exact made.weaken fun d ok => ⟨d, rfl, ok d rfl⟩

/-- A rule that applies is fired only if its head was missing. -/
theorem fire_of_applies (stored : Accepted accepted e.relations) {r : Rule} (member : r ∈ e.rules)
    (applies : r.Applies e.relations) :
    (fire O r).Ends Fault.IsUndecided (Extends accepted e)
      (fun changed e' => Extends accepted e e' ∧ changed = true ∧ Gains r.head e e') e := by
  have unchanged : ∀ t, SameStore e t → Extends accepted e t := fun t same => same.extends stored
  have derives : (applyRule O r).Ends Fault.IsUndecided (SameStore e)
      (fun d? t => (∃ d, d? = some d ∧ accepted d) ∧ SameStore e t) e := by
    refine (ends_get e).bind ?_
    rintro _ _ ⟨rfl, rfl⟩
    exact ends_onGates (makes_derive_of_applies undecides stored applies) ⟨rfl, rfl⟩
  refine (derives.mono unchanged fun _ _ => id).bind ?_
  rintro _ e₁ ⟨⟨d, rfl, ok⟩, same⟩
  refine (ends_get e₁).bind ?_
  rintro _ _ ⟨rfl, rfl⟩
  rw [same.relations]
  cases found : e.relations.lookup r.head with
  | none =>
      refine ⟨.of_put same stored member applies found ok, rfl, found, ?_⟩
      simp [Keyed.lookup_put_self]
  | some old =>
      have okOld := stored r.head old found
      refine ((ends_onGates (undecides.keeps.join okOld ok) same).mono unchanged fun _ _ => id).bind ?_
      rintro combined e₂ ⟨okC, same₂⟩
      refine ((ends_onGates (undecides.same okOld okC) same₂).mono unchanged fun _ _ => id).bind ?_
      rintro decided e₃ ⟨never, -⟩
      exact never.elim

/-- The pass lemma: a pass goes to its end only if the heads of all rules that apply were missing. -/
theorem pass_extends (stored : Accepted accepted e.relations) {rules : List Rule}
    (members : ∀ r ∈ rules, r ∈ e.rules) :
    (pass O rules).Ends Fault.IsUndecided (Extends accepted e)
      (fun changed e' => Extends accepted e e' ∧
        ∀ r ∈ rules, r.Applies e.relations → changed = true ∧ Gains r.head e e') e := by
  induction rules generalizing e with
  | nil => exact .pure ⟨SameStore.extends ⟨rfl, rfl⟩ stored, fun r member => by cases member⟩
  | cons r rules ih =>
      have fired : (fire O r).Ends Fault.IsUndecided (Extends accepted e) (fun changed e' => Extends accepted e e' ∧
          (r.Applies e.relations → changed = true ∧ Gains r.head e e')) e := by
        by_cases applies : r.Applies e.relations
        · apply (fire_of_applies undecides stored (members r List.mem_cons_self) applies).mono fun _ => id
          intro _ _ both
          exact ⟨both.1, fun _ => both.2⟩
        · rw [Build.Ends, fire_of_not_applies applies]
          exact ⟨SameStore.extends ⟨rfl, rfl⟩ stored, fun h => absurd h applies⟩
      apply fired.bind
      rintro changed e₁ ⟨first, gained⟩
      have members' : ∀ r ∈ rules, r ∈ e₁.rules := fun r member =>
        first.rules ▸ members r (List.mem_cons_of_mem _ member)
      have rest := (ih first.stored members').mono (fun _ => first.trans) fun _ _ => id
      apply rest.bind
      rintro later e₂ ⟨second, laterGained⟩
      refine .pure ⟨first.trans second, fun r' member applies => ?_⟩
      rcases List.mem_cons.1 member with rfl | member
      · obtain ⟨rfl, missing, there⟩ := gained applies
        exact ⟨rfl, missing, second.isSome there⟩
      · obtain ⟨rfl, missing, there⟩ := laterGained r' member (first.applies applies)
        refine ⟨by simp, ?_, there⟩
        by_contra before
        have still := first.isSome (Option.ne_none_iff_isSome.1 before)
        simp [missing] at still

/-- Two passes: what the first one stores is there in the second, which is abandoned. -/
theorem passes_abandoned (stored : Accepted accepted e.relations) {r : Rule} (member : r ∈ e.rules)
    (applies : r.Applies e.relations) (budget : Int) (left before : Nat) :
    (passes O budget (left + 2) before).Ends Fault.IsUndecided (Extends accepted e) (fun _ _ => False) e := by
  refine (ends_get e).bind ?_
  rintro _ _ ⟨rfl, rfl⟩
  apply (pass_extends undecides stored fun _ => id).bind
  rintro changed e₁ ⟨first, gained⟩
  obtain ⟨rfl, gain⟩ := gained r member applies
  have member' : r ∈ e₁.rules := first.rules ▸ member
  have second := (pass_extends undecides first.stored fun _ => id).mono (fun _ => first.trans) fun _ _ => id
  refine (ends_get e₁).bind ?_
  rintro _ _ ⟨rfl, rfl⟩
  apply second.bind
  rintro changed e₂ ⟨-, regained⟩
  have missing := (regained r member' (first.applies applies)).2.missing
  exact absurd gain.there (by simp [missing])

end

end Engine

/-! ## Universes of formulas -/

/-- Gates that never fail, and whose negations are no truth values, neither plain ones nor those of arrays. -/
structure GateSet.Symbolic [Shown α] (A : GateSet σ α) : Prop where
  total : A.Total
  not : ∀ a, (A.not a).Makes (fun _ => False) fun b => Shown.concrete? b = none

namespace Universe

open Engine

variable {n : Nat} [Shown α] {O : TensorOps σ α} {R : RelationOps τ ρ} {content : ρ → Tensor α}

/-- Lifted operations of such gates, without limits of storage, or with limits that the cube of a composition keeps. -/
inductive SymbolicOps (n : Nat) : TensorOps σ α → Prop
  | lifted {A : GateSet σ α} (gates : A.Symbolic) : SymbolicOps n (.lifted A)
  | stored {A : GateSet σ α} (gates : A.Symbolic) (cube : (Shape.rectangular 3 n).checkStorage = .ok ()) :
      SymbolicOps n (TensorOps.lifted A).stored

/-- No comparison of relations is decided where no complement is a truth value. -/
theorem SymbolicOps.undecides (h : SymbolicOps n O) : (mk O n).relationOps.Undecides (·.axes = [n, n]) := by
  have concrete : ∀ sort, Fault.IsUndecided (.notConcrete sort) := fun sort => ⟨sort, rfl⟩
  have all : ∀ {A : GateSet σ α}, A.Symbolic → ∀ T, T.axes ≠ [] →
      ((TensorOps.lifted A).all T).Makes Fault.IsUndecided fun T' => ∀ a ∈ T'.toList, Shown.concrete? a = none := by
    intro A gates T filled
    exact TensorOps.makes_all_cells gates.total.failsWithin
      (fun a => (gates.not a).mono (fun _ => False.elim) fun _ => id) filled
  cases h with
  | lifted gates =>
      have obeys := TensorOps.ObeysShapes.lifted (E := Fault.IsUndecided) gates.total.failsWithin
      exact ⟨obeys.keeps trivial trivial concrete, obeys.same_undecided (all gates)⟩
  | stored gates cube =>
      have obeys := (TensorOps.ObeysShapes.lifted (E := Fault.IsUndecided) gates.total.failsWithin).storable
      exact ⟨obeys.keeps (Shape.checkStorage_square cube) cube concrete, obeys.same_undecided (all gates)⟩

theorem SymbolicOps.undecides_offered (h : SymbolicOps n O) (offers : (mk O n).Offers R content) :
    R.Undecides fun a => (content a).axes = [n, n] := by
  cases offers with
  | tensors => exact h.undecides
  | labelled => exact h.undecides.labelled

/-- Chaining with a budget of two passes or more fails, since an equality is not decided, just where the body of a rule
is stored. Otherwise its first pass settles, calls no gate and stores nothing. In either case what was stored stays as
it was, and what is new is the head of a rule whose body is stored. -/
theorem forwardChain_undecided (ops : SymbolicOps n O) (offers : (mk O n).Offers R content) {e : Engine τ ρ}
    (reachable : Reachable R e) {budget : Int} (twice : 2 ≤ budget) :
    ((∃ sort, ((forwardChain R budget).runFrom e).1 = .error (.notConcrete sort)) ↔
      ∃ r ∈ e.rules, r.Applies e.relations) ∧
    ((¬∃ r ∈ e.rules, r.Applies e.relations) →
      ∃ outcome, (forwardChain R budget).runFrom e = (.ok outcome, e) ∧ outcome.passes = 1 ∧
        outcome.warning? = none) ∧
    Extends (fun a => (content a).axes = [n, n]) e ((forwardChain R budget).runFrom e).2 := by
  have undecides := ops.undecides_offered offers
  have stored := reachable.stored undecides.keeps
  obtain ⟨left, passes⟩ : ∃ left, budget.toNat = left + 2 := ⟨budget.toNat - 2, by omega⟩
  rw [forwardChain, passes]
  by_cases applies : ∃ r ∈ e.rules, r.Applies e.relations
  · obtain ⟨r, member, stands⟩ := applies
    have outcome := passes_abandoned undecides stored member stands budget left 0
    rw [Build.Ends] at outcome
    rcases run : (Engine.passes R budget (left + 2) 0).runFrom e with ⟨f | _, e'⟩
    all_goals rw [run] at outcome
    · obtain ⟨⟨sort, rfl⟩, more⟩ := outcome
      exact ⟨⟨fun _ => ⟨r, member, stands⟩, fun _ => ⟨sort, rfl⟩⟩, fun none => absurd ⟨r, member, stands⟩ none, more⟩
    · exact outcome.elim
  · have still := pass_of_not_applies (O := R) fun r member stands => applies ⟨r, member, stands⟩
    have run : (Engine.passes R budget (left + 2) 0).runFrom e = (.ok (.settled 1), e) := by
      rw [Engine.passes, Build.runFrom_bind_ok (show (get : Build (Engine τ ρ) _).runFrom e = (.ok e, e) from rfl),
        Build.runFrom_bind_ok still]
      rfl
    rw [run]
    refine ⟨⟨fun failed => ?_, fun stands => absurd stands applies⟩, fun _ => ?_, ?_⟩
    · obtain ⟨sort, failed⟩ := failed
      cases failed
    · exact ⟨_, rfl, rfl, rfl⟩
    · exact SameStore.extends ⟨rfl, rfl⟩ stored

/-- Over a circuit, a universe without points fails to compare relations without cells. -/
theorem forwardChain_undecided_empty :
    let edge : Tensor Nat := .ofFn [0, 0] fun _ _ => 0
    let R := (mk (TensorOps.lifted (Circuit.gates (id : Nat → Nat))).stored 0).relationOps
    let e : Engine (Circuit Nat) (Tensor Nat) := ⟨#[], [("edge", edge)], [⟨"path", .implication "edge"⟩]⟩
    Reachable R e ∧ (∃ sort, ((forwardChain R 2).runFrom e).1 = .error (.notConcrete sort)) ∧
    ((forwardChain R 2).runFrom e).2.relations.map Prod.fst = (["edge", "path"] : List Text) := by
  intro edge R e
  have symbolic : (Circuit.gates (id : Nat → Nat)).Symbolic := ⟨Circuit.total_gates id, fun _ _ => rfl⟩
  have reachable : Reachable R e :=
    .addRule "path" ["edge"] "implication" <| .setRelation "edge" edge (.start #[])
  have cube : (Shape.rectangular 3 (0 : Nat)).checkStorage = .ok () := rfl
  have applies : ∃ r ∈ e.rules, r.Applies e.relations := ⟨_, .head _, List.forall_mem_singleton.2 rfl⟩
  exact ⟨reachable, (forwardChain_undecided (.stored symbolic cube) .tensors reachable le_rfl).1.2 applies,
    by decide +kernel⟩

/-- Truth values of the kind that comparisons of arrays give. -/
structure ArrayTruth where
  isTrue : Bool

instance : HasTruth ArrayTruth where
  value a := .foreign Value.arrayTruth (if a.isTrue then "np.True_" else "np.False_") (.truth a.isTrue)
  ofTruth b := ⟨b⟩

/-- Negations that are no plain truth values are not enough: over truth values of arrays, an equality is decided and
chaining settles, although the body of a rule is stored. And over a circuit a budget of more than two passes that is no
whole number is refused, although no rule is there. -/
theorem forwardChain_decided :
    let A : GateSet Unit ArrayTruth := .minimal
    let edge : Tensor ArrayTruth := .ofFn [1, 1] fun _ _ => ⟨true⟩
    let R := (mk (TensorOps.lifted A).stored 1).relationOps
    let e : Engine Unit (Tensor ArrayTruth) := ⟨(), [("edge", edge)], [⟨"path", .implication "edge"⟩]⟩
    let O := (mk (TensorOps.lifted (Circuit.gates (id : Nat → Nat))).stored 1).relationOps
    let half : Value := .real (.finite false 25 (-1))
    (A.Total ∧ (∀ a, (A.not a).Makes (fun _ => False) fun b => Shown.truth? b = none) ∧ Reachable R e ∧
      (∃ r ∈ e.rules, r.Applies e.relations) ∧ ((forwardChain R 2).runFrom e).1 = .ok (.settled 2)) ∧
    ((forwardChainUpTo O half).runFrom ⟨#[], [], []⟩).1 = .error (.misuse (.noNumber "float")) := by
  intro A edge R e O half
  have total : A.Total :=
    .ofPrimitives (fun _ _ => trivial) (fun _ _ => trivial) (fun _ _ _ => trivial) fun _ _ _ => trivial
  have reachable : Reachable R e :=
    .addRule "path" ["edge"] "implication" <| .setRelation "edge" edge (.start ())
  have applies : ∃ r ∈ e.rules, r.Applies e.relations := ⟨_, .head _, List.forall_mem_singleton.2 rfl⟩
  have run : ((forwardChain R 2).runFrom e).1.toOption = some (.settled 2) := by decide +kernel
  have settled : ((forwardChain R 2).runFrom e).1 = .ok (.settled 2) := by
    cases outcome : ((forwardChain R 2).runFrom e).1 with
    | error f =>
        rw [outcome] at run
        cases run
    | ok finish =>
        rw [outcome] at run
        exact congrArg Except.ok (Option.some.inj run)
  exact ⟨⟨total, fun _ _ => rfl, reachable, applies, settled⟩, rfl⟩

end Universe

end BoolCalculus
