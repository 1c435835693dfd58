import BoolCalculus.Proofs.Rule.Store
import BoolCalculus.Proofs.Universe.Renaming

/-!
# Renaming the points under an engine of rules

Two engines with the same rules whose stores correspond do the same: every call has the same outcome, up to what
corresponds, and leaves stores that correspond. All this needs are operations whose outcomes correspond on
things that do (`RelationOps.Alike`). On truth values, renaming the points of a universe is such a
correspondence, so that no names of points show in a run of forward chaining (`Universe.respects_renaming`).
-/

namespace BoolCalculus

variable {σ τ ρ ρ' α β β' γ γ' : Type}

namespace Build

variable {E : Fault → Prop}

/-- From states with `Pre`, two constructions have the same outcome, with related results, and leave states with `Pre`. -/
def InStep (Pre : σ → τ → Prop) (Rel : β → γ → Prop) (act : Build σ β) (act' : Build τ γ) : Prop :=
  ∀ s t, Pre s t → SameUpTo (fun _ => False) Rel (act.runFrom s).1 (act'.runFrom t).1 ∧
    Pre (act.runFrom s).2 (act'.runFrom t).2

variable {Pre : σ → τ → Prop} {Rel : β → γ → Prop} {Rel' : β' → γ' → Prop}

theorem InStep.pure {b : β} {c : γ} (related : Rel b c) :
    InStep Pre Rel (Pure.pure b : Build σ β) (Pure.pure c : Build τ γ) :=
  fun _ _ pre => ⟨.ok related, pre⟩

theorem InStep.bind {act : Build σ β} {act' : Build τ γ} {next : β → Build σ β'}
    {next' : γ → Build τ γ'} (first : act.InStep Pre Rel act')
    (rest : ∀ b c, Rel b c → (next b).InStep Pre Rel' (next' c)) :
    (act >>= next).InStep Pre Rel' (act' >>= next') := by
  intro s t pre
  obtain ⟨outcome, after⟩ := first s t pre
  rcases run : act.runFrom s with ⟨r, u⟩
  rcases run' : act'.runFrom t with ⟨r', u'⟩
  rw [run, run'] at outcome after
  cases outcome with
  | ok related =>
      rw [runFrom_bind_ok run, runFrom_bind_ok run']
      exact rest _ _ related u u' after
  | error f =>
      rw [runFrom_bind_error run, runFrom_bind_error run']
      exact ⟨.error f, after⟩
  | tolerated never => exact never.elim

/-- Where results are the same, so are outcomes. -/
theorem InStep.eq {act : Build σ β} {act' : Build τ β} (h : act.InStep Pre (· = ·) act') {s : σ} {t : τ}
    (pre : Pre s t) : (act'.runFrom t).1 = (act.runFrom s).1 := by
  have outcome := (h s t pre).1
  generalize (act.runFrom s).1 = r at outcome ⊢
  generalize (act'.runFrom t).1 = r' at outcome ⊢
  cases outcome with
  | ok same => rw [same]
  | error f => rfl
  | tolerated never => exact never.elim

/-- Folds over items that correspond, from starts that do. -/
theorem Follows.foldlM {f : β → β' → Build σ β} {g : γ → γ' → Build τ γ}
    (each : ∀ b c x y, Rel b c → Rel' x y → (f b x).Follows E Rel (g c y)) {xs : List β'} {ys : List γ'}
    (items : List.Forall₂ Rel' xs ys) {b : β} {c : γ} (start : Rel b c) :
    (xs.foldlM f b).Follows E Rel (ys.foldlM g c) := by
  induction items generalizing b c with
  | nil => exact .pure start
  | cons same _ ih =>
      rw [List.foldlM_cons, List.foldlM_cons]
      exact (each _ _ _ _ start same).bind fun _ _ next => ih next

theorem Follows.onState {act : Build σ β} {act' : Build τ γ} (h : act.Follows E Rel act') :
    (Counted.onState act).Follows E Rel (Counted.onState act') :=
  fun s t => h s.state t.state

theorem Follows.fresh {Rel : ρ → ρ' → Prop} {act : Build σ ρ} {act' : Build τ ρ'}
    (h : act.Follows E Rel act') :
    (Counted.fresh act).Follows E (fun a b => Rel a.content b.content) (Counted.fresh act') :=
  h.onState.bind fun _ _ related _ _ => .ok related

end Build

/-! ## Operations that correspond -/

/-- On things that are related, the operations have the same outcomes, whatever the states. -/
structure RelationOps.Alike (Rel : ρ → ρ' → Prop) (O : RelationOps σ ρ) (O' : RelationOps τ ρ') : Prop where
  require : ∀ {a b}, Rel a b → (O.require a).Follows (fun _ => False) (· = ·) (O'.require b)
  inv : ∀ {a b}, Rel a b → (O.inv a).Follows (fun _ => False) Rel (O'.inv b)
  circ : ∀ {a b c d}, Rel a b → Rel c d → (O.circ a c).Follows (fun _ => False) Rel (O'.circ b d)
  join : ∀ {a b c d}, Rel a b → Rel c d → (O.join a c).Follows (fun _ => False) Rel (O'.join b d)
  same : ∀ {a b c d}, Rel a b → Rel c d → (O.same a c).Follows (fun _ => False) (· = ·) (O'.same b d)

variable {Rel : ρ → ρ' → Prop} {O : RelationOps σ ρ} {O' : RelationOps τ ρ'}

/-- Labels have no part in what operations do. -/
theorem RelationOps.Alike.labelled (h : O.Alike Rel O') :
    O.labelled.Alike (fun a b => Rel a.content b.content) O'.labelled where
  require related := (h.require related).onState
  inv related := (h.inv related).fresh
  circ related related' := (h.circ related related').fresh
  join related related' := (h.join related related').fresh
  same related related' := (h.same related related').onState

namespace Keyed

variable {store : Keyed ρ} {store' : Keyed ρ'}

/-- The same names are stored, each with related things. -/
def Corresponds (Rel : ρ → ρ' → Prop) (store : Keyed ρ) (store' : Keyed ρ') : Prop :=
  ∀ name, Option.Rel Rel (store.lookup name) (store'.lookup name)

/-- A name is stored on both sides or on none. -/
theorem Corresponds.lookup (h : Corresponds Rel store store') (name : Text) :
    (store.lookup name = none ∧ store'.lookup name = none) ∨
      ∃ a b, store.lookup name = some a ∧ store'.lookup name = some b ∧ Rel a b := by
  have found := h name
  rcases here : List.lookup name store with _ | a
  all_goals
    rcases there : List.lookup name store' with _ | b
    all_goals rw [here, there] at found
  · exact .inl ⟨rfl, rfl⟩
  · cases found
  · cases found
  · cases found with
    | some related => exact .inr ⟨a, b, rfl, rfl, related⟩

theorem Corresponds.put (h : Corresponds Rel store store') {a : ρ} {b : ρ'} (related : Rel a b)
    (name : Text) : Corresponds Rel (store.put name a) (store'.put name b) := by
  intro other
  by_cases same : other = name
  · subst same
    rw [lookup_put_self, lookup_put_self]
    exact .some related
  · rw [lookup_put_ne store a same, lookup_put_ne store' b same]
    exact h other

/-- The relations of a body correspond, or some name is missing in both stores. -/
theorem Corresponds.mapM (h : Corresponds Rel store store') (names : List Text) :
    Option.Rel (List.Forall₂ Rel) (names.mapM (store.lookup ·)) (names.mapM (store'.lookup ·)) := by
  induction names with
  | nil => exact .some .nil
  | cons name names ih =>
      rw [List.mapM_cons, List.mapM_cons]
      rcases h.lookup name with ⟨here, there⟩ | ⟨a, b, here, there, related⟩
      · rw [here, there]
        exact .none
      · rw [here, there]
        generalize names.mapM (store.lookup ·) = found at ih ⊢
        generalize names.mapM (store'.lookup ·) = found' at ih ⊢
        cases ih with
        | none => exact .none
        | some rest => exact .some (.cons related rest)

end Keyed

/-- From stores that correspond, a rule derives things that do, or nothing from both. -/
theorem RelationOps.Alike.derive (alike : O.Alike Rel O') {store : Keyed ρ} {store' : Keyed ρ'}
    (stores : store.Corresponds Rel store') (r : Rule) :
    (r.derive O store).Follows (fun _ => False) (Option.Rel Rel) (r.derive O' store') := by
  obtain ⟨head, premise⟩ := r
  cases premise with
  | composition first rest =>
      have items := stores.mapM rest
      simp only [Rule.derive]
      rcases stores.lookup first with ⟨here, there⟩ | ⟨a, b, here, there, start⟩
      · rw [here, there]
        exact .pure .none
      · rw [here, there]
        generalize rest.mapM (store.lookup ·) = found at items ⊢
        generalize rest.mapM (store'.lookup ·) = found' at items ⊢
        cases items with
        | none => exact .pure .none
        | some items =>
            have folded := Build.Follows.foldlM (f := O.circ) (g := O'.circ)
              (fun _ _ _ _ => alike.circ) items start
            exact folded.map fun _ _ => .some
  | inverse source =>
      simp only [Rule.derive]
      rcases stores.lookup source with ⟨here, there⟩ | ⟨a, b, here, there, related⟩
      · rw [here, there]
        exact .pure .none
      · rw [here, there]
        exact (alike.inv related).map fun _ _ => .some
  | implication source => exact .pure (stores source)

namespace Engine

/-! ## Engines that correspond -/

/-- Two engines have the same rules, and stores that correspond. -/
structure Corresponds (Rel : ρ → ρ' → Prop) (e : Engine σ ρ) (e' : Engine τ ρ') : Prop where
  rules : e'.rules = e.rules
  stores : e.relations.Corresponds Rel e'.relations

theorem inStep_get : Build.InStep (Corresponds Rel) (Corresponds Rel)
    (get : Build (Engine σ ρ) (Engine σ ρ)) (get : Build (Engine τ ρ') (Engine τ ρ')) :=
  fun _ _ pre => ⟨.ok pre, pre⟩

theorem inStep_onGates {Same : β → γ → Prop} {act : Build σ β} {act' : Build τ γ}
    (h : act.Follows (fun _ => False) Same act') :
    Build.InStep (Corresponds Rel) Same (onGates act) (onGates act') :=
  fun e e' pre => ⟨h e.gates e'.gates, pre.rules, pre.stores⟩

theorem inStep_put {a : ρ} {b : ρ'} (related : Rel a b) (name : Text) :
    Build.InStep (Corresponds Rel) (· = ·)
      (modify fun e : Engine σ ρ => { e with relations := e.relations.put name a })
      (modify fun e : Engine τ ρ' => { e with relations := e.relations.put name b }) :=
  fun _ _ pre => ⟨.ok rfl, pre.rules, pre.stores.put related name⟩

section

variable (alike : O.Alike Rel O')

include alike

/-- Corresponding relations are accepted in both engines or refused in both. -/
theorem inStep_setRelation {a : ρ} {b : ρ'} (related : Rel a b) (name : Text) :
    Build.InStep (Corresponds Rel) (· = ·) (setRelation O name a) (setRelation O' name b) := by
  apply (inStep_onGates (alike.require related)).bind
  intro _ _ _
  exact inStep_put related name

/-- A rule derives corresponding relations. -/
theorem inStep_applyRule (r : Rule) :
    Build.InStep (Corresponds Rel) (Option.Rel Rel) (applyRule O r) (applyRule O' r) := by
  apply inStep_get.bind
  intro e e' pre
  exact inStep_onGates (alike.derive pre.stores r)

/-- The step lemma: firing one rule keeps the correspondence, and changes both heads or none. -/
theorem inStep_fire (r : Rule) :
    Build.InStep (Corresponds Rel) (· = ·) (fire O r) (fire O' r) := by
  apply (inStep_applyRule alike r).bind
  intro derived derived' found
  cases found with
  | none => exact .pure rfl
  | some related =>
      apply inStep_get.bind
      intro e e' pre
      rcases pre.stores.lookup r.head with ⟨here, there⟩ | ⟨a, b, here, there, old⟩
      · rw [here, there]
        apply (inStep_put related r.head).bind
        intro _ _ _
        exact .pure rfl
      · rw [here, there]
        apply (inStep_onGates (alike.join old related)).bind
        intro combined combined' joined
        apply (inStep_onGates (alike.same old joined)).bind
        rintro decided _ rfl
        cases decided with
        | true => exact .pure rfl
        | false =>
            apply (inStep_put joined r.head).bind
            intro _ _ _
            exact .pure rfl

/-- Passes report a change in both engines or in neither. -/
theorem inStep_pass (rules : List Rule) :
    Build.InStep (Corresponds Rel) (· = ·) (pass O rules) (pass O' rules) := by
  induction rules with
  | nil => exact .pure rfl
  | cons r rules ih =>
      apply (inStep_fire alike r).bind
      rintro changed _ rfl
      apply ih.bind
      rintro later _ rfl
      exact .pure rfl

/-- The run lemma: both runs end after the same number of passes, and in the same way. -/
theorem inStep_passes (budget : Int) (left before : Nat) :
    Build.InStep (Corresponds Rel) (· = ·) (passes O budget left before)
      (passes O' budget left before) := by
  induction left generalizing before with
  | zero => exact .pure rfl
  | succ left ih =>
      apply inStep_get.bind
      intro e e' pre
      rw [pre.rules]
      apply (inStep_pass alike e.rules).bind
      rintro changed _ rfl
      cases changed with
      | true => exact ih (before + 1)
      | false => exact .pure rfl

theorem inStep_forwardChain (budget : Int) :
    Build.InStep (Corresponds Rel) (· = ·) (forwardChain O budget) (forwardChain O' budget) :=
  inStep_passes alike budget _ 0

end

end Engine

namespace Universe

open Engine

variable {n : Nat}

/-- A renamed relation relates the renamed points. -/
theorem has_rename (p : Equiv.Perm (Fin n)) {R : Tensor Bool} (binary : R.axes = [n, n]) (x y : Fin n) :
    (R.rename p).Has (p x) (p y) ↔ R.Has x y := by
  obtain ⟨M, rfl⟩ := Tensor.exists_ofMatrix binary
  rw [Tensor.rename_ofMatrix, Tensor.has_points, Tensor.has_points, Matrix.rename_image]

/-- A renaming keeps the axes, and with them what is refused. -/
theorem maps_requireBinary (U : Universe σ Bool) (p : Equiv.Perm (Fin U.size)) (R : Tensor Bool) :
    (U.requireBinary [R]).Maps id (U.requireBinary [R.rename p]) := by
  rcases U.binary_or_refused p [R] with binary | ⟨f, refused, refused'⟩
  · have same : U.requireBinary [R.rename p] = U.requireBinary [R] := U.requireBinary_rename p [R]
    rw [same, U.requireBinary_ok binary]
    exact .pure rfl
  · rw [List.map_singleton] at refused'
    rw [refused, refused']
    exact .throw f

theorem maps_truthValue (U : Universe σ Bool) (T : Tensor Bool) :
    (U.truthValue T).Maps id (U.truthValue T) := by
  rw [truthValue, requireScalars_eq]
  cases unlike? .scalar U.size [T] with
  | some cause => exact .throw _
  | none =>
      simp only [Build.refuse, pure_bind]
      split
      · exact .pure rfl
      · exact .throw _

/-- What a universe of truth values offers to engines corresponds to itself under a renaming. -/
theorem TruthTensors.alike {O : TensorOps σ Bool} (ops : TruthTensors O) (p : Equiv.Perm (Fin n)) :
    (mk O n).relationOps.Alike (fun R S => S = R.rename p) (mk O n).relationOps := by
  constructor
  case require =>
    rintro R _ rfl
    exact (maps_requireBinary (mk O n) p R).follows_same
  case inv =>
    rintro R _ rfl
    exact (rename_inv p ops R).follows
  case circ =>
    rintro R _ S _ rfl rfl
    exact (rename_circ p ops R S).follows
  case join =>
    rintro R _ S _ rfl rfl
    exact (rename_join p ops R S).follows
  case same =>
    rintro R _ S _ rfl rfl
    exact ((rename_equals p ops R S).bind (maps_truthValue (mk O n))).follows_same

/-- What is offered to engines corresponds to itself, with labels or without. -/
theorem Offers.alike {O : TensorOps σ Bool} {R : RelationOps τ ρ} {content : ρ → Tensor Bool}
    (offers : (mk O n).Offers R content) (ops : TruthTensors O) (p : Equiv.Perm (Fin n)) :
    R.Alike (fun a b => content b = (content a).rename p) R := by
  cases offers with
  | tensors => exact ops.alike p
  | labelled => exact (ops.alike p).labelled

/-- A renaming of the points does not show in what a universe of truth values does. -/
structure RespectsRenaming (U : Universe σ Bool) (p : Equiv.Perm (Fin U.size)) : Prop where
  /-- The renamed relation relates the images of the points that the relation relates. -/
  action : ∀ R : Tensor Bool, R.axes = [U.size, U.size] →
    (R.rename p).axes = [U.size, U.size] ∧ ∀ x y : Fin U.size, (R.rename p).Has (p x) (p y) ↔ R.Has x y
  comp : ∀ R, U.comp (R.rename p) = Tensor.rename p <$> U.comp R
  meet : ∀ R S, U.meet (R.rename p) (S.rename p) = Tensor.rename p <$> U.meet R S
  join : ∀ R S, U.join (R.rename p) (S.rename p) = Tensor.rename p <$> U.join R S
  inv : ∀ R, U.inv (R.rename p) = Tensor.rename p <$> U.inv R
  circ : ∀ R S, U.circ (R.rename p) (S.rename p) = Tensor.rename p <$> U.circ R S
  diag : U.diag = Tensor.rename p <$> U.diag
  empty : U.empty = Tensor.rename p <$> U.empty
  total : U.total = Tensor.rename p <$> U.total
  closure : ∀ R reflexive, U.closure (R.rename p) reflexive = Tensor.rename p <$> U.closure R reflexive
  equals : ∀ R S, U.equals (R.rename p) (S.rename p) = U.equals R S
  leq : ∀ R S, U.leq (R.rename p) (S.rename p) = U.leq R S

/-- Engines with stores that correspond under a renaming have the same outcomes, and go through stores that correspond:
after every firing, every pass over some rules and every run, whether it ends or fails. -/
structure ChainsInStep (R : RelationOps τ ρ) (Rel : ρ → ρ → Prop) : Prop where
  setRelation : ∀ name {a b}, Rel a b →
    Build.InStep (Corresponds Rel) (· = ·) (setRelation R name a) (setRelation R name b)
  applyRule : ∀ r, Build.InStep (Corresponds Rel) (Option.Rel Rel) (applyRule R r) (applyRule R r)
  fire : ∀ r, Build.InStep (Corresponds Rel) (· = ·) (fire R r) (fire R r)
  pass : ∀ rules, Build.InStep (Corresponds Rel) (· = ·) (pass R rules) (pass R rules)
  /-- The end of a run tells the number of passes and the warning. -/
  forwardChain : ∀ budget {e e'}, Corresponds Rel e e' →
    ((forwardChain R budget).runFrom e').1 = ((forwardChain R budget).runFrom e).1 ∧
    Corresponds Rel ((forwardChain R budget).runFrom e).2 ((forwardChain R budget).runFrom e').2

/-- Renaming the points of a universe of truth values changes nothing. All operations on binary relations commute
with the renaming, the comparisons have the same values, and engines whose stores correspond stay in step: forward
chaining ends in both after the same number of passes, with the same warning, and in stores that correspond. It does
end where what is stored are binary relations and their cube can be stored. -/
theorem respects_renaming {O : TensorOps σ Bool} (ops : TruthTensors O) (p : Equiv.Perm (Fin n)) :
    RespectsRenaming (mk O n) p ∧
    ∀ {τ ρ : Type} {R : RelationOps τ ρ} {content : ρ → Tensor Bool}, (mk O n).Offers R content →
      ChainsInStep R (fun a b => content b = (content a).rename p) ∧
      (TruthOps n O → ∀ e : Engine τ ρ,
        Interpretation.Accepted (fun a => (content a).axes = [n, n]) e.relations →
          ∀ budget, ∃ ending e', (forwardChain R budget).runFrom e = (.ok ending, e')) := by
  constructor
  · exact
      { action := fun R binary => ⟨(Tensor.axes_rename p R).trans binary, has_rename p binary⟩
        comp := fun R => (rename_comp p ops R).eq_map
        meet := fun R S => (rename_meet p ops R S).eq_map
        join := fun R S => (rename_join p ops R S).eq_map
        inv := fun R => (rename_inv p ops R).eq_map
        circ := fun R S => (rename_circ p ops R S).eq_map
        diag := (rename_diag p ops).eq_map
        empty := (rename_binLift p ops false).eq_map
        total := (rename_binLift p ops true).eq_map
        closure := fun R reflexive => (rename_closure p ops reflexive R).eq_map
        equals := fun R S => (rename_equals p ops R S).eq_map.trans (id_map _)
        leq := fun R S => (rename_leq p ops R S).eq_map.trans (id_map _) }
  · intro τ ρ R content offers
    have alike := offers.alike ops p
    constructor
    · exact
        { setRelation := fun name _ _ related => inStep_setRelation alike related name
          applyRule := inStep_applyRule alike
          fire := inStep_fire alike
          pass := inStep_pass alike
          forwardChain := fun budget e e' pre =>
            ⟨(inStep_forwardChain alike budget).eq pre, (inStep_forwardChain alike budget e e' pre).2⟩ }
    · intro storable e stored budget
      obtain ⟨ending, e', run, _⟩ := passes_ensures (offers.computes storable) budget budget.toNat 0 stored
      exact ⟨ending, e', run⟩

/-- Two edges of three points, and the same with two points exchanged: both runs end after two passes. -/
theorem respects_renaming_swap :
    let p : Equiv.Perm (Fin 3) := Equiv.swap 0 1
    let edge : Tensor Bool := .ofFn [3, 3] fun c _ => c == [0, 1] || c == [1, 2]
    let rules : List Rule := [⟨"path", .implication "edge"⟩, ⟨"path", .composition "path" ["edge"]⟩]
    let e : Engine Unit (Tensor Bool) := ⟨(), [("edge", edge)], rules⟩
    let e' : Engine Unit (Tensor Bool) := ⟨(), [("edge", edge.rename p)], rules⟩
    let R : RelationOps Unit (Tensor Bool) := (mk .dense 3).relationOps
    (edge.rename p).toList ≠ edge.toList ∧ RespectsRenaming (mk .dense 3 : Universe Unit Bool) p ∧
    ((forwardChain R 10).runFrom e).1 = .ok (.settled 2) ∧
    ((forwardChain R 10).runFrom e').1 = .ok (.settled 2) ∧
    Corresponds (fun S T => T = S.rename p) ((forwardChain R 10).runFrom e).2
      ((forwardChain R 10).runFrom e').2 := by
  intro p edge rules e e' R
  obtain ⟨operations, engines⟩ := respects_renaming (σ := Unit) (n := 3) .dense p
  have pre : Corresponds (fun S T => T = S.rename p) e e' := by
    have nothing : Keyed.Corresponds (fun S T : Tensor Bool => T = S.rename p) [] [] := fun _ => .none
    exact ⟨rfl, nothing.put rfl "edge"⟩
  have stored : Interpretation.Accepted (fun a => a.axes = [3, 3]) e.relations := by
    have nothing : Interpretation.Accepted (fun a : Tensor Bool => a.axes = [3, 3]) [] := nofun
    exact accepted_put nothing rfl
  obtain ⟨inStep, ends⟩ := engines .tensors
  obtain ⟨outcome, after⟩ := inStep.forwardChain 10 pre
  obtain ⟨ending, left, run⟩ := ends .dense e stored 10
  have settled : ((forwardChain R 10).runFrom e).1.toOption = some (.settled 2) := by decide +kernel
  have run : (forwardChain R 10).runFrom e = (.ok ending, left) := run
  rw [run] at settled
  obtain rfl := Option.some.inj settled
  refine ⟨by decide +kernel, operations, by rw [run], ?_, after⟩
  rw [outcome, run]

end Universe

end BoolCalculus
