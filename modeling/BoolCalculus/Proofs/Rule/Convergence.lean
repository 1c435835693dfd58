import BoolCalculus.Proofs.Rule.Store
import Mathlib.Data.Finset.Prod
import Mathlib.Data.Fintype.Option
import Mathlib.Data.Fintype.Prod

/-!
# Convergence of forward chaining

A pass says truly whether it changed the store: it either adds a name or a pair of points (`Engine.pass_advances`), or
leaves everything as it is. What can be added are names of heads, and pairs of points under them, so their number bounds
the passes (`Engine.Grows.le_room`), and chaining with a larger budget settles (`Universe.forwardChain_converges`).
-/

namespace BoolCalculus

variable {σ τ ρ : Type}

namespace Engine

open Interpretation

variable {O : RelationOps σ ρ} {accepted : ρ → Prop} {rel : ρ → Nat → Nat → Prop} {e e' : Engine σ ρ}

/-! ## Changes are additions -/

/-- What firing achieves, where a reported change is an addition to the store. -/
structure Advances (accepted : ρ → Prop) (rel : ρ → Nat → Nat → Prop) (e : Engine σ ρ)
    (fired : List Rule) (changed : Bool) (e' : Engine σ ρ) : Prop
    extends Fired accepted rel e fired changed e' where
  grows : changed = true → ofStore rel e.relations < ofStore rel e'.relations

section

variable (computes : O.Computes accepted rel)

include computes

/-- A rule that changes the store relates more than before. -/
theorem fire_advances (stored : Accepted accepted e.relations) {r : Rule} (member : r ∈ e.rules) :
    (fire O r).Ensures e (Advances accepted rel e [r]) := by
  refine ((fire_ensures computes stored member).and (fire_firing computes stored r)).mono ?_
  rintro changed e' ⟨fired, firing⟩
  refine ⟨fired, fun change => lt_of_le_not_ge fired.progress.grows fun below => ?_⟩
  cases firing with
  | idle => cases change
  | stores a _ relations _ _ _ adds _ =>
      have there : e'.relations.lookup r.head = some a := by rw [relations, Keyed.lookup_put_self]
      obtain ⟨old, found⟩ := below.1 r.head ⟨a, there⟩
      refine adds old found fun x y related => ?_
      exact (related_ofStore found).1 (below.2 r.head x y ((related_ofStore there).2 related))

theorem pass_advances (stored : Accepted accepted e.relations) {rules : List Rule}
    (members : ∀ r ∈ rules, r ∈ e.rules) : (pass O rules).Ensures e (Advances accepted rel e rules) := by
  have adds : (pass O rules).Ensures e fun changed e' =>
      changed = true → ofStore rel e.relations < ofStore rel e'.relations := by
    induction rules generalizing e with
    | nil => exact .pure nofun
    | cons r rules ih =>
        refine (fire_advances computes stored (members r List.mem_cons_self)).bind ?_
        intro changed e₁ first
        have stored' := first.progress.stored
        have members' : ∀ r ∈ rules, r ∈ e₁.rules := fun r member =>
          first.progress.rules ▸ members r (List.mem_cons_of_mem _ member)
        refine ((pass_ensures computes stored' members').and (ih stored' members')).bind ?_
        rintro later e₂ ⟨rest, adds⟩
        refine .pure fun change => ?_
        rcases Bool.or_eq_true_iff.1 change with here | there
        · exact (first.grows here).trans_le rest.progress.grows
        · exact first.progress.grows.trans_lt (adds there)
  refine ((pass_ensures computes stored members).and adds).mono ?_
  rintro changed e' ⟨fired, adds⟩
  exact ⟨fired, adds⟩

/-- Over a store that is closed under the rules, one pass settles. -/
theorem forwardChain_closed (stored : Accepted accepted e.relations)
    (closed : ∀ r ∈ e.rules, (ofStore rel e.relations).ClosedUnder r) {budget : Int} (some : 1 ≤ budget) :
    (forwardChain O budget).Ensures e fun outcome e' => outcome = .settled 1 ∧ SameStore e e' := by
  obtain ⟨left, enough⟩ : ∃ left, budget.toNat = left + 1 := ⟨budget.toNat - 1, by omega⟩
  rw [forwardChain, enough]
  refine (ensures_get e).bind ?_
  rintro _ _ ⟨rfl, rfl⟩
  refine (pass_advances computes stored fun _ => id).bind ?_
  intro changed e₁ pass
  cases changed with
  | true =>
      -- The store itself is closed under the rules, so nothing that is derived goes beyond it.
      have below := pass.progress.sound _ closed le_rfl
      exact absurd below (pass.grows rfl).not_ge
  | false => exact .pure ⟨rfl, pass.same rfl, pass.progress.rules⟩

end

/-! ## Passes -/

/-- The engine after a pass over its rules. -/
def afterPass (O : RelationOps σ ρ) (e : Engine σ ρ) : Engine σ ρ :=
  ((pass O e.rules).runFrom e).2

/-- Each of the first `k` passes adds to the store. -/
def Grows (O : RelationOps σ ρ) (rel : ρ → Nat → Nat → Prop) (e : Engine σ ρ) (k : Nat) : Prop :=
  ∀ j < k, ofStore rel ((afterPass O)^[j] e).relations < ofStore rel ((afterPass O)^[j + 1] e).relations

/-- How chaining ends: the pass after those that add to the store leaves it as it is, or the budget ends with a pass that adds
to it. -/
inductive EndsAs (O : RelationOps σ ρ) (rel : ρ → Nat → Nat → Prop) (e : Engine σ ρ) (budget : Int) :
    ChainEnd → Engine σ ρ → Prop
  | settled (k : Nat) (within : k + 1 ≤ budget) (grows : Grows O rel e k)
      (same : SameStore ((afterPass O)^[k] e) ((afterPass O)^[k + 1] e)) :
      EndsAs O rel e budget (.settled (k + 1)) ((afterPass O)^[k + 1] e)
  | exhausted (grows : Grows O rel e budget.toNat) :
      EndsAs O rel e budget (.exhausted budget) ((afterPass O)^[budget.toNat] e)

/-- A pass that adds something begins a longer row of them. -/
theorem Grows.succ {k : Nat} (first : ofStore rel e.relations < ofStore rel (afterPass O e).relations)
    (rest : Grows O rel (afterPass O e) k) : Grows O rel e (k + 1) := by
  intro j less
  cases j with
  | zero => exact first
  | succ j => exact rest j (by omega)

section

variable (computes : O.Computes accepted rel)

include computes

/-- As long as passes are left, each one adds something, or else the chaining is settled. -/
theorem passes_grow (budget : Int) (left before : Nat) (stored : Accepted accepted e.relations) :
    (passes O budget left before).Ensures e fun outcome e' =>
      (∃ k < left, outcome = .settled (before + (k + 1)) ∧ Grows O rel e k ∧
        SameStore ((afterPass O)^[k] e) ((afterPass O)^[k + 1] e) ∧ e' = (afterPass O)^[k + 1] e) ∨
      (outcome = .exhausted budget ∧ Grows O rel e left ∧ e' = (afterPass O)^[left] e) := by
  induction left generalizing before e with
  | zero => exact .pure (.inr ⟨rfl, fun _ less => absurd less (by omega), rfl⟩)
  | succ left ih =>
      refine (ensures_get e).bind ?_
      rintro _ e ⟨rfl, rfl⟩
      refine (pass_advances computes stored fun _ => id).reached.bind ?_
      rintro changed e₁ ⟨pass, rfl⟩
      cases changed with
      | true =>
          have first : ofStore rel e.relations < ofStore rel (afterPass O e).relations := pass.grows rfl
          refine (ih (before + 1) pass.progress.stored).mono ?_
          rintro outcome e₂ (⟨k, less, ended, grows, same, reached⟩ | ⟨ended, grows, reached⟩)
          · refine .inl ⟨k + 1, by omega, ?_, .succ first grows, same, reached⟩
            rw [ended, Nat.add_right_comm before 1, Nat.add_assoc before]
          · exact .inr ⟨ended, .succ first grows, reached⟩
      | false =>
          have same : SameStore e (afterPass O e) := ⟨pass.same rfl, pass.progress.rules⟩
          exact .pure (.inl ⟨0, by omega, rfl, fun _ less => absurd less (by omega), same, rfl⟩)

/-- Chaining ends with a settled store or with all passes used. -/
theorem forwardChain_endsAs (budget : Int) (stored : Accepted accepted e.relations) :
    (forwardChain O budget).Ensures e (EndsAs O rel e budget) := by
  refine (passes_grow computes budget budget.toNat 0 stored).mono ?_
  rintro outcome e' (⟨k, less, rfl, grows, same, rfl⟩ | ⟨rfl, grows, rfl⟩)
  · rw [Nat.zero_add]
    exact .settled k (by omega) grows same
  · exact .exhausted grows

theorem rewrites_afterPass (stored : Accepted accepted e.relations) :
    Rewrites accepted e (afterPass O e) :=
  (pass_ends computes.keeps stored fun _ => id).after

theorem rewrites_iterate (stored : Accepted accepted e.relations) (k : Nat) :
    Rewrites accepted e ((afterPass O)^[k] e) := by
  induction k with
  | zero => exact SameStore.rewrites ⟨rfl, rfl⟩ stored
  | succ k ih =>
      rw [Function.iterate_succ_apply']
      exact ih.trans (rewrites_afterPass computes ih.stored)

end

/-! ## The room for additions -/

/-- The heads of the rules. -/
def heads (e : Engine σ ρ) : Finset Text :=
  (e.rules.map Rule.head).toFinset

/-- The most that chaining adds to a store over `n` points: the heads that are not stored, and all pairs of points under
heads. -/
def room (e : Engine σ ρ) (n : Nat) : Nat :=
  (e.heads.filter fun head => (e.relations.lookup head).isNone).card + e.heads.card * n ^ 2

/-- An item of a store over `n` points holds: a name, or a pair of points under it. -/
def Holds {n : Nat} (I : Interpretation) : Text × Option (Fin n × Fin n) → Prop
  | (name, none) => I.Named name
  | (name, some (x, y)) => I.Related name x y

open Classical in
/-- The items of heads that do not hold. -/
noncomputable def lacking (n : Nat) (heads : Finset Text) (I : Interpretation) :
    Finset (Text × Option (Fin n × Fin n)) :=
  (heads ×ˢ Finset.univ).filter fun item => ¬Holds I item

theorem mem_lacking {n : Nat} {heads : Finset Text} {I : Interpretation} {name : Text}
    {pair : Option (Fin n × Fin n)} :
    (name, pair) ∈ lacking n heads I ↔ name ∈ heads ∧ ¬Holds I (name, pair) := by
  simp [lacking]

theorem Holds.mono {n : Nat} {I J : Interpretation} (below : I ≤ J)
    {item : Text × Option (Fin n × Fin n)} (h : Holds I item) : Holds J item := by
  obtain ⟨name, _ | ⟨x, y⟩⟩ := item
  · exact below.1 name h
  · exact below.2 name x y h

/-- What a store lacks is no more than its room for new facts. -/
theorem card_lacking_le (n : Nat) (e : Engine σ ρ) :
    (lacking n e.heads (ofStore rel e.relations)).card ≤ e.room n := by
  have covered : lacking n e.heads (ofStore rel e.relations) ⊆
      (e.heads.filter fun head => (e.relations.lookup head).isNone) ×ˢ {none} ∪
        e.heads ×ˢ Finset.univ.map Function.Embedding.some := by
    rintro ⟨name, _ | pair⟩ lacks
    · obtain ⟨head, unnamed⟩ := mem_lacking.1 lacks
      have missing : e.relations.lookup name = none :=
        Option.eq_none_iff_forall_ne_some.2 fun a found => unnamed ⟨a, found⟩
      simp [head, missing]
    · obtain ⟨head, -⟩ := mem_lacking.1 lacks
      simp [head]
  refine (Finset.card_le_card covered).trans ((Finset.card_union_le _ _).trans ?_)
  simp [room, pow_two]

/-- Where nothing more holds of heads, nothing was added to the store. -/
theorem le_of_lacking_subset {n : Nat} (within : ∀ a, accepted a → ∀ x y, rel a x y → x < n ∧ y < n)
    (rewrites : Rewrites accepted e e')
    (subset : lacking n e.heads (ofStore rel e.relations) ⊆ lacking n e.heads (ofStore rel e'.relations)) :
    ofStore rel e'.relations ≤ ofStore rel e.relations := by
  have others : ∀ name ∉ e.heads, e'.relations.lookup name = e.relations.lookup name := by
    intro name noHead
    refine rewrites.others name fun r member same => noHead ?_
    exact List.mem_toFinset.2 (List.mem_map.2 ⟨r, member, same⟩)
  have before : ∀ name ∈ e.heads, ∀ pair : Option (Fin n × Fin n),
      Holds (ofStore rel e'.relations) (name, pair) → Holds (ofStore rel e.relations) (name, pair) := by
    intro name head pair holds
    by_contra none
    exact (mem_lacking.1 (subset (mem_lacking.2 ⟨head, none⟩))).2 holds
  constructor
  · intro name named
    by_cases head : name ∈ e.heads
    · exact before name head none named
    · rcases named with ⟨a, found⟩
      rw [others name head] at found
      exact ⟨a, found⟩
  · intro name x y related
    rcases related with ⟨a, found, here⟩
    by_cases head : name ∈ e.heads
    · obtain ⟨hx, hy⟩ := within a (rewrites.stored name a found) x y here
      exact before name head (some (⟨x, hx⟩, ⟨y, hy⟩)) ⟨a, found, here⟩
    · rw [others name head] at found
      exact ⟨a, found, here⟩

/-- An addition leaves less to add. -/
theorem card_lacking_lt {n : Nat} (within : ∀ a, accepted a → ∀ x y, rel a x y → x < n ∧ y < n)
    (rewrites : Rewrites accepted e e') (grows : ofStore rel e.relations < ofStore rel e'.relations) :
    (lacking n e.heads (ofStore rel e'.relations)).card <
      (lacking n e.heads (ofStore rel e.relations)).card := by
  have fewer : lacking n e.heads (ofStore rel e'.relations) ⊆
      lacking n e.heads (ofStore rel e.relations) := by
    rintro ⟨name, pair⟩ lacks
    obtain ⟨head, none⟩ := mem_lacking.1 lacks
    exact mem_lacking.2 ⟨head, fun holds => none (holds.mono grows.le)⟩
  refine Finset.card_lt_card ⟨fewer, fun subset => ?_⟩
  exact grows.not_ge (le_of_lacking_subset within rewrites subset)

/-- Each of the passes that add something fills a part of the room. -/
theorem Grows.le_room (computes : O.Computes accepted rel) {n : Nat}
    (within : ∀ a, accepted a → ∀ x y, rel a x y → x < n ∧ y < n)
    (stored : Accepted accepted e.relations) {k : Nat} (grows : Grows O rel e k) : k ≤ e.room n := by
  -- Every pass takes at least one from what was lacking at the start.
  have lacks : ∀ j ≤ k, (lacking n e.heads (ofStore rel ((afterPass O)^[j] e).relations)).card + j ≤
      (lacking n e.heads (ofStore rel e.relations)).card := by
    intro j less
    induction j with
    | zero => exact le_rfl
    | succ j ih =>
        have reached := rewrites_iterate computes stored j
        have next := rewrites_afterPass computes reached.stored
        have grew := grows j less
        rw [Function.iterate_succ_apply'] at grew ⊢
        have heads : ((afterPass O)^[j] e).heads = e.heads := by rw [Engine.heads, reached.rules]; rfl
        have fewer := card_lacking_lt within next grew
        rw [heads] at fewer
        have before := ih (by omega)
        omega
  have bound := (lacks k le_rfl).trans (card_lacking_le n e)
  omega

end Engine

namespace Universe

open Engine

variable {n : Nat} {O : TensorOps σ Bool} {R : RelationOps τ ρ} {content : ρ → Tensor Bool}

theorem lt_of_has {T : Tensor Bool} (square : T.axes = [n, n]) {x y : Nat} (h : T.Has x y) :
    x < n ∧ y < n := by
  obtain ⟨M, rfl⟩ := Tensor.exists_ofMatrix square
  obtain ⟨hx, hy, -⟩ := Tensor.has_ofMatrix.1 h
  exact ⟨hx, hy⟩

/-- Chaining settles with the first pass that leaves the store as it is, or it warns after passes that all added to the
store. With a budget beyond the room for additions it settles, within as many passes. Once it settled, chaining again
takes one pass and changes nothing. -/
theorem forwardChain_converges (ops : TruthOps n O) (offers : (mk O n).Offers R content)
    {e : Engine τ ρ} (reachable : Reachable R e) (budget : Int) :
    ∃ outcome e', (forwardChain R budget).runFrom e = (.ok outcome, e') ∧
      EndsAs R (fun a => (content a).Has) e budget outcome e' ∧
      (e.room n + 1 ≤ budget → outcome.warning? = none ∧ outcome.passes ≤ e.room n + 1) ∧
      (outcome.warning? = none → ∀ again : Int, 1 ≤ again →
        ∃ e'', (forwardChain R again).runFrom e' = (.ok (.settled 1), e'') ∧ SameStore e' e'') := by
  have computes := offers.computes ops
  have stored := reachable.stored computes.keeps
  have room : ∀ k, Grows R (fun a => (content a).Has) e k → k ≤ e.room n := fun k grows =>
    grows.le_room computes (fun _ square _ _ => lt_of_has square) stored
  obtain ⟨outcome, e', run, ends, progress, settled⟩ :=
    (forwardChain_endsAs computes budget stored).and (passes_ensures computes budget budget.toNat 0 stored)
  refine ⟨outcome, e', run, ends, fun enough => ?_, fun quiet again some => ?_⟩
  · cases ends with
    | settled k within grows same =>
        have few := room k grows
        refine ⟨rfl, ?_⟩
        show ((k + 1 : Nat) : Int) ≤ e.room n + 1
        omega
    | exhausted grows =>
        have few := room _ grows
        omega
  · have closed := progress.rules ▸ settled quiet
    obtain ⟨_, e'', run', rfl, same⟩ := forwardChain_closed computes progress.stored closed some
    exact ⟨e'', run', same⟩

/-- Three passes settle a chain of three points, where ten additions would fit; then one pass is enough. -/
theorem forwardChain_converges_chain :
    let edge : Tensor Bool := .ofFn [3, 3] fun coord _ => coord[1]? == coord[0]?.map (· + 1)
    let R : RelationOps Unit (Tensor Bool) := (mk .dense 3).relationOps
    let e : Engine Unit (Tensor Bool) :=
      ⟨(), [("edge", edge)], [⟨"path", .implication "edge"⟩, ⟨"path", .composition "path" ["path"]⟩]⟩
    Reachable R e ∧ e.room 3 = 10 ∧ ∃ e' e'', (forwardChain R 11).runFrom e = (.ok (.settled 2), e') ∧
      EndsAs R Tensor.Has e 11 (.settled 2) e' ∧
      (forwardChain R 1).runFrom e' = (.ok (.settled 1), e'') ∧ SameStore e' e'' := by
  intro edge R e
  have reachable : Reachable R e :=
    .addRule "path" ["path", "path"] "composition" <| .addRule "path" ["edge"] "implication" <|
      .setRelation "edge" edge (.start ())
  have room : e.room 3 = 10 := by decide
  obtain ⟨outcome, e', run, ends, bound, again⟩ := forwardChain_converges .dense .tensors reachable 11
  obtain ⟨quiet, -⟩ := bound (by rw [room]; decide)
  obtain ⟨e'', run', same⟩ := again quiet 1 le_rfl
  have settled : ((forwardChain R 11).runFrom e).1.toOption = some (.settled 2) := by decide +kernel
  rw [run] at settled
  obtain rfl := Option.some.inj settled
  exact ⟨reachable, room, e', e'', run, ends, run', same⟩

end Universe

end BoolCalculus
