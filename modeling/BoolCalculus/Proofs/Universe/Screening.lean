import BoolCalculus.Domain.Recorded
import BoolCalculus.Proofs.Domain.Reading
import BoolCalculus.Proofs.Tensor.Reindexing
import BoolCalculus.Proofs.Tensor.Screening
import BoolCalculus.Proofs.Universe.Axes
import BoolCalculus.Proofs.Universe.Requirements
import BoolCalculus.Proofs.Word.Screening

/-!
# Membership as a guard

Over a classical domain that is closed under its operations, checks of membership are a guard and nothing else: the
operations on words, tensors and relations refuse an operand with an element that is no member, and they are what they
are without checks where there is none. Over a domain that does not decide membership the checks do nothing
(`Domain.membership_screens`).
-/

namespace BoolCalculus

open Domain

variable {σ α : Type}

/-! ## Relations -/

variable [Shown α] {D : Domain σ α} {contains : α → Bool} {n : Nat}

namespace Universe

variable (D contains) in
/-- Two operations on pairs of binary relations, of which the first screens the cells of both operands. -/
def ScreensPairs (n : Nat) (axes : List Nat) (f f' : Tensor α → Tensor α → Build σ (Tensor α)) : Prop :=
  ∀ R S, R.axes = [n, n] → S.axes = [n, n] → D.Screens contains (fun a => a ∈ R.toList ∨ a ∈ S.toList)
    (Tensor.OfMembers contains axes) (f R S) (f' R S)

/-- The operations on the binary relations of `U` screen the cells of the operands of those of `U'`, which is a universe
of the same size, and make relations and scalars of members. -/
structure Screened (D : Domain σ α) (contains : α → Bool) (U U' : Universe σ α) : Prop where
  comp : ∀ R, R.axes = [U.size, U.size] → D.Screens contains (· ∈ R.toList)
    (Tensor.OfMembers contains [U.size, U.size]) (U.comp R) (U'.comp R)
  meet : ScreensPairs D contains U.size [U.size, U.size] U.meet U'.meet
  join : ScreensPairs D contains U.size [U.size, U.size] U.join U'.join
  circ : ScreensPairs D contains U.size [U.size, U.size] U.circ U'.circ
  equals : ScreensPairs D contains U.size [] U.equals U'.equals
  leq : ScreensPairs D contains U.size [] U.leq U'.leq

variable {O O' : TensorOps σ α} (screens : TensorOps.Screens D contains O O')

include screens

/-- Axes of a tensor of members are quantified over without a refusal. -/
theorem screens_allAxes {axes : List Nat} {T : Tensor α} (members : T.OfMembers contains axes) :
    D.Screens contains (fun _ => False) (Tensor.OfMembers contains [])
      ((mk O n).allAxes axes.length T) ((mk O' n).allAxes axes.length T) := by
  induction axes generalizing T with
  | nil => exact .pure members
  | cons m ms ih =>
      have first := (screens.all T m ms members.1).settled members.2
      exact (first.bind fun _ shorter => ih shorter).of_iff (by simp)

/-- A pointwise operation on two relations, and then a quantification over all pairs. -/
theorem screens_forAll {f f' : Tensor α → Tensor α → Build σ (Tensor α)}
    (pointwise : TensorOps.ScreensPairs D contains f f') :
    ScreensPairs D contains n [] (fun R S => f R S >>= (mk O n).forAll) (fun R S => f' R S >>= (mk O' n).forAll) := by
  intro R S hR hS
  refine ((pointwise R S (hR.trans hS.symm)).bind (G := fun _ => False) fun T members => ?_).of_iff (by simp)
  rw [hR] at members
  rw [forAll, forAll, members.1]
  exact screens_allAxes screens members

omit screens in
/-- Binary relations pass the requirement on shapes, which comes before all gates. -/
theorem screens_required {axes : List Nat} {f f' : Tensor α → Tensor α → Build σ (Tensor α)}
    (plain : ScreensPairs D contains n axes f f') : ScreensPairs D contains n axes
      (fun R S => (mk O n).requireBinary [R, S] >>= fun _ => f R S)
      (fun R S => (mk O' n).requireBinary [R, S] >>= fun _ => f' R S) := by
  intro R S hR hS
  have binary : ∀ T ∈ [R, S], T.axes = [n, n] := by simp [hR, hS]
  show D.Screens _ _ _ ((mk O n).requireBinary [R, S] >>= fun _ => f R S)
    ((mk O' n).requireBinary [R, S] >>= fun _ => f' R S)
  rw [(mk O n).requireBinary_ok binary, (mk O' n).requireBinary_ok binary]
  exact plain R S hR hS

omit screens in
theorem screens_square {f f' : Tensor α → Tensor α → Build σ (Tensor α)}
    (pointwise : TensorOps.ScreensPairs D contains f f') : ScreensPairs D contains n [n, n] f f' := by
  intro R S hR hS
  have cells := pointwise R S (hR.trans hS.symm)
  rwa [hR] at cells

omit screens [Shown α] in
/-- A relation is moved into the cube in one way, whatever its cells are. -/
theorem reindex_cube {allowed : Shape → Prop} (moves : O.MovesCells allowed) (moves' : O'.MovesCells allowed)
    (cube : allowed (.rectangular 3 n)) {R : Tensor α} (hR : R.axes = [n, n]) {a b : Nat} (ha : a < 3) (hb : b < 3)
    (onto : ∀ x y, x < n → y < n → ∃ d, Axes.InBounds [n, n, n] d ∧ Axes.pick d [a, b] = [x, y]) :
    ∃ T : Tensor α, T.axes = [n, n, n] ∧ (∀ x, x ∈ T.toList ↔ x ∈ R.toList) ∧
      O.reindex R (.rectangular 3 n) [(a : Int), (b : Int)] = pure T ∧
      O'.reindex R (.rectangular 3 n) [(a : Int), (b : Int)] = pure T := by
  have misfit : (Shape.rectangular 3 n).misfit? R.shape [(a : Int), (b : Int)] = none :=
    Tensor.misfit?_square hR ha hb
  have size : (Shape.rectangular 3 n).axes? = some [n, n, n] := Tensor.axes?_rectangular 3
  obtain ⟨fits, reindexed⟩ := Tensor.reindex?_fits misfit size
  refine ⟨_, rfl, fun x => Tensor.mem_toList_reindex fits fun c inside => ?_, ?_, ?_⟩
  · rw [hR] at inside
    obtain ⟨x, y, rfl⟩ := List.length_eq_two.1 (Axes.length_of_inBounds inside)
    exact onto x y inside.1 inside.2.1
  · rw [moves.reindex R _ _ fun _ => cube, reindexed]
    rfl
  · rw [moves'.reindex R _ _ fun _ => cube, reindexed]
    rfl

/-- A composition checks every cell of both relations: the cell of two points is moved to where the third point is one
of the two. -/
theorem screens_circ {allowed : Shape → Prop} (moves : O.MovesCells allowed) (moves' : O'.MovesCells allowed)
    (cube : allowed (.rectangular 3 n)) : ScreensPairs D contains n [n, n] (mk O n).circ (mk O' n).circ := by
  refine screens_required fun R S hR hS => ?_
  obtain ⟨left, axes, cells, run, run'⟩ :=
    reindex_cube moves moves' cube hR (a := 1) (b := 0) (by decide) (by decide) fun x y hx hy =>
      ⟨[y, x, x], ⟨hy, hx, hx, trivial⟩, rfl⟩
  obtain ⟨right, axes', cells', runS, runS'⟩ :=
    reindex_cube moves moves' cube hS (a := 0) (b := 2) (by decide) (by decide) fun x y hx hy =>
      ⟨[x, x, y], ⟨hx, hx, hy, trivial⟩, rfl⟩
  have both := screens.and left right (axes.trans axes'.symm)
  have composed := both.bind (G := fun _ => False) fun T members =>
    (screens.any T n [n, n] (members.1.trans axes)).settled members.2
  show D.Screens _ _ _
    (O.reindex R (.rectangular 3 n) [(1 : Nat), (0 : Nat)] >>= fun left =>
      O.reindex S (.rectangular 3 n) [(0 : Nat), (2 : Nat)] >>= fun right => O.and left right >>= O.any)
    (O'.reindex R (.rectangular 3 n) [(1 : Nat), (0 : Nat)] >>= fun left =>
      O'.reindex S (.rectangular 3 n) [(0 : Nat), (2 : Nat)] >>= fun right => O'.and left right >>= O'.any)
  rw [run, run', runS, runS']
  exact composed.of_iff fun x _ => by rw [cells, cells', or_false]

/-- The operations on relations need nothing but the cube, which a composition goes through. -/
theorem screened {allowed : Shape → Prop} (moves : O.MovesCells allowed) (moves' : O'.MovesCells allowed)
    (cube : allowed (.rectangular 3 n)) : Screened D contains (mk O n) (mk O' n) where
  comp R hR := by
    have cells := screens.not R
    rw [hR] at cells
    rw [Universe.comp, Universe.comp, (mk O n).requireBinary_ok (by simp [hR]),
      (mk O' n).requireBinary_ok (by simp [hR])]
    exact cells
  meet := screens_required (screens_square screens.and)
  join := screens_required (screens_square screens.or)
  circ := screens_circ screens moves moves' cube
  equals := screens_required (screens_forAll screens screens.equ)
  leq := screens_required (screens_forAll screens screens.imp)

end Universe

/-! ## Domains -/

namespace Domain

/-- Checks of membership do nothing: the gates with checks are those without, whatever the predicates of the domain
are, and no element is refused. -/
structure Unscreened (D : Domain σ α) : Prop where
  same : GateSet.ofDomain D true = GateSet.ofDomain D false
  blind : ∀ contains equals edge,
    GateSet.ofDomain { D with predicates := .internal contains equals edge } true = GateSet.ofDomain D true
  passes : ∀ a, D.checkMember a = pure a

theorem checkMember_internal {contains : α → Build σ α} {equals edge : α → α → Build σ α}
    (internal : D.predicates = .internal contains equals edge) (a : α) : D.checkMember a = pure a := by
  rw [checkMember, internal]

/-- A domain whose predicates are its own operations refuses nothing. -/
theorem guard_internal {contains : α → Build σ α} {equals edge : α → α → Build σ α}
    (internal : D.predicates = .internal contains equals edge) : D.guard true = D.guard false := by
  funext operands
  show (operands.forM fun a => discard (D.checkMember a)) = pure ()
  induction operands with
  | nil => rfl
  | cons a rest ih =>
      rw [List.forM, checkMember_internal internal]
      exact ih

/-- So its gates are the same with checks and without. -/
theorem ofDomain_internal {contains : α → Build σ α} {equals edge : α → α → Build σ α}
    (internal : D.predicates = .internal contains equals edge) :
    GateSet.ofDomain D true = GateSet.ofDomain D false := by
  simp only [GateSet.ofDomain, guard_internal internal]

/-- A domain that does not decide membership screens nothing. -/
theorem unscreened {contains : α → Build σ α} {equals edge : α → α → Build σ α}
    (internal : D.predicates = .internal contains equals edge) : D.Unscreened where
  same := ofDomain_internal internal
  blind contains' equals' edge' := by
    have other : ({ D with predicates := .internal contains' equals' edge' } : Domain σ α).predicates =
        .internal contains' equals' edge' := rfl
    rw [ofDomain_internal other, ofDomain_internal internal]
    rfl
  passes := checkMember_internal internal

open TensorOps in
/-- Over a domain that is closed under its operations, checks of membership are a guard: operations on words of one
length, on lifted tensors of one shape and on the relations of a universe of any size refuse an element of an operand
just where there is one that is no member, and otherwise are what they are without checks. For stored tensors the cube
that a composition goes through must be one that can be stored. Over a domain that does not decide membership, checks
do nothing. -/
theorem membership_screens (D : Domain σ α) :
    (∀ {contains}, D.ClosedUnder contains →
      let checked := GateSet.ofDomain D true
      let plain := GateSet.ofDomain D false
      Word.Screened D contains checked plain ∧
      TensorOps.Screens D contains (lifted checked) (lifted plain) ∧
      TensorOps.Screens D contains (lifted checked).stored (lifted plain).stored ∧
      ∀ n, Universe.Screened D contains (.mk (lifted checked) n) (.mk (lifted plain) n) ∧
        ((Shape.rectangular 3 n).checkStorage = .ok () →
          Universe.Screened D contains (.mk (lifted checked).stored n) (.mk (lifted plain).stored n))) ∧
    ∀ {contains equals edge}, D.predicates = .internal contains equals edge → D.Unscreened := by
  refine ⟨fun closed => ?_, unscreened⟩
  have gates := closed.screens
  have tensors := Screens.lifted gates
  have moves := movesCells_lifted (GateSet.ofDomain D true)
  have moves' := movesCells_lifted (GateSet.ofDomain D false)
  refine ⟨Word.screened gates, tensors, tensors.stored, fun n => ⟨?_, fun cube => ?_⟩⟩
  · exact Universe.screened tensors moves moves' trivial
  · exact Universe.screened tensors.stored moves.stored moves'.stored cube

/-- A word of masks of which one is no set of two points, relations of sets over three points, and terms that are
recorded. -/
theorem membership_screens_sets :
    (∃ a t, a ∈ [Value.int 1, .int 7] ∧ Powerset.contains 2 a = false ∧
      (Word.neg (.ofDomain (Powerset.domain 2) true) [.int 1, .int 7]).runFrom () =
        (.error (.foreign "SubsetAlg" a), t)) ∧
    Universe.Screened (Powerset.domain 2 : Domain Unit Value) (Powerset.contains 2)
      (.mk (TensorOps.lifted (.ofDomain (Powerset.domain 2) true)).stored 3)
      (.mk (TensorOps.lifted (.ofDomain (Powerset.domain 2) false)).stored 3) ∧
    (Recording.domain (id : Nat → Nat)).Unscreened := by
  have sets := (membership_screens (Powerset.domain 2 : Domain Unit Value)).1 (Powerset.closedUnder 2)
  refine ⟨?_, (sets.2.2.2 3).2 rfl, (membership_screens (Recording.domain id)).2 rfl⟩
  exact (sets.1.neg [.int 1, .int 7]).refuses ⟨.int 7, by simp, rfl⟩ ()

end Domain

end BoolCalculus
