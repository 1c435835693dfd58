import BoolCalculus.Proofs.Universe.Derivations
import BoolCalculus.Proofs.Word.Numeral

/-!
# Boolean rings

The exclusive disjunction that a domain derives from its equivalence, and the one that a gate set derives from its
primitives, make a ring of the elements, with the conjunction for the product (`Valuation.xor_booleanRing`). No
truth tables are filled in: a law is an equation of terms over the gates, and a term is read as an element of
whatever Boolean algebra the gates compute.
-/

namespace BoolCalculus

open scoped symmDiff

variable {σ α B ι : Type}

/-! ## Laws of Boolean algebras -/

section

open BoolCalculus.Valuation (majority ternaryOp)

variable [BooleanAlgebra B]

theorem symmDiff_compl_right (x y : B) : x ∆ yᶜ = (x ∆ y)ᶜ := by
  have complement : ∀ z : B, zᶜ = z ∆ ⊤ := fun z => by rw [symmDiff_top, hnot_eq_compl]
  rw [complement y, complement (x ∆ y), symmDiff_assoc]

theorem ternaryOp_swap (gate : GateSet.Ternary) (x y z : B) : ternaryOp gate x y z = ternaryOp gate y x z := by
  cases gate with
  | ad3 =>
      show x ∆ y ∆ z = y ∆ x ∆ z
      rw [symmDiff_comm x y]
  | maj =>
      show x ⊓ y ⊔ x ⊓ z ⊔ y ⊓ z = y ⊓ x ⊔ y ⊓ z ⊔ x ⊓ z
      rw [inf_comm x y, sup_right_comm]

theorem ternaryOp_rotate (gate : GateSet.Ternary) (x y z : B) : ternaryOp gate x y z = ternaryOp gate y z x := by
  cases gate with
  | ad3 =>
      show x ∆ y ∆ z = y ∆ z ∆ x
      rw [symmDiff_assoc, symmDiff_comm x]
  | maj =>
      show x ⊓ y ⊔ x ⊓ z ⊔ y ⊓ z = y ⊓ z ⊔ y ⊓ x ⊔ z ⊓ x
      rw [inf_comm x y, inf_comm x z, sup_comm, sup_assoc]

/-- A majority of complements is the complement of the majority: both are two-valued on truth values. -/
theorem majority_compl (x y z : B) : majority xᶜ yᶜ zᶜ = (majority x y z)ᶜ := by
  apply eq_of_twoValued
  intro f
  rw [map_compl', Word.map_majority, Word.map_majority, map_compl', map_compl', map_compl']
  generalize f x = b, f y = c, f z = d
  revert b c d
  decide

theorem ternaryOp_compl (gate : GateSet.Ternary) (x y z : B) :
    ternaryOp gate xᶜ yᶜ zᶜ = (ternaryOp gate x y z)ᶜ := by
  cases gate with
  | ad3 =>
      show xᶜ ∆ yᶜ ∆ zᶜ = (x ∆ y ∆ z)ᶜ
      rw [compl_symmDiff_compl, symmDiff_compl_right]
  | maj => exact majority_compl x y z

end

/-! ## Terms over the gates -/

/-- The operations of a domain as gates. They check no operands. -/
def Domain.gates (D : Domain σ α) : GateSet σ α where
  lift b := if b then D.top else D.bot
  not := D.compl
  or := D.join
  and := D.meet
  xor := D.xor
  equ := D.equ
  imp := D.imp

theorem Domain.gates_eq [Shown α] (D : Domain σ α) : D.gates = GateSet.ofDomain D false :=
  rfl

/-- The gates make a Boolean ring of the elements that are `there`. The sum is the exclusive disjunction and the
product the conjunction; an element is below another one if their conjunction is that element. What two
constructions make is compared by `Same`. -/
structure GateSet.IsBooleanRing (A : GateSet σ α) (there : α → Prop)
    (Same : Build σ α → Build σ α → Prop) : Prop where
  xor_assoc : ∀ a b c : {a // there a}, Same (do A.xor (← A.xor a b) c) (do A.xor a (← A.xor b c))
  xor_comm : ∀ a b : {a // there a}, Same (A.xor a b) (A.xor b a)
  xor_bot : ∀ a : {a // there a}, Same (do A.xor a (← A.lift false)) (pure a)
  bot_xor : ∀ a : {a // there a}, Same (do A.xor (← A.lift false) a) (pure a)
  xor_self : ∀ a : {a // there a}, Same (A.xor a a) (A.lift false)
  and_xor : ∀ a b c : {a // there a},
    Same (do A.and a (← A.xor b c)) (do A.xor (← A.and a b) (← A.and a c))
  xor_and : ∀ a b c : {a // there a},
    Same (do A.and (← A.xor a b) c) (do A.xor (← A.and a c) (← A.and b c))
  and_top : ∀ a : {a // there a}, Same (do A.and a (← A.lift true)) (pure a)
  top_and : ∀ a : {a // there a}, Same (do A.and (← A.lift true) a) (pure a)
  /-- The operands of a full adder may be swapped. -/
  ternary_swap : ∀ gate, ∀ a b c : {a // there a}, Same (A.ternary gate a b c) (A.ternary gate b a c)
  /-- They may be rotated, and so they may stand in any order. -/
  ternary_rotate : ∀ gate, ∀ a b c : {a // there a}, Same (A.ternary gate a b c) (A.ternary gate b c a)
  ternary_not : ∀ gate, ∀ a b c : {a // there a},
    Same (do A.ternary gate (← A.not a) (← A.not b) (← A.not c)) (do A.not (← A.ternary gate a b c))
  equ_top_iff : ∀ a b : {a // there a}, Same (A.equ a b) (A.lift true) ↔ Same (pure a) (pure b)
  /-- A conjunction is below an element just if its first operand is below the implication from the second. -/
  and_below_iff : ∀ a b c : {a // there a},
    Same (do A.and (← A.and c a) b) (A.and c a) ↔ Same (do A.and c (← A.imp a b)) (pure c)

/-- The terms over gates, with variables from `ι`. -/
inductive GateTerm (ι : Type) where
  | var (i : ι)
  | lift (b : Bool)
  | not (t : GateTerm ι)
  | binary (gate : GateSet.Binary) (t u : GateTerm ι)
  | ternary (gate : GateSet.Ternary) (t u v : GateTerm ι)

namespace GateTerm

/-- The construction of a term over a gate set. -/
def run (A : GateSet σ α) (a : ι → α) : GateTerm ι → Build σ α
  | var i => pure (a i)
  | lift b => A.lift b
  | not t => do A.not (← t.run A a)
  | binary gate t u => do A.binary gate (← t.run A a) (← u.run A a)
  | ternary gate t u v => do A.ternary gate (← t.run A a) (← u.run A a) (← v.run A a)

/-- The element of a Boolean algebra that a term denotes. -/
def value [BooleanAlgebra B] (x : ι → B) : GateTerm ι → B
  | var i => x i
  | lift b => if b then ⊤ else ⊥
  | not t => (t.value x)ᶜ
  | binary gate t u => Valuation.binaryOp gate (t.value x) (u.value x)
  | ternary gate t u v => Valuation.ternaryOp gate (t.value x) (u.value x) (v.value x)

variable [BooleanAlgebra B] {A : GateSet σ α} {there : α → Prop} {Same : Build σ α → Build σ α → Prop}

/-- The laws of a Boolean ring are equations of terms that hold in all Boolean algebras. -/
theorem isBooleanRing_of_terms (x : {a // there a} → B)
    (same : ∀ t u : GateTerm {a // there a}, Same (t.run A (·.1)) (u.run A (·.1)) ↔ t.value x = u.value x) :
    A.IsBooleanRing there Same := by
  constructor
  case xor_assoc =>
    intro a b c
    exact (same (binary .xor (binary .xor (var a) (var b)) (var c))
      (binary .xor (var a) (binary .xor (var b) (var c)))).2 (symmDiff_assoc _ _ _)
  case xor_comm =>
    intro a b
    exact (same (binary .xor (var a) (var b)) (binary .xor (var b) (var a))).2 (symmDiff_comm _ _)
  case xor_bot =>
    intro a
    exact (same (binary .xor (var a) (lift false)) (var a)).2 (symmDiff_bot _)
  case bot_xor =>
    intro a
    exact (same (binary .xor (lift false) (var a)) (var a)).2 (bot_symmDiff _)
  case xor_self =>
    intro a
    exact (same (binary .xor (var a) (var a)) (lift false)).2 (symmDiff_self _)
  case and_xor =>
    intro a b c
    exact (same (binary .and (var a) (binary .xor (var b) (var c)))
      (binary .xor (binary .and (var a) (var b)) (binary .and (var a) (var c)))).2
      (inf_symmDiff_distrib_left _ _ _)
  case xor_and =>
    intro a b c
    exact (same (binary .and (binary .xor (var a) (var b)) (var c))
      (binary .xor (binary .and (var a) (var c)) (binary .and (var b) (var c)))).2
      (inf_symmDiff_distrib_right _ _ _)
  case and_top =>
    intro a
    exact (same (binary .and (var a) (lift true)) (var a)).2 (inf_top_eq _)
  case top_and =>
    intro a
    exact (same (binary .and (lift true) (var a)) (var a)).2 (top_inf_eq _)
  case ternary_swap =>
    intro gate a b c
    exact (same (ternary gate (var a) (var b) (var c)) (ternary gate (var b) (var a) (var c))).2
      (ternaryOp_swap gate _ _ _)
  case ternary_rotate =>
    intro gate a b c
    exact (same (ternary gate (var a) (var b) (var c)) (ternary gate (var b) (var c) (var a))).2
      (ternaryOp_rotate gate _ _ _)
  case ternary_not =>
    intro gate a b c
    exact (same (ternary gate (not (var a)) (not (var b)) (not (var c)))
      (not (ternary gate (var a) (var b) (var c)))).2 (ternaryOp_compl gate _ _ _)
  case equ_top_iff =>
    intro a b
    exact (same (binary .equ (var a) (var b)) (lift true)).trans
      (bihimp_eq_top.trans (same (var a) (var b)).symm)
  case and_below_iff =>
    intro a b c
    refine (same (binary .and (binary .and (var c) (var a)) (var b)) (binary .and (var c) (var a))).trans ?_
    refine Iff.trans ?_ (same (binary .and (var c) (binary .imp (var a) (var b))) (var c)).symm
    exact inf_eq_left.trans (le_himp_iff.symm.trans inf_eq_left.symm)

end GateTerm

/-! ## Reading terms -/

namespace Valuation

variable {V : Valuation σ α B} {s : σ} {act act' : Build σ α} {x y : B}

variable (V) in
/-- Elements are one just if they are read as one, in whatever states. -/
def Exact : Prop :=
  ∀ {s t a b x y}, V.Is s a x → V.Is t b y → (a = b ↔ x = y)

/-- An element that is read as itself is read exactly. -/
theorem exact_ofFn : (ofFn id : Valuation σ α α).Exact := by
  rintro s t a b _ _ ⟨_, rfl⟩ ⟨_, rfl⟩
  exact Iff.rfl

/-- So is a set that is read off its mask. -/
theorem exact_sets {n : Nat} : (Powerset.sets σ n).Exact := by
  intro s t a b x y ha hb
  constructor
  · rintro rfl
    exact ha.2.symm.trans hb.2
  · rintro rfl
    exact Powerset.faithful_sets ha hb

/-- Two runs coincide if the elements that they make are read as one. -/
theorem coincide_iff (runs : V.Runs V.Is s act (.ok x)) (runs' : V.Runs V.Is s act' (.ok y)) :
    V.Coincide V.Is s act act' ↔ x = y := by
  have unique : ∀ {act : Build σ α} {x y}, V.Runs V.Is s act (.ok x) → V.Runs V.Is s act (.ok y) → x = y := by
    intro act x y runs runs'
    cases runs with
    | ok run _ is =>
        cases runs' with
        | ok run' _ is' =>
            rw [run] at run'
            cases run'
            exact is.2.symm.trans is'.2
  constructor
  · rintro ⟨z, first, second⟩
    exact (unique runs first).trans (unique second runs')
  · rintro rfl
    exact ⟨x, runs, runs'⟩

/-- Where the reading is exact they then make the same element. -/
theorem Exact.agree_iff (exact : V.Exact) (runs : V.Runs V.Is s act (.ok x))
    (runs' : V.Runs V.Is s act' (.ok y)) : Build.Agree s act act' ↔ x = y := by
  cases runs with
  | @ok a _ t run _ is =>
      cases runs' with
      | @ok b _ u run' _ is' =>
          rw [← exact is is']
          constructor
          · rintro ⟨c, yields, yields'⟩
            rw [Build.Yields, run] at yields
            rw [Build.Yields, run'] at yields'
            exact (Except.ok.inj yields).trans (Except.ok.inj yields').symm
          · rintro rfl
            exact ⟨a, congrArg Prod.fst run, congrArg Prod.fst run'⟩

variable [BooleanAlgebra B] {A : GateSet σ α}

/-- The construction of a term makes what is read as the element that it denotes. -/
theorem Respects.runs_term (respects : V.Respects A) {a : ι → α} {x : ι → B} (is : ∀ i, V.Is s (a i) (x i))
    (t : GateTerm ι) : V.Runs V.Is s (t.run A a) (.ok (t.value x)) := by
  induction t generalizing s with
  | var i => exact .pure (is i)
  | lift b => exact respects.lift b s
  | not t ih => exact (ih is).bind_ok fun _ made => respects.not made
  | binary gate t u iht ihu =>
      refine (iht is).bind_ok fun first left => ?_
      refine (ihu fun i => (is i).later first).bind_ok fun second right => ?_
      exact respects.reads_binary gate (left.later second) right
  | ternary gate t u v iht ihu ihv =>
      refine (iht is).bind_ok fun first left => ?_
      refine (ihu fun i => (is i).later first).bind_ok fun second middle => ?_
      have later := V.later_trans first second
      refine (ihv fun i => (is i).later later).bind_ok fun third right => ?_
      exact respects.reads_ternary gate (left.later (V.later_trans second third)) (middle.later third) right

variable (V) in
/-- From a state, gates make a Boolean ring of the elements that are there, as far as the valuation reads them, and
exactly where elements that are read as one are one. -/
structure ReadsBooleanRing (A : GateSet σ α) (s : σ) : Prop where
  coincide : A.IsBooleanRing (V.Elem s) (V.Coincide V.Is s)
  agree : V.Exact → A.IsBooleanRing (V.Elem s) (Build.Agree s)

/-- Gates that respect a reading have the laws of a ring for what they are read as. -/
theorem Respects.readsBooleanRing (respects : V.Respects A) (s : σ) : V.ReadsBooleanRing A s := by
  have runs := respects.runs_term fun a : {a // V.Elem s a} => ⟨a.2, rfl⟩
  exact {
    coincide := GateTerm.isBooleanRing_of_terms _ fun t u => coincide_iff (runs t) (runs u)
    agree := fun exact => GateTerm.isBooleanRing_of_terms _ fun t u => exact.agree_iff (runs t) (runs u) }

/-- Over a domain whose lattice operations are those of a Boolean algebra, and over every gate set whose primitives
are, the derived exclusive disjunction makes a Boolean ring of the elements, and full adders and implications obey
its laws. The gates of a domain may check their operands or not. -/
theorem xor_booleanRing {σ α B : Type} [BooleanAlgebra B] {V : Valuation σ α B} (s : σ) :
    (∀ [Shown α] {D : Domain σ α}, V.RespectsDomain D →
      V.ReadsBooleanRing D.gates s ∧ ∀ check, V.ReadsBooleanRing (GateSet.ofDomain D check) s) ∧
    ∀ {A : GateSet σ α}, V.Respects A → V.ReadsBooleanRing A s := by
  refine ⟨fun {_ D} respects => ⟨?_, fun check => ?_⟩, fun respects => respects.readsBooleanRing s⟩
  · rw [D.gates_eq]
    exact (respects.ofDomain false).readsBooleanRing s
  · exact (respects.ofDomain check).readsBooleanRing s

/-- The subsets of three points, all sets of numbers, and handles of a circuit with three inputs. -/
theorem xor_booleanRing_sets :
    (Powerset.domain 3).gates.IsBooleanRing ((Powerset.sets Unit 3).Elem ()) (Build.Agree ()) ∧
    (GateSet.ofAlgebra : GateSet Unit (Set Nat)).IsBooleanRing (fun _ => True) (Build.Agree ()) ∧
    (Circuit.gates id).IsBooleanRing ((Circuit.evaluation fun i => i == 0).Elem #[.input, .input, .input])
      ((Circuit.evaluation fun i => i == 0).Coincide (Circuit.evaluation fun i => i == 0).Is
        #[.input, .input, .input]) :=
  ⟨((xor_booleanRing ()).1 (Powerset.respects_sets 3)).1.agree exact_sets,
    ((xor_booleanRing ()).2 GateSet.lawful_ofAlgebra).agree exact_ofFn,
    ((xor_booleanRing _).2 (Circuit.respects_evaluation fun i => i == 0)).coincide⟩

end Valuation

end BoolCalculus
