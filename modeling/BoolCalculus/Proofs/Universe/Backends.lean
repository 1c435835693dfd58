import BoolCalculus.Proofs.Circuit.Evaluation
import BoolCalculus.Proofs.GateSet.Boolean
import BoolCalculus.Proofs.Shape.Storage
import BoolCalculus.Proofs.Universe.Simulation
import BoolCalculus.Rule.Engine

/-!
# Lifted tensors simulate dense ones

Programs on the tensors of a universe run on lifted tensors of any gate set as they run on dense ones, as
far as a valuation of the elements shows, and engines of rules run on tensors of truth values as on dense
ones (`Universe.lifted_simulates_dense`). What sets the two apart is storage: lifted tensors are refused
where an array of that shape cannot be stored (`Universe.manyAxes_lifted_only`).
-/

namespace BoolCalculus

/-- In lists that correspond item by item, a place is there in both or in none. -/
theorem getElem?_of_forall₂ {β γ : Type} {R : β → γ → Prop} {bs : List β} {cs : List γ}
    (h : List.Forall₂ R bs cs) (i : Nat) :
    (∃ b c, bs[i]? = some b ∧ cs[i]? = some c ∧ R b c) ∨ bs[i]? = none ∧ cs[i]? = none := by
  induction h generalizing i with
  | nil => exact .inr ⟨rfl, rfl⟩
  | cons related _ ih =>
      cases i with
      | zero => exact .inl ⟨_, _, rfl, rfl, related⟩
      | succ i => exact ih i

namespace Universe

variable {σ α B ρ : Type}

/-! ## Steps and programs -/

/-- The shapes that a step asks for. The other tensors of a step have axes of its operands. -/
def Step.shapes (n : Nat) : Step ρ → List Shape
  | .create shape _ => [shape]
  | .reindex _ shape _ => [shape]
  | .unary op _ => if op = .inv then [.rectangular 2 n] else []
  | .binary op _ _ => if op = .circ then [.rectangular 3 n] else []
  | .scalarLift _ => [.rectangular 0 n]
  | .scalarTernary _ _ _ _ => []
  | .binLift _ => [.rectangular 2 n]
  | .diag => [.rectangular 2 n]
  | .relLift arity _ => [.rectangular arity n]
  | .relReindex _ arity _ => [.rectangular arity n]
  | .closure _ reflexive => (if reflexive then [.rectangular 2 n] else []) ++ [.rectangular 3 n]

/-- What a step takes for its operands, from left to right. -/
def Step.arguments : Step ρ → List ρ
  | .create _ _ | .scalarLift _ | .binLift _ | .diag | .relLift _ _ => []
  | .reindex r _ _ | .unary _ r | .relReindex r _ _ | .closure r _ => [r]
  | .binary _ r s => [r, s]
  | .scalarTernary _ r s t => [r, s, t]

/-- What a register holds: a tensor, or the failure of the step that should have made it. -/
def fetch (regs : List (Except Fault (Tensor α))) (r : Nat) : Build σ (Tensor α) :=
  match regs[r]? with
  | some content => .ofExcept content
  | none => throw .noItem

/-- Runs a step on registers. A step fails like the first of its operands that failed. -/
def Step.execute (U : Universe σ α) (regs : List (Except Fault (Tensor α))) (step : Step Nat) :
    Build σ (Tensor α) := do
  (← step.resolve (fetch regs)).run U

/-- Runs all steps of a program, also those after a failure, and answers what all registers hold at its
end. -/
def Program.outcomes (U : Universe σ α) :
    Program → List (Except Fault (Tensor α)) → σ → List (Except Fault (Tensor α)) × σ
  | [], regs, s => (regs, s)
  | step :: rest, regs, s =>
    let (content, t) := (step.execute U regs).runFrom s
    Program.outcomes U rest (regs ++ [content]) t

theorem Program.outcomes_cons {U : Universe σ α} {regs : List (Except Fault (Tensor α))}
    {step : Step Nat} {content : Except Fault (Tensor α)} {s t : σ}
    (run : (step.execute U regs).runFrom s = (content, t)) (rest : Program) :
    Program.outcomes U (step :: rest) regs s = Program.outcomes U rest (regs ++ [content]) t := by
  rw [Program.outcomes, run]

end Universe

namespace Valuation

open Universe

variable {σ α B : Type} {V : Valuation σ α B} {s t : σ}

variable (V) in
/-- In a state, two registers hold the same failure, or a tensor and what it is read as. -/
inductive Corresponds (s : σ) : Except Fault (Tensor α) → Except Fault (Tensor B) → Prop
  | ok {T : Tensor α} {X : Tensor B} (is : V.IsTensor s T X) : Corresponds s (.ok T) (.ok X)
  | error (f : Fault) : Corresponds s (.error f) (.error f)

theorem Corresponds.later {r : Except Fault (Tensor α)} {r' : Except Fault (Tensor B)}
    (h : V.Corresponds s r r') (later : V.Later s t) : V.Corresponds t r r' := by
  cases h with
  | ok is => exact .ok (is.later later)
  | error f => exact .error f

theorem Matches.corresponds {act : Build σ (Tensor α)} {act' : Build Unit (Tensor B)}
    (h : V.Matches V.IsTensor s act act') : ∃ content t content', act.runFrom s = (content, t) ∧
      (act'.runFrom ()).1 = content' ∧ V.Later s t ∧ V.Corresponds t content content' := by
  rw [Matches] at h
  generalize outcome : act'.outcome = content' at h
  cases h with
  | ok run later is => exact ⟨_, _, _, run, outcome, later, .ok is⟩
  | error run later => exact ⟨_, _, _, run, outcome, later, .error _⟩

variable {regs : List (Except Fault (Tensor α))} {regs' : List (Except Fault (Tensor B))}

theorem Matches.fetch (h : List.Forall₂ (V.Corresponds s) regs regs') (r : Nat) :
    V.Matches V.IsTensor s (fetch regs r) (fetch regs' r) := by
  rw [Universe.fetch, Universe.fetch]
  rcases getElem?_of_forall₂ h r with ⟨content, content', here, there, same⟩ | ⟨here, there⟩
  · rw [here, there]
    cases same with
    | ok is => exact .pure is
    | error f => exact .throw f
  · rw [here, there]
    exact .throw _

variable {allowed : Shape → Prop} {O : TensorOps σ α} {P : TensorOps Unit B} {n : Nat}

theorem Simulates.unary (sim : V.Simulates allowed O P) (op : Universe.Unary)
    (ok : op = .inv → allowed (.rectangular 2 n)) :
    V.MatchesUnary ((Universe.mk O n).unary op) ((Universe.mk P n).unary op) := by
  cases op with
  | not => exact sim.not
  | any => exact sim.any
  | all => exact sim.all
  | scalarNot => exact sim.scalarsNot
  | comp => exact sim.comp
  | inv => exact sim.inv (ok rfl)
  | relComp => exact sim.relComp
  | relExists => exact sim.relExists

theorem Simulates.binary (sim : V.Simulates allowed O P) (op : Universe.Binary)
    (ok : op = .circ → allowed (.rectangular 3 n)) :
    V.MatchesBinary ((Universe.mk O n).binary op) ((Universe.mk P n).binary op) := by
  cases op with
  | or => exact sim.or
  | and => exact sim.and
  | xor => exact sim.xor
  | equ => exact sim.equ
  | imp => exact sim.imp
  | meet => exact sim.meet
  | join => exact sim.join
  | circ => exact sim.circ (ok rfl)
  | equals => exact sim.equals
  | leq => exact sim.leq
  | deMorganJoin => exact sim.deMorganJoin
  | relMeet => exact sim.and.onRelations
  | relJoin => exact sim.or.onRelations
  | scalar gate => exact sim.scalarsBinary gate

/-- One step has the same outcome where what its operands stand for is looked up with the same outcome. -/
theorem Simulates.resolve (sim : V.Simulates allowed O P) {ρ : Type} (step : Step ρ)
    (ok : ∀ shape ∈ step.shapes n, allowed shape) {get : ρ → Build σ (Tensor α)}
    {get' : ρ → Build Unit (Tensor B)}
    (fetch : ∀ {t}, V.Later s t → ∀ r ∈ step.arguments, V.Matches V.IsTensor t (get r) (get' r)) :
    V.Matches V.IsTensor s (do (← step.resolve get).run (.mk O n))
      (do (← step.resolve get').run (.mk P n)) := by
  have now := V.later_refl s
  cases step with
  | create shape f => exact sim.create f (ok shape (.head _))
  | reindex r shape mapping =>
      simp only [Step.resolve, bind_assoc, pure_bind, Step.run]
      exact (fetch now r (.head _)).bind fun _ hT => sim.reindex mapping (ok shape (.head _)) hT
  | unary op r =>
      simp only [Step.resolve, bind_assoc, pure_bind, Step.run]
      have inv : op = .inv → allowed (.rectangular 2 n) := by
        rintro rfl
        exact ok _ (.head _)
      exact (fetch now r (.head _)).bind fun _ hT => sim.unary op inv hT
  | binary op r r' =>
      simp only [Step.resolve, bind_assoc, pure_bind, Step.run]
      have circ : op = .circ → allowed (.rectangular 3 n) := by
        rintro rfl
        exact ok _ (.head _)
      refine (fetch now r (.head _)).bind fun first hS => ?_
      refine (fetch first r' (.tail _ (.head _))).bind fun second hT => ?_
      exact sim.binary op circ (hS.later second) hT
  | scalarLift b => exact sim.create _ (ok _ (.head _))
  | scalarTernary gate r r' r'' =>
      simp only [Step.resolve, bind_assoc, pure_bind, Step.run]
      refine (fetch now r (.head _)).bind fun first hR => ?_
      refine (fetch first r' (.tail _ (.head _))).bind fun second hS => ?_
      have later := V.later_trans first second
      refine (fetch later r'' (.tail _ (.tail _ (.head _)))).bind fun third hT => ?_
      exact sim.scalarsTernary gate (hR.later (V.later_trans second third)) (hS.later third) hT
  | binLift b => exact sim.create _ (ok _ (.head _))
  | diag => exact sim.create _ (ok _ (.head _))
  | relLift arity b => exact sim.create _ (ok _ (.head _))
  | relReindex r arity mapping =>
      simp only [Step.resolve, bind_assoc, pure_bind, Step.run]
      exact (fetch now r (.head _)).bind fun _ hT =>
        sim.relReindex arity mapping (ok _ (.head _)) hT
  | closure r reflexive =>
      simp only [Step.resolve, bind_assoc, pure_bind, Step.run]
      have square : reflexive → allowed (.rectangular 2 n) := by
        rintro rfl
        exact ok _ (.head _)
      have cube : allowed (.rectangular 3 n) :=
        ok _ (List.mem_append_right _ (.head _))
      exact (fetch now r (.head _)).bind fun _ hT => sim.closure reflexive square cube hT

/-- One step has the same outcome on registers that correspond. -/
theorem Simulates.execute (sim : V.Simulates allowed O P) (step : Step Nat)
    (ok : ∀ shape ∈ step.shapes n, allowed shape)
    (h : List.Forall₂ (V.Corresponds s) regs regs') :
    V.Matches V.IsTensor s (step.execute (.mk O n) regs) (step.execute (.mk P n) regs') :=
  sim.resolve step ok fun later r _ => Matches.fetch (h.imp fun _ _ same => same.later later) r

/-- A program has the same outcomes from registers that correspond, and its registers correspond at its end. -/
theorem Simulates.outcomes (sim : V.Simulates allowed O P) (program : Program)
    (ok : ∀ step ∈ program, ∀ shape ∈ step.shapes n, allowed shape)
    (h : List.Forall₂ (V.Corresponds s) regs regs') :
    V.Later s (program.outcomes (.mk O n) regs s).2 ∧
    List.Forall₂ (V.Corresponds (program.outcomes (.mk O n) regs s).2)
      (program.outcomes (.mk O n) regs s).1 (program.outcomes (.mk P n) regs' ()).1 := by
  induction program generalizing s regs regs' with
  | nil => exact ⟨V.later_refl s, h⟩
  | cons step rest ih =>
      obtain ⟨content, t, content', run, run', later, same⟩ :=
        (sim.execute step (ok step (.head _)) h).corresponds
      have run' : (step.execute (.mk P n) regs').runFrom () = (content', ()) := Prod.ext run' rfl
      rw [Program.outcomes_cons run, Program.outcomes_cons run']
      have regs := h.imp fun _ _ same => same.later later
      obtain ⟨more, related⟩ := ih (fun step member => ok step (.tail _ member))
        (List.rel_append regs (.cons same .nil))
      exact ⟨V.later_trans later more, related⟩

/-! ## Lifted and dense tensors -/

theorem Reads.storable_lifted {V : Valuation σ α Bool} {A : GateSet σ α}
    (respects : V.Respects A) :
    V.Reads (fun shape => shape.checkStorage = .ok ()) (TensorOps.lifted A).stored :=
  (Reads.lifted respects).stored.mono fun _ fits => ⟨trivial, fits⟩

theorem Reads.storable_dense {V : Valuation σ Bool Bool} (plain : ∀ s b, V.Is s b b) :
    V.Reads (fun shape => shape.checkStorage = .ok ()) TensorOps.dense :=
  (Reads.dense plain).mono fun _ => Shape.isSome_axes?_of_checkStorage

/-- Lifted tensors simulate dense ones, for shapes that can be stored. -/
theorem simulates_dense {V : Valuation σ α Bool} {A : GateSet σ α} (respects : V.Respects A) :
    V.Simulates (fun shape => shape.checkStorage = .ok ()) (TensorOps.lifted A).stored .dense :=
  .of_reads (.storable_lifted respects) (.storable_dense fun _ _ => ⟨trivial, rfl⟩)

theorem dense_simulates_dense {V : Valuation σ Bool Bool} (plain : ∀ s b, V.Is s b b) :
    V.Simulates (fun shape => shape.checkStorage = .ok ()) .dense .dense :=
  .of_reads (.storable_dense plain) (.storable_dense fun _ _ => ⟨trivial, rfl⟩)

theorem isTensor_still {T X : Tensor Bool} :
    (still : Valuation σ Bool Bool).IsTensor s T X ↔ T = X :=
  isTensor_iff_eq fun _ _ => ⟨trivial, rfl⟩

/-- A construction that keeps the state is known by its outcome. -/
theorem Matches.still_run {act : Build σ (Tensor Bool)} {act' : Build Unit (Tensor Bool)}
    (h : still.Matches still.IsTensor s act act') : act.runFrom s = (act'.outcome, s) := by
  rw [Matches] at h
  generalize act'.outcome = r at h ⊢
  cases h with
  | ok run later is => rw [run, ← isTensor_still.1 is, ← show s = _ from later]
  | error run later => rw [run, ← show s = _ from later]

/-- Two constructions are one if from every state both keep the state and have the outcome of a third. -/
theorem Matches.still_eq {act₁ act₂ : Build σ (Tensor Bool)} {act' : Build Unit (Tensor Bool)}
    (first : ∀ s, still.Matches still.IsTensor s act₁ act')
    (second : ∀ s, still.Matches still.IsTensor s act₂ act') : act₁ = act₂ :=
  Build.ext_runFrom fun s => (first s).still_run.trans (second s).still_run.symm

end Valuation

namespace Universe

open BoolCalculus.Valuation

variable {σ α : Type} {n : Nat}

/-- Two universes on tensors of truth values cannot be told apart by steps that ask for shapes that
can be stored, or by an engine of rules, whether or not its relations have labels. -/
structure SameRuns (U U' : Universe σ Bool) : Prop where
  execute : ∀ regs (step : Step Nat),
    (∀ shape ∈ step.shapes U.size, shape.checkStorage = .ok ()) →
      step.execute U regs = step.execute U' regs
  truthValue : ∀ T, U.truthValue T = U'.truthValue T
  setRelation : ∀ name R,
    Engine.setRelation U.relationOps name R = Engine.setRelation U'.relationOps name R
  applyRule : ∀ r, Engine.applyRule U.relationOps r = Engine.applyRule U'.relationOps r
  forwardChain : ∀ budget,
    Engine.forwardChain U.relationOps budget = Engine.forwardChain U'.relationOps budget
  labelled : U.relationOps.labelled = U'.relationOps.labelled

section

variable {O O' : TensorOps σ Bool} {P : TensorOps Unit Bool} {allowed : Shape → Prop}
variable (sim : still.Simulates allowed O P) (sim' : still.Simulates allowed O' P)

include sim sim'

/-- Tensor operations that simulate the same ones do the same on binary relations. -/
theorem relationOps_eq (square : allowed (.rectangular 2 n)) (cube : allowed (.rectangular 3 n)) :
    (mk O n).relationOps = (mk O' n).relationOps := by
  have is : ∀ {s : σ} {T}, still.IsTensor s T T := isTensor_still.2 rfl
  have inv : (mk O n).inv = (mk O' n).inv := by
    funext R
    exact Matches.still_eq (fun s => sim.inv square is) (fun s => sim'.inv square is)
  have circ : (mk O n).circ = (mk O' n).circ := by
    funext R S
    exact Matches.still_eq (fun s => sim.circ cube is is) (fun s => sim'.circ cube is is)
  have join : (mk O n).join = (mk O' n).join := by
    funext R S
    exact Matches.still_eq (fun s => sim.join is is) (fun s => sim'.join is is)
  have equals : (mk O n).equals = (mk O' n).equals := by
    funext R S
    exact Matches.still_eq (fun s => sim.equals is is) (fun s => sim'.equals is is)
  have same : (mk O n).same = (mk O' n).same := by
    funext R S
    rw [Universe.same, Universe.same, equals]
    rfl
  rw [relationOps, relationOps, inv, circ, join, same]
  rfl

theorem execute_eq {step : Step Nat} (ok : ∀ shape ∈ step.shapes n, allowed shape)
    (regs : List (Except Fault (Tensor Bool))) :
    step.execute (mk O n) regs = step.execute (mk O' n) regs := by
  have related : ∀ s : σ, List.Forall₂ (still.Corresponds s) regs regs := by
    intro s
    refine List.forall₂_same.2 fun content _ => ?_
    cases content with
    | ok T => exact .ok (isTensor_still.2 rfl)
    | error f => exact .error f
  exact Matches.still_eq (fun s => sim.execute step ok (related s))
    (fun s => sim'.execute step ok (related s))

end

/-- Lifted tensors over a gate set that respects a valuation run every program as dense tensors do: each
step fails in both runs with the same fault, or in none, and then makes tensors that
correspond under the valuation. Over the truth values the two kinds of tensors cannot be told apart
by engines of rules either. All this holds as long as the shapes that are asked for can be stored. -/
theorem lifted_simulates_dense {V : Valuation σ α Bool} {A : GateSet σ α} (respects : V.Respects A)
    (n : Nat) {program : Program}
    (storable : ∀ step ∈ program, ∀ shape ∈ step.shapes n, shape.checkStorage = .ok ())
    (s : σ) {inputs : List (Tensor α)} (there : ∀ T ∈ inputs, ∀ c h, V.Elem s (T.get c h)) :
    (let lifted := program.outcomes (mk (TensorOps.lifted A).stored n) (inputs.map .ok) s
     let dense := program.outcomes (mk .dense n) (inputs.map fun T => .ok (T.map (V.value s))) ()
     V.Later s lifted.2 ∧ List.Forall₂ (V.Corresponds lifted.2) lifted.1 dense.1) ∧
    ∀ check, (Shape.rectangular 3 n).checkStorage = .ok () →
      SameRuns (mk (TensorOps.lifted (.boolean check)).stored n : Universe σ Bool) (mk .dense n) := by
  constructor
  · have related : List.Forall₂ (V.Corresponds s) (inputs.map .ok)
        (inputs.map fun T => .ok (T.map (V.value s))) := by
      refine List.forall₂_map_left_iff.2 (List.forall₂_map_right_iff.2 (List.forall₂_same.2 ?_))
      exact fun T member => .ok ⟨there T member, rfl⟩
    exact (simulates_dense respects).outcomes program storable related
  · intro check cube
    have lifted := simulates_dense (respects_boolean (σ := σ) readsTruths_still check)
    have dense := dense_simulates_dense (σ := σ) (V := still) fun _ _ => ⟨trivial, rfl⟩
    have ops := relationOps_eq lifted dense (Shape.checkStorage_square cube) cube
    exact
      { execute := fun regs step storable => execute_eq lifted dense storable regs
        truthValue := fun T => rfl
        setRelation := fun name R => by rw [ops]
        applyRule := fun r => by rw [ops]
        forwardChain := fun budget => by rw [ops]
        labelled := by rw [ops] }

/-- A relation whose cells are one input of a circuit, closed and composed. -/
theorem lifted_simulates_dense_circuit :
    let input : Tensor Nat := .ofFn [2, 2] fun _ _ => 0
    let program : Program := [.closure 0 true, .binary .circ 0 1, .unary .any 2, .unary .inv 3]
    let V := Circuit.evaluation fun _ => true
    let lifted := program.outcomes (mk (TensorOps.lifted (Circuit.gates id)).stored 2)
      [.ok input] #[.input]
    let dense := program.outcomes (mk .dense 2) [.ok (input.map (V.value #[.input]))] ()
    V.Later #[.input] lifted.2 ∧ List.Forall₂ (V.Corresponds lifted.2) lifted.1 dense.1 := by
  intro input program V
  have storable : ∀ step ∈ program, ∀ shape ∈ step.shapes 2, shape.checkStorage = .ok () := by
    have cube : (Shape.rectangular 3 2).checkStorage = .ok () := rfl
    have square : (Shape.rectangular 2 2).checkStorage = .ok () := rfl
    simp [program, Step.shapes, cube, square]
  have there : ∀ T ∈ [input], ∀ c h, V.Elem #[.input] (T.get c h) := by
    intro T member c h
    obtain rfl := List.mem_singleton.1 member
    show input.get c h < 1
    rw [Tensor.get_ofFn [2, 2] (fun _ _ => 0) h]
    exact Nat.zero_lt_one
  exact (lifted_simulates_dense (Circuit.respects_evaluation fun _ => true) 2 storable
    #[.input] there).1

/-- An array cannot have sixty-five axes, but a dense tensor can. -/
theorem manyAxes_lifted_only :
    still.Respects (GateSet.boolean (σ := Unit) false) ∧
    (Program.outcomes (mk (TensorOps.lifted (.boolean false)).stored 1 : Universe Unit Bool)
      [.relLift 65 true] [] ()).1 = [.error (.manyAxes 65)] ∧
    ∃ T, (Program.outcomes (mk .dense 1) [.relLift 65 true] [] ()).1 = [.ok T] :=
  ⟨respects_boolean readsTruths_still false, rfl, _, rfl⟩

end Universe

end BoolCalculus
