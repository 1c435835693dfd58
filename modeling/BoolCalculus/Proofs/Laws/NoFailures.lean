import BoolCalculus.CommandLine
import BoolCalculus.Proofs.Settings.Layers
import BoolCalculus.Proofs.Rule.Sessions
import BoolCalculus.Proofs.Universe.Derivations
import BoolCalculus.Proofs.Word.Exact

/-!
# Law checks find no failures

A law checker over truth values reports no failure, whatever it draws: a trial of a law holds for all relations
and all integers, so that every count of failures is 0 and the command exits with 0
(`Laws.checkAll_noFailures`). Each law is an equation of matrices or of remainders modulo `2 ^ width`, and what
a trial compares is read as its two sides.
-/

namespace BoolCalculus

namespace Valuation

variable {σ : Type} {n : Nat} {xs : List Bool}

/-- What is read as a matrix in every run makes the tensor of the matrix. -/
theorem makes_ofMatrix {act : Build σ (Tensor Bool)} {M : Matrix n Bool}
    (runs : ∀ s, (ofFn id : Valuation σ Bool Bool).Runs (ofFn id).IsMatrix s act (.ok M)) :
    act.Makes (fun _ => False) (· = .ofMatrix M) := by
  intro s
  obtain ⟨t, run⟩ := (runs s).runFrom_matrix
  rw [run]

theorem isWord_ofFn {s : σ} {w : Word Bool} :
    (ofFn id : Valuation σ Bool Bool).IsWord s w xs ↔ w = xs := by
  rw [isWord_iff]
  simp [ofFn]

/-- What is read as a word in every run makes the word itself. -/
theorem makes_word {act : Build σ (Word Bool)}
    (runs : ∀ s, (ofFn id : Valuation σ Bool Bool).Runs (ofFn id).IsWord s act (.ok xs)) :
    act.Makes (fun _ => False) (· = xs) := by
  intro s
  cases runs s with
  | ok run _ is =>
      rw [run]
      exact isWord_ofFn.1 is

end Valuation

namespace Laws

namespace Checker

open Bits BoolCalculus.Valuation Word

variable {σ α β : Type}

/-! ## Counting -/

/-- A law whose trials hold is never counted as failed. -/
theorem makes_countFailures {trial : Build σ Bool} (holds : trial.Makes (fun _ => False) (· = true))
    (k : Nat) : (countFailures trial k).Makes (fun _ => False) (· = 0) := by
  induction k with
  | zero => exact .pure rfl
  | succ k ih =>
      apply holds.bind
      rintro _ rfl
      apply ih.bind
      rintro _ rfl
      exact .pure rfl

/-- Laws that hold are reported with no failure each, in their order. -/
theorem makes_run (C : Checker σ α β) {laws : List (Law σ)}
    (hold : ∀ law ∈ laws, law.trial.Makes (fun _ => False) (· = true)) :
    (C.run laws).Makes (fun _ => False) (· = laws.map fun law => ⟨law.name, C.trials, 0⟩) := by
  induction laws with
  | nil => exact .pure rfl
  | cons law laws ih =>
      have counted := makes_countFailures (hold law List.mem_cons_self) C.trials.toNat
      have rest := ih fun law member => hold law (List.mem_cons_of_mem _ member)
      unfold run at rest ⊢
      rw [List.mapM_cons, bind_assoc]
      apply counted.bind
      rintro _ rfl
      rw [pure_bind]
      apply rest.bind
      rintro _ rfl
      exact .pure rfl

/-! ## Laws of relations -/

/-- The diagonal of the points that the relations of a checker are on. -/
def diagonal (C : Checker σ Bool β) : Tensor Bool :=
  .ofMatrix (Matrix.diag : Matrix C.space.size Bool)

section

variable {C : Checker σ Bool β} {allowed : Shape → Prop}
variable (reads : (ofFn id).Reads allowed C.space.tensors)
variable (square : allowed (.rectangular 2 C.space.size)) (cube : allowed (.rectangular 3 C.space.size))
variable (drawn : C.relation.Makes (fun _ => False) (·.axes = [C.space.size, C.space.size]))
variable {M N : Matrix C.space.size Bool}

include reads

/-- Relations with one matrix are found to be the same. -/
theorem makes_same (equal : M = N) :
    (C.space.same (.ofMatrix M) (.ofMatrix N)).Makes (fun _ => False) (· = true) := by
  intro s
  obtain ⟨same, t, run, iff⟩ := reads.same_ensures (s := s) (Tensor.axes_ofMatrix M) (Tensor.axes_ofMatrix N)
  have run : (C.space.same (.ofMatrix M) (.ofMatrix N)).runFrom s = (.ok same, t) := run
  rw [run]
  exact iff.2 (Tensor.matrix_eq_iff.2 equal)

include square in
theorem diagonalLaw_holds : (C.diagonalLaw C.diagonal).Makes (fun _ => False) (· = true) := by
  apply (makes_ofMatrix fun s => reads.runs_inv square (isMatrix_ofMatrix _)).bind
  rintro _ rfl
  exact makes_same reads Matrix.transpose_diag

include drawn in
theorem complementLaw_holds : C.complementLaw.Makes (fun _ => False) (· = true) := by
  apply drawn.bind
  intro R binary
  obtain ⟨M, rfl⟩ := Tensor.exists_ofMatrix binary
  apply (makes_ofMatrix fun s => reads.runs_comp (isMatrix_ofMatrix M)).bind
  rintro _ rfl
  apply (makes_ofMatrix fun s => reads.runs_comp (isMatrix_ofMatrix _)).bind
  rintro _ rfl
  exact makes_same reads (compl_compl M)

include drawn in
/-- The join and the one by De Morgan's law are read as one matrix. -/
theorem deMorganLaw_holds : C.deMorganLaw.Makes (fun _ => False) (· = true) := by
  apply drawn.bind
  intro R binary
  obtain ⟨M, rfl⟩ := Tensor.exists_ofMatrix binary
  apply drawn.bind
  intro S binary
  obtain ⟨N, rfl⟩ := Tensor.exists_ofMatrix binary
  apply (makes_ofMatrix fun s => reads.runs_join (isMatrix_ofMatrix M) (isMatrix_ofMatrix N)).bind
  rintro _ rfl
  apply (makes_ofMatrix fun s => reads.runs_deMorganJoin (isMatrix_ofMatrix M) (isMatrix_ofMatrix N)).bind
  rintro _ rfl
  exact makes_same reads rfl

include cube drawn in
/-- Both ways to compose three relations are read as one matrix. -/
theorem associativityLaw_holds : C.associativityLaw.Makes (fun _ => False) (· = true) := by
  have circ : ∀ M N : Matrix C.space.size Bool, (C.space.circ (.ofMatrix M) (.ofMatrix N)).Makes
      (fun _ => False) (· = .ofMatrix (Matrix.comp M N)) := fun M N =>
    makes_ofMatrix fun s => reads.runs_circ cube (isMatrix_ofMatrix M) (isMatrix_ofMatrix N)
  apply drawn.bind
  intro R binary
  obtain ⟨M, rfl⟩ := Tensor.exists_ofMatrix binary
  apply drawn.bind
  intro S binary
  obtain ⟨N, rfl⟩ := Tensor.exists_ofMatrix binary
  apply drawn.bind
  intro T binary
  obtain ⟨L, rfl⟩ := Tensor.exists_ofMatrix binary
  apply (circ M N).bind
  rintro _ rfl
  apply (circ _ L).bind
  rintro _ rfl
  apply (circ N L).bind
  rintro _ rfl
  apply (circ M _).bind
  rintro _ rfl
  exact makes_same reads (Matrix.comp_assoc M N L)

include cube drawn in
/-- The diagonal is a unit on both sides; the second side is tried since the first one holds. -/
theorem unitLaw_holds : (C.unitLaw C.diagonal).Makes (fun _ => False) (· = true) := by
  apply drawn.bind
  intro R binary
  obtain ⟨M, rfl⟩ := Tensor.exists_ofMatrix binary
  apply (makes_ofMatrix fun s => reads.runs_circ cube (isMatrix_ofMatrix M) (isMatrix_ofMatrix _)).bind
  rintro _ rfl
  apply (makes_same reads (Matrix.comp_diag M)).bind
  rintro _ rfl
  apply (makes_ofMatrix fun s => reads.runs_circ cube (isMatrix_ofMatrix _) (isMatrix_ofMatrix M)).bind
  rintro _ rfl
  exact makes_same reads (Matrix.diag_comp M)

include square cube drawn in
/-- The five laws of relations hold in every trial. -/
theorem makes_checkRelations : C.checkRelations.Makes (fun _ => False)
    (· = (C.relationLaws C.diagonal).map fun law => ⟨law.name, C.trials, 0⟩) := by
  apply (makes_ofMatrix fun s => reads.runs_diag square).bind
  rintro _ rfl
  apply makes_run
  simp only [relationLaws, List.forall_mem_cons]
  refine ⟨?_, ?_, ?_, ?_, ?_, ?_⟩
  · exact diagonalLaw_holds reads square
  · exact complementLaw_holds reads drawn
  · exact deMorganLaw_holds reads drawn
  · exact associativityLaw_holds reads cube drawn
  · exact unitLaw_holds reads cube drawn
  · exact nofun

end

/-! ## Laws of arithmetic -/

section

variable {C : Checker σ α Bool} (lawful : C.gates.Lawful)
variable (drawn : C.draw.Makes (fun _ => False) fun _ => True)

/-- A word encodes an integer if its unsigned reading is the remainder of the integer. -/
theorem encodes_of_emod {bits : Word Bool} {n : Int} (reads : (toUnsigned bits : Int) = n % 2 ^ C.width) :
    C.encodes bits n = true := by
  have plain : (Shown.isTrue : Bool → Bool) = id := funext Shown.isTrue_bool
  rw [encodes, plain, List.map_id, masked_eq, reads]
  exact beq_self_eq_true _

include lawful

/-- The word of an integer has its lowest bits. -/
theorem makes_lift (a : Int) : (C.word a).Makes (fun _ => False) (· = Bits.ofInt a C.width) := by
  have plain : (fun b : Bool => if b then (⊤ : Bool) else ⊥) = id := by
    funext b
    cases b <;> rfl
  rw [word, lifted_eq_lift]
  apply makes_word
  intro s
  have lifted := runs_lift lawful s (Bits.ofInt a C.width)
  rwa [plain, List.map_id] at lifted

include drawn

/-- A law of an operation on two words holds if the operation is read as that on integers. -/
theorem binaryLaw_holds {op : NumOp} {expected : Int → Int → Int}
    (exact : ∀ a b : Int, ∃ bits, (arithmetic C.gates op (Bits.ofInt a C.width) (Bits.ofInt b C.width)).Makes
      (fun _ => False) (· = bits) ∧ (toUnsigned bits : Int) = expected a b % 2 ^ C.width) :
    (C.binaryLaw op expected).Makes (fun _ => False) (· = true) := by
  apply drawn.bind
  intro a _
  apply drawn.bind
  intro b _
  apply (makes_lift lawful a).bind
  rintro _ rfl
  apply (makes_lift lawful b).bind
  rintro _ rfl
  obtain ⟨bits, made, value⟩ := exact a b
  apply made.bind
  rintro _ rfl
  exact .pure (encodes_of_emod value)

/-- The sum of two words has the remainder of the sum of their integers. -/
theorem addLaw_holds : (C.binaryLaw .add (· + ·)).Makes (fun _ => False) (· = true) := by
  apply binaryLaw_holds lawful drawn
  intro a b
  have width : (Bits.ofInt a C.width).length = (Bits.ofInt b C.width).length := by simp
  refine ⟨_, makes_word fun s => runs_add lawful width (isWord_ofFn.2 rfl) (isWord_ofFn.2 rfl), ?_⟩
  rw [toUnsigned_sums_eq_emod width, length_ofInt, Int.toNat_natCast, toUnsigned_ofInt,
    toUnsigned_ofInt, ← Int.add_emod]

theorem subLaw_holds : (C.binaryLaw .sub (· - ·)).Makes (fun _ => False) (· = true) := by
  apply binaryLaw_holds lawful drawn
  intro a b
  have width : (Bits.ofInt a C.width).length = (Bits.ofInt b C.width).length := by simp
  refine ⟨_, makes_word fun s => runs_sub lawful width (isWord_ofFn.2 rfl) (isWord_ofFn.2 rfl), ?_⟩
  rw [toUnsigned_sums_compl_eq_emod width, length_ofInt, Int.toNat_natCast, toUnsigned_ofInt,
    toUnsigned_ofInt, ← Int.sub_emod]

theorem negationLaw_holds : C.negationLaw.Makes (fun _ => False) (· = true) := by
  apply drawn.bind
  intro a _
  apply (makes_lift lawful a).bind
  rintro _ rfl
  apply (makes_word fun s => runs_neg lawful (isWord_ofFn.2 rfl)).bind
  rintro _ rfl
  apply Build.Makes.pure
  apply encodes_of_emod
  rw [toUnsigned_halfSums_compl_eq_emod, length_ofInt, Int.toNat_natCast, toUnsigned_ofInt,
    ← zero_sub, ← zero_sub a, Int.sub_emod, Int.emod_emod, ← Int.sub_emod]

/-- The three laws of arithmetic hold in every trial. -/
theorem makes_checkArithmetic : C.checkArithmetic.Makes (fun _ => False)
    (· = C.arithmeticLaws.map fun law => ⟨law.name, C.trials, 0⟩) := by
  apply makes_run
  simp only [arithmeticLaws, List.forall_mem_cons]
  refine ⟨?_, ?_, ?_, ?_⟩
  · exact addLaw_holds lawful drawn
  · exact subLaw_holds lawful drawn
  · exact negationLaw_holds lawful drawn
  · exact nofun

end

end Checker

/-! ## Whole checks -/

/-- The names of the eight laws, in the order in which they are checked. -/
def names : List Text :=
  ["inv(diag) == diag", "comp(comp(R)) == R", "join == De Morgan join", "circ is associative",
    "diag is the unit of circ", "num_add matches +", "num_sub matches -", "num_neg matches unary -"]

/-- The results of a check that finds no failures. -/
def noFailures (trials : Int) : List Result :=
  names.map fun law => ⟨law, trials, 0⟩

/-- What a checker of truth values is given: operations on truth values, and draws that never fail, of binary
relations and of integers. -/
structure Checker.Delivers {σ : Type} (C : Checker σ Bool Bool) : Prop where
  tensors : Universe.TruthOps C.space.size C.space.tensors
  gates : C.gates.Lawful
  relation : C.relation.Makes (fun _ => False) (·.axes = [C.space.size, C.space.size])
  integer : C.draw.Makes (fun _ => False) fun _ => True

/-- Whatever is drawn, all eight laws are checked, and none is counted as failed. -/
theorem Checker.Delivers.makes_checkAll {σ : Type} {C : Checker σ Bool Bool} (delivers : C.Delivers) :
    C.checkAll.Makes (fun _ => False) (· = noFailures C.trials) := by
  obtain ⟨_, reads, square, cube⟩ := delivers.tensors.reads
  apply (Checker.makes_checkRelations reads square cube delivers.relation).bind
  rintro _ rfl
  apply (Checker.makes_checkArithmetic delivers.gates delivers.integer).bind
  rintro _ rfl
  exact .pure rfl

theorem Checker.Delivers.runFrom_checkAll {σ : Type} {C : Checker σ Bool Bool} (delivers : C.Delivers) (s : σ) :
    ∃ t, C.checkAll.runFrom s = (.ok (noFailures C.trials), t) := by
  obtain ⟨_, t, run, rfl⟩ := Build.Makes.succeeds delivers.makes_checkAll s
  exact ⟨t, run⟩

/-! ## Plans and the command -/

variable {E : Fault → Prop}

/-- Draws never fail, whether they are generated or given. -/
theorem Draws.makes_cells (count : Nat) : (cells count).Makes E fun _ => True :=
  fun _ => trivial

theorem Draws.makes_integer (low high : Int) : (integer low high).Makes E fun _ => True :=
  fun _ => trivial

/-- A drawn relation of truth values is binary, however many cells are drawn. -/
theorem makes_drawRelation {σ : Type} {n : Nat} {cells : Nat → Build σ (List Bool)}
    (drawn : ∀ count, (cells count).Makes E fun _ => True) :
    (drawRelation (Universe.mk .dense n) cells).Makes E (·.axes = [n, n]) := by
  have axes : (Shape.rectangular 2 n).axes? = some [n, n] := Tensor.axes?_rectangular 2
  have create : ∀ f, (TensorOps.dense : TensorOps σ Bool).create (.rectangular 2 n) f =
      pure (.ofFn [n, n] fun c _ => f c) := by
    intro f
    simp [TensorOps.dense, axes]
  unfold drawRelation
  apply (drawn _).bind
  intro row _
  rw [Universe.newShape, create]
  exact .pure rfl

variable {host : Settings.Host} {library : Library Draws} {p : Plan}

/-- What the checker of a plan can be made for: words with a bit, a universe, and a seed; the library knows the device that
is asked for or set, and its tensors there are arrays of truth values; and the settings can be loaded. -/
structure Plan.Accepted (host : Settings.Host) (library : Library Draws) (p : Plan) : Prop where
  width : 1 ≤ p.width
  size : 0 ≤ p.size
  seed : takesSeed p.seed
  device : ∃ device warnings, library.choose host p.device = .ok (device, warnings) ∧ library.tensors device = .dense
  settings : ∃ loaded, Settings.load host none = .ok loaded

/-- The checker of a plan has the size, the width and the number of trials of the plan. -/
structure Plan.Realises (p : Plan) (C : Checker Draws Bool Bool) : Prop where
  delivers : C.Delivers
  size : C.space.size = p.size
  width : C.width = p.width
  trials : C.trials = p.trials

/-- Where the settings can be loaded, they tell whether operands are checked. -/
theorem booleanGates_of_load (settings : ∃ loaded, Settings.load host none = .ok loaded) :
    ∃ check, (booleanGates host : Except Fault (GateSet Draws Bool)) = .ok (.boolean check) := by
  obtain ⟨⟨fields, warnings⟩, loaded⟩ := settings
  let keys : List Text := ["engine", "check_membership"]
  have askable : Settings.Askable (Settings.variableOf keys) := by
    unfold Settings.Askable
    decide
  have checked : host.checkMembership .null = (fun answer => (answer.1, warnings ++ answer.2)) <$>
      Settings.flag (.record fields) host.environment keys (.truth false) :=
    Settings.withSettings_of_load loaded fun config => Settings.flag config host.environment keys (.truth false)
  cases read : Settings.flag (.record fields) host.environment keys (.truth false) with
  | error f => exact absurd askable ((Settings.fails_iff _ _ keys _).2.1 ⟨f, read⟩).2
  | ok answer =>
      rw [read] at checked
      refine ⟨answer.1.isTrue, ?_⟩
      rw [booleanGates, checked]
      rfl

/-- An accepted plan has a checker that delivers what the laws need. -/
theorem Plan.Accepted.checker (accepted : p.Accepted host library) :
    ∃ C, p.checker host library = .ok C ∧ p.Realises C := by
  have wide : ¬p.width < 1 := not_lt.2 accepted.width
  have width : (p.width.toNat : Int) = p.width := Int.toNat_of_nonneg (by omega)
  have size : (p.size.toNat : Int) = p.size := Int.toNat_of_nonneg accepted.size
  have relation := makes_drawRelation (n := p.size.toNat) fun count =>
    (Draws.makes_cells (E := fun _ => False) count).onPart id fun d _ => d
  have integer := fun low high =>
    (Draws.makes_integer (E := fun _ => False) low high).onPart id fun d _ => d
  obtain ⟨device, warnings, chosen, dense⟩ := accepted.device
  obtain ⟨check, gates⟩ := booleanGates_of_load accepted.settings
  have tensors : library.onDevice host p.device = .ok .dense := by
    rw [Library.onDevice, chosen, ← dense]
    rfl
  simp only [Plan.checker, checkerOver, tensors, gates, Universe.ofSize, if_neg wide, if_pos accepted.size,
    accepted.seed]
  exact ⟨_, rfl, ⟨.dense, Universe.lawful_boolean check, relation, integer _ _⟩, size, width, rfl⟩

theorem Plan.Accepted.check (accepted : p.Accepted host library) :
    p.check host library = .ok (noFailures p.trials) := by
  obtain ⟨C, made, realises⟩ := accepted.checker
  obtain ⟨t, run⟩ := realises.delivers.runFrom_checkAll p.draws
  have check : p.check host library = (C.checkAll.runFrom p.draws).1 := by
    rw [Plan.check, made]
    rfl
  rw [check, run, realises.trials]

/-- A device that the library does not know ends the check before a law is tried. -/
theorem Plan.check_of_refused {f : Fault} (wide : 1 ≤ p.width) (refused : library.choose host p.device = .error f) :
    p.check host library = .error f := by
  have notEmpty : ¬p.width < 1 := not_lt.2 wide
  have tensors : library.onDevice host p.device = .error f := by
    rw [Library.onDevice, refused]
    rfl
  rw [Plan.check, Plan.checker, Plan.checkerOver, if_neg notEmpty, tensors]
  rfl

example (host : Settings.Host) : CommandLine.run host .processor ["--device", "foo"] = .error (.unknownDevice "foo") := by
  rfl

theorem exit_report (json : Bool) (trials : Int) :
    (CommandLine.report json (noFailures trials)).exit = 0 := by
  have hold : (noFailures trials).all Result.holds = true := by
    simp [noFailures, names, Result.holds]
  simp [CommandLine.report, hold]

/-- A request that gives all values has its plan checked. -/
theorem check_request {r : CommandLine.Request} (accepted : r.plan.Accepted host library) (given : r.blank = []) :
    r.check host library = .ok (noFailures r.plan.trials) := by
  obtain ⟨C, made, _⟩ := accepted.checker
  simp only [CommandLine.Request.check, given, made, accepted.check, List.not_mem_nil]
  rfl

/-- The command exits with 0 if it is asked for a check. -/
theorem run_request {args : List String} {r : CommandLine.Request}
    (request : CommandLine.read args = .request r) (accepted : r.plan.Accepted host library) (given : r.blank = []) :
    ∃ stdout, CommandLine.run host library args = .ok ⟨0, stdout⟩ := by
  have run : CommandLine.run host library args = .ok (CommandLine.report r.json (noFailures r.plan.trials)) := by
    simp only [CommandLine.run, request, check_request accepted given]
    rfl
  refine ⟨(CommandLine.report r.json (noFailures r.plan.trials)).stdout, ?_⟩
  rw [run, ← exit_report r.json r.plan.trials]

/-- A law check finds no failures. Whatever relations and integers a checker of truth values is given, all eight laws
are checked without a failure, and the code of the command for these results is 0. A plan with a positive width, a
universe, a seed and a device that the library of tensors knows has such a checker on every host whose settings can be
loaded, and the command that is asked for such a plan exits with 0. -/
theorem checkAll_noFailures :
    (∀ {σ : Type} (C : Checker σ Bool Bool), C.Delivers → ∀ s json,
      (∃ t, C.checkAll.runFrom s = (.ok (noFailures C.trials), t)) ∧
      (CommandLine.report json (noFailures C.trials)).exit = 0) ∧
    ∀ (host : Settings.Host) (library : Library Draws),
      (∀ p : Plan, p.Accepted host library →
        (∃ C, p.checker host library = .ok C ∧ p.Realises C) ∧ p.check host library = .ok (noFailures p.trials)) ∧
      ∀ args r, CommandLine.read args = .request r → r.plan.Accepted host library → r.blank = [] →
        ∃ stdout, CommandLine.run host library args = .ok ⟨0, stdout⟩ := by
  refine ⟨?_, fun host library => ⟨?_, ?_⟩⟩
  · intro σ C delivers s json
    exact ⟨delivers.runFrom_checkAll s, exit_report json C.trials⟩
  · intro p accepted
    exact ⟨accepted.checker, accepted.check⟩
  · intro args r request accepted given
    exact run_request request accepted given

/-- A checker that always draws the pair of 0 and 1 and the lowest integer, and a command for relations on no point and
words of one bit, on a machine that has a device set but no file of settings; another device is asked for. -/
theorem checkAll_noFailures_small :
    let C : Checker Unit Bool Bool :=
      ⟨⟨.dense, 2⟩, .boolean false, 3, 1, pure (.ofFn [2, 2] fun c _ => c == [0, 1]), fun low _ => pure low⟩
    let host : Settings.Host := ⟨fun name => if name = "ENGINE_DEVICE" then some "foo" else none, fun _ => .nothing, 900⟩
    C.Delivers ∧ (∃ t, C.checkAll.runFrom () = (.ok (noFailures 1), t)) ∧
    ∃ stdout, CommandLine.run host .processor ["--size", "0", "--width=1", "--trials", "1", "--dev", "cpu"] =
      .ok ⟨0, stdout⟩ := by
  intro C host
  have delivers : C.Delivers := {
    tensors := .dense
    gates := Universe.lawful_boolean false
    relation := .pure rfl
    integer := .pure trivial }
  let plan : Plan := ⟨0, 1, 1, .finite false 3 (-1), 42, .text "cpu"⟩
  have accepted : plan.Accepted host .processor :=
    ⟨by decide, by decide, by decide, ⟨.text "cpu", [], rfl, rfl⟩, ⟨_, rfl⟩⟩
  refine ⟨delivers, ?_, ?_⟩
  · exact (checkAll_noFailures.1 C delivers () false).1
  · exact (checkAll_noFailures.2 host .processor).2 _ ⟨plan, false, []⟩ rfl accepted rfl

end Laws

end BoolCalculus
