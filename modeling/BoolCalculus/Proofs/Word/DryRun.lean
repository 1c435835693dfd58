import BoolCalculus.Proofs.Word.Checker

/-!
# Dry runs

A dry run that meets a mismatch of lengths has met it on the lengths, before a gate was called, and so the state is as
it was (`Word.dryRun_mismatch`). This needs that no word of a negative width is asked for: the length checker takes
such a width for a length, although the word is empty (`Word.dryRun_negativeWidth`).
-/

namespace BoolCalculus.Word

open Build

variable {σ τ α : Type} {E : Fault → Prop} {A : GateSet σ α}

/-- No program changes the state when it runs on lengths. -/
theorem checks_run (p : Program) (ns : List Int) :
    (p.run (lengthOps : WordOps σ Int) ns).Checks fun _ => True := by
  have any : ∀ {β : Type} (r : Except Fault β),
      (Build.ofExcept r : Build σ β).Checks fun _ => True := fun _ => .ofExcept fun _ _ => trivial
  refine Checks.bind ?_ fun _ => any _
  induction p generalizing ns with
  | nil => exact .pure ns
  | cons i p ih =>
      rw [Program.registers_cons]
      exact (checks_execute (fun _ _ => trivial) fun _ _ => any _).bind fun n => ih (ns ++ [n])

/-- A program over words follows its dry run on their sizes, fault by fault. -/
theorem follows_run (gates : A.FailsWithin E) {regs : List (Content α)} {ns : List Int}
    (sizes : List.Forall₂ (Sized E) regs ns) {p : Program} (admitted : ∀ i ∈ p, i.Admitted E) :
    (p.run (ops A) regs).Follows E (Sized E) (p.run (lengthOps : WordOps τ Int) ns) :=
  (follows_registers gates sizes admitted).bind fun _ _ sizes => follows_fetch sizes (-1)

theorem measure_words (words : List (Word α)) :
    (words.map .word).mapM Content.length = (pure (lengths words) : Build σ (List Int)) := by
  induction words with
  | nil => rfl
  | cons w words ih =>
      rw [List.map_cons, List.mapM_cons, ih]
      rfl

/-- A dry run of a program: the operands are measured, and the program runs on their lengths and then on them. -/
theorem dryRun_words (p : Program) (words : List (Word α)) :
    dryRun lengthOps Content.length p.construction (ops A) (words.map .word) =
      (p.run lengthOps (lengths words) >>= fun _ => p.run (ops A) (words.map .word)) := by
  rw [dryRun, measure_words, pure_bind]
  rfl

/-- An instruction asks for no word of a negative width. -/
def Instruction.hasWidth {ρ : Type} : Instruction ρ → Bool
  | numLift width _ => 0 ≤ width
  | _ => true

/-- A fault other than a mismatch of lengths. -/
def IsOther (f : Fault) : Prop :=
  ∀ v w, f ≠ .lengthMismatch v w

theorem Instruction.admitted_of_hasWidth {i : Instruction Int} (width : i.hasWidth) :
    i.Admitted IsOther := by
  cases i with
  | length r => exact fun v w => nofun
  | numLift width' value =>
      have nonneg : 0 ≤ width' := of_decide_eq_true width
      exact nonneg
  | _ => trivial

/-- Where no negative width is asked for and no gate fails with a mismatch itself, a dry run that fails with a
mismatch of lengths leaves the state as it was, and the program fails with that mismatch on the lengths alone. -/
theorem dryRun_mismatch (gates : A.FailsWithin IsOther) {p : Program}
    (widths : ∀ i ∈ p, i.hasWidth) {words : List (Word α)} {s t : σ} {v w : Value}
    (run : (dryRun lengthOps Content.length p.construction (ops A) (words.map .word)).runFrom s =
      (.error (.lengthMismatch v w), t)) :
    t = s ∧ (p.run lengthOps (lengths words)).runFrom s = (.error (.lengthMismatch v w), s) := by
  rw [dryRun_words] at run
  obtain ⟨same, _⟩ := checks_run p (lengths words) s
  rcases checked : (p.run lengthOps (lengths words)).runFrom s with ⟨f | n, u⟩
  all_goals
    rw [checked] at same
    obtain rfl : u = s := same
  · rw [runFrom_bind_error checked] at run
    obtain rfl : u = t := congrArg Prod.snd run
    obtain rfl := Except.error.inj (congrArg Prod.fst run)
    exact ⟨rfl, rfl⟩
  · -- The lengths pass, so that the words can fail with nothing but other faults.
    rw [runFrom_bind_ok checked] at run
    have follows := follows_run (τ := σ) gates (sized_lengths _ words) fun i member =>
      Instruction.admitted_of_hasWidth (widths i member)
    have outcome := follows u u
    rw [run, checked] at outcome
    cases outcome with
    | tolerated other => exact (other v w rfl).elim

/-- A difference of words of four and of five handles of a circuit. -/
theorem dryRun_mismatch_circuit :
    let program : Program := [.numNeg 0, .num .sub 2 1]
    let circuit : Circuit Nat := .replicate 9 .input
    let words := [[0, 1, 2, 3], [4, 5, 6, 7, 8]]
    ((dryRun lengthOps Content.length program.construction (ops (Circuit.gates id))
      (words.map .word)).runFrom circuit).2 = circuit ∧
    (program.run lengthOps (lengths words)).runFrom circuit =
      (.error (.lengthMismatch (.int 4) (.int 5)), circuit) :=
  dryRun_mismatch (Circuit.total_gates id).failsWithin (by decide) rfl

/-- For a negative width the lengths of a dry run pass a comparison that fails on the words, after a gate was
called. -/
theorem dryRun_negativeWidth :
    let program : Program := [.numLift (-1) 0, .concat [0, 1], .numLift 1 0, .bits .or 2 3]
    let circuit : Circuit Nat := #[.input, .input]
    ∃ later, later ≠ circuit ∧
      (dryRun lengthOps Content.length program.construction (ops (Circuit.gates id))
        [.word [0, 1]]).runFrom circuit = (.error (.lengthMismatch (.int 2) (.int 1)), later) :=
  ⟨#[.input, .input, .const false], by decide, rfl⟩

end BoolCalculus.Word
