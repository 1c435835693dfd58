import BoolCalculus.Proofs.Word.Lengths

/-!
# The length checker simulates word arithmetic

A program of word operations whose operands name registers either succeeds both on lengths and on words, and then its
registers are the lengths of the words, or it fails in both at the same instruction with the same mismatch of lengths
(`Word.checker_simulates`).
-/

namespace BoolCalculus.Word

open Build

variable {σ τ α ω : Type}

/-! ## Where a program fails -/

/-- The instruction number `k` of a program fails with that fault, after all before it succeeded, and with it the
program. -/
structure Program.FailsAt (p : Program) (V : WordOps σ ω) (regs : List ω) (s : σ) (k : Nat)
    (f : Fault) : Prop where
  inside : k < p.length
  before : ∃ results, ((Program.registers V (p.take k) regs).runFrom s).1 = .ok results
  here : ((Program.registers V (p.take (k + 1)) regs).runFrom s).1 = .error f
  whole : ((Program.registers V p regs).runFrom s).1 = .error f

/-- A program succeeds, or one of its instructions fails. -/
theorem Program.succeeds_or_failsAt (p : Program) (V : WordOps σ ω) (regs : List ω) (s : σ) :
    (∃ results, ((p.registers V regs).runFrom s).1 = .ok results) ∨
      ∃ k f, p.FailsAt V regs s k f := by
  induction p generalizing regs s with
  | nil => exact .inl ⟨regs, rfl⟩
  | cons i p ih =>
      rcases run : (i.execute V regs).runFrom s with ⟨f | result, t⟩
      · have fails : ∀ q : Program, ((Program.registers V (i :: q) regs).runFrom s).1 = .error f := by
          intro q
          rw [Program.registers_cons, runFrom_bind_error run]
        exact .inr ⟨0, f, Nat.succ_pos _, ⟨regs, rfl⟩, fails [], fails p⟩
      · -- With or without the instructions after it, the first one leaves the same registers and state.
        have goesOn : ∀ q : Program, (Program.registers V (i :: q) regs).runFrom s =
            (q.registers V (regs ++ [result])).runFrom t := by
          intro q
          rw [Program.registers_cons, runFrom_bind_ok run]
        rcases ih (regs ++ [result]) t with ⟨results, ok⟩ | ⟨k, f, fails⟩
        · rw [← goesOn] at ok
          exact .inl ⟨results, ok⟩
        · obtain ⟨inside, before, here, whole⟩ := fails
          rw [← goesOn] at here whole
          simp only [← goesOn] at before
          exact .inr ⟨k + 1, f, Nat.succ_lt_succ inside, before, here, whole⟩

/-- A run that follows another one, also with a part of the program only, fails where that fails. -/
theorem Program.FailsAt.of_follows {p : Program} {V : WordOps σ ω} {regs : List ω} {ω' : Type}
    {V' : WordOps τ ω'} {regs' : List ω'} {s : σ} {t : τ} {k : Nat} {f : Fault}
    {Rel : List ω → List ω' → Prop}
    (follows : ∀ q : Program, q ⊆ p →
      (q.registers V regs).Follows (fun _ => False) Rel (q.registers V' regs'))
    (fails : p.FailsAt V' regs' t k f) : p.FailsAt V regs s k f := by
  obtain ⟨inside, ⟨results, before⟩, here, whole⟩ := fails
  obtain ⟨_, succeeds, _⟩ := (follows _ (List.take_subset k p)).succeeds s before
  have here := (follows _ (List.take_subset (k + 1) p)).fails s here
  have whole := (follows p (List.Subset.refl p)).fails s whole
  exact ⟨inside, ⟨_, succeeds⟩, here, whole⟩

/-! ## Registers in scope -/

/-- The registers that an instruction names. -/
def Instruction.operands {ρ : Type} : Instruction ρ → List ρ
  | length r => [r]
  | bitLift _ => []
  | bitNot r => [r]
  | bits _ r r' => [r, r']
  | concat rs => rs
  | numLift _ _ => []
  | numNeg r => [r]
  | num _ r r' => [r, r']

/-- An index names one of `n` registers. -/
def named (n : Nat) (r : Int) : Bool :=
  fitsWord r && (position? n r).isSome

/-- From `n` registers on, every operand of a program names a register that is there. -/
def Program.inScope : Program → Nat → Bool
  | [], _ => true
  | i :: p, n => i.operands.all (named n) && Program.inScope p (n + 1)

/-- A mismatch of two lengths. -/
def IsMismatch (f : Fault) : Prop :=
  ∃ m n : Int, m ≠ n ∧ f = .lengthMismatch (.int m) (.int n)

/-- A register that is there is fetched without a call. -/
theorem checks_fetch {E : Fault → Prop} {regs : List ω} {r : Int} (here : named regs.length r) :
    (fetch regs r : Build σ ω).Checks E := by
  rw [named, Bool.and_eq_true] at here
  obtain ⟨k, position⟩ := Option.isSome_iff_exists.1 here.2
  have inside := position?_lt position
  rw [fetch, itemAt, if_pos here.1, atIndex?, position, Option.bind_some, List.getElem?_eq_getElem inside]
  exact .pure _

/-! ## The checker -/

section

variable {E : Fault → Prop} (mismatch : ∀ f, IsMismatch f → E f)

include mismatch

theorem checks_sameLength (m n : Int) : (sameLength m n : Build σ Int).Checks E := by
  rw [sameLength, requireLengths]
  refine Checks.bind ?_ fun _ => .pure m
  by_cases same : m = n
  · rw [if_pos same]
    exact .pure ()
  · rw [if_neg same]
    refine fun s => ⟨rfl, fun f failed => ?_⟩
    exact mismatch f ⟨m, n, same, (Except.error.inj failed).symm⟩

/-- Beyond a mismatch, an instruction fails on lengths only where one of its operands is no register. -/
theorem checks_execute {ns : List Int} {i : Instruction Int}
    (fetched : ∀ r ∈ i.operands, (fetch ns r : Build σ Int).Checks E) :
    (i.execute (lengthOps : WordOps σ Int) ns).Checks E := by
  rw [Instruction.execute_eq]
  cases i with
  | length r => exact (fetched r (.head _)).bind fun n => .pure n
  | bitLift bits => exact .pure _
  | bitNot r => exact (fetched r (.head _)).bind fun n => .pure n
  | bits op r r' =>
      refine (fetched r (.head _)).bind fun m => ?_
      refine (fetched r' (.tail _ (.head _))).bind fun n => ?_
      exact checks_sameLength mismatch m n
  | concat rs => exact (Checks.mapM fetched).bind fun _ => .pure _
  | numLift width value => exact .pure width
  | numNeg r => exact (fetched r (.head _)).bind fun n => .pure n
  | num op r r' =>
      refine (fetched r (.head _)).bind fun m => ?_
      refine (fetched r' (.tail _ (.head _))).bind fun n => ?_
      exact checks_sameLength mismatch m n

end

/-- Programs whose operands name registers fail on lengths only with a mismatch. -/
theorem checks_registers {p : Program} {ns : List Int} (inScope : p.inScope ns.length) :
    (p.registers (lengthOps : WordOps σ Int) ns).Checks IsMismatch := by
  induction p generalizing ns with
  | nil => exact .pure ns
  | cons i p ih =>
      rw [Program.inScope, Bool.and_eq_true] at inScope
      rw [Program.registers_cons]
      refine (checks_execute (fun _ => id) fun r member => ?_).bind fun n => ih ?_
      · exact checks_fetch (List.all_eq_true.1 inScope.1 r member)
      · rw [List.length_append]
        exact inScope.2

/-! ## Simulation -/

/-- An instruction makes a word, and none of a negative width. -/
def Instruction.makesWord {ρ : Type} : Instruction ρ → Bool
  | length _ => false
  | numLift width _ => 0 ≤ width
  | _ => true

/-- An instruction that makes a word is admitted under all faults. -/
theorem Instruction.admitted_of_makesWord {E : Fault → Prop} {i : Instruction Int}
    (word : i.makesWord) : i.Admitted E := by
  cases i with
  | length r => cases word
  | numLift width value =>
      have nonneg : 0 ≤ width := of_decide_eq_true word
      exact nonneg
  | _ => trivial

/-- The lengths of words. -/
def lengths (words : List (Word α)) : List Int :=
  words.map fun w => (w.length : Int)

/-- Words are as large as the lengths that the checker computes with. -/
theorem sized_lengths (E : Fault → Prop) (words : List (Word α)) :
    List.Forall₂ (Sized E) (words.map .word) (lengths words) := by
  rw [lengths, List.forall₂_map_left_iff, List.forall₂_map_right_iff]
  exact List.forall₂_same.2 fun _ _ => .word rfl

/-- Where no fault is tolerated, operands with sizes are words, and the sizes are their lengths. -/
theorem exists_words {vs : List (Content α)} {ns : List Int}
    (sizes : List.Forall₂ (Sized fun _ => False) vs ns) :
    ∃ words : List (Word α), vs = words.map .word ∧ ns = lengths words := by
  induction sizes with
  | nil => exact ⟨[], rfl, rfl⟩
  | cons size _ ih =>
      obtain ⟨words, rfl, rfl⟩ := ih
      cases size with
      | word length => exact ⟨_ :: words, rfl, congrArg (· :: lengths words) length.symm⟩
      | number _ tolerated => exact tolerated.elim

/-- Over gates that never fail, a program of word operations whose operands name registers succeeds both on words and on
their lengths, with the lengths of the words for its registers, or it fails in both at the same instruction
with the same mismatch of lengths. -/
theorem checker_simulates {A : GateSet σ α} (total : A.Total) {p : Program}
    (makesWords : ∀ i ∈ p, i.makesWord) {words : List (Word α)} (inScope : p.inScope words.length)
    (s : σ) (t : τ) :
    (∃ results : List (Word α),
      ((p.registers (ops A) (words.map .word)).runFrom s).1 = .ok (results.map .word) ∧
      ((p.registers lengthOps (lengths words)).runFrom t).1 = .ok (lengths results)) ∨
    ∃ k m n, m ≠ n ∧
      p.FailsAt (ops A) (words.map .word) s k (.lengthMismatch (.int m) (.int n)) ∧
      p.FailsAt lengthOps (lengths words) t k (.lengthMismatch (.int m) (.int n)) := by
  have follows : ∀ q : Program, q ⊆ p → (q.registers (ops A) (words.map .word)).Follows
      (fun _ => False) (List.Forall₂ (Sized fun _ => False))
      (q.registers (lengthOps : WordOps τ Int) (lengths words)) := fun q part =>
    follows_registers total (sized_lengths _ words) fun i member =>
      Instruction.admitted_of_makesWord (makesWords i (part member))
  rcases p.succeeds_or_failsAt lengthOps (lengths words) t with ⟨ns, ok⟩ | ⟨k, f, fails⟩
  · obtain ⟨vs, run, sizes⟩ := (follows p (List.Subset.refl p)).succeeds s ok
    obtain ⟨results, rfl, rfl⟩ := exists_words sizes
    exact .inl ⟨results, run, ok⟩
  · have checked : p.inScope (lengths words).length := by
      rwa [lengths, List.length_map]
    obtain ⟨m, n, differ, rfl⟩ := (checks_registers checked t).2 f fails.whole
    exact .inr ⟨k, m, n, differ, .of_follows follows fails, fails⟩

/-- A sum of words of three handles of a circuit, and a difference of words of three and of two. -/
theorem checker_simulates_circuit :
    let program : Program := [.numLift 1 1, .concat [1, 2], .num .add 0 3, .num .sub 0 1]
    let words : List (Word Nat) := [[0, 1, 2], [3, 4]]
    (∃ results : List (Word Nat),
      ((program.registers (ops (Circuit.gates id)) (words.map .word)).runFrom #[]).1 =
        .ok (results.map .word) ∧
      ((program.registers lengthOps (lengths words)).runFrom ()).1 = .ok (lengths results)) ∨
    ∃ k m n, m ≠ n ∧
      program.FailsAt (ops (Circuit.gates id)) (words.map .word) #[] k
        (.lengthMismatch (.int m) (.int n)) ∧
      program.FailsAt lengthOps (lengths words) () k (.lengthMismatch (.int m) (.int n)) :=
  checker_simulates (Circuit.total_gates id) (by decide) rfl #[] ()

end BoolCalculus.Word
