import BoolCalculus.Word.Ops

/-!
# Straight-line programs on words

A program is a list of instructions. It works on registers, which start with the operands; every
instruction appends its result, a word or a number, and the last register is the result of the program.
Negative register numbers count from the last register. `dryRun` runs a construction on the lengths of
its operands before it runs it on the operands themselves.
-/

namespace BoolCalculus.Word

/-- One instruction, with operands of type `ρ`: register numbers, or the operands themselves. -/
inductive Instruction (ρ : Type) where
  | length (r : ρ)
  | bitLift (bits : List Bool)
  | bitNot (r : ρ)
  | bits (op : BitOp) (r s : ρ)
  | concat (rs : List ρ)
  | numLift (width value : Int)
  | numNeg (r : ρ)
  | num (op : NumOp) (r s : ρ)
  deriving DecidableEq, Repr

variable {σ ω : Type}

namespace Instruction

variable {ρ τ : Type}

/-- Runs an instruction on its operands. -/
def run (V : WordOps σ ω) : Instruction ω → Build σ ω
  | length v => V.length v
  | bitLift values => V.bitLift values
  | bitNot v => V.bitNot v
  | bits op v w => V.bits op v w
  | concat vs => V.concat vs
  | numLift width value => V.numLift width value
  | numNeg v => V.numNeg v
  | num op v w => V.num op v w

/-- Looks the operands of an instruction up, from left to right. -/
def resolve {m : Type → Type} [Monad m] (get : ρ → m τ) : Instruction ρ → m (Instruction τ)
  | length r => do pure (length (← get r))
  | bitLift values => pure (bitLift values)
  | bitNot r => do pure (bitNot (← get r))
  | bits op r s => do pure (bits op (← get r) (← get s))
  | concat rs => do pure (concat (← rs.mapM get))
  | numLift width value => pure (numLift width value)
  | numNeg r => do pure (numNeg (← get r))
  | num op r s => do pure (num op (← get r) (← get s))

end Instruction

/-- The instructions of a program; their operands are register numbers. -/
abbrev Program : Type := List (Instruction Int)

/-- Runs a program from the given registers and answers all registers at its end. -/
def Program.registers (V : WordOps σ ω) : Program → List ω → Build σ (List ω)
  | [], regs => pure regs
  | i :: rest, regs => do
    let operands ← i.resolve fun r => .ofExcept (itemAt regs .noItem r)
    let result ← operands.run V
    Program.registers V rest (regs ++ [result])

/-- Runs a program on operands and answers its result. -/
def Program.run (p : Program) (V : WordOps σ ω) (operands : List ω) : Build σ ω := do
  .ofExcept (itemAt (← p.registers V operands) .noItem (-1))

/-- A construction that works with any word operations. -/
abbrev Construction : Type 1 :=
  (τ ω : Type) → WordOps τ ω → List ω → Build τ ω

/-- The construction of a program. -/
def Program.construction (p : Program) : Construction :=
  fun _ _ V operands => p.run V operands

/-- Runs a construction on the lengths of the operands, which `measure` gives, and then on the operands. A
mismatch of lengths shows before anything is built. -/
def dryRun {τ : Type} (checker : WordOps σ τ) (measure : ω → Build σ τ) (build : Construction)
    (V : WordOps σ ω) (operands : List ω) : Build σ ω := do
  let lengths ← operands.mapM measure
  let _ ← build σ τ checker lengths
  build σ ω V operands

end BoolCalculus.Word
