import BoolCalculus.Domain.TwoElement
import BoolCalculus.Laws
import BoolCalculus.Laws.Draws
import BoolCalculus.Settings
import BoolCalculus.Tensor.Dense

/-!
# Plans of law checks

A plan says how large the relations and words of a law check are, how often each law is tried, from what seed
the operands are drawn and on what device. Its checker uses dense relations on that device and words of truth
values; what is not asked for is looked up in the settings of a host.
-/

namespace BoolCalculus.Laws

-- Powers of numbers are not taken in a monoid.
attribute [local instance (high)] instPowNat

/-- Sizes, number of trials, source and device of a law check. -/
structure Plan where
  size : Int
  width : Int
  trials : Int
  density : Amount
  seed : Int
  /-- The device of the relations; null leaves it to the settings. -/
  device : Value

namespace Plan

/-- The plan where nothing is asked for. -/
def default : Plan where
  size := 4
  width := 8
  trials := 20
  density := .finite false 3 (-1)
  seed := 42
  device := .null

/-- The draws of a plan. -/
def draws (p : Plan) : Draws :=
  .generated p.seed p.density

end Plan

variable {σ α β : Type}

/-- Makes a relation of cells that are drawn in row-major order. -/
def drawRelation (U : Universe σ α) (cells : Nat → Build σ (List Bool)) : Build σ (Tensor α) := do
  let axes := [U.size, U.size]
  let drawn ← cells (Axes.volume axes)
  let row := drawn.toArray
  U.tensors.create (U.newShape 2) fun c => row[Axes.flat axes c]?.getD false

/-- Whether a generator takes a seed: an integer of sixty-four bits, with or without a sign. -/
def takesSeed (seed : Int) : Bool :=
  -2 ^ (63 : Nat) ≤ seed && seed < 2 ^ (64 : Nat)

/-- The checker of a plan over given tensor operations and gates, with operands drawn in a part of the
state. The width is checked first; then the operations are made ready, the size is checked, and the gates are made
ready; the seed is checked last. -/
def Plan.checkerOver (p : Plan) (tensors : Except Fault (TensorOps σ α)) (gates : Except Fault (GateSet σ β))
    (read : σ → Draws) (write : Draws → σ → σ) : Except Fault (Checker σ α β) := do
  if p.width < 1 then throw (.emptyWidth p.width)
  let U ← Universe.ofSize (← tensors) p.size
  let A ← gates
  if !takesSeed p.seed then throw .wideNumber
  pure {
    space := U
    gates := A
    width := p.width.toNat
    trials := p.trials
    relation := drawRelation U fun count => .onPart read write (Draws.cells count)
    integer := fun low high => .onPart read write (Draws.integer low high) }

/-- A library of dense tensors: its devices, and what the operations on tensors of a device are. -/
structure Library (σ : Type) extends Settings.Devices where
  tensors : Value → TensorOps σ Bool

/-- The library on a machine with no device but the processor. -/
def Library.processor {σ : Type} : Library σ where
  standard := .text "cpu"
  named
    | .text name => if name = "cpu" then .ok (.text name) else .error (.unknownDevice name)
    | v => .error (.misuse (.noDevice v))
  tensors _ := .dense

/-- The operations on dense tensors of the device that is asked for or set. -/
def Library.onDevice {σ : Type} (library : Library σ) (host : Settings.Host) (asked : Value) :
    Except Fault (TensorOps σ Bool) := do
  let (device, _) ← library.choose host asked
  pure (library.tensors device)

/-- The gates of truth values, whose operands are checked if that is set. -/
def booleanGates {σ : Type} (host : Settings.Host) : Except Fault (GateSet σ Bool) := do
  let (check, _) ← host.checkMembership .null
  pure (.boolean check.isTrue)

/-- The checker of a plan over dense relations and words of truth values. -/
def Plan.checker (p : Plan) (host : Settings.Host) (library : Library Draws) : Except Fault (Checker Draws Bool Bool) :=
  p.checkerOver (library.onDevice host p.device) (booleanGates host) id fun d _ => d

/-- Checks all laws by a plan. -/
def Plan.check (p : Plan) (host : Settings.Host) (library : Library Draws) : Except Fault (List Result) := do
  let C ← p.checker host library
  (C.checkAll.runFrom p.draws).1

end BoolCalculus.Laws
