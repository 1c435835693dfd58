import BoolCalculus.Operand.Gathering

/-!
# Equality of operands

Operands are compared by their content. What meets a tensor is gathered into an array, the axes of both are
brought to common axes, and the cells are compared one by one in row-major order: so the outcome is not one
truth value but an array of them (`Verdict`). It counts as a truth value only if there is exactly one cell.
Inside of words and records, where one truth value is needed, a comparison can therefore be refused
(`Fault.severalTruths`, `Fault.noTruths`), unless both sides are one object.
-/

namespace BoolCalculus

namespace Axes

/-- The axes that two lists of axes have in common, the last axis first: axes of one size agree, and an axis
of size one agrees with every other. -/
def commonReversed : List Nat → List Nat → Option (List Nat)
  | [], ms => some ms
  | ns, [] => some ns
  | n :: ns, m :: ms =>
    if n = m ∨ m = 1 then (n :: ·) <$> commonReversed ns ms
    else if n = 1 then (m :: ·) <$> commonReversed ns ms
    else none

/-- The axes on which arrays of two lists of axes can be compared. -/
def common? (ns ms : List Nat) : Option (List Nat) :=
  List.reverse <$> commonReversed ns.reverse ms.reverse

/-- The flat position, in an array of the given axes, of the cell that stands at a coordinate of common axes. -/
def spread (ns c : List Nat) : Nat :=
  flat ns (ns.zipWith (fun n i => if n = 1 then 0 else i) (c.drop (c.length - ns.length)))

end Axes

/-- What a comparison gives. -/
inductive Verdict where
  | truth (b : Bool)
  /-- Truth values cell by cell. -/
  | cells (T : Tensor Bool)
  deriving Repr

namespace Verdict

/-- The truth value that truth values of cells count as, of which there has to be just one. -/
def onlyTruth (T : Tensor Bool) : Except Fault Bool :=
  match T.toList with
  | [] => .error .noTruths
  | [b] => .ok b
  | _ => .error .severalTruths

/-- The truth value that a verdict counts as. -/
def isTrue : Verdict → Except Fault Bool
  | truth b => .ok b
  | cells T => onlyTruth T

end Verdict

namespace Gathered

variable {β γ δ : Type}

/-- Combines the cells of two arrays on their common axes, in row-major order. -/
def combine (f : β → γ → Except Fault δ) (a : Gathered β) (b : Gathered γ) : Except Fault (Tensor δ) :=
  match Axes.common? a.axes b.axes with
  | some axes =>
    let left := a.cells.toArray
    let right := b.cells.toArray
    let cell (c : List Nat) : Except Fault δ :=
      match left[Axes.spread a.axes c]?, right[Axes.spread b.axes c]? with
      | some x, some y => f x y
      | _, _ => .error .noItem
    ((Tensor.build axes fun c _ => .ofExcept (cell c) : Build Unit (Tensor δ)).runFrom ()).1
  | none => .error (.notBroadcast a.axes b.axes)

end Gathered

namespace Operand

variable {γ : Type} [Shown γ]

/-- Compares an array of plain cells with a value. -/
def compareValue (a : Gathered Value) (v : Value) : Except Fault Verdict := do
  let b ← v.gather
  .cells <$> a.combine (fun x y => .ok (x.same y)) b

/-- The cells of a tensor as an array of plain cells. -/
def plainCells (T : Tensor γ) : Gathered Value :=
  ⟨T.axes, T.toList.map Shown.value⟩

/-- The number with which dense cells are compared: amounts are rounded to thirty-two bits. -/
def denseMagnitude? : Value → Option Magnitude
  | .real a => some (Amount.binary32.nearestTo a.magnitude)
  | v => v.magnitude?

/-- Compares every cell of a dense tensor with a number. Nothing else equals a dense tensor. -/
def compareDenseValue (T : Tensor γ) (v : Value) : Verdict :=
  match denseMagnitude? v with
  | some m => .cells (T.map fun a => (Shown.value a).magnitude?.elim false m.same)
  | none => .truth false

/-- Compares a tensor with a plain value. -/
def compareTensorValue (dense : Bool) (T : Tensor γ) (v : Value) : Except Fault Verdict :=
  if dense then .ok (compareDenseValue T v) else compareValue (plainCells T) v

/-- Whether a plain value equals an operand that is no record. -/
def sameValue (dense : Bool) (v : Value) : Operand γ → Except Fault Bool
  | plain w => .ok (v.same w)
  | tensor T _ => compareTensorValue dense T v >>= Verdict.isTrue
  | truths T _ => compareValue (plainCells T) v >>= Verdict.isTrue
  | _ => .ok false

/-- Each field of a plain record is found, with an equal value, in another record. -/
def samePlainFields (dense : Bool) (gs : List (Text × Operand γ)) : List (Text × Value) → Except Fault Bool
  | [] => .ok true
  | (name, v) :: fs =>
    match gs.lookup name with
    | some b => do if ← sameValue dense v b then samePlainFields dense gs fs else pure false
    | none => .ok false

/-- Each field of a record is found, with an equal value, in a plain one. -/
def sameFieldsPlain (dense : Bool) (gs : List (Text × Value)) : List (Text × Operand γ) → Except Fault Bool
  | [] => .ok true
  | (name, a) :: fs =>
    match gs.lookup name with
    | some v => do if ← sameValue dense v a then sameFieldsPlain dense gs fs else pure false
    | none => .ok false

/-- Whether a plain value equals an operand, such as a cell of an array. -/
def sameCell (dense : Bool) (v : Value) : Operand γ → Except Fault Bool
  | record gs =>
    match v with
    | .record fs => if fs.length = gs.length then samePlainFields dense gs fs else .ok false
    | _ => .ok false
  | b => sameValue dense v b

/-- Compares an array with an operand that is gathered into one. -/
def compareArray (a : Gathered Value) (b : Operand γ) : Except Fault Verdict := do
  .cells <$> a.combine (sameCell false) (← b.gather)

/-- Compares a tensor with an operand. A dense tensor is compared with a tensor cell by cell, and with a number
every cell. -/
def compareTensor (dense : Bool) (T : Tensor γ) (b : Operand γ) : Except Fault Verdict :=
  if dense then
    match b with
    | tensor U _ => .cells <$> (plainCells T).combine (fun x y => .ok (x.same y)) (plainCells U)
    | plain v => .ok (compareDenseValue T v)
    | _ => .ok (.truth false)
  else compareArray (plainCells T) b

mutual

/-- Compares two operands; `dense` says whether their tensors are dense. -/
def compare (dense : Bool) : Operand γ → Operand γ → Except Fault Verdict
  | tensor T _, b => compareTensor dense T b
  | truths T _, b => compareArray (plainCells T) b
  | a, tensor T _ => compareTensor dense T a
  | a, truths T _ => compareArray (plainCells T) a
  | plain v, plain w => .ok (.truth (v.same w))
  | shape s, shape t => .ok (.truth (s = t))
  | word v, word w => if v.length = w.length then .truth <$> sameAll dense v w else .ok (.truth false)
  | record fs, record gs =>
    if fs.length = gs.length then .truth <$> sameRecords dense fs gs else .ok (.truth false)
  | plain v, b => .truth <$> sameCell dense v b
  | record fs, plain (.record gs) =>
    if fs.length = gs.length then .truth <$> sameFieldsPlain dense gs fs else .ok (.truth false)
  | _, _ => .ok (.truth false)

/-- Item by item equality of operands, up to the first ones that differ. -/
def sameAll (dense : Bool) : List (Operand γ) → List (Operand γ) → Except Fault Bool
  | a :: as, b :: bs => do
    let equal ← if a.isObject b then pure true else (compare dense a b) >>= Verdict.isTrue
    if equal then sameAll dense as bs else pure false
  | _, _ => .ok true

/-- Each field of the first record is found, with an equal operand, in the second. -/
def sameRecords (dense : Bool) : List (Text × Operand γ) → List (Text × Operand γ) → Except Fault Bool
  | [], _ => .ok true
  | (name, a) :: fs, gs =>
    match gs.lookup name with
    | some b => do
      let equal ← if a.isObject b then pure true else (compare dense a b) >>= Verdict.isTrue
      if equal then sameRecords dense fs gs else pure false
    | none => .ok false

end

/-- A verdict as an operand, with cells that `read` finds among plain values where tensors are dense. -/
def ofVerdict (dense : Bool) (read : Value → Option γ) : Verdict → Operand γ
  | .truth b => plain (.truth b)
  | .cells T =>
    if dense then (tensor? read (truths T none)).elim (truths T none) (tensor · none) else truths T none

/-- Whether an operand counts as true. A tensor counts as its cell, if it has just one. -/
def isTrue : Operand γ → Except Fault Bool
  | plain v => .ok v.isTrue
  | shape s => .ok !s.sizes.isEmpty
  | tensor T _ => Verdict.onlyTruth (T.map Shown.isTrue)
  | truths T _ => Verdict.onlyTruth T
  | word w => .ok !w.isEmpty
  | record fields => .ok !fields.isEmpty

/-- The truth values of the elements of an operand, in their order. -/
def truthValues (dense : Bool) (a : Operand γ) : Except Fault (List Bool) :=
  match a.elements dense with
  | .ok w => w.mapM isTrue
  | .error what => .error (.misuse (.noElements what))

end Operand

end BoolCalculus
