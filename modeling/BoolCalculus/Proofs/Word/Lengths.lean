import BoolCalculus.Proofs.Outcome
import BoolCalculus.Word.Arithmetic
import BoolCalculus.Word.Length
import BoolCalculus.Word.Program

/-!
# Lengths of results

Every word operation over a gate set gives a word of the length that the length checker computes, and refuses the words
that the checker refuses (`Word.follows_execute`, `Word.follows_registers`). Faults of gates are tolerated, and where they
are, numbers may be operands as well.
-/

namespace BoolCalculus

/-- The gate that a bitwise operation calls. -/
def BitOp.toBinary : BitOp → GateSet.Binary
  | .or => .or
  | .and => .and
  | .add => .add
  | .equ => .equ
  | .leq => .leq

namespace Word

open Build

variable {σ τ α : Type} {E : Fault → Prop} {A : GateSet σ α}

theorem gate_eq (A : GateSet σ α) (op : BitOp) : gate A op = A.binary op.toBinary := by
  cases op <;> rfl

/-! ## Words -/

theorem makes_cons {act : Build σ (Word α)} {n : Nat} (made : act.Makes E fun u => u.length = n)
    (a : α) : (act >>= fun u => pure (a :: u)).Makes E fun u => u.length = n + 1 := by
  refine made.bind fun u length => ?_
  apply Makes.pure
  rw [List.length_cons, length]

section

variable (gates : A.FailsWithin E)

include gates

theorem makes_gate (op : BitOp) (a b : α) : (gate A op a b).Makes E fun _ => True := by
  rw [gate_eq]
  exact gates.binary op.toBinary a b

theorem makes_lift (bits : List Bool) : (lift A bits).Makes E fun w => w.length = bits.length :=
  .mapM gates.lift

theorem makes_bitNot (w : Word α) : (bitNot A w).Makes E fun v => v.length = w.length :=
  .mapM gates.not

theorem makes_zipGates (op : BitOp) {v w : Word α} (same : v.length = w.length) :
    (zipGates (gate A op) v w).Makes E fun u => u.length = v.length := by
  induction v generalizing w with
  | nil => exact .pure rfl
  | cons a v ih =>
      cases w with
      | nil => simp at same
      | cons b w =>
          refine (makes_gate gates op a b).bind fun _ _ => ?_
          exact makes_cons (ih (Nat.succ.inj same)) _

theorem makes_rippleAdd {v w : Word α} (same : v.length = w.length) (carry : α) :
    (rippleAdd A v w carry).Makes E fun u => u.length = v.length := by
  induction v generalizing w carry with
  | nil => exact .pure rfl
  | cons a v ih =>
      cases w with
      | nil => simp at same
      | cons b w =>
          refine (gates.ternary .ad3 a b carry).bind fun _ _ => ?_
          refine (gates.ternary .maj a b carry).bind fun next _ => ?_
          exact makes_cons (ih (Nat.succ.inj same) next) _

theorem makes_rippleSub {v w : Word α} (same : v.length = w.length) (carry : α) :
    (rippleSub A v w carry).Makes E fun u => u.length = v.length := by
  induction v generalizing w carry with
  | nil => exact .pure rfl
  | cons a v ih =>
      cases w with
      | nil => simp at same
      | cons b w =>
          refine (gates.not b).bind fun notB _ => ?_
          refine (gates.ternary .ad3 a notB carry).bind fun _ _ => ?_
          refine (gates.ternary .maj a notB carry).bind fun next _ => ?_
          exact makes_cons (ih (Nat.succ.inj same) next) _

theorem makes_rippleNeg (w : Word α) (carry : α) :
    (rippleNeg A w carry).Makes E fun u => u.length = w.length := by
  induction w generalizing carry with
  | nil => exact .pure rfl
  | cons a w ih =>
      refine (gates.not a).bind fun notA _ => ?_
      refine (gates.binary .add notA carry).bind fun _ _ => ?_
      refine (gates.binary .and notA carry).bind fun next _ => ?_
      exact makes_cons (ih next) _

end

/-- A word has that many elements. -/
def HasLength (w : Word α) (n : Int) : Prop :=
  (w.length : Int) = n

theorem requireLengths_ok {v w : Word α} (same : v.length = w.length) :
    (requireLengths v.length w.length : Build σ Unit) = pure () := by
  rw [requireLengths, if_pos (by rw [same])]

/-- Lengths are compared in the same way before a run and in it. -/
theorem follows_requireLengths (m n : Int) :
    (requireLengths m n : Build σ Unit).Follows E (fun _ _ => m = n)
      (requireLengths m n : Build τ Unit) := by
  rw [requireLengths, requireLengths]
  by_cases same : m = n
  · rw [if_pos same, if_pos same]
    exact .pure same
  · rw [if_neg same, if_neg same]
    exact .throw _

/-- What compares two lengths and then makes a word of the first one follows the checker. -/
theorem follows_sameLength {v w : Word α} {act : Build σ (Word α)}
    (made : v.length = w.length → act.Makes E fun u => u.length = v.length) :
    (requireLengths v.length w.length >>= fun _ => act).Follows E HasLength
      (sameLength v.length w.length : Build τ Int) := by
  refine (follows_requireLengths _ _).bind fun _ _ same => ?_
  refine .ofMakes (made (Int.ofNat_inj.1 same)) fun u length => ?_
  exact congrArg Int.ofNat length

theorem follows_bitwise (gates : A.FailsWithin E) (op : BitOp) (v w : Word α) :
    (bitwise A op v w).Follows E HasLength (sameLength v.length w.length : Build τ Int) :=
  follows_sameLength (makes_zipGates gates op)

/-- Past the comparison of the lengths, arithmetic refuses nothing but what its gates refuse. -/
theorem follows_arithmetic (gates : A.FailsWithin E) (op : NumOp) (v w : Word α) :
    (arithmetic A op v w).Follows E HasLength (sameLength v.length w.length : Build τ Int) := by
  cases op with
  | add =>
      refine follows_sameLength fun same => ?_
      exact gates.zero.bind fun carry _ => makes_rippleAdd gates same carry
  | sub =>
      refine follows_sameLength fun same => ?_
      exact gates.unit.bind fun carry _ => makes_rippleSub gates same carry

/-! ## Operands -/

/-- The fault of a number whose length is asked for. -/
def numberFault : Fault :=
  .misuse (.noLength (.plain "int"))

/-- What the length checker takes for an operand: the length of a word, or a number where its fault is tolerated. -/
inductive Sized (E : Fault → Prop) : Content α → Int → Prop
  | word {w : Word α} {n : Int} (length : HasLength w n) : Sized E (.word w) n
  | number (n : Int) (tolerated : E numberFault) : Sized E (.number n) n

variable {u v : Content α} {m n : Int}

/-- A word that has the length of a number is an operand of that size. -/
theorem follows_word {act : Build σ (Word α)} {act' : Build τ Int}
    (made : act.Follows E HasLength act') : (Content.word <$> act).Follows E (Sized E) act' := by
  have mapped : (Content.word <$> act).Follows E (Sized E) (id <$> act') :=
    made.map fun _ _ => .word
  rwa [id_map] at mapped

/-- What has a size is a word of that size, or else no word at all. -/
theorem makes_word? (size : Sized E v n) :
    (Build.ofExcept v.word? : Build σ (Word α)).Makes E fun w => HasLength w n := by
  cases size with
  | word length => exact .pure length
  | number _ tolerated => exact .throw tolerated

theorem makes_entries? (size : Sized E v n) :
    (Build.ofExcept v.entries? : Build σ (Word α)).Makes E fun w => HasLength w n := by
  cases size with
  | word length => exact .pure length
  | number _ tolerated => exact .throw tolerated

/-- The words one after the other have the sum of their lengths, which is taken from the first. -/
theorem makes_concat {vs : List (Content α)} {ns : List Int} (sizes : List.Forall₂ (Sized E) vs ns)
    (start : Int) :
    (vs.mapM fun v => (Build.ofExcept v.word? : Build σ (Word α))).Makes E fun ws =>
      start + ws.flatten.length = ns.foldl (· + ·) start := by
  induction sizes generalizing start with
  | nil => exact .pure (Int.add_zero start)
  | @cons v n _ _ size _ ih =>
      rw [List.mapM_cons]
      refine (makes_word? size).bind fun w length => (ih (start + n)).bind fun ws lengths => ?_
      apply Makes.pure
      rw [HasLength] at length
      rw [List.foldl_cons, ← lengths, List.flatten_cons, List.length_append, ← length]
      omega

/-! ## Operations -/

section

variable (gates : A.FailsWithin E)

/-- The length of a word is its size; only a number that is too wide is refused. -/
theorem follows_length (size : Sized E v n) (tolerated : E numberFault) :
    ((ops A).length v).Follows E (Sized E) (lengthOps.length n : Build τ Int) := by
  have measured : (v.length : Build σ Int).Makes E fun m => m = n :=
    (makes_word? size).bind fun _ length => .pure length
  show (Content.number <$> v.length).Follows _ _ (pure n)
  rw [map_eq_pure_bind]
  refine .bind_makes measured fun m same => ?_
  rw [same]
  exact .pure (.number n tolerated)

/-- The size of a concatenation is the sum of the sizes. -/
theorem follows_concat {vs : List (Content α)} {ns : List Int}
    (sizes : List.Forall₂ (Sized E) vs ns) :
    ((ops A).concat vs).Follows E (Sized E) (lengthOps.concat ns : Build τ Int) := by
  refine .bind_makes (makes_concat sizes 0) fun ws lengths => ?_
  rw [Int.zero_add] at lengths
  exact .pure (.word lengths)

/-- An operation on two words that compares their lengths first, as an operation on operands. -/
theorem follows_pair {f : Word α → Word α → Build σ (Word α)}
    (checked : ∀ w w', (f w w').Follows E HasLength (sameLength w.length w'.length : Build τ Int))
    (size : Sized E u m) (size' : Sized E v n) :
    (do
      let w ← .ofExcept u.entries?
      let w' ← .ofExcept v.entries?
      Content.word <$> f w w' : Build σ (Content α)).Follows E (Sized E)
      (sameLength m n : Build τ Int) := by
  refine .bind_makes (makes_entries? size) fun w length => ?_
  refine .bind_makes (makes_entries? size') fun w' length' => ?_
  obtain rfl := length
  obtain rfl := length'
  exact follows_word (checked w w')

include gates

theorem follows_bitLift (bits : List Bool) :
    ((ops A).bitLift bits).Follows E (Sized E) (lengthOps.bitLift bits : Build τ Int) := by
  refine follows_word (.ofMakes (makes_lift gates bits) fun w length => ?_)
  exact congrArg Int.ofNat length

/-- An encoding is as long as its width, if that is not negative. -/
theorem follows_numLift {width : Int} (nonneg : 0 ≤ width) (value : Int) :
    ((ops A).numLift width value).Follows E (Sized E)
      (lengthOps.numLift width value : Build τ Int) := by
  rw [numLift_eq_bitLift]
  refine follows_word (.ofMakes (makes_lift gates (Bits.ofInt value width)) fun w length => ?_)
  rw [Bits.length_ofInt] at length
  rw [HasLength, length]
  exact Int.toNat_of_nonneg nonneg

theorem follows_bitNot (size : Sized E v n) :
    ((ops A).bitNot v).Follows E (Sized E) (lengthOps.bitNot n : Build τ Int) := by
  refine .bind_makes (makes_entries? size) fun w length => ?_
  refine follows_word (.ofMakes (makes_bitNot gates w) fun u same => ?_)
  exact (congrArg Int.ofNat same).trans length

theorem follows_numNeg (size : Sized E v n) :
    ((ops A).numNeg v).Follows E (Sized E) (lengthOps.numNeg n : Build τ Int) := by
  refine .bind_makes gates.unit fun carry _ => ?_
  refine .bind_makes (makes_entries? size) fun w length => ?_
  refine follows_word (.ofMakes (makes_rippleNeg gates w carry) fun u same => ?_)
  exact (congrArg Int.ofNat same).trans length

theorem follows_bits (op : BitOp) (size : Sized E u m) (size' : Sized E v n) :
    ((ops A).bits op u v).Follows E (Sized E) (lengthOps.bits op m n : Build τ Int) :=
  follows_pair (follows_bitwise gates op) size size'

theorem follows_num (op : NumOp) (size : Sized E u m) (size' : Sized E v n) :
    ((ops A).num op u v).Follows E (Sized E) (lengthOps.num op m n : Build τ Int) :=
  follows_pair (follows_arithmetic gates op) size size'

end

/-! ## Instructions -/

/-- The register that an operand names. -/
def fetch {ω : Type} (regs : List ω) (r : Int) : Build σ ω :=
  .ofExcept (itemAt regs .noItem r)

/-- Runs an instruction on the registers that its operands name. -/
def Instruction.execute {ω : Type} (V : WordOps σ ω) (regs : List ω) (i : Instruction Int) :
    Build σ ω := do
  (← i.resolve (fetch regs)).run V

theorem Program.registers_cons {ω : Type} (V : WordOps σ ω) (i : Instruction Int) (p : Program)
    (regs : List ω) : Program.registers V (i :: p) regs =
      i.execute V regs >>= fun result => p.registers V (regs ++ [result]) := by
  rw [Program.registers, Instruction.execute, bind_assoc]
  rfl

/-- An instruction fetches its operands from left to right and then calls its operation. -/
theorem Instruction.execute_eq {ω : Type} (V : WordOps σ ω) (regs : List ω) (i : Instruction Int) :
    i.execute V regs = match i with
      | length r => fetch regs r >>= V.length
      | bitLift values => V.bitLift values
      | bitNot r => fetch regs r >>= V.bitNot
      | bits op r r' => fetch regs r >>= fun v => fetch regs r' >>= V.bits op v
      | concat rs => rs.mapM (fetch regs) >>= V.concat
      | numLift width value => V.numLift width value
      | numNeg r => fetch regs r >>= V.numNeg
      | num op r r' => fetch regs r >>= fun v => fetch regs r' >>= V.num op v := by
  rw [execute]
  cases i <;> simp only [resolve, bind_assoc, pure_bind, run]

/-- The numbers of widths are not negative, and lengths are asked for only where the fault of a number is
tolerated. -/
def Instruction.Admitted (E : Fault → Prop) {ρ : Type} : Instruction ρ → Prop
  | length _ => E numberFault
  | numLift width _ => 0 ≤ width
  | _ => True

/-- In lists that correspond item by item, an index names corresponding items, or it is refused alike. -/
theorem follows_fetch {ω ω' : Type} {Rel : ω → ω' → Prop} {regs : List ω} {regs' : List ω'}
    (related : List.Forall₂ Rel regs regs') (r : Int) :
    (fetch regs r : Build σ ω).Follows E Rel (fetch regs' r : Build τ ω') := by
  apply Follows.ofExcept
  rw [itemAt, itemAt, atIndex?, atIndex?, related.length_eq]
  split
  · cases position : position? regs'.length r with
    | none => exact .error _
    | some k =>
        have inside' := position?_lt position
        have inside : k < regs.length := related.length_eq ▸ inside'
        simp only [Option.bind_some, List.getElem?_eq_getElem inside, List.getElem?_eq_getElem inside']
        exact .ok (related.get inside inside')
  · exact .error _

/-- An admitted instruction follows its dry run, and its result has the size computed there. -/
theorem follows_execute (gates : A.FailsWithin E) {regs : List (Content α)} {ns : List Int}
    (sizes : List.Forall₂ (Sized E) regs ns) {i : Instruction Int} (admitted : i.Admitted E) :
    (i.execute (ops A) regs).Follows E (Sized E) (i.execute (lengthOps : WordOps τ Int) ns) := by
  have fetched : ∀ r, (fetch regs r : Build σ (Content α)).Follows E (Sized E)
      (fetch ns r : Build τ Int) := follows_fetch sizes
  rw [Instruction.execute_eq, Instruction.execute_eq]
  cases i with
  | length r => exact (fetched r).bind fun _ _ size => follows_length size admitted
  | bitLift bits => exact follows_bitLift gates bits
  | bitNot r => exact (fetched r).bind fun _ _ size => follows_bitNot gates size
  | bits op r r' =>
      refine (fetched r).bind fun _ _ size => (fetched r').bind fun _ _ size' => ?_
      exact follows_bits gates op size size'
  | concat rs => exact (Follows.mapM rs fetched).bind fun _ _ sizes => follows_concat sizes
  | numLift width value => exact follows_numLift gates admitted value
  | numNeg r => exact (fetched r).bind fun _ _ size => follows_numNeg gates size
  | num op r r' =>
      refine (fetched r).bind fun _ _ size => (fetched r').bind fun _ _ size' => ?_
      exact follows_num gates op size size'

/-- Every program follows the length checker, register by register. -/
theorem follows_registers (gates : A.FailsWithin E) {regs : List (Content α)} {ns : List Int}
    (sizes : List.Forall₂ (Sized E) regs ns) {p : Program} (admitted : ∀ i ∈ p, i.Admitted E) :
    (p.registers (ops A) regs).Follows E (List.Forall₂ (Sized E))
      (p.registers (lengthOps : WordOps τ Int) ns) := by
  induction p generalizing regs ns with
  | nil => exact .pure sizes
  | cons i p ih =>
      rw [Program.registers_cons, Program.registers_cons]
      refine (follows_execute gates sizes (admitted i (.head _))).bind fun v n size => ?_
      exact ih (List.rel_append sizes (.cons size .nil)) fun j member => admitted j (.tail _ member)

end Word

end BoolCalculus
