import BoolCalculus.Proofs.Bits
import BoolCalculus.Proofs.Word.Embedding
import BoolCalculus.Proofs.Word.Exact
import BoolCalculus.Proofs.Word.Lengths
import Mathlib.Algebra.BigOperators.Fin

/-!
# Words in pieces

Words one after the other weigh what they weigh alone, each moved to the place where it starts, and the word of an
integer is made of the words of the shifted integer. Sums, differences and negatives carry upwards only: over every
gate set, the lowest elements are those of the lowest pieces alone (`Word.segments`). For this, the three carry
chains are one (`Word.ripple`), which also answers the carry that it leaves.
-/

namespace BoolCalculus

namespace Word

open Build

variable {σ α ι : Type}

/-- The place where an item starts, if items of the given lengths stand one after the other. -/
def offset (lengths : List Nat) (i : Nat) : Nat :=
  (lengths.take i).sum

@[simp] theorem offset_zero (lengths : List Nat) : offset lengths 0 = 0 := rfl

@[simp] theorem offset_cons_succ (length : Nat) (lengths : List Nat) (i : Nat) :
    offset (length :: lengths) (i + 1) = length + offset lengths i :=
  List.sum_cons

/-! ## Concatenation -/

theorem concat_words (A : GateSet σ α) (ws : List (Word α)) :
    (ops A).concat (ws.map .word) = pure (.word ws.flatten) := by
  have words : ((ws.map Content.word).mapM fun v => (Build.ofExcept v.word? : Build σ (Word α))) = pure ws := by
    rw [List.mapM_map]
    exact List.mapM_pure.trans (congrArg pure ws.map_id)
  show _ >>= _ = _
  rw [words, pure_bind]

theorem concat_pair (A : GateSet σ α) (v w : Word α) :
    (ops A).concat [.word v, .word w] = pure (.word (v ++ w)) := by
  have both := concat_words A [v, w]
  rwa [List.flatten_cons, List.flatten_singleton] at both

/-- The elements after a word weigh more by the power of its length. -/
theorem unsigned_append (V : Valuation σ α Bool) (s : σ) (v w : Word α) :
    V.unsigned s (v ++ w) = V.unsigned s v + 2 ^ v.length * V.unsigned s w := by
  simp only [Valuation.unsigned, List.map_append, Bits.toUnsigned_append, List.length_map]
  push_cast
  rfl

/-- Every word of a concatenation counts by the weight of its offset. -/
theorem unsigned_flatten (V : Valuation σ α Bool) (s : σ) (ws : List (Word α)) :
    V.unsigned s ws.flatten =
      ∑ i : Fin ws.length, 2 ^ offset (ws.map List.length) i * V.unsigned s ws[i] := by
  induction ws with
  | nil => rfl
  | cons w ws ih =>
      have rest : ∀ i : Fin ws.length,
          2 ^ offset ((w :: ws).map List.length) i.succ * V.unsigned s (w :: ws)[i.succ] =
            2 ^ w.length * (2 ^ offset (ws.map List.length) i * V.unsigned s ws[i]) := by
        intro i
        rw [List.map_cons, Fin.val_succ, offset_cons_succ, pow_add, mul_assoc]
        rfl
      rw [List.flatten_cons, unsigned_append, ih, Finset.mul_sum]
      refine Eq.trans ?_ (Fin.sum_univ_succ _).symm
      simp only [rest, Fin.val_zero, offset_zero, pow_zero, one_mul]
      rfl

/-- The bits of an integer in pieces: those of a piece are the lowest ones of the integer shifted to where it
starts. -/
theorem ofInt_sum (x : Int) (widths : List Nat) :
    Bits.ofInt x widths.sum = ((List.finRange widths.length).map fun i =>
      Bits.ofInt (x >>> offset widths i.val) (widths[i] : Nat)).flatten := by
  induction widths generalizing x with
  | nil => rfl
  | cons width widths ih =>
      have places : List.finRange (width :: widths).length = 0 :: (List.finRange widths.length).map Fin.succ :=
        List.finRange_succ
      rw [List.sum_cons, Bits.ofInt_add, ih, places, List.map_cons, List.map_map, List.flatten_cons]
      simp only [Function.comp_def, Fin.val_succ, offset_cons_succ, Int.shiftRight_add]
      show _ = Bits.ofInt (x >>> (0 : Nat)) width ++ _
      rw [Int.shiftRight_zero]
      rfl

/-- Bits are lifted piece by piece. -/
theorem lift_flatten (A : GateSet σ α) (pieces : List (List Bool)) :
    lift A pieces.flatten = List.flatten <$> pieces.mapM (lift A) := by
  induction pieces with
  | nil => rfl
  | cons bits pieces ih =>
      have both : lift A (bits ++ pieces.flatten) =
          (do pure ((← lift A bits) ++ (← lift A pieces.flatten))) := List.mapM_append
      rw [List.flatten_cons, both, ih, List.mapM_cons]
      simp only [map_bind, bind_map_left, map_pure, List.flatten_cons]

/-- An integer is encoded piece by piece, each one from the integer shifted to its offset. -/
theorem numLift_sum (A : GateSet σ α) (widths : List Nat) (x : Int) :
    (ops A).numLift widths.sum x =
      ((List.finRange widths.length).mapM fun i => (ops A).numLift (widths[i] : Nat) (x >>> offset widths i.val)) >>=
        (ops A).concat := by
  let bits (i : Fin widths.length) := Bits.ofInt (x >>> offset widths i.val) (widths[i] : Nat)
  have pieces : ((List.finRange widths.length).mapM fun i => Content.word <$> lift A (bits i)) =
      List.map Content.word <$> ((List.finRange widths.length).map bits).mapM (lift A) := by
    rw [List.mapM_map]
    exact mapM_eq_map Content.word (fun _ => rfl) _
  simp only [numLift_eq_bitLift]
  show Content.word <$> lift A (Bits.ofInt x widths.sum) = (List.mapM _ _ >>= _)
  refine Eq.trans ?_ (congrArg (· >>= (ops A).concat) pieces.symm)
  simp only [bind_map_left, concat_words]
  rw [ofInt_sum, lift_flatten, map_eq_pure_bind, bind_map_left]

/-! ## Carry chains -/

/-- A chain of adders. Each makes an element and the carry of the next one; the carry of the last one is left over. -/
def ripple (adder : ι → α → Build σ (α × α)) : List ι → α → Build σ (Word α × α)
  | [], carry => pure ([], carry)
  | i :: is, carry => do
    let (sum, next) ← adder i carry
    let (sums, out) ← ripple adder is next
    pure (sum :: sums, out)

/-- The adder of two elements and a carry. -/
def fullAdder (A : GateSet σ α) (operands : α × α) (carry : α) : Build σ (α × α) := do
  let sum ← A.ad3 operands.1 operands.2 carry
  let next ← A.maj operands.1 operands.2 carry
  pure (sum, next)

/-- The adder of an element, the negation of another and a carry. -/
def fullSubtractor (A : GateSet σ α) (operands : α × α) (carry : α) : Build σ (α × α) := do
  let notB ← A.not operands.2
  fullAdder A (operands.1, notB) carry

/-- The adder of the negation of an element and a carry. -/
def halfSubtractor (A : GateSet σ α) (a carry : α) : Build σ (α × α) := do
  let notA ← A.not a
  let sum ← A.add notA carry
  let next ← A.and notA carry
  pure (sum, next)

/-- The carry that the chain of an operation starts with. -/
def carryIn (A : GateSet σ α) : NumOp → Build σ α
  | .add => A.zero
  | .sub => A.unit

/-- The adder in the chain of an operation. -/
def adder (A : GateSet σ α) : NumOp → α × α → α → Build σ (α × α)
  | .add => fullAdder A
  | .sub => fullSubtractor A

theorem rippleAdd_eq (A : GateSet σ α) (v w : Word α) (carry : α) :
    rippleAdd A v w carry = Prod.fst <$> ripple (fullAdder A) (v.zip w) carry := by
  induction v generalizing w carry with
  | nil => rfl
  | cons a v ih =>
      cases w with
      | nil => rfl
      | cons b w =>
          simp only [rippleAdd, List.zip_cons_cons, ripple, fullAdder, ih, map_bind, bind_assoc, pure_bind,
            bind_map_left, map_pure]

theorem rippleSub_eq (A : GateSet σ α) (v w : Word α) (carry : α) :
    rippleSub A v w carry = Prod.fst <$> ripple (fullSubtractor A) (v.zip w) carry := by
  induction v generalizing w carry with
  | nil => rfl
  | cons a v ih =>
      cases w with
      | nil => rfl
      | cons b w =>
          simp only [rippleSub, List.zip_cons_cons, ripple, fullSubtractor, fullAdder, ih, map_bind, bind_assoc,
            pure_bind, bind_map_left, map_pure]

theorem rippleNeg_eq (A : GateSet σ α) (w : Word α) (carry : α) :
    rippleNeg A w carry = Prod.fst <$> ripple (halfSubtractor A) w carry := by
  induction w generalizing carry with
  | nil => rfl
  | cons a w ih =>
      simp only [rippleNeg, ripple, halfSubtractor, ih, map_bind, bind_assoc, pure_bind, bind_map_left, map_pure]

/-- On words of one length an operation sets the first carry and ripples. -/
theorem num_words (A : GateSet σ α) (op : NumOp) {v w : Word α} (same : v.length = w.length) :
    (ops A).num op (.word v) (.word w) =
      carryIn A op >>= fun carry => Content.word <$> Prod.fst <$> ripple (adder A op) (v.zip w) carry := by
  show Content.word <$> arithmetic A op v w = _
  cases op with
  | add => simp only [arithmetic, add, requireLengths_ok same, pure_bind, rippleAdd_eq, map_bind, carryIn, adder]
  | sub => simp only [arithmetic, sub, requireLengths_ok same, pure_bind, rippleSub_eq, map_bind, carryIn, adder]

theorem numNeg_word (A : GateSet σ α) (w : Word α) :
    (ops A).numNeg (.word w) =
      A.unit >>= fun carry => Content.word <$> Prod.fst <$> ripple (halfSubtractor A) w carry := by
  simp only [← rippleNeg_eq]
  rfl

section

variable (adder : ι → α → Build σ (α × α))

/-- A chain of adders goes on from the carry that its first part leaves over. -/
theorem ripple_append (is js : List ι) (carry : α) :
    ripple adder (is ++ js) carry = (do
      let (low, next) ← ripple adder is carry
      let (high, out) ← ripple adder js next
      pure (low ++ high, out)) := by
  induction is generalizing carry with
  | nil =>
      simp only [List.nil_append, ripple, pure_bind]
      exact (bind_pure _).symm
  | cons i is ih => simp only [List.cons_append, ripple, ih, bind_assoc, pure_bind]

theorem makes_ripple (is : List ι) (carry : α) :
    (ripple adder is carry).Makes (fun _ => True) fun made => made.1.length = is.length := by
  have any : ∀ {β : Type} (act : Build σ β), act.Makes (fun _ => True) fun _ => True := by
    intro β act s
    rcases (act.runFrom s).1 with _ | _ <;> trivial
  induction is generalizing carry with
  | nil => exact .pure rfl
  | cons i is ih =>
      refine (any (adder i carry)).bind fun step _ => (ih step.2).bind fun rest length => ?_
      exact .pure (congrArg Nat.succ length)

end

/-! ## The lowest elements -/

/-- What the construction of a piece ends with, next to what the whole ends with: the first `k` elements of the
word, unless the whole fails, which it does after the piece is made, or in the piece as the piece alone does. -/
inductive Begins (k : Nat) : Except Fault (Content α) × σ → Except Fault (Content α) × σ → Prop
  | ok {w : Word α} (inside : k ≤ w.length) (t t' : σ) :
      Begins k (.ok (.word (w.take k)), t) (.ok (.word w), t')
  | above {w : Word α} (length : w.length = k) (f : Fault) (t t' : σ) :
      Begins k (.ok (.word w), t) (.error f, t')
  | within (f : Fault) (t : σ) : Begins k (.error f, t) (.error f, t)

/-- From every state, the piece makes the first `k` elements of what the whole makes from the same state; and the
whole makes something where no gate fails. -/
structure IsStart (A : GateSet σ α) (k : Nat) (piece whole : Build σ (Content α)) : Prop where
  begins : ∀ s, Begins k (piece.runFrom s) (whole.runFrom s)
  succeeds : A.Total → ∀ s, ∃ v, (whole.runFrom s).1 = .ok v

/-- Runs that begin alike after an action begin alike with it. -/
theorem begins_bind {k : Nat} {β : Type} {act : Build σ β} {piece whole : β → Build σ (Content α)}
    (each : ∀ b s, Begins k ((piece b).runFrom s) ((whole b).runFrom s)) (s : σ) :
    Begins k ((act >>= piece).runFrom s) ((act >>= whole).runFrom s) := by
  rcases run : act.runFrom s with ⟨f | b, t⟩
  · rw [runFrom_bind_error run, runFrom_bind_error run]
    exact .within f t
  · rw [runFrom_bind_ok run, runFrom_bind_ok run]
    exact each b t

/-- The ripple over a beginning of a list makes the beginning of the elements that the ripple over all of it makes. -/
theorem begins_ripple (adder : ι → α → Build σ (α × α)) (is js : List ι) (carry : α) (s : σ) :
    Begins is.length ((Content.word <$> Prod.fst <$> ripple adder is carry).runFrom s)
      ((Content.word <$> Prod.fst <$> ripple adder (is ++ js) carry).runFrom s) := by
  have length := makes_ripple adder is carry s
  rw [ripple_append]
  simp only [runFrom_map]
  rcases run : (ripple adder is carry).runFrom s with ⟨f | ⟨low, next⟩, t⟩
  · rw [runFrom_bind_error run]
    exact .within f t
  rw [runFrom_bind_ok run]
  rw [run] at length
  have length : low.length = is.length := length
  -- The piece is made; what comes above it starts from its last carry and only appends to it.
  rcases run' : (ripple adder js next).runFrom t with ⟨f | ⟨high, out⟩, t'⟩
  · rw [runFrom_bind_error run']
    exact .above length f t t'
  · rw [runFrom_bind_ok run']
    have whole : Begins is.length (.ok (.word ((low ++ high).take is.length)), t) (.ok (.word (low ++ high)), t') :=
      .ok (by rw [List.length_append]; omega) t t'
    rwa [List.take_left' length] at whole

/-- The low parts of two words are added or subtracted before the high parts. -/
theorem isStart_num (A : GateSet σ α) (op : NumOp) {v w v' w' : Word α} (low : v.length = w.length)
    (high : v'.length = w'.length) : IsStart A v.length ((ops A).num op (.word v) (.word w))
      ((ops A).num op (.word (v ++ v')) (.word (w ++ w'))) := by
  have both : (v ++ v').length = (w ++ w').length := by rw [List.length_append, List.length_append, low, high]
  have pairs : (v.zip w).length = v.length := by rw [List.length_zip, ← low, Nat.min_self]
  constructor
  case begins =>
    rw [num_words A op low, num_words A op both, List.zip_append low]
    refine begins_bind fun carry s => ?_
    have start := begins_ripple (adder A op) (v.zip w) (v'.zip w') carry s
    rwa [pairs] at start
  case succeeds =>
    intro total s
    have checked : ((sameLength (v ++ v').length (w ++ w').length : Build Unit Int).runFrom ()).1 =
        .ok ↑(v ++ v').length := by
      rw [sameLength, requireLengths_ok both]
      rfl
    obtain ⟨u, made, -⟩ := (follows_num total op (.word rfl) (.word rfl)).succeeds s checked
    exact ⟨u, made⟩

theorem isStart_numNeg (A : GateSet σ α) (v v' : Word α) :
    IsStart A v.length ((ops A).numNeg (.word v)) ((ops A).numNeg (.word (v ++ v'))) := by
  constructor
  case begins =>
    rw [numNeg_word, numNeg_word]
    exact begins_bind fun carry s => begins_ripple (halfSubtractor A) v v' carry s
  case succeeds =>
    intro total s
    obtain ⟨u, made, -⟩ := (follows_numNeg total (.word rfl)).succeeds (τ := Unit) s (t := ()) rfl
    exact ⟨u, made⟩

/-- Words split and join. Under every valuation in the truth values, words one after the other weigh the sum of
what they weigh, each times two to the power of its offset. The word of an integer is made of the words of the
integer shifted by the offsets. Sums, differences and negatives begin with those of the lowest pieces, whatever the
gates do. -/
theorem segments (A : GateSet σ α) :
    (∀ (V : Valuation σ α Bool) (s : σ) (ws : List (Word α)),
      ∃ w, (ops A).concat (ws.map .word) = pure (.word w) ∧
        V.unsigned s w = ∑ i : Fin ws.length, 2 ^ offset (ws.map List.length) i * V.unsigned s ws[i]) ∧
    (∀ (widths : List Nat) (x : Int), (ops A).numLift widths.sum x =
      ((List.finRange widths.length).mapM fun i => (ops A).numLift (widths[i] : Nat) (x >>> offset widths i.val)) >>=
        (ops A).concat) ∧
    ∀ a₀ b₀ a₁ b₁ : Word α, a₀.length = b₀.length → a₁.length = b₁.length →
      (∀ op, IsStart A a₀.length ((ops A).num op (.word a₀) (.word b₀)) (do
        let a ← (ops A).concat [.word a₀, .word a₁]
        let b ← (ops A).concat [.word b₀, .word b₁]
        (ops A).num op a b)) ∧
      IsStart A a₀.length ((ops A).numNeg (.word a₀)) (do
        let a ← (ops A).concat [.word a₀, .word a₁]
        (ops A).numNeg a) := by
  refine ⟨fun V s ws => ⟨_, concat_words A ws, unsigned_flatten V s ws⟩, numLift_sum A, ?_⟩
  intro a₀ b₀ a₁ b₁ low high
  simp only [concat_pair, pure_bind]
  exact ⟨fun op => isStart_num A op low high, isStart_numNeg A a₀ a₁⟩

/-- In a circuit, every gate makes a new handle, and the lowest handle of a sum or a negative is the one that it
has for the lowest pieces alone. -/
theorem segments_circuit :
    IsStart (Circuit.gates id) 1 ((ops (Circuit.gates id)).num .add (.word [0]) (.word [1])) (do
      let a ← (ops (Circuit.gates id)).concat [.word [0], .word [1, 0]]
      let b ← (ops (Circuit.gates id)).concat [.word [1], .word [1, 1]]
      (ops (Circuit.gates id)).num .add a b) ∧
    IsStart (Circuit.gates id) 1 ((ops (Circuit.gates id)).numNeg (.word [0])) (do
      let a ← (ops (Circuit.gates id)).concat [.word [0], .word [1, 0]]
      (ops (Circuit.gates id)).numNeg a) :=
  have pieces := (segments (Circuit.gates id)).2.2 [0] [1] [1, 0] [1, 1] rfl rfl
  ⟨pieces.1 .add, pieces.2⟩

end Word

end BoolCalculus
