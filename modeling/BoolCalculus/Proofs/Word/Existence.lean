import BoolCalculus.Proofs.GateSet.Existence
import BoolCalculus.Proofs.Word.Checker

/-!
# Words of elements that exist

Over a closed gate set every instruction on words whose elements exist leaves a later state, also where the
instruction is refused or a gate fails on the way, and the word that it makes has elements that exist there
(`Valuation.Closed.keeps_instruction`).
-/

namespace BoolCalculus

variable {σ α β B : Type}

/-- The elements of an operand. -/
def Word.Content.elements : Word.Content α → List α
  | .word w => w
  | .named names missing => missing :: names
  | .number _ | .other _ => []

namespace Valuation

open Word

variable {V : Valuation σ α B} {A : GateSet σ α} {s : σ} {u v : Content α} {w w' : Word α} {carry : α}

variable (V) in
/-- A state has all elements of a word. -/
def All (s : σ) (w : Word α) : Prop :=
  ∀ a ∈ w, V.Elem s a

theorem All.later {t : σ} (there : V.All s w) (later : V.Later s t) : V.All t w :=
  fun a member => V.elem_later later (there a member)

theorem All.cons {a : α} (head : V.Elem s a) (tail : V.All s w) : V.All s (a :: w) :=
  List.forall_mem_cons.2 ⟨head, tail⟩

/-! ## Operands -/

theorem Keeps.word? (there : V.All s v.elements) : V.Keeps V.All s (.ofExcept v.word?) := by
  refine .ofExcept fun w read => ?_
  cases v with
  | word w' =>
      obtain rfl := Except.ok.inj read
      exact there
  | named names missing =>
      obtain rfl := Except.ok.inj read
      exact fun a member => there a (.tail _ member)
  | number n => cases read
  | other why => cases read

theorem Keeps.entries? (there : V.All s v.elements) : V.Keeps V.All s (.ofExcept v.entries?) := by
  cases v with
  | named names missing =>
      refine .ofExcept fun w read => ?_
      obtain rfl := Except.ok.inj read
      intro a member
      obtain ⟨_, _, rfl⟩ := List.mem_map.1 member
      exact there missing (.head _)
  | word w => exact .word? there
  | number n => exact .word? there
  | other why => exact .word? there

theorem Keeps.requireLengths (m n : Int) :
    V.Keeps (fun _ _ => True) s (BoolCalculus.requireLengths m n) := by
  rw [BoolCalculus.requireLengths]
  split
  · exact .pure trivial
  · exact .throw _

theorem Keeps.content {act : Build σ (Word α)} (keeps : V.Keeps V.All s act) :
    V.Keeps (fun t (v : Content α) => V.All t v.elements) s (Content.word <$> act) :=
  keeps.map id

/-! ## Operations -/

/-- Gates that keep elements keep the words of their results. -/
theorem Keeps.zipGates {f : α → α → Build σ α}
    (gate : ∀ {t a b}, V.Elem t a → V.Elem t b → V.Keeps V.Elem t (f a b))
    (hw : V.All s w) (hw' : V.All s w') : V.Keeps V.All s (zipGates f w w') := by
  induction w generalizing s w' with
  | nil => exact .pure hw
  | cons a w ih =>
      cases w' with
      | nil => exact .pure hw'
      | cons b w' =>
          obtain ⟨ha, hw⟩ := List.forall_mem_cons.1 hw
          obtain ⟨hb, hw'⟩ := List.forall_mem_cons.1 hw'
          refine (gate ha hb).bind fun first head => ?_
          refine (ih (All.later hw first) (All.later hw' first)).bind fun second tail => ?_
          exact .pure (.cons (V.elem_later second head) tail)

namespace Closed

variable (closed : V.Closed A)

include closed

/-- The sums and carries of a ripple are there after it. -/
theorem keeps_rippleAdd (hw : V.All s w) (hw' : V.All s w') (hc : V.Elem s carry) :
    V.Keeps V.All s (rippleAdd A w w' carry) := by
  induction w generalizing s w' carry with
  | nil => exact .pure hw
  | cons a w ih =>
      cases w' with
      | nil => exact .pure hw'
      | cons b w' =>
          obtain ⟨ha, hw⟩ := List.forall_mem_cons.1 hw
          obtain ⟨hb, hw'⟩ := List.forall_mem_cons.1 hw'
          refine (closed.ternary .ad3 ha hb hc).bind fun first sum => ?_
          refine (closed.ternary .maj (V.elem_later first ha) (V.elem_later first hb)
            (V.elem_later first hc)).bind fun second next => ?_
          have later := V.later_trans first second
          refine (ih (All.later hw later) (All.later hw' later) next).bind fun third sums => ?_
          exact .pure (.cons (V.elem_later (V.later_trans second third) sum) sums)

theorem keeps_rippleSub (hw : V.All s w) (hw' : V.All s w') (hc : V.Elem s carry) :
    V.Keeps V.All s (rippleSub A w w' carry) := by
  induction w generalizing s w' carry with
  | nil => exact .pure hw
  | cons a w ih =>
      cases w' with
      | nil => exact .pure hw'
      | cons b w' =>
          obtain ⟨ha, hw⟩ := List.forall_mem_cons.1 hw
          obtain ⟨hb, hw'⟩ := List.forall_mem_cons.1 hw'
          refine (closed.not hb).bind fun first notB => ?_
          refine (closed.ternary .ad3 (V.elem_later first ha) notB
            (V.elem_later first hc)).bind fun second sum => ?_
          have later := V.later_trans first second
          refine (closed.ternary .maj (V.elem_later later ha) (V.elem_later second notB)
            (V.elem_later later hc)).bind fun third next => ?_
          have later := V.later_trans later third
          refine (ih (All.later hw later) (All.later hw' later) next).bind fun fourth sums => ?_
          exact .pure (.cons (V.elem_later (V.later_trans third fourth) sum) sums)

theorem keeps_rippleNeg (hw : V.All s w) (hc : V.Elem s carry) :
    V.Keeps V.All s (rippleNeg A w carry) := by
  induction w generalizing s carry with
  | nil => exact .pure hw
  | cons a w ih =>
      obtain ⟨ha, hw⟩ := List.forall_mem_cons.1 hw
      refine (closed.not ha).bind fun first notA => ?_
      refine (closed.binary .add notA (V.elem_later first hc)).bind fun second sum => ?_
      have later := V.later_trans first second
      refine (closed.binary .and (V.elem_later second notA) (V.elem_later later hc)).bind
        fun third next => ?_
      refine (ih (All.later hw (V.later_trans later third)) next).bind fun fourth sums => ?_
      exact .pure (.cons (V.elem_later (V.later_trans third fourth) sum) sums)

theorem keeps_lift (bits : List Bool) : V.Keeps V.All s (Word.lift A bits) :=
  .mapM (fun later there => V.elem_later later there) fun {t} _ b _ => closed.lift t b

theorem keeps_bitNot (hw : V.All s w) : V.Keeps V.All s (bitNot A w) :=
  .mapM (fun later there => V.elem_later later there) fun later a member =>
    closed.not (V.elem_later later (hw a member))

theorem keeps_gate (op : BitOp) {a b : α} (ha : V.Elem s a) (hb : V.Elem s b) :
    V.Keeps V.Elem s (gate A op a b) := by
  rw [gate_eq]
  exact closed.binary op.toBinary ha hb

/-- Bitwise operations make words of elements that are there, or refuse the lengths. -/
theorem keeps_bitwise (op : BitOp) (hw : V.All s w) (hw' : V.All s w') :
    V.Keeps V.All s (bitwise A op w w') :=
  (Keeps.requireLengths _ _).bind fun later _ =>
    .zipGates (closed.keeps_gate op) (hw.later later) (hw'.later later)

theorem keeps_arithmetic (op : NumOp) (hw : V.All s w) (hw' : V.All s w') :
    V.Keeps V.All s (arithmetic A op w w') := by
  cases op with
  | add =>
      refine (Keeps.requireLengths _ _).bind fun first _ => ?_
      refine (closed.zero _).bind fun second carry => ?_
      have later := V.later_trans first second
      exact closed.keeps_rippleAdd (hw.later later) (hw'.later later) carry
  | sub =>
      refine (Keeps.requireLengths _ _).bind fun first _ => ?_
      refine (closed.unit _).bind fun second carry => ?_
      have later := V.later_trans first second
      exact closed.keeps_rippleSub (hw.later later) (hw'.later later) carry

/-- An instruction on operands whose elements exist keeps to elements that exist. -/
theorem keeps_instruction {i : Instruction (Content α)} (there : ∀ v ∈ i.operands, V.All s v.elements) :
    V.Keeps (fun t (v : Content α) => V.All t v.elements) s (i.run (ops A)) := by
  cases i with
  | length v =>
      have measured : V.Keeps (fun _ (_ : Int) => True) s v.length :=
        (Keeps.word? (there v (.head _))).bind fun _ _ => .pure trivial
      exact measured.map fun _ => List.forall_mem_nil _
  | bitLift bits => exact (closed.keeps_lift bits).content
  | bitNot v =>
      exact (Keeps.entries? (there v (.head _))).bind fun _ hw => (closed.keeps_bitNot hw).content
  | bits op u v =>
      refine (Keeps.entries? (there u (.head _))).bind fun first hu => ?_
      have hv := (there v (.tail _ (.head _))).later first
      refine (Keeps.entries? hv).bind fun second hv => ?_
      exact (closed.keeps_bitwise op (hu.later second) hv).content
  | concat vs =>
      have words : V.Keeps (fun t ws => ∀ w ∈ ws, V.All t w) s
          (vs.mapM fun v => .ofExcept v.word?) :=
        .mapM (fun later there => there.later later) fun later v member =>
          .word? ((there v member).later later)
      refine words.bind fun _ each => .pure fun a member => ?_
      obtain ⟨w, inside, member⟩ := List.mem_flatten.1 member
      exact each w inside a member
  | numLift width value =>
      rw [Word.Instruction.run, Word.numLift_eq_bitLift]
      exact (closed.keeps_lift _).content
  | numNeg v =>
      refine (closed.unit s).bind fun first carry => ?_
      have hv := (there v (.head _)).later first
      refine (Keeps.entries? hv).bind fun second hw => ?_
      exact (closed.keeps_rippleNeg hw (V.elem_later second carry)).content
  | num op u v =>
      refine (Keeps.entries? (there u (.head _))).bind fun first hu => ?_
      have hv := (there v (.tail _ (.head _))).later first
      refine (Keeps.entries? hv).bind fun second hv => ?_
      exact (closed.keeps_arithmetic op (hu.later second) hv).content

end Closed

end Valuation

end BoolCalculus
