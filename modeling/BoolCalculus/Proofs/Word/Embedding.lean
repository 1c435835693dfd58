import BoolCalculus.Proofs.GateSet.Embedding
import BoolCalculus.Proofs.Word.Checker

/-!
# Words over embedded gate sets

Where a gate set is embedded into another one, programs on words of images run as programs on words of
elements do: the same registers up to the embedding, the same failures and the same states
(`Word.Program.runsAs`).
-/

namespace BoolCalculus

variable {σ α β ω ω' : Type}

/-! ## Word operations and programs -/

/-- On images, every operation of the second kind makes the image of what the operation of the first makes. -/
structure WordOps.Embeds (g : ω → ω') (V : WordOps σ ω) (V' : WordOps σ ω') : Prop where
  length : ∀ v, V'.length (g v) = g <$> V.length v
  bitLift : ∀ bits, V'.bitLift bits = g <$> V.bitLift bits
  bitNot : ∀ v, V'.bitNot (g v) = g <$> V.bitNot v
  bits : ∀ op v w, V'.bits op (g v) (g w) = g <$> V.bits op v w
  concat : ∀ vs, V'.concat (vs.map g) = g <$> V.concat vs
  numLift : ∀ width value, V'.numLift width value = g <$> V.numLift width value
  numNeg : ∀ v, V'.numNeg (g v) = g <$> V.numNeg v
  num : ∀ op v w, V'.num op (g v) (g w) = g <$> V.num op v w

/-- The item at a place of a mapped list is the image of the item there. -/
theorem itemAt_map (g : ω → ω') (items : List ω) (outside : Fault) (index : Int) :
    itemAt (items.map g) outside index = g <$> itemAt items outside index := by
  unfold itemAt atIndex?
  rw [List.length_map]
  split
  · cases position : position? items.length index with
    | none => rfl
    | some i =>
        simp only [Option.bind_some, List.getElem?_map]
        cases items[i]? <;> rfl
  · rfl

theorem mapM_eq_map {f : α → Build σ ω} {f' : α → Build σ ω'} (g : ω → ω')
    (each : ∀ a, f' a = g <$> f a) (as : List α) : as.mapM f' = List.map g <$> as.mapM f := by
  induction as with
  | nil => rfl
  | cons a as ih =>
      rw [List.mapM_cons, List.mapM_cons, each, ih]
      simp only [map_bind, bind_map_left, map_pure, List.map_cons]

namespace Word

variable {g : ω → ω'} {V : WordOps σ ω} {V' : WordOps σ ω'}

theorem fetch_map (g : ω → ω') (regs : List ω) (r : Int) :
    (fetch (regs.map g) r : Build σ ω') = g <$> fetch regs r := by
  unfold fetch
  rw [itemAt_map, Build.ofExcept_map]

/-- One instruction makes the image of what it makes on the registers before the embedding. -/
theorem execute_map (embeds : V.Embeds g V') (regs : List ω) (i : Instruction Int) :
    i.execute V' (regs.map g) = g <$> i.execute V regs := by
  rw [Instruction.execute_eq, Instruction.execute_eq]
  cases i with
  | length r => simp only [fetch_map, bind_map_left, map_bind, embeds.length]
  | bitLift bits => exact embeds.bitLift bits
  | bitNot r => simp only [fetch_map, bind_map_left, map_bind, embeds.bitNot]
  | bits op r r' => simp only [fetch_map, bind_map_left, map_bind, embeds.bits]
  | concat rs =>
      simp only [mapM_eq_map g (fetch_map g regs), bind_map_left, map_bind, embeds.concat]
  | numLift width value => exact embeds.numLift width value
  | numNeg r => simp only [fetch_map, bind_map_left, map_bind, embeds.numNeg]
  | num op r r' => simp only [fetch_map, bind_map_left, map_bind, embeds.num]

/-- A program runs through the images of the registers. -/
theorem registers_map (embeds : V.Embeds g V') (p : Program) (regs : List ω) :
    p.registers V' (regs.map g) = List.map g <$> p.registers V regs := by
  induction p generalizing regs with
  | nil => rfl
  | cons i p ih =>
      rw [Program.registers_cons, Program.registers_cons, execute_map embeds]
      simp only [bind_map_left, map_bind]
      refine bind_congr fun result => ?_
      rw [← ih, List.map_append]
      rfl

/-- On images of registers a program does with the second operations what it does with the first ones on the
registers: it has the same results up to the image and leaves the same state, and where one run fails, the other
fails at the same instruction with the same fault. -/
structure Program.RunsAs (p : Program) (V : WordOps σ ω) (V' : WordOps σ ω') (g : ω → ω')
    (regs : List ω) : Prop where
  registers : ∀ s, (p.registers V' (regs.map g)).runFrom s =
    (List.map g <$> ((p.registers V regs).runFrom s).1, ((p.registers V regs).runFrom s).2)
  failsAt : ∀ s k f, p.FailsAt V' (regs.map g) s k f ↔ p.FailsAt V regs s k f

/-- Operations that commute with an embedding run every program alike. -/
theorem Program.runsAs (embeds : V.Embeds g V') (p : Program) (regs : List ω) :
    p.RunsAs V V' g regs := by
  have runs : ∀ (q : Program) s, (q.registers V' (regs.map g)).runFrom s =
      (List.map g <$> ((q.registers V regs).runFrom s).1, ((q.registers V regs).runFrom s).2) := by
    intro q s
    rw [registers_map embeds, Build.runFrom_map]
  refine ⟨runs p, fun s k f => ?_⟩
  have ok : ∀ {r : Except Fault (List ω)},
      (∃ results, List.map g <$> r = .ok results) ↔ ∃ results, r = .ok results := by
    rintro (_ | _) <;> simp
  have error : ∀ {r : Except Fault (List ω)}, List.map g <$> r = .error f ↔ r = .error f := by
    rintro (_ | _) <;> simp
  constructor
  · rintro ⟨inside, before, here, whole⟩
    rw [runs] at before here whole
    exact ⟨inside, ok.1 before, error.1 here, error.1 whole⟩
  · rintro ⟨inside, before, here, whole⟩
    refine ⟨inside, ?_, ?_, ?_⟩
    · rw [runs]
      exact ok.2 before
    · rw [runs]
      exact error.2 here
    · rw [runs]
      exact error.2 whole

/-! ## Words over a gate set -/

/-- The operand with all its elements replaced. -/
def Content.map (f : α → β) : Content α → Content β
  | word w => word (w.map f)
  | named names missing => named (names.map f) (f missing)
  | number n => number n
  | other why => other why

theorem Content.word?_map (f : α → β) (v : Content α) : (v.map f).word? = List.map f <$> v.word? := by
  cases v <;> rfl

theorem Content.entries?_map (f : α → β) (v : Content α) :
    (v.map f).entries? = List.map f <$> v.entries? := by
  cases v with
  | named names missing =>
      show Except.ok ((names.map f).map fun _ => f missing) = .ok ((names.map fun _ => missing).map f)
      rw [List.map_map, List.map_map]
      rfl
  | _ => rfl

variable {f : α → β} {A : GateSet σ α} {A' : GateSet σ β}

/-- An embedded gate runs on embedded words as the gate does on the words. -/
theorem zipGates_map {h : α → α → Build σ α} {h' : β → β → Build σ β}
    (each : ∀ a b, h' (f a) (f b) = f <$> h a b) (v w : Word α) :
    zipGates h' (v.map f) (w.map f) = List.map f <$> zipGates h v w := by
  induction v generalizing w with
  | nil => rfl
  | cons a v ih =>
      cases w with
      | nil => rfl
      | cons b w =>
          simp only [List.map_cons, zipGates, each, ih, map_bind, bind_map_left, map_pure]

theorem gate_map (embeds : A.Embeds f A') (op : BitOp) (a b : α) :
    gate A' op (f a) (f b) = f <$> gate A op a b := by
  rw [gate_eq, gate_eq]
  exact embeds.binary op.toBinary a b

/-- The ripples commute with an embedding, since every gate in them does. -/
theorem rippleAdd_map (embeds : A.Embeds f A') (v w : Word α) (carry : α) :
    rippleAdd A' (v.map f) (w.map f) (f carry) = List.map f <$> rippleAdd A v w carry := by
  have ad3 := embeds.ternary .ad3
  have maj := embeds.ternary .maj
  simp only [GateSet.ternary] at ad3 maj
  induction v generalizing w carry with
  | nil => rfl
  | cons a v ih =>
      cases w with
      | nil => rfl
      | cons b w =>
          simp only [List.map_cons, rippleAdd, ad3, maj, ih, map_bind, bind_map_left, map_pure]

theorem rippleSub_map (embeds : A.Embeds f A') (v w : Word α) (carry : α) :
    rippleSub A' (v.map f) (w.map f) (f carry) = List.map f <$> rippleSub A v w carry := by
  have ad3 := embeds.ternary .ad3
  have maj := embeds.ternary .maj
  simp only [GateSet.ternary] at ad3 maj
  induction v generalizing w carry with
  | nil => rfl
  | cons a v ih =>
      cases w with
      | nil => rfl
      | cons b w =>
          simp only [List.map_cons, rippleSub, embeds.not, ad3, maj, ih, map_bind, bind_map_left,
            map_pure]

theorem rippleNeg_map (embeds : A.Embeds f A') (w : Word α) (carry : α) :
    rippleNeg A' (w.map f) (f carry) = List.map f <$> rippleNeg A w carry := by
  have add := embeds.binary .add
  have and := embeds.binary .and
  simp only [GateSet.binary] at add and
  induction w generalizing carry with
  | nil => rfl
  | cons a w ih =>
      simp only [List.map_cons, rippleNeg, embeds.not, add, and, ih, map_bind, bind_map_left,
        map_pure]

/-- The word of images is the image of the word. -/
theorem word_map (f : α → β) (act : Build σ (Word α)) :
    Content.word <$> (List.map f <$> act) = Content.map f <$> (Content.word <$> act) := by
  rw [Functor.map_map, Functor.map_map]
  rfl

theorem length_map (f : α → β) (v : Content α) : ((v.map f).length : Build σ Int) = v.length := by
  unfold Content.length
  rw [Content.word?_map, Build.ofExcept_map]
  simp only [bind_map_left, List.length_map]

theorem bitNot_map (embeds : A.Embeds f A') (w : Word α) :
    bitNot A' (w.map f) = List.map f <$> bitNot A w := by
  unfold bitNot
  rw [List.mapM_map]
  exact mapM_eq_map f embeds.not w

/-- Bitwise operations check lengths, which an embedding keeps, and then run their gates. -/
theorem bitwise_map (embeds : A.Embeds f A') (op : BitOp) (v w : Word α) :
    bitwise A' op (v.map f) (w.map f) = List.map f <$> bitwise A op v w := by
  unfold bitwise
  simp only [List.length_map, zipGates_map (gate_map embeds op), map_bind]

theorem arithmetic_map (embeds : A.Embeds f A') (op : NumOp) (v w : Word α) :
    arithmetic A' op (v.map f) (w.map f) = List.map f <$> arithmetic A op v w := by
  cases op with
  | add =>
      simp only [arithmetic, add, List.length_map, embeds.zero, rippleAdd_map embeds, map_bind,
        bind_map_left]
  | sub =>
      simp only [arithmetic, sub, List.length_map, embeds.unit, rippleSub_map embeds, map_bind,
        bind_map_left]

/-- Words over a gate set are embedded into words over the gate set that it is embedded into. -/
theorem embeds_ops (embeds : A.Embeds f A') : (ops A).Embeds (Content.map f) (ops A') := by
  have entries : ∀ v : Content α, (Build.ofExcept (v.map f).entries? : Build σ (Word β)) =
      List.map f <$> Build.ofExcept v.entries? := fun v => by
    rw [Content.entries?_map, Build.ofExcept_map]
  have words : ∀ v : Content α, (Build.ofExcept (v.map f).word? : Build σ (Word β)) =
      List.map f <$> Build.ofExcept v.word? := fun v => by
    rw [Content.word?_map, Build.ofExcept_map]
  constructor
  case length =>
    intro v
    show Content.number <$> (v.map f).length = Content.map f <$> (Content.number <$> v.length)
    rw [length_map, Functor.map_map]
    rfl
  case bitLift =>
    intro bits
    show Content.word <$> bits.mapM A'.lift = _
    rw [mapM_eq_map f embeds.lift, word_map]
    rfl
  case bitNot =>
    intro v
    simp only [ops, entries, bind_map_left, map_bind, bitNot_map embeds, word_map]
  case bits =>
    intro op v w
    simp only [ops, entries, bind_map_left, map_bind, bitwise_map embeds, word_map]
  case concat =>
    intro vs
    simp only [ops, List.mapM_map, Function.comp_def, mapM_eq_map (List.map f) words]
    simp only [bind_map_left, map_bind, map_pure, Content.map, List.map_flatten]
  case numLift =>
    intro width value
    simp only [ops, lifted_eq_lift]
    show Content.word <$> (Bits.ofInt value width).mapM A'.lift = _
    rw [mapM_eq_map f embeds.lift, word_map]
    rfl
  case numNeg =>
    intro v
    simp only [ops, entries, embeds.unit, bind_map_left, map_bind, rippleNeg_map embeds, word_map]
  case num =>
    intro op v w
    simp only [ops, entries, bind_map_left, map_bind, arithmetic_map embeds, word_map]

end Word

end BoolCalculus
