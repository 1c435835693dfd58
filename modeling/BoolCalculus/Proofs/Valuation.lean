import BoolCalculus.GateSet
import Mathlib.Order.SymmDiff

/-!
# Valuations

A valuation reads elements in a Boolean algebra. Elements may come into being while a construction
goes on, so a valuation says which elements a state has and which states come later; a later state
keeps the elements of an earlier one, with their values. `Valuation.Runs` compares the run of a construction
with an outcome that is known beforehand, and a gate set respects a valuation
(`Valuation.Respects`) if each operation that it gives itself is read as the operation of that name.
-/

namespace BoolCalculus

open scoped symmDiff

/-- A reading of elements of type `α`, which live in states of type `σ`, as elements of `B`. -/
structure Valuation (σ α B : Type) where
  /-- The state has the element. -/
  Elem : σ → α → Prop
  /-- What an element is read as in a state. -/
  value : σ → α → B
  /-- The second state may be reached from the first. -/
  Later : σ → σ → Prop
  later_refl : ∀ s, Later s s
  later_trans : ∀ {s t u}, Later s t → Later t u → Later s u
  elem_later : ∀ {s t a}, Later s t → Elem s a → Elem t a
  value_later : ∀ {s t a}, Later s t → Elem s a → value t a = value s a

namespace Valuation

variable {σ α B β β' γ γ' : Type}

/-- The reading of elements by a function, in whatever state. -/
def ofFn (h : α → B) : Valuation σ α B where
  Elem _ _ := True
  value _ := h
  Later _ _ := True
  later_refl _ := trivial
  later_trans _ _ := trivial
  elem_later _ _ := trivial
  value_later _ _ := rfl

variable (V : Valuation σ α B)

/-- In a state, an element is there and is read as `x`. -/
def Is (s : σ) (a : α) (x : B) : Prop :=
  V.Elem s a ∧ V.value s a = x

/-- A construction, run from `s`, has the given outcome: it fails with that very fault, or its result is
related to the given one in the state where it ends. That state is later than `s` in both cases. -/
inductive Runs (Rel : σ → β → γ → Prop) (s : σ) (act : Build σ β) : Except Fault γ → Prop
  | ok {b : β} {c : γ} {t : σ} (run : act.runFrom s = (.ok b, t)) (later : V.Later s t)
      (related : Rel t b c) : Runs Rel s act (.ok c)
  | error {f : Fault} {t : σ} (run : act.runFrom s = (.error f, t)) (later : V.Later s t) :
      Runs Rel s act (.error f)

variable {V} {s t : σ} {Rel : σ → β → γ → Prop} {Rel' : σ → β' → γ' → Prop}

/-- What an element is read as does not change when the state goes on. -/
theorem Is.later {a : α} {x : B} (h : V.Is s a x) (later : V.Later s t) : V.Is t a x :=
  ⟨V.elem_later later h.1, (V.value_later later h.1).trans h.2⟩

namespace Runs

theorem pure {b : β} {c : γ} (related : Rel s b c) : V.Runs Rel s (pure b) (.ok c) :=
  .ok rfl (V.later_refl s) related

theorem throw (f : Fault) : V.Runs Rel s (throw f) (.error f) :=
  .error rfl (V.later_refl s)

/-- What a result is related to may be put in another way. -/
theorem relate {act : Build σ β} {Rel' : σ → β → γ' → Prop} {c : γ} {c' : γ'}
    (runs : V.Runs Rel s act (.ok c)) (related : ∀ {t b}, Rel t b c → Rel' t b c') :
    V.Runs Rel' s act (.ok c') := by
  cases runs with
  | ok run later is => exact .ok run later (related is)

/-- A check has its own outcome. -/
theorem ofExcept {r : Except Fault β} {Rel : σ → β → β → Prop} (same : ∀ b, Rel s b b) :
    V.Runs Rel s (.ofExcept r) r := by
  cases r with
  | error f => exact .error rfl (V.later_refl s)
  | ok b => exact .ok rfl (V.later_refl s) (same b)

/-- The rule for a first construction that succeeds. -/
theorem bind_ok {act : Build σ β} {next : β → Build σ β'} {c : γ} {r : Except Fault γ'}
    (first : V.Runs Rel s act (.ok c))
    (rest : ∀ {t b}, V.Later s t → Rel t b c → V.Runs Rel' t (next b) r) :
    V.Runs Rel' s (act >>= next) r := by
  cases first with
  | ok run later related =>
      cases rest later related with
      | ok run' later' related' =>
          exact .ok ((Build.runFrom_bind_ok run).trans run') (V.later_trans later later') related'
      | error run' later' =>
          exact .error ((Build.runFrom_bind_ok run).trans run') (V.later_trans later later')

/-- What follows a construction is compared with what follows its outcome, from a later state. -/
theorem bind {act : Build σ β} {next : β → Build σ β'} {r : Except Fault γ}
    {next' : γ → Except Fault γ'} (first : V.Runs Rel s act r)
    (rest : ∀ {t b c}, V.Later s t → Rel t b c → V.Runs Rel' t (next b) (next' c)) :
    V.Runs Rel' s (act >>= next) (r >>= next') := by
  cases r with
  | error f =>
      cases first with
      | error run later => exact .error (Build.runFrom_bind_error run) later
  | ok c => exact first.bind_ok fun later related => rest later related

end Runs

/-! ## Truth values -/

theorem bne_eq_symmDiff : ((· != ·) : Bool → Bool → Bool) = (· ∆ ·) := by
  funext a b
  revert a b
  decide

theorem beq_eq_bihimp : ((· == ·) : Bool → Bool → Bool) = (· ⇔ ·) := by
  funext a b
  revert a b
  decide

theorem not_or_eq_himp : ((!· || ·) : Bool → Bool → Bool) = (· ⇨ ·) := by
  funext a b
  revert a b
  decide

/-! ## Gate sets -/

section

variable (V)

/-- Every run makes an element that is read as `x`. -/
def Constant (act : Build σ α) (x : B) : Prop :=
  ∀ s, V.Runs V.Is s act (.ok x)

/-- A gate with one operand is read as `g`. -/
def Unary (f : α → Build σ α) (g : B → B) : Prop :=
  ∀ ⦃s a x⦄, V.Is s a x → V.Runs V.Is s (f a) (.ok (g x))

/-- A gate with two operands is read as `g`. -/
def Binary (f : α → α → Build σ α) (g : B → B → B) : Prop :=
  ∀ ⦃s a b x y⦄, V.Is s a x → V.Is s b y → V.Runs V.Is s (f a b) (.ok (g x y))

/-- A gate with three operands is read as `g`. -/
def Ternary (f : α → α → α → Build σ α) (g : B → B → B → B) : Prop :=
  ∀ ⦃s a b c x y z⦄, V.Is s a x → V.Is s b y → V.Is s c z → V.Runs V.Is s (f a b c) (.ok (g x y z))

variable [BooleanAlgebra B]

/-- At least two of three. -/
def majority (x y z : B) : B :=
  x ⊓ y ⊔ x ⊓ z ⊔ y ⊓ z

/-- What a gate with two operands is read as. -/
def binaryOp : GateSet.Binary → B → B → B
  | .or => (· ⊔ ·)
  | .and => (· ⊓ ·)
  | .xor | .add => (· ∆ ·)
  | .equ => (· ⇔ ·)
  | .imp | .leq => (· ⇨ ·)

/-- What a gate with three operands is read as. -/
def ternaryOp : GateSet.Ternary → B → B → B → B
  | .ad3 => (· ∆ · ∆ ·)
  | .maj => majority

/-- The valuation commutes with the four primitives, and with every other operation of the gate set that is
not the derivation from the others. -/
structure Respects (A : GateSet σ α) : Prop where
  lift : ∀ b, V.Constant (A.lift b) (if b then ⊤ else ⊥)
  not : V.Unary A.not (·ᶜ)
  or : V.Binary A.or (· ⊔ ·)
  and : V.Binary A.and (· ⊓ ·)
  xor : A.xor = Derived.xor A.or A.and A.not ∨ V.Binary A.xor (· ∆ ·)
  equ : A.equ = Derived.equ A.not A.xor ∨ V.Binary A.equ (· ⇔ ·)
  imp : A.imp = Derived.imp A.or A.not ∨ V.Binary A.imp (· ⇨ ·)
  add : A.add = A.xor ∨ V.Binary A.add (· ∆ ·)
  leq : A.leq = A.imp ∨ V.Binary A.leq (· ⇨ ·)
  zero : A.zero = A.lift false ∨ V.Constant A.zero ⊥
  unit : A.unit = A.lift true ∨ V.Constant A.unit ⊤
  ad3 : A.ad3 = Derived.ad3 A.add ∨ V.Ternary A.ad3 (· ∆ · ∆ ·)
  maj : A.maj = Derived.maj A.or A.and ∨ V.Ternary A.maj majority

end

variable [BooleanAlgebra B] {or and add xor : α → α → Build σ α} {not : α → Build σ α}

/-- The difference derived from the three primitives is read as the symmetric difference. -/
theorem Binary.derivedXor (hor : V.Binary or (· ⊔ ·)) (hand : V.Binary and (· ⊓ ·))
    (hnot : V.Unary not (·ᶜ)) : V.Binary (Derived.xor or and not) (· ∆ ·) := by
  intro s a b x y ha hb
  refine (hor ha hb).bind_ok fun later either => ?_
  refine (hand (ha.later later) (hb.later later)).bind_ok fun second both => ?_
  refine (hnot both).bind_ok fun third notBoth => ?_
  show V.Runs V.Is _ _ (.ok (x ∆ y))
  rw [symmDiff_eq_sup_sdiff_inf, sdiff_eq]
  exact hand (either.later (V.later_trans second third)) notBoth

theorem Binary.derivedEqu (hnot : V.Unary not (·ᶜ)) (hxor : V.Binary xor (· ∆ ·)) :
    V.Binary (Derived.equ not xor) (· ⇔ ·) := by
  intro s a b x y ha hb
  refine (hxor ha hb).bind_ok fun _ differ => ?_
  show V.Runs V.Is _ _ (.ok (x ⇔ y))
  rw [← compl_symmDiff]
  exact hnot differ

theorem Binary.derivedImp (hor : V.Binary or (· ⊔ ·)) (hnot : V.Unary not (·ᶜ)) :
    V.Binary (Derived.imp or not) (· ⇨ ·) := by
  intro s a b x y ha hb
  refine (hnot ha).bind_ok fun later notA => ?_
  show V.Runs V.Is _ _ (.ok (x ⇨ y))
  rw [himp_eq, sup_comm]
  exact hor notA (hb.later later)

/-- Two additions in a row are read as the sum of three. -/
theorem Ternary.derivedAd3 (hadd : V.Binary add (· ∆ ·)) :
    V.Ternary (Derived.ad3 add) (· ∆ · ∆ ·) := by
  intro s a b c x y z ha hb hc
  exact (hadd ha hb).bind_ok fun later sum => hadd sum (hc.later later)

/-- The derived majority is read as the carry of three bits. -/
theorem Ternary.derivedMaj (hor : V.Binary or (· ⊔ ·)) (hand : V.Binary and (· ⊓ ·)) :
    V.Ternary (Derived.maj or and) majority := by
  intro s a b c x y z ha hb hc
  refine (hand ha hb).bind_ok fun first ab => ?_
  refine (hand (ha.later first) (hc.later first)).bind_ok fun second ac => ?_
  have both := V.later_trans first second
  refine (hand (hb.later both) (hc.later both)).bind_ok fun third bc => ?_
  refine (hor (ab.later (V.later_trans second third)) (ac.later third)).bind_ok
    fun fourth either => ?_
  exact hor either (bc.later fourth)

namespace Respects

variable {A : GateSet σ α}

/-- A gate set that gives no more than the four primitives respects a valuation that commutes with them. -/
theorem ofPrimitives {lift : Bool → Build σ α} {not : α → Build σ α}
    {or and : α → α → Build σ α} (hlift : ∀ b, V.Constant (lift b) (if b then ⊤ else ⊥))
    (hnot : V.Unary not (·ᶜ)) (hor : V.Binary or (· ⊔ ·)) (hand : V.Binary and (· ⊓ ·)) :
    V.Respects (GateSet.ofPrimitives lift not or and) where
  lift := hlift
  not := hnot
  or := hor
  and := hand
  xor := .inl rfl
  equ := .inl rfl
  imp := .inl rfl
  add := .inl rfl
  leq := .inl rfl
  zero := .inl rfl
  unit := .inl rfl
  ad3 := .inl rfl
  maj := .inl rfl

/-- What holds of the derivation of a gate, and of the gate where it is given itself, holds of the gate. -/
theorem of_derived {P : γ → Prop} {gate derivation : γ} (h : gate = derivation ∨ P gate)
    (derived : P derivation) : P gate := by
  rcases h with same | given
  · rw [same]
    exact derived
  · exact given

theorem reads_xor (h : V.Respects A) : V.Binary A.xor (· ∆ ·) :=
  of_derived (P := (V.Binary · (· ∆ ·))) h.xor (.derivedXor h.or h.and h.not)

theorem reads_equ (h : V.Respects A) : V.Binary A.equ (· ⇔ ·) :=
  of_derived (P := (V.Binary · (· ⇔ ·))) h.equ (.derivedEqu h.not h.reads_xor)

theorem reads_imp (h : V.Respects A) : V.Binary A.imp (· ⇨ ·) :=
  of_derived (P := (V.Binary · (· ⇨ ·))) h.imp (.derivedImp h.or h.not)

theorem reads_add (h : V.Respects A) : V.Binary A.add (· ∆ ·) :=
  of_derived (P := (V.Binary · (· ∆ ·))) h.add h.reads_xor

theorem reads_leq (h : V.Respects A) : V.Binary A.leq (· ⇨ ·) :=
  of_derived (P := (V.Binary · (· ⇨ ·))) h.leq h.reads_imp

theorem reads_zero (h : V.Respects A) : V.Constant A.zero ⊥ :=
  of_derived (P := (V.Constant · ⊥)) h.zero (h.lift false)

theorem reads_unit (h : V.Respects A) : V.Constant A.unit ⊤ :=
  of_derived (P := (V.Constant · ⊤)) h.unit (h.lift true)

theorem reads_ad3 (h : V.Respects A) : V.Ternary A.ad3 (· ∆ · ∆ ·) :=
  of_derived (P := (V.Ternary · (· ∆ · ∆ ·))) h.ad3 (.derivedAd3 h.reads_add)

theorem reads_maj (h : V.Respects A) : V.Ternary A.maj majority :=
  of_derived (P := (V.Ternary · majority)) h.maj (.derivedMaj h.or h.and)

/-- Every binary gate is read as its operation on the algebra, whether it is given or derived. -/
theorem reads_binary (h : V.Respects A) (gate : GateSet.Binary) :
    V.Binary (A.binary gate) (binaryOp gate) := by
  cases gate with
  | or => exact h.or
  | and => exact h.and
  | xor => exact h.reads_xor
  | equ => exact h.reads_equ
  | imp => exact h.reads_imp
  | add => exact h.reads_add
  | leq => exact h.reads_leq

theorem reads_ternary (h : V.Respects A) (gate : GateSet.Ternary) :
    V.Ternary (A.ternary gate) (ternaryOp gate) := by
  cases gate with
  | ad3 => exact h.reads_ad3
  | maj => exact h.reads_maj

end Respects

end Valuation

/-! ## Elements that are read as they are -/

variable {σ α β : Type}

/-- A construction, run from `s`, succeeds with `b`. -/
def Build.Yields (act : Build σ β) (s : σ) (b : β) : Prop :=
  (act.runFrom s).1 = .ok b

/-- Two constructions, run from `s`, succeed with the same result. -/
def Build.Agree (s : σ) (act act' : Build σ β) : Prop :=
  ∃ b, act.Yields s b ∧ act'.Yields s b

/-- The gates compute the operations of a Boolean algebra, in whatever state. -/
def GateSet.Lawful [BooleanAlgebra α] (A : GateSet σ α) : Prop :=
  (Valuation.ofFn id).Respects A

/-- The operations of a Boolean algebra as gates that keep the state. -/
def GateSet.ofAlgebra [BooleanAlgebra α] : GateSet σ α :=
  .ofPrimitives (fun b => pure (if b then ⊤ else ⊥)) (fun a => pure aᶜ) (fun a b => pure (a ⊔ b))
    (fun a b => pure (a ⊓ b))

/-- The gates of a Boolean algebra compute that algebra. -/
theorem GateSet.lawful_ofAlgebra [BooleanAlgebra α] : (ofAlgebra : GateSet σ α).Lawful := by
  refine .ofPrimitives ?_ ?_ ?_ ?_
  · intro b s
    exact .pure ⟨trivial, rfl⟩
  · rintro s a _ ⟨_, rfl⟩
    exact .pure ⟨trivial, rfl⟩
  · rintro s a b _ _ ⟨_, rfl⟩ ⟨_, rfl⟩
    exact .pure ⟨trivial, rfl⟩
  · rintro s a b _ _ ⟨_, rfl⟩ ⟨_, rfl⟩
    exact .pure ⟨trivial, rfl⟩

end BoolCalculus
