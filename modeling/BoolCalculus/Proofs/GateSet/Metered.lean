import BoolCalculus.Proofs.Outcome

/-!
# Metered gate sets

A metered gate set counts the calls of its primitives and derives everything else, so what a construction over it
counts is the number of primitives that the construction calls. `Build.CallsExactly` compares a construction with the one
over the gate set itself: it has the same outcome, and the count is known beforehand. A gate calls what its derivation
calls (`GateSet.meters_metered`).
-/

namespace BoolCalculus

variable {σ α β γ : Type} {E : Fault → Prop} {P : β → Prop} {Q : γ → Prop} {k l : Nat}

/-- A state together with the number of calls that were made. -/
structure Metered (σ : Type) where
  state : σ
  calls : Nat

/-- Makes a call and counts it, whether it has a result or fails. -/
def Metered.call (act : Build σ β) : Build (Metered σ) β :=
  .onPart state (fun s m => ⟨s, m.calls + 1⟩) act

/-- The gate set whose primitives are those of another one, metered. Everything else is derived. -/
def GateSet.metered (A : GateSet σ α) : GateSet (Metered σ) α :=
  .ofPrimitives (fun b => Metered.call (A.lift b)) (fun a => Metered.call (A.not a))
    (fun a b => Metered.call (A.or a b)) fun a b => Metered.call (A.and a b)

namespace Build

/-- The first construction does what the second one does: it makes the same thing, of which `P` holds, and then has counted
exactly `k` calls, or it fails with the same fault in `E`, and has counted no more than these. -/
structure CallsExactly (E : Fault → Prop) (k : Nat) (P : β → Prop) (metered : Build (Metered σ) β) (act : Build σ β) :
    Prop where
  run : ∀ m, match act.runFrom m.state with
    | (.ok b, t) => P b ∧ metered.runFrom m = (.ok b, ⟨t, m.calls + k⟩)
    | (.error f, t) => E f ∧ ∃ j ≤ k, metered.runFrom m = (.error f, ⟨t, m.calls + j⟩)

namespace CallsExactly

variable {metered : Build (Metered σ) β} {act : Build σ β}

theorem pure {b : β} (holds : P b) : CallsExactly E 0 P (pure b : Build (Metered σ) β) (pure b) where
  run _ := ⟨holds, rfl⟩

theorem ofExcept {r : Except Fault β} (made : (.ofExcept r : Build σ β).Makes E P) :
    CallsExactly E 0 P (.ofExcept r : Build (Metered σ) β) (.ofExcept r) := by
  refine ⟨fun m => ?_⟩
  have outcome := made m.state
  cases r with
  | error f => exact ⟨outcome, 0, Nat.le_refl 0, rfl⟩
  | ok b => exact ⟨outcome, rfl⟩

theorem call (made : act.Makes E P) : CallsExactly E 1 P (Metered.call act) act := by
  refine ⟨fun m => ?_⟩
  have outcome := made m.state
  have counted : (Metered.call act).runFrom m = ((act.runFrom m.state).1, ⟨(act.runFrom m.state).2, m.calls + 1⟩) :=
    runFrom_onPart _ _ act m
  rcases run : act.runFrom m.state with ⟨f | b, t⟩
  all_goals rw [run] at outcome counted
  · exact ⟨outcome, 1, Nat.le_refl 1, counted⟩
  · exact ⟨outcome, counted⟩

theorem bind {next : β → Build (Metered σ) γ} {next' : β → Build σ γ} (first : CallsExactly E k P metered act)
    (rest : ∀ b, P b → CallsExactly E l Q (next b) (next' b)) :
    CallsExactly E (k + l) Q (metered >>= next) (act >>= next') := by
  refine ⟨fun m => ?_⟩
  have here := first.run m
  rcases run : act.runFrom m.state with ⟨f | b, t⟩
  all_goals rw [run] at here
  -- After a failure nothing is called, so the count stays where it was.
  · obtain ⟨tolerated, j, few, failed⟩ := here
    rw [runFrom_bind_error run]
    exact ⟨tolerated, j, Nat.le_add_right_of_le few, runFrom_bind_error failed⟩
  · obtain ⟨holds, done⟩ := here
    rw [runFrom_bind_ok run, runFrom_bind_ok done]
    have there : match (next' b).runFrom t with
      | (.ok c, u) => Q c ∧ (next b).runFrom ⟨t, m.calls + k⟩ = (.ok c, ⟨u, m.calls + k + l⟩)
      | (.error f, u) => E f ∧ ∃ j ≤ l, (next b).runFrom ⟨t, m.calls + k⟩ = (.error f, ⟨u, m.calls + k + j⟩) :=
      (rest b holds).run ⟨t, m.calls + k⟩
    rcases run' : (next' b).runFrom t with ⟨f | c, u⟩
    all_goals rw [run'] at there
    · obtain ⟨tolerated, j, few, failed⟩ := there
      exact ⟨tolerated, k + j, Nat.add_le_add_left few k, by rw [failed, Nat.add_assoc]⟩
    · obtain ⟨holds', done'⟩ := there
      exact ⟨holds', by rw [done', Nat.add_assoc]⟩

theorem weaken {P' : β → Prop} (calls : CallsExactly E k P metered act) (weaker : ∀ b, P b → P' b) :
    CallsExactly E k P' metered act := by
  refine ⟨fun m => ?_⟩
  have outcome := calls.run m
  rcases run : act.runFrom m.state with ⟨f | b, t⟩
  all_goals rw [run] at outcome
  · exact outcome
  · exact ⟨weaker b outcome.1, outcome.2⟩

theorem of_eq (calls : CallsExactly E k P metered act) (same : k = l) : CallsExactly E l P metered act :=
  same ▸ calls

/-- The items of a vector are made one after the other. -/
theorem ofFnM {n : Nat} {f : Fin n → Build (Metered σ) β} {g : Fin n → Build σ β}
    (each : ∀ i, CallsExactly E k P (f i) (g i)) :
    CallsExactly E (n * k) (fun _ => True) (Vector.ofFnM f) (Vector.ofFnM g) := by
  induction n with
  | zero =>
      rw [Vector.ofFnM_zero, Vector.ofFnM_zero, Nat.zero_mul]
      exact .pure trivial
  | succ n ih =>
      rw [Vector.ofFnM_succ, Vector.ofFnM_succ]
      have before := ih fun i => each i.castSucc
      refine of_eq ?_ (Nat.succ_mul n k).symm
      exact before.bind fun bs _ => (each (Fin.last n)).bind fun b _ => .pure trivial

/-- The steps of a fold are made one after the other. -/
theorem foldlM {n : Nat} {f : β → Fin n → Build (Metered σ) β} {g : β → Fin n → Build σ β}
    (each : ∀ b i, CallsExactly E k (fun _ => True) (f b i) (g b i)) (start : β) :
    CallsExactly E (n * k) (fun _ => True) (Fin.foldlM n f start) (Fin.foldlM n g start) := by
  induction n generalizing start with
  | zero =>
      rw [Fin.foldlM_zero, Fin.foldlM_zero, Nat.zero_mul]
      exact .pure trivial
  | succ n ih =>
      rw [Fin.foldlM_succ, Fin.foldlM_succ]
      have steps := (each start 0).bind fun b _ => ih (fun b i => each b i.succ) b
      exact steps.of_eq ((Nat.add_comm k _).trans (Nat.succ_mul n k).symm)

/-- What cannot fail has a result, and its calls are counted. -/
theorem counts (calls : CallsExactly (fun _ => False) k P metered act) (m : Metered σ) :
    ∃ b t, act.runFrom m.state = (.ok b, t) ∧ P b ∧ metered.runFrom m = (.ok b, ⟨t, m.calls + k⟩) := by
  have outcome := calls.run m
  rcases run : act.runFrom m.state with ⟨f | b, t⟩
  all_goals rw [run] at outcome
  · exact outcome.1.elim
  · exact ⟨b, t, rfl, outcome⟩

end CallsExactly

end Build

/-! ## Gates -/

namespace GateSet

/-- The number of primitives that a gate calls. -/
def Binary.cost : Binary → Nat
  | .or | .and => 1
  | .xor | .add => 4
  | .equ => 5
  | .imp | .leq => 2

/-- The number of primitives that a gate calls. -/
def Ternary.cost : Ternary → Nat
  | .ad3 => 8
  | .maj => 5

/-- The gates of the first gate set do what those of the second one do, and count the primitives that they call. -/
structure Meters (E : Fault → Prop) (M : GateSet (Metered σ) α) (A : GateSet σ α) : Prop where
  lift : ∀ b, Build.CallsExactly E 1 (fun _ => True) (M.lift b) (A.lift b)
  not : ∀ a, Build.CallsExactly E 1 (fun _ => True) (M.not a) (A.not a)
  zero : Build.CallsExactly E 1 (fun _ => True) M.zero A.zero
  unit : Build.CallsExactly E 1 (fun _ => True) M.unit A.unit
  binary : ∀ gate a b, Build.CallsExactly E gate.cost (fun _ => True) (M.binary gate a b) (A.binary gate a b)
  ternary : ∀ gate a b c, Build.CallsExactly E gate.cost (fun _ => True) (M.ternary gate a b c) (A.ternary gate a b c)

/-- Derivations call what their parts call. -/
theorem Meters.ofPrimitives {lift : Bool → Build (Metered σ) α} {not : α → Build (Metered σ) α}
    {or and : α → α → Build (Metered σ) α} {lift' : Bool → Build σ α} {not' : α → Build σ α}
    {or' and' : α → α → Build σ α} (hlift : ∀ b, Build.CallsExactly E 1 (fun _ => True) (lift b) (lift' b))
    (hnot : ∀ a, Build.CallsExactly E 1 (fun _ => True) (not a) (not' a))
    (hor : ∀ a b, Build.CallsExactly E 1 (fun _ => True) (or a b) (or' a b))
    (hand : ∀ a b, Build.CallsExactly E 1 (fun _ => True) (and a b) (and' a b)) :
    (GateSet.ofPrimitives lift not or and).Meters E (.ofPrimitives lift' not' or' and') := by
  have hxor : ∀ a b, Build.CallsExactly E 4 (fun _ => True) (Derived.xor or and not a b)
      (Derived.xor or' and' not' a b) := fun a b =>
    (hor a b).bind fun either _ => (hand a b).bind fun both _ => (hnot both).bind fun notBoth _ => hand either notBoth
  have himp : ∀ a b, Build.CallsExactly E 2 (fun _ => True) (Derived.imp or not a b) (Derived.imp or' not' a b) :=
    fun a b => (hnot a).bind fun notA _ => hor notA b
  constructor
  case lift => exact hlift
  case not => exact hnot
  case zero => exact hlift false
  case unit => exact hlift true
  case binary =>
    intro gate a b
    cases gate with
    | or => exact hor a b
    | and => exact hand a b
    | xor => exact hxor a b
    | equ => exact (hxor a b).bind fun differ _ => hnot differ
    | imp => exact himp a b
    | add => exact hxor a b
    | leq => exact himp a b
  case ternary =>
    intro gate a b c
    cases gate with
    | ad3 => exact (hxor a b).bind fun sum _ => hxor sum c
    | maj =>
        exact (hand a b).bind fun ab _ => (hand a c).bind fun ac _ => (hand b c).bind fun bc _ =>
          (hor ab ac).bind fun either _ => hor either bc

/-- A gate set that derives all but its primitives. -/
def IsDerived (A : GateSet σ α) : Prop :=
  A = .ofPrimitives A.lift A.not A.or A.and

theorem meters_metered {A : GateSet σ α} (derived : A.IsDerived) (gates : A.FailsWithin E) : A.metered.Meters E A := by
  have meters : A.metered.Meters E (.ofPrimitives A.lift A.not A.or A.and) :=
    .ofPrimitives (fun b => .call (gates.lift b)) (fun a => .call (gates.not a))
      (fun a b => .call (gates.binary .or a b)) fun a b => .call (gates.binary .and a b)
  rw [IsDerived] at derived
  rwa [← derived] at meters

end GateSet

end BoolCalculus
