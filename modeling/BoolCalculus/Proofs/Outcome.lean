import BoolCalculus.Circuit
import Mathlib.Data.List.Forall2

/-!
# Outcomes of constructions

`Build.Makes` says what a construction makes, from whatever state, and with which faults it may fail, `Build.Ends` also
which state it leaves in either case, and `Build.Checks` that it touches no state.
`Build.Follows` compares two constructions over states of their own: the first has the outcome of the second, up to
faults that are tolerated.
-/

namespace BoolCalculus

variable {σ τ α β β' γ γ' : Type} {E E' : Fault → Prop}

namespace Build

/-- From every state, a construction makes something with `P` or fails with a fault in `E`. -/
def Makes (E : Fault → Prop) (P : β → Prop) (act : Build σ β) : Prop :=
  ∀ s, match (act.runFrom s).1 with
    | .ok b => P b
    | .error f => E f

namespace Makes

variable {P P' : β → Prop} {Q : γ → Prop} {act : Build σ β}

theorem pure {b : β} (holds : P b) : Makes E P (pure b : Build σ β) :=
  fun _ => holds

theorem throw {f : Fault} (holds : E f) : Makes E P (throw f : Build σ β) :=
  fun _ => holds

theorem bind {next : β → Build σ γ} (first : act.Makes E P) (rest : ∀ b, P b → (next b).Makes E Q) :
    (act >>= next).Makes E Q := by
  intro s
  have outcome := first s
  rcases run : act.runFrom s with ⟨f | b, t⟩
  all_goals rw [run] at outcome
  · rw [runFrom_bind_error run]
    exact outcome
  · rw [runFrom_bind_ok run]
    exact rest b outcome t

theorem mono (made : act.Makes E P) (more : ∀ f, E f → E' f) (weaker : ∀ b, P b → P' b) :
    act.Makes E' P' := by
  intro s
  have outcome := made s
  rcases run : act.runFrom s with ⟨f | b, t⟩
  all_goals rw [run] at outcome
  · exact more f outcome
  · exact weaker b outcome

theorem weaken (made : act.Makes E P) (weaker : ∀ b, P b → P' b) : act.Makes E P' :=
  made.mono (fun _ => id) weaker

theorem map_iff {f : β → γ} : (f <$> act).Makes E Q ↔ act.Makes E fun b => Q (f b) := by
  rw [map_eq_pure_bind]
  constructor
  · intro made s
    have outcome := made s
    rcases run : act.runFrom s with ⟨fault | b, t⟩
    · rwa [runFrom_bind_error run] at outcome
    · rwa [runFrom_bind_ok run] at outcome
  · exact fun made => made.bind fun _ => pure

theorem and (made : act.Makes E P) (made' : act.Makes E P') : act.Makes E fun b => P b ∧ P' b := by
  intro s
  have outcome := made s
  have outcome' := made' s
  rcases run : act.runFrom s with ⟨f | b, t⟩
  all_goals rw [run] at outcome outcome'
  · exact outcome
  · exact ⟨outcome, outcome'⟩

/-- What cannot fail has a result. -/
theorem succeeds (made : act.Makes (fun _ => False) P) (s : σ) :
    ∃ b t, act.runFrom s = (.ok b, t) ∧ P b := by
  have outcome := made s
  rcases run : act.runFrom s with ⟨f | b, t⟩
  all_goals rw [run] at outcome
  · exact outcome.elim
  · exact ⟨b, t, rfl, outcome⟩

/-- What runs over a part of the state makes what it makes over that part alone. -/
theorem onPart (made : act.Makes E P) (read : τ → σ) (write : σ → τ → τ) :
    (Build.onPart read write act).Makes E P := by
  intro s
  rw [runFrom_onPart]
  exact made (read s)

theorem listFoldlM {P : β → Prop} {f : β → γ → Build σ β} {xs : List γ}
    (each : ∀ b, P b → ∀ x ∈ xs, (f b x).Makes E P) {b : β} (start : P b) : (xs.foldlM f b).Makes E P := by
  induction xs generalizing b with
  | nil => exact .pure start
  | cons x xs ih =>
      rw [List.foldlM_cons]
      refine (each b start x List.mem_cons_self).bind fun c next => ?_
      exact ih (fun c next y member => each c next y (List.mem_cons_of_mem x member)) next

/-- As many results are made as there are items. -/
theorem mapM {f : γ → Build σ β} {xs : List γ} (each : ∀ x, (f x).Makes E fun _ => True) :
    (xs.mapM f).Makes E fun bs => bs.length = xs.length := by
  induction xs with
  | nil => exact .pure rfl
  | cons x xs ih =>
      rw [List.mapM_cons]
      refine (each x).bind fun b _ => ih.bind fun bs length => ?_
      apply Makes.pure
      simp [length]

end Makes

/-- A construction, run from `s`, ends with a result and a state of which `Post` holds, or it fails with a fault in `E`
and leaves a state with `Left`. -/
def Ends (E : Fault → Prop) (Left : σ → Prop) (Post : β → σ → Prop) (act : Build σ β) (s : σ) : Prop :=
  match act.runFrom s with
  | (.ok b, t) => Post b t
  | (.error f, t) => E f ∧ Left t

namespace Ends

variable {Left Left' : σ → Prop} {Post Post' : β → σ → Prop} {Next : γ → σ → Prop} {s : σ}

theorem pure {b : β} (h : Post b s) : (pure b : Build σ β).Ends E Left Post s :=
  h

theorem bind {act : Build σ β} {next : β → Build σ γ} (first : act.Ends E Left Post s)
    (rest : ∀ b t, Post b t → (next b).Ends E Left Next t) : (act >>= next).Ends E Left Next s := by
  rw [Ends] at first ⊢
  rcases run : act.runFrom s with ⟨f | b, t⟩
  all_goals rw [run] at first
  · rw [runFrom_bind_error run]
    exact first
  · rw [runFrom_bind_ok run]
    exact rest b t first

theorem mono {act : Build σ β} (h : act.Ends E Left Post s) (left : ∀ t, Left t → Left' t)
    (post : ∀ b t, Post b t → Post' b t) : act.Ends E Left' Post' s := by
  rw [Ends] at h ⊢
  rcases run : act.runFrom s with ⟨f | b, t⟩
  all_goals rw [run] at h
  · exact ⟨h.1, left t h.2⟩
  · exact post b t h

/-- What holds of the state at both ends holds of the state after the run. -/
theorem after {act : Build σ β} (h : act.Ends E Left (fun _ => Left) s) : Left (act.runFrom s).2 := by
  rw [Ends] at h
  rcases run : act.runFrom s with ⟨f | b, t⟩
  all_goals rw [run] at h
  · exact h.2
  · exact h

end Ends

/-- From every state, a construction leaves the state as it is, and it fails at most with a fault in `E`. -/
def Checks (E : Fault → Prop) (act : Build σ β) : Prop :=
  ∀ s, (act.runFrom s).2 = s ∧ ∀ f, (act.runFrom s).1 = .error f → E f

namespace Checks

theorem pure (b : β) : Checks E (pure b : Build σ β) :=
  fun _ => ⟨rfl, fun _ failed => nomatch failed⟩

theorem ofExcept {r : Except Fault β} (faults : ∀ f, r = .error f → E f) :
    Checks E (.ofExcept r : Build σ β) :=
  fun _ => ⟨rfl, faults⟩

theorem bind {act : Build σ β} {next : β → Build σ γ} (first : act.Checks E)
    (rest : ∀ b, (next b).Checks E) : (act >>= next).Checks E := by
  intro s
  obtain ⟨same, faults⟩ := first s
  rcases run : act.runFrom s with ⟨f | b, t⟩
  all_goals
    rw [run] at same faults
    obtain rfl : t = s := same
  · rw [runFrom_bind_error run]
    refine ⟨rfl, fun g failed => ?_⟩
    obtain rfl := Except.error.inj failed
    exact faults f rfl
  · rw [runFrom_bind_ok run]
    exact rest b t

theorem mapM {f : γ → Build σ β} {xs : List γ} (each : ∀ x ∈ xs, (f x).Checks E) :
    (xs.mapM f).Checks E := by
  induction xs with
  | nil => exact .pure []
  | cons x xs ih =>
      rw [List.mapM_cons]
      refine (each x (.head _)).bind fun b => ?_
      exact (ih fun y member => each y (.tail _ member)).bind fun bs => .pure (b :: bs)

end Checks

/-- The outcome is the other one, with related results, or a fault in `E`. -/
inductive SameUpTo (E : Fault → Prop) (Rel : β → γ → Prop) : Except Fault β → Except Fault γ → Prop
  | ok {b : β} {c : γ} (related : Rel b c) : SameUpTo E Rel (.ok b) (.ok c)
  | error (f : Fault) : SameUpTo E Rel (.error f) (.error f)
  | tolerated {f : Fault} (holds : E f) (r : Except Fault γ) : SameUpTo E Rel (.error f) r

/-- From whatever states, the first construction has the outcome of the second, or it fails with a fault in `E`. -/
def Follows (E : Fault → Prop) (Rel : β → γ → Prop) (act : Build σ β) (act' : Build τ γ) : Prop :=
  ∀ s t, SameUpTo E Rel (act.runFrom s).1 (act'.runFrom t).1

namespace Follows

variable {Rel : β → γ → Prop} {Rel' : β' → γ' → Prop} {act : Build σ β} {act' : Build τ γ}

theorem pure {b : β} {c : γ} (related : Rel b c) :
    Follows E Rel (pure b : Build σ β) (pure c : Build τ γ) :=
  fun _ _ => .ok related

theorem throw (f : Fault) : Follows E Rel (throw f : Build σ β) (throw f : Build τ γ) :=
  fun _ _ => .error f

theorem tolerated {f : Fault} (holds : E f) (act' : Build τ γ) :
    Follows E Rel (MonadExcept.throw f : Build σ β) act' :=
  fun _ _ => .tolerated holds _

theorem ofExcept {r : Except Fault β} {r' : Except Fault γ} (same : SameUpTo E Rel r r') :
    Follows E Rel (.ofExcept r : Build σ β) (.ofExcept r' : Build τ γ) :=
  fun _ _ => same

theorem bind {next : β → Build σ β'} {next' : γ → Build τ γ'} (first : act.Follows E Rel act')
    (rest : ∀ b c, Rel b c → (next b).Follows E Rel' (next' c)) :
    (act >>= next).Follows E Rel' (act' >>= next') := by
  intro s t
  have outcome := first s t
  rcases run : act.runFrom s with ⟨r, u⟩
  rcases run' : act'.runFrom t with ⟨r', u'⟩
  rw [run, run'] at outcome
  cases outcome with
  | ok related =>
      rw [runFrom_bind_ok run, runFrom_bind_ok run']
      exact rest _ _ related u u'
  | error f =>
      rw [runFrom_bind_error run, runFrom_bind_error run']
      exact .error f
  | tolerated holds =>
      rw [runFrom_bind_error run]
      exact .tolerated holds _

theorem map {f : β → β'} {g : γ → γ'} (first : act.Follows E Rel act')
    (related : ∀ b c, Rel b c → Rel' (f b) (g c)) : (f <$> act).Follows E Rel' (g <$> act') := by
  rw [map_eq_pure_bind, map_eq_pure_bind]
  exact first.bind fun b c h => .pure (related b c h)

/-- Where nothing is tolerated, the outcomes are the same. -/
theorem succeeds {t : τ} {c : γ} (follows : act.Follows (fun _ => False) Rel act') (s : σ)
    (run : (act'.runFrom t).1 = .ok c) : ∃ b, (act.runFrom s).1 = .ok b ∧ Rel b c := by
  have outcome := follows s t
  rw [run] at outcome
  generalize (act.runFrom s).1 = r at outcome
  cases outcome with
  | ok related => exact ⟨_, rfl, related⟩
  | tolerated holds => exact holds.elim

theorem fails {t : τ} {f : Fault} (follows : act.Follows (fun _ => False) Rel act') (s : σ)
    (run : (act'.runFrom t).1 = .error f) : (act.runFrom s).1 = .error f := by
  have outcome := follows s t
  rw [run] at outcome
  generalize (act.runFrom s).1 = r at outcome
  cases outcome with
  | error f => rfl
  | tolerated holds => exact holds.elim

/-- What makes something related to `c` follows `c`. -/
theorem ofMakes {P : β → Prop} {c : γ} (made : act.Makes E P) (related : ∀ b, P b → Rel b c) :
    act.Follows E Rel (Pure.pure c : Build τ γ) := by
  intro s t
  have outcome := made s
  rcases run : act.runFrom s with ⟨f | b, u⟩
  all_goals rw [run] at outcome
  · exact .tolerated outcome _
  · exact .ok (related b outcome)

/-- What comes first on one side only makes what the rest needs. -/
theorem bind_makes {P : β → Prop} {next : β → Build σ β'} {act' : Build τ γ'}
    (made : act.Makes E P) (rest : ∀ b, P b → (next b).Follows E Rel' act') :
    (act >>= next).Follows E Rel' act' := by
  have first : act.Follows E (fun b _ => P b) (Pure.pure () : Build τ Unit) :=
    .ofMakes made fun _ => id
  have whole : (act >>= next).Follows E Rel' ((Pure.pure () : Build τ Unit) >>= fun _ => act') :=
    first.bind fun b _ holds => rest b holds
  rwa [pure_bind] at whole

theorem mapM {f : β' → Build σ β} {g : β' → Build τ γ} (xs : List β')
    (each : ∀ x, (f x).Follows E Rel (g x)) :
    (xs.mapM f).Follows E (List.Forall₂ Rel) (xs.mapM g) := by
  induction xs with
  | nil => exact .pure .nil
  | cons x xs ih =>
      rw [List.mapM_cons, List.mapM_cons]
      refine (each x).bind fun b c first => ih.bind fun bs cs rest => ?_
      exact .pure (.cons first rest)

end Follows

end Build

/-! ## Gate sets -/

/-- The gates fail with no faults but those in `E`. -/
structure GateSet.FailsWithin (E : Fault → Prop) (A : GateSet σ α) : Prop where
  lift : ∀ b, (A.lift b).Makes E fun _ => True
  not : ∀ a, (A.not a).Makes E fun _ => True
  zero : A.zero.Makes E fun _ => True
  unit : A.unit.Makes E fun _ => True
  binary : ∀ gate a b, (A.binary gate a b).Makes E fun _ => True
  ternary : ∀ gate a b c, (A.ternary gate a b c).Makes E fun _ => True

/-- The gates never fail. -/
def GateSet.Total (A : GateSet σ α) : Prop :=
  A.FailsWithin fun _ => False

theorem GateSet.Total.failsWithin {A : GateSet σ α} (total : A.Total) : A.FailsWithin E := by
  have never : ∀ {act : Build σ α}, act.Makes (fun _ => False) (fun _ => True) →
      act.Makes E fun _ => True := fun made => made.mono (fun _ => False.elim) fun _ => id
  exact ⟨fun b => never (total.lift b), fun a => never (total.not a), never total.zero,
    never total.unit, fun gate a b => never (total.binary gate a b),
    fun gate a b c => never (total.ternary gate a b c)⟩

/-- Gates that are derived from primitives fail like these. -/
theorem GateSet.FailsWithin.ofPrimitives {lift : Bool → Build σ α} {not : α → Build σ α}
    {or and : α → α → Build σ α} (hlift : ∀ b, (lift b).Makes E fun _ => True)
    (hnot : ∀ a, (not a).Makes E fun _ => True) (hor : ∀ a b, (or a b).Makes E fun _ => True)
    (hand : ∀ a b, (and a b).Makes E fun _ => True) :
    (GateSet.ofPrimitives lift not or and).FailsWithin E := by
  have hxor : ∀ a b, (Derived.xor or and not a b).Makes E fun _ => True := fun a b =>
    (hor a b).bind fun _ _ => (hand a b).bind fun _ _ => (hnot _).bind fun _ _ => hand _ _
  have hequ : ∀ a b, (Derived.equ not (Derived.xor or and not) a b).Makes E fun _ => True :=
    fun a b => (hxor a b).bind fun _ _ => hnot _
  have himp : ∀ a b, (Derived.imp or not a b).Makes E fun _ => True := fun a b =>
    (hnot a).bind fun _ _ => hor _ _
  constructor
  case lift => exact hlift
  case not => exact hnot
  case zero => exact hlift false
  case unit => exact hlift true
  case binary =>
    intro gate a b
    cases gate with
    | or => exact hor a b
    | and => exact hand a b
    | xor => exact hxor a b
    | equ => exact hequ a b
    | imp => exact himp a b
    | add => exact hxor a b
    | leq => exact himp a b
  case ternary =>
    intro gate a b c
    cases gate with
    | ad3 => exact (hxor a b).bind fun _ _ => hxor _ _
    | maj =>
        exact (hand a b).bind fun _ _ => (hand a c).bind fun _ _ => (hand b c).bind fun _ _ =>
          (hor _ _).bind fun _ _ => hor _ _

/-- The gates of a circuit never fail: each one only appends a node. -/
theorem Circuit.total_gates (handle : Nat → α) : (gates handle).Total :=
  .ofPrimitives (fun _ _ => trivial) (fun _ _ => trivial) (fun _ _ _ => trivial)
    fun _ _ _ => trivial

end BoolCalculus
