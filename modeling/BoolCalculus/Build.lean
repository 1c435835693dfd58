import BoolCalculus.Fault

/-!
# Constructions

A construction over an algebra may allocate in the state of the algebra at every step and may fail;
what was allocated before a failure stays. `Build σ β` is a construction of a `β` with state `σ`.
-/

namespace BoolCalculus

/-- A construction of a `β` that threads a state `σ` and may fail with a fault; a failure keeps the
state reached so far. -/
abbrev Build (σ β : Type) : Type :=
  ExceptT Fault (StateM σ) β

namespace Build

variable {σ τ β γ : Type}

/-- Runs a construction from a state. -/
def runFrom (act : Build σ β) (s : σ) : Except Fault β × σ :=
  act.run.run s

/-- Takes over the outcome of a check, which touches no state. -/
def ofExcept (r : Except Fault β) : Build σ β :=
  ExceptT.mk (pure r)

/-- Runs a construction over a part of the state. -/
def onPart (read : σ → τ) (write : τ → σ → σ) (act : Build τ β) : Build σ β :=
  ExceptT.mk fun s =>
    let (r, t) := act.runFrom (read s)
    (r, write t s)

@[simp] theorem runFrom_pure (b : β) (s : σ) :
    (pure b : Build σ β).runFrom s = (.ok b, s) := rfl

@[simp] theorem runFrom_throw (f : Fault) (s : σ) :
    (throw f : Build σ β).runFrom s = (.error f, s) := rfl

@[simp] theorem runFrom_ofExcept (r : Except Fault β) (s : σ) :
    (ofExcept r : Build σ β).runFrom s = (r, s) := rfl

@[simp] theorem runFrom_onPart (read : σ → τ) (write : τ → σ → σ) (act : Build τ β) (s : σ) :
    (onPart read write act).runFrom s =
      ((act.runFrom (read s)).1, write (act.runFrom (read s)).2 s) := rfl

/-- What follows a construction runs in the state that it left, unless it failed. -/
theorem runFrom_bind (act : Build σ β) (next : β → Build σ γ) (s : σ) :
    (act >>= next).runFrom s =
      match act.runFrom s with
      | (.ok b, t) => (next b).runFrom t
      | (.error f, t) => (.error f, t) := by
  rcases outcome : act.runFrom s with ⟨r, t⟩
  have outcome : StateT.run (ExceptT.run act) s = (r, t) := outcome
  change StateT.run (ExceptT.run (act >>= next)) s = _
  rw [ExceptT.run_bind, StateT.run_bind, outcome]
  cases r <;> rfl

theorem runFrom_bind_ok {act : Build σ β} {next : β → Build σ γ} {s t : σ} {b : β}
    (h : act.runFrom s = (.ok b, t)) : (act >>= next).runFrom s = (next b).runFrom t := by
  rw [runFrom_bind, h]

theorem runFrom_bind_error {act : Build σ β} {next : β → Build σ γ} {s t : σ} {f : Fault}
    (h : act.runFrom s = (.error f, t)) : (act >>= next).runFrom s = (.error f, t) := by
  rw [runFrom_bind, h]

/-- A construction is known by its runs. -/
theorem ext_runFrom {act act' : Build σ β} (h : ∀ s, act.runFrom s = act'.runFrom s) :
    act = act' :=
  funext h

end Build

end BoolCalculus
