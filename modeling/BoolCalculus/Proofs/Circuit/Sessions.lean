import BoolCalculus.Proofs.Circuit.Growth
import BoolCalculus.Proofs.Universe.Existence
import BoolCalculus.Proofs.Word.Existence

/-!
# Sessions over a circuit

A client of a gate set that allocates builds words and tensors over it, in any order and from any operands whose
handles exist. The circuit stays well-formed, nodes stay where they are, and no handle dangles, at every moment and
after operations that failed as well (`Circuit.session_wellFormed`). The reason is that every operation is a
sequence of calls of primitives on handles that exist.
-/

namespace BoolCalculus

namespace Circuit

variable {σ : Type}

/-- What a client holds: operands and results. -/
inductive Item where
  | word (v : Word.Content Nat)
  /-- A word of tensors, which should be scalars. -/
  | scalars (v : Word.Content (Tensor Nat))
  | tensor (T : Tensor Nat)
  | truth (b : Bool)

/-- The handles inside of an item. -/
def Item.handles : Item → List Nat
  | word v => v.elements
  | scalars v => v.elements.flatMap Tensor.toList
  | tensor T => T.toList
  | truth _ => []

/-- An operation with its operands: on words of handles, on words of scalars of a universe, on tensors or relations
of a universe, or the test of a scalar. -/
inductive Operation where
  | word (i : Word.Instruction (Word.Content Nat))
  | scalars (n : Nat) (i : Word.Instruction (Word.Content (Tensor Nat)))
  | tensor (n : Nat) (step : Universe.Step (Tensor Nat))
  | truthValue (n : Nat) (T : Tensor Nat)

namespace Operation

/-- The items that an operation is given. -/
def operands : Operation → List Item
  | word i => i.operands.map .word
  | scalars _ i => i.operands.map .scalars
  | tensor _ step => step.arguments.map .tensor
  | truthValue _ T => [.tensor T]

/-- Runs an operation over a gate set. -/
def run (A : GateSet σ Nat) : Operation → Build σ Item
  | word i => .word <$> i.run (Word.ops A)
  | scalars n i => .scalars <$> i.run (Word.ops (Universe.mk (TensorOps.lifted A).stored n).scalars)
  | tensor n step => .tensor <$> step.run (.mk (TensorOps.lifted A).stored n)
  | truthValue n T => .truth <$> (Universe.mk (TensorOps.lifted A).stored n).truthValue T

end Operation

/-- A moment of a session: the state, and the items that were returned so far. -/
structure Moment (σ : Type) where
  state : σ
  items : List Item

namespace Moment

/-- The moment after an operation, which returned an item or failed. -/
def after (A : GateSet σ Nat) (m : Moment σ) (op : Operation) : Moment σ :=
  match (op.run A).runFrom m.state with
  | (.ok item, t) => ⟨t, item :: m.items⟩
  | (.error _, t) => ⟨t, m.items⟩

theorem state_after (A : GateSet σ Nat) (m : Moment σ) (op : Operation) :
    (m.after A op).state = ((op.run A).runFrom m.state).2 := by
  rw [after]
  rcases (op.run A).runFrom m.state with ⟨f | item, t⟩ <;> rfl

/-- All handles of an item are those of nodes. -/
def Holds (nodes : σ → Circuit Nat) (m : Moment σ) (item : Item) : Prop :=
  ∀ a ∈ item.handles, a < (nodes m.state).size

instance (nodes : σ → Circuit Nat) (m : Moment σ) (item : Item) : Decidable (m.Holds nodes item) :=
  inferInstanceAs (Decidable (∀ a ∈ item.handles, a < (nodes m.state).size))

/-- What a client does next: it makes an input, calls a primitive, or calls an operation. The
handles that it gives exist. -/
inductive Next (A : GateSet σ Nat) (nodes : σ → Circuit Nat) (m : Moment σ) : Moment σ → Prop
  | input {t : σ} (made : nodes t = (nodes m.state).push .input) : Next A nodes m ⟨t, m.items⟩
  | gate {t : σ} (calls : A.Calls nodes m.state t) : Next A nodes m ⟨t, m.items⟩
  | operation (op : Operation) (there : ∀ item ∈ op.operands, m.Holds nodes item) :
      Next A nodes m (m.after A op)

/-- The second moment comes after the first in a session. -/
abbrev Session (A : GateSet σ Nat) (nodes : σ → Circuit Nat) : Moment σ → Moment σ → Prop :=
  Relation.ReflTransGen (Next A nodes)

/-- Calls of primitives make a session, in which nothing is returned. -/
theorem session_of_reaches {A : GateSet σ Nat} {nodes : σ → Circuit Nat} {m : Moment σ} {t : σ}
    (reaches : A.Reaches nodes m.state t) : m.Session A nodes ⟨t, m.items⟩ := by
  induction reaches with
  | refl => exact .refl
  | tail _ calls ih => exact ih.tail (.gate calls)

/-- The circuit is well-formed, and every handle that was returned is that of a node. -/
structure Sound (nodes : σ → Circuit Nat) (m : Moment σ) : Prop where
  wellFormed : (nodes m.state).WellFormed
  holds : ∀ item ∈ m.items, m.Holds nodes item

end Moment

end Circuit

namespace GateSet.Allocates

open Circuit Circuit.Moment

variable {σ : Type} {A : GateSet σ Nat} {nodes : σ → Circuit Nat} (allocates : A.Allocates nodes)
variable {s : σ} {m m' : Moment σ}

include allocates

/-- The handles inside of a tensor exist if the tensor does. -/
theorem tensors_elem {T : Tensor Nat} :
    allocates.handles.tensors.Elem s T ↔ ∀ a ∈ T.toList, a < (nodes s).size :=
  Tensor.forall_mem_toList.symm

/-- The handles inside of a word of tensors exist if the tensors do. -/
theorem tensors_all {v : Word.Content (Tensor Nat)} :
    allocates.handles.tensors.All s v.elements ↔
      ∀ a ∈ (Item.scalars v).handles, a < (nodes s).size := by
  rw [Item.handles, List.forall_mem_flatMap]
  exact forall₂_congr fun T _ => allocates.tensors_elem

/-- On items whose handles exist, an operation calls primitives on handles that exist, and returns an item whose
handles exist. -/
theorem keeps_operation {op : Operation} (there : ∀ item ∈ op.operands, m.Holds nodes item) :
    allocates.handles.Keeps (fun t item => ∀ a ∈ item.handles, a < (nodes t).size) m.state
      (op.run A) := by
  have respects := allocates.respects
  cases op with
  | word i =>
      refine (respects.closed.keeps_instruction fun v member => ?_).map id
      exact there (.word v) (List.mem_map_of_mem member)
  | scalars n i =>
      refine ((respects.closed_scalars n).keeps_instruction fun v member => ?_).map
        allocates.tensors_all.1
      exact allocates.tensors_all.2 (there (.scalars v) (List.mem_map_of_mem member))
  | tensor n step =>
      refine (respects.keeps_step n fun T member => ?_).map allocates.tensors_elem.1
      exact allocates.tensors_elem.2 (there (.tensor T) (List.mem_map_of_mem member))
  | truthValue n T =>
      exact (Valuation.keeps_truthValue _ T).map fun _ => List.forall_mem_nil _

/-- An operation on what is held reaches its state by calls of gates. -/
theorem reaches_after {op : Operation} (there : ∀ item ∈ op.operands, m.Holds nodes item) :
    A.Reaches nodes m.state (m.after A op).state := by
  rw [state_after]
  exact (allocates.keeps_operation there).later

theorem grows_next (next : m.Next A nodes m') : (nodes m.state).Grows (nodes m'.state) := by
  cases next with
  | input made => exact .single ⟨.input, List.forall_mem_nil _, made⟩
  | gate calls => exact .single (allocates.allocation calls)
  | operation op there => exact allocates.grows (allocates.reaches_after there)

/-- Whatever a client does next keeps a moment sound. -/
theorem sound_next (sound : m.Sound nodes) (next : m.Next A nodes m') : m'.Sound nodes := by
  have grows := allocates.grows_next next
  have held : ∀ item ∈ m.items, m'.Holds nodes item := fun item member a inside =>
    Nat.lt_of_lt_of_le (sound.holds item member a inside) grows.size_le
  refine ⟨sound.wellFormed.grows grows, ?_⟩
  cases next with
  | input made => exact held
  | gate calls => exact held
  | operation op there =>
      have keeps := allocates.keeps_operation there
      rcases run : (op.run A).runFrom m.state with ⟨f | item, t⟩
      · rw [after, run] at held ⊢
        exact held
      · rw [after, run] at held ⊢
        exact List.forall_mem_cons.2 ⟨keeps.has run, held⟩

/-- Circuits only grow in a session. -/
theorem grows_session (session : m.Session A nodes m') : (nodes m.state).Grows (nodes m'.state) := by
  induction session with
  | refl => exact .refl
  | tail _ next ih => exact ih.trans (allocates.grows_next next)

/-- Whatever is held in a session stays there. -/
theorem sound_session (sound : m.Sound nodes) (session : m.Session A nodes m') : m'.Sound nodes := by
  induction session with
  | refl => exact sound
  | tail _ next ih => exact allocates.sound_next ih next

end GateSet.Allocates

namespace Circuit

open Moment

variable {σ : Type}

/-- In a session over a gate set that allocates, from a well-formed circuit on, nodes stay as and where they are, the
circuit stays well-formed, and every handle that was returned is that of a node. Whether an operation returns or
fails, its run is a sequence of calls of primitives on handles that exist, and all this holds of every
state that such a sequence goes through as well. -/
theorem session_wellFormed {A : GateSet σ Nat} {nodes : σ → Circuit Nat}
    (allocates : A.Allocates nodes) {start earlier now : Moment σ} (sound : start.Sound nodes)
    (before : start.Session A nodes earlier) (since : earlier.Session A nodes now) :
    (nodes earlier.state).toList <+: (nodes now.state).toList ∧ now.Sound nodes ∧
    (∀ op : Operation, (∀ item ∈ op.operands, now.Holds nodes item) →
      A.Reaches nodes now.state (now.after A op).state) ∧
    ∀ middle, A.Reaches nodes now.state middle →
      (nodes earlier.state).toList <+: (nodes middle).toList ∧ Sound nodes ⟨middle, now.items⟩ := by
  have sound := allocates.sound_session sound (before.trans since)
  refine ⟨(allocates.grows_session since).isPrefix, sound, fun _ => allocates.reaches_after, ?_⟩
  intro middle reaches
  have within := session_of_reaches reaches
  exact ⟨(allocates.grows_session (since.trans within)).isPrefix, allocates.sound_session sound within⟩

/-- Two inputs are made and a sum of words over them. Then a conjunction of scalars fails at its second element,
which is no scalar, and leaves the node of the first. -/
theorem session_wellFormed_failed :
    let A := gates id
    let start : Moment (Circuit Nat) := ⟨#[], []⟩
    let inputs : Moment (Circuit Nat) := ⟨#[.input, .input], []⟩
    let earlier := inputs.after A (.word (.num .add (.word [0, 1]) (.word [1, 0])))
    let now := earlier.after A (.scalars 2 (.bits .and (.word [.scalar 0, ⟨[2], #v[0, 1]⟩])
      (.word [.scalar 1, .scalar 1])))
    start.Sound id ∧ start.Session A id earlier ∧ earlier.Session A id now ∧
    now.items.length = 1 ∧ now.state.size = earlier.state.size + 1 ∧
    earlier.state.toList <+: now.state.toList ∧ now.Sound id := by
  intro A start inputs earlier now
  have sound : start.Sound id :=
    ⟨fun _ inside => absurd inside (Nat.not_lt_zero _), List.forall_mem_nil _⟩
  have first : start.Next A id ⟨#[.input], []⟩ := .input rfl
  have second : Next A id ⟨#[.input], []⟩ inputs := .input rfl
  have sum : inputs.Next A id earlier := .operation _ (by decide)
  have before : start.Session A id earlier := .tail (.tail (.single first) second) sum
  have since : earlier.Session A id now := .single (.operation _ (by decide))
  obtain ⟨isPrefix, holds, -⟩ := session_wellFormed allocates_gates sound before since
  exact ⟨sound, before, since, by decide +kernel, by decide +kernel, isPrefix, holds⟩

end Circuit

end BoolCalculus
