import BoolCalculus.Circuit
import BoolCalculus.Proofs.Valuation
import Mathlib.Logic.Relation

/-!
# Growing circuits

A circuit is well-formed if every node has only earlier nodes for its operands. It grows by one node after the
other, each with operands that are there, and stays well-formed (`Circuit.WellFormed.grows`). A gate set
allocates if it answers every call of a primitive with a new node. Then the existence of handles is a
valuation, without values, and the gate set respects it (`GateSet.Allocates.respects`).
-/

namespace BoolCalculus

/-- The handles that a node records. -/
def Node.operands {α : Type} : Node α → List α
  | .input | .const _ => []
  | .not a => [a]
  | .or a b | .and a b => [a, b]

namespace Circuit

variable {c d : Circuit Nat} {node : Node Nat}

/-- The operands of every node are earlier nodes. -/
def WellFormed (d : Circuit Nat) : Prop :=
  ∀ i (h : i < d.size), ∀ a ∈ d[i].operands, a < i

/-- A circuit has the nodes that a node records. -/
def Admits (c : Circuit Nat) (node : Node Nat) : Prop :=
  ∀ a ∈ node.operands, a < c.size

/-- The second circuit is the first with one more node, whose operands are there. -/
def Allocation (c d : Circuit Nat) : Prop :=
  ∃ node, c.Admits node ∧ d = c.push node

/-- The second circuit comes from the first by any number of allocations. -/
abbrev Grows : Circuit Nat → Circuit Nat → Prop :=
  Relation.ReflTransGen Allocation

theorem Allocation.isPrefix (step : Allocation c d) : c.toList <+: d.toList := by
  obtain ⟨node, _, rfl⟩ := step
  rw [Array.toList_push]
  exact List.prefix_append _ _

/-- A new node of handles that are there keeps a circuit well-formed. -/
theorem Allocation.wellFormed (step : Allocation c d) (h : c.WellFormed) : d.WellFormed := by
  obtain ⟨node, admitted, rfl⟩ := step
  intro i inside a member
  rcases Nat.lt_succ_iff_lt_or_eq.1 (Array.size_push node ▸ inside) with before | rfl
  · rw [Array.getElem_push_lt before] at member
    exact h i before a member
  · rw [Array.getElem_push_eq] at member
    exact admitted a member

/-- Nodes stay as and where they are. -/
theorem Grows.isPrefix (grows : Grows c d) : c.toList <+: d.toList := by
  induction grows with
  | refl => exact List.prefix_rfl
  | tail _ step ih => exact ih.trans step.isPrefix

theorem Grows.size_le (grows : Grows c d) : c.size ≤ d.size := by
  simpa using grows.isPrefix.length_le

/-- A well-formed circuit stays so as it grows. -/
theorem WellFormed.grows (h : c.WellFormed) (grows : Grows c d) : d.WellFormed := by
  induction grows with
  | refl => exact h
  | tail _ step ih => exact step.wellFormed ih

end Circuit

/-! ## Gate sets that allocate -/

namespace GateSet

variable {σ α : Type} {A : GateSet σ Nat} {nodes : σ → Circuit Nat} {s t : σ}

/-- The call of a primitive that a node records. -/
def call? (A : GateSet σ α) : Node α → Option (Build σ α)
  | .input => none
  | .const b => some (A.lift b)
  | .not a => some (A.not a)
  | .or a b => some (A.or a b)
  | .and a b => some (A.and a b)

/-- Every call of a primitive appends a node that records it, and answers the index of this node. What else
the state holds is free. All other gates are derived. -/
structure Allocates (A : GateSet σ Nat) (nodes : σ → Circuit Nat) : Prop where
  derived : A = .ofPrimitives A.lift A.not A.or A.and
  appends : ∀ {node act}, A.call? node = some act → ∀ s, ∃ t,
    act.runFrom s = (.ok (nodes s).size, t) ∧ nodes t = (nodes s).push node

/-- One primitive is called, on handles that exist. -/
def Calls (A : GateSet σ Nat) (nodes : σ → Circuit Nat) (s t : σ) : Prop :=
  ∃ node act, A.call? node = some act ∧ (nodes s).Admits node ∧ (act.runFrom s).2 = t

/-- The second state is reached from the first by calls of primitives alone, each on handles that exist
when it is made. -/
abbrev Reaches (A : GateSet σ Nat) (nodes : σ → Circuit Nat) : σ → σ → Prop :=
  Relation.ReflTransGen (A.Calls nodes)

namespace Allocates

variable (allocates : A.Allocates nodes)

include allocates

/-- A call of a gate allocates one node. -/
theorem allocation (calls : A.Calls nodes s t) : (nodes s).Allocation (nodes t) := by
  obtain ⟨node, act, recorded, admitted, rfl⟩ := calls
  obtain ⟨t, run, pushed⟩ := allocates.appends recorded s
  rw [run]
  exact ⟨node, admitted, pushed⟩

theorem grows (reaches : A.Reaches nodes s t) : (nodes s).Grows (nodes t) :=
  reaches.lift nodes fun _ _ => allocates.allocation

/-- The valuation that says which handles exist. -/
def handles : Valuation σ Nat Unit where
  Elem s a := a < (nodes s).size
  value _ _ := ()
  Later := A.Reaches nodes
  later_refl _ := .refl
  later_trans := .trans
  elem_later later there := Nat.lt_of_lt_of_le there (allocates.grows later).size_le
  value_later _ _ := rfl

/-- Every call of a primitive on handles that exist makes one that exists. -/
theorem runs (node : Node Nat) {act : Build σ Nat} (recorded : A.call? node = some act)
    (admitted : (nodes s).Admits node) :
    allocates.handles.Runs allocates.handles.Is s act (.ok ()) := by
  obtain ⟨t, run, pushed⟩ := allocates.appends recorded s
  have calls : A.Calls nodes s t := ⟨node, act, recorded, admitted, by rw [run]⟩
  refine .ok run (.single calls) ⟨?_, rfl⟩
  show (nodes s).size < (nodes t).size
  rw [pushed, Array.size_push]
  exact Nat.lt_succ_self _

theorem respects : allocates.handles.Respects A := by
  have primitives : allocates.handles.Respects (.ofPrimitives A.lift A.not A.or A.and) := by
    refine .ofPrimitives ?_ ?_ ?_ ?_
    · exact fun b s => allocates.runs (.const b) rfl (List.forall_mem_nil _)
    · intro s a _ ha
      exact allocates.runs (.not a) rfl (List.forall_mem_singleton.2 ha.1)
    · intro s a b _ _ ha hb
      refine allocates.runs (.or a b) rfl ?_
      exact List.forall_mem_cons.2 ⟨ha.1, List.forall_mem_singleton.2 hb.1⟩
    · intro s a b _ _ ha hb
      refine allocates.runs (.and a b) rfl ?_
      exact List.forall_mem_cons.2 ⟨ha.1, List.forall_mem_singleton.2 hb.1⟩
  rwa [← allocates.derived] at primitives

end Allocates

end GateSet

/-- The gate set of circuits allocates in the circuit that is its state. -/
theorem Circuit.allocates_gates : (gates id).Allocates id where
  derived := rfl
  appends {node act} recorded c := by
    cases node <;> cases recorded <;> exact ⟨_, rfl, rfl⟩

end BoolCalculus
