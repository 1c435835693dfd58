import BoolCalculus.Circuit
import BoolCalculus.Proofs.Valuation

/-!
# Evaluation of circuits

Under an assignment of its inputs every node of a circuit has a truth value. Nodes are only ever
appended, so a node keeps its value while a construction goes on, and the evaluation of handles is a valuation
that the gate set of circuits respects (`Circuit.respects_evaluation`).
-/

namespace BoolCalculus

/-- The truth value of a node, given that of an input in its place and those of the nodes before it. -/
def Node.value (input : Bool) (earlier : List Bool) : Node Nat → Bool
  | .input => input
  | .const b => b
  | .not a => !earlier[a]?.getD false
  | .or a b => earlier[a]?.getD false || earlier[b]?.getD false
  | .and a b => earlier[a]?.getD false && earlier[b]?.getD false

namespace Circuit

/-- The truth values of nodes that come after nodes with the given values. -/
def extend (inputs : Nat → Bool) (earlier : List Bool) (nodes : List (Node Nat)) : List Bool :=
  nodes.foldl (fun done node => done ++ [node.value (inputs done.length) done]) earlier

/-- The truth values of all nodes of a circuit, where `inputs` assigns truth values to its inputs by their
positions. -/
def values (inputs : Nat → Bool) (c : Circuit Nat) : List Bool :=
  extend inputs [] c.toList

theorem length_extend (inputs : Nat → Bool) (earlier : List Bool) (nodes : List (Node Nat)) :
    (extend inputs earlier nodes).length = earlier.length + nodes.length := by
  induction nodes generalizing earlier with
  | nil => rfl
  | cons node nodes ih =>
      rw [extend, List.foldl_cons, ← extend, ih]
      simp only [List.length_append, List.length_cons, List.length_nil]
      omega

theorem length_values (inputs : Nat → Bool) (c : Circuit Nat) :
    (values inputs c).length = c.size := by
  simp [values, length_extend]

/-- The nodes of two rows are evaluated one row after the other. -/
theorem extend_append (inputs : Nat → Bool) (earlier : List Bool) (nodes nodes' : List (Node Nat)) :
    extend inputs earlier (nodes ++ nodes') = extend inputs (extend inputs earlier nodes) nodes' :=
  List.foldl_append

/-- The values of earlier nodes are not changed by later ones. -/
theorem prefix_extend (inputs : Nat → Bool) (earlier : List Bool) (nodes : List (Node Nat)) :
    earlier <+: extend inputs earlier nodes := by
  induction nodes generalizing earlier with
  | nil => exact List.prefix_rfl
  | cons node nodes ih => exact (List.prefix_append earlier _).trans (ih _)

/-- The valuation of handles by the truth values of their nodes. -/
def evaluation (inputs : Nat → Bool) : Valuation (Circuit Nat) Nat Bool where
  Elem c a := a < c.size
  value c a := (values inputs c)[a]?.getD false
  Later c d := c.toList <+: d.toList
  later_refl _ := List.prefix_rfl
  later_trans := List.IsPrefix.trans
  elem_later := fun later ha => Nat.lt_of_lt_of_le ha later.length_le
  value_later := by
    intro c d a later ha
    obtain ⟨nodes, extended⟩ := later
    obtain ⟨more, split⟩ := prefix_extend inputs (values inputs c) nodes
    have split : values inputs c ++ more = values inputs d := by
      rw [split, values, ← extend_append, extended, values]
    have inside : a < (values inputs c).length := (length_values inputs c).symm ▸ ha
    rw [← split, List.getElem?_append_left inside]

/-- The value of a node that was just appended. -/
theorem value_push (inputs : Nat → Bool) (c : Circuit Nat) (node : Node Nat) :
    (evaluation inputs).value (c.push node) c.size =
      node.value (inputs c.size) (values inputs c) := by
  have split : values inputs (c.push node) =
      values inputs c ++ [node.value (inputs c.size) (values inputs c)] := by
    rw [values, Array.toList_push, extend_append, ← values, ← length_values inputs c]
    rfl
  show (values inputs (c.push node))[c.size]?.getD false = _
  rw [split, ← length_values inputs c]
  simp

/-- A new node is read as its value under the inputs. -/
theorem runs_emit (inputs : Nat → Bool) (c : Circuit Nat) (node : Node Nat) {x : Bool}
    (h : node.value (inputs c.size) (values inputs c) = x) :
    (evaluation inputs).Runs (evaluation inputs).Is c (emit id node) (.ok x) := by
  refine .ok (runFrom_emit id node c) ?_ ⟨?_, (value_push inputs c node).trans h⟩
  · show c.toList <+: (c.push node).toList
    rw [Array.toList_push]
    exact List.prefix_append _ _
  · show c.size < (c.push node).size
    rw [Array.size_push]
    exact Nat.lt_succ_self _

/-- The gate set of circuits respects the evaluation under every assignment. -/
theorem respects_evaluation (inputs : Nat → Bool) :
    (evaluation inputs).Respects (gates id) := by
  refine .ofPrimitives ?_ ?_ ?_ ?_
  · rintro (_ | _) c
    · exact runs_emit inputs c _ rfl
    · exact runs_emit inputs c _ rfl
  · rintro c a _ ⟨_, rfl⟩
    exact runs_emit inputs c _ rfl
  · rintro c a b _ _ ⟨_, rfl⟩ ⟨_, rfl⟩
    exact runs_emit inputs c _ rfl
  · rintro c a b _ _ ⟨_, rfl⟩ ⟨_, rfl⟩
    exact runs_emit inputs c _ rfl

end Circuit

end BoolCalculus
