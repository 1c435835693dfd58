import BoolCalculus.Circuit
import BoolCalculus.Domain.TwoElement
import BoolCalculus.Proofs.Tensor.Cells
import BoolCalculus.Proofs.Universe.Requirements
import BoolCalculus.Proofs.Word.Embedding
import BoolCalculus.Tensor.Storage

/-!
# Words over the scalars of a universe

A gate set is embedded into the scalars of the universes over its lifted tensors, element by element, as long as it
derives the arithmetic of single bits. So words over these scalars run, call for call, as words over the
gate set (`Universe.scalarWords_runAs`).
-/

namespace BoolCalculus

variable {σ α : Type}

namespace Universe

/-- Elements as tensors without axes are scalars of a universe, on which the gates are those of the elements. -/
theorem embeds_scalars {A : GateSet σ α} (derives : A.DerivesArithmetic) (n : Nat) :
    A.Embeds Tensor.scalar (mk (TensorOps.lifted A).stored n).scalars := by
  have accepted : ∀ a b : α, (mk (TensorOps.lifted A).stored n).requireScalars [.scalar a, .scalar b] =
      pure () := fun a b => requireScalars_ok _ (by simp [Tensor.scalar])
  have binary : ∀ (f : α → α → Build σ α) a b, (do
      (mk (TensorOps.lifted A).stored n).requireScalars [.scalar a, .scalar b]
      Tensor.zipBuild f (.scalar a) (.scalar b)) = Tensor.scalar <$> f a b := by
    intro f a b
    rw [accepted, pure_bind, Tensor.zipBuild_scalar]
  refine .of_derives derives ⟨rfl, rfl, rfl, rfl, rfl, rfl⟩ ?_ ?_ (binary A.or) (binary A.and)
    (binary A.xor) (binary A.equ) (binary A.imp)
  · intro b
    show (Build.ofExcept (Shape.checkStorage ⟨[]⟩) >>= fun _ =>
      Tensor.build [] fun _ _ => A.lift b) = Tensor.scalar <$> A.lift b
    rw [Tensor.build_scalar]
    rfl
  · intro a
    have accepted : (mk (TensorOps.lifted A).stored n).requireScalars [.scalar a] = pure () :=
      requireScalars_ok _ (by simp [Tensor.scalar])
    show (do
      (mk (TensorOps.lifted A).stored n).requireScalars [.scalar a]
      TensorOps.notCells A (.scalar a)) = _
    rw [accepted, pure_bind, TensorOps.notCells_scalar]

open Word

/-- Words over the scalars of a universe run as words over the gate set of its cells, with every element wrapped into a
tensor without axes: every program has the same results and leaves the same state, or fails at the same
instruction with the same fault; and the calls of gates, which the second part notes, are the same in the
same order. -/
theorem scalarWords_runAs {A : GateSet σ α} (derives : A.DerivesArithmetic) (n : Nat) (p : Word.Program)
    (operands : List (Content α)) :
    p.RunsAs (ops A) (ops (mk (TensorOps.lifted A).stored n).scalars) (Content.map Tensor.scalar)
      operands ∧
    p.RunsAs (ops A.logged) (ops (mk (TensorOps.lifted A.logged).stored n).scalars)
      (Content.map Tensor.scalar) operands :=
  ⟨p.runsAs (embeds_ops (embeds_scalars derives n)) operands,
    p.runsAs (embeds_ops (embeds_scalars A.derivesArithmetic_logged n)) operands⟩

/-- A sum and its negative over handles of a circuit, and over truth values with gates of their own for implications and
equivalences. With the empty word as a third operand the two words of the third instruction have different
lengths, so the second program stops there. -/
theorem scalarWords_runAs_circuit :
    let p : Word.Program := [.num .add 0 1, .numNeg 2, .bits .equ 2 3, .bits .leq 0 4]
    (Circuit.gates id).DerivesArithmetic ∧
    p.RunsAs (ops (Circuit.gates id)) (ops (mk (TensorOps.lifted (Circuit.gates id)).stored 2).scalars)
      (Content.map Tensor.scalar) [.word [0, 1], .word [1, 1]] ∧
    (GateSet.boolean true : GateSet Unit Bool).DerivesArithmetic ∧
    p.RunsAs (ops (GateSet.boolean true : GateSet Unit Bool).logged)
      (ops (mk (TensorOps.lifted (GateSet.boolean true).logged).stored 0).scalars)
      (Content.map Tensor.scalar) [.word [true, false], .word [true, true], .word []] := by
  intro p
  have circuit : (Circuit.gates id).DerivesArithmetic := ⟨rfl, rfl, rfl, rfl, rfl, rfl⟩
  have boolean : (GateSet.boolean true : GateSet Unit Bool).DerivesArithmetic :=
    ⟨rfl, rfl, rfl, rfl, rfl, rfl⟩
  exact ⟨circuit, (scalarWords_runAs circuit 2 p _).1, boolean, (scalarWords_runAs boolean 0 p _).2⟩

end Universe

end BoolCalculus
