import BoolCalculus.Bits
import BoolCalculus.Circuit
import BoolCalculus.Domain.Method
import BoolCalculus.Domain.Powerset
import BoolCalculus.Domain.Recorded
import BoolCalculus.Domain.TwoElement
import BoolCalculus.GateSet.Table
import BoolCalculus.Shape.Coordinates
import BoolCalculus.Text.Blank
import BoolCalculus.Text.Digit
import BoolCalculus.Text.Uppercase
import BoolCalculus.Word.Arithmetic
import BoolCalculus.Word.Length
import BoolCalculus.Word.Program
import BoolCalculus.Tensor.Dense
import BoolCalculus.Tensor.Display
import BoolCalculus.Tensor.Lifted
import BoolCalculus.Tensor.Reindex
import BoolCalculus.Tensor.Storage
import BoolCalculus.Rule.Engine
import BoolCalculus.Rule.Reading
import BoolCalculus.Universe.Program
import BoolCalculus.Json.Printer
import BoolCalculus.Json.Reader
import BoolCalculus.Settings
import BoolCalculus.Laws
import BoolCalculus.Laws.Draws
import BoolCalculus.Main
import BoolCalculus.Operand.Lengths
import BoolCalculus.Operand.Registers
import BoolCalculus.Proofs.Rule.Sessions
import BoolCalculus.Proofs.Universe.Backends
import BoolCalculus.Proofs.Universe.RelationAlgebra
import BoolCalculus.Proofs.Universe.Scalars
import BoolCalculus.Proofs.Word.DryRun
import BoolCalculus.Proofs.Word.Group
import BoolCalculus.Proofs.Tensor.Axes
import BoolCalculus.Proofs.Universe.Axes
import BoolCalculus.Proofs.Universe.Refusals
import BoolCalculus.Proofs.Rule.Store
import BoolCalculus.Proofs.Rule.Recursion
import BoolCalculus.Proofs.Rule.Convergence
import BoolCalculus.Proofs.Domain.Reading
import BoolCalculus.Proofs.Predicate.Quantification
import BoolCalculus.Proofs.Tensor.Derived
import BoolCalculus.Proofs.Universe.Derivations
import BoolCalculus.Proofs.Universe.Predicates
import BoolCalculus.Proofs.Universe.Projection
import BoolCalculus.Proofs.Universe.ScalarWords
import BoolCalculus.Proofs.Circuit.Sessions
import BoolCalculus.Proofs.Rule.Renaming
import BoolCalculus.Proofs.Laws.NoFailures
import BoolCalculus.Proofs.Universe.CompositeRefusals
import BoolCalculus.Proofs.Rule.Undecided
import BoolCalculus.Proofs.Universe.Comparison
import BoolCalculus.Proofs.Tensor.Reindexing
import BoolCalculus.Proofs.Domain.Screening
import BoolCalculus.Proofs.Tensor.Screening
import BoolCalculus.Proofs.Universe.Screening
import BoolCalculus.Proofs.Domain.BooleanRing
import BoolCalculus.Proofs.Word.Encoding
import BoolCalculus.Proofs.Word.Splitting
import BoolCalculus.Proofs.Rule.Application
import BoolCalculus.Proofs.Settings.Layers
import BoolCalculus.Proofs.Tensor.Filling
import BoolCalculus.Proofs.Universe.Cost
