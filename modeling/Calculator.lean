import Calculator.Evaluation.Custom
import Calculator.Main
import Calculator.Proofs.Evaluation.Frames
import Calculator.Proofs.Expr.RoundTrip
import Calculator.Proofs.Resolution.BigStep
import Calculator.Proofs.Simplification.Meaning
import Calculator.Proofs.Simplification.Cycles
import Calculator.Proofs.Evaluation.Arithmetic
import Calculator.Proofs.Resolution.Termination
import Calculator.Proofs.Number.Sign
import Calculator.Proofs.Expr.Rereading
import Calculator.Proofs.Session.FixedPoint
import Calculator.Proofs.Expr.Matching
import Calculator.Proofs.Scope.Matching
import Calculator.Proofs.Resolution.Matching
import Calculator.Proofs.Evaluation.Simulation
import Calculator.Proofs.Evaluation.Confinement
import Calculator.Proofs.Evaluation.Totality
import Calculator.Proofs.Simplification.Substitution
import Calculator.Proofs.Session.Sinks
import Calculator.Proofs.CommandLine.Course
import Calculator.Proofs.CommandLine.Turns
import Calculator.Proofs.CommandLine.Agreement
import Calculator.Proofs.Evaluation.Randomness
import Calculator.Proofs.Evaluation.Calls
import Calculator.Proofs.Evaluation.Shadowing
import Calculator.Proofs.Evaluation.Renaming
import Calculator.Proofs.Scope.Order
import Calculator.Proofs.Scope.Stacks
import Calculator.Proofs.Evaluation.Registration
import Calculator.Proofs.Evaluation.Rounds
import Calculator.Proofs.Evaluation.Sums
import Calculator.Proofs.Evaluation.Plots
import Calculator.Proofs.Number.Value
import Calculator.Proofs.Number.Difference
import Calculator.Proofs.Evaluation.Repetition
import Calculator.Proofs.Evaluation.Counters
import Calculator.Proofs.Evaluation.Landing
import Calculator.Proofs.Evaluation.Samples
import Calculator.Proofs.Number.Nearest
import Calculator.Proofs.Number.Operations
import Calculator.Proofs.Number.Faithfulness
import Calculator.Proofs.Plot.Marks
import Calculator.Proofs.Number.Widening
import Calculator.Proofs.Plot.Range
import Calculator.Proofs.Evaluation.Endings
