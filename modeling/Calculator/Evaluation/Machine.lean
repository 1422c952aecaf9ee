import Calculator.Plot.Sink
import Calculator.Random
import Calculator.Resolution

/-! What an evaluation reads and changes: the variables, the plots and the random source. -/

namespace Calculator

/-- The state that evaluations share. -/
structure Machine where
  scope : Scope
  sink : Sink
  random : Generator

/-- A computation on the machine. Its changes stay in force when it fails. -/
abbrev Evaluation := EStateM EvalError Machine

namespace Evaluation

/-- The current variables. -/
def scope : Evaluation Scope := do return (← get).scope

/-- Changes the variables. -/
def modifyScope (change : Scope → Scope) : Evaluation Unit :=
  modify fun machine => { machine with scope := change machine.scope }

/-- A result that does not touch the machine. -/
def ofExcept {α : Type} : Except EvalError α → Evaluation α
  | .ok value => pure value
  | .error error => throw error

/-- Runs a computation in a new innermost frame, which is left again also when it fails. -/
def withFrame {α : Type} (body : Evaluation α) : Evaluation α := fun machine =>
  match body { machine with scope := machine.scope.push } with
  | .ok value machine => .ok value { machine with scope := machine.scope.pop }
  | .error error machine => .error error { machine with scope := machine.scope.pop }

/-- Sends a plot to the sink. -/
def draw (plot : ScatterPlot) : Evaluation Unit :=
  modify fun machine => { machine with sink := machine.sink.draw plot }

/-- Tosses a fair coin. -/
def toss : Evaluation Bool := fun machine =>
  let (side, random) := machine.random.toss
  .ok side { machine with random }

end Evaluation

end Calculator
