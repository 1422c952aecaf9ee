import Calculator.Evaluation.Builtin
import Calculator.Evaluation.Evaluate
import Calculator.Reading

/-! Sessions: inputs that are read and evaluated one after another, with what they leave behind. -/

namespace Calculator

/-- The operations of a session and what its inputs have left behind. -/
structure Session where
  registry : Registry
  machine : Machine

namespace Session

/-- A session without variables. -/
def start (registry : Registry) (sink : Sink) (random : Generator) : Session :=
  ⟨registry, ⟨.empty, sink, random⟩⟩

/-- Evaluates an expression. -/
def evaluate (session : Session) (expr : Expr) : Except EvalError Expr × Session :=
  match Calculator.evaluate session.registry expr session.machine with
  | .ok value machine => (.ok value, { session with machine })
  | .error error machine => (.error error, { session with machine })

/-- Reads and evaluates an input; the result is its text. -/
def interpret (session : Session) (input : String) : Except Failure String × Session :=
  match readExpr input with
  | .error failure => (.error failure, session)
  | .ok expr =>
    match session.evaluate expr with
    | (.ok value, session) => (.ok value.text, session)
    | (.error error, session) => (.error (.evaluation error), session)

/-- Forgets all variables. -/
def clearVariables (session : Session) : Session :=
  { session with machine := { session.machine with scope := .empty } }

/-- Starts the random source anew. -/
def seed (session : Session) (seed : UInt64) : Session :=
  { session with machine := { session.machine with random := .ofSeed seed } }

/-- Adds an operation. -/
def register (session : Session) (name : String) (handler : Handler) : Session :=
  { session with registry := session.registry.register name handler }

/-- Takes the plots out of the sink. -/
def takePlots (session : Session) : Sink × Session :=
  (session.machine.sink,
    { session with machine := { session.machine with sink := session.machine.sink.emptied } })

end Session

end Calculator
