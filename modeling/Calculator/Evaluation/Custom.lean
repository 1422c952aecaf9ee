import Calculator.Evaluation.Operations

/-! Operations that can be registered beside the built-in ones. -/

namespace Calculator.Operation

/-- Always the same expression, whatever the operands. -/
def constant (result : Expr) (_ : Call) : Evaluation Expr := return result

/-- The operation itself, unevaluated. -/
def quoted (call : Call) : Evaluation Expr := return call.tree

/-- Evaluates all operands in order; the result is the last one, or zero if there is none. -/
def sequence (call : Call) : Evaluation Expr := do
  return (← Argument.evaluateAll call.arguments).getLastD (.num 0)

/-- Twice the operand, as a number where it is one. -/
def doubled (call : Call) : Evaluation Expr :=
  match call.arguments with
  | operand :: _ => do
    match ← operand.evaluate with
    | .num value => return .num (2 * value)
    | other => return .op "*" [.num 2, other]
  | _ => throw (.missingOperand call.name)

/-- Evaluates the body with a variable bound to a value, which is evaluated outside. -/
def localBinding (call : Call) : Evaluation Expr :=
  match call.arguments with
  | target :: value :: body :: _ => do
    let name ← .ofExcept (boundVariable "local" target.tree)
    let value ← value.evaluate
    Evaluation.withFrame do
      Evaluation.modifyScope (·.bindLocal name value)
      body.evaluate
  | _ => throw (.missingOperand call.name)

/-- Fails with the operation as it is written. -/
def refusal (call : Call) : Evaluation Expr := throw (.refused s!"refused {call.tree.text}")

end Calculator.Operation
