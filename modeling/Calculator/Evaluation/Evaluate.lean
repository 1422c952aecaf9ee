import Calculator.Evaluation.Handler

/-! Evaluation: numbers stand for themselves, variables for their values, operations for what
their handlers make of them. -/

namespace Calculator

mutual

/-- Evaluates an expression. The value of a variable is not evaluated again. -/
def evaluate (registry : Registry) : Expr → Evaluation Expr
  | .num value => pure (.num value)
  | .var name => do return ((← Evaluation.scope).get? name).getD (.var name)
  | .op name operands =>
    match registry.find? name with
    | none => throw (.unknownOperation name)
    | some handler =>
      if operands.length = handler.arity then
        handler.run ⟨name, arguments registry operands⟩
      else throw (.wrongArity name handler.arity operands.length)

/-- The operands of an operation, none of them evaluated yet. -/
def arguments (registry : Registry) : List Expr → List Argument
  | [] => []
  | first :: rest => ⟨first, evaluate registry first⟩ :: arguments registry rest

end

end Calculator
