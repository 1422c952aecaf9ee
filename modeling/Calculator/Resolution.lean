import Calculator.Simplification

/-! Numeric resolution: the number that an expression stands for. -/

namespace Calculator

mutual

/-- The number that a simplified expression stands for. Where there is none, the first operand
without a number says why, and an operation on numbers that gives none says so itself. -/
def Expr.demand : Expr → Except EvalError Float
  | .num value => .ok value
  | .var name => .error (.undefinedVariable name)
  | .op name operands => do
    let values ← Expr.demandAll operands
    match ← fold .precise name (values.map .num) with
    | .num value => return value
    | .var _ | .op _ _ => throw (.notNumeric name)

/-- The numbers that simplified expressions stand for, up to the first without one. -/
def Expr.demandAll : List Expr → Except EvalError (List Float)
  | [] => .ok []
  | first :: rest => do
    let first ← first.demand
    let rest ← Expr.demandAll rest
    return first :: rest

end

/-- The number that an expression stands for. -/
def toNumber (scope : Scope) (expr : Expr) : Except EvalError Float := do
  (← simplify .precise scope expr).demand

/-- The number that an operand in some role stands for. -/
def resolveNumber (scope : Scope) (role : String) (expr : Expr) : Except EvalError Float :=
  match expr with
  | .num value => .ok value
  | expr =>
    match toNumber scope expr with
    | .ok value => .ok value
    | .error cause => .error (.unresolved role expr cause)

/-- The number that an operand in some role is. -/
def requireNumber (role : String) : Expr → Except EvalError Float
  | .num value => .ok value
  | expr => .error (.notNumber role expr)

/-- The variable that a construct binds: a variable, or the operand of an operation on one. -/
def boundVariable (construct : String) : Expr → Except EvalError String
  | .var name => .ok name
  | .op _ [.var name] => .ok name
  | .op _ [other] => .error (.invalidLoopVariable construct other)
  | other => .error (.invalidLoopVariable construct other)

end Calculator
