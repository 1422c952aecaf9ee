import Calculator.Folding
import Calculator.Scope

/-! Simplification: bound variables give way to their values, and constants are folded. -/

namespace Calculator

mutual

/-- Replaces the variables of an expression and folds its operations, operands first. -/
def Expr.reduce (mode : Mode) (replace : String → Except EvalError Expr) :
    Expr → Except EvalError Expr
  | .num value => .ok (.num value)
  | .var name => replace name
  | .op name operands => do fold mode name (← Expr.reduceAll mode replace operands)

/-- Reduces several expressions in order, up to the first that fails. -/
def Expr.reduceAll (mode : Mode) (replace : String → Except EvalError Expr) :
    List Expr → Except EvalError (List Expr)
  | [] => .ok []
  | first :: rest => do
    let first ← first.reduce mode replace
    let rest ← Expr.reduceAll mode replace rest
    return first :: rest

end

/-- The simplified value of a variable, or the variable itself when it is unbound.

`expanding` holds the variables whose values are being simplified around this one: meeting one of
them again means that it is defined through itself. At most `limit` of the bound variables are not
among them, so with a limit of zero every bound variable is met again. -/
def expand (mode : Mode) (scope : Scope) :
    (limit : Nat) → (expanding : List String) → String → Except EvalError Expr
  | 0, _, name =>
    match scope.get? name with
    | none => .ok (.var name)
    | some _ => .error (.recursiveDefinition name)
  | limit + 1, expanding, name =>
    match scope.get? name with
    | none => .ok (.var name)
    | some value =>
      if name ∈ expanding then .error (.recursiveDefinition name)
      else value.reduce mode (expand mode scope limit (name :: expanding))

/-- The expression with its bound variables replaced, through and through, and folded. -/
def simplify (mode : Mode) (scope : Scope) (expr : Expr) : Except EvalError Expr :=
  -- Variables being expanded are different bound names, so there are never more than bindings.
  expr.reduce mode (expand mode scope scope.bindingCount [])

end Calculator
