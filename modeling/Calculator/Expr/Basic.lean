/-! Expression trees: what is read, evaluated, simplified and printed. -/

namespace Calculator

/-- An expression. How many operands an operation takes is settled only when it is dispatched. -/
inductive Expr where
  /-- A number. -/
  | num (value : Float)
  /-- A variable, bound or not. -/
  | var (name : String)
  /-- An operator or function applied to its operands, in order. -/
  | op (name : String) (operands : List Expr)

namespace Expr

instance : Inhabited Expr := ⟨.num 0⟩

/-- The operation that a leading minus sign stands for. -/
def negate (operand : Expr) : Expr := .op "negate" [operand]

/-- The assignment of a value to a variable. -/
def assign (name : String) (value : Expr) : Expr := .op ":=" [.var name, value]

/-- The number, if the expression is one. -/
def number? : Expr → Option Float
  | .num value => some value
  | .var _ | .op _ _ => none

/-- The name of a variable or an operation. -/
def name? : Expr → Option String
  | .num _ => none
  | .var name | .op name _ => some name

/-- The operands of an operation; a leaf has none. -/
def operands : Expr → List Expr
  | .num _ | .var _ => []
  | .op _ operands => operands

/-- The numbers, if all expressions are numbers. -/
def numbers? : List Expr → Option (List Float)
  | [] => some []
  | .num value :: rest => (numbers? rest).map (value :: ·)
  | _ :: _ => none

end Expr

end Calculator
