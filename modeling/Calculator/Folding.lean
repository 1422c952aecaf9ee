import Calculator.Failure

/-! Constant folding: arithmetic on numbers is carried out, anything else stays symbolic. -/

namespace Calculator

/-- How far folding goes. -/
inductive Mode where
  /-- Only what keeps the written form exact: sines, cosines and quotients stay. -/
  | symbolic
  /-- Everything that has a numeric value. -/
  | precise
  deriving DecidableEq

/-- The operations with a numeric meaning. -/
inductive Primitive where
  | negate
  | sin
  | cos
  | add
  | subtract
  | multiply
  | divide
  | power
  deriving DecidableEq

namespace Primitive

/-- The operation's name. -/
def name : Primitive → String
  | negate => "negate"
  | sin => "sin"
  | cos => "cos"
  | add => "+"
  | subtract => "-"
  | multiply => "*"
  | divide => "/"
  | power => "^"

/-- All operations with a numeric meaning. -/
def all : List Primitive := [negate, sin, cos, add, subtract, multiply, divide, power]

/-- The operation with a given name. -/
def ofName? (name : String) : Option Primitive := all.find? (·.name == name)

/-- The quotient, which is one whenever the operands are equal, also for two zeros. -/
def quotient? (mode : Mode) (a b : Float) : Except EvalError (Option Float) :=
  if a == b then .ok (some 1)
  else
    match mode with
    | .symbolic => .ok none
    | .precise => if b == 0 then .error (.divisionByZero a) else .ok (some (a / b))

/-- The operation's value on numbers, where the mode gives it one. -/
def value? (mode : Mode) : Primitive → List Float → Except EvalError (Option Float)
  | negate, [a] => .ok (some (-a))
  | sin, [a] => .ok (if mode = .precise then some a.sin else none)
  | cos, [a] => .ok (if mode = .precise then some a.cos else none)
  | add, [a, b] => .ok (some (a + b))
  | subtract, [a, b] => .ok (some (a - b))
  | multiply, [a, b] => .ok (some (a * b))
  | divide, [a, b] => quotient? mode a b
  | power, [a, b] => .ok (some (a.pow b))
  | _, _ => .ok none

end Primitive

/-- An operation on operands that are simplified already: its value if it has one, else itself. -/
def fold (mode : Mode) (name : String) (operands : List Expr) : Except EvalError Expr :=
  match Primitive.ofName? name, Expr.numbers? operands with
  | some primitive, some values => do
    match ← primitive.value? mode values with
    | some value => return .num value
    | none => return .op name operands
  | _, _ => .ok (.op name operands)

end Calculator
