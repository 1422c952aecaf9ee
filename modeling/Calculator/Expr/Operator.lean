/-! The operators written between their operands, with how tightly each of them binds. -/

namespace Calculator

/-- An operator written between two operands. -/
inductive Operator where
  | assign
  | add
  | subtract
  | multiply
  | divide
  | power
  deriving DecidableEq

namespace Operator

/-- The operator's sign, which is also the name of its operation. -/
def symbol : Operator → String
  | assign => ":="
  | add => "+"
  | subtract => "-"
  | multiply => "*"
  | divide => "/"
  | power => "^"

/-- The operator with a given sign. -/
def ofSymbol? (symbol : String) : Option Operator :=
  [assign, add, subtract, multiply, divide, power].find? (·.symbol == symbol)

/-- Binding strength: operands of a weaker operator stand in parentheses. -/
def strength : Operator → Nat
  | assign => 0
  | add | subtract => 1
  | multiply | divide => 2
  | power => 4

/-- Negation binds tighter than a product and looser than a power. -/
def negationStrength : Nat := 3

/-- Numbers, variables and calls never need parentheses. -/
def atomStrength : Nat := 5

/-- Only powers group to the right. -/
def groupsRight : Operator → Bool
  | power => true
  | assign | add | subtract | multiply | divide => false

end Operator

end Calculator
