import Calculator.Expr.Basic
import Calculator.Expr.Operator
import Calculator.Number.Text

/-! The text of an expression, with parentheses only where the grouping needs them. -/

namespace Calculator

/-- A printed expression with the binding strength of its outermost operator. -/
structure Phrase where
  strength : Nat
  chars : List Char

namespace Phrase

/-- The phrase, in parentheses when asked. -/
def guarded (phrase : Phrase) (parenthesised : Bool) : List Char :=
  if parenthesised then '(' :: phrase.chars ++ [')'] else phrase.chars

/-- A number; a negative one starts with a minus sign and binds like a negation. -/
def number (value : Float) : Phrase :=
  ⟨if value < 0 then Operator.negationStrength else Operator.atomStrength, numberChars value⟩

/-- A variable by its name. -/
def variableName (name : String) : Phrase := ⟨Operator.atomStrength, name.toList⟩

/-- A minus sign before its operand. -/
def negation (operand : Phrase) : Phrase :=
  ⟨Operator.negationStrength,
    '-' :: operand.guarded (operand.strength < Operator.negationStrength)⟩

/-- An operator between its operands. An operand that binds equally keeps its parentheses on the
side on which the operator does not group. -/
def binary (operator : Operator) (left right : Phrase) : Phrase :=
  let strength := operator.strength
  ⟨strength,
    left.guarded (left.strength < strength || operator.groupsRight && left.strength == strength) ++
      ' ' :: operator.symbol.toList ++ ' ' ::
    right.guarded
      (right.strength < strength || !operator.groupsRight && right.strength == strength)⟩

/-- The arguments of a call, with a comma and a blank between them. -/
def commaSeparated : List Phrase → List Char
  | [] => []
  | [last] => last.chars
  | first :: rest => first.chars ++ ',' :: ' ' :: commaSeparated rest

/-- A name before its arguments in parentheses. -/
def call (name : String) (arguments : List Phrase) : Phrase :=
  ⟨Operator.atomStrength, name.toList ++ '(' :: commaSeparated arguments ++ [')']⟩

/-- An operation: by its sign where it has one for that many operands, else as a call. -/
def operation (name : String) (operands : List Phrase) : Phrase :=
  match Operator.ofSymbol? name, operands with
  | some operator, [left, right] => binary operator left right
  | _, [operand] => if name = "negate" then negation operand else call name [operand]
  | _, _ => call name operands

end Phrase

namespace Expr

mutual

/-- The printed form of an expression. -/
def phrase : Expr → Phrase
  | .num value => .number value
  | .var name => .variableName name
  | .op name operands => .operation name (phrases operands)

/-- The printed forms of several expressions. -/
def phrases : List Expr → List Phrase
  | [] => []
  | first :: rest => first.phrase :: phrases rest

end

/-- The text of an expression. -/
def text (expr : Expr) : String := String.ofList expr.phrase.chars

end Expr

end Calculator
