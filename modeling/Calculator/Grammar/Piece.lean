import Calculator.Grammar.Token
import Calculator.Number.Text

/-! The rules of the grammar, and the pieces of a text that they match. -/

namespace Calculator.Grammar

/-- The rules of the grammar that a message can name, in the order in which it lists them. -/
inductive Rule where
  | endOfInput
  | program
  | assignment
  | expr
  | add
  | subtract
  | multiply
  | divide
  | power
  | negate
  | call
  | number
  | identifier
  deriving DecidableEq

namespace Rule

/-- The rule's name in a message. -/
def name : Rule → String
  | endOfInput => "EOI"
  | program => "Program"
  | assignment => "Assignment"
  | expr => "Expr"
  | add => "Add"
  | subtract => "Subtract"
  | multiply => "Multiply"
  | divide => "Divide"
  | power => "Power"
  | negate => "Negate"
  | call => "Call"
  | number => "Number"
  | identifier => "Identifier"

/-- All rules, in the order in which a message lists them. -/
def all : List Rule :=
  [endOfInput, program, assignment, expr, add, subtract, multiply, divide, power, negate, call,
    number, identifier]

end Rule

/-- A token as it can be written. -/
def Token.text : Token → String
  | .number value => numberText value
  | .name text => text
  | .assign => ":="
  | .plus => "+"
  | .minus => "-"
  | .times => "*"
  | .slash => "/"
  | .caret => "^"
  | .opening => "("
  | .closing => ")"
  | .comma => ","
  | .stray char => String.singleton char

/-- What a rule matched: its tokens, and the pieces that the rules inside it matched, in order.

The pieces of an expression stand side by side, its operators between its operands: nothing is
grouped yet. -/
inductive Piece where
  | mk (rule : Rule) (tokens : List Token) (inner : List Piece)

namespace Piece

/-- The rule that matched. -/
def rule : Piece → Rule
  | mk rule _ _ => rule

/-- The tokens that it matched. -/
def tokens : Piece → List Token
  | mk _ tokens _ => tokens

/-- The pieces inside. -/
def inner : Piece → List Piece
  | mk _ _ inner => inner

/-- The text of the piece. -/
def text (piece : Piece) : String := String.join (piece.tokens.map Token.text)

end Piece

end Calculator.Grammar
