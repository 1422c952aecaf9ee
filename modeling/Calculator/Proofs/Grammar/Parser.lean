import Calculator.Expr.Basic
import Calculator.Expr.Operator
import Calculator.Grammar.Token

/-! Reading tokens as an expression, one layer of binding strength inside another: the reading with
which a climb over a flat row of pieces is compared. -/

namespace Calculator.Grammar

/-- Reads a value off the front of the tokens and leaves the rest. -/
abbrev Parser (α : Type) := List Token → Option (α × List Token)

namespace Parser

/-- The additive operator that a token stands for. -/
def additive? : Token → Option Operator
  | .plus => some .add
  | .minus => some .subtract
  | _ => none

/-- The multiplicative operator that a token stands for. -/
def multiplicative? : Token → Option Operator
  | .times => some .multiply
  | .slash => some .divide
  | _ => none

/-- Further operands of a chain that groups to the left, at most `limit` of them. -/
def chainRest (operator? : Token → Option Operator) (operand : Parser Expr) :
    (limit : Nat) → (left : Expr) → Parser Expr
  | 0, left, tokens => some (left, tokens)
  | limit + 1, left, tokens =>
    match tokens with
    | [] => some (left, [])
    | token :: rest =>
      match operator? token with
      | none => some (left, token :: rest)
      | some operator =>
        match operand rest with
        | none => none
        | some (right, rest) =>
          chainRest operator? operand limit (.op operator.symbol [left, right]) rest

/-- Operands joined by the operators of one layer, grouping to the left. -/
def chain (operator? : Token → Option Operator) (operand : Parser Expr) : Parser Expr :=
  fun tokens =>
    match operand tokens with
    | none => none
    | some (first, rest) => chainRest operator? operand rest.length first rest

/-- Minus signs before a power, whose exponent may again start with minus signs. Each step takes a
token, and at most `limit` steps are taken. -/
def signedPower (atom : Parser Expr) : (limit : Nat) → Parser Expr
  | 0, _ => none
  | limit + 1, tokens =>
    match tokens with
    | .minus :: rest =>
      (signedPower atom limit rest).map fun (operand, rest) => (.negate operand, rest)
    | tokens =>
      match atom tokens with
      | some (base, .caret :: rest) =>
        (signedPower atom limit rest).map fun (exponent, rest) =>
          (.op Operator.power.symbol [base, exponent], rest)
      | result => result

/-- A factor: minus signs bind looser than a power. -/
def factor (atom : Parser Expr) : Parser Expr := fun tokens =>
  signedPower atom (tokens.length + 1) tokens

/-- Sums of products of factors. -/
def sum (atom : Parser Expr) : Parser Expr :=
  chain additive? (chain multiplicative? (factor atom))

/-- An assignment, or else a plain expression. -/
def statement (expression : Parser Expr) : Parser Expr
  | .name target :: .assign :: rest =>
    (expression rest).map fun (value, rest) => (.assign target value, rest)
  | tokens => expression tokens

/-- Further arguments of a call up to its closing parenthesis, at most `limit` of them. -/
def argumentsRest (expression : Parser Expr) : (limit : Nat) → Parser (List Expr)
  | _, .closing :: rest => some ([], rest)
  | limit + 1, .comma :: rest =>
    match statement expression rest with
    | none => none
    | some (first, rest) =>
      (argumentsRest expression limit rest).map fun (more, rest) => (first :: more, rest)
  | _, _ => none

/-- The arguments of a call and its closing parenthesis. -/
def arguments (expression : Parser Expr) : Parser (List Expr)
  | .closing :: rest => some ([], rest)
  | tokens =>
    match statement expression tokens with
    | none => none
    | some (first, rest) =>
      (argumentsRest expression rest.length rest).map fun (more, rest) => (first :: more, rest)

/-- A number, a call, a variable or an expression in parentheses. -/
def atom (expression : Parser Expr) : Parser Expr
  | .number value :: rest => some (.num value, rest)
  | .name name :: .opening :: rest =>
    (arguments expression rest).map fun (operands, rest) => (.op name operands, rest)
  | .name name :: rest => some (.var name, rest)
  | .opening :: rest =>
    match expression rest with
    | some (inner, .closing :: rest) => some (inner, rest)
    | _ => none
  | _ => none

/-- An expression with parentheses nested less than `depth` deep. -/
def expression : (depth : Nat) → Parser Expr
  | 0 => fun _ => none
  | depth + 1 => sum (atom (expression depth))

end Parser

/-- The expression that the tokens spell, if they spell one. -/
def parse? (tokens : List Token) : Option Expr :=
  -- Each level of nesting takes an opening parenthesis, so the tokens bound the depth.
  match Parser.statement (Parser.expression (tokens.length + 1)) tokens with
  | some (expr, []) => some expr
  | _ => none

end Calculator.Grammar
