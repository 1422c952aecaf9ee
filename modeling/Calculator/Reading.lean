import Calculator.Failure

/-! Reading an input as an expression: its pieces are matched first and then grouped. -/

namespace Calculator

namespace Grammar

/-- What comes of building an expression. A fault in the order of its pieces ends everything, while
a failure is carried along like a value. -/
abbrev Building (α : Type) := ExceptT Failure (Except Fault) α

namespace Building

/-- A piece of this rule cannot stand here. -/
def unexpected (rule : Rule) : Failure := .evaluation (.unexpectedPiece rule)

/-- What operators make of the expressions built for their operands. -/
def operators : Operators (Except Failure Expr) where
  lead operator operand :=
    match operator.rule with
    | .negate => operand.map .negate
    | other => .error (unexpected other)
  join left operator right :=
    let named := fun (name : String) => do return .op name [← left, ← right]
    match operator.rule with
    | .add => named "+"
    | .subtract => named "-"
    | .multiply => named "*"
    | .divide => named "/"
    | .power => named "^"
    | other => .error (unexpected other)

/-- The expression of a row, grouped from its front. -/
def grouped (row : List (Term (Except Failure Expr))) : Building Expr :=
  (climb operators 0 row).map (·.value)

end Building

open Building

mutual

/-- The expression of an operand. -/
def Piece.operand : Piece → Building Expr
  | .mk .number tokens inner =>
    match tokens with
    | [.number value] => return .num value
    | _ => throw (.evaluation (.invalidNumber (Piece.mk .number tokens inner).text))
  | .mk .identifier tokens inner => return .var (Piece.mk .identifier tokens inner).text
  | .mk .call _ (name :: arguments) => return .op name.text (← statements arguments)
  | .mk .call _ [] => throw .emptyInput
  | .mk .expr _ inner => grouped (row inner)
  | .mk other _ _ => throw (unexpected other)

/-- The expression of a statement. -/
def Piece.statement : Piece → Building Expr
  | .mk .assignment _ (target :: .mk _ _ value :: _) =>
    return .assign target.text (← grouped (row value))
  | .mk .assignment _ _ => throw .emptyInput
  | .mk .expr _ inner => grouped (row inner)
  | .mk other _ _ => throw (unexpected other)

/-- The pieces of an expression with what each is worth as an operand. -/
def row : List Piece → List (Term (Except Failure Expr))
  | [] => []
  | piece :: rest => ⟨piece, piece.operand⟩ :: row rest

/-- The expressions of the arguments of a call. -/
def statements : List Piece → Building (List Expr)
  | [] => return []
  | piece :: rest => return (← piece.statement) :: (← statements rest)

end

/-- The expression of a whole input. -/
def build (pieces : List Piece) : Building Expr :=
  match pieces with
  | [] => throw .emptyInput
  | program :: _ =>
    match program.inner with
    | [] => throw .emptyInput
    | statement :: _ => statement.statement

end Grammar

/-- The expression that a text spells. White space around it does not count, and a text of nothing
else is empty. -/
def readExpr (input : String) : Except Failure Expr :=
  match Grammar.trim input.toList with
  | [] => .error .emptyInput
  | text =>
    match Grammar.pieces? ((Grammar.scan text).map (·.token)) with
    | none => .error (.parse (Grammar.ParseError.ofText text))
    | some pieces =>
      match Grammar.build pieces with
      | .error fault => .error (.outOfOrder fault)
      | .ok result => result

end Calculator
