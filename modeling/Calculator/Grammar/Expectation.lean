import Calculator.Grammar.Piece

/-! Matching tokens against the grammar: the pieces of what is accepted, and the rules tried in vain
at the furthest place of what is not. -/

namespace Calculator.Grammar

/-- The furthest place at which a rule failed, as the number of tokens before it, with the rules
that failed there. -/
structure Furthest where
  position : Nat
  rules : List Rule

namespace Furthest

/-- Nothing has failed yet. -/
def start : Furthest := ⟨0, []⟩

/-- How many rules have failed at a place. -/
def countAt (furthest : Furthest) (position : Nat) : Nat :=
  if position = furthest.position then furthest.rules.length else 0

/-- Adds a rule that failed at `position`, where `before` rules had failed when it was tried.

A rule stands for the failures inside it at its own place, unless there was just one: then that
one says more. -/
def record (furthest : Furthest) (rule : Rule) (position before : Nat) : Furthest :=
  if furthest.countAt position = before + 1 then furthest
  else if position = furthest.position then ⟨position, furthest.rules.take before ++ [rule]⟩
  else if furthest.position < position then ⟨position, [rule]⟩
  else furthest

/-- The failed rules without repetition, in the order in which a message lists them. -/
def expected (furthest : Furthest) : List Rule :=
  Rule.all.filter (furthest.rules.contains ·)

end Furthest

/-- A place in the tokens. -/
structure Cursor where
  /-- The number of tokens before the place. -/
  position : Nat
  /-- The tokens after it. -/
  rest : List Token
  /-- The pieces before it, since the innermost rule that is still being matched began. -/
  pieces : List Piece

/-- Matches the front of the tokens or fails, noting the rules that failed on the way. -/
abbrev Recognizer := Cursor → Furthest → Option Cursor × Furthest

namespace Recognizer

/-- Always fails. -/
def refuse : Recognizer := fun _ furthest => (none, furthest)

/-- Accepts one token of a kind. -/
def token (accepts : Token → Bool) : Recognizer
  | ⟨position, first :: rest, pieces⟩, furthest =>
    (if accepts first then some ⟨position + 1, rest, pieces⟩ else none, furthest)
  | ⟨_, [], _⟩, furthest => (none, furthest)

/-- One recognizer after another. -/
def andThen (first second : Recognizer) : Recognizer := fun cursor furthest =>
  match first cursor furthest with
  | (some next, furthest) => second next furthest
  | (none, furthest) => (none, furthest)

/-- The second recognizer where the first one fails. -/
def orElse (first second : Recognizer) : Recognizer := fun cursor furthest =>
  match first cursor furthest with
  | (some next, furthest) => (some next, furthest)
  | (none, furthest) => second cursor furthest

/-- A part that may be left out. -/
def optional (part : Recognizer) : Recognizer :=
  part.orElse fun cursor furthest => (some cursor, furthest)

/-- A part repeated as often as it is accepted, at most `limit` times. -/
def upTo (part : Recognizer) : (limit : Nat) → Recognizer
  | 0 => fun cursor furthest => (some cursor, furthest)
  | limit + 1 => (part.andThen (upTo part limit)).optional

/-- A part repeated as often as it is accepted; each repetition takes a token. -/
def many (part : Recognizer) : Recognizer := fun cursor =>
  part.upTo (cursor.rest.length + 1) cursor

/-- A rule. What its body matches is one piece, and when its body fails it is noted as failed at its
place. -/
def rule (name : Rule) (body : Recognizer) : Recognizer := fun cursor furthest =>
  let before := furthest.countAt cursor.position
  match body ⟨cursor.position, cursor.rest, []⟩ furthest with
  | (some next, furthest) =>
    let tokens := cursor.rest.take (next.position - cursor.position)
    (some ⟨next.position, next.rest, cursor.pieces ++ [.mk name tokens next.pieces]⟩, furthest)
  | (none, furthest) => (none, furthest.record name cursor.position before)

/-- A name. -/
def identifier : Recognizer :=
  rule .identifier (token fun | .name _ => true | _ => false)

/-- A number. -/
def number : Recognizer :=
  rule .number (token fun | .number _ => true | _ => false)

/-- One of the operators between operands. -/
def operator : Recognizer :=
  (rule .add (token (· == .plus))).orElse <|
  (rule .subtract (token (· == .minus))).orElse <|
  (rule .multiply (token (· == .times))).orElse <|
  (rule .divide (token (· == .slash))).orElse <|
  rule .power (token (· == .caret))

/-- An assignment to a name. -/
def assignment (expression : Recognizer) : Recognizer :=
  rule .assignment (identifier.andThen ((token (· == .assign)).andThen expression))

/-- An assignment, or else a plain expression. -/
def statement (expression : Recognizer) : Recognizer :=
  (assignment expression).orElse expression

/-- The arguments of a call. -/
def arguments (expression : Recognizer) : Recognizer :=
  (statement expression).andThen ((token (· == .comma)).andThen (statement expression)).many

/-- A name with arguments in parentheses. -/
def call (expression : Recognizer) : Recognizer :=
  rule .call <|
    identifier.andThen <| (token (· == .opening)).andThen <|
    (arguments expression).optional.andThen (token (· == .closing))

/-- A call, a number, a name or an expression in parentheses. -/
def primary (expression : Recognizer) : Recognizer :=
  (call expression).orElse <| number.orElse <| identifier.orElse <|
  (token (· == .opening)).andThen <| expression.andThen (token (· == .closing))

/-- A primary after any number of minus signs. -/
def operand (expression : Recognizer) : Recognizer :=
  (rule .negate (token (· == .minus))).many.andThen (primary expression)

/-- Operands with operators between them, nested less than `depth` deep. -/
def expression : (depth : Nat) → Recognizer
  | 0 => refuse
  | depth + 1 =>
    let operand := operand (expression depth)
    rule .expr (operand.andThen (operator.andThen operand).many)

/-- The end of the tokens. -/
def endOfInput : Recognizer :=
  rule .endOfInput fun cursor furthest =>
    (if cursor.rest.isEmpty then some cursor else none, furthest)

/-- A whole input: one statement and nothing after it. -/
def program (depth : Nat) : Recognizer :=
  rule .program ((statement (expression depth)).andThen endOfInput)

end Recognizer

/-- The pieces of the tokens, if these fit the grammar. -/
def pieces? (tokens : List Token) : Option (List Piece) :=
  (Recognizer.program (tokens.length + 1) ⟨0, tokens, []⟩ .start).1.map (·.pieces)

/-- Where the tokens stop fitting the grammar, and what it expected there. -/
def furthest (tokens : List Token) : Furthest :=
  (Recognizer.program (tokens.length + 1) ⟨0, tokens, []⟩ .start).2

end Calculator.Grammar
