import Calculator.Grammar.Blank
import Calculator.Grammar.Numeral

/-! The tokens of a text and the places where they start. -/

namespace Calculator.Grammar

/-- The smallest meaningful pieces of a text. -/
inductive Token where
  | number (value : Float)
  | name (text : String)
  | assign
  | plus
  | minus
  | times
  | slash
  | caret
  | opening
  | closing
  | comma
  /-- A character that starts no token. -/
  | stray (char : Char)
  deriving DecidableEq

/-- A token with the number of characters before it. -/
structure Lexeme where
  token : Token
  offset : Nat

/-- A name starts with a letter or an underscore. -/
def startsName (char : Char) : Bool := char.isAlpha || char == '_'

/-- A name goes on with letters, digits and underscores. -/
def continuesName (char : Char) : Bool := char.isAlphanum || char == '_'

namespace Token

/-- The token that a character starts, with the number of further characters it takes. -/
def leading (first : Char) (rest : List Char) : Token × Nat :=
  if startsName first then
    let more := rest.takeWhile continuesName
    (.name (String.ofList (first :: more)), more.length)
  else
    match Numeral.read? (first :: rest) with
    | some numeral => (.number numeral.toFloat, numeral.length - 1)
    | none =>
      match first, rest with
      | ':', '=' :: _ => (.assign, 1)
      | '+', _ => (.plus, 0)
      | '-', _ => (.minus, 0)
      | '*', _ => (.times, 0)
      | '/', _ => (.slash, 0)
      | '^', _ => (.caret, 0)
      | '(', _ => (.opening, 0)
      | ')', _ => (.closing, 0)
      | ',', _ => (.comma, 0)
      | char, _ => (.stray char, 0)

end Token

/-- The tokens of a text from `offset` on, of which the first `covered` characters belong to a
token that is already read. -/
def scanFrom (offset covered : Nat) : List Char → List Lexeme
  | [] => []
  | char :: rest =>
    match covered with
    | covered + 1 => scanFrom (offset + 1) covered rest
    | 0 =>
      if isBlank char then scanFrom (offset + 1) 0 rest
      else
        let (token, further) := Token.leading char rest
        ⟨token, offset⟩ :: scanFrom (offset + 1) further rest

/-- The tokens of a text, each as long as possible, with blanks between them dropped. -/
def scan (text : List Char) : List Lexeme := scanFrom 0 0 text

end Calculator.Grammar
