import Calculator.Grammar.Expectation

/-! The message on a text that the grammar does not accept: the place, the line and what was
expected there. -/

namespace Calculator.Grammar

/-- A failure to read a text. -/
structure ParseError where
  /-- The text, without white space at its ends. -/
  text : List Char
  /-- The number of characters before the place of the failure. -/
  offset : Nat
  /-- What could have stood there. -/
  expected : List Rule

namespace ParseError

/-- The failure of a text that is not accepted. -/
def ofText (text : List Char) : ParseError :=
  let lexemes := scan text
  let furthest := furthest (lexemes.map (·.token))
  let offset := ((lexemes[furthest.position]?).map (·.offset)).getD text.length
  ⟨text, offset, furthest.expected⟩

/-- The text before the place of the failure. -/
def before (error : ParseError) : List Char := error.text.take error.offset

/-- The number of the failing line, from one. -/
def line (error : ParseError) : Nat := error.before.count '\n' + 1

/-- The part of the failing line before the place. -/
def lineStart (error : ParseError) : List Char :=
  (error.before.reverse.takeWhile (· != '\n')).reverse

/-- The place in the failing line, in characters from one. -/
def column (error : ParseError) : Nat := error.lineStart.length + 1

/-- The failing line, without line ends. -/
def lineText (error : ParseError) : List Char :=
  let lineEnd := (error.text.drop error.offset).takeWhile (· != '\n')
  (error.lineStart ++ lineEnd).filter fun (char : Char) => char != '\r'

/-- A mark under the place of the failure, with tabs kept so that it lines up. -/
def underline (error : ParseError) : List Char :=
  (error.lineText.take (error.column - 1)).map (fun (char : Char) =>
    if char == '\t' then '\t' else ' ') ++ "^---".toList

/-- Names joined for reading: `A`, `A or B`, `A, B, or C`. -/
def enumeration : List String → String
  | [] => ""
  | [only] => only
  | [first, second] => first ++ " or " ++ second
  | names => String.intercalate ", " names.dropLast ++ ", or " ++ names.getLastD ""

/-- The message, laid out around the failing line. -/
def message (error : ParseError) : String :=
  let number := toString error.line
  let margin := String.ofList (List.replicate number.length ' ')
  let expected := enumeration (error.expected.map (·.name))
  String.intercalate "\n"
    [s!"{margin}--> {number}:{error.column}",
      s!"{margin} |",
      s!"{number} | {String.ofList error.lineText}",
      s!"{margin} | {String.ofList error.underline}",
      s!"{margin} |",
      s!"{margin} = expected {expected}"]

end ParseError

end Calculator.Grammar
