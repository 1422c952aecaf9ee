/-! Blank characters: those that may stand around a line, and those that may stand in it. -/

namespace Calculator.Grammar

/-- Unicode white space, dropped from both ends of an input. -/
def isSpace (char : Char) : Bool :=
  let code := char.toNat
  (9 ≤ code && code ≤ 13) || code == 0x20 || code == 0x85 || code == 0xA0 || code == 0x1680 ||
    (0x2000 ≤ code && code ≤ 0x200A) || code == 0x2028 || code == 0x2029 || code == 0x202F ||
    code == 0x205F || code == 0x3000

/-- The blanks that may separate tokens. -/
def isBlank (char : Char) : Bool :=
  char == ' ' || char == '\t' || char == '\r' || char == '\n'

/-- The text without white space at its ends. -/
def trim (text : List Char) : List Char :=
  ((text.dropWhile isSpace).reverse.dropWhile isSpace).reverse

/-- Every blank is white space, so a trimmed text neither starts nor ends with one. -/
theorem isSpace_of_isBlank (char : Char) (blank : isBlank char = true) :
    isSpace char = true := by
  -- Each of the four blanks is one of the listed code points.
  simp only [isBlank, Bool.or_eq_true, beq_iff_eq] at blank
  rcases blank with ((rfl | rfl) | rfl) | rfl <;> decide

end Calculator.Grammar
