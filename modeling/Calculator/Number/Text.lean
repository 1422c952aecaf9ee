import Calculator.Number.Decimal

/-! How numbers are written: whole numbers plainly, all others by their shortest digits. -/

namespace Calculator

-- Powers are the core library's own, also where another library has instances for them.
attribute [local instance (2000)] instPowNat

/-- Whole numbers of at least this magnitude are written by their shortest digits. -/
def wholeLimit : Nat := 10 ^ (15 : Nat)

/-- A minus sign in front of a text. -/
def signed (negative : Bool) (text : List Char) : List Char :=
  if negative then '-' :: text else text

/-- The characters of a number's text. -/
def numberChars (value : Float) : List Char :=
  match Exact.ofFloat? value with
  | some exact =>
    if exact.isWhole && exact.whole < wholeLimit then
      -- A zero is written without its sign.
      signed (exact.negative && exact.whole != 0) (Nat.toDigits 10 exact.whole)
    else signed exact.negative (Decimal.shortest exact value.abs).chars
  | none =>
    if value.isNaN then "NaN".toList else signed (value < 0) "inf".toList

/-- The text of a number: never an exponent, and no point in a whole number. -/
def numberText (value : Float) : String := String.ofList (numberChars value)

end Calculator
