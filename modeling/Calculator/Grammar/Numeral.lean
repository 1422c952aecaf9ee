/-! Number literals: digits with an optional point and an optional exponent. -/

namespace Calculator.Grammar

/-- A number literal read off the front of a text. -/
structure Numeral where
  /-- All digits before the exponent, read as one whole number. -/
  significand : Nat
  /-- The power of ten that scales the significand. -/
  exponent : Int
  /-- How many characters the literal takes. -/
  length : Nat

namespace Numeral

/-- The double nearest to the literal, a tie going to the even significand. -/
def toFloat (numeral : Numeral) : Float :=
  Float.ofScientific numeral.significand (decide (numeral.exponent < 0)) numeral.exponent.natAbs

/-- The digits at the front of a text. -/
def leadingDigits (text : List Char) : List Char := text.takeWhile Char.isDigit

/-- The whole number that digits spell. -/
def digitsValue (digits : List Char) : Nat :=
  digits.foldl (fun (value : Nat) (digit : Char) => 10 * value + (digit.toNat - '0'.toNat)) 0

/-- Digits with an optional point; at least one digit is required. -/
def mantissa? (text : List Char) : Option Numeral :=
  let whole := leadingDigits text
  match text.drop whole.length with
  | '.' :: rest =>
    let fraction := leadingDigits rest
    if whole.isEmpty && fraction.isEmpty then none
    else
      some ⟨digitsValue (whole ++ fraction), -(fraction.length : Int),
        whole.length + 1 + fraction.length⟩
  | _ => if whole.isEmpty then none else some ⟨digitsValue whole, 0, whole.length⟩

/-- The exponent at the front of a text, with its length; a letter without digits is none. -/
def exponent? : List Char → Option (Int × Nat)
  | letter :: rest =>
    if letter == 'e' || letter == 'E' then
      let (negative, signs) : Bool × Nat :=
        match rest with
        | '-' :: _ => (true, 1)
        | '+' :: _ => (false, 1)
        | _ => (false, 0)
      let digits := leadingDigits (rest.drop signs)
      if digits.isEmpty then none
      else
        let size := (digitsValue digits : Int)
        some (if negative then -size else size, 1 + signs + digits.length)
    else none
  | [] => none

/-- The longest number literal at the front of a text. -/
def read? (text : List Char) : Option Numeral :=
  (mantissa? text).map fun (mantissa : Numeral) =>
    match exponent? (text.drop mantissa.length) with
    | some (exponent, length) =>
      ⟨mantissa.significand, mantissa.exponent + exponent, mantissa.length + length⟩
    | none => mantissa

end Numeral

end Calculator.Grammar
