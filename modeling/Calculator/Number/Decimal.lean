import Calculator.Number.Exact

/-! Positional decimals, how they read as doubles, and the shortest one that reads back. -/

namespace Calculator

-- Powers are the core library's own, also where another library has instances for them.
attribute [local instance (2000)] instPowNat

/-- A positional decimal: `digits` with a point before the last `places` of them. -/
structure Decimal where
  /-- All digits, read as one whole number. -/
  digits : Nat
  /-- How many of the digits stand after the point. -/
  places : Nat
  deriving DecidableEq

namespace Decimal

/-- The double nearest to the decimal, a tie going to the even significand. -/
def toFloat (decimal : Decimal) : Float :=
  Float.ofScientific decimal.digits (decide (0 < decimal.places)) decimal.places

/-- The decimal's text, without a point when no digit follows it. -/
def chars (decimal : Decimal) : List Char :=
  if decimal.places = 0 then Nat.toDigits 10 decimal.digits
  else
    Nat.toDigits 10 (decimal.digits / 10 ^ decimal.places) ++ '.' ::
      -- The fraction keeps its leading zeros up to the stated width.
      (let fraction := Nat.toDigits 10 (decimal.digits % 10 ^ decimal.places)
       List.replicate (decimal.places - fraction.length) '0' ++ fraction)

/-- The decimal `count · 10 ^ scale`. -/
def scaled (count : Nat) (scale : Int) : Decimal :=
  ⟨count * 10 ^ scale.toNat, (-scale).toNat⟩

/-- The exponent `p` with `10 ^ (p - 1) ≤ numerator / denominator < 10 ^ p`. -/
def magnitude (numerator denominator : Nat) : Int :=
  -- The two digit counts bound the exponent to one of two neighbours.
  let guess : Int :=
    (Nat.toDigits 10 numerator).length - (Nat.toDigits 10 denominator).length
  if denominator * 10 ^ guess.toNat ≤ numerator * 10 ^ (-guess).toNat then guess + 1 else guess

/-- The nearest multiple of `10 ^ scale` that reads as `target`, among the two neighbours of
`numerator / denominator`; of two equally near ones, the larger. -/
def onGrid? (numerator denominator : Nat) (target : Float) (scale : Int) : Option Decimal :=
  let scaledNumerator := numerator * 10 ^ (-scale).toNat
  let scaledDenominator := denominator * 10 ^ scale.toNat
  let below := scaledNumerator / scaledDenominator
  let lower := scaled below scale
  -- Ten steps of this grid are one step of the next, so the point moves rather than a zero is kept.
  let upper := if below = 9 then scaled 1 (scale + 1) else scaled (below + 1) scale
  let lowerNearer := 2 * (scaledNumerator % scaledDenominator) < scaledDenominator
  let readsBack (decimal : Decimal) : Bool := decimal.toFloat == target
  match readsBack lower, readsBack upper with
  | true, true => some (if lowerNearer then lower else upper)
  | true, false => some lower
  | false, true => some upper
  | false, false => none

/-- The exact value written out in full. -/
def full (exact : Exact) : Decimal :=
  -- A denominator of two to the `n` divides ten to the `n`.
  let places := (-exact.exponent).toNat
  ⟨exact.numerator * 5 ^ places, places⟩

/-- The decimal with the fewest significant digits that reads as `target`, whose exact magnitude
is given; among several, the nearest. -/
def shortest (exact : Exact) (target : Float) : Decimal :=
  let top := magnitude exact.numerator exact.denominator
  -- Seventeen digits tell all doubles apart.
  let grids := (List.range 17).map fun (count : Nat) => top - 1 - (count : Int)
  (grids.findSome? (onGrid? exact.numerator exact.denominator target)).getD (full exact)

end Decimal

end Calculator
