/-! The exact value of a finite double, on which its text and its whole part rest. -/

namespace Calculator

-- Powers are the core library's own, also where another library has instances for them.
attribute [local instance (2000)] instPowNat

/-- A finite double as the fraction `± significand · 2 ^ exponent`, with nothing rounded away. -/
structure Exact where
  /-- The sign bit, also kept by a zero. -/
  negative : Bool
  /-- The binary digits, zero exactly for the two zeros. -/
  significand : Nat
  /-- The power of two that scales the significand. -/
  exponent : Int
  deriving DecidableEq

namespace Exact

/-- The exact value of a double, which infinities and NaN do not have. -/
def ofFloat? (value : Float) : Option Exact :=
  match value.toModel.unpack with
  | .zero sign => some ⟨sign == .negative, 0, 0⟩
  | .finite sign significand exponent _ => some ⟨sign == .negative, significand, exponent⟩
  | .infinity _ | .notANumber => none

/-- The magnitude's numerator over `denominator`. -/
def numerator (exact : Exact) : Nat := exact.significand * 2 ^ exact.exponent.toNat

/-- The magnitude's denominator, a power of two. -/
def denominator (exact : Exact) : Nat := 2 ^ (-exact.exponent).toNat

/-- The whole part of the magnitude. -/
def whole (exact : Exact) : Nat := exact.numerator / exact.denominator

/-- The value has no fractional part. -/
def isWhole (exact : Exact) : Bool := exact.numerator % exact.denominator == 0

/-- The whole number nearest to the magnitude, a half going away from zero. -/
def nearest (exact : Exact) : Nat :=
  (2 * exact.numerator + exact.denominator) / (2 * exact.denominator)

/-- A denominator is never zero, so every quotient over it is meant. -/
theorem denominator_pos (exact : Exact) : 0 < exact.denominator := by
  -- Powers of two are positive.
  exact Nat.pow_pos (by decide)

end Exact

end Calculator
