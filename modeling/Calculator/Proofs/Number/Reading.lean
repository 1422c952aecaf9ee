import Calculator.Number.Text
import Calculator.Proofs.Grammar.Literal
import Calculator.Proofs.Number.Exactness
import Mathlib.Data.Nat.Cast.Field

/-! The text of a finite number is a literal that reads as the number, behind a minus sign where
the number is negative. -/

namespace Calculator

open Binary
open Float.Model (UnpackedFloat)
open Float.Model.UnpackedFloat
open Grammar (Numeral)
open Grammar.Numeral (IsDigits Literal Mantissa digitsValue)

namespace Decimal

/-- The digits of a number are digits. -/
theorem isDigits_toDigits (number : Nat) : IsDigits (Nat.toDigits 10 number) :=
  ⟨Nat.toDigits_ne_nil, fun _ member =>
    Nat.isDigit_of_mem_toDigits (by decide) (by decide) member⟩

/-- Digits behind others push these up by their own number. -/
theorem digitsValue_append (left right : List Char) :
    digitsValue (left ++ right) = 10 ^ right.length * digitsValue left + digitsValue right := by
  -- The digits of the first part are shifted by as many places as the second has.
  show Nat.ofDigitChars 10 (left ++ right) 0 = _
  rw [Nat.ofDigitChars_append, Nat.ofDigitChars_eq_ofDigitChars_zero]
  rfl

/-- The digits of a number spell it. -/
theorem digitsValue_toDigits (number : Nat) : digitsValue (Nat.toDigits 10 number) = number :=
  Nat.ofDigitChars_ten_toDigits

/-- Zeros spell nothing. -/
theorem digitsValue_replicate_zero (count : Nat) :
    digitsValue (List.replicate count '0') = 0 := by
  -- Zeros add nothing in any place.
  show Nat.ofDigitChars 10 (List.replicate count '0') 0 = 0
  rw [Nat.ofDigitChars_replicate_zero, Nat.mul_zero]

/-- The digits of a number behind zeros that fill them up to a width. -/
def padded (width number : Nat) : List Char :=
  List.replicate (width - (Nat.toDigits 10 number).length) '0' ++ Nat.toDigits 10 number

/-- A number that fits is filled up to the width exactly. -/
theorem length_padded {width number : Nat} (fits : number < 10 ^ width) (some : 0 < width) :
    (padded width number).length = width := by
  -- The digits alone are no longer than the width.
  have short := (Nat.length_toDigits_le_iff (by decide) some).2 fits
  rw [padded, List.length_append, List.length_replicate]
  omega

/-- Padding adds digits to digits. -/
theorem isDigit_of_mem_padded (width number : Nat) :
    ∀ char ∈ padded width number, char.isDigit = true := by
  -- The digits are zeros in front and those of the number behind.
  intro char member
  rcases List.mem_append.1 member with zero | digit
  · rw [List.eq_of_mem_replicate zero]
    decide
  · exact (isDigits_toDigits number).2 char digit

/-- Padding does not change what digits spell. -/
theorem digitsValue_padded (width number : Nat) : digitsValue (padded width number) = number := by
  -- Zeros in front do not change the value.
  rw [padded, digitsValue_append, digitsValue_replicate_zero, digitsValue_toDigits, Nat.mul_zero,
    Nat.zero_add]

/-- The text of a decimal spells its digits and its scale, and has no exponent. -/
theorem mantissa_chars (decimal : Decimal) :
    Mantissa decimal.chars decimal.digits (-(decimal.places : Int)) := by
  -- A point is written only if there are places behind it.
  by_cases whole : decimal.places = 0
  · have plain : decimal.chars = Nat.toDigits 10 decimal.digits := if_pos whole
    have mantissa := Mantissa.whole (isDigits_toDigits decimal.digits)
    rw [digitsValue_toDigits, ← plain] at mantissa
    simpa [whole] using mantissa
  · -- The whole part and the padded fraction are together all digits.
    have pointed : decimal.chars = Nat.toDigits 10 (decimal.digits / 10 ^ decimal.places) ++
        '.' :: padded decimal.places (decimal.digits % 10 ^ decimal.places) := if_neg whole
    have width := length_padded (Nat.mod_lt decimal.digits (Nat.pow_pos (by decide)))
      (Nat.pos_of_ne_zero whole)
    have mantissa := Mantissa.pointed (isDigits_toDigits (decimal.digits / 10 ^ decimal.places))
      (isDigit_of_mem_padded decimal.places (decimal.digits % 10 ^ decimal.places))
    rw [digitsValue_append, digitsValue_padded, digitsValue_toDigits, width, Nat.div_add_mod,
      ← pointed] at mantissa
    exact mantissa

/-- The text of a decimal is a literal with its digits and its scale. -/
theorem literal_chars (decimal : Decimal) :
    Literal decimal.chars ⟨decimal.digits, -(decimal.places : Int), decimal.chars.length⟩ := by
  -- A mantissa without an exponent is a literal.
  simpa using Literal.mk decimal.mantissa_chars .absent

/-- The text of a decimal reads as the decimal does. -/
theorem toFloat_eq (decimal : Decimal) (length : Nat) :
    (⟨decimal.digits, -(decimal.places : Int), length⟩ : Numeral).toFloat = decimal.toFloat := by
  -- Both are converted from the same digits and the same scale.
  unfold Numeral.toFloat toFloat
  simp only [Int.natAbs_neg, Int.natAbs_natCast]
  congr 1
  simp

/-- A decimal that is a double reads as that double. -/
theorem toFloat_of_holds {decimal : Decimal} {value : Float}
    (holds : Holds value (decimal.digits / 10 ^ decimal.places)) : decimal.toFloat = value := by
  -- The digits with their scale are the fraction that the double holds.
  rw [← toFloat_eq decimal 0]
  apply ofScientific_eq
  rwa [zpow_neg, zpow_natCast, ← div_eq_mul_inv]

/-- A decimal on a grid is only taken if it reads back. -/
theorem beq_of_onGrid? {numerator denominator : Nat} {target : Float} {scale : Int}
    {decimal : Decimal} (found : onGrid? numerator denominator target scale = some decimal) :
    (decimal.toFloat == target) = true := by
  simp only [onGrid?] at found
  -- Of the two neighbours on the grid only those that read back are in the choice.
  split at found
  · rename_i lower upper
    rw [← Option.some.inj found]
    split <;> assumption
  · rename_i lower _
    rwa [← Option.some.inj found]
  · rename_i _ upper
    rwa [← Option.some.inj found]
  · exact nomatch found

end Decimal

namespace Exact

/-- The fraction of an exact value is its significand at its exponent. -/
theorem numerator_div_denominator (exact : Exact) :
    (exact.numerator : ℚ) / exact.denominator = size exact.significand exact.exponent := by
  unfold numerator denominator size
  push_cast
  -- The sign of the exponent says on which side of the fraction the power of two is.
  rcases Int.le_total 0 exact.exponent with up | down
  · obtain ⟨shift, same⟩ := Int.eq_ofNat_of_zero_le up
    simp [same]
  · obtain ⟨shift, same⟩ := Int.exists_eq_neg_ofNat down
    simp [same, div_eq_mul_inv]

/-- A value without a fractional part is its whole part. -/
theorem whole_eq {exact : Exact} (isWhole : exact.isWhole = true) :
    (exact.whole : ℚ) = size exact.significand exact.exponent := by
  -- A whole number is divided without a rest.
  have divides : exact.denominator ∣ exact.numerator :=
    Nat.dvd_of_mod_eq_zero (by simpa [Exact.isWhole] using isWhole)
  rw [← exact.numerator_div_denominator]
  exact Nat.cast_div divides (by exact_mod_cast exact.denominator_pos.ne')

end Exact

namespace Decimal

/-- The exact value in full is the exact value. -/
theorem full_eq (exact : Exact) :
    ((full exact).digits : ℚ) / 10 ^ (full exact).places =
      size exact.significand exact.exponent := by
  rw [← exact.numerator_div_denominator]
  -- As many fives in the numerator turn the powers of two below into powers of ten.
  unfold full Exact.denominator
  push_cast
  rw [show (10 : ℚ) = 2 * 5 by norm_num, mul_pow]
  field_simp

/-- The shortest digits read back. -/
theorem shortest_toFloat {exact : Exact} {target : Float}
    (holds : Holds target (size exact.significand exact.exponent)) :
    (shortest exact target).toFloat = target := by
  simp only [shortest]
  -- Either a grid gives digits that were tried, or all digits are written.
  cases found : List.findSome? (onGrid? exact.numerator exact.denominator target)
      ((List.range 17).map fun (count : Nat) =>
        magnitude exact.numerator exact.denominator - 1 - (count : Int)) with
  | some decimal =>
    obtain ⟨scale, _, taken⟩ := List.exists_of_findSome?_eq_some found
    exact holds.eq_of_beq (beq_of_onGrid? taken)
  | none => exact toFloat_of_holds (full_eq exact ▸ holds)

end Decimal

/-- The exact value of a finite number is read off what it holds. -/
theorem ofFloat?_of_unpack {value : Float} {sign : Sign} {m : Nat} {e : Int} {positive : 0 < m}
    (unpacked : value.toModel.unpack = .finite sign m e positive) :
    Exact.ofFloat? value = some ⟨sign == .negative, m, e⟩ := by
  -- The parts of the double are the parts of its exact value.
  rw [Exact.ofFloat?, unpacked]

/-- Taking the magnitude drops the sign alone. -/
theorem unpack_abs {value : Float} {sign : Sign} {m : Nat} {e : Int} {positive : 0 < m}
    (unpacked : value.toModel.unpack = .finite sign m e positive) :
    value.abs.toModel.unpack = .finite .positive m e positive := by
  -- The magnitude is canonical as the number is, so packing keeps it.
  have canonical : Canonical value.toModel.unpack := canonical_unpack _
  rw [unpacked] at canonical
  show stored value.toModel.unpack.abs = _
  rw [unpacked]
  exact stored_finite .positive m e positive canonical

/-- Negating turns the sign alone. -/
theorem unpack_neg {value : Float} {sign : Sign} {m : Nat} {e : Int} {positive : 0 < m}
    (unpacked : value.toModel.unpack = .finite sign m e positive) :
    (-value).toModel.unpack = .finite (-sign) m e positive := by
  -- The opposite is canonical as the number is, so packing keeps it.
  have canonical : Canonical value.toModel.unpack := canonical_unpack _
  rw [unpacked] at canonical
  show stored value.toModel.unpack.neg = _
  rw [unpacked]
  exact stored_finite (-sign) m e positive canonical

/-- A positive number is its own magnitude. -/
theorem abs_of_holds {value : Float} {fraction : ℚ} (holds : Holds value fraction) :
    value.abs = value := by
  -- A positive value is its own magnitude.
  obtain ⟨m, e, positive, unpacked, _⟩ := holds
  exact eq_of_unpack_eq ((unpack_abs unpacked).trans unpacked.symm)

/-- A positive number is written as a decimal that reads as it. -/
theorem exists_decimal_of_holds {value : Float} {fraction : ℚ} (holds : Holds value fraction) :
    ∃ decimal : Decimal, numberChars value = decimal.chars ∧ decimal.toFloat = value := by
  have abs := abs_of_holds holds
  obtain ⟨m, e, positive, unpacked, rfl⟩ := id holds
  have unsigned : (Sign.positive == .negative) = false := rfl
  simp only [numberChars, ofFloat?_of_unpack unpacked, unsigned, signed, Bool.false_and,
    Bool.false_eq_true, if_false, abs]
  split
  · -- A whole number is its own digits.
    rename_i small
    simp only [Bool.and_eq_true] at small
    refine ⟨⟨(Exact.mk false m e).whole, 0⟩, rfl, Decimal.toFloat_of_holds ?_⟩
    rw [pow_zero, div_one, Exact.whole_eq small.1]
    exact holds
  · exact ⟨_, rfl, Decimal.shortest_toFloat holds⟩

/-- A finite number is written as its magnitude, behind its sign. -/
theorem numberChars_eq_signed {value : Float} {sign : Sign} {m : Nat} {e : Int} {positive : 0 < m}
    (unpacked : value.toModel.unpack = .finite sign m e positive) :
    numberChars value = signed (sign == .negative) (numberChars value.abs) := by
  have magnitude := unpack_abs unpacked
  have abs := abs_of_holds ⟨m, e, positive, magnitude, rfl⟩
  have unsigned : (Sign.positive == .negative) = false := rfl
  simp only [numberChars, ofFloat?_of_unpack unpacked, ofFloat?_of_unpack magnitude, abs, unsigned]
  -- Only the sign tells the two exact values apart, and no magnitude is zero.
  generalize (sign == Sign.negative) = negative
  rw [show (Exact.mk negative m e).isWhole = (Exact.mk false m e).isWhole from rfl,
    show (Exact.mk negative m e).whole = (Exact.mk false m e).whole from rfl,
    show Decimal.shortest ⟨negative, m, e⟩ value.abs = .shortest ⟨false, m, e⟩ value.abs from rfl]
  split
  · rename_i small
    simp only [Bool.and_eq_true] at small
    have exact := Exact.whole_eq small.1
    have filled : (Exact.mk false m e).whole ≠ 0 := by
      intro none
      rw [none] at exact
      exact absurd exact (by have := size_pos e positive; simp; linarith)
    simp [filled, signed]
  · simp [signed]

/-- What finite doubles hold, by their sign. -/
theorem unpack_of_isFinite {value : Float} (finite : value.isFinite = true) :
    (value < 0 ∧ ∃ m e positive, value.toModel.unpack = .finite .negative m e positive) ∨
      (¬ value < 0 ∧ ((∃ sign, value.toModel.unpack = .zero sign) ∨
        ∃ m e positive, value.toModel.unpack = .finite .positive m e positive)) := by
  -- The order of doubles is the order of their places, and zero has the place zero.
  have held : value.toModel.unpack.isFinite = true := finite
  have number := isNumber_of_isFinite finite
  have below := lt_iff_place number isNumber_zero
  rw [place_zero, place] at below
  cases unpacked : value.toModel.unpack with
  | notANumber => exact absurd unpacked number
  | infinity sign => simp [unpacked, UnpackedFloat.isFinite] at held
  | zero sign =>
    rw [unpacked] at below
    exact .inr ⟨by simp [below, rank], .inl ⟨sign, rfl⟩⟩
  | finite sign m e positive =>
    have placed : 0 < key m e := by
      unfold key
      omega
    rw [unpacked] at below
    cases sign with
    | negative => exact .inl ⟨below.2 (by simp only [rank]; omega), m, e, positive, rfl⟩
    | positive =>
      refine .inr ⟨fun less => ?_, .inr ⟨m, e, positive, rfl⟩⟩
      have := below.1 less
      simp only [rank] at this
      omega

/-- A finite number without a sign is written as a decimal that reads as it. -/
theorem exists_decimal_numberChars {value : Float} (finite : value.isFinite = true)
    (unsigned : ¬ value < 0) (notNegativeZero : value ≠ -0.0) :
    ∃ decimal : Decimal, numberChars value = decimal.chars ∧ decimal.toFloat = value := by
  -- Zero and positive values are left, as negative ones are excluded.
  rcases unpack_of_isFinite finite with
    ⟨negative, _⟩ | ⟨_, ⟨sign, unpacked⟩ | ⟨m, e, positive, unpacked⟩⟩
  · exact absurd negative unsigned
  · cases sign with
    | negative => exact absurd (eq_of_unpack_eq (by rw [unpacked]; rfl)) notNegativeZero
    | positive =>
      obtain rfl : value = 0 := eq_of_unpack_eq (by rw [unpacked]; rfl)
      exact ⟨⟨0, 0⟩, rfl, rfl⟩
  · exact exists_decimal_of_holds ⟨m, e, positive, unpacked, rfl⟩

/-- A finite number without a sign is written as a literal that reads as it. -/
theorem exists_literal_numberChars {value : Float} (finite : value.isFinite = true)
    (unsigned : ¬ value < 0) (notNegativeZero : value ≠ -0.0) :
    ∃ numeral, Literal (numberChars value) numeral ∧ numeral.toFloat = value := by
  -- The decimal is a literal, and it is read back.
  obtain ⟨decimal, chars, reads⟩ := exists_decimal_numberChars finite unsigned notNegativeZero
  exact ⟨_, chars ▸ decimal.literal_chars, (decimal.toFloat_eq _).trans reads⟩

/-- A negative finite number is written as its opposite behind a minus sign. -/
theorem numberChars_of_neg {value : Float} (finite : value.isFinite = true) (negative : value < 0) :
    numberChars value = '-' :: numberChars (-value) ∧
      (-value).isFinite = true ∧ ¬ -value < 0 ∧ -value ≠ -0.0 := by
  -- The opposite is the magnitude, which is written without a sign.
  rcases unpack_of_isFinite finite with ⟨_, m, e, positive, unpacked⟩ | ⟨unsigned, _⟩
  · have opposite : (-value).toModel.unpack = .finite .positive m e positive := unpack_neg unpacked
    have isFinite : (-value).isFinite = true := by
      show (-value).toModel.unpack.isFinite = true
      rw [opposite]
      rfl
    have same : value.abs = -value := eq_of_unpack_eq ((unpack_abs unpacked).trans opposite.symm)
    refine ⟨?_, isFinite, ?_, ?_⟩
    · rw [numberChars_eq_signed unpacked, same]
      rfl
    · intro below
      rcases unpack_of_isFinite isFinite with ⟨_, _, _, _, wrong⟩ | ⟨above, _⟩
      · simp [opposite] at wrong
      · exact above below
    · intro zero
      rw [zero] at opposite
      exact nomatch opposite
  · exact absurd negative unsigned

end Calculator
