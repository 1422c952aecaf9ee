import Calculator.Proofs.Number.Operations
import Calculator.Proofs.Number.Sign

/-! The text of a finite number gives the number back: it is an optional minus sign and a literal
without an exponent, of which the number is the correctly rounded value. -/

namespace Calculator

open Binary
open Grammar (EndsWord Numeral)
open Grammar.Numeral (Literal Mantissa)

section Texts

/-- A literal begins with a digit or a point, so never with a minus sign. -/
theorem Grammar.Numeral.Mantissa.ne_minus {text : List Char} {significand : Nat} {scale : Int}
    (mantissa : Mantissa text significand scale) (rest : List Char) : text ≠ '-' :: rest := by
  intro same
  cases mantissa with
  | whole isDigits =>
    subst same
    exact absurd (isDigits.2 '-' (by simp)) (by decide)
  | pointed isDigits =>
    -- The digits before the point are not missing, so the minus sign would be one of them.
    obtain ⟨first, digits, rfl⟩ := List.exists_cons_of_ne_nil isDigits.1
    obtain rfl : first = '-' := (List.cons.inj same).1
    exact absurd (isDigits.2 '-' (by simp)) (by decide)
  | fractional => exact absurd (List.cons.inj same).1 (by decide)

/-- A sign and a literal are told apart again. -/
theorem signed_inj {left right : List Char} {negative other : Bool} {m n : Nat} {e f : Int}
    (first : Mantissa left m e) (second : Mantissa right n f)
    (same : signed negative left = signed other right) : negative = other ∧ left = right := by
  -- A mantissa does not start with a sign, so the signs are equal.
  unfold signed at same
  cases negative <;> cases other <;> simp only [if_true, Bool.false_eq_true, if_false] at same
  · exact ⟨rfl, same⟩
  · exact absurd same (first.ne_minus right)
  · exact absurd same.symm (second.ne_minus left)
  · exact ⟨rfl, (List.cons.inj same).2⟩

end Texts

/-- A number is spelled by the digits of a literal: they are its text behind the sign, and the
number is what the literal stands for, correctly rounded, with that sign. A zero loses its sign. -/
structure SpelledBy (value : Float) (digits : List Char) (numeral : Numeral) : Prop where
  text : numberText value = String.ofList (signed (decide (value < 0)) digits)
  mantissa : Mantissa digits numeral.significand numeral.exponent
  read : Numeral.read? digits = some numeral
  rounds : RoundsTo (numeral.significand * 10 ^ numeral.exponent) numeral.toFloat
  same : (if value < 0 then -numeral.toFloat else numeral.toFloat) =
    if value == 0 then 0 else value

section Spelling

variable {value left right : Float}

/-- A decimal is read as the double nearest to it. -/
theorem Decimal.roundsTo (decimal : Decimal) (finite : decimal.toFloat.isFinite = true) :
    RoundsTo (decimal.digits * 10 ^ (-(decimal.places : Int))) decimal.toFloat := by
  -- The double of a decimal is that of a literal, whatever its length.
  rw [← decimal.toFloat_eq decimal.chars.length] at finite ⊢
  exact (rounded_literal decimal.digits _).roundsTo finite

/-- A number that is written as a decimal, behind its sign, is spelled by the decimal's text. -/
theorem Decimal.spells (decimal : Decimal) (finite : decimal.toFloat.isFinite = true)
    (text : numberChars value = signed (decide (value < 0)) decimal.chars)
    (same : (if value < 0 then -decimal.toFloat else decimal.toFloat) =
      if value == 0 then 0 else value) :
    SpelledBy value decimal.chars
      ⟨decimal.digits, -(decimal.places : Int), decimal.chars.length⟩ where
  -- The digits are a literal by themselves, and they are read to the nearest double.
  text := congrArg String.ofList text
  mantissa := decimal.mantissa_chars
  read := by
    have ends : EndsWord [] := nofun
    simpa using decimal.literal_chars.read?_append ends
  rounds := by
    rw [decimal.toFloat_eq]
    exact decimal.roundsTo finite
  same := by rwa [decimal.toFloat_eq]

/-- Only the two zeros are equal to zero. -/
theorem eq_zero_of_beq (finite : value.isFinite = true) (zero : (value == 0) = true) :
    value = 0 ∨ value = -0.0 := by
  have nothing : exactly value.toModel.unpack = 0 := (beq_iff_valueOf finite rfl).mp zero
  have held := held_of_isFinite finite
  cases unpacked : value.toModel.unpack with
  | zero sign =>
    cases sign with
    | positive => exact .inl (eq_of_unpack_eq (by rw [unpacked]; rfl))
    | negative => exact .inr (eq_of_unpack_eq (by rw [unpacked]; rfl))
  | finite sign m e positive =>
    -- A mantissa that is there has a value.
    rw [unpacked] at nothing
    have above := size_pos e positive
    cases sign
    · rw [exactly_negative] at nothing
      linarith
    · rw [exactly_positive] at nothing
      linarith
  | infinity | notANumber =>
    rw [unpacked] at held
    cases held

/-- Every finite number is spelled by the digits of a literal. -/
theorem exists_spelledBy (finite : value.isFinite = true) :
    ∃ digits numeral, SpelledBy value digits numeral := by
  by_cases negative : value < 0
  · -- A negative number is its opposite behind a minus sign.
    obtain ⟨chars, isFinite, unsigned, notZero⟩ := numberChars_of_neg finite negative
    obtain ⟨decimal, written, reads⟩ := exists_decimal_numberChars isFinite unsigned notZero
    have apart : ¬ (value == 0) = true := by
      rw [beq_iff_valueOf finite rfl]
      exact ((lt_iff_valueOf finite rfl).mp negative).ne
    refine ⟨_, _, decimal.spells (by rwa [reads]) ?_ ?_⟩
    · rw [chars, written, decide_eq_true negative]
      rfl
    · rw [if_pos negative, if_neg apart, reads, neg_neg_of_neg finite negative]
  · by_cases signedZero : value = -0.0
    · -- The zero with a sign is written as the other zero.
      subst signedZero
      exact ⟨_, _, Decimal.spells ⟨0, 0⟩ rfl rfl rfl⟩
    · obtain ⟨decimal, written, reads⟩ := exists_decimal_numberChars finite negative signedZero
      refine ⟨_, _, decimal.spells (by rwa [reads]) ?_ ?_⟩
      · rw [written, decide_eq_false negative]
        rfl
      · rw [if_neg negative, reads]
        split
        · rename_i zero
          exact (eq_zero_of_beq finite zero).resolve_right signedZero
        · rfl

/-- Numbers with one text are equal, since the text is read in one way. -/
theorem beq_of_numberText_eq (first : left.isFinite = true) (second : right.isFinite = true)
    (same : numberText left = numberText right) : (left == right) = true := by
  obtain ⟨digits, numeral, spelled⟩ := exists_spelledBy first
  obtain ⟨others, other, spelledOther⟩ := exists_spelledBy second
  -- The sign and the digits are the same, and so is what they are read as.
  rw [spelled.text, spelledOther.text] at same
  obtain ⟨signs, rfl⟩ :=
    signed_inj spelled.mantissa spelledOther.mantissa (String.ofList_inj.mp same)
  obtain rfl : numeral = other := Option.some.inj (spelled.read.symm.trans spelledOther.read)
  have reread := spelled.same
  simp only [decide_eq_decide] at signs
  rw [if_congr signs rfl rfl, spelledOther.same] at reread
  rw [beq_iff_valueOf first second]
  -- Where a zero lost its sign, both numbers are zeros.
  by_cases zero : (left == 0) = true <;> by_cases otherZero : (right == 0) = true
  · rw [(beq_iff_valueOf first rfl).mp zero, (beq_iff_valueOf second rfl).mp otherZero]
  · rw [if_pos zero, if_neg otherZero] at reread
    exact absurd (by rw [reread]; rfl) otherZero
  · rw [if_neg zero, if_pos otherZero] at reread
    exact absurd (by rw [← reread]; rfl) zero
  · rw [if_neg zero, if_neg otherZero] at reread
    rw [reread]

/-- Equal numbers have one text: the zeros are written alike, and all others have one form. -/
theorem numberText_eq_of_beq (first : left.isFinite = true) (second : right.isFinite = true)
    (same : (left == right) = true) : numberText left = numberText right := by
  have values := (beq_iff_valueOf first second).mp same
  by_cases zero : valueOf left = 0
  · have leftZero := eq_zero_of_beq first ((beq_iff_valueOf first rfl).mpr zero)
    have rightZero := eq_zero_of_beq second ((beq_iff_valueOf second rfl).mpr (values ▸ zero))
    rcases leftZero with rfl | rfl <;> rcases rightZero with rfl | rfl <;> rfl
  · -- Another value is held by one double only.
    have held := held_of_isFinite first
    rw [eq_of_unpack_eq (held.eq_of_exactly (held_of_isFinite second) values zero)]

end Spelling

/-- The text of a finite number is faithful: it is an optional minus sign and a literal without an
exponent that is read back as the number, except that a zero loses its sign; so two numbers have one
text exactly when they are equal. -/
theorem numberText_faithful :
    (∀ value : Float, value.isFinite = true → ∃ digits numeral, SpelledBy value digits numeral) ∧
      ∀ left right : Float, left.isFinite = true → right.isFinite = true →
        (numberText left = numberText right ↔ (left == right) = true) :=
  ⟨fun _ finite => exists_spelledBy finite, fun _ _ first second =>
    ⟨beq_of_numberText_eq first second, numberText_eq_of_beq first second⟩⟩

/-- The least positive number is spelled by a literal other than that of zero, while both zeros have
one text. -/
theorem numberText_faithful_least :
    ((5e-324 : Float).isFinite = true ∧ ∃ digits numeral, SpelledBy 5e-324 digits numeral) ∧
      numberText 5e-324 ≠ numberText 0 ∧
      (-0.0 : Float).isFinite = true ∧ numberText (-0.0) = numberText 0 := by
  -- Both parts are taken at the least double above zero and at the two zeros.
  have least : (5e-324 : Float).isFinite = true := by decide +kernel
  refine ⟨⟨least, numberText_faithful.1 _ least⟩, ?_, rfl, ?_⟩
  · exact mt (numberText_faithful.2 _ _ least rfl).mp (by decide +kernel)
  · exact (numberText_faithful.2 _ _ rfl rfl).mpr rfl

end Calculator
