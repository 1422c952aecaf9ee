import Calculator.Plot.Axis
import Calculator.Proofs.Number.Faithfulness

/-! How far the text of a mark is from the value that it marks: at most half a tenth, up to the
largest whole number that a mark can show. -/

namespace Calculator

open Binary
open Float.Model (UnpackedFloat)
open Float.Model.UnpackedFloat
open Grammar (Numeral)
open Grammar.Numeral (Mantissa)

section Shown

/-- A number with a sign. -/
def withSign (negative : Bool) (number : ℚ) : ℚ := if negative then -number else number

/-- The text is a decimal number: an optional minus sign and a literal without an exponent. -/
def Shows (text : String) (number : ℚ) : Prop :=
  ∃ (negative : Bool) (digits : List Char) (significand : Nat) (scale : Int),
    text = String.ofList (signed negative digits) ∧ Mantissa digits significand scale ∧
      number = withSign negative (significand * 10 ^ scale)

/-- A text shows one number at most. -/
theorem Shows.unique {text : String} {number other : ℚ} (shows : Shows text number)
    (also : Shows text other) : number = other := by
  obtain ⟨negative, digits, significand, scale, rfl, mantissa, rfl⟩ := shows
  obtain ⟨negative', digits', significand', scale', same, mantissa', rfl⟩ := also
  -- The sign and the digits are the same, and a literal is read in one way.
  obtain ⟨rfl, rfl⟩ := signed_inj mantissa mantissa' (String.ofList_inj.mp same)
  have ends : ∀ char ∈ ([] : List Char).head?, char.isDigit = false ∧ char ≠ '.' := nofun
  have read := mantissa.mantissa?_append ends
  rw [mantissa'.mantissa?_append ends] at read
  cases read
  rfl

/-- A decimal behind a sign shows its value with that sign. -/
theorem Decimal.shows (decimal : Decimal) (negative : Bool) :
    Shows (String.ofList (signed negative decimal.chars))
      (withSign negative (decimal.digits / 10 ^ decimal.places)) := by
  -- The places are the scale of the digits.
  refine ⟨negative, _, _, _, rfl, decimal.mantissa_chars, ?_⟩
  rw [zpow_neg, zpow_natCast, div_eq_mul_inv]

/-- The digits of a whole number behind its sign show it. -/
theorem shows_whole (whole : Int) :
    Shows (String.ofList (signed (decide (whole < 0)) (Nat.toDigits 10 whole.natAbs))) whole := by
  -- A whole number has no places behind the point.
  have shows := Decimal.shows ⟨whole.natAbs, 0⟩ (decide (whole < 0))
  have value : withSign (decide (whole < 0)) ((whole.natAbs : ℚ) / 10 ^ 0) = whole := by
    rw [pow_zero, div_one, Nat.cast_natAbs]
    by_cases negative : whole < 0
    · simp [withSign, negative, abs_of_neg negative]
    · simp [withSign, negative, abs_of_nonneg (not_lt.mp negative)]
  rwa [value] at shows

end Shown

namespace Exact

variable (exact : Exact)

/-- The value of an exact number. -/
def value : ℚ := withSign exact.negative (size exact.significand exact.exponent)

/-- The whole number nearest to an exact number. -/
def nearestInt : Int := if exact.negative then -(exact.nearest : Int) else exact.nearest

/-- Magnitudes are as far apart as the numbers with one sign are. -/
theorem abs_withSign_sub (negative : Bool) (left right : ℚ) :
    |withSign negative left - withSign negative right| = |left - right| := by
  -- Both signs go the same way.
  cases negative
  · rfl
  · show |-left - -right| = _
    rw [neg_sub_neg, abs_sub_comm]

/-- The nearest whole number is no further than a half. -/
theorem abs_nearestInt_sub : |(exact.nearestInt : ℚ) - exact.value| ≤ 1 / 2 := by
  have signs : (exact.nearestInt : ℚ) = withSign exact.negative exact.nearest := by
    unfold nearestInt withSign
    split <;> simp
  have share : (0 : ℚ) < exact.denominator := by exact_mod_cast exact.denominator_pos
  -- Half a denominator is added before the quotient is cut off.
  have floor : exact.nearest = ⌊size exact.significand exact.exponent + 1 / 2⌋₊ := by
    rw [← exact.numerator_div_denominator, nearest, ← Nat.floor_div_eq_div (K := ℚ)]
    congr 1
    push_cast
    field_simp
  have positive : 0 ≤ size exact.significand exact.exponent + 1 / 2 := by
    unfold size
    positivity
  rw [signs, value, abs_withSign_sub, floor, abs_le]
  have below := Nat.floor_le positive
  have above := Nat.lt_floor_add_one (size exact.significand exact.exponent + 1 / 2)
  constructor <;> linarith

/-- Twice the tenths miss twenty times the fraction by no more than the denominator. -/
theorem tenths_bounds :
    20 * exact.numerator ≤ 2 * (exact.denominator * Axis.tenths exact) + exact.denominator ∧
      2 * (exact.denominator * Axis.tenths exact) ≤
        20 * exact.numerator + exact.denominator := by
  have parts := Nat.div_add_mod (10 * exact.numerator) exact.denominator
  have short := Nat.mod_lt (10 * exact.numerator) exact.denominator_pos
  have parity := Nat.mod_two_eq_zero_or_one (10 * exact.numerator / exact.denominator)
  simp only [Axis.tenths]
  -- The rest decides which neighbour is nearer; at a half both are at the same distance.
  split
  · omega
  · split
    · rw [Nat.mul_add]
      omega
    · rcases parity with even | odd
      · rw [even, Nat.add_zero]
        omega
      · rw [odd, Nat.mul_add]
        omega

/-- The tenths are no further than half a tenth. -/
theorem abs_tenths_sub :
    |(Axis.tenths exact : ℚ) / 10 - size exact.significand exact.exponent| ≤ 1 / 20 := by
  -- Rounding to tenths changes a number by half a tenth at most.
  obtain ⟨above, below⟩ := exact.tenths_bounds
  have share : (0 : ℚ) < exact.denominator := by exact_mod_cast exact.denominator_pos
  have common : (Axis.tenths exact : ℚ) / 10 - exact.numerator / exact.denominator =
      (2 * (exact.denominator * Axis.tenths exact) - 20 * exact.numerator) /
        (20 * exact.denominator) := by
    field_simp
    ring
  have above : (20 * exact.numerator : ℚ) ≤
      2 * (exact.denominator * Axis.tenths exact) + exact.denominator := by exact_mod_cast above
  have below : (2 * (exact.denominator * Axis.tenths exact) : ℚ) ≤
      20 * exact.numerator + exact.denominator := by exact_mod_cast below
  have scale : (0 : ℚ) < 20 * exact.denominator := by linarith
  rw [← exact.numerator_div_denominator, common, abs_div, abs_of_pos scale, div_le_iff₀ scale,
    abs_le]
  constructor <;> linarith

end Exact

section Wholes

variable {u : UnpackedFloat} {whole : Int}

/-- A finite number is whole, or it is written with steps that are parts of one. -/
theorem Binary.Held.whole_or_fraction (held : Held u) : (∃ k : ℤ, exactly u = k) ∨
    ∃ (steps : ℤ) (places : Nat), exactly u = steps / 2 ^ places ∧ |steps| < 2 ^ 53 ∧
      1 ≤ places ∧ places ≤ 1074 := by
  -- A negative exponent makes places behind the point, and any other one a whole number.
  obtain ⟨steps, exponent, value, width, lowest, _⟩ := held.exists_exactly
  rcases Int.lt_or_le exponent 0 with down | up
  · obtain ⟨places, rfl⟩ := Int.exists_eq_neg_ofNat down.le
    refine .inr ⟨steps, places, ?_, width, by omega, by omega⟩
    rw [value, zpow_neg, zpow_natCast, div_eq_mul_inv]
  · obtain ⟨shift, rfl⟩ := Int.eq_ofNat_of_zero_le up
    refine .inl ⟨steps * 2 ^ shift, ?_⟩
    rw [value, zpow_natCast]
    push_cast
    rfl

/-- Whole numbers are not a half apart. -/
theorem eq_of_abs_sub_le_half {k : ℤ} (near : |(whole : ℚ) - k| ≤ 1 / 2) : whole = k := by
  -- Whole numbers that differ are at least one apart.
  have less : |whole - k| < 1 := by
    have : |(whole : ℚ) - k| < 1 := by linarith
    exact_mod_cast this
  have := abs_lt.mp less
  omega

/-- A number that is not whole is below the magnitude at which all are. -/
theorem abs_lt_of_fraction {steps : ℤ} {places : Nat} (width : |steps| < 2 ^ 53)
    (some : 1 ≤ places) : |(steps : ℚ) / 2 ^ places| < 2 ^ 52 := by
  -- With a place behind the point the mantissa loses a bit.
  have few : |(steps : ℚ)| < 2 ^ 53 := by exact_mod_cast width
  have power : (2 : ℚ) ≤ 2 ^ places := by
    calc (2 : ℚ) = 2 ^ 1 := (pow_one 2).symm
      _ ≤ 2 ^ places := pow_le_pow_right₀ (by norm_num) some
  rw [abs_div, abs_of_pos (by linarith : (0 : ℚ) < 2 ^ places), div_lt_iff₀ (by linarith)]
  linarith

/-- From that magnitude on a number is the whole number nearest to it. -/
theorem Binary.Held.eq_whole (held : Held u) (near : |(whole : ℚ) - exactly u| ≤ 1 / 2)
    (large : 2 ^ 52 ≤ |exactly u|) : exactly u = whole := by
  -- A value as large as that has no places behind the point.
  rcases held.whole_or_fraction with ⟨k, value⟩ | ⟨steps, places, value, width, some, _⟩
  · rw [value] at near ⊢
    rw [eq_of_abs_sub_le_half near]
  · rw [value] at large
    exact absurd (abs_lt_of_fraction width some) large.not_gt

/-- The whole number nearest to a finite number is finite. -/
theorem Binary.Held.exists_held_whole (held : Held u)
    (near : |(whole : ℚ) - exactly u| ≤ 1 / 2) : ∃ v, Held v ∧ exactly v = whole := by
  rcases le_or_gt (2 ^ 52) |exactly u| with large | small
  · exact ⟨u, held, held.eq_whole near large⟩
  · -- It has no more bits than a mantissa.
    have width : |whole| < 2 ^ 53 := by
      have distance := abs_sub_abs_le_abs_sub (whole : ℚ) (exactly u)
      have : |(whole : ℚ)| < 2 ^ 53 := by linarith
      exact_mod_cast this
    obtain ⟨v, heldWhole, value⟩ := exists_held width (by decide : -1074 ≤ 0) (by decide)
    exact ⟨v, heldWhole, by simpa using value⟩

/-- What is left of a finite number without the nearest whole number is finite. -/
theorem Binary.Held.exists_held_rest (held : Held u)
    (near : |(whole : ℚ) - exactly u| ≤ 1 / 2) :
    ∃ v, Held v ∧ exactly v = exactly u - whole := by
  rcases held.whole_or_fraction with ⟨k, value⟩ | ⟨steps, places, value, width, some, most⟩
  · rw [value] at near
    exact ⟨.zero .positive, .zero .positive, by simp [value, eq_of_abs_sub_le_half near]⟩
  · have power : (0 : ℚ) < 2 ^ places := by positivity
    rcases lt_or_ge |exactly u| (1 / 2) with small | large
    · -- Below a half the number itself is left.
      have none : whole = 0 := by
        have distance := abs_sub_abs_le_abs_sub (whole : ℚ) (exactly u)
        have : |(whole : ℚ)| < 1 := by linarith
        exact Int.abs_lt_one_iff.mp (by exact_mod_cast this)
      exact ⟨u, held, by simp [none]⟩
    · -- Above a half the steps are so coarse that a half has few of them.
      have coarse : places ≤ 53 := by
        by_contra fine
        have few : |(steps : ℚ)| < 2 ^ 53 := by exact_mod_cast width
        have tiny : (2 : ℚ) ^ 54 ≤ 2 ^ places := pow_le_pow_right₀ (by norm_num) (by omega)
        rw [value, abs_div, abs_of_pos power, le_div_iff₀ power] at large
        linarith
      have rest : exactly u - whole =
          ((steps - whole * 2 ^ places : ℤ) : ℚ) * 2 ^ (-(places : Int)) := by
        rw [value, zpow_neg, zpow_natCast]
        push_cast
        field_simp
      have fewer : |steps - whole * 2 ^ places| < 2 ^ 53 := by
        have top : (2 : ℚ) ^ places ≤ 2 ^ 53 := pow_le_pow_right₀ (by norm_num) coarse
        have : |((steps - whole * 2 ^ places : ℤ) : ℚ)| < 2 ^ 53 := by
          rw [abs_sub_comm, rest, abs_mul, zpow_neg, zpow_natCast, abs_of_pos (inv_pos.mpr power),
            ← div_eq_mul_inv, div_le_iff₀ power] at near
          linarith
        exact_mod_cast this
      rw [rest]
      exact exists_held fewer (by omega) (by omega)

end Wholes

section Differences

variable {value : Float} {whole : Int}

/-- A natural number that a finite number has as its value is converted exactly. -/
theorem valueOf_ofNat_of_held (number : Nat) {u : UnpackedFloat} (held : Held u)
    (same : exactly u = number) :
    (Float.ofNat number).isFinite = true ∧ valueOf (Float.ofNat number) = number := by
  -- The literal is rounded, and the number is held exactly.
  have rounded := rounded_literal number 0
  rw [zpow_zero, mul_one] at rounded
  exact rounded.exact held same

/-- A whole number that a finite number has as its value is converted exactly. -/
theorem valueOf_ofInt_of_held {u : UnpackedFloat} (held : Held u) (same : exactly u = whole) :
    (Float.ofInt whole).isFinite = true ∧ valueOf (Float.ofInt whole) = whole := by
  cases whole with
  | ofNat number => exact valueOf_ofNat_of_held number held (by simpa using same)
  | negSucc number =>
    -- A negative number is the opposite of its magnitude.
    have opposite : exactly u.neg = (number + 1 : Nat) := by
      rw [exactly_neg, same, Int.cast_negSucc, neg_neg]
    obtain ⟨finite, value⟩ := valueOf_ofNat_of_held (number + 1) held.neg opposite
    refine ⟨isFinite_neg finite, ?_⟩
    rw [Int.cast_negSucc, ← value]
    exact valueOf_neg _

/-- The nearest whole number is taken away from a number exactly. -/
theorem valueOf_sub_whole (finite : value.isFinite = true)
    (near : |(whole : ℚ) - valueOf value| ≤ 1 / 2) :
    (value - Float.ofInt whole).isFinite = true ∧
      valueOf (value - Float.ofInt whole) = valueOf value - whole := by
  have held := held_of_isFinite finite
  obtain ⟨v, heldWhole, same⟩ := held.exists_held_whole near
  obtain ⟨isFinite, converted⟩ := valueOf_ofInt_of_held heldWhole same
  obtain ⟨w, heldRest, rest⟩ := held.exists_held_rest near
  -- A difference that is held is not changed by rounding.
  have rounded := rounded_difference finite isFinite
  rw [converted] at rounded
  exact rounded.exact heldRest rest

/-- The tolerance is positive and less than half a tenth. -/
theorem valueOf_tolerance :
    (1e-9 : Float).isFinite = true ∧ 0 < valueOf 1e-9 ∧ valueOf 1e-9 ≤ 1 / 20 := by
  -- The literal is rounded to the nearest double, which is at most twice as large.
  have finite : (1e-9 : Float).isFinite = true := by decide +kernel
  have positive : (0 : Float) < 1e-9 := by decide +kernel
  have rounds : RoundsTo ((1 : Nat) * 10 ^ (-9 : Int)) 1e-9 :=
    (rounded_literal 1 (-9)).roundsTo finite
  refine ⟨finite, (lt_iff_valueOf rfl finite).mp positive, ?_⟩
  exact (rounds.le_twice (by positivity)).trans (by norm_num)

end Differences

section Spacing

/-- The distance of neighbouring finite numbers that have the exponent of this one. -/
def spacing : UnpackedFloat → ℚ
  | .finite _ _ exponent _ => 2 ^ exponent
  | .zero _ => 2 ^ (-1074 : Int)
  | .infinity _ | .notANumber => 0

/-- The distance of neighbouring doubles at a finite double. -/
def spacingAt (value : Float) : ℚ := spacing value.toModel.unpack

variable {u : UnpackedFloat}

/-- A distance is not negative. -/
theorem spacing_nonneg (u : UnpackedFloat) : 0 ≤ spacing u := by
  -- A spacing is a power of two or zero.
  cases u <;> simp only [spacing] <;> positivity

/-- A number beyond the largest whole number has many bits behind its mantissa, and its distance
from there is no less than that of its neighbours. -/
theorem Binary.Held.spacing_le (held : Held u) (large : 2 ^ 63 ≤ |exactly u|) :
    2 ^ 11 ≤ spacing u ∧ (2 ^ 63 < |exactly u| → spacing u ≤ |exactly u| - 2 ^ 63) := by
  cases held with
  | zero sign => norm_num at large
  | @finite sign m e positive canonical =>
    obtain ⟨width, _, _, full⟩ := canonical
    rw [abs_exactly] at large ⊢
    -- The mantissa has fifty-three of the bits, so the other eleven are left to the exponent.
    have shift : 10 < e := lt_exponent_of_le_size width (le_trans (by norm_num) large)
    have reaches : (2 : ℚ) ^ 11 ≤ 2 ^ e := by
      have := zpow_le_zpow_right₀ (by norm_num : (1 : ℚ) ≤ 2) shift
      exact_mod_cast this
    refine ⟨reaches, fun beyond => ?_⟩
    have leading : 2 ^ 52 ≤ m := full.resolve_right (by omega)
    unfold size at beyond ⊢
    show (2 : ℚ) ^ e ≤ m * 2 ^ e - 2 ^ 63
    rcases leading.eq_or_lt with least | more
    · -- A power of two beyond the limit is at least twice the limit.
      have further : 12 ≤ e := by
        by_contra near
        obtain rfl : e = 11 := by omega
        rw [← least] at beyond
        norm_num at beyond
      have twice : (2 : ℚ) ^ 12 ≤ 2 ^ e := by
        have := zpow_le_zpow_right₀ (by norm_num : (1 : ℚ) ≤ 2) further
        exact_mod_cast this
      rw [← least]
      push_cast
      linarith
    · -- All but the leading bit of the mantissa count from the limit on.
      have rest : (2 : ℚ) ^ 52 + 1 ≤ m := by exact_mod_cast more
      have := mul_le_mul_of_nonneg_right rest (by positivity : (0 : ℚ) ≤ 2 ^ e)
      linarith

end Spacing

section Marks

variable {value : Float}

/-- A finite double has an exact value. -/
theorem exists_exact (finite : value.isFinite = true) :
    ∃ exact, Exact.ofFloat? value = some exact ∧ valueOf value = exact.value := by
  -- The sign and the parts of the double are those of its exact value.
  have held := held_of_isFinite finite
  unfold Exact.ofFloat? valueOf
  generalize value.toModel.unpack = u at *
  cases held with
  | zero sign => exact ⟨_, rfl, by cases sign <;> simp [Exact.value, withSign, size]⟩
  | @finite sign m e positive => exact ⟨_, rfl, by cases sign <;> simp [Exact.value, withSign]⟩

/-- A mark that is all but whole shows its nearest whole number within the range of 64 bits, and any
other mark its tenths. -/
theorem exists_shows_markText (finite : value.isFinite = true) :
    ∃ exact : Exact, valueOf value = exact.value ∧
      Shows (Axis.markText value)
        (if |valueOf value - exact.nearestInt| < valueOf 1e-9 then
          (Axis.clampWhole exact.nearestInt : ℚ)
        else withSign exact.negative (Axis.tenths exact / 10)) := by
  obtain ⟨exact, found, same⟩ := exists_exact finite
  have near := exact.abs_nearestInt_sub
  rw [← same] at near
  -- The difference is exact, and so is its comparison with the tolerance.
  obtain ⟨isFinite, difference⟩ := valueOf_sub_whole finite near
  have compared : (value - Float.ofInt exact.nearestInt).abs < 1e-9 ↔
      |valueOf value - exact.nearestInt| < valueOf 1e-9 := by
    rw [lt_iff_valueOf (isFinite_abs isFinite) valueOf_tolerance.1, valueOf_abs, difference]
  refine ⟨exact, same, ?_⟩
  have chars : Axis.markChars value = if (value - Float.ofInt exact.nearestInt).abs < 1e-9 then
      signed (decide (Axis.clampWhole exact.nearestInt < 0))
        (Nat.toDigits 10 (Axis.clampWhole exact.nearestInt).natAbs)
      else signed exact.negative (Decimal.chars ⟨Axis.tenths exact, 1⟩) := by
    simp only [Axis.markChars, found]
    rfl
  rw [Axis.markText, chars]
  by_cases whole : (value - Float.ofInt exact.nearestInt).abs < 1e-9
  · rw [if_pos whole, if_pos (compared.mp whole)]
    exact shows_whole _
  · rw [if_neg whole, if_neg (mt compared.mpr whole)]
    simpa using Decimal.shows ⟨Axis.tenths exact, 1⟩ exact.negative

/-- A double is negative when its value is. -/
theorem neg_iff_valueOf (finite : value.isFinite = true) : value < 0 ↔ valueOf value < 0 :=
  lt_iff_valueOf finite rfl

/-- Whole numbers of 64 bits are not changed by the clamp. -/
theorem clampWhole_eq_self {whole : Int} (small : |whole| < 2 ^ 63) :
    Axis.clampWhole whole = whole := by
  -- The number lies between the two ends.
  have lowest : Int64.minValue.toInt = -2 ^ 63 := rfl
  have highest : Int64.maxValue.toInt = 2 ^ 63 - 1 := rfl
  have := abs_lt.mp small
  unfold Axis.clampWhole
  omega

/-- Larger ones are moved to the ends of the range. -/
theorem clampWhole_of_large {whole : Int} (large : 2 ^ 63 ≤ |whole|) :
    Axis.clampWhole whole = if whole < 0 then -2 ^ 63 else 2 ^ 63 - 1 := by
  -- The number lies beyond one of the two ends, and its sign tells which.
  have lowest : Int64.minValue.toInt = -2 ^ 63 := rfl
  have highest : Int64.maxValue.toInt = 2 ^ 63 - 1 := rfl
  have := le_abs.mp large
  unfold Axis.clampWhole
  split <;> omega

/-- Below the largest whole number a mark shows a number within half a tenth. -/
theorem exists_shows_near (finite : value.isFinite = true) (small : |valueOf value| < 2 ^ 63) :
    ∃ shown, Shows (Axis.markText value) shown ∧ |shown - valueOf value| ≤ 1 / 20 := by
  obtain ⟨exact, same, shows⟩ := exists_shows_markText finite
  have near := exact.abs_nearestInt_sub
  rw [← same] at near
  refine ⟨_, shows, ?_⟩
  split
  · -- The nearest whole number is in the range, also where it is above the value.
    rename_i within
    have inRange : |exact.nearestInt| < 2 ^ 63 := by
      have : |(exact.nearestInt : ℚ)| < 2 ^ 63 := by
        rcases le_or_gt (2 ^ 52) |valueOf value| with whole | part
        · rwa [← (held_of_isFinite finite).eq_whole near whole]
        · have distance := abs_sub_abs_le_abs_sub (exact.nearestInt : ℚ) (valueOf value)
          linarith
      exact_mod_cast this
    rw [clampWhole_eq_self inRange, abs_sub_comm]
    exact within.le.trans valueOf_tolerance.2.2
  · -- Both have the sign of the value, so only the magnitudes are compared.
    rw [same, Exact.value, Exact.abs_withSign_sub]
    exact exact.abs_tenths_sub

/-- From there on a mark shows the end of the range. -/
theorem shows_end (finite : value.isFinite = true) (large : 2 ^ 63 ≤ |valueOf value|) :
    Shows (Axis.markText value) (if value < 0 then -2 ^ 63 else 2 ^ 63 - 1) := by
  obtain ⟨exact, same, shows⟩ := exists_shows_markText finite
  have near := exact.abs_nearestInt_sub
  rw [← same] at near
  -- The value is whole, so it is its own nearest whole number.
  have whole : valueOf value = exact.nearestInt :=
    (held_of_isFinite finite).eq_whole near (le_trans (by norm_num) large)
  have outOfRange : 2 ^ 63 ≤ |exact.nearestInt| := by
    rw [whole] at large
    exact_mod_cast large
  have signs : value < 0 ↔ exact.nearestInt < 0 := by
    rw [neg_iff_valueOf finite, whole]
    exact_mod_cast Iff.rfl
  rw [whole, sub_self, abs_zero, if_pos valueOf_tolerance.2.1, clampWhole_of_large outOfRange]
    at shows
  rw [if_congr signs rfl rfl]
  split at shows
  · rename_i negative
    rw [if_pos negative]
    exact_mod_cast shows
  · rename_i positive
    rw [if_neg positive]
    exact_mod_cast shows

/-- How far a value beyond the range is from its end, which is one short of the limit above zero. -/
theorem abs_end_sub (finite : value.isFinite = true) (large : 2 ^ 63 ≤ |valueOf value|) :
    |(if value < 0 then -2 ^ 63 else 2 ^ 63 - 1) - valueOf value| =
      |valueOf value| - 2 ^ 63 + if value < 0 then 0 else 1 := by
  -- The sign tells at which end the value is cut off.
  have signs := neg_iff_valueOf finite
  by_cases negative : value < 0
  · rw [abs_of_neg (signs.mp negative)] at large ⊢
    rw [if_pos negative, if_pos negative, abs_of_nonneg (by linarith)]
    ring
  · rw [abs_of_nonneg (not_lt.mp (mt signs.mpr negative))] at large ⊢
    rw [if_neg negative, if_neg negative, abs_of_nonpos (by linarith)]
    ring

/-- The end of the range is too far from every value beyond it, and not too far from the values at
it. -/
theorem abs_end_sub_le_iff (finite : value.isFinite = true) (large : 2 ^ 63 ≤ |valueOf value|) :
    |(if value < 0 then -2 ^ 63 else 2 ^ 63 - 1) - valueOf value| ≤
        1 / 20 + 1 / 10 ^ 9 + spacingAt value / 2 ↔ |valueOf value| ≤ 2 ^ 63 := by
  obtain ⟨wide, apart⟩ := (held_of_isFinite finite).spacing_le large
  have wide : 2 ^ 11 ≤ spacingAt value := wide
  have apart : 2 ^ 63 < |valueOf value| → spacingAt value ≤ |valueOf value| - 2 ^ 63 := apart
  -- The one that the upper end is short of the limit does not matter at such spacings.
  have short : (0 : ℚ) ≤ (if value < 0 then 0 else 1) ∧ (if value < 0 then 0 else 1 : ℚ) ≤ 1 := by
    split <;> norm_num
  rw [abs_end_sub finite large]
  constructor
  · intro close
    by_contra beyond
    have := apart (not_le.mp beyond)
    linarith
  · intro atEnd
    linarith

end Marks

/-- The text of a mark shows one number. It is as near to the value as half a tenth, the tolerance
and half the distance of the doubles there allow exactly if the value is in the range of 64 bits; in
the range it is within half a tenth, and outside it is the end of the range. -/
theorem markText_truthful_iff (value : Float) (finite : value.isFinite = true) :
    ∃ shown : ℚ, (∀ number, Shows (Axis.markText value) number ↔ number = shown) ∧
      (|shown - valueOf value| ≤ 1 / 20 + 1 / 10 ^ 9 + spacingAt value / 2 ↔
        |valueOf value| ≤ 2 ^ 63) ∧
      (|valueOf value| < 2 ^ 63 → |shown - valueOf value| ≤ 1 / 20) ∧
      (2 ^ 63 ≤ |valueOf value| → shown = if value < 0 then -2 ^ 63 else 2 ^ 63 - 1) := by
  have onlyOne {shown : ℚ} (shows : Shows (Axis.markText value) shown) (number : ℚ) :
      Shows (Axis.markText value) number ↔ number = shown :=
    ⟨fun also => also.unique shows, fun same => same ▸ shows⟩
  -- Half a tenth is enough in the range, and beyond it the text is the same for all values.
  rcases lt_or_ge |valueOf value| (2 ^ 63) with small | large
  · obtain ⟨shown, shows, near⟩ := exists_shows_near finite small
    refine ⟨shown, onlyOne shows, iff_of_true ?_ small.le, fun _ => near, fun large => ?_⟩
    · have := spacing_nonneg value.toModel.unpack
      unfold spacingAt
      linarith
    · exact absurd small large.not_gt
  · exact ⟨_, onlyOne (shows_end finite large), abs_end_sub_le_iff finite large,
      fun small => absurd small large.not_gt, fun _ => rfl⟩

/-- A quarter above two is marked within half a tenth. -/
theorem markText_truthful_iff_quarter :
    (2.25 : Float).isFinite = true ∧ ∃ shown : ℚ,
      (∀ number, Shows (Axis.markText 2.25) number ↔ number = shown) ∧
        |shown - valueOf 2.25| ≤ 1 / 20 := by
  -- The value is held exactly, and it is small.
  have unpacked : (2.25 : Float).toModel.unpack =
      .finite .positive 5066549580791808 (-51) (by decide) := by rfl
  have value : valueOf 2.25 = 9 / 4 := by
    rw [valueOf, unpacked]
    norm_num [size]
  have finite : (2.25 : Float).isFinite = true := by decide +kernel
  obtain ⟨shown, shows, _, near, _⟩ := markText_truthful_iff 2.25 finite
  exact ⟨finite, shown, shows, near (by norm_num [value])⟩

/-- Ten to the nineteenth is marked as the largest whole number of 64 bits, which is not near. -/
theorem markText_beyond_range :
    (1e19 : Float).isFinite = true ∧ valueOf 1e19 = 10 ^ 19 ∧ spacingAt 1e19 = 2 ^ 11 ∧
      Shows (Axis.markText 1e19) 9223372036854775807 ∧
        ¬ |9223372036854775807 - valueOf 1e19| ≤ 1 / 20 + 1 / 10 ^ 9 + spacingAt 1e19 / 2 := by
  -- The value is held exactly, and the range of whole numbers ends far below it.
  have unpacked : (1e19 : Float).toModel.unpack =
      .finite .positive 4882812500000000 11 (by decide) := by rfl
  have value : valueOf 1e19 = 10 ^ 19 := by
    rw [valueOf, unpacked]
    norm_num [size]
  have apart : spacingAt 1e19 = 2 ^ 11 := by
    rw [spacingAt, unpacked]
    rfl
  have finite : (1e19 : Float).isFinite = true := by decide +kernel
  have positive : ¬ (1e19 : Float) < 0 := by decide +kernel
  have shows := shows_end finite (by norm_num [value])
  rw [if_neg positive] at shows
  refine ⟨finite, value, apart, by norm_num at shows; exact shows, ?_⟩
  rw [value, apart]
  norm_num

end Calculator
