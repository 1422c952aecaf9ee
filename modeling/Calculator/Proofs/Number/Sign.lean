import Calculator.Grammar.Numeral
import Calculator.Proofs.Number.Reading
import Mathlib

/-! Signs: literals are read as doubles without one, and negating twice gives a double back. -/

namespace Calculator

namespace Binary

open Float.Model (UnpackedFloat)
open Float.Model.UnpackedFloat

/-- No minus sign stands before the number. -/
inductive Unsigned : UnpackedFloat → Prop
  | notANumber : Unsigned .notANumber
  | infinity : Unsigned (.infinity .positive)
  | zero : Unsigned (.zero .positive)
  | finite {mantissa : Nat} {exponent : Int} {positive : 0 < mantissa} :
      Unsigned (.finite .positive mantissa exponent positive)

/-- Rounding keeps the sign. -/
theorem unsigned_roundWithAccuracy (mantissa : Nat) (exponent : Int) (accuracy : Accuracy) :
    Unsigned (roundWithAccuracy .binary64 .positive mantissa exponent accuracy) := by
  -- A rounded number is a zero or a finite number, either with the sign that was given.
  unfold roundWithAccuracy
  dsimp only
  split
  · exact .zero
  · exact .finite

/-- A product of numbers without a sign has none. -/
theorem unsigned_mul {u v : UnpackedFloat} (left : Unsigned u) (right : Unsigned v) :
    Unsigned (u.mul .binary64 v) := by
  -- Only two finite numbers are rounded; every other product is fixed by its kinds.
  cases left with
  | notANumber => cases right <;> exact .notANumber
  | infinity => cases right with
    | notANumber | zero => exact .notANumber
    | infinity | finite => exact .infinity
  | zero => cases right with
    | notANumber | infinity => exact .notANumber
    | zero | finite => exact .zero
  | finite => cases right with
    | notANumber => exact .notANumber
    | infinity => exact .infinity
    | zero => exact .zero
    | finite => exact unsigned_roundWithAccuracy _ _ _

/-- A quotient of numbers without a sign has none. -/
theorem unsigned_div {u v : UnpackedFloat} (left : Unsigned u) (right : Unsigned v) :
    Unsigned (u.div .binary64 v) := by
  -- Only two finite numbers are rounded; every other quotient is fixed by its kinds.
  cases left with
  | notANumber => cases right <;> exact .notANumber
  | infinity => cases right with
    | notANumber | infinity => exact .notANumber
    | zero | finite => exact .infinity
  | zero => cases right with
    | notANumber | zero => exact .notANumber
    | infinity | finite => exact .zero
  | finite => cases right with
    | notANumber => exact .notANumber
    | infinity => exact .zero
    | zero => exact .infinity
    | finite => exact unsigned_roundWithAccuracy _ _ _

/-- The fields of a double without its sign bit hold no sign. -/
theorem unsigned_ofFields (exponent : BitVec 11) (mantissa : BitVec 52) :
    Unsigned (ofFields .positive exponent mantissa) := by
  unfold ofFields
  -- The exponent field tells infinities, small numbers and all others apart.
  split
  · split
    · exact .infinity
    · exact .notANumber
  · split
    · split
      · exact .zero
      · exact .finite
    · exact .finite

/-- A number without a sign is stored without one. -/
theorem unsigned_stored {u : UnpackedFloat} (unsigned : Unsigned u) : Unsigned (stored u) := by
  cases unsigned with
  | notANumber => exact .notANumber
  | infinity =>
    rw [stored_infinity]
    exact .infinity
  | zero =>
    rw [stored_zero]
    exact .zero
  | finite =>
    -- Too large a number becomes infinite, and any other is packed into its fields.
    rw [stored, pack_finite]
    split
    · show Unsigned (stored (.infinity .positive))
      rw [stored_infinity]
      exact .infinity
    · split
      · rw [unpack_packComponents]
        exact unsigned_ofFields _ _
      · rw [unpack_packComponents]
        exact unsigned_ofFields _ _

/-- A whole number is no less than zero, so its double has no sign. -/
theorem unsigned_toFloat (number : UInt64) : Unsigned number.toFloat.toModel.unpack := by
  -- A number without a sign is converted by rounding its magnitude.
  show Unsigned (stored (UnpackedFloat.normalize .binary64 (number.toNat : Int) 0 .positive))
  apply unsigned_stored
  by_cases empty : number.toNat = 0
  · rw [empty]
    exact .zero
  · rw [normalize_positive _ _ (Nat.pos_of_ne_zero empty), round_eq]
    exact unsigned_roundWithAccuracy _ _ _

/-- Digits scaled by a power of ten have no sign. -/
theorem unsigned_ofScientific (digits : Nat) (scale : Int) :
    Unsigned (UnpackedFloat.ofScientific .binary64 digits scale) := by
  unfold UnpackedFloat.ofScientific
  -- Scales out of range give zero or infinity, and all others a product or a quotient.
  split
  · exact .zero
  · split
    · exact .infinity
    · split
      · exact .zero
      · split
        · exact unsigned_mul .finite .finite
        · exact unsigned_div .finite .finite

/-- A double without a sign is neither below zero nor the negative zero. -/
theorem not_neg_of_unsigned {value : Float} (unsigned : Unsigned value.toModel.unpack) :
    ¬ value < 0 ∧ value ≠ -0.0 := by
  constructor
  · -- Numbers are ordered as their places are, and without a sign no place is below zero.
    intro negative
    obtain ⟨number, zero⟩ := isNumber_of_lt negative
    have below := (lt_iff_place number zero).1 negative
    rw [place_zero, place] at below
    cases held : value.toModel.unpack with
    | notANumber => exact number held
    | infinity sign | zero sign | finite sign =>
      rw [held] at unsigned below
      cases unsigned
      simp only [rank] at below
      omega
  · -- The negative zero holds a sign.
    rintro rfl
    rw [show (-0.0 : Float).toModel.unpack = .zero .negative from rfl] at unsigned
    cases unsigned

end Binary

open Binary

/-- A literal is read as a double without a sign. -/
theorem Grammar.Numeral.toFloat_unsigned (numeral : Grammar.Numeral) :
    ¬ numeral.toFloat < 0 ∧ numeral.toFloat ≠ -0.0 := by
  apply not_neg_of_unsigned
  unfold Grammar.Numeral.toFloat Float.ofScientific
  -- Few digits and a small power of ten are two doubles; all else is rounded at once.
  split
  · rename_i small
    have tabulated : numeral.exponent.natAbs < Float.exactlyRepresentablePowersOfTen.size :=
      Nat.lt_succ_of_le small.2
    obtain ⟨_, _, _, held, _⟩ := holds_powerOfTen numeral.exponent.natAbs tabulated
    have power : Unsigned
        Float.exactlyRepresentablePowersOfTen[numeral.exponent.natAbs].toModel.unpack := by
      rw [held]
      exact .finite
    have digits := unsigned_toFloat numeral.significand.toUInt64
    dsimp only
    split
    · exact unsigned_stored (unsigned_div digits power)
    · exact unsigned_stored (unsigned_mul digits power)
  · exact unsigned_stored (unsigned_ofScientific _ _)

/-- Negating twice gives a finite double below zero back. -/
theorem neg_neg_of_neg {value : Float} (finite : value.isFinite = true) (negative : value < 0) :
    - -value = value := by
  rcases unpack_of_isFinite finite with ⟨_, m, e, positive, held⟩ | ⟨unsigned, _⟩
  · -- The sign is turned twice, and nothing else changes.
    apply eq_of_unpack_eq
    rw [unpack_neg (unpack_neg held), held]
    rfl
  · exact absurd negative unsigned

end Calculator
