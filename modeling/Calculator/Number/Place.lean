import Calculator.Number.Rank

/-! The place of a double among all doubles: numbers compare as their places do, and only
finitely many lie above each. -/

namespace Calculator.Binary

-- Powers are the core library's own, also where another library has instances for them.
attribute [local instance (2000)] instPowNat

open Float.Model (UnpackedFloat)
open Float.Model.UnpackedFloat

/-- The place of a double among all doubles. -/
def place (value : Float) : Int := rank value.toModel.unpack

/-- The double is a number. -/
def IsNumber (value : Float) : Prop := value.toModel.unpack ≠ .notANumber

/-- Finite doubles are numbers. -/
theorem isNumber_of_isFinite {value : Float} (finite : value.isFinite = true) : IsNumber value := by
  -- What is not a number is not finite either.
  intro wrong
  have held : value.toModel.unpack.isFinite = true := finite
  rw [wrong] at held
  cases held

theorem isNumber_zero : IsNumber 0 := isNumber_of_isFinite rfl

@[simp] theorem place_zero : place 0 = 0 := rfl

private theorem compare_place {a b : Float} (left : IsNumber a) (right : IsNumber b) :
    a.toModel.unpack.compare b.toModel.unpack = some (compare (place a) (place b)) :=
  compare_eq_rank (canonical_unpack _) (canonical_unpack _) left right

private theorem compare_notANumber_left (u : UnpackedFloat) :
    UnpackedFloat.compare .notANumber u = none := by
  -- A comparison with what is not a number fails before it looks at the other side.
  cases u <;> rfl

private theorem compare_notANumber_right (u : UnpackedFloat) :
    u.compare .notANumber = none := by
  -- A comparison with what is not a number fails, whatever the other side is.
  cases u <;> rfl

private theorem lt_iff_compare (a b : Float) :
    a < b ↔ a.toModel.unpack.compare b.toModel.unpack = some .lt := by
  -- The order of doubles is decided by the comparison of what they hold.
  rw [← beq_iff_eq (b := some Ordering.lt)]
  exact decide_eq_true_iff

/-- Only numbers are ordered. -/
theorem isNumber_of_lt {a b : Float} (less : a < b) : IsNumber a ∧ IsNumber b := by
  -- A comparison with anything else has no outcome.
  rw [lt_iff_compare] at less
  constructor
  · intro wrong
    rw [wrong, compare_notANumber_left] at less
    exact nomatch less
  · intro wrong
    rw [wrong, compare_notANumber_right] at less
    exact nomatch less

/-- Numbers are ordered as their places are. -/
theorem lt_iff_place {a b : Float} (left : IsNumber a) (right : IsNumber b) :
    a < b ↔ place a < place b := by
  -- Numbers are compared by their places.
  rw [lt_iff_compare, compare_place left right, Option.some.injEq]
  exact Int.compare_eq_lt

/-- So are numbers that may be equal. -/
theorem le_iff_place {a b : Float} (left : IsNumber a) (right : IsNumber b) :
    a ≤ b ↔ place a ≤ place b := by
  -- The weak order is decided by the same comparison of places.
  have compared : a ≤ b ↔
      (a.toModel.unpack.compare b.toModel.unpack).any Ordering.isLE = true := decide_eq_true_iff
  rw [compared, compare_place left right]
  exact Int.isLE_compare

/-- Numbers are equal when their places are. -/
theorem beq_iff_place {a b : Float} (left : IsNumber a) (right : IsNumber b) :
    (a == b) = true ↔ place a = place b := by
  -- Equality is decided by the same comparison of places, so the two zeros are equal.
  rw [show (a == b) = (a.toModel.unpack.compare b.toModel.unpack == some .eq) from rfl,
    beq_iff_eq, compare_place left right, Option.some.injEq]
  exact Int.compare_eq_eq

/-- No number lies above infinity. -/
theorem place_le (value : Float) : place value ≤ 2 ^ (64 : Nat) := by
  -- Only finite numbers and infinity have a place above the origin.
  have canonical : Canonical value.toModel.unpack := canonical_unpack _
  unfold place
  cases unpacked : value.toModel.unpack with
  | notANumber => decide
  | infinity sign => cases sign <;> decide
  | zero sign => cases sign <;> decide
  | finite sign mantissa exponent positive =>
    rw [unpacked] at canonical
    have bounds := key_bounds canonical
    cases sign <;> dsimp only [rank] <;> omega

/-- How many places lie above a double. -/
def headroom (value : Float) : Nat := (2 ^ (64 : Nat) - place value).toNat

/-- A larger number has fewer places above it. -/
theorem headroom_lt {a b : Float} (less : a < b) : headroom b < headroom a := by
  -- The larger number has itself a place above the smaller one.
  obtain ⟨left, right⟩ := isNumber_of_lt less
  have := (lt_iff_place left right).1 less
  have := place_le b
  unfold headroom
  omega

end Calculator.Binary
