import Calculator.Proofs.Number.Operations
import Calculator.Proofs.Number.Sign

/-! Widening by one and by a twentieth: on which doubles one is lost, and that a margin taken away
or added leads to no other side. -/

namespace Calculator.Binary

open Float.Model (UnpackedFloat)
open Float.Model.UnpackedFloat

section Steps

variable {u w : UnpackedFloat} {step : ℤ}

/-- A number beyond the mantissa's bits is even. -/
theorem Held.exists_doubled (held : Held u) (large : 2 ^ 53 < |exactly u|) :
    ∃ (steps : ℤ) (shift : Nat), exactly u = 2 * (steps * 2 ^ shift) ∧ |steps| < 2 ^ 53 ∧
      (Even (mantissaOf u) → Even steps) := by
  cases held with
  | zero sign => norm_num at large
  | @finite sign m e positive canonical =>
    have magnitude : |(sign.apply (m : ℤ))| = m := by cases sign <;> simp [Sign.apply]
    have value : exactly (.finite sign m e positive) = (sign.apply m : ℤ) * 2 ^ e := rfl
    -- The mantissa alone does not reach so far.
    have raised : 0 < e := by
      rw [abs_exactly] at large
      exact lt_exponent_of_le_size canonical.1 (by simpa using large.le)
    obtain ⟨shift, rfl⟩ : ∃ shift : Nat, e = shift + 1 := ⟨(e - 1).toNat, by omega⟩
    refine ⟨sign.apply m, shift, ?_, ?_, fun even => ?_⟩
    · rw [value, zpow_add_one₀ (by norm_num), zpow_natCast]
      ring
    · rw [magnitude]
      exact_mod_cast canonical.1
    · have mantissa : Even (m : ℤ) := (Int.even_coe_nat m).mpr even
      cases sign
      · exact mantissa.neg
      · exact mantissa

/-- Beyond the mantissa's bits four divides a number with an even mantissa. -/
theorem Held.exists_four_mul (held : Held u) (large : 2 ^ 53 < |exactly u|)
    (even : Even (mantissaOf u)) : ∃ k : ℤ, exactly u = 4 * k := by
  -- An even mantissa has another factor of two.
  obtain ⟨steps, shift, value, _, parity⟩ := held.exists_doubled large
  obtain ⟨half, rfl⟩ := parity even
  refine ⟨half * 2 ^ shift, ?_⟩
  rw [value]
  push_cast
  ring

/-- Where four does not divide it, the number is twice its mantissa. -/
theorem Held.exists_two_mul (held : Held u) (large : 2 ^ 53 < |exactly u|) :
    (∃ k : ℤ, exactly u = 4 * k) ∨ ∃ steps : ℤ, exactly u = 2 * steps ∧ |steps| < 2 ^ 53 := by
  -- A further factor of two comes from the exponent, or else the steps are all that is left.
  obtain ⟨steps, shift, value, width, _⟩ := held.exists_doubled large
  cases shift with
  | zero => exact .inr ⟨steps, by simpa using value, width⟩
  | succ shift =>
    refine .inl ⟨steps * 2 ^ shift, ?_⟩
    rw [value, pow_succ]
    push_cast
    ring

/-- A step up or down is a step of one. -/
theorem abs_step (unit : step = 1 ∨ step = -1) : |(step : ℚ)| = 1 := by
  -- Both steps have the magnitude one.
  rcases unit with rfl | rfl <;> simp

/-- A number within two of a large one that four divides is large. -/
theorem abs_lt_of_four {number : ℚ} (large : 2 ^ 53 < |exactly w|)
    (four : ∃ k : ℤ, exactly w = 4 * k) (near : |exactly w - number| ≤ 2) : 2 ^ 53 < |number| := by
  obtain ⟨k, value⟩ := four
  -- The next multiple of four behind the limit is four away from it.
  have multiple : 2 ^ 53 + 4 ≤ |exactly w| := by
    rw [value, abs_mul, abs_of_pos (by norm_num : (0 : ℚ) < 4), ← Int.cast_abs] at large ⊢
    have more : (2 : ℤ) ^ 53 < 4 * |k| := by exact_mod_cast large
    have further : (2 : ℤ) ^ 53 + 4 ≤ 4 * |k| := by omega
    exact_mod_cast further
  have distance := abs_sub_abs_le_abs_sub (exactly w) number
  linarith

/-- One is lost on a large number that four divides: its neighbours are at least two away, and of
those at two the mantissa is odd. -/
theorem Nearest.eq_of_four (held : Held w) (rounded : Held u)
    (nearest : Nearest (exactly w - step) u) (unit : step = 1 ∨ step = -1)
    (large : 2 ^ 53 < |exactly w|) (four : ∃ k : ℤ, exactly w = 4 * k) :
    exactly u = exactly w := by
  obtain ⟨near, tie⟩ := nearest w held
  rw [sub_sub_cancel, abs_step unit] at near tie
  -- The result is so near that it is large and even, too.
  have reaches : 2 ^ 53 < |exactly u| := by
    have way := abs_sub_le (exactly w) (exactly w - step) (exactly u)
    rw [sub_sub_cancel, abs_step unit, abs_sub_comm (exactly w - step)] at way
    exact abs_lt_of_four large four (by linarith)
  obtain ⟨j, shift, double, _, _⟩ := rounded.exists_doubled reaches
  obtain ⟨i, double⟩ : ∃ i : ℤ, exactly u = 2 * i := ⟨j * 2 ^ shift, by rw [double]; push_cast; rfl⟩
  obtain ⟨k, value⟩ := four
  by_contra apart
  rw [double, value] at near tie apart
  have near : |2 * i - (4 * k - step)| ≤ 1 := by exact_mod_cast near
  have apart : 2 * i ≠ 4 * k := by exact_mod_cast apart
  -- So it is at two, where the two are equally near and the mantissa is not even.
  have distance : |2 * i - (4 * k - step)| = 1 := by
    rcases unit with rfl | rfl <;> rw [abs_le] at near <;> rw [abs_eq (by norm_num)] <;> omega
  rcases tie (by exact_mod_cast distance) with same | even
  · exact apart (by exact_mod_cast same.symm)
  · obtain ⟨l, four⟩ := rounded.exists_four_mul reaches even
    have four : 2 * i = 4 * l := by exact_mod_cast double.symm.trans four
    rw [abs_le] at near
    rcases unit with rfl | rfl <;> omega

/-- One is lost towards zero only on large numbers: of any other number the next whole number is
nearer than the number itself. -/
theorem Nearest.large_of_eq (nearest : Nearest (exactly w - step) u)
    (unit : step = 1 ∨ step = -1) (toward : 0 ≤ step * exactly w)
    (same : exactly u = exactly w) : 2 ^ 53 < |exactly w| := by
  by_contra small
  have small := abs_le.mp (not_lt.mp small)
  have above := Int.le_ceil (exactly w - step)
  -- Towards zero there are no more bits, so the whole number is held.
  have width : |⌈exactly w - step⌉| < 2 ^ 53 := by
    have upper : ⌈exactly w - step⌉ ≤ 2 ^ 53 - 1 := by
      rw [Int.ceil_le]
      rcases unit with rfl | rfl <;> push_cast at toward ⊢ <;> linarith
    have lower : -2 ^ 53 + 1 ≤ ⌈exactly w - step⌉ := by
      have : (-2 ^ 53 + 1 : ℚ) ≤ ⌈exactly w - step⌉ := by
        rcases unit with rfl | rfl <;> push_cast at toward above ⊢ <;> linarith
      exact_mod_cast this
    rw [abs_lt]
    omega
  obtain ⟨v, held, value⟩ := exists_held width (by decide : -1074 ≤ 0) (by decide)
  have near := (nearest v held).1
  rw [same, sub_sub_cancel, abs_step unit, value, zpow_zero, mul_one,
    abs_of_nonneg (sub_nonneg.mpr above)] at near
  have below := Int.ceil_lt_add_one (exactly w - step)
  linarith

/-- Of these numbers four divides those on which one is lost: of any other the neighbour at two is
as near, and the mantissa is odd. -/
theorem Nearest.four_of_eq (rounded : Held u) (nearest : Nearest (exactly w - step) u)
    (unit : step = 1 ∨ step = -1) (toward : 0 ≤ step * exactly w)
    (same : exactly u = exactly w) : ∃ k : ℤ, exactly w = 4 * k := by
  have large := nearest.large_of_eq unit toward same
  rw [← same] at large toward ⊢
  rcases rounded.exists_two_mul large with four | ⟨j, double, width⟩
  · exact four
  · have width : |j - step| < 2 ^ 53 := by
      have toward : 0 ≤ step * (2 * j) := by rw [double] at toward; exact_mod_cast toward
      rw [double, abs_mul, abs_of_pos (by norm_num : (0 : ℚ) < 2), ← Int.cast_abs] at large
      have large : (2 : ℤ) ^ 53 < 2 * |j| := by exact_mod_cast large
      rw [abs_lt] at width ⊢
      rcases unit with rfl | rfl <;> omega
    obtain ⟨v, held, value⟩ := exists_held width (by decide : -1074 ≤ 1) (by decide)
    have value : exactly v = exactly u - 2 * step := by
      rw [value, double]
      push_cast
      ring
    -- The neighbour and the number are both one away from what is rounded.
    obtain ⟨_, tie⟩ := nearest v held
    rw [← same, sub_sub_cancel, value, sub_sub_sub_cancel_left, ← abs_neg] at tie
    rcases tie (by congr 1; ring) with equal | even
    · exact absurd equal (by rcases unit with rfl | rfl <;> push_cast <;> linarith)
    · exact rounded.exists_four_mul large even

end Steps

section Widening

variable {a b c : Float} {step : ℤ}

/-- One is held as it is. -/
theorem valueOf_one : (1 : Float).isFinite = true ∧ valueOf 1 = 1 := by
  -- One is a small whole number.
  have one := valueOf_ofNat (by norm_num : 1 < 2 ^ 53)
  rwa [Nat.cast_one] at one

/-- A double less one is the exact difference, rounded. -/
theorem rounded_sub_one (finite : a.isFinite = true) :
    Rounded (valueOf a - (1 : ℤ)) (a - 1).toModel.unpack := by
  -- One is exact, so the difference is rounded once.
  have rounded := rounded_difference finite valueOf_one.1
  rwa [valueOf_one.2, ← Int.cast_one] at rounded

/-- A double and one are the exact sum, rounded. -/
theorem rounded_add_one (finite : a.isFinite = true) :
    Rounded (valueOf a - (-1 : ℤ)) (a + 1).toModel.unpack := by
  -- One is exact, so the sum is rounded once.
  have rounded := rounded_sum finite valueOf_one.1
  rw [valueOf_one.2] at rounded
  simpa using rounded

/-- One step is no overflow, and it leads no further than to twice the step. -/
theorem Rounded.near_step (finite : a.isFinite = true) (unit : step = 1 ∨ step = -1)
    (rounded : Rounded (valueOf a - step) b.toModel.unpack) :
    b.isFinite = true ∧ |valueOf b - (valueOf a - step)| ≤ 1 := by
  have steps := abs_step unit
  have held := held_of_isFinite finite
  -- The largest double is further from the limit than one.
  have below := held.abs_add_half_le
  have small : |valueOf a - step| < overflow := by
    have top : (2 : ℚ) ^ (2 : Int) ≤ 2 ^ (971 : Int) :=
      zpow_le_zpow_right₀ (by norm_num) (by decide)
    have distance := abs_sub (valueOf a) step
    unfold valueOf at *
    generalize (2 : ℚ) ^ (971 : Int) = highestStep at top below
    norm_num at top
    linarith
  have isFinite := rounded.isFinite small
  -- The double itself is at a distance of one.
  have near := (rounded.nearest isFinite _ held).1
  refine ⟨isFinite, near.trans ?_⟩
  rw [show exactly a.toModel.unpack - (valueOf a - step) = step from sub_sub_cancel _ _, steps]

/-- A value is widened by one on either side unless it is a large number that four divides. -/
theorem sub_one_lt_add_one_iff (left : a.isFinite = true) (right : c.isFinite = true)
    (same : valueOf a = valueOf c) :
    a - 1 < c + 1 ↔ ¬ (2 ^ 53 < |valueOf a| ∧ ∃ k : ℤ, valueOf a = 4 * k) := by
  have down := rounded_sub_one left
  have up := rounded_add_one right
  obtain ⟨lowFinite, lowNear⟩ := down.near_step left (.inl rfl)
  obtain ⟨highFinite, highNear⟩ := up.near_step right (.inr rfl)
  have low := held_of_isFinite lowFinite
  have high := held_of_isFinite highFinite
  rw [lt_iff_valueOf lowFinite highFinite]
  constructor
  · -- On such a number one is lost on both sides.
    rintro wide ⟨large, four⟩
    have lost : valueOf (a - 1) = valueOf a :=
      (down.nearest lowFinite).eq_of_four (held_of_isFinite left) low (.inl rfl) large four
    rw [same] at large four
    have lostAbove : valueOf (c + 1) = valueOf c :=
      (up.nearest highFinite).eq_of_four (held_of_isFinite right) high (.inr rfl) large four
    rw [lost, lostAbove] at wide
    exact wide.ne same
  · -- Otherwise it is not lost on the side of zero. On the other side it can be, where the
    -- exponent changes.
    intro small
    by_contra narrow
    have lowLe := (abs_le.mp lowNear).2
    have highGe := (abs_le.mp highNear).1
    push_cast at lowLe highGe
    have narrow := not_lt.mp narrow
    rcases le_total 0 (valueOf a) with positive | negative
    · have lost : valueOf (a - 1) = valueOf a := by linarith
      have toward : 0 ≤ (1 : ℤ) * valueOf a := by simpa using positive
      have nearest := down.nearest lowFinite
      exact small ⟨nearest.large_of_eq (.inl rfl) toward lost,
        nearest.four_of_eq low (.inl rfl) toward lost⟩
    · have lost : valueOf (c + 1) = valueOf c := by linarith
      rw [same] at small negative
      have toward : 0 ≤ (-1 : ℤ) * valueOf c := by simpa using negative
      have nearest := up.nearest highFinite
      exact small ⟨nearest.large_of_eq (.inr rfl) toward lost,
        nearest.four_of_eq high (.inr rfl) toward lost⟩

end Widening

section Margins

variable {u v : UnpackedFloat} {a b : Float}

/-- A positive sum has no sign, also where it is infinite. -/
theorem unsigned_add (left : Held u) (right : Held v) (positive : 0 < exactly u + exactly v) :
    Unsigned (stored (UnpackedFloat.add .binary64 u v)) := by
  cases left with
  | zero s =>
    cases right with
    | zero t => simp at positive
    | @finite t n f filled canonical =>
      rw [zero_add_finite, stored_finite _ _ _ _ canonical]
      cases t
      · rw [exactly_zero, exactly_negative] at positive
        linarith [size_pos f filled]
      · exact .finite
  | @finite s m e filled canonical =>
    cases right with
    | zero t =>
      rw [finite_add_zero, stored_finite _ _ _ _ canonical]
      cases s
      · rw [exactly_zero, exactly_negative] at positive
        linarith [size_pos e filled]
      · exact .finite
    | finite =>
      -- The exact sum is positive, and rounding keeps its sign.
      rw [← exactly_scaled _ (min_le_left _ _), ← exactly_scaled _ (min_le_right _ _),
        ← add_mul, ← Int.cast_add] at positive
      rw [add_finite]
      have above := pos_of_mul_pos_left positive (by positivity)
      obtain ⟨N, sum⟩ := Int.eq_ofNat_of_zero_le (by exact_mod_cast above.le)
      rw [sum] at above ⊢
      rw [normalize_positive N _ (by exact_mod_cast above), round_eq]
      exact unsigned_stored (unsigned_roundWithAccuracy _ _ _)

/-- A number without a sign is not ranked below zero. -/
theorem Unsigned.rank_nonneg (unsigned : Unsigned u) (number : u ≠ .notANumber) : 0 ≤ rank u := by
  -- Without a sign the rank is a key or zero.
  cases unsigned with
  | notANumber => exact absurd rfl number
  | infinity | zero | finite =>
    simp only [rank]
    omega

/-- A finite double plus a number is a number. -/
theorem isNumber_finite_add (finite : a.isFinite = true) (number : IsNumber b) :
    IsNumber (a + b) := by
  cases unpacked : b.toModel.unpack with
  | notANumber => exact absurd unpacked number
  | infinity s =>
    -- An infinity takes every finite number with it.
    have held := held_of_isFinite finite
    show stored (UnpackedFloat.add .binary64 a.toModel.unpack b.toModel.unpack) ≠ _
    rw [unpacked]
    have lost : UnpackedFloat.add .binary64 a.toModel.unpack (.infinity s) = .infinity s := by
      generalize a.toModel.unpack = u at held
      cases held <;> rfl
    rw [lost, stored_infinity]
    nofun
  | zero | finite =>
    have isFinite : b.toModel.unpack.isFinite = true := by rw [unpacked]; rfl
    exact isNumber_add (isNumber_of_isFinite finite) isFinite

/-- The opposite of a number is a number. -/
theorem isNumber_neg (number : IsNumber b) : IsNumber (-b) := by
  -- The opposite holds a number if the value does.
  rw [IsNumber, unpack_neg_eq]
  intro wrong
  cases unpacked : b.toModel.unpack with
  | notANumber => exact number unpacked
  | infinity | zero | finite =>
    rw [unpacked] at wrong
    cases wrong

/-- What is placed at zero is finite. -/
theorem held_of_place_eq_zero (number : IsNumber b) (zero : place b = 0) :
    Held b.toModel.unpack := by
  -- An infinity is far from zero, and the other numbers are held.
  have canonical : Canonical b.toModel.unpack := canonical_unpack _
  unfold place at zero
  cases unpacked : b.toModel.unpack with
  | notANumber => exact absurd unpacked number
  | infinity s =>
    rw [unpacked] at zero
    cases s <;> simp [rank] at zero
  | zero s => exact .zero s
  | finite => exact .finite (unpacked ▸ canonical)

/-- Adding a number without a sign to a finite double gives no lower one. -/
theorem place_le_add (finite : a.isFinite = true) (number : IsNumber b)
    (unsigned : 0 ≤ place b) : place a ≤ place (a + b) := by
  rcases unsigned.eq_or_lt with zero | positive
  · -- A zero is lost.
    have held := held_of_isFinite finite
    have other := held_of_place_eq_zero number zero.symm
    have nothing : exactly b.toModel.unpack = 0 := other.rank_eq_zero_iff.mp zero.symm
    exact (rank_add_of_exactly held other held (by rw [nothing, add_zero])).2.ge
  · exact (rank_add _ _ (canonical_unpack _) (stored_unpack _) (stored_unpack _)
      (isNumber_finite_add finite number)).1 positive

/-- Taking it away gives no higher one. -/
theorem place_sub_le_of_unsigned (finite : a.isFinite = true) (number : IsNumber b)
    (unsigned : 0 ≤ place b) : IsNumber (a - b) ∧ place (a - b) ≤ place a := by
  -- It is the opposite, which is not above zero, that is added.
  have difference := isNumber_finite_add finite (isNumber_neg number)
  have opposite := place_neg b
  rw [sub_eq]
  refine ⟨difference, (rank_add _ _ (canonical_unpack _) (stored_unpack _) (stored_unpack _)
    difference).2 ?_⟩
  show place (-b) ≤ 0
  omega

/-- A twentieth is positive and less than one. -/
theorem twentieth_bounds :
    (0.05 : Float).isFinite = true ∧ 0 < valueOf 0.05 ∧ valueOf 0.05 ≤ 1 := by
  -- The literal is rounded to the nearest double, which is at most twice as large.
  have finite : (0.05 : Float).isFinite = true := by decide +kernel
  have positive : (0 : Float) < 0.05 := by decide +kernel
  have rounds : RoundsTo ((5 : Nat) * 10 ^ (-2 : Int)) 0.05 :=
    (rounded_literal 5 (-2)).roundsTo finite
  refine ⟨finite, (lt_iff_valueOf rfl finite).mp positive, ?_⟩
  exact (rounds.le_twice (by positivity)).trans (by norm_num)

/-- A positive double has a positive mantissa. -/
theorem unpack_of_pos (finite : a.isFinite = true) (positive : 0 < valueOf a) :
    ∃ m e filled, a.toModel.unpack = .finite .positive m e filled := by
  -- Zero is not positive, and neither is a negative value.
  have held := held_of_isFinite finite
  unfold valueOf at positive
  generalize a.toModel.unpack = u at *
  cases held with
  | zero s => exact absurd positive (lt_irrefl 0)
  | @finite s m e filled =>
    cases s
    · rw [exactly_negative] at positive
      linarith [size_pos e filled]
    · exact ⟨m, e, filled, rfl⟩

/-- A twentieth of a number without a sign is a number. -/
theorem isNumber_twentieth (number : IsNumber a) (unsigned : Unsigned a.toModel.unpack) :
    IsNumber (a * 0.05) := by
  obtain ⟨finite, positive, small⟩ := twentieth_bounds
  have held := held_of_isFinite finite
  have canonical : Canonical a.toModel.unpack := canonical_unpack _
  obtain ⟨m, e, filled, twentieth⟩ := unpack_of_pos finite positive
  show stored (UnpackedFloat.mul .binary64 a.toModel.unpack (0.05 : Float).toModel.unpack) ≠ _
  unfold IsNumber at number
  generalize a.toModel.unpack = u at *
  -- A part of infinity is infinite, and of zero nothing.
  cases unsigned with
  | notANumber => exact absurd rfl number
  | infinity =>
    rw [twentieth, show UnpackedFloat.mul .binary64 (.infinity .positive)
      (.finite .positive m e filled) = .infinity .positive from rfl, stored_infinity]
    nofun
  | zero =>
    rw [twentieth, show UnpackedFloat.mul .binary64 (.zero .positive)
      (.finite .positive m e filled) = .zero .positive from rfl, stored_zero]
    nofun
  | finite =>
    -- A part of a finite number is no overflow.
    have whole : Held _ := .finite canonical
    have share : |valueOf 0.05| ≤ 1 := by rwa [abs_of_pos positive]
    have part := rounded_mul whole held
    have isFinite := part.isFinite (lt_of_le_of_lt ?_ whole.abs_lt_overflow)
    · intro wrong
      rw [wrong] at isFinite
      cases isFinite
    · rw [abs_mul]
      exact mul_le_of_le_one_right (abs_nonneg _) share

/-- A twentieth of what has no sign has none. -/
theorem unsigned_twentieth (unsigned : Unsigned a.toModel.unpack) :
    Unsigned (a * 0.05).toModel.unpack := by
  -- The factor has no sign, and neither has a product of two such.
  obtain ⟨finite, positive, _⟩ := twentieth_bounds
  obtain ⟨m, e, filled, twentieth⟩ := unpack_of_pos finite positive
  refine unsigned_stored (unsigned_mul unsigned ?_)
  rw [twentieth]
  exact .finite

/-- The margin between two different doubles is a number that is not below zero. -/
theorem margin_spec (left : a.isFinite = true) (right : b.isFinite = true)
    (less : valueOf a < valueOf b) :
    IsNumber ((b - a) * 0.05) ∧ 0 ≤ place ((b - a) * 0.05) := by
  -- The distance is positive before it is rounded, so it has no sign where it overflows, either.
  have above := sub_pos.mpr less
  rw [sub_eq_add_neg, ← valueOf_neg] at above
  have unsigned : Unsigned (b - a).toModel.unpack := by
    rw [sub_eq]
    exact unsigned_add (held_of_isFinite right) (held_of_isFinite (isFinite_neg left)) above
  have number := isNumber_twentieth (isNumber_sub (isNumber_of_isFinite right) left) unsigned
  exact ⟨number, (unsigned_twentieth unsigned).rank_nonneg number⟩

end Margins

end Calculator.Binary
