import Calculator.Proofs.Number.Nearest

/-! Operations on doubles give their exact results, rounded to the nearest double; so do
literals. -/

namespace Calculator.Binary

open Float.Model (UnpackedFloat)
open Float.Model.UnpackedFloat

section Operations

variable {sign other : Sign} {m n : Nat} {e f : Int} {u v : UnpackedFloat} {magnitude : ℚ}
  {accuracy : Accuracy}

/-- A magnitude of which enough bits are known is rounded to the nearest number. -/
theorem rounded_roundWithAccuracy (sign : Sign)
    (cuts : Cuts (.ofMantissaAndAccuracy m accuracy) (magnitude / 2 ^ e)) (fine : e ≤ target m e) :
    Rounded (signedBy sign magnitude) (stored (roundWithAccuracy .binary64 sign m e accuracy)) := by
  obtain ⟨rounded, rounds, settles⟩ := exists_roundsAt sign cuts fine
  apply settles.rounded_stored rounds
  -- There is a mantissa below the magnitude.
  have unit : (0 : ℚ) < 2 ^ e := by positivity
  have share : 0 ≤ magnitude / 2 ^ e := (Nat.cast_nonneg _).trans cuts.bounds.1
  exact (div_nonneg_iff.mp share).elim And.left fun below => absurd below.2 unit.not_ge

/-- A mantissa at an exponent is rounded to the nearest number if it is written finely enough. -/
theorem rounded_exact (sign : Sign) (fine : e ≤ target m e) :
    Rounded (signedBy sign (size m e)) (stored (roundWithAccuracy .binary64 sign m e .exact)) := by
  -- Nothing has been cut off before.
  apply rounded_roundWithAccuracy sign ?_ fine
  rw [size, mul_div_cancel_right₀ _ (by positivity)]
  exact .exact

/-- Rounding gives the nearest number. -/
theorem rounded_round (sign : Sign) (positive : 0 < m) (e : Int) :
    Rounded (signedBy sign (size m e)) (stored (UnpackedFloat.round .binary64 sign m e)) := by
  -- The mantissa is first scaled to the target, which scaling does not move.
  have moved := target_scaled m (e - target m e).toNat e positive
  rw [round_eq, ← size_scaled m (e - target m e).toNat e]
  exact rounded_exact sign (by omega)

/-- An exact sum at an exponent is rounded to the nearest number. -/
theorem rounded_normalize (M E : Int) :
    Rounded (M * 2 ^ E) (stored (UnpackedFloat.normalize .binary64 M E .positive)) := by
  -- The sign is taken apart from the magnitude, and zero is kept.
  rcases Int.lt_trichotomy M 0 with below | rfl | above
  · obtain ⟨N, rfl⟩ : ∃ N : Nat, M = -(N : Int) := ⟨M.natAbs, by omega⟩
    rw [normalize_negative N E (by omega), show (((-(N : Int) : Int)) : ℚ) * 2 ^ E =
      signedBy .negative (size N E) by simp [signedBy, size]]
    exact rounded_round .negative (by omega) E
  · rw [normalize_zero, Int.cast_zero, zero_mul]
    exact rounded_zero _
  · obtain ⟨N, rfl⟩ : ∃ N : Nat, M = (N : Int) := ⟨M.natAbs, by omega⟩
    rw [normalize_positive N E (by omega)]
    exact rounded_round .positive (by omega) E

/-- A sum is the exact sum, rounded. -/
theorem rounded_add (left : Held u) (right : Held v) :
    Rounded (exactly u + exactly v) (stored (UnpackedFloat.add .binary64 u v)) := by
  -- A zero gives the other number back, and only two other numbers are rounded.
  cases left with
  | zero s =>
    cases right with
    | zero t =>
      rw [exactly_zero, exactly_zero, add_zero]
      cases s <;> cases t <;> exact rounded_zero _
    | finite canonical =>
      rw [zero_add_finite, stored_finite _ _ _ _ canonical]
      exact rounded_of_exactly (.finite canonical) (by simp)
  | finite canonical =>
    cases right with
    | zero t =>
      rw [finite_add_zero, stored_finite _ _ _ _ canonical]
      exact rounded_of_exactly (.finite canonical) (by simp)
    | finite =>
      rw [add_finite, ← exactly_scaled _ (min_le_left _ _), ← exactly_scaled _ (min_le_right _ _),
        ← add_mul, ← Int.cast_add]
      exact rounded_normalize _ _

/-- The product of two magnitudes has the product of their mantissas. -/
theorem size_mul_size (m n : Nat) (e f : Int) : size m e * size n f = size (m * n) (e + f) := by
  -- The exponents of a product are added.
  unfold size
  rw [zpow_add₀ (by norm_num)]
  push_cast
  ring

/-- The sign of a product is the product of the signs. -/
theorem signedBy_mul (sign other : Sign) (a b : ℚ) :
    signedBy sign a * signedBy other b = signedBy (sign * other) (a * b) := by
  -- The four pairs of signs are looked at one by one.
  cases sign <;> cases other
  · exact neg_mul_neg a b
  · exact neg_mul a b
  · exact mul_neg a b
  · rfl

/-- The sign of a quotient is the quotient of the signs. -/
theorem signedBy_div (sign other : Sign) (a b : ℚ) :
    signedBy sign a / signedBy other b = signedBy (sign / other) (a / b) := by
  -- The four pairs of signs are looked at one by one.
  cases sign <;> cases other
  · exact neg_div_neg_eq a b
  · exact neg_div b a
  · exact div_neg a
  · rfl

/-- A product that is written finely enough is the exact product, rounded. -/
theorem rounded_mul_finite (left : 0 < m) (right : 0 < n) (fine : e + f ≤ target (m * n) (e + f)) :
    Rounded (signedBy (sign * other) (size m e * size n f))
      (stored (UnpackedFloat.mul .binary64 (.finite sign m e left) (.finite other n f right))) := by
  -- A product of mantissas is exact before it is rounded.
  rw [size_mul_size]
  exact rounded_exact (sign * other) fine

/-- The product of two canonical numbers is written finely enough. -/
theorem le_target_mul {left : 0 < m} {right : 0 < n} (canonical : Canonical (.finite sign m e left))
    (filled : Canonical (.finite other n f right)) : e + f ≤ target (m * n) (e + f) := by
  obtain ⟨_, _, _, full⟩ := canonical
  obtain ⟨_, _, _, otherFull⟩ := filled
  have product : m * n ≠ 0 := (Nat.mul_pos left right).ne'
  -- One of the mantissas has all its bits, or both exponents are the smallest.
  have wide : 2 ^ 52 ≤ m * n ∨ e + f ≤ -1074 := by
    rcases full with full | smallest
    · exact .inl (full.trans (Nat.le_mul_of_pos_right m right))
    · rcases otherFull with full | otherSmallest
      · exact .inl (full.trans (Nat.le_mul_of_pos_left n left))
      · exact .inr (by omega)
  unfold target
  rcases wide with wide | low
  · have := (Nat.le_log2 product).mpr wide
    omega
  · omega

/-- A product is the exact product, rounded. -/
theorem rounded_mul (left : Held u) (right : Held v) :
    Rounded (exactly u * exactly v) (stored (UnpackedFloat.mul .binary64 u v)) := by
  cases left with
  | zero s =>
    -- Nothing is left of a product with zero.
    rw [exactly_zero, zero_mul]
    cases right <;> exact rounded_zero _
  | finite canonical =>
    cases right with
    | zero t =>
      rw [exactly_zero, mul_zero]
      exact rounded_zero _
    | finite filled =>
      rw [exactly_finite, exactly_finite, signedBy_mul]
      exact rounded_mul_finite _ _ (le_target_mul canonical filled)

/-- The remainder of a division tells what was cut off the quotient. -/
theorem cuts_quotient (dividend : Nat) {divisor : Nat} (positive : 0 < divisor) :
    Cuts (.ofMantissaAndAccuracy (dividend / divisor)
      (accuracyOfFraction (dividend % divisor) divisor)) ((dividend : ℚ) / divisor) := by
  have above : (0 : ℚ) < divisor := by exact_mod_cast positive
  have less : ((dividend % divisor : Nat) : ℚ) < divisor := by
    exact_mod_cast Nat.mod_lt dividend positive
  have split : (dividend : ℚ) / divisor =
      (dividend / divisor : Nat) + (dividend % divisor : Nat) / divisor := by
    rw [div_eq_iff above.ne', add_mul, div_mul_cancel₀ _ above.ne']
    exact_mod_cast (Nat.div_add_mod' dividend divisor).symm
  rw [split]
  generalize dividend / divisor = quotient
  generalize dividend % divisor = rest at less
  -- What is left is nothing, or it is compared with half of the divisor.
  unfold accuracyOfFraction
  by_cases none : rest = 0
  · rw [if_pos none, none, Nat.cast_zero, zero_div, add_zero]
    exact .exact
  · have some : (0 : ℚ) < rest := by exact_mod_cast Nat.pos_of_ne_zero none
    have share : (0 : ℚ) < rest / divisor := by positivity
    rw [if_neg none]
    rcases lt_trichotomy (2 * rest) divisor with low | tie | high
    · rw [Nat.compare_eq_lt.mpr low]
      have low : 2 * (rest : ℚ) < divisor := by exact_mod_cast low
      refine .belowHalf (by linarith) ?_
      have : (rest : ℚ) / divisor < 1 / 2 := by rw [div_lt_iff₀ above]; linarith
      linarith
    · rw [Nat.compare_eq_eq.mpr tie]
      have tie : 2 * (rest : ℚ) = divisor := by exact_mod_cast tie
      rw [show (rest : ℚ) / divisor = 1 / 2 by rw [div_eq_iff above.ne']; linarith]
      exact .half
    · rw [Nat.compare_eq_gt.mpr high]
      have high : (divisor : ℚ) < 2 * rest := by exact_mod_cast high
      refine .aboveHalf ?_ ?_
      · have : 1 / 2 < (rest : ℚ) / divisor := by rw [lt_div_iff₀ above]; linarith
        linarith
      · have : (rest : ℚ) / divisor < 1 := (div_lt_one above).mpr less
        linarith

/-- A quotient of which so many bits are computed has enough of them. -/
theorem le_target_quotient (left : 0 < m) (right : 0 < n) {t : Int} {k : Nat}
    (place : min (e - f) (max ((m.log2 : Int) + 1 + e - (n.log2 + 1 + f) - 53) (-1074)) = t)
    (places : (e - f - t).toNat = k) : t ≤ target (m * 2 ^ k / n) t := by
  unfold target
  by_cases low : t ≤ -1074
  · omega
  · -- Above the smallest exponent the quotient has fifty-three bits.
    have wide : 2 ^ 52 ≤ m * 2 ^ k / n := by
      rw [Nat.le_div_iff_mul_le right]
      calc 2 ^ 52 * n ≤ 2 ^ 52 * 2 ^ (n.log2 + 1) := Nat.mul_le_mul_left _ Nat.lt_log2_self.le
        _ = 2 ^ (53 + n.log2) := by rw [← pow_add]; congr 1; omega
        _ ≤ 2 ^ (m.log2 + k) := Nat.pow_le_pow_right (by decide) (by omega)
        _ = 2 ^ m.log2 * 2 ^ k := pow_add ..
        _ ≤ m * 2 ^ k := Nat.mul_le_mul_right _ (Nat.log2_self_le (by omega))
    have := (Nat.le_log2 (by omega)).mpr wide
    omega

/-- A quotient is the exact quotient, rounded. -/
theorem rounded_div_finite (left : 0 < m) (right : 0 < n) :
    Rounded (signedBy (sign / other) (size m e / size n f))
      (stored (UnpackedFloat.div .binary64 (.finite sign m e left) (.finite other n f right))) := by
  -- The dividend is written so finely that the quotient has bits enough.
  generalize place : min (e - f)
    (max ((m.log2 : Int) + 1 + e - (n.log2 + 1 + f) - 53) (-1074)) = t
  generalize places : (e - f - t).toNat = k
  have quotient :
      UnpackedFloat.div .binary64 (.finite sign m e left) (.finite other n f right) =
        roundWithAccuracy .binary64 (sign / other) (m * 2 ^ k / n) t
          (accuracyOfFraction (m * 2 ^ k % n) n) := by
    rw [← places, ← place, ← Nat.shiftLeft_eq]
    rfl
  have value : size m e / size n f / 2 ^ t = ((m * 2 ^ k : Nat) : ℚ) / n := by
    have moved : (2 : ℚ) ^ e = 2 ^ k * 2 ^ t * 2 ^ f := by
      rw [← zpow_natCast, ← zpow_add₀ (by norm_num), ← zpow_add₀ (by norm_num)]
      congr 1
      omega
    have filled : (n : ℚ) ≠ 0 := by exact_mod_cast right.ne'
    unfold size
    rw [moved]
    push_cast
    field_simp
  rw [quotient]
  apply rounded_roundWithAccuracy
  · rw [value]
    exact cuts_quotient _ right
  · exact le_target_quotient left right place places

/-- A quotient by a number other than zero is the exact quotient, rounded. -/
theorem rounded_div (left : Held u) (other : Sign) (f : Int) (right : 0 < n) :
    Rounded (exactly u / exactly (.finite other n f right))
      (stored (UnpackedFloat.div .binary64 u (.finite other n f right))) := by
  -- Zero divided is zero, and otherwise the mantissas are divided.
  cases left with
  | zero s =>
    rw [exactly_zero, zero_div]
    exact rounded_zero _
  | @finite s m e positive =>
    rw [exactly_finite, exactly_finite, signedBy_div]
    exact rounded_div_finite positive right

/-- Scales far above that of the largest double lead over the limit. -/
theorem overflow_le {digits : Nat} {scale : Int} (positive : 0 < digits) (large : 2048 < scale) :
    overflow ≤ digits * 10 ^ scale := by
  -- The power of ten alone is above the largest doubles.
  have one : (1 : ℚ) ≤ digits := by exact_mod_cast positive
  have unit : (0 : ℚ) < 2 ^ (971 : Int) := by positivity
  calc overflow ≤ 2 ^ 53 * 2 ^ (971 : Int) := by unfold overflow; gcongr; norm_num
    _ = 2 ^ ((53 : Nat) + 971 : Int) := by rw [zpow_add₀ (by norm_num), zpow_natCast]
    _ ≤ 2 ^ scale := zpow_le_zpow_right₀ (by norm_num) (by push_cast; omega)
    _ ≤ 10 ^ scale := zpow_le_zpow_left₀ (by omega) (by norm_num) (by norm_num)
    _ ≤ digits * 10 ^ scale := le_mul_of_one_le_left (by positivity) one

/-- A number below half the smallest double is rounded to zero. -/
theorem rounded_tiny {number : ℚ} (unsigned : 0 ≤ number) (tiny : number < 2 ^ (-1075 : Int)) :
    Rounded number (stored (.zero .positive)) := by
  rw [stored_zero]
  refine ⟨fun _ => rfl, fun _ v held => ?_⟩
  rw [exactly_zero, zero_sub, abs_neg, abs_of_nonneg unsigned]
  by_cases nothing : exactly v = 0
  · rw [nothing, zero_sub, abs_neg, abs_of_nonneg unsigned]
    exact ⟨le_rfl, fun _ => .inl rfl⟩
  · -- Any other number is at least the smallest double away from zero.
    obtain ⟨steps, exponent, value, _, lowest, _⟩ := held.exists_exactly
    have some : steps ≠ 0 := by
      rintro rfl
      simp [value] at nothing
    have far : 2 ^ (-1075 : Int) * 2 ≤ |exactly v| := by
      have unit : (0 : ℚ) < 2 ^ exponent := by positivity
      have one : (1 : ℚ) ≤ |(steps : ℚ)| := by exact_mod_cast Int.one_le_abs some
      calc (2 : ℚ) ^ (-1075 : Int) * 2 = 2 ^ (-1074 : Int) :=
            (zpow_add_one₀ (by norm_num) (-1075)).symm
        _ ≤ 2 ^ exponent := zpow_le_zpow_right₀ (by norm_num) lowest
        _ ≤ |(steps : ℚ)| * 2 ^ exponent := le_mul_of_one_le_left unit.le one
        _ = |exactly v| := by rw [value, abs_mul, abs_of_pos unit]
    have apart : |exactly v| - number ≤ |exactly v - number| := by
      simpa [abs_of_nonneg unsigned] using abs_sub_abs_le_abs_sub (exactly v) number
    have strict : number < |exactly v - number| := by linarith
    exact ⟨strict.le, fun tie => absurd tie strict.ne⟩

/-- Scales far below that of the smallest double lead below half of it. -/
theorem lt_of_small_scale {digits : Nat} {scale : Int} (small : scale < -(2048 + digits.log2)) :
    (digits : ℚ) * 10 ^ scale < 2 ^ (-1075 : Int) := by
  -- The digits bring fewer powers of two than the scale takes away.
  have leading : (digits : ℚ) < 2 ^ (digits.log2 + 1) := by exact_mod_cast Nat.lt_log2_self
  have power : (10 : ℚ) ^ scale ≤ 2 ^ scale := by
    obtain ⟨places, rfl⟩ := Int.exists_eq_neg_ofNat (by omega : scale ≤ 0)
    rw [zpow_neg, zpow_neg, zpow_natCast, zpow_natCast]
    gcongr
    norm_num
  calc (digits : ℚ) * 10 ^ scale < 2 ^ (digits.log2 + 1) * 10 ^ scale := by gcongr
    _ ≤ 2 ^ (digits.log2 + 1) * 2 ^ scale := by gcongr
    _ = 2 ^ ((digits.log2 + 1 : Nat) + scale) := by rw [zpow_add₀ (by norm_num), zpow_natCast]
    _ ≤ 2 ^ (-1075 : Int) := zpow_le_zpow_right₀ (by norm_num) (by push_cast; omega)

/-- Digits that are scaled by a power of ten are the exact product, rounded. -/
theorem rounded_ofScientific (digits : Nat) (scale : Int) :
    Rounded (digits * 10 ^ scale) (stored (UnpackedFloat.ofScientific .binary64 digits scale)) := by
  have range : (2 : Int) ^ Float.Model.Format.binary64.exponentBits = 2048 := by decide
  unfold UnpackedFloat.ofScientific
  rw [range]
  by_cases none : digits = 0
  · rw [dif_pos none, none, Nat.cast_zero, zero_mul]
    exact rounded_zero _
  have positive : 0 < digits := Nat.pos_of_ne_zero none
  rw [dif_neg none]
  by_cases large : scale > 2048
  · -- The limit is passed, so nothing is said of a result that is not finite.
    have beyond := overflow_le positive large
    rw [if_pos large, stored_infinity]
    refine ⟨fun below => absurd below (not_lt.mpr (beyond.trans (le_abs_self _))), fun finite => ?_⟩
    cases finite
  rw [if_neg large]
  by_cases small : scale < -(2048 + digits.log2)
  · rw [if_pos small]
    exact rounded_tiny (by positivity) (lt_of_small_scale small)
  rw [if_neg small]
  by_cases up : 0 ≤ scale
  · -- The digits are written with bits to spare, and the product has at least as many.
    obtain ⟨places, rfl⟩ := Int.eq_ofNat_of_zero_le up
    have wide : 2 ^ 53 ≤ digits * 2 ^ 53 * 10 ^ places :=
      (Nat.le_mul_of_pos_left _ positive).trans
        (Nat.le_mul_of_pos_right _ (Nat.pow_pos (by decide)))
    have bits := (Nat.le_log2 (by omega)).mpr wide
    have scaled := size_scaled digits 53 0
    have product : (digits : ℚ) * 10 ^ (places : Int) = signedBy (.positive * .positive)
        (size (digits * 2 ^ 53) (0 - (53 : Nat)) * size (10 ^ places) 0) := by
      rw [scaled, size_natCast, size_natCast, zpow_natCast]
      push_cast
      rfl
    rw [if_pos up, product, ← Nat.shiftLeft_eq]
    rw [← Nat.shiftLeft_eq] at bits
    refine rounded_mul_finite _ _ ?_
    unfold target
    push_cast
    omega
  · obtain ⟨places, rfl⟩ := Int.exists_eq_neg_ofNat (Int.le_of_lt (not_le.mp up))
    have quotient : (digits : ℚ) * 10 ^ (-(places : Int)) = signedBy (.positive / .positive)
        (size digits 0 / size (10 ^ (- -(places : Int)).toNat) 0) := by
      rw [size_natCast, size_natCast, neg_neg, Int.toNat_natCast, zpow_neg, zpow_natCast,
        ← div_eq_mul_inv]
      push_cast
      rfl
    rw [if_neg up, quotient]
    exact rounded_div_finite _ _

end Operations

section Doubles

variable {a b : Float}

/-- A double that a number is rounded to: no finite double is nearer to the number, and of two that
are equally near it has the even mantissa. -/
structure RoundsTo (number : ℚ) (value : Float) : Prop where
  isFinite : value.isFinite = true
  nearest : ∀ other : Float, other.isFinite = true →
    |valueOf value - number| ≤ |valueOf other - number|
  even : ∀ other : Float, other.isFinite = true →
    |valueOf value - number| = |valueOf other - number| →
      valueOf other = valueOf value ∨ Even (mantissaOf value.toModel.unpack)

/-- A double is no more than twice the number that is rounded to it, since zero is no nearer. -/
theorem RoundsTo.le_twice {number : ℚ} {value : Float} (rounds : RoundsTo number value)
    (unsigned : 0 ≤ number) : valueOf value ≤ 2 * number := by
  -- The nearest double is no farther away than zero is.
  have near := rounds.nearest 0 rfl
  have zero : valueOf 0 = 0 := rfl
  rw [zero, zero_sub, abs_neg, abs_of_nonneg unsigned] at near
  have above := (le_abs_self _).trans near
  linarith

/-- What a number is rounded to is a double, if it is finite. -/
theorem Rounded.roundsTo {number : ℚ} {value : Float}
    (rounded : Rounded number value.toModel.unpack) (finite : value.isFinite = true) :
    RoundsTo number value where
  isFinite := finite
  nearest := fun _ other => (rounded.nearest finite _ (held_of_isFinite other)).1
  even := fun _ other => (rounded.nearest finite _ (held_of_isFinite other)).2

/-- The opposite of a double has the opposite value. -/
theorem valueOf_neg (value : Float) : valueOf (-value) = -valueOf value := by
  -- Only the sign changes.
  rw [valueOf, unpack_neg_eq, exactly_neg]
  rfl

/-- The magnitude of a double has the magnitude of its value. -/
theorem valueOf_abs (value : Float) : valueOf value.abs = |valueOf value| := by
  -- The magnitude of what is held is the size without its sign.
  unfold valueOf
  rw [unpack_abs_eq]
  cases value.toModel.unpack with
  | notANumber | infinity | zero => simp [UnpackedFloat.abs, exactly]
  | finite sign m e positive =>
    rw [abs_exactly]
    rfl

/-- The magnitude of a finite double is finite. -/
theorem isFinite_abs (finite : a.isFinite = true) : a.abs.isFinite = true := by
  -- The magnitude of what is held is held.
  have held := held_of_isFinite finite
  show a.abs.toModel.unpack.isFinite = true
  rw [unpack_abs_eq]
  generalize a.toModel.unpack = u at held
  cases held <;> rfl

/-- A sum of doubles is the exact sum, rounded. -/
theorem rounded_sum (left : a.isFinite = true) (right : b.isFinite = true) :
    Rounded (valueOf a + valueOf b) (a + b).toModel.unpack :=
  rounded_add (held_of_isFinite left) (held_of_isFinite right)

/-- A difference of doubles is the exact difference, rounded. -/
theorem rounded_difference (left : a.isFinite = true) (right : b.isFinite = true) :
    Rounded (valueOf a - valueOf b) (a - b).toModel.unpack := by
  -- A difference is the sum with the opposite.
  rw [sub_eq, sub_eq_add_neg, ← valueOf_neg]
  exact rounded_sum left (isFinite_neg right)

/-- A whole number of at most fifty-three bits is held as it is. -/
theorem held_toFloat {number : Nat} (small : number < 2 ^ 53) :
    Held number.toUInt64.toFloat.toModel.unpack ∧ valueOf number.toUInt64.toFloat = number := by
  -- A whole number with 53 bits is held exactly.
  rcases Nat.eq_zero_or_pos number with rfl | positive
  · exact ⟨.zero .positive, rfl⟩
  · have holds := holds_toFloat positive small
    refine ⟨?_, holds.valueOf_eq⟩
    obtain ⟨m, e, filled, unpacked, canonical, _⟩ := holds.canonical
    rw [unpacked]
    exact .finite canonical

/-- A literal is its exact value, rounded. -/
theorem rounded_literal (digits : Nat) (scale : Int) :
    Rounded (digits * 10 ^ scale)
      (Float.ofScientific digits (decide (scale < 0)) scale.natAbs).toModel.unpack := by
  -- Few digits and a small power of ten are two doubles, which are divided or multiplied; all other
  -- literals are rounded at once.
  unfold Float.ofScientific
  rcases Int.lt_or_le scale 0 with down | up
  · obtain ⟨places, rfl⟩ := Int.exists_eq_neg_ofNat (Int.le_of_lt down)
    simp only [decide_eq_true down, if_true, Int.natAbs_neg, Int.natAbs_natCast, Int.negOfNat_eq]
    split
    · rename_i small
      obtain ⟨held, value⟩ := held_toFloat small.1
      obtain ⟨m, e, positive, unpacked, power⟩ :=
        holds_powerOfTen places (Nat.lt_succ_of_le small.2)
      have quotient := rounded_div held .positive e positive
      rw [exactly_positive, power, ← unpacked] at quotient
      rw [zpow_neg, zpow_natCast, ← div_eq_mul_inv, ← value]
      exact quotient
    · exact rounded_ofScientific digits _
  · obtain ⟨places, rfl⟩ := Int.eq_ofNat_of_zero_le up
    simp only [decide_eq_false (Int.not_lt.2 up), Bool.false_eq_true, if_false,
      Int.natAbs_natCast]
    split
    · rename_i small
      obtain ⟨held, value⟩ := held_toFloat small.1
      have holds := holds_powerOfTen places (Nat.lt_succ_of_le small.2)
      obtain ⟨m, e, positive, unpacked, canonical, power⟩ := holds.canonical
      have product := rounded_mul held (.finite canonical)
      rw [exactly_positive, power, ← unpacked] at product
      rw [zpow_natCast, ← value]
      exact product
    · exact rounded_ofScientific digits _

end Doubles

end Calculator.Binary
