import Calculator.Proofs.Number.Difference

/-! Rounding to the nearest double: an exact value is rounded to a double that no other is nearer
to, and of two that are equally near to the one with the even mantissa. -/

namespace Calculator.Binary

open Float.Model (UnpackedFloat)
open Float.Model.UnpackedFloat

section Whole

/-- What the two bits behind a mantissa tell of the fraction that was cut off. -/
inductive Cuts : ExtendedMantissa → ℚ → Prop
  | exact {mantissa : Nat} : Cuts ⟨mantissa, false, false⟩ mantissa
  | belowHalf {mantissa : Nat} {number : ℚ} (above : (mantissa : ℚ) < number)
      (below : number < mantissa + 1 / 2) : Cuts ⟨mantissa, false, true⟩ number
  | half {mantissa : Nat} : Cuts ⟨mantissa, true, false⟩ (mantissa + 1 / 2)
  | aboveHalf {mantissa : Nat} {number : ℚ} (above : (mantissa : ℚ) + 1 / 2 < number)
      (below : number < mantissa + 1) : Cuts ⟨mantissa, true, true⟩ number

variable {extended : ExtendedMantissa} {number : ℚ} {whole : Nat}

/-- Without either bit nothing was cut off, and with one of them something was. -/
theorem Cuts.exact_or_inexact (cuts : Cuts extended number) :
    ((extended.roundBit || extended.stickyBit) = false ∧ number = extended.mantissa) ∨
      ((extended.roundBit || extended.stickyBit) = true ∧ (extended.mantissa : ℚ) < number ∧
        number < extended.mantissa + 1) := by
  -- The two bits tell whether something was cut off.
  cases cuts with
  | exact => exact .inl ⟨rfl, rfl⟩
  | belowHalf above below => exact .inr ⟨rfl, above, by dsimp only; linarith⟩
  | half => exact .inr ⟨rfl, by dsimp only; linarith, by dsimp only; linarith⟩
  | aboveHalf above below => exact .inr ⟨rfl, by dsimp only; linarith, below⟩

/-- The mantissa is the whole part. -/
theorem Cuts.bounds (cuts : Cuts extended number) :
    (extended.mantissa : ℚ) ≤ number ∧ number < extended.mantissa + 1 := by
  -- What is cut off is less than one step.
  rcases cuts.exact_or_inexact with ⟨_, rfl⟩ | ⟨_, above, below⟩
  · exact ⟨le_rfl, lt_add_one _⟩
  · exact ⟨above.le, below⟩

/-- Cutting one more bit off halves the number. -/
theorem Cuts.shiftRightOne (cuts : Cuts extended number) :
    Cuts extended.shiftRightOne (number / 2) := by
  have cases := cuts.exact_or_inexact
  obtain ⟨mantissa, round, sticky⟩ := extended
  -- The bit that is cut off says on which side of the half the number is.
  unfold ExtendedMantissa.shiftRightOne
  dsimp only at cases ⊢
  generalize (round || sticky) = lost at cases ⊢
  obtain ⟨half, rfl | rfl⟩ := mantissa.even_or_odd'
  · rw [show 2 * half / 2 = half by omega, show (2 * half % 2 != 0) = false by simp]
    push_cast at cases
    rcases cases with ⟨rfl, rfl⟩ | ⟨rfl, above, below⟩
    · rw [show 2 * (half : ℚ) / 2 = half by ring]
      exact .exact
    · exact .belowHalf (by linarith) (by linarith)
  · rw [show (2 * half + 1) / 2 = half by omega,
      show ((2 * half + 1) % 2 != 0) = true by simp [Nat.add_mod]]
    push_cast at cases
    rcases cases with ⟨rfl, rfl⟩ | ⟨rfl, above, below⟩
    · rw [show (2 * (half : ℚ) + 1) / 2 = half + 1 / 2 by ring]
      exact .half
    · exact .aboveHalf (by linarith) (by linarith)

/-- Cutting further bits off divides by their power of two. -/
theorem Cuts.shiftRight (cuts : Cuts extended number) (places : Nat) :
    Cuts (extended >>> places) (number / 2 ^ places) := by
  induction places with
  | zero =>
    rw [pow_zero, div_one]
    exact cuts
  | succ places ih =>
    -- The last bit is cut off behind all others.
    rw [pow_succ, ← div_div]
    exact ih.shiftRightOne

/-- A whole number that no other is nearer to, and of two equally near ones the even one. -/
structure NearestWhole (whole : Nat) (number : ℚ) : Prop where
  near : |(whole : ℚ) - number| ≤ 1 / 2
  even : |(whole : ℚ) - number| = 1 / 2 → Even whole

/-- Rounding a mantissa by its two further bits gives the nearest whole number. -/
theorem Cuts.nearestWhole (cuts : Cuts extended number) :
    NearestWhole extended.roundedMantissa number := by
  cases cuts with
  | @exact mantissa =>
    have kept : (ExtendedMantissa.mk mantissa false false).roundedMantissa = mantissa := rfl
    rw [kept]
    exact ⟨by simp, by simp⟩
  | @belowHalf mantissa _ above below =>
    -- Less than a half is dropped.
    have kept : (ExtendedMantissa.mk mantissa false true).roundedMantissa = mantissa := rfl
    rw [kept]
    have distance : |(mantissa : ℚ) - number| < 1 / 2 := by rw [abs_lt]; constructor <;> linarith
    exact ⟨distance.le, fun tie => absurd tie distance.ne⟩
  | @half mantissa =>
    -- A half is dropped or filled up, so that the result is even.
    have moved : (ExtendedMantissa.mk mantissa true false).roundedMantissa =
        mantissa + mantissa % 2 := rfl
    rw [moved]
    obtain ⟨half, rfl | rfl⟩ := mantissa.even_or_odd'
    · rw [show 2 * half + 2 * half % 2 = 2 * half by omega]
      refine ⟨?_, fun _ => even_two_mul half⟩
      rw [abs_le]
      constructor <;> linarith
    · rw [show 2 * half + 1 + (2 * half + 1) % 2 = 2 * (half + 1) by omega]
      refine ⟨?_, fun _ => even_two_mul (half + 1)⟩
      push_cast
      rw [abs_le]
      constructor <;> linarith
  | @aboveHalf mantissa _ above below =>
    -- More than a half is filled up.
    have moved : (ExtendedMantissa.mk mantissa true true).roundedMantissa = mantissa + 1 := rfl
    rw [moved]
    have distance : |((mantissa + 1 : Nat) : ℚ) - number| < 1 / 2 := by
      push_cast
      rw [abs_lt]
      constructor <;> linarith
    exact ⟨distance.le, fun tie => absurd tie distance.ne⟩

/-- No whole number is nearer than the nearest, and as near is only another if that one is even. -/
theorem NearestWhole.le (nearest : NearestWhole whole number) (other : ℤ) :
    |(whole : ℚ) - number| ≤ |(other : ℚ) - number| ∧
      (|(whole : ℚ) - number| = |(other : ℚ) - number| → other = whole ∨ Even whole) := by
  by_cases same : other = whole
  · rw [same]
    exact ⟨le_rfl, fun _ => .inl rfl⟩
  · -- Two whole numbers are at least one apart, so the other is at least a half away.
    have apart : (1 : ℚ) ≤ |(other : ℚ) - whole| := by
      exact_mod_cast Int.one_le_abs (sub_ne_zero.mpr same)
    have far : |(other : ℚ) - whole| ≤ |(other : ℚ) - number| + |(whole : ℚ) - number| := by
      rw [abs_sub_comm (whole : ℚ)]
      exact abs_sub_le _ _ _
    have near := nearest.near
    exact ⟨by linarith, fun tie => .inr (nearest.even (by linarith))⟩

end Whole

section Magnitudes

/-- A magnitude is rounded at an exponent that leaves it at most fifty-three bits, all of them used
unless the exponent is the smallest. -/
structure RoundsAt (magnitude : ℚ) (exponent : Int) (rounded : Nat) : Prop where
  nearest : NearestWhole rounded (magnitude / 2 ^ exponent)
  lowest : -1074 ≤ exponent
  below : magnitude / 2 ^ exponent < 2 ^ 53
  full : 2 ^ 52 ≤ magnitude / 2 ^ exponent ∨ exponent = -1074

variable {magnitude : ℚ} {mantissa rounded : Nat} {exponent : Int} {accuracy : Accuracy}
  {sign : Sign} {u v : UnpackedFloat}

/-- What is rounded does not pass fifty-three bits. -/
theorem RoundsAt.le (rounds : RoundsAt magnitude exponent rounded) : rounded ≤ 2 ^ 53 := by
  -- Rounding goes up by half a step at most.
  have near := (abs_le.mp rounds.nearest.near).2
  have below := rounds.below
  have : (rounded : ℚ) < (2 ^ 53 + 1 : Nat) := by
    push_cast
    linarith
  exact Nat.lt_succ_iff.mp (by exact_mod_cast this)

/-- All bits are used after rounding as well. -/
theorem RoundsAt.full_rounded (rounds : RoundsAt magnitude exponent rounded) :
    2 ^ 52 ≤ rounded ∨ exponent = -1074 := by
  -- Rounding goes down by half a step at most.
  refine rounds.full.imp_left fun full => ?_
  have near := (abs_le.mp rounds.nearest.near).1
  have : ((2 ^ 52 : Nat) : ℚ) < (rounded + 1 : Nat) := by
    push_cast
    linarith
  exact Nat.lt_succ_iff.mp (by exact_mod_cast this)

/-- The mantissa is kept whatever is known of what was cut off. -/
theorem mantissa_ofMantissaAndAccuracy (mantissa : Nat) (accuracy : Accuracy) :
    (ExtendedMantissa.ofMantissaAndAccuracy mantissa accuracy).mantissa = mantissa := by
  -- Only the two bits depend on the accuracy.
  cases accuracy with
  | exact => rfl
  | inexact order => cases order <;> rfl

/-- A magnitude of which enough bits are known is rounded at its target. -/
theorem exists_roundsAt (sign : Sign)
    (cuts : Cuts (.ofMantissaAndAccuracy mantissa accuracy) (magnitude / 2 ^ exponent))
    (fine : exponent ≤ target mantissa exponent) :
    ∃ rounded, RoundsAt magnitude (target mantissa exponent) rounded ∧
      Settles sign rounded (target mantissa exponent)
        (roundWithAccuracy .binary64 sign mantissa exponent accuracy) := by
  -- The bits from the exponent up to the target are cut off.
  obtain ⟨places, reached⟩ := Int.le.dest fine
  have shift : (target mantissa exponent - exponent).toNat = places := by omega
  have cut := cuts.shiftRight places
  have scaled : magnitude / 2 ^ exponent / 2 ^ places =
      magnitude / 2 ^ target mantissa exponent := by
    rw [div_div, ← zpow_natCast, ← zpow_add₀ (by norm_num), reached]
  obtain ⟨above, below⟩ := cuts.bounds
  rw [mantissa_ofMantissaAndAccuracy] at above below
  rw [scaled] at cut
  have lowest : -1074 ≤ target mantissa exponent := by unfold target; omega
  have rounds : RoundsAt magnitude (target mantissa exponent)
      (ExtendedMantissa.ofMantissaAndAccuracy mantissa accuracy >>> places).roundedMantissa := by
    refine ⟨cut.nearestWhole, lowest, ?_, ?_⟩
    · -- The leading bit is at most the fifty-third above the target.
      have bits : mantissa.log2 + 1 ≤ 53 + places := by
        unfold target at reached
        omega
      have wide : (mantissa : ℚ) + 1 ≤ 2 ^ 53 * 2 ^ places := by
        rw [← pow_add]
        exact_mod_cast Nat.lt_log2_self.trans_le (Nat.pow_le_pow_right (by decide) bits)
      rw [← scaled, div_lt_iff₀ (by positivity)]
      linarith
    · -- Above the smallest exponent it is exactly that one.
      by_cases smallest : target mantissa exponent = -1074
      · exact .inr smallest
      · left
        have bits : mantissa.log2 = 52 + places := by
          unfold target at reached smallest
          omega
        have some : mantissa ≠ 0 := by
          rintro rfl
          rw [Nat.log2_zero] at bits
          omega
        have wide : (2 : ℚ) ^ 52 * 2 ^ places ≤ mantissa := by
          rw [← pow_add, ← bits]
          exact_mod_cast Nat.log2_self_le some
        rw [← scaled, le_div_iff₀ (by positivity)]
        linarith
  refine ⟨_, rounds, ?_⟩
  have settled := settles_settle sign _ _ lowest rounds.le
  rw [← reached] at settled ⊢
  rw [← shift] at settled ⊢
  exact settled

/-- The mantissa of a number; a zero has none. -/
def mantissaOf : UnpackedFloat → Nat
  | .finite _ mantissa _ _ => mantissa
  | .zero _ | .infinity _ | .notANumber => 0

/-- A magnitude with a sign before it. -/
def signedBy (sign : Sign) (magnitude : ℚ) : ℚ :=
  match sign with
  | .positive => magnitude
  | .negative => -magnitude

/-- The value of a finite number is its magnitude with its sign. -/
theorem exactly_finite (sign : Sign) (positive : 0 < mantissa) :
    exactly (.finite sign mantissa exponent positive) = signedBy sign (size mantissa exponent) := by
  -- The sign is applied to the size.
  cases sign with
  | positive => exact exactly_positive
  | negative => exact exactly_negative

/-- A rounded number that is stored as a finite one is stored as it is. -/
theorem Settles.stored_of_isFinite (settles : Settles sign rounded exponent u)
    (rounds : RoundsAt magnitude exponent rounded) (finite : (stored u).isFinite = true) :
    Held (stored u) ∧ exactly (stored u) = signedBy sign (size rounded exponent) ∧
      (Even rounded → Even (mantissaOf (stored u))) := by
  -- Only what is too large is stored as something else, and that is not finite.
  have lowest := rounds.lowest
  have full := rounds.full_rounded
  cases settles with
  | zero empty =>
    rw [stored_zero]
    subst empty
    refine ⟨.zero sign, ?_, fun _ => ⟨0, rfl⟩⟩
    cases sign <;> simp [size, signedBy]
  | finite positive fits =>
    by_cases highest : exponent ≤ 971
    · have canonical : Canonical (.finite sign rounded exponent positive) :=
        ⟨fits, lowest, highest, full⟩
      rw [stored_finite _ _ _ _ canonical]
      exact ⟨.finite canonical, exactly_finite sign positive, id⟩
    · rw [stored_overflow _ _ _ _ (by omega)] at finite
      cases finite
  | carried filled positive =>
    subst filled
    by_cases highest : exponent + 1 ≤ 971
    · have canonical : Canonical (.finite sign (2 ^ 52) (exponent + 1) positive) :=
        ⟨by decide, by omega, highest, .inl le_rfl⟩
      rw [stored_finite _ _ _ _ canonical]
      refine ⟨.finite canonical, ?_, fun _ => ⟨2 ^ 51, rfl⟩⟩
      -- The carry doubles the exponent's power of two and halves the mantissa.
      have carry := size_scaled (2 ^ 52) 1 (exponent + 1)
      rw [show exponent + 1 - (1 : Nat) = exponent by omega, show 2 ^ 52 * 2 ^ 1 = 2 ^ 53 by decide]
        at carry
      rw [carry]
      exact exactly_finite sign positive
    · rw [stored_overflow _ _ _ _ (by omega)] at finite
      cases finite

/-- No finite number is nearer to a value than this one, and another that is as near has the same
value, or this one has the even mantissa. -/
def Nearest (number : ℚ) (u : UnpackedFloat) : Prop :=
  ∀ v, Held v → |exactly u - number| ≤ |exactly v - number| ∧
    (|exactly u - number| = |exactly v - number| → exactly v = exactly u ∨ Even (mantissaOf u))

/-- The number that has a value is the nearest to it. -/
theorem nearest_of_exactly {number : ℚ} (same : exactly u = number) : Nearest number u := by
  -- No value is nearer than the number itself.
  intro v _
  rw [same, sub_self, abs_zero]
  refine ⟨abs_nonneg _, fun tie => .inl ?_⟩
  exact sub_eq_zero.mp (abs_eq_zero.mp tie.symm)

/-- A finite number is a whole number of steps of its exponent. -/
theorem Held.exists_exactly (held : Held v) :
    ∃ (steps : ℤ) (exponent : Int), exactly v = steps * 2 ^ exponent ∧ |steps| < 2 ^ 53 ∧
      -1074 ≤ exponent ∧ exponent ≤ 971 := by
  -- A held value is a whole number of steps of its exponent.
  cases held with
  | zero sign => exact ⟨0, 0, by simp, by simp, by simp, by simp⟩
  | @finite sign m e positive canonical =>
    obtain ⟨width, lowest, highest, _⟩ := canonical
    refine ⟨sign.apply m, e, rfl, ?_, lowest, highest⟩
    have : |sign.apply (m : ℤ)| = m := by cases sign <;> simp [Sign.apply]
    rw [this]
    exact_mod_cast width

/-- A whole number of steps that fits into a mantissa is the value of a finite number. -/
theorem exists_held {steps : ℤ} {exponent : Int} (width : |steps| < 2 ^ 53)
    (lowest : -1074 ≤ exponent) (highest : exponent ≤ 971) :
    ∃ v, Held v ∧ exactly v = steps * 2 ^ exponent := by
  -- A sign and a magnitude are enough.
  suffices magnitudes : ∀ (sign : Sign) (m : Nat), m < 2 ^ 53 →
      ∃ v, Held v ∧ exactly v = signedBy sign (size m exponent) by
    rcases Int.le_total 0 steps with up | down
    · obtain ⟨m, rfl⟩ := Int.eq_ofNat_of_zero_le up
      exact magnitudes .positive m (by simpa using width)
    · obtain ⟨m, rfl⟩ := Int.exists_eq_neg_ofNat down
      obtain ⟨v, held, value⟩ := magnitudes .negative m (by simpa using width)
      exact ⟨v, held, by simp [value, signedBy, size]⟩
  intro sign m fits
  rcases Nat.eq_zero_or_pos m with rfl | positive
  · exact ⟨.zero sign, .zero sign, by cases sign <;> simp [signedBy, size]⟩
  · -- The mantissa is shifted up until all bits are used or the exponent is the smallest.
    have bits := (Nat.log2_lt positive.ne').mpr fits
    obtain ⟨shift, within, reach, ends⟩ : ∃ shift : Nat, m.log2 + shift ≤ 52 ∧
        shift ≤ exponent + 1074 ∧ (m.log2 + shift = 52 ∨ (shift : Int) = exponent + 1074) :=
      ⟨min (52 - m.log2) (exponent + 1074).toNat, by omega, by omega, by omega⟩
    have below : 2 ^ (m.log2 + shift) ≤ m * 2 ^ shift := by
      rw [pow_add]
      exact Nat.mul_le_mul_right _ (Nat.log2_self_le positive.ne')
    have above : m * 2 ^ shift < 2 ^ (m.log2 + 1 + shift) := by
      rw [pow_add]
      exact Nat.mul_lt_mul_of_pos_right Nat.lt_log2_self (by positivity)
    have filled : 0 < m * 2 ^ shift := by positivity
    have canonical : Canonical (.finite sign (m * 2 ^ shift) (exponent - shift) filled) := by
      refine ⟨above.trans_le (Nat.pow_le_pow_right (by decide) (by omega)), by omega, by omega, ?_⟩
      refine ends.imp (fun full => ?_) (fun smallest => by omega)
      rwa [full] at below
    refine ⟨_, .finite canonical, ?_⟩
    rw [exactly_finite, size_scaled]

/-- No number is nearer to a magnitude than what it is rounded to. -/
theorem RoundsAt.le_held (rounds : RoundsAt magnitude exponent rounded) (held : Held v) :
    |size rounded exponent - magnitude| ≤ |exactly v - magnitude| ∧
      (|size rounded exponent - magnitude| = |exactly v - magnitude| →
        exactly v = size rounded exponent ∨ Even rounded) := by
  obtain ⟨steps, finer, value, width, lowest, _⟩ := held.exists_exactly
  have unit : (0 : ℚ) < 2 ^ exponent := by positivity
  -- Distances are counted in steps of the exponent.
  have inSteps (whole : ℚ) : |whole * 2 ^ exponent - magnitude| =
      |whole - magnitude / 2 ^ exponent| * 2 ^ exponent := by
    rw [← abs_of_pos unit, ← abs_mul, abs_of_pos unit]
    congr 1
    field_simp
  obtain near | far := le_or_gt exponent finer
  · -- A number at no finer exponent is a whole number of these steps.
    obtain ⟨places, reached⟩ := Int.le.dest near
    have whole : exactly v = ((steps * 2 ^ places : ℤ) : ℚ) * 2 ^ exponent := by
      rw [value, ← reached, zpow_add₀ (by norm_num), zpow_natCast]
      push_cast
      ring
    obtain ⟨le, even⟩ := rounds.nearest.le (steps * 2 ^ places)
    rw [whole, size, inSteps, inSteps]
    refine ⟨by gcongr, fun tie => ?_⟩
    obtain same | even := even (mul_right_cancel₀ unit.ne' tie)
    · rw [same]
      exact .inl (by push_cast; rfl)
    · exact .inr even
  · -- A number at a finer exponent is below the power of two that the magnitude has passed.
    have full : (2 : ℚ) ^ 52 * 2 ^ exponent ≤ magnitude := by
      rw [← le_div_iff₀ unit]
      exact rounds.full.resolve_right (by omega)
    have under : exactly v < 2 ^ 52 * 2 ^ exponent := by
      have few : (steps : ℚ) < 2 ^ 53 := by exact_mod_cast (abs_lt.mp width).2
      calc exactly v = steps * 2 ^ finer := value
        _ < 2 ^ 53 * 2 ^ finer := by gcongr
        _ = 2 ^ 52 * 2 ^ (finer + 1) := by rw [zpow_add_one₀ (by norm_num)]; ring
        _ ≤ 2 ^ 52 * 2 ^ exponent := by gcongr <;> norm_num; omega
    have strict : |size rounded exponent - magnitude| < |exactly v - magnitude| := by
      calc |size rounded exponent - magnitude|
          ≤ |2 ^ 52 * 2 ^ exponent - magnitude| := by
            have le := (rounds.nearest.le (2 ^ 52)).1
            rw [size, inSteps, inSteps]
            exact mul_le_mul_of_nonneg_right (by exact_mod_cast le) unit.le
        _ = magnitude - 2 ^ 52 * 2 ^ exponent := by rw [abs_of_nonpos (by linarith)]; ring
        _ < magnitude - exactly v := by linarith
        _ ≤ |exactly v - magnitude| := by rw [abs_sub_comm]; exact le_abs_self _
    exact ⟨strict.le, fun tie => absurd tie strict.ne⟩

/-- From this magnitude on numbers are rounded to infinity: half a step above the largest double. -/
def overflow : ℚ := (2 ^ 53 - 1 / 2) * 2 ^ (971 : Int)

/-- What a number is rounded to: it is finite unless the number is too large, and then it is the
nearest to it. -/
structure Rounded (number : ℚ) (u : UnpackedFloat) : Prop where
  isFinite : |number| < overflow → u.isFinite = true
  nearest : u.isFinite = true → Nearest number u

/-- A value that a number has is rounded to that number. -/
theorem rounded_of_exactly {number : ℚ} (held : Held u) (same : exactly u = number) :
    Rounded number u where
  isFinite := fun _ => held.isFinite
  nearest := fun _ => nearest_of_exactly same

/-- A finite number is at least half a step of the highest exponent below the limit. -/
theorem Held.abs_add_half_le (held : Held v) : |exactly v| + 2 ^ (971 : Int) / 2 ≤ overflow := by
  -- The mantissa has 53 bits, so that half a step is left up to the limit.
  obtain ⟨steps, exponent, value, width, _, highest⟩ := held.exists_exactly
  have unit : (0 : ℚ) < 2 ^ exponent := by positivity
  have few : |(steps : ℚ)| ≤ 2 ^ 53 - 1 := by
    have : |steps| ≤ 2 ^ 53 - 1 := by omega
    exact_mod_cast this
  have power : (2 : ℚ) ^ exponent ≤ 2 ^ (971 : Int) := zpow_le_zpow_right₀ (by norm_num) highest
  unfold overflow
  generalize (2 : ℚ) ^ (971 : Int) = highestStep at power ⊢
  rw [value, abs_mul, abs_of_pos unit]
  have most : |(steps : ℚ)| * 2 ^ exponent ≤ (2 ^ 53 - 1) * highestStep := by gcongr
  linarith

/-- No finite number reaches the limit. -/
theorem Held.abs_lt_overflow (held : Held v) : |exactly v| < overflow := by
  -- Half a step is positive.
  have top : (0 : ℚ) < 2 ^ (971 : Int) := by positivity
  have below := held.abs_add_half_le
  generalize (2 : ℚ) ^ (971 : Int) = highestStep at top below
  linarith

/-- The value of a finite number is not changed by rounding. -/
theorem Rounded.exact {number : ℚ} (rounded : Rounded number u) (held : Held v)
    (same : exactly v = number) : u.isFinite = true ∧ exactly u = number := by
  have finite := rounded.isFinite (same ▸ held.abs_lt_overflow)
  refine ⟨finite, ?_⟩
  -- That number is at no distance, and none is nearer.
  have near := (rounded.nearest finite v held).1
  rw [same, sub_self, abs_zero] at near
  exact sub_eq_zero.mp (abs_nonpos_iff.mp near)

/-- Nothing is rounded to a zero. -/
theorem rounded_zero (sign : Sign) : Rounded 0 (stored (.zero sign)) := by
  -- Zero is held, and nothing is rounded.
  rw [stored_zero]
  exact rounded_of_exactly (.zero sign) rfl

/-- A magnitude below the limit is rounded at an exponent that a double has, and so is its carry. -/
theorem RoundsAt.exponent_le (rounds : RoundsAt magnitude exponent rounded)
    (small : magnitude < overflow) :
    exponent ≤ 971 ∧ (rounded = 2 ^ 53 → exponent + 1 ≤ 971) := by
  have unit : (0 : ℚ) < 2 ^ exponent := by positivity
  have near := (abs_le.mp rounds.nearest.near).2
  have lowest := rounds.lowest
  unfold overflow at small
  -- The power of two of the highest exponent is not to be written out.
  generalize top : (971 : Int) = highest at small ⊢
  have within : exponent ≤ highest := by
    -- At a higher exponent all bits would be used, and the leading one is above the limit.
    by_contra above
    have full := (le_div_iff₀ unit).mp (rounds.full.resolve_right (by omega))
    have power : (2 : ℚ) ^ highest * 2 ≤ 2 ^ exponent := by
      rw [← zpow_add_one₀ (by norm_num)]
      exact zpow_le_zpow_right₀ (by norm_num) (by omega)
    have positive : (0 : ℚ) < 2 ^ highest := by positivity
    linarith
  refine ⟨within, fun carried => ?_⟩
  -- At the highest exponent the magnitude is too small to be rounded up to the carry.
  by_contra above
  obtain rfl : exponent = highest := by omega
  have less : magnitude / 2 ^ exponent < 2 ^ 53 - 1 / 2 := (div_lt_iff₀ unit).mpr small
  rw [carried] at near
  push_cast at near
  linarith

/-- A settled number is what the magnitude is rounded to, with its sign. -/
theorem Settles.rounded_stored (settles : Settles sign rounded exponent u)
    (rounds : RoundsAt magnitude exponent rounded) (unsigned : 0 ≤ magnitude) :
    Rounded (signedBy sign magnitude) (stored u) where
  isFinite := by
    intro small
    have magnitude_lt : magnitude < overflow := by
      cases sign with
      | positive => exact lt_of_le_of_lt (le_abs_self _) small
      | negative => rwa [signedBy, abs_neg, abs_of_nonneg unsigned] at small
    obtain ⟨highest, carry⟩ := rounds.exponent_le magnitude_lt
    have lowest := rounds.lowest
    -- The number is canonical, and such numbers are stored as they are.
    cases settles with
    | zero => rw [stored_zero]; rfl
    | finite positive fits =>
      rw [stored_finite _ _ _ _ ⟨fits, lowest, highest, rounds.full_rounded⟩]
      rfl
    | carried filled positive =>
      rw [stored_finite _ _ _ _ ⟨by decide, by omega, carry filled, .inl le_rfl⟩]
      rfl
  nearest := by
    intro finite v held
    obtain ⟨_, value, even⟩ := settles.stored_of_isFinite rounds finite
    rw [value]
    cases sign with
    | positive =>
      obtain ⟨le, tie⟩ := rounds.le_held held
      exact ⟨le, fun same => (tie same).imp_right even⟩
    | negative =>
      -- What is said of the opposites is said of the numbers.
      obtain ⟨le, tie⟩ := rounds.le_held held.neg
      have turned (number : ℚ) : |-number - -magnitude| = |number - magnitude| := by
        rw [neg_sub_neg, abs_sub_comm]
      have opposite : |exactly v - -magnitude| = |exactly v.neg - magnitude| := by
        rw [exactly_neg, ← turned, neg_neg]
      simp only [signedBy]
      rw [turned, opposite]
      refine ⟨le, fun same => (tie same).imp (fun value => ?_) even⟩
      rw [← value, exactly_neg, neg_neg]

end Magnitudes

end Calculator.Binary
