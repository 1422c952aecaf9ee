import Calculator.Number.Rank

/-! Rounding to a double keeps the order: it never carries a number past a double. -/

namespace Calculator.Binary

-- Powers are the core library's own, also where another library has instances for them.
attribute [local instance (2000)] instPowNat

open Float.Model (UnpackedFloat)
open Float.Model.UnpackedFloat

/-- The exponent at which a number is rounded: fifty-three bits remain, or the smallest exponent
is reached. -/
def target (mantissa : Nat) (exponent : Int) : Int :=
  max ((mantissa.log2 : Int) + 1 + exponent - 53) (-1074)

private theorem log2_le (value bits : Nat) (fits : value < 2 ^ (bits + 1)) :
    value.log2 ≤ bits := by
  -- Zero has no leading bit, and all other numbers have one.
  by_cases zero : value = 0
  · subst zero
    simp
  · have := (Nat.log2_lt zero).2 fits
    omega

/-- Scaling by a power of two moves the leading bit as far. -/
theorem log2_scaled (mantissa shift : Nat) (positive : 0 < mantissa) :
    (mantissa * 2 ^ shift).log2 = mantissa.log2 + shift := by
  -- Both bounds of the logarithm are scaled alike.
  have power := Nat.two_pow_pos shift
  refine (Nat.log2_eq_iff (Nat.ne_of_gt (Nat.mul_pos positive power))).2 ⟨?_, ?_⟩
  · rw [Nat.pow_add]
    exact Nat.mul_le_mul_right _ (Nat.log2_self_le (by omega))
  · rw [show mantissa.log2 + shift + 1 = (mantissa.log2 + 1) + shift by omega, Nat.pow_add]
    exact Nat.mul_lt_mul_of_pos_right Nat.lt_log2_self power

/-- Writing a number with a smaller exponent does not move its target. -/
theorem target_scaled (mantissa shift : Nat) (exponent : Int) (positive : 0 < mantissa) :
    target (mantissa * 2 ^ shift) (exponent - shift) = target mantissa exponent := by
  -- Each bit that the mantissa gains is one that the exponent loses.
  unfold target
  rw [log2_scaled mantissa shift positive]
  omega

/-- A canonical number, however finely it is written, has its own exponent as target. -/
theorem target_canonical {sign : Sign} {mantissa : Nat} {exponent : Int} {positive : 0 < mantissa}
    (canonical : Canonical (.finite sign mantissa exponent positive)) (finer : Int)
    (below : finer ≤ exponent) :
    target (mantissa * 2 ^ (exponent - finer).toNat) finer = exponent := by
  -- All fifty-three bits are used, or the exponent is the smallest.
  obtain ⟨width, lowest, _, full⟩ := canonical
  have scaled := target_scaled mantissa (exponent - finer).toNat exponent positive
  rw [show exponent - ((exponent - finer).toNat : Int) = finer by omega] at scaled
  rw [scaled]
  unfold target
  have atMost := log2_le mantissa 52 width
  rcases full with normal | smallest
  · have : mantissa.log2 = 52 := (Nat.log2_eq_iff (by omega)).2 ⟨normal, width⟩
    omega
  · omega

/-- A larger number has no smaller target. -/
theorem target_mono (small large : Nat) (exponent : Int) (ordered : small ≤ large)
    (positive : 0 < small) : target small exponent ≤ target large exponent := by
  -- The leading bit of a larger mantissa is no lower.
  have : small.log2 ≤ large.log2 :=
    (Nat.le_log2 (by omega)).2 (Nat.le_trans (Nat.log2_self_le (by omega)) ordered)
  unfold target
  omega

/-- Shifting right divides, and notes whether anything was lost. -/
theorem mantissa_shiftRight (mantissa places : Nat) :
    (ExtendedMantissa.mk mantissa false false >>> places).mantissa = mantissa / 2 ^ places ∧
      (mantissa % 2 ^ places = 0 →
        (ExtendedMantissa.mk mantissa false false >>> places).roundBit = false ∧
        (ExtendedMantissa.mk mantissa false false >>> places).stickyBit = false) := by
  -- One place at a time: a multiple of a power of two only ever loses zero bits.
  induction places with
  | zero => exact ⟨(Nat.div_one _).symm, fun _ => ⟨rfl, rfl⟩⟩
  | succ places ih =>
    obtain ⟨divided, nothingLost⟩ := ih
    rw [show ExtendedMantissa.mk mantissa false false >>> (places + 1) =
      (ExtendedMantissa.mk mantissa false false >>> places).shiftRightOne from rfl]
    simp only [ExtendedMantissa.shiftRightOne]
    refine ⟨?_, ?_⟩
    · rw [divided, Nat.div_div_eq_div_mul, Nat.pow_succ]
    · intro multiple
      have divides : 2 ^ places ∣ mantissa :=
        Nat.dvd_trans ⟨2, by rw [Nat.pow_succ]⟩ (Nat.dvd_of_mod_eq_zero multiple)
      obtain ⟨noRound, noSticky⟩ := nothingLost (Nat.mod_eq_zero_of_dvd divides)
      refine ⟨?_, by simp [noRound, noSticky]⟩
      rw [divided]
      obtain ⟨quotient, product⟩ := Nat.dvd_of_mod_eq_zero multiple
      rw [product, Nat.pow_succ, Nat.mul_assoc, Nat.mul_div_cancel_left _ (Nat.two_pow_pos places)]
      simp

/-- Rounding a mantissa adds at most one, and nothing if nothing was lost. -/
theorem roundedMantissa_bounds (extended : ExtendedMantissa) :
    extended.mantissa ≤ extended.roundedMantissa ∧
      extended.roundedMantissa ≤ extended.mantissa + 1 ∧
      (extended.roundBit = false → extended.stickyBit = false →
        extended.roundedMantissa = extended.mantissa) := by
  -- There are four combinations of the two bits.
  rcases extended with ⟨mantissa, round, sticky⟩
  cases round <;> cases sticky <;>
    simp [ExtendedMantissa.roundedMantissa, ExtendedMantissa.accuracy,
      Accuracy.roundToNearestEven]
  omega

/-- A mantissa that a number may round to at its target exponent. -/
structure Rounds (mantissa : Nat) (exponent : Int) (rounded : Nat) : Prop where
  le : rounded ≤ 2 ^ (53 : Nat)
  below : mantissa / 2 ^ (target mantissa exponent - exponent).toNat ≤ rounded
  above : rounded ≤ mantissa / 2 ^ (target mantissa exponent - exponent).toNat + 1
  exact : mantissa % 2 ^ (target mantissa exponent - exponent).toNat = 0 →
    rounded = mantissa / 2 ^ (target mantissa exponent - exponent).toNat

/-- A number written with a rounded mantissa: nothing, a number that fits, or a carry. -/
inductive Settles (sign : Sign) (rounded : Nat) (exponent : Int) : UnpackedFloat → Prop
  | zero (empty : rounded = 0) : Settles sign rounded exponent (.zero sign)
  | finite (positive : 0 < rounded) (fits : rounded < 2 ^ (53 : Nat)) :
      Settles sign rounded exponent (.finite sign rounded exponent positive)
  | carried (full : rounded = 2 ^ (53 : Nat)) (positive : 0 < 2 ^ (52 : Nat)) :
      Settles sign rounded exponent (.finite sign (2 ^ (52 : Nat)) (exponent + 1) positive)

private theorem shiftTo_eq (mantissa : Nat) (exponent : Int) :
    shiftToTargetExponent .binary64 mantissa exponent .exact =
      (ExtendedMantissa.mk mantissa false false >>> (target mantissa exponent - exponent).toNat,
        exponent + (target mantissa exponent - exponent).toNat) := rfl

private theorem quotient_lt (mantissa : Nat) (exponent : Int)
    (fine : exponent ≤ target mantissa exponent) :
    mantissa / 2 ^ (target mantissa exponent - exponent).toNat < 2 ^ (53 : Nat) := by
  -- The target leaves at most fifty-three bits.
  rw [Nat.div_lt_iff_lt_mul (Nat.two_pow_pos _), ← Nat.pow_add]
  refine Nat.lt_of_lt_of_le Nat.lt_log2_self (Nat.pow_le_pow_right (by decide) ?_)
  unfold target at *
  omega

/-- A number with a rounded mantissa, shifted once more in case the rounding carried. -/
def settle (sign : Sign) (rounded : Nat) (exponent : Int) : UnpackedFloat :=
  let shifted := shiftToTargetExponent .binary64 rounded exponent .exact
  if empty : shifted.1.mantissa = 0 then .zero sign
  else .finite sign shifted.1.mantissa shifted.2 (Nat.pos_of_ne_zero empty)

/-- A mantissa that is still there after the second shift is the one that is settled. -/
theorem settle_eq {sign : Sign} {rounded mantissa : Nat} {exponent place : Int}
    (positive : 0 < mantissa)
    (shifted : (shiftToTargetExponent .binary64 rounded exponent .exact).1.mantissa = mantissa)
    (placed : (shiftToTargetExponent .binary64 rounded exponent .exact).2 = place) :
    settle sign rounded exponent = .finite sign mantissa place positive := by
  -- A rounded mantissa that is not zero is kept as it is.
  subst shifted placed
  exact dif_neg (Nat.ne_of_gt positive)

/-- Settling keeps a mantissa that fits and moves a carry by one place. -/
theorem settles_settle (sign : Sign) (rounded : Nat) (exponent : Int)
    (lowest : -1074 ≤ exponent) (le : rounded ≤ 2 ^ (53 : Nat)) :
    Settles sign rounded exponent (settle sign rounded exponent) := by
  -- Fewer than fifty-four bits stay where they are; a carry moves one place.
  by_cases fits : rounded < 2 ^ (53 : Nat)
  · have stays : (target rounded exponent - exponent).toNat = 0 := by
      have := log2_le rounded 52 fits
      unfold target
      omega
    have shifted : (shiftToTargetExponent .binary64 rounded exponent .exact).1.mantissa =
        rounded := by
      rw [shiftTo_eq, stays]
      rfl
    by_cases empty : rounded = 0
    · rw [show settle sign rounded exponent = .zero sign from dif_pos (shifted.trans empty)]
      exact .zero empty
    · have placed : (shiftToTargetExponent .binary64 rounded exponent .exact).2 = exponent := by
        rw [shiftTo_eq, stays]
        exact Int.add_zero exponent
      rw [settle_eq (Nat.pos_of_ne_zero empty) shifted placed]
      exact .finite (Nat.pos_of_ne_zero empty) fits
  · have full : rounded = 2 ^ (53 : Nat) := by omega
    subst full
    have moves : (target (2 ^ (53 : Nat)) exponent - exponent).toNat = 1 := by
      unfold target
      rw [Nat.log2_two_pow]
      omega
    have shifted : (shiftToTargetExponent .binary64 (2 ^ (53 : Nat)) exponent .exact).1.mantissa =
        2 ^ (52 : Nat) := by
      rw [shiftTo_eq, moves]
      rfl
    have placed : (shiftToTargetExponent .binary64 (2 ^ (53 : Nat)) exponent .exact).2 =
        exponent + 1 := by
      rw [shiftTo_eq, moves]
      rfl
    rw [settle_eq (by decide) shifted placed]
    exact .carried rfl _

/-- A number written finely enough rounds at its target exponent. -/
theorem roundWithAccuracy_settles (sign : Sign) (mantissa : Nat) (exponent : Int)
    (fine : exponent ≤ target mantissa exponent) :
    ∃ rounded, Rounds mantissa exponent rounded ∧
      Settles sign rounded (target mantissa exponent)
        (roundWithAccuracy .binary64 sign mantissa exponent .exact) := by
  -- The first shift and rounding give the mantissa, and the second shift settles it.
  have lowest : -1074 ≤ target mantissa exponent := by unfold target; omega
  have reached : exponent + (target mantissa exponent - exponent).toNat =
      target mantissa exponent := by omega
  have below := quotient_lt mantissa exponent fine
  obtain ⟨divided, nothingLost⟩ :=
    mantissa_shiftRight mantissa (target mantissa exponent - exponent).toNat
  obtain ⟨atLeast, atMost, kept⟩ := roundedMantissa_bounds
    (ExtendedMantissa.mk mantissa false false >>> (target mantissa exponent - exponent).toNat)
  refine ⟨(ExtendedMantissa.mk mantissa false false >>>
    (target mantissa exponent - exponent).toNat).roundedMantissa,
    ⟨by omega, by omega, by omega, ?_⟩, ?_⟩
  · intro multiple
    obtain ⟨noRound, noSticky⟩ := nothingLost multiple
    rw [kept noRound noSticky, divided]
  · have settled := settles_settle sign (ExtendedMantissa.mk mantissa false false >>>
      (target mantissa exponent - exponent).toNat).roundedMantissa
      (target mantissa exponent) lowest (by omega)
    have same : roundWithAccuracy .binary64 sign mantissa exponent .exact =
        settle sign (ExtendedMantissa.mk mantissa false false >>>
          (target mantissa exponent - exponent).toNat).roundedMantissa
          (exponent + (target mantissa exponent - exponent).toNat) := rfl
    rw [same, reached]
    exact settled

/-- A positive number rounds to a full mantissa unless its target is the smallest exponent. -/
theorem Rounds.full {mantissa : Nat} {exponent : Int} {rounded : Nat}
    (rounds : Rounds mantissa exponent rounded) (positive : 0 < mantissa)
    (fine : exponent ≤ target mantissa exponent) :
    2 ^ (52 : Nat) ≤ rounded ∨ target mantissa exponent = -1074 := by
  -- Above the smallest exponent exactly fifty-three bits remain.
  by_cases smallest : target mantissa exponent = -1074
  · exact .inr smallest
  · left
    refine Nat.le_trans ?_ rounds.below
    rw [Nat.le_div_iff_mul_le (Nat.two_pow_pos _), ← Nat.pow_add]
    refine Nat.le_trans (Nat.pow_le_pow_right (by decide) ?_)
      (Nat.log2_self_le (by omega : mantissa ≠ 0))
    unfold target at *
    omega

/-- The magnitude of a settled number once it is stored, with its place where it fits. -/
structure Magnitude (sign : Sign) (rounded : Nat) (exponent : Int) (number : UnpackedFloat)
    (size : Nat) : Prop where
  rank_eq : rank (stored number) = sign.apply size
  number : stored number ≠ .notANumber
  atLeast : min (key rounded exponent) (2 ^ (64 : Nat)) ≤ size
  fits : exponent ≤ 971 → rounded < 2 ^ (53 : Nat) → size = key rounded exponent
  carried : exponent < 971 → rounded = 2 ^ (53 : Nat) → size = key (2 ^ (52 : Nat)) (exponent + 1)

/-- Every settled number has a magnitude. -/
theorem Settles.magnitude {sign : Sign} {rounded : Nat} {exponent : Int} {number : UnpackedFloat}
    (settles : Settles sign rounded exponent number) (lowest : -1074 ≤ exponent)
    (full : 2 ^ (52 : Nat) ≤ rounded ∨ exponent = -1074) :
    ∃ size, Magnitude sign rounded exponent number size := by
  -- Storing keeps what is canonical and turns what is too large into an infinity.
  cases settles with
  | zero empty =>
    -- Only at the smallest exponent can everything be rounded away.
    subst empty
    have smallest : exponent = -1074 := by omega
    subst smallest
    refine ⟨0, ?_, ?_, by decide, fun _ _ => by decide, fun _ full => by omega⟩
    · rw [stored_zero]
      cases sign <;> rfl
    · rw [stored_zero]
      exact fun wrong => nomatch wrong
  | finite positive width =>
    -- The exponent alone decides whether the number still fits.
    by_cases highest : exponent ≤ 971
    · have kept := stored_finite sign _ _ positive ⟨width, lowest, highest, full⟩
      refine ⟨key rounded exponent, ?_, ?_, by omega, fun _ _ => rfl, fun _ _ => by omega⟩
      · rw [kept]
        cases sign <;> rfl
      · rw [kept]
        exact fun wrong => nomatch wrong
    · have infinite := stored_overflow sign _ _ positive (by omega : 972 ≤ exponent)
      refine ⟨2 ^ (64 : Nat), ?_, ?_, by omega, fun _ _ => by omega, fun _ _ => by omega⟩
      · rw [infinite]
        cases sign <;> rfl
      · rw [infinite]
        exact fun wrong => nomatch wrong
  | carried same positive =>
    -- A carry leaves a power of two, one exponent higher.
    subst same
    by_cases highest : exponent + 1 ≤ 971
    · have kept := stored_finite sign _ _ positive
        ⟨by decide, by omega, highest, .inl (Nat.le_refl _)⟩
      refine ⟨key (2 ^ (52 : Nat)) (exponent + 1), ?_, ?_, by unfold key; omega,
        fun _ _ => by omega, fun _ _ => rfl⟩
      · rw [kept]
        cases sign <;> rfl
      · rw [kept]
        exact fun wrong => nomatch wrong
    · have infinite := stored_overflow sign _ _ positive (by omega : 972 ≤ exponent + 1)
      refine ⟨2 ^ (64 : Nat), ?_, ?_, by omega, fun _ _ => by omega, fun _ _ => by omega⟩
      · rw [infinite]
        cases sign <;> rfl
      · rw [infinite]
        exact fun wrong => nomatch wrong

/-- Rounding first scales the mantissa to the exponent that it aims at. -/
theorem round_eq (sign : Sign) (mantissa : Nat) (exponent : Int) :
    UnpackedFloat.round .binary64 sign mantissa exponent =
      roundWithAccuracy .binary64 sign
        (mantissa * 2 ^ (exponent - target mantissa exponent).toNat)
        (exponent - (exponent - target mantissa exponent).toNat) .exact := by
  -- The mantissa is shifted to the left before it is rounded.
  rw [← Nat.shiftLeft_eq]
  rfl

/-- Rounding never passes a double: a double on one side of a number is on that side, or equal,
after the number is rounded. -/
theorem round_magnitude (sign : Sign) (M : Nat) (E : Int) (positive : 0 < M) :
    ∃ size : Nat, rank (stored (UnpackedFloat.round .binary64 sign M E)) = sign.apply size ∧
      stored (UnpackedFloat.round .binary64 sign M E) ≠ .notANumber ∧
      ∀ (s : Sign) (m : Nat) (e : Int) (some : 0 < m), Canonical (.finite s m e some) → E ≤ e →
        (m * 2 ^ (e - E).toNat ≤ M → key m e ≤ size) ∧
        (M ≤ m * 2 ^ (e - E).toNat → size ≤ key m e) := by
  -- Either the exponents differ, and they decide, or both mantissas stand on one grid.
  have same := target_scaled M (E - target M E).toNat E positive
  have scaledPositive : 0 < M * 2 ^ (E - target M E).toNat :=
    Nat.mul_pos positive (Nat.two_pow_pos _)
  have lowest : -1074 ≤ target M E := by unfold target; omega
  obtain ⟨rounded, rounds, settles⟩ := roundWithAccuracy_settles sign
    (M * 2 ^ (E - target M E).toNat) (E - (E - target M E).toNat) (by omega)
  have full := rounds.full scaledPositive (by omega)
  -- Scaling does not move the target, so everything is said at the number's own target.
  rw [← round_eq] at settles
  rw [same] at settles full
  obtain ⟨size, magnitude⟩ := settles.magnitude lowest full
  refine ⟨size, magnitude.rank_eq, magnitude.number, ?_⟩
  rintro s m e some canonical finer
  have atTarget := target_canonical canonical E finer
  have exactPositive : 0 < m * 2 ^ (e - E).toNat := Nat.mul_pos some (Nat.two_pow_pos _)
  have finite := (key_bounds canonical).2
  obtain ⟨width, least, highest, _⟩ := canonical
  obtain ⟨le, below, above, exact⟩ := rounds
  rw [same] at below above exact
  constructor
  -- A double that is not above the number has no higher exponent than the rounded number.
  · intro under
    have noLater : e ≤ target M E := by
      rw [← atTarget]
      exact target_mono _ _ _ under exactPositive
    have unscaled : (E - target M E).toNat = 0 := by omega
    refine Nat.le_trans (Nat.le_min.2 ⟨?_, Nat.le_of_lt finite⟩) magnitude.atLeast
    by_cases sameExponent : e = target M E
    -- On one grid, rounding starts from the quotient, which the double does not pass.
    · rw [← sameExponent]
      have quotient : m ≤ M / 2 ^ (e - E).toNat :=
        (Nat.le_div_iff_mul_le (Nat.two_pow_pos _)).2 under
      simp only [unscaled, Nat.pow_zero, Nat.mul_one] at below
      rw [← sameExponent,
        show (e - (E - ((0 : Nat) : Int))).toNat = (e - E).toNat by omega] at below
      unfold key
      omega
    · unfold key
      omega
  -- A double that is not below the number has no lower exponent than the rounded number.
  · intro covered
    have noEarlier : target M E ≤ e := by
      rw [← atTarget]
      exact target_mono _ _ _ covered positive
    by_cases sameExponent : target M E = e
    · have noMore : rounded ≤ m := by
        generalize scale : (E - target M E).toNat = k at *
        have scaled : M * 2 ^ k ≤ m * 2 ^ (target M E - (E - k)).toNat := by
          rw [show (target M E - (E - (k : Int))).toNat = (e - E).toNat + k by omega, Nat.pow_add,
            ← Nat.mul_assoc]
          exact Nat.mul_le_mul_right _ covered
        have quotient : M * 2 ^ k / 2 ^ (target M E - (E - k)).toNat ≤ m :=
          Nat.div_le_of_le_mul (by rw [Nat.mul_comm (2 ^ _) m]; exact scaled)
        -- Reaching the double exactly leaves nothing to round up.
        by_cases reached : M * 2 ^ k / 2 ^ (target M E - (E - k)).toNat = m
        · have back : m * 2 ^ (target M E - (E - k)).toNat ≤ M * 2 ^ k :=
            (Nat.le_div_iff_mul_le (Nat.two_pow_pos _)).1 (by omega)
          have product : M * 2 ^ k = m * 2 ^ (target M E - (E - k)).toNat := by omega
          have := exact (by rw [product]; exact Nat.mul_mod_left _ _)
          omega
        · omega
      rw [magnitude.fits (by omega) (by omega), sameExponent]
      unfold key
      omega
    -- With a lower exponent even a carry stays below the double.
    · by_cases small : rounded < 2 ^ (53 : Nat)
      · rw [magnitude.fits (by omega) small]
        unfold key
        omega
      · rw [magnitude.carried (by omega) (by omega)]
        unfold key
        omega

end Calculator.Binary
