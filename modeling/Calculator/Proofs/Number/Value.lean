import Calculator.Proofs.Number.Reading

/-! The exact value of a finite double: doubles are ordered as their values are, a sum that is a
double is not rounded, and a count is the whole part of its value. -/

namespace Calculator.Binary

open Float.Model (UnpackedFloat)
open Float.Model.UnpackedFloat

/-- The exact value of a finite number; any other has the value zero. -/
def exactly : UnpackedFloat → ℚ
  | .finite sign mantissa exponent _ => (sign.apply mantissa : ℤ) * 2 ^ exponent
  | .zero _ | .infinity _ | .notANumber => 0

/-- The exact value of a finite double. -/
def valueOf (value : Float) : ℚ := exactly value.toModel.unpack

/-- What a finite double holds: a zero or a canonical number. -/
inductive Held : UnpackedFloat → Prop
  | zero (sign : Sign) : Held (.zero sign)
  | finite {sign : Sign} {mantissa : Nat} {exponent : Int} {positive : 0 < mantissa}
      (canonical : Canonical (.finite sign mantissa exponent positive)) :
      Held (.finite sign mantissa exponent positive)

/-- A finite double holds a zero or a canonical number. -/
theorem held_of_isFinite {value : Float} (finite : value.isFinite = true) :
    Held value.toModel.unpack := by
  -- Of what a double can hold, zeros and finite values are left.
  have isFinite : value.toModel.unpack.isFinite = true := finite
  have canonical : Canonical value.toModel.unpack := canonical_unpack _
  cases unpacked : value.toModel.unpack with
  | notANumber | infinity =>
    rw [unpacked] at isFinite
    cases isFinite
  | zero sign => exact .zero sign
  | finite =>
    rw [unpacked] at canonical
    exact .finite canonical

section Exactly

variable {sign : Sign} {m n : Nat} {e f M E : Int} {positive : 0 < m} {filled : 0 < n}
  {u v : UnpackedFloat}

@[simp] theorem exactly_zero (sign : Sign) : exactly (.zero sign) = 0 := rfl

@[simp] theorem exactly_positive : exactly (.finite .positive m e positive) = size m e := rfl

@[simp] theorem exactly_negative : exactly (.finite .negative m e positive) = -size m e := by
  -- The sign is applied to the mantissa.
  simp [exactly, Sign.apply, size]

/-- The sign does not matter for the magnitude. -/
theorem abs_exactly : |exactly (.finite sign m e positive)| = size m e := by
  -- The size is positive, whichever sign is in front.
  have above := size_pos e positive
  cases sign
  · rw [exactly_negative, abs_neg, abs_of_pos above]
  · rw [exactly_positive, abs_of_pos above]

/-- A magnitude that a mantissa alone does not reach needs the rest from its exponent. -/
theorem lt_exponent_of_le_size {shift : Int} (width : m < 2 ^ 53)
    (large : 2 ^ 53 * 2 ^ shift ≤ size m e) : shift < e := by
  -- With a lower exponent a mantissa of 53 bits could not be as large.
  by_contra low
  have few : (m : ℚ) < 2 ^ 53 := by exact_mod_cast width
  have power : (2 : ℚ) ^ e ≤ 2 ^ shift := zpow_le_zpow_right₀ (by norm_num) (not_lt.mp low)
  have less : size m e < 2 ^ 53 * 2 ^ shift := by
    calc (m : ℚ) * 2 ^ e < 2 ^ 53 * 2 ^ e := by gcongr
      _ ≤ 2 ^ 53 * 2 ^ shift := by gcongr
  exact less.not_ge large

/-- Of two magnitudes the one with the lower place is the smaller. -/
theorem size_lt_of_key_lt (left : Canonical (.finite sign m e positive))
    (right : Canonical (.finite sign n f filled)) (less : key m e < key n f) :
    size m e < size n f := by
  obtain ⟨width, lowest, _, _⟩ := left
  obtain ⟨otherWidth, otherLowest, _, full⟩ := right
  unfold key at less
  rcases Int.lt_trichotomy e f with below | rfl | above
  · -- All bits of the mantissa with the larger exponent are used, so its leading bit is higher.
    have top : n.log2 = 52 := (Nat.log2_eq_iff (by omega)).2 ⟨by omega, otherWidth⟩
    have bits := (Nat.log2_lt (by omega : m ≠ 0)).2 width
    calc size m e < 2 ^ ((m.log2 : Int) + 1 + e) := size_upper m e
      _ ≤ 2 ^ ((n.log2 : Int) + f) := zpow_le_zpow_right₀ (by norm_num) (by omega)
      _ ≤ size n f := size_lower n f filled
  · have fewer : m < n := by omega
    unfold size
    gcongr
  · omega

/-- Magnitudes at one place are the same. -/
theorem size_eq_of_key_eq (left : Canonical (.finite sign m e positive))
    (right : Canonical (.finite sign n f filled)) (same : key m e = key n f) :
    size m e = size n f := by
  -- A key has one mantissa and one exponent.
  obtain ⟨width, lowest, _, _⟩ := left
  obtain ⟨otherWidth, otherLowest, _, _⟩ := right
  unfold key at same
  obtain ⟨rfl, rfl⟩ : m = n ∧ e = f := by omega
  rfl

/-- A number that is ranked lower has a smaller value. -/
theorem exactly_lt_of_rank_lt (left : Held u) (right : Held v) (less : rank u < rank v) :
    exactly u < exactly v := by
  -- Signs decide at once; magnitudes of one sign are compared by their places.
  cases left with
  | zero s =>
    cases right with
    | zero t => exact absurd less (lt_irrefl _)
    | @finite t n f filled =>
      have above := size_pos f filled
      cases t <;> simp only [rank, exactly_zero, exactly_positive] at less ⊢
      · omega
      · exact above
  | @finite s m e positive canonical =>
    have above := size_pos e positive
    cases right with
    | zero t =>
      cases s <;> simp only [rank, exactly_zero, exactly_negative] at less ⊢
      · linarith
      · omega
    | @finite t n f filled other =>
      have otherAbove := size_pos f filled
      cases s <;> cases t <;> simp only [rank, exactly_positive, exactly_negative] at less ⊢
      · linarith [size_lt_of_key_lt other canonical (by omega)]
      · linarith
      · omega
      · exact size_lt_of_key_lt canonical other (by omega)

/-- Numbers of one rank have one value. -/
theorem exactly_eq_of_rank_eq (left : Held u) (right : Held v) (same : rank u = rank v) :
    exactly u = exactly v := by
  -- A place that is not the origin fixes the sign and the magnitude.
  cases left with
  | zero s =>
    cases right with
    | zero t => rfl
    | @finite t _ _ _ canonical =>
      have bounds := key_bounds canonical
      cases t <;> simp only [rank] at same <;> omega
  | @finite s _ _ _ canonical =>
    have bounds := key_bounds canonical
    cases right with
    | zero t => cases s <;> simp only [rank] at same <;> omega
    | @finite t _ _ _ other =>
      have otherBounds := key_bounds other
      cases s <;> cases t <;> simp only [rank, exactly_positive, exactly_negative] at same ⊢
      · rw [size_eq_of_key_eq canonical other (by omega)]
      · omega
      · omega
      · exact size_eq_of_key_eq canonical other (by omega)

/-- Numbers are ranked as their values are ordered. -/
theorem rank_lt_iff_exactly (left : Held u) (right : Held v) :
    rank u < rank v ↔ exactly u < exactly v := by
  -- The other two orders of the ranks would give other orders of the values.
  refine ⟨exactly_lt_of_rank_lt left right, fun less => ?_⟩
  by_contra noLess
  rcases (not_lt.mp noLess).lt_or_eq with more | same
  · exact lt_asymm less (exactly_lt_of_rank_lt right left more)
  · exact less.ne' (exactly_eq_of_rank_eq right left same)

/-- Numbers have one rank when they have one value. -/
theorem rank_eq_iff_exactly (left : Held u) (right : Held v) :
    rank u = rank v ↔ exactly u = exactly v := by
  -- Different ranks would give different values.
  refine ⟨exactly_eq_of_rank_eq left right, fun same => ?_⟩
  by_contra apart
  rcases lt_or_gt_of_ne apart with less | more
  · exact (exactly_lt_of_rank_lt left right less).ne same
  · exact (exactly_lt_of_rank_lt right left more).ne' same

/-- A value other than zero is held in one way. -/
theorem Held.eq_of_exactly (left : Held u) (right : Held v) (same : exactly u = exactly v)
    (apart : exactly u ≠ 0) : u = v := by
  have ranks := (rank_eq_iff_exactly left right).mpr same
  cases left with
  | zero s => exact absurd rfl apart
  | @finite s m e positive canonical =>
    have bounds := key_bounds canonical
    cases right with
    | zero t => exact absurd same apart
    | @finite t n f filled other =>
      -- The rank gives the sign and the place, and the place the mantissa and the exponent.
      have otherBounds := key_bounds other
      obtain ⟨width, lowest, _, _⟩ := canonical
      obtain ⟨otherWidth, otherLowest, _, _⟩ := other
      have signs : s = t := by
        cases s <;> cases t <;> simp only [rank] at ranks <;> first | rfl | omega
      subst signs
      have keys : key m e = key n f := by
        cases s <;> simp only [rank] at ranks <;> omega
      unfold key at keys
      obtain ⟨rfl, rfl⟩ : m = n ∧ e = f := by omega
      rfl

/-- Rounding an exact value that a double has gives that double, up to the sign of a zero. -/
theorem rank_normalize_of_exactly (held : Held u) (same : exactly u = M * 2 ^ E) :
    stored (UnpackedFloat.normalize .binary64 M E .positive) ≠ .notANumber ∧
      rank (stored (UnpackedFloat.normalize .binary64 M E .positive)) = rank u := by
  have unit : (0 : ℚ) < 2 ^ E := by positivity
  cases held with
  | zero s =>
    -- Nothing is left to be rounded.
    obtain rfl : M = 0 := by simpa [unit.ne'] using same.symm
    rw [normalize_zero, stored_zero]
    exact ⟨nofun, rfl⟩
  | @finite s m e positive canonical =>
    have above := size_pos e positive
    have kept := stored_finite s m e positive canonical
    -- The exact value has the sign of the double, and its magnitude is not changed by rounding.
    cases s with
    | negative =>
      have below : M < 0 := by
        have : (M : ℚ) * 2 ^ E < 0 := by rw [← same, exactly_negative]; linarith
        exact_mod_cast (neg_iff_pos_of_mul_neg this).mpr unit
      obtain ⟨N, rfl⟩ : ∃ N : Nat, M = -(N : Int) := ⟨M.natAbs, by omega⟩
      have magnitude : size N E = size m e := by
        rw [exactly_negative] at same
        push_cast at same
        unfold size at *
        linarith
      rw [normalize_negative N E (by omega), round_eq_of_size canonical magnitude, kept]
      exact ⟨nofun, rfl⟩
    | positive =>
      have rises : 0 < M := by
        have : 0 < (M : ℚ) * 2 ^ E := by rw [← same]; exact above
        exact_mod_cast pos_of_mul_pos_left this unit.le
      obtain ⟨N, rfl⟩ : ∃ N : Nat, M = (N : Int) := ⟨M.natAbs, by omega⟩
      have magnitude : size N E = size m e := by
        rw [exactly_positive] at same
        exact_mod_cast same.symm
      rw [normalize_positive N E (by omega), round_eq_of_size canonical magnitude, kept]
      exact ⟨nofun, rfl⟩

/-- A mantissa that is scaled to a finer exponent has the value that it had. -/
theorem exactly_scaled (positive : 0 < m) (finer : E ≤ e) :
    ((sign.apply (m * 2 ^ (e - E).toNat : Nat) : ℤ) : ℚ) * 2 ^ E =
      exactly (.finite sign m e positive) := by
  -- Shifting the mantissa makes up for the finer exponent.
  have scaled := size_scaled m (e - E).toNat e
  rw [show e - ((e - E).toNat : Int) = E by omega] at scaled
  cases sign
  · rw [exactly_negative, ← scaled]
    simp [Sign.apply, size]
  · rw [exactly_positive, ← scaled]
    rfl

/-- A sum that is a double is that double, up to the sign of a zero. -/
theorem rank_add_of_exactly {w : UnpackedFloat} (left : Held u) (right : Held v) (held : Held w)
    (same : exactly w = exactly u + exactly v) :
    stored (UnpackedFloat.add .binary64 u v) ≠ .notANumber ∧
      rank (stored (UnpackedFloat.add .binary64 u v)) = rank w := by
  -- A zero gives the other number back; the exact sum of two others is the value of a double.
  cases left with
  | zero s =>
    cases right with
    | zero t =>
      have nothing := (rank_eq_iff_exactly held (.zero t)).mpr (by simpa using same)
      rw [nothing]
      cases s <;> cases t <;> exact ⟨nofun, rfl⟩
    | @finite t n f filled canonical =>
      rw [zero_add_finite, stored_finite _ _ _ _ canonical]
      exact ⟨nofun, ((rank_eq_iff_exactly held (.finite canonical)).mpr (by simpa using same)).symm⟩
  | @finite s m e positive canonical =>
    cases right with
    | zero t =>
      rw [finite_add_zero, stored_finite _ _ _ _ canonical]
      exact ⟨nofun, ((rank_eq_iff_exactly held (.finite canonical)).mpr (by simpa using same)).symm⟩
    | @finite t n f filled other =>
      rw [add_finite]
      apply rank_normalize_of_exactly held
      rw [same, ← exactly_scaled positive (min_le_left e f),
        ← exactly_scaled filled (min_le_right e f)]
      push_cast
      ring

end Exactly

section Doubles

variable {a b c : Float}

/-- Finite doubles are ordered as their values are. -/
theorem lt_iff_valueOf (left : a.isFinite = true) (right : b.isFinite = true) :
    a < b ↔ valueOf a < valueOf b := by
  -- Finite doubles are ordered by their ranks, and these by their values.
  rw [lt_iff_place (isNumber_of_isFinite left) (isNumber_of_isFinite right)]
  exact rank_lt_iff_exactly (held_of_isFinite left) (held_of_isFinite right)

/-- Finite doubles are ordered weakly as their values are. -/
theorem le_iff_valueOf (left : a.isFinite = true) (right : b.isFinite = true) :
    a ≤ b ↔ valueOf a ≤ valueOf b := by
  -- The weak order is the opposite of the strict one the other way round.
  rw [le_iff_place (isNumber_of_isFinite left) (isNumber_of_isFinite right), ← not_lt, ← not_lt]
  exact (rank_lt_iff_exactly (held_of_isFinite right) (held_of_isFinite left)).not

/-- Finite doubles are equal when their values are. -/
theorem beq_iff_valueOf (left : a.isFinite = true) (right : b.isFinite = true) :
    (a == b) = true ↔ valueOf a = valueOf b := by
  -- Finite doubles are equal if their ranks are, and these if their values are.
  rw [beq_iff_place (isNumber_of_isFinite left) (isNumber_of_isFinite right)]
  exact rank_eq_iff_exactly (held_of_isFinite left) (held_of_isFinite right)

/-- A sum that is a double is that double, up to the sign of a zero. -/
theorem add_beq_of_valueOf (left : a.isFinite = true) (right : b.isFinite = true)
    (finite : c.isFinite = true) (same : valueOf c = valueOf a + valueOf b) :
    (a + b == c) = true := by
  -- The sum is exact, so it is rounded to the double that holds it.
  obtain ⟨number, placed⟩ := rank_add_of_exactly (held_of_isFinite left) (held_of_isFinite right)
    (held_of_isFinite finite) same
  have sum : IsNumber (a + b) := number
  exact (beq_iff_place sum (isNumber_of_isFinite finite)).mpr placed

end Doubles

section Whole

/-- Conversion to a whole number keeps the whole part of a magnitude. -/
theorem roundToInt_eq_floor (mantissa : Nat) (exponent : Int) :
    roundToInt .positive mantissa exponent = ⌊size mantissa exponent⌋₊ := by
  -- The mantissa is shifted up or down, as the sign of the exponent says.
  have shifted : roundToInt .positive mantissa exponent =
      ((ExtendedMantissa.mk (mantissa <<< (exponent - 0).toNat) false false >>>
        (0 - (exponent - (exponent - 0).toNat)).toNat).mantissa : Nat) := rfl
  have down : (0 - (exponent - (exponent.toNat : Int))).toNat = (-exponent).toNat := by omega
  have whole := (Exact.mk false mantissa exponent).numerator_div_denominator
  rw [shifted, Int.sub_zero, (mantissa_shiftRight _ _).1, Nat.shiftLeft_eq, down, ← whole,
    Nat.floor_div_eq_div]
  rfl

variable {value : Float}

/-- A double that is no less than zero is counted as the whole part of its value. -/
theorem toUInt64_eq_floor (finite : value.isFinite = true) (unsigned : 0 ≤ valueOf value)
    (small : valueOf value < 2 ^ 64) : value.toUInt64.toNat = ⌊valueOf value⌋₊ := by
  -- Below the limit the conversion cuts off the fraction and nothing else.
  have held := held_of_isFinite finite
  have range : ⌊valueOf value⌋₊ < UInt64.size :=
    (Nat.floor_lt unsigned).mpr (by exact_mod_cast small)
  suffices kept : (value.toModel.unpack.toInt 0 (UInt64.size - 1)).toNat = ⌊valueOf value⌋₊ by
    show (UInt64.ofNatClamp (value.toModel.unpack.toInt 0 (UInt64.size - 1)).toNat).toNat = _
    rw [kept, UInt64.toNat_ofNatClamp_of_lt range]
  unfold valueOf at *
  generalize value.toModel.unpack = u at *
  cases held with
  | zero s => simp [UnpackedFloat.toInt]
  | @finite s m e positive =>
    cases s with
    | negative =>
      rw [exactly_negative] at unsigned
      linarith [size_pos e positive]
    | positive =>
      show (roundToInt .positive m e).toNat = _
      rw [roundToInt_eq_floor, Int.toNat_natCast, exactly_positive]

/-- A positive double has the value that it holds. -/
theorem Holds.valueOf_eq {fraction : ℚ} (holds : Holds value fraction) :
    valueOf value = fraction := by
  -- What is held is the mantissa with its exponent.
  obtain ⟨m, e, positive, unpacked, rfl⟩ := holds
  rw [valueOf, unpacked, exactly_positive]

/-- Whole numbers of at most fifty-three bits are converted exactly. -/
theorem valueOf_ofNat {number : Nat} (small : number < 2 ^ 53) :
    (Float.ofNat number).isFinite = true ∧ valueOf (Float.ofNat number) = number := by
  -- A whole number with 53 bits is held exactly, be it zero or positive.
  rcases Nat.eq_zero_or_pos number with rfl | positive
  · exact ⟨rfl, rfl⟩
  · have holds := holds_toFloat positive small
    have converted : Float.ofNat number = number.toUInt64.toFloat := by
      have scaled : Holds number.toUInt64.toFloat (number * 10 ^ (0 : Int)) := by simpa using holds
      exact ofScientific_eq scaled
    rw [converted]
    refine ⟨?_, holds.valueOf_eq⟩
    obtain ⟨_, _, _, unpacked, _⟩ := holds
    show number.toUInt64.toFloat.toModel.unpack.isFinite = true
    rw [unpacked]
    rfl

end Whole

end Calculator.Binary
