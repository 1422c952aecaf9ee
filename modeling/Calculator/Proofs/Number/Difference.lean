import Calculator.Proofs.Number.Value

/-! Differences of doubles: a difference is a sum with the opposite, it is no higher than what is
taken away from, and it is zero only between equals. -/

namespace Calculator.Binary

open Float.Model (UnpackedFloat)
open Float.Model.UnpackedFloat

section Unpacked

variable {u v : UnpackedFloat}

/-- Nothing is rounded to zero that is written with the exponent of a double. -/
theorem rank_round_ne_zero (sign : Sign) (M : Nat) (E : Int) (positive : 0 < M)
    (lowest : -1074 ≤ E) : rank (stored (UnpackedFloat.round .binary64 sign M E)) ≠ 0 := by
  have same := target_scaled M (E - target M E).toNat E positive
  have filled : 0 < M * 2 ^ (E - target M E).toNat := Nat.mul_pos positive (Nat.two_pow_pos _)
  have smallest : -1074 ≤ target M E := by unfold target; omega
  obtain ⟨rounded, rounds, settles⟩ := roundWithAccuracy_settles sign
    (M * 2 ^ (E - target M E).toNat) (E - (E - target M E).toNat) (by omega)
  have full := rounds.full filled (by omega)
  have below := rounds.below
  rw [← round_eq] at settles
  rw [same] at settles full below
  -- Either all bits of a mantissa remain, or none is lost at the smallest exponent.
  have remains : 0 < rounded := by
    rcases full with normal | lowestTarget
    · omega
    · rw [show (target M E - (E - ((E - target M E).toNat : Int))).toNat = 0 by omega, pow_zero,
        Nat.div_one] at below
      omega
  obtain ⟨size, magnitude⟩ := settles.magnitude smallest full
  have atLeast := magnitude.atLeast
  rw [magnitude.rank_eq]
  unfold key at atLeast
  cases sign <;> dsimp only [Sign.apply] <;> omega

/-- An exact sum other than zero is rounded by its magnitude, with its sign. -/
theorem normalize_eq_round {M : Int} (nonzero : M ≠ 0) (E : Int) :
    ∃ (sign : Sign) (N : Nat), 0 < N ∧
      UnpackedFloat.normalize .binary64 M E .positive = UnpackedFloat.round .binary64 sign N E := by
  -- The sign is taken apart from the magnitude.
  rcases lt_or_gt_of_ne nonzero with below | above
  · obtain ⟨N, rfl⟩ : ∃ N : Nat, M = -(N : Int) := ⟨M.natAbs, by omega⟩
    exact ⟨.negative, N, by omega, normalize_negative N E (by omega)⟩
  · obtain ⟨N, rfl⟩ : ∃ N : Nat, M = (N : Int) := ⟨M.natAbs, by omega⟩
    exact ⟨.positive, N, by omega, normalize_positive N E (by omega)⟩

/-- An exact sum at the exponent of a double is rounded to zero only if it is zero. -/
theorem rank_normalize_eq_zero_iff {M E : Int} (lowest : -1074 ≤ E) :
    rank (stored (UnpackedFloat.normalize .binary64 M E .positive)) = 0 ↔ M = 0 := by
  -- Rounding keeps a magnitude away from zero, as the exponent is not below the lowest.
  constructor
  · intro none
    by_contra nonzero
    obtain ⟨sign, N, positive, rounded⟩ := normalize_eq_round nonzero E
    rw [rounded] at none
    exact rank_round_ne_zero sign N E positive lowest none
  · rintro rfl
    rw [normalize_zero, stored_zero]
    rfl

/-- A number that is not zero has neither the rank nor the value zero. -/
theorem Held.rank_eq_zero_iff (held : Held u) : rank u = 0 ↔ exactly u = 0 :=
  rank_eq_iff_exactly held (.zero .positive)

/-- A sum of finite numbers is zero only if its exact value is. -/
theorem rank_add_eq_zero_iff (left : Held u) (right : Held v) :
    rank (stored (UnpackedFloat.add .binary64 u v)) = 0 ↔ exactly u + exactly v = 0 := by
  -- Only the sum of two numbers other than zero is rounded, and not to zero.
  cases left with
  | zero s =>
    cases right with
    | zero t => cases s <;> cases t <;> simp <;> rfl
    | @finite t n f filled canonical =>
      rw [zero_add_finite, stored_finite _ _ _ _ canonical, exactly_zero, zero_add]
      exact (Held.finite canonical).rank_eq_zero_iff
  | @finite s m e positive canonical =>
    cases right with
    | zero t =>
      rw [finite_add_zero, stored_finite _ _ _ _ canonical, exactly_zero, add_zero]
      exact (Held.finite canonical).rank_eq_zero_iff
    | @finite t n f filled other =>
      have lowest : -1074 ≤ min e f := le_min canonical.2.1 other.2.1
      have unit : (0 : ℚ) < 2 ^ min e f := by positivity
      rw [add_finite, rank_normalize_eq_zero_iff lowest,
        ← exactly_scaled positive (min_le_left e f), ← exactly_scaled filled (min_le_right e f),
        ← add_mul, mul_eq_zero_iff_right unit.ne']
      exact_mod_cast Iff.rfl

/-- What a finite double holds is finite. -/
theorem Held.isFinite (held : Held u) : u.isFinite = true := by
  -- Both kinds of held values are finite.
  cases held <;> rfl

/-- The opposite of a finite number is finite. -/
theorem Held.neg (held : Held u) : Held u.neg := by
  -- Only the sign changes.
  cases held with
  | zero s => exact .zero (-s)
  | finite canonical => exact .finite canonical

/-- The opposite of a number has the opposite value. -/
theorem exactly_neg (u : UnpackedFloat) : exactly u.neg = -exactly u := by
  -- Only the sign changes, and zero has no sign here.
  cases u with
  | notANumber | infinity | zero => simp [UnpackedFloat.neg, exactly]
  | finite s m e positive =>
    cases s
    · rw [exactly_negative, neg_neg]
      rfl
    · rw [exactly_positive]
      exact exactly_negative

/-- The opposite of a number has the opposite rank. -/
theorem rank_neg (u : UnpackedFloat) : rank u.neg = -rank u := by
  -- The opposite has the opposite sign and the same key.
  cases u with
  | notANumber | zero => rfl
  | infinity s => cases s <;> rfl
  | finite s m e positive => cases s <;> simp [UnpackedFloat.neg, rank]

/-- A difference is the sum with the opposite. -/
theorem sub_eq_add_opposite (u v : UnpackedFloat) :
    UnpackedFloat.sub .binary64 u v = UnpackedFloat.add .binary64 u v.neg := by
  cases u with
  | notANumber => rfl
  | infinity s => cases v <;> rfl
  | zero s => cases v <;> rfl
  | finite s m e positive =>
    cases v with
    | notANumber | infinity | zero => rfl
    | finite t n f filled =>
      -- Only two finite numbers are added, and the sign of the second is turned.
      have turned (number : Int) : -(t.apply number) = (-t).apply number := by
        cases t
        · exact neg_neg number
        · rfl
      simp only [UnpackedFloat.sub, UnpackedFloat.add, UnpackedFloat.neg, Int.sub_eq_add_neg,
        turned]

/-- An exact sum is rounded to a number. -/
theorem stored_normalize_ne_notANumber (M E : Int) :
    stored (UnpackedFloat.normalize .binary64 M E .positive) ≠ .notANumber := by
  -- A sum of zero is zero, and all others are rounded to a number.
  by_cases nonzero : M = 0
  · rw [nonzero, normalize_zero, stored_zero]
    exact nofun
  · obtain ⟨sign, N, positive, rounded⟩ := normalize_eq_round nonzero E
    rw [rounded]
    exact (round_magnitude sign N E positive).choose_spec.2.1

/-- A number plus a finite one is a number. -/
theorem stored_add_ne_notANumber (number : u ≠ .notANumber) (kept : stored u = u)
    (right : Held v) : stored (UnpackedFloat.add .binary64 u v) ≠ .notANumber := by
  -- The cases are those of what the first one holds; only two infinities could cancel.
  cases u with
  | notANumber => exact absurd rfl number
  | infinity s =>
    have stays : UnpackedFloat.add .binary64 (.infinity s) v = .infinity s := by
      cases right <;> rfl
    rw [stays, stored_infinity]
    exact nofun
  | zero s =>
    cases right with
    | zero t => cases s <;> cases t <;> exact nofun
    | @finite t n f filled canonical =>
      rw [zero_add_finite, stored_finite _ _ _ _ canonical]
      exact nofun
  | finite s m e positive =>
    cases right with
    | zero t =>
      rw [finite_add_zero, kept]
      exact nofun
    | finite =>
      rw [add_finite]
      exact stored_normalize_ne_notANumber _ _

/-- A number and a finite one have no difference exactly when they have one rank. -/
theorem rank_add_neg_eq_zero_iff (number : u ≠ .notANumber) (canonical : Canonical u)
    (right : Held v) :
    rank (stored (UnpackedFloat.add .binary64 u v.neg)) = 0 ↔ rank u = rank v := by
  have finite (held : Held u) :
      rank (stored (UnpackedFloat.add .binary64 u v.neg)) = 0 ↔ rank u = rank v := by
    rw [rank_add_eq_zero_iff held right.neg, rank_eq_iff_exactly held right, exactly_neg,
      ← sub_eq_add_neg, sub_eq_zero]
  cases u with
  | notANumber => exact absurd rfl number
  | infinity s =>
    -- What is infinite stays so, and no finite number has its rank.
    have stays : UnpackedFloat.add .binary64 (.infinity s) v.neg = .infinity s := by
      cases right <;> rfl
    rw [stays, stored_infinity]
    cases right with
    | zero t => cases s <;> simp [rank]
    | @finite t n f filled canonical =>
      have bounds := key_bounds canonical
      cases s <;> cases t <;> simp only [rank] <;> omega
  | zero s => exact finite (.zero s)
  | finite s m e positive => exact finite (.finite canonical)

/-- The magnitude of a number has the magnitude of its rank. -/
theorem rank_abs (u : UnpackedFloat) : rank u.abs = |rank u| := by
  -- The sign is dropped, and the key stays.
  cases u with
  | notANumber | zero => rfl
  | infinity s => cases s <;> rfl
  | finite s m e positive => cases s <;> simp [UnpackedFloat.abs, rank]

end Unpacked

section Doubles

variable {a b : Float}

/-- Negating a double turns its sign and nothing else. -/
theorem unpack_neg_eq (value : Float) :
    (-value).toModel.unpack = value.toModel.unpack.neg := by
  have kept : stored value.toModel.unpack = _ := stored_unpack _
  have canonical : Canonical value.toModel.unpack := canonical_unpack _
  -- What is stored is rounded first, but a canonical number is canonical with either sign.
  show stored value.toModel.unpack.neg = _
  generalize value.toModel.unpack = u at *
  cases u with
  | notANumber => rfl
  | infinity s => exact stored_infinity (-s)
  | zero s => exact stored_zero (-s)
  | finite s m e positive => exact stored_finite (-s) m e positive canonical

/-- A difference of doubles is the sum with the opposite. -/
theorem sub_eq (a b : Float) : a - b = a + -b := by
  -- A difference is the sum with the opposite, before it is stored.
  show Float.ofModel (.pack (UnpackedFloat.sub .binary64 a.toModel.unpack b.toModel.unpack)) =
    Float.ofModel (.pack (UnpackedFloat.add .binary64 a.toModel.unpack (-b).toModel.unpack))
  rw [unpack_neg_eq, sub_eq_add_opposite]

/-- The opposite of a double has the opposite place. -/
theorem place_neg (value : Float) : place (-value) = -place value := by
  -- Storing keeps the opposite as it is.
  rw [place, unpack_neg_eq, rank_neg]
  rfl

/-- The opposite of a finite double is finite. -/
theorem isFinite_neg {value : Float} (finite : value.isFinite = true) :
    (-value).isFinite = true := by
  -- The opposite of what is held is held.
  show (-value).toModel.unpack.isFinite = true
  rw [unpack_neg_eq]
  exact (held_of_isFinite finite).neg.isFinite

/-- A number plus a finite double is a number. -/
theorem isNumber_add (number : IsNumber a) (finite : b.isFinite = true) : IsNumber (a + b) :=
  stored_add_ne_notANumber number (stored_unpack _) (held_of_isFinite finite)

/-- A number less a finite double is a number. -/
theorem isNumber_sub (number : IsNumber a) (finite : b.isFinite = true) : IsNumber (a - b) := by
  -- A difference is the sum with the opposite.
  rw [sub_eq]
  exact isNumber_add number (isFinite_neg finite)

/-- Taking a positive double away never takes a number up. -/
theorem place_sub_le (number : IsNumber a) (finite : b.isFinite = true) (positive : 0 < b) :
    place (a - b) ≤ place a := by
  have above := (lt_iff_place (isNumber_of_lt positive).1 (isNumber_of_lt positive).2).1 positive
  have sum : IsNumber (a + -b) := isNumber_add number (isFinite_neg finite)
  have opposite := place_neg b
  -- The opposite of a positive double is an addend that takes nothing up.
  rw [sub_eq]
  refine (rank_add a.toModel.unpack (-b).toModel.unpack (canonical_unpack _) (stored_unpack _)
    (stored_unpack _) sum).2 ?_
  rw [place_zero] at above
  show place (-b) ≤ 0
  omega

/-- The magnitude of a double has its sign dropped and nothing else. -/
theorem unpack_abs_eq (value : Float) : value.abs.toModel.unpack = value.toModel.unpack.abs := by
  -- The magnitude of what is held is stored as it is.
  have canonical : Canonical value.toModel.unpack := canonical_unpack _
  show stored value.toModel.unpack.abs = _
  generalize value.toModel.unpack = u at *
  cases u with
  | notANumber => rfl
  | infinity s => exact stored_infinity .positive
  | zero s => exact stored_zero .positive
  | finite s m e positive => exact stored_finite .positive m e positive canonical

/-- The magnitude of a double has the magnitude of its place. -/
theorem place_abs (value : Float) : place value.abs = |place value| := by
  -- Storing keeps the magnitude as it is.
  rw [place, unpack_abs_eq, rank_abs]
  rfl

/-- The magnitude of a number is a number. -/
theorem isNumber_abs (number : IsNumber a) : IsNumber a.abs := by
  -- The magnitude holds a number if the value does.
  rw [IsNumber, unpack_abs_eq]
  intro wrong
  cases held : a.toModel.unpack with
  | notANumber => exact number held
  | infinity | zero | finite =>
    rw [held] at wrong
    cases wrong

/-- A difference is at zero exactly when there is none. -/
theorem place_sub_eq_zero_iff (number : IsNumber a) (finite : b.isFinite = true) :
    place (a - b) = 0 ↔ place a = place b := by
  -- A difference is the sum with the opposite, which is zero only if the two are equal.
  have none := rank_add_neg_eq_zero_iff number (canonical_unpack _) (held_of_isFinite finite)
  rw [← unpack_neg_eq] at none
  rw [sub_eq]
  exact none

/-- Two doubles are apart exactly when they are not equal. -/
theorem pos_abs_sub_iff (number : IsNumber a) (finite : b.isFinite = true) :
    0 < (a - b).abs ↔ (a == b) = false := by
  -- A magnitude is above zero unless it is zero.
  have magnitude := isNumber_abs (isNumber_sub number finite)
  rw [lt_iff_place isNumber_zero magnitude, place_zero, place_abs, abs_pos, ← Bool.not_eq_true,
    beq_iff_place number (isNumber_of_isFinite finite)]
  exact (place_sub_eq_zero_iff number finite).not

end Doubles

end Calculator.Binary
