import Calculator.Number.Place
import Calculator.Number.Rounding

/-! Sums of doubles: a positive addend never takes a number down, any other never takes it up. -/

namespace Calculator.Binary

-- Powers are the core library's own, also where another library has instances for them.
attribute [local instance (2000)] instPowNat

open Float.Model (UnpackedFloat)
open Float.Model.UnpackedFloat

/-- A sum of finite numbers is their exact sum, rounded. -/
theorem add_finite (s t : Sign) (m n : Nat) (e f : Int) (left : 0 < m) (right : 0 < n) :
    UnpackedFloat.add .binary64 (.finite s m e left) (.finite t n f right) =
      UnpackedFloat.normalize .binary64
        (s.apply (m * 2 ^ (e - min e f).toNat : Nat) + t.apply (n * 2 ^ (f - min e f).toNat : Nat))
        (min e f) .positive := by
  -- Both mantissas are shifted to the smaller exponent before they are added.
  rw [← Nat.shiftLeft_eq, ← Nat.shiftLeft_eq]
  rfl

theorem zero_add_finite (s t : Sign) (n : Nat) (f : Int) (positive : 0 < n) :
    UnpackedFloat.add .binary64 (.zero s) (.finite t n f positive) = .finite t n f positive := rfl

theorem finite_add_zero (s t : Sign) (m : Nat) (e : Int) (positive : 0 < m) :
    UnpackedFloat.add .binary64 (.finite s m e positive) (.zero t) = .finite s m e positive := rfl

theorem normalize_zero (E : Int) :
    UnpackedFloat.normalize .binary64 0 E .positive = .zero .positive := rfl

/-- What is above zero is rounded with a positive sign. -/
theorem normalize_positive (M : Nat) (E : Int) (positive : 0 < M) :
    UnpackedFloat.normalize .binary64 (M : Int) E .positive =
      UnpackedFloat.round .binary64 .positive M E := by
  -- The sign is taken from the comparison with zero.
  have : compare (M : Int) 0 = .gt := Int.compare_eq_gt.2 (by omega)
  simp [UnpackedFloat.normalize, this]

/-- What is below zero is rounded with a negative sign. -/
theorem normalize_negative (M : Nat) (E : Int) (positive : 0 < M) :
    UnpackedFloat.normalize .binary64 (-(M : Int)) E .positive =
      UnpackedFloat.round .binary64 .negative M E := by
  -- The sign is taken from the comparison with zero, and the magnitude is rounded.
  have : compare (-(M : Int)) 0 = .lt := Int.compare_eq_lt.2 (by omega)
  simp [UnpackedFloat.normalize, this]

private theorem add_notANumber (u : UnpackedFloat) :
    UnpackedFloat.add .binary64 u .notANumber = .notANumber := by
  -- What is not a number decides the sum, whatever it is added to.
  cases u <;> rfl

/-- Rounding an exact sum keeps it on its side of every double. -/
theorem rank_normalize (E M : Int) (s : Sign) (m : Nat) (e : Int) (positive : 0 < m)
    (canonical : Canonical (.finite s m e positive)) (finer : E ≤ e) :
    (s.apply (m * 2 ^ (e - E).toNat : Nat) ≤ M →
      rank (.finite s m e positive) ≤
        rank (stored (UnpackedFloat.normalize .binary64 M E .positive))) ∧
    (M ≤ s.apply (m * 2 ^ (e - E).toNat : Nat) →
      rank (stored (UnpackedFloat.normalize .binary64 M E .positive)) ≤
        rank (.finite s m e positive)) := by
  -- Magnitudes keep their order, and the sign of the sum says which way it runs.
  have exactPositive : 0 < m * 2 ^ (e - E).toNat := Nat.mul_pos positive (Nat.two_pow_pos _)
  rcases Int.lt_trichotomy M 0 with negative | zero | above
  -- Below zero a larger magnitude is a lower number.
  · obtain ⟨N, rfl⟩ : ∃ N : Nat, M = -(N : Int) := ⟨M.natAbs, by omega⟩
    rw [normalize_negative N E (by omega)]
    obtain ⟨size, ranked, -, ordered⟩ := round_magnitude .negative N E (by omega)
    obtain ⟨under, covered⟩ := ordered s m e positive canonical finer
    rw [ranked]
    cases s <;> dsimp only [Sign.apply, rank] at * <;> omega
  · subst zero
    rw [normalize_zero, stored_zero]
    cases s <;> dsimp only [Sign.apply, rank] at * <;> omega
  · obtain ⟨N, rfl⟩ : ∃ N : Nat, M = (N : Int) := ⟨M.natAbs, by omega⟩
    rw [normalize_positive N E (by omega)]
    obtain ⟨size, ranked, -, ordered⟩ := round_magnitude .positive N E (by omega)
    obtain ⟨under, covered⟩ := ordered s m e positive canonical finer
    rw [ranked]
    cases s <;> dsimp only [Sign.apply, rank] at * <;> omega

/-- A sum is no lower than a number plus a positive one, and no higher otherwise. -/
theorem rank_add (u v : UnpackedFloat) (leftCanonical : Canonical u) (leftKept : stored u = u)
    (rightKept : stored v = v) (number : stored (UnpackedFloat.add .binary64 u v) ≠ .notANumber) :
    (0 < rank v → rank u ≤ rank (stored (UnpackedFloat.add .binary64 u v))) ∧
    (rank v ≤ 0 → rank (stored (UnpackedFloat.add .binary64 u v)) ≤ rank u) := by
  -- Zeros and infinities give one of the two numbers back; finite sums are rounded.
  cases u with
  | notANumber => exact absurd stored_notANumber number
  | infinity s =>
    cases v with
    | notANumber => exact absurd stored_notANumber number
    | infinity t =>
      cases s <;> cases t
      · exact ⟨by decide, by decide⟩
      · exact absurd stored_notANumber number
      · exact absurd stored_notANumber number
      · exact ⟨by decide, by decide⟩
    | zero t =>
      rw [show UnpackedFloat.add .binary64 (.infinity s) (.zero t) = .infinity s from rfl,
        stored_infinity]
      exact ⟨fun _ => Int.le_refl _, fun _ => Int.le_refl _⟩
    | finite t n f h =>
      rw [show UnpackedFloat.add .binary64 (.infinity s) (.finite t n f h) = .infinity s from rfl,
        stored_infinity]
      exact ⟨fun _ => Int.le_refl _, fun _ => Int.le_refl _⟩
  | zero s =>
    cases v with
    | notANumber => exact absurd stored_notANumber number
    | infinity t => cases s <;> cases t <;> exact ⟨by decide, by decide⟩
    | zero t => cases s <;> cases t <;> exact ⟨by decide, by decide⟩
    | finite t n f h =>
      rw [zero_add_finite, rightKept]
      exact ⟨fun above => Int.le_of_lt above, fun below => below⟩
  | finite s m e positive =>
    cases v with
    | notANumber => exact absurd stored_notANumber number
    | infinity t =>
      have finite := (key_bounds leftCanonical).2
      rw [show UnpackedFloat.add .binary64 (.finite s m e positive) (.infinity t) = .infinity t
        from rfl, stored_infinity]
      cases s <;> cases t <;> dsimp only [rank] <;> omega
    | zero t =>
      rw [finite_add_zero, leftKept]
      exact ⟨fun _ => Int.le_refl _, fun _ => Int.le_refl _⟩
    | finite t n f some =>
      -- The exact sum lies on the side that the addend's sign says, and rounding keeps it there.
      rw [add_finite]
      obtain ⟨up, down⟩ := rank_normalize (min e f)
        (s.apply (m * 2 ^ (e - min e f).toNat : Nat) + t.apply (n * 2 ^ (f - min e f).toNat : Nat))
        s m e positive leftCanonical (by omega)
      have addend : 0 < n * 2 ^ (f - min e f).toNat := Nat.mul_pos some (Nat.two_pow_pos _)
      have placed : 0 < key n f := by unfold key; omega
      generalize s.apply (m * 2 ^ (e - min e f).toNat : Nat) = A at *
      generalize n * 2 ^ (f - min e f).toNat = B at *
      cases t
      · refine ⟨fun above => ?_, fun _ => down ?_⟩
        · dsimp only [rank] at above
          omega
        · simp only [Sign.apply]
          omega
      · refine ⟨fun _ => up ?_, fun below => ?_⟩
        · simp only [Sign.apply]
          omega
        · dsimp only [rank] at below
          omega

/-- A positive addend that changes a number moves it up. -/
theorem place_lt_add {a b : Float} (number : IsNumber a) (sum : IsNumber (a + b)) (up : 0 < b)
    (moved : (a + b == a) = false) : place a < place (a + b) := by
  -- The sum is no lower, and it is another number.
  have addend := (lt_iff_place (isNumber_of_lt up).1 (isNumber_of_lt up).2).1 up
  have noLower := (rank_add a.toModel.unpack b.toModel.unpack (canonical_unpack _)
    (stored_unpack _) (stored_unpack _) sum).1 addend
  have other : place (a + b) ≠ place a := fun same =>
    Bool.false_ne_true (moved.symm.trans ((beq_iff_place sum number).2 same))
  have : place a ≤ place (a + b) := noLower
  omega

/-- Any other addend that changes a number moves it down. -/
theorem add_lt_place {a b : Float} (number : IsNumber a) (sum : IsNumber (a + b)) (down : ¬ 0 < b)
    (moved : (a + b == a) = false) : place (a + b) < place a := by
  -- The sum is no higher, and it is another number.
  have addendNumber : IsNumber b := by
    -- Otherwise the sum would be no number either.
    intro wrong
    apply sum
    show stored (UnpackedFloat.add .binary64 a.toModel.unpack b.toModel.unpack) = .notANumber
    rw [wrong, add_notANumber]
    rfl
  have addend : ¬ place 0 < place b := fun above =>
    down ((lt_iff_place isNumber_zero addendNumber).2 above)
  have noHigher := (rank_add a.toModel.unpack b.toModel.unpack (canonical_unpack _)
    (stored_unpack _) (stored_unpack _) sum).2 (Int.not_lt.1 addend)
  have other : place (a + b) ≠ place a := fun same =>
    Bool.false_ne_true (moved.symm.trans ((beq_iff_place sum number).2 same))
  have : place (a + b) ≤ place a := noHigher
  omega

end Calculator.Binary
