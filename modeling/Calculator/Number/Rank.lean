import Calculator.Number.Packing

/-! The rank of a double: an integer that grows exactly as the number does. -/

namespace Calculator.Binary

-- Powers are the core library's own, also where another library has instances for them.
attribute [local instance (2000)] instPowNat

open Float.Model (UnpackedFloat)
open Float.Model.UnpackedFloat

/-- The place of a magnitude among all magnitudes: by exponent first, then by mantissa. -/
def key (mantissa : Nat) (exponent : Int) : Nat :=
  (exponent + 1074).toNat * 2 ^ (53 : Nat) + mantissa

/-- The place of a number among all numbers, with both zeros at the origin. -/
def rank : UnpackedFloat → Int
  | .zero _ => 0
  | .finite .positive mantissa exponent _ => key mantissa exponent
  | .finite .negative mantissa exponent _ => -key mantissa exponent
  | .infinity .positive => 2 ^ (64 : Nat)
  | .infinity .negative => -2 ^ (64 : Nat)
  | .notANumber => 0

/-- Finite magnitudes lie below the infinite one. -/
theorem key_lt (mantissa : Nat) (exponent : Int) (width : mantissa < 2 ^ (53 : Nat))
    (highest : exponent ≤ 971) : key mantissa exponent < 2 ^ (64 : Nat) := by
  -- The key lists mantissas of 53 bits for each of the exponents up to the highest.
  unfold key
  omega

/-- Comparing exponents, then mantissas, compares the places. -/
theorem compare_key (m n : Nat) (e f : Int) (leftWidth : m < 2 ^ (53 : Nat))
    (rightWidth : n < 2 ^ (53 : Nat)) (leftLowest : -1074 ≤ e) (rightLowest : -1074 ≤ f) :
    (compare e f).then (compare m n) = compare (key m e) (key n f) := by
  -- A larger exponent outweighs every mantissa; equal exponents leave the choice to the mantissas.
  unfold key
  rcases Int.lt_trichotomy e f with less | same | more
  · have below : compare ((e + 1074).toNat * 2 ^ (53 : Nat) + m)
        ((f + 1074).toNat * 2 ^ (53 : Nat) + n) = .lt :=
      Nat.compare_eq_lt.2 (by omega)
    rw [Int.compare_eq_lt.2 less, below]
    rfl
  · subst same
    rw [show compare e e = .eq by simp, Ordering.then]
    rcases Nat.lt_trichotomy m n with less | same | more
    · rw [Nat.compare_eq_lt.2 less, Nat.compare_eq_lt.2 (by omega)]
    · subst same
      simp
    · rw [Nat.compare_eq_gt.2 more, Nat.compare_eq_gt.2 (by omega)]
  · have above : compare ((e + 1074).toNat * 2 ^ (53 : Nat) + m)
        ((f + 1074).toNat * 2 ^ (53 : Nat) + n) = .gt :=
      Nat.compare_eq_gt.2 (by omega)
    rw [Int.compare_eq_gt.2 more, above]
    rfl

/-- A canonical finite number lies strictly between zero and infinity. -/
theorem key_bounds {sign : Sign} {mantissa : Nat} {exponent : Int} {positive : 0 < mantissa}
    (canonical : Canonical (.finite sign mantissa exponent positive)) :
    0 < key mantissa exponent ∧ key mantissa exponent < 2 ^ (64 : Nat) := by
  -- A canonical mantissa is positive and has 53 bits, and its exponent is at most the highest.
  obtain ⟨width, _, highest, _⟩ := canonical
  exact ⟨by unfold key; omega, key_lt mantissa exponent width highest⟩

/-- Numbers compare as their ranks do. -/
theorem compare_eq_rank {left right : UnpackedFloat} (leftCanonical : Canonical left)
    (rightCanonical : Canonical right) (leftNumber : left ≠ .notANumber)
    (rightNumber : right ≠ .notANumber) :
    left.compare right = some (compare (rank left) (rank right)) := by
  -- Signs and infinities decide at once; two finite numbers of one sign compare by their places.
  cases left with
  | notANumber => exact absurd rfl leftNumber
  | infinity s =>
    cases right with
    | notANumber => exact absurd rfl rightNumber
    | infinity t => cases s <;> cases t <;> rfl
    | zero t => cases s <;> cases t <;> rfl
    | finite t n f _ =>
      have bounds := key_bounds rightCanonical
      cases s <;> cases t <;> refine congrArg some (Eq.symm ?_) <;> dsimp only [rank]
      · rw [Int.compare_eq_lt]; omega
      · rw [Int.compare_eq_lt]; omega
      · rw [Int.compare_eq_gt]; omega
      · rw [Int.compare_eq_gt]; omega
  | zero s =>
    cases right with
    | notANumber => exact absurd rfl rightNumber
    | infinity t => cases s <;> cases t <;> rfl
    | zero t => cases s <;> cases t <;> rfl
    | finite t n f _ =>
      have bounds := key_bounds rightCanonical
      cases t <;> refine congrArg some (Eq.symm ?_) <;> dsimp only [rank]
      · rw [Int.compare_eq_gt]; omega
      · rw [Int.compare_eq_lt]; omega
  | finite s m e _ =>
    have leftBounds := key_bounds leftCanonical
    cases right with
    | notANumber => exact absurd rfl rightNumber
    | infinity t =>
      cases s <;> cases t <;> refine congrArg some (Eq.symm ?_) <;> dsimp only [rank]
      · rw [Int.compare_eq_gt]; omega
      · rw [Int.compare_eq_lt]; omega
      · rw [Int.compare_eq_gt]; omega
      · rw [Int.compare_eq_lt]; omega
    | zero t =>
      cases s <;> refine congrArg some (Eq.symm ?_) <;> dsimp only [rank]
      · rw [Int.compare_eq_lt]; omega
      · rw [Int.compare_eq_gt]; omega
    | finite t n f _ =>
      have rightBounds := key_bounds rightCanonical
      have places := compare_key m n e f leftCanonical.1 rightCanonical.1 leftCanonical.2.1
        rightCanonical.2.1
      cases s <;> cases t <;> refine congrArg some ?_ <;> dsimp only [rank]
      · rw [places]
        rcases Nat.lt_trichotomy (key m e) (key n f) with less | same | more
        · rw [Nat.compare_eq_lt.2 less, Int.compare_eq_gt.2 (by omega)]; rfl
        · rw [same]; simp
        · rw [Nat.compare_eq_gt.2 more, Int.compare_eq_lt.2 (by omega)]; rfl
      · symm; rw [Int.compare_eq_lt]; omega
      · symm; rw [Int.compare_eq_gt]; omega
      · rw [places]
        rcases Nat.lt_trichotomy (key m e) (key n f) with less | same | more
        · rw [Nat.compare_eq_lt.2 less, Int.compare_eq_lt.2 (by omega)]
        · rw [same]; simp
        · rw [Nat.compare_eq_gt.2 more, Int.compare_eq_gt.2 (by omega)]

end Calculator.Binary
