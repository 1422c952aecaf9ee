import Calculator.Number.Sum
import Mathlib

/-! Exact results: an operation whose exact result is a double gives that double. -/

namespace Calculator.Binary

open Float.Model (UnpackedFloat)
open Float.Model.UnpackedFloat

/-- Packing puts the fields of a number back. -/
theorem pack_ofFields {sign : Sign} {exponent : BitVec 11} {mantissa : BitVec 52}
    (number : ofFields sign exponent mantissa ≠ .notANumber) :
    UnpackedFloat.pack .binary64 (ofFields sign exponent mantissa) =
      packComponents .binary64 sign exponent mantissa := by
  have mantissaWidth := mantissa.isLt
  have exponentWidth := exponent.isLt
  unfold ofFields at number ⊢
  -- The exponent field tells infinities, small numbers and all others apart.
  split
  · rename_i top
    split
    · rename_i empty
      rw [top, empty]
      rfl
    · rename_i full
      simp [top, full] at number
  · rename_i finite
    have notTop : exponent.toNat ≠ 2047 := fun top => finite (BitVec.eq_of_toNat_eq top)
    split
    · rename_i smallest
      subst smallest
      split
      · rename_i empty
        rw [empty]
        rfl
      · -- Without a hidden bit the mantissa is its own field.
        rename_i filled
        have positive : mantissa.toNat ≠ 0 := fun zero => filled (BitVec.eq_of_toNat_eq zero)
        have fewerBits : ¬ mantissa.toNat.log2 + 1 = 53 := by
          have := (Nat.log2_lt positive).2 mantissaWidth
          omega
        rw [pack_finite, if_neg (by decide), if_neg fewerBits, BitVec.ofNat_toNat,
          BitVec.setWidth_eq]
    · -- The width of the field cuts the hidden bit off again.
      have allBits : (2 ^ 52 + mantissa.toNat).log2 = 52 :=
        (Nat.log2_eq_iff (by omega)).2 ⟨by omega, by omega⟩
      rw [pack_finite, if_neg (by omega), if_pos (by rw [allBits])]
      congr 1
      · exact BitVec.eq_of_toNat_eq (by rw [BitVec.toNat_ofNat]; omega)
      · exact BitVec.eq_of_toNat_eq (by rw [BitVec.toNat_ofNat]; omega)

/-- The three fields of a bit pattern make it up. -/
theorem packComponents_unpack (bits : BitVec 64) :
    packComponents .binary64 (.ofBitVec (@unpackSign .binary64 bits))
      (@unpackExponent .binary64 bits) (@unpackMantissa .binary64 bits) = bits := by
  have signBack : (Sign.ofBitVec (@unpackSign .binary64 bits)).toBitVec =
      @unpackSign .binary64 bits := by
    generalize @unpackSign .binary64 bits = sign
    revert sign
    decide
  -- Each bit belongs to one of the fields, by its position.
  apply BitVec.eq_of_getLsbD_eq
  intro place within
  have within : place < 64 := within
  simp only [packComponents, signBack]
  rw [BitVec.getLsbD_append, BitVec.getLsbD_append]
  unfold unpackMantissa unpackExponent unpackSign
  simp only [BitVec.getLsbD_cast, BitVec.getLsbD_extractLsb]
  split
  · simp
    omega
  · split
    · rw [show 52 + (place - 52) = place by omega]
      simp
      omega
    · rw [show 52 + 11 + (place - 52 - 11) = place by omega]
      simp
      omega

/-- Doubles with the same bits are the same. -/
theorem model_eq {left right : Float.Model} (bits : left.toBits = right.toBits) : left = right := by
  -- The bits are all that there is, beside a proof about them.
  cases left
  cases right
  cases bits
  rfl

/-- Packing what a double holds gives the double back. -/
theorem ofModel_pack_unpack (value : Float) :
    Float.ofModel (.pack value.toModel.unpack) = value := by
  -- A number is made up of its fields again.
  rcases value with ⟨⟨bits, valid⟩⟩
  have packed : UnpackedFloat.pack .binary64 (UnpackedFloat.unpack .binary64 bits.toBitVec) =
      bits.toBitVec := by
    rw [unpack_eq_ofFields]
    by_cases number : ofFields (.ofBitVec (@unpackSign .binary64 bits.toBitVec))
        (@unpackExponent .binary64 bits.toBitVec) (@unpackMantissa .binary64 bits.toBitVec) =
        .notANumber
    · -- Only one pattern that is no number is a double.
      rw [number]
      unfold ofFields at number
      split at number
      · rename_i top
        split at number
        · cases number
        · rename_i full
          exact (valid.eq_packedNaN top full).symm
      · split at number
        · split at number <;> cases number
        · cases number
    · rw [pack_ofFields number, packComponents_unpack]
  exact congrArg Float.ofModel (model_eq (UInt64.toBitVec_inj.1 packed))

/-- Doubles that hold the same are the same. -/
theorem eq_of_unpack_eq {a b : Float} (same : a.toModel.unpack = b.toModel.unpack) : a = b := by
  -- Packing what a double holds gives the double back.
  have packed := ofModel_pack_unpack a
  rw [same, ofModel_pack_unpack b] at packed
  exact packed.symm

/-- The exact value of a magnitude. -/
def size (mantissa : Nat) (exponent : Int) : ℚ := mantissa * 2 ^ exponent

/-- A magnitude with a mantissa is above zero. -/
theorem size_pos {mantissa : Nat} (exponent : Int) (positive : 0 < mantissa) :
    0 < size mantissa exponent := by
  -- Both factors are positive.
  unfold size
  positivity

/-- A whole number is a magnitude at the exponent zero. -/
theorem size_natCast (number : Nat) : size number 0 = number := by
  -- The exponent zero is the factor one.
  simp [size]

/-- A finer exponent counts more of its steps for the same value. -/
theorem size_scaled (mantissa shift : Nat) (exponent : Int) :
    size (mantissa * 2 ^ shift) (exponent - shift) = size mantissa exponent := by
  -- The powers of two cancel.
  unfold size
  push_cast
  rw [mul_assoc, ← zpow_natCast, ← zpow_add₀ (by norm_num)]
  congr 2
  omega

/-- Of two ways to write a value, the finer one is scaled from the other. -/
theorem eq_scaled_of_size_eq {M m : Nat} {E e : Int} (finer : E ≤ e) (same : size M E = size m e) :
    M = m * 2 ^ (e - E).toNat := by
  -- The common factor is the finer power of two.
  have split : (2 : ℚ) ^ e = 2 ^ (e - E).toNat * 2 ^ E := by
    rw [← zpow_natCast, ← zpow_add₀ (by norm_num)]
    congr 1
    omega
  unfold size at same
  rw [split, ← mul_assoc] at same
  exact_mod_cast mul_right_cancel₀ (by positivity) same

/-- Of two ways to write a value, the one with the larger mantissa is the finer one. -/
theorem le_of_size_eq {M m : Nat} {E e : Int} (same : size M E = size m e) (more : m ≤ M)
    (positive : 0 < m) : E ≤ e := by
  -- Otherwise the smaller mantissa would be at least twice the larger.
  by_contra later
  have scaled := eq_scaled_of_size_eq (by omega : e ≤ E) same.symm
  have doubled : 2 ≤ 2 ^ (E - e).toNat := by
    calc 2 = 2 ^ 1 := rfl
      _ ≤ 2 ^ (E - e).toNat := Nat.pow_le_pow_right (by decide) (by omega)
  nlinarith

/-- The leading bit of a magnitude bounds it from below. -/
theorem size_lower (m : Nat) (e : Int) (positive : 0 < m) :
    (2 : ℚ) ^ ((m.log2 : Int) + e) ≤ size m e := by
  -- Both sides have the power of the exponent in common.
  unfold size
  rw [zpow_add₀ (by norm_num), zpow_natCast]
  gcongr
  exact_mod_cast Nat.log2_self_le (by omega)

/-- The place above the leading bit of a magnitude bounds it from above. -/
theorem size_upper (m : Nat) (e : Int) : size m e < (2 : ℚ) ^ ((m.log2 : Int) + 1 + e) := by
  -- Both sides have the power of the exponent in common.
  unfold size
  rw [zpow_add₀ (by norm_num), show (m.log2 : Int) + 1 = ((m.log2 + 1 : Nat) : Int) by simp,
    zpow_natCast]
  gcongr
  exact_mod_cast Nat.lt_log2_self

section Canonical

variable {sign other : Sign} {m M : Nat} {e E : Int} {positive : 0 < m}

/-- A canonical number that is written finely enough rounds to itself. -/
theorem roundWithAccuracy_eq (canonical : Canonical (.finite sign m e positive)) (finer : E ≤ e)
    (same : size M E = size m e) :
    roundWithAccuracy .binary64 sign M E .exact = .finite sign m e positive := by
  obtain rfl := eq_scaled_of_size_eq finer same
  have reached := target_canonical canonical E finer
  obtain ⟨rounded, rounds, settles⟩ :=
    roundWithAccuracy_settles sign (m * 2 ^ (e - E).toNat) E (by omega)
  -- Nothing is lost in the shift, so the mantissa is the one it was.
  have exact := rounds.exact
  rw [reached] at exact settles
  have kept := exact (Nat.mul_mod_left _ _)
  rw [Nat.mul_div_cancel _ (Nat.two_pow_pos _)] at kept
  subst kept
  generalize roundWithAccuracy .binary64 sign (rounded * 2 ^ (e - E).toNat) E .exact = result at *
  cases settles with
  | zero empty => omega
  | finite => rfl
  | carried full => exact absurd canonical.1 (by omega)

/-- However a canonical number is written, it is rounded at its own exponent. -/
theorem target_of_size (canonical : Canonical (.finite sign m e positive))
    (same : size M E = size m e) : target M E = e := by
  -- One of the two exponents is the finer one.
  rcases Int.le_total E e with finer | coarser
  · rw [eq_scaled_of_size_eq finer same]
    exact target_canonical canonical E finer
  · -- Scaling down to the canonical exponent does not move the target.
    have scaled := eq_scaled_of_size_eq coarser same.symm
    have filled : 0 < M := Nat.pos_of_ne_zero fun none => by
      simp [none] at scaled
      omega
    have moved := target_scaled M (E - e).toNat E filled
    have own := target_canonical canonical e (Int.le_refl e)
    rw [show E - ((E - e).toNat : Int) = e by omega, ← scaled] at moved
    simpa [moved] using own

/-- Rounding keeps a canonical number, however it is written. -/
theorem round_eq_of_size (canonical : Canonical (.finite sign m e positive))
    (same : size M E = size m e) :
    UnpackedFloat.round .binary64 sign M E = .finite sign m e positive := by
  -- Rounding first scales the number to the target, which is its own exponent.
  have own := target_of_size canonical same
  have scaled := size_scaled M (E - target M E).toNat E
  rw [same] at scaled
  rw [Binary.round_eq]
  exact roundWithAccuracy_eq canonical (by omega) scaled

section Operands

variable {m₁ m₂ : Nat} {e₁ e₂ : Int} {left : 0 < m₁} {right : 0 < m₂}

/-- A product that is canonical is not changed by rounding. -/
theorem mul_eq (canonical : Canonical (.finite (sign * other) m e positive))
    (wide : 2 ^ 53 ≤ m₁ * m₂) (same : size m e = size m₁ e₁ * size m₂ e₂) :
    UnpackedFloat.mul .binary64 (.finite sign m₁ e₁ left) (.finite other m₂ e₂ right) =
      .finite (sign * other) m e positive := by
  -- The exact product has bits to spare, so it is written finely enough to be rounded to itself.
  have product : size (m₁ * m₂) (e₁ + e₂) = size m e := by
    rw [same]
    unfold size
    push_cast
    rw [zpow_add₀ (by norm_num)]
    ring
  have fits := canonical.1
  exact roundWithAccuracy_eq canonical (le_of_size_eq product (by omega) positive) product

/-- A quotient has at least as many leading bits as those of its operands say. -/
theorem log2_quotient (left : 0 < m₁) (right : 0 < m₂)
    (same : size m e * size m₂ e₂ = size m₁ e₁) :
    (m₁.log2 : Int) + e₁ < m.log2 + 1 + e + (m₂.log2 + 1 + e₂) := by
  -- Each side is compared as a power of two.
  rw [← zpow_lt_zpow_iff_right₀ (by norm_num : (1 : ℚ) < 2)]
  have divisor := size_pos e₂ right
  calc (2 : ℚ) ^ ((m₁.log2 : Int) + e₁)
      ≤ size m₁ e₁ := size_lower m₁ e₁ left
    _ = size m e * size m₂ e₂ := same.symm
    _ < 2 ^ ((m.log2 : Int) + 1 + e) * size m₂ e₂ := by
        gcongr
        exact size_upper m e
    _ < 2 ^ ((m.log2 : Int) + 1 + e) * 2 ^ ((m₂.log2 : Int) + 1 + e₂) := by
        gcongr
        exact size_upper m₂ e₂
    _ = 2 ^ ((m.log2 : Int) + 1 + e + (m₂.log2 + 1 + e₂)) := by
        rw [← zpow_add₀ (by norm_num)]

/-- A quotient that is canonical leaves no remainder and is not changed by rounding. -/
theorem div_eq (canonical : Canonical (.finite (sign / other) m e positive))
    (same : size m e * size m₂ e₂ = size m₁ e₁) :
    UnpackedFloat.div .binary64 (.finite sign m₁ e₁ left) (.finite other m₂ e₂ right) =
      .finite (sign / other) m e positive := by
  have magnitude := log2_quotient left right same
  have width := (Nat.log2_lt (by omega : m ≠ 0)).2 canonical.1
  have lowest := canonical.2.1
  -- The dividend is written so finely that the quotient has bits enough.
  generalize place : min (e₁ - e₂)
    (max ((m₁.log2 : Int) + 1 + e₁ - (m₂.log2 + 1 + e₂) - 53) (-1074)) = t
  have finer : t ≤ e := by omega
  have fine : t ≤ e₁ - e₂ := by omega
  have quotient :
      UnpackedFloat.div .binary64 (.finite sign m₁ e₁ left) (.finite other m₂ e₂ right) =
        roundWithAccuracy .binary64 (sign / other) (m₁ * 2 ^ (e₁ - e₂ - t).toNat / m₂) t
          (accuracyOfFraction (m₁ * 2 ^ (e₁ - e₂ - t).toNat % m₂) m₂) := by
    rw [← place, ← Nat.shiftLeft_eq]
    rfl
  have scaled : size (m₁ * 2 ^ (e₁ - e₂ - t).toNat) t = size (m * m₂) e := by
    have moved := size_scaled m₁ (e₁ - e₂ - t).toNat (e₁ - e₂)
    rw [show e₁ - e₂ - ((e₁ - e₂ - t).toNat : Int) = t by omega] at moved
    rw [moved]
    unfold size at same ⊢
    rw [zpow_sub₀ (by norm_num), ← mul_div_assoc, ← same]
    push_cast
    field_simp
  have whole : m₁ * 2 ^ (e₁ - e₂ - t).toNat = m * 2 ^ (e - t).toNat * m₂ := by
    rw [eq_scaled_of_size_eq finer scaled]
    ring
  have own := size_scaled m (e - t).toNat e
  rw [show e - ((e - t).toNat : Int) = t by omega] at own
  rw [quotient, whole, Nat.mul_mod_left, Nat.mul_div_cancel _ right]
  exact roundWithAccuracy_eq canonical finer own

end Operands

/-- A canonical number of at least one uses all bits of its mantissa. -/
theorem full_of_one_le (canonical : Canonical (.finite sign m e positive))
    (large : 1 ≤ size m e) : 2 ^ 52 ≤ m := by
  -- A number with fewer bits stands at the lowest exponent, far below one.
  obtain ⟨width, _, _, full⟩ := canonical
  have bits := (Nat.log2_lt (by omega : m ≠ 0)).2 width
  have above : (0 : Int) < m.log2 + 1 + e := by
    rw [← zpow_lt_zpow_iff_right₀ (by norm_num : (1 : ℚ) < 2), zpow_zero]
    exact lt_of_le_of_lt large (size_upper m e)
  omega

/-- Digits that are scaled down to a double are not scaled by many more places than they have
bits. -/
theorem places_lt_of_div {digits places : Nat} (positive : 0 < m) (lowest : -1074 ≤ e)
    (same : size m e = digits * 10 ^ (-(places : Int))) :
    (places : Int) < digits.log2 + 1075 := by
  -- No double is below the least one, and ten is above two.
  suffices below : (places : Int) + -1074 < digits.log2 + 1 + 0 by omega
  rw [← zpow_lt_zpow_iff_right₀ (by norm_num : (1 : ℚ) < 2)]
  have least : (2 : ℚ) ^ (-1074 : Int) ≤ size m e :=
    (zpow_le_zpow_right₀ (by norm_num) (by omega)).trans (size_lower m e positive)
  calc (2 : ℚ) ^ ((places : Int) + -1074)
      = 2 ^ places * 2 ^ (-1074 : Int) := by rw [zpow_add₀ (by norm_num), zpow_natCast]
    _ ≤ 10 ^ places * size m e := by
        gcongr
        norm_num
    _ = size digits 0 := by
        rw [same, size_natCast, zpow_neg, zpow_natCast]
        field_simp
    _ < 2 ^ ((digits.log2 : Int) + 1 + 0) := size_upper digits 0

/-- Digits that are scaled up to a double are not scaled by many places. -/
theorem places_lt_of_mul {digits places : Nat} (filled : 0 < digits) (bits : m.log2 ≤ 52)
    (highest : e ≤ 971) (same : size m e = digits * 10 ^ (places : Int)) :
    (places : Int) < 1024 := by
  -- No double is above the largest one, and ten is above two.
  suffices below : (places : Int) < m.log2 + 1 + e by omega
  rw [← zpow_lt_zpow_iff_right₀ (by norm_num : (1 : ℚ) < 2)]
  calc (2 : ℚ) ^ (places : Int)
      ≤ 10 ^ (places : Int) := by
        rw [zpow_natCast, zpow_natCast]
        gcongr
        norm_num
    _ ≤ digits * 10 ^ (places : Int) :=
      le_mul_of_one_le_left (by positivity) (by exact_mod_cast filled)
    _ = size m e := same.symm
    _ < 2 ^ ((m.log2 : Int) + 1 + e) := size_upper m e

/-- Digits that are scaled by a power of ten to a canonical number convert to it. -/
theorem ofScientific_eq_finite {digits : Nat} {scale : Int}
    (canonical : Canonical (.finite .positive m e positive)) (filled : 0 < digits)
    (same : size m e = digits * 10 ^ scale) :
    UnpackedFloat.ofScientific .binary64 digits scale = .finite .positive m e positive := by
  obtain ⟨width, lowest, highest, _⟩ := id canonical
  have bits := (Nat.log2_lt (by omega : m ≠ 0)).2 width
  have range : (2 : Int) ^ Float.Model.Format.binary64.exponentBits = 2048 := by decide
  simp only [UnpackedFloat.ofScientific, range]
  rw [dif_neg (by omega)]
  -- The digits are divided or multiplied, and the scale is within the range that is looked at.
  rcases Int.lt_or_le scale 0 with down | up
  · obtain ⟨places, rfl⟩ := Int.exists_eq_neg_ofNat (Int.le_of_lt down)
    have reach := places_lt_of_div positive lowest same
    rw [if_neg (by omega), if_neg (by omega), if_neg (by omega)]
    apply div_eq canonical
    rw [same, neg_neg, Int.toNat_natCast, size_natCast, size_natCast, zpow_neg, zpow_natCast]
    push_cast
    field_simp
  · obtain ⟨places, rfl⟩ := Int.eq_ofNat_of_zero_le up
    have reach := places_lt_of_mul filled (by omega) highest same
    rw [if_neg (by omega), if_neg (by omega), if_pos up]
    apply mul_eq canonical
    · rw [Nat.shiftLeft_eq]
      calc 2 ^ 53 ≤ digits * 2 ^ 53 := Nat.le_mul_of_pos_left _ filled
        _ ≤ digits * 2 ^ 53 * 10 ^ (places : Int).toNat :=
          Nat.le_mul_of_pos_right _ (Nat.pow_pos (by decide))
    · have scaled := size_scaled digits 53 0
      rw [size_natCast] at scaled
      rw [same, Nat.shiftLeft_eq, size_natCast, Int.toNat_natCast]
      show _ = size (digits * 2 ^ 53) (-53) * _
      rw [show (-53 : Int) = 0 - (53 : Nat) by norm_num, scaled]
      push_cast
      rfl

end Canonical

/-- The double is positive and has the fraction as its exact value. -/
def Holds (value : Float) (fraction : ℚ) : Prop :=
  ∃ mantissa exponent positive,
    value.toModel.unpack = .finite .positive mantissa exponent positive ∧
      size mantissa exponent = fraction

namespace Holds

/-- What a positive double holds is canonical. -/
theorem canonical {value : Float} {fraction : ℚ} (holds : Holds value fraction) :
    ∃ m e positive, value.toModel.unpack = .finite .positive m e positive ∧
      Canonical (.finite .positive m e positive) ∧ size m e = fraction := by
  -- What a double holds is canonical.
  obtain ⟨m, e, positive, unpacked, exact⟩ := holds
  have canonical : Canonical value.toModel.unpack := canonical_unpack _
  rw [unpacked] at canonical
  exact ⟨m, e, positive, unpacked, canonical, exact⟩

/-- What a positive double holds is above zero. -/
theorem pos {value : Float} {fraction : ℚ} (holds : Holds value fraction) : 0 < fraction := by
  -- A positive mantissa has a positive size.
  obtain ⟨m, e, positive, _, rfl⟩ := holds
  exact size_pos e positive

/-- A product of doubles that is itself a double is that double. -/
theorem mul {a b c : Float} {p q : ℚ} (left : Holds a p) (right : Holds b q)
    (product : Holds c (p * q)) (large : 1 ≤ p) (great : 1 ≤ q) : a * b = c := by
  -- Both mantissas are full, so their product has more bits than a mantissa holds.
  obtain ⟨m₁, e₁, _, leftUnpacked, leftCanonical, rfl⟩ := left.canonical
  obtain ⟨m₂, e₂, _, rightUnpacked, rightCanonical, rfl⟩ := right.canonical
  obtain ⟨m, e, _, unpacked, canonical, same⟩ := product.canonical
  have wide : 2 ^ 53 ≤ m₁ * m₂ := by
    have := Nat.mul_le_mul (full_of_one_le leftCanonical large)
      (full_of_one_le rightCanonical great)
    omega
  show Float.ofModel (.pack (.mul .binary64 a.toModel.unpack b.toModel.unpack)) = c
  rw [leftUnpacked, rightUnpacked, mul_eq canonical wide same]
  exact unpacked ▸ ofModel_pack_unpack c

/-- A quotient of doubles that is itself a double is that double. -/
theorem div {a b c : Float} {p q r : ℚ} (left : Holds a p) (right : Holds b q)
    (quotient : Holds c r) (same : r * q = p) : a / b = c := by
  -- The quotient is exact, so nothing is rounded off.
  obtain ⟨m₁, e₁, _, leftUnpacked, rfl⟩ := left
  obtain ⟨m₂, e₂, _, rightUnpacked, rfl⟩ := right
  obtain ⟨m, e, _, unpacked, canonical, rfl⟩ := quotient.canonical
  show Float.ofModel (.pack (.div .binary64 a.toModel.unpack b.toModel.unpack)) = c
  rw [leftUnpacked, rightUnpacked, div_eq canonical same]
  exact unpacked ▸ ofModel_pack_unpack c

/-- What compares equal to a positive double is that double. -/
theorem eq_of_beq {a b : Float} {fraction : ℚ} (holds : Holds b fraction)
    (same : (a == b) = true) : a = b := by
  obtain ⟨m, e, positive, unpacked, _⟩ := holds
  rw [show (a == b) = (a.toModel.unpack.compare b.toModel.unpack == some .eq) from rfl,
    beq_iff_eq, unpacked] at same
  -- Only a finite number of the same sign, exponent and mantissa compares equal.
  have unpackedSame : a.toModel.unpack = .finite .positive m e positive := by
    cases held : a.toModel.unpack with
    | notANumber => simp [held, UnpackedFloat.compare] at same
    | infinity sign => cases sign <;> simp [held, UnpackedFloat.compare] at same
    | zero sign => simp [held, UnpackedFloat.compare] at same
    | finite sign n f filled =>
      rw [held] at same
      cases sign with
      | negative => simp [UnpackedFloat.compare] at same
      | positive =>
        simp only [UnpackedFloat.compare, Option.some.injEq, Ordering.then_eq_eq,
          Int.compare_eq_eq, Nat.compare_eq_eq] at same
        obtain ⟨rfl, rfl⟩ := same
        rfl
  exact eq_of_unpack_eq (unpackedSame.trans unpacked.symm)

end Holds

/-- Whole numbers of at most fifty-three bits are doubles. -/
theorem holds_toFloat {number : Nat} (positive : 0 < number) (small : number < 2 ^ 53) :
    Holds number.toUInt64.toFloat number := by
  have bits := (Nat.log2_lt (by omega : number ≠ 0)).2 small
  have filled : 0 < number * 2 ^ (52 - number.log2) := Nat.mul_pos positive (Nat.two_pow_pos _)
  have log : (number * 2 ^ (52 - number.log2)).log2 = 52 := by
    rw [log2_scaled _ _ positive]
    omega
  -- Moving the leading bit to the top of the mantissa gives the canonical form.
  have bounds := (Nat.log2_eq_iff (by omega)).1 log
  have canonical : Canonical (.finite .positive (number * 2 ^ (52 - number.log2))
      (0 - (52 - number.log2 : Nat)) filled) := ⟨bounds.2, by omega, by omega, .inl bounds.1⟩
  have scaled := size_scaled number (52 - number.log2) 0
  refine ⟨_, (0 : Int) - (52 - number.log2 : Nat), filled, ?_, ?_⟩
  · have wrapped : number.toUInt64.toNat = number := by
      simp
      omega
    rw [← stored_finite _ _ _ _ canonical, ← round_eq_of_size canonical scaled.symm,
      ← normalize_positive _ _ positive]
    show stored (UnpackedFloat.normalize .binary64 (number.toUInt64.toNat : Int) 0 .positive) = _
    rw [wrapped]
  · rw [scaled, size_natCast]

/-- The tabulated powers of ten are exact. -/
theorem holds_powerOfTen (exponent : Nat)
    (tabulated : exponent < Float.exactlyRepresentablePowersOfTen.size) :
    Holds Float.exactlyRepresentablePowersOfTen[exponent] (10 ^ exponent) := by
  -- Each entry is looked up, and its value is compared in whole numbers.
  have entry : ∀ index : Fin 23, ∃ mantissa exponent positive,
      Float.exactlyRepresentablePowersOfTen[index].toModel.unpack =
        .finite .positive mantissa exponent positive ∧
      mantissa * 2 ^ exponent.toNat = 10 ^ index.1 * 2 ^ (-exponent).toNat := by
    intro index
    fin_cases index <;> exact ⟨_, _, _, rfl, rfl⟩
  obtain ⟨m, e, positive, unpacked, same⟩ := entry ⟨exponent, tabulated⟩
  refine ⟨m, e, positive, unpacked, ?_⟩
  have cast : (m : ℚ) * 2 ^ e.toNat = 10 ^ exponent * 2 ^ (-e).toNat := by exact_mod_cast same
  unfold size
  rcases Int.le_total 0 e with up | down
  · obtain ⟨shift, rfl⟩ := Int.eq_ofNat_of_zero_le up
    simpa using cast
  · obtain ⟨shift, rfl⟩ := Int.exists_eq_neg_ofNat down
    rw [zpow_neg, zpow_natCast, ← div_eq_mul_inv, div_eq_iff (by positivity)]
    simpa using cast

/-- A literal whose value is a double reads as that double. -/
theorem ofScientific_eq {value : Float} {digits : Nat} {scale : Int}
    (holds : Holds value (digits * 10 ^ scale)) :
    Float.ofScientific digits (decide (scale < 0)) scale.natAbs = value := by
  have positive : 0 < digits := Nat.pos_of_ne_zero fun none => by
    have := holds.pos
    simp [none] at this
  have exactly :
      Float.ofModel (.pack (UnpackedFloat.ofScientific .binary64 digits scale)) = value := by
    obtain ⟨m, e, filled, unpacked, canonical, same⟩ := holds.canonical
    rw [ofScientific_eq_finite canonical positive same]
    exact unpacked ▸ ofModel_pack_unpack value
  -- Few digits and a small power of ten are two doubles, which are divided or multiplied.
  unfold Float.ofScientific
  rcases Int.lt_or_le scale 0 with down | up
  · obtain ⟨places, rfl⟩ := Int.exists_eq_neg_ofNat (Int.le_of_lt down)
    simp only [decide_eq_true down, if_true, Int.natAbs_neg, Int.natAbs_natCast, Int.negOfNat_eq]
    split
    · rename_i small
      refine (holds_toFloat positive small.1).div (holds_powerOfTen places _) holds ?_
      rw [zpow_neg, zpow_natCast]
      field_simp
    · exact exactly
  · obtain ⟨places, rfl⟩ := Int.eq_ofNat_of_zero_le up
    simp only [decide_eq_false (Int.not_lt.2 up), Bool.false_eq_true, if_false,
      Int.natAbs_natCast]
    split
    · rename_i small
      exact (holds_toFloat positive small.1).mul (holds_powerOfTen places _)
        (by exact_mod_cast holds) (by exact_mod_cast positive) (one_le_pow₀ (by norm_num))
    · exact exactly

end Calculator.Binary
