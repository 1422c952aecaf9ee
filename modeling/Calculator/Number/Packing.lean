/-! The fields of a double decode to a canonical number, and packing such a number loses nothing. -/

namespace Calculator.Binary

-- Powers are the core library's own, also where another library has instances for them.
attribute [local instance (2000)] instPowNat

open Float.Model (Format UnpackedFloat)
open Float.Model.UnpackedFloat

/-- A number as a double holds it: fifty-three bits, all of them used unless the exponent is the
smallest. -/
def Canonical : UnpackedFloat → Prop
  | .finite _ mantissa exponent _ =>
    mantissa < 2 ^ (53 : Nat) ∧ -1074 ≤ exponent ∧ exponent ≤ 971 ∧
      (2 ^ (52 : Nat) ≤ mantissa ∨ exponent = -1074)
  | .infinity _ | .zero _ | .notANumber => True

/-- The number with given sign, exponent and mantissa fields. -/
def ofFields (sign : Sign) (exponent : BitVec 11) (mantissa : BitVec 52) : UnpackedFloat :=
  if exponent = -1#11 then if mantissa = 0#52 then .infinity sign else .notANumber
  else if exponent = 0#11 then
    if empty : mantissa = 0#52 then .zero sign
    else .finite sign mantissa.toNat (-1074)
      (by simpa [BitVec.toNat_pos, BitVec.pos_iff_ne_zero])
  else .finite sign (2 ^ (52 : Nat) + mantissa.toNat) ((exponent.toNat : Int) - 1075) (by omega)

/-- Fields always hold a canonical number. -/
theorem canonical_ofFields (sign : Sign) (exponent : BitVec 11) (mantissa : BitVec 52) :
    Canonical (ofFields sign exponent mantissa) := by
  -- The widths of the fields bound the mantissa and the exponent.
  have mantissaWidth := mantissa.isLt
  have exponentWidth := exponent.isLt
  unfold ofFields
  by_cases top : exponent = -1#11
  · rw [if_pos top]
    by_cases empty : mantissa = 0#52
    · rw [if_pos empty]
      trivial
    · rw [if_neg empty]
      trivial
  · have notTop : exponent.toNat ≠ 2047 := fun field => top (BitVec.eq_of_toNat_eq field)
    rw [if_neg top]
    by_cases smallest : exponent = 0#11
    · rw [if_pos smallest]
      by_cases empty : mantissa = 0#52
      · rw [dif_pos empty]
        trivial
      · rw [dif_neg empty]
        exact ⟨by omega, by omega, by omega, .inr rfl⟩
    · have notZero : exponent.toNat ≠ 0 := fun field => smallest (BitVec.eq_of_toNat_eq field)
      rw [if_neg smallest]
      exact ⟨by omega, by omega, by omega, .inl (by omega)⟩

/-- Finite numbers with the same sign, mantissa and exponent are the same. -/
theorem finite_eq {sign : Sign} {m n : Nat} {e f : Int} {left : 0 < m} {right : 0 < n}
    (mantissa : m = n) (exponent : e = f) :
    UnpackedFloat.finite sign m e left = .finite sign n f right := by
  -- The two proofs of positivity are equal once the numbers are.
  subst mantissa exponent
  rfl

/-- The hidden bit stands above the mantissa field. -/
theorem toNat_hiddenBit (mantissa : BitVec 52) :
    (1#1 ++ mantissa).toNat = 2 ^ (52 : Nat) + mantissa.toNat := by
  -- The field leaves the place of the hidden bit free, so putting them side by side adds them.
  rw [BitVec.toNat_append, ← Nat.shiftLeft_add_eq_or_of_lt mantissa.isLt]
  simp [Nat.shiftLeft_eq]

/-- Unpacking reads the three fields. -/
theorem unpack_eq_ofFields (bits : BitVec 64) :
    UnpackedFloat.unpack .binary64 bits =
      ofFields (.ofBitVec (@unpackSign .binary64 bits)) (@unpackExponent .binary64 bits)
        (@unpackMantissa .binary64 bits) := by
  -- Both sides branch on the exponent field alike; the bias is written out.
  unfold UnpackedFloat.unpack ofFields
  by_cases top : @unpackExponent .binary64 bits = -1#11
  · exact (if_pos top).trans (if_pos top).symm
  · refine (if_neg top).trans (Eq.trans ?_ (if_neg top).symm)
    by_cases smallest : @unpackExponent .binary64 bits = 0#11
    · refine (if_pos smallest).trans (Eq.trans ?_ (if_pos smallest).symm)
      by_cases empty : @unpackMantissa .binary64 bits = 0#52
      · refine (dif_pos empty).trans ?_
        rw [dif_pos empty]
      · refine (dif_neg empty).trans ?_
        rw [dif_neg empty]
        refine finite_eq rfl ?_
        rw [smallest]
        rfl
    · refine (if_neg smallest).trans (Eq.trans ?_ (if_neg smallest).symm)
      exact finite_eq (toNat_hiddenBit _) rfl

/-- A double always holds a canonical number. -/
theorem canonical_unpack (bits : BitVec 64) :
    Canonical (UnpackedFloat.unpack .binary64 bits) := by
  -- Whatever the bits are, they are read as three fields.
  rw [unpack_eq_ofFields]
  exact canonical_ofFields _ _ _

/-- The sign field of packed components is their sign. -/
theorem unpackSign_packComponents {spec : Format} {sign : Sign}
    {exponent : BitVec spec.exponentBits} {mantissa : BitVec spec.mantissaBitsWithoutImplicit} :
    unpackSign (packComponents spec sign exponent mantissa) = sign.toBitVec := by
  -- The sign is the single bit above the two other fields.
  ext place within
  have first : place = 0 := by omega
  subst first
  unfold unpackSign packComponents
  simp [BitVec.getLsbD_append, BitVec.getElem_append]

/-- Unpacking packed components gives the number with these fields. -/
theorem unpack_packComponents (sign : Sign) (exponent : BitVec 11) (mantissa : BitVec 52) :
    UnpackedFloat.unpack .binary64 (packComponents .binary64 sign exponent mantissa) =
      ofFields sign exponent mantissa := by
  -- Each field is read back where it was put.
  have signBack : Sign.ofBitVec sign.toBitVec = sign := by cases sign <;> rfl
  rw [unpack_eq_ofFields, unpackMantissa_packComponents, unpackExponent_packComponents,
    unpackSign_packComponents, signBack]

/-- How a finite number is packed, with the bias written out. -/
theorem pack_finite (sign : Sign) (mantissa : Nat) (exponent : Int) (positive : 0 < mantissa) :
    UnpackedFloat.pack .binary64 (.finite sign mantissa exponent positive) =
      if 2 ^ (11 : Nat) ≤ (exponent + 1075).toNat + 1 then packedInfinity .binary64 sign
      else if mantissa.log2 + 1 = 53 then
        packComponents .binary64 sign (BitVec.ofNat 11 (exponent + 1075).toNat)
          (BitVec.ofNat 52 mantissa)
      else packComponents .binary64 sign 0#11 (BitVec.ofNat 52 mantissa) := by
  -- The bias and the width of the mantissa add up to 1075.
  have biased : exponent + ((1023 : Nat) : Int) + ((52 : Nat) : Int) = exponent + 1075 := by omega
  rw [← biased]
  rfl

/-- What is read back after a number is packed into a double. -/
abbrev stored (number : UnpackedFloat) : UnpackedFloat :=
  UnpackedFloat.unpack .binary64 (UnpackedFloat.pack .binary64 number)

/-- Zeros are kept. -/
theorem stored_zero (sign : Sign) : stored (.zero sign) = .zero sign := by
  -- Both zeros have fields of their own.
  cases sign <;> rfl

/-- Infinities are kept. -/
theorem stored_infinity (sign : Sign) : stored (.infinity sign) = .infinity sign := by
  -- Both infinities have fields of their own.
  cases sign <;> rfl

/-- What is no number stays none. -/
theorem stored_notANumber : stored .notANumber = .notANumber := rfl

/-- Numbers with too large an exponent become infinite. -/
theorem stored_overflow (sign : Sign) (mantissa : Nat) (exponent : Int) (positive : 0 < mantissa)
    (large : 972 ≤ exponent) :
    stored (.finite sign mantissa exponent positive) = .infinity sign := by
  -- The biased exponent reaches the field value that is set apart for infinities.
  rw [stored, pack_finite, if_pos (by omega)]
  exact stored_infinity sign

/-- Canonical finite numbers are kept. -/
theorem stored_finite (sign : Sign) (mantissa : Nat) (exponent : Int) (positive : 0 < mantissa)
    (canonical : Canonical (.finite sign mantissa exponent positive)) :
    stored (.finite sign mantissa exponent positive) =
      .finite sign mantissa exponent positive := by
  -- Full mantissas keep their hidden bit out of the field, and others have the smallest exponent.
  obtain ⟨width, lowest, highest, full⟩ := canonical
  rw [stored, pack_finite, if_neg (by omega)]
  by_cases normal : 2 ^ (52 : Nat) ≤ mantissa
  -- The hidden bit is dropped from the field and put back on reading.
  · have allBits : mantissa.log2 + 1 = 53 := by
      rw [(Nat.log2_eq_iff (by omega)).2 ⟨normal, width⟩]
    have field : (BitVec.ofNat 11 (exponent + 1075).toNat).toNat = (exponent + 1075).toNat := by
      rw [BitVec.toNat_ofNat, Nat.mod_eq_of_lt (by omega)]
    have notTop : ¬ BitVec.ofNat 11 (exponent + 1075).toNat = -1#11 := by
      intro top
      have : 2047 = (exponent + 1075).toNat := (congrArg BitVec.toNat top).symm.trans field
      omega
    have notZero : ¬ BitVec.ofNat 11 (exponent + 1075).toNat = 0#11 := by
      intro zero
      have : 0 = (exponent + 1075).toNat := (congrArg BitVec.toNat zero).symm.trans field
      omega
    rw [if_pos allBits, unpack_packComponents, ofFields, if_neg notTop, if_neg notZero]
    refine finite_eq ?_ ?_
    · rw [BitVec.toNat_ofNat]
      omega
    · rw [field]
      omega
  -- Without a hidden bit the field holds the whole mantissa, at the smallest exponent.
  · have fewerBits : ¬ mantissa.log2 + 1 = 53 := by
      have : mantissa.log2 < 52 := (Nat.log2_lt (by omega)).2 (by omega)
      omega
    have field : (BitVec.ofNat 52 mantissa).toNat = mantissa := by
      rw [BitVec.toNat_ofNat, Nat.mod_eq_of_lt (by omega)]
    have notZero : ¬ BitVec.ofNat 52 mantissa = 0#52 := by
      intro zero
      have : 0 = mantissa := (congrArg BitVec.toNat zero).symm.trans field
      omega
    rw [if_neg fewerBits, unpack_packComponents, ofFields, if_neg (by decide), if_pos rfl,
      dif_neg notZero]
    exact finite_eq field (by omega)

/-- What a double holds is kept. -/
theorem stored_unpack (bits : BitVec 64) :
    stored (UnpackedFloat.unpack .binary64 bits) = UnpackedFloat.unpack .binary64 bits := by
  -- A double holds a canonical number, and those are kept.
  have canonical := canonical_unpack bits
  cases held : UnpackedFloat.unpack .binary64 bits with
  | notANumber => exact stored_notANumber
  | infinity sign => exact stored_infinity sign
  | zero sign => exact stored_zero sign
  | finite sign mantissa exponent positive =>
    rw [held] at canonical
    exact stored_finite sign mantissa exponent positive canonical

end Calculator.Binary
