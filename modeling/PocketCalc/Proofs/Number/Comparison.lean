import PocketCalc.Number.Binary.Fields
import PocketCalc.Proofs.Number.Decimal

/-!
Contract: the order of doubles that are not negative is that of their magnitude words.

Owns:
- the unpacked form of such a double: its significand, and its doublings as the exponent;
- the order of two of them, infinity included.

Does not own: negative doubles, whose order is the other way.
-/

namespace PocketCalc.Number

open Float.Model UnpackedFloat

/-! ## Unpacked patterns -/

section

variable {pattern : BitVec 64} (bound : pattern.toNat ≤ infinityWord)

include bound

private theorem sign_eq_positive :
    Sign.ofBitVec (@UnpackedFloat.unpackSign Format.binary64 pattern) = .positive := by
  unfold infinityWord at bound
  refine if_pos (BitVec.eq_of_toNat_eq ?_)
  rw [toNat_unpackSign, Nat.div_eq_of_lt (by omega)]
  rfl

private theorem exponent_eq_last_iff :
    @UnpackedFloat.unpackExponent Format.binary64 pattern = -1#11 ↔
      pattern.toNat = infinityWord := by
  rw [← BitVec.toNat_inj, toNat_unpackExponent]
  show _ = 2047 ↔ _
  unfold infinityWord at *
  omega

omit bound in
private theorem mantissa_eq_zero_iff :
    @UnpackedFloat.unpackMantissa Format.binary64 pattern = 0#52 ↔ pattern.toNat % 2 ^ 52 = 0 := by
  rw [← BitVec.toNat_inj, toNat_unpackMantissa]
  rfl

private theorem exponent_eq_zero_iff :
    @UnpackedFloat.unpackExponent Format.binary64 pattern = 0#11 ↔ pattern.toNat < 2 ^ 52 := by
  rw [← BitVec.toNat_inj, toNat_unpackExponent]
  show _ = 0 ↔ _
  unfold infinityWord at bound
  omega

end

theorem unpack_infinityWord {pattern : BitVec 64} (infinite : pattern.toNat = infinityWord) :
    UnpackedFloat.unpack Format.binary64 pattern = .infinity .positive := by
  have noFraction : pattern.toNat % 2 ^ 52 = 0 := by
    rw [infinite]
    rfl
  unfold UnpackedFloat.unpack
  dsimp only
  rw [sign_eq_positive infinite.le, if_pos ((exponent_eq_last_iff infinite.le).mpr infinite)]
  exact if_pos (mantissa_eq_zero_iff.mpr noFraction)

theorem unpack_zero {pattern : BitVec 64} (zero : pattern.toNat = 0) :
    UnpackedFloat.unpack Format.binary64 pattern = .zero .positive := by
  have patternEq : pattern = 0#64 := BitVec.eq_of_toNat_eq zero
  rw [patternEq]
  rfl

theorem unpack_finite {pattern : BitVec 64} (nonzero : pattern.toNat ≠ 0)
    (finite : pattern.toNat < infinityWord) :
    UnpackedFloat.unpack Format.binary64 pattern =
      .finite .positive (significand pattern.toNat) (doublings pattern.toNat - 1074)
        (significand_pos nonzero) := by
  have notLast := mt (exponent_eq_last_iff finite.le).mp finite.ne
  have exponentEq := toNat_unpackExponent pattern
  have mantissaEq := toNat_unpackMantissa pattern
  unfold UnpackedFloat.unpack
  dsimp only
  rw [sign_eq_positive finite.le, if_neg notLast]
  unfold infinityWord at finite
  by_cases subnormal : pattern.toNat < 2 ^ 52
  · have someFraction : ¬pattern.toNat % 2 ^ 52 = 0 := by
      rw [Nat.mod_eq_of_lt subnormal]
      exact nonzero
    rw [if_pos ((exponent_eq_zero_iff (by unfold infinityWord; omega)).mpr subnormal),
      dif_neg (mt mantissa_eq_zero_iff.mp someFraction)]
    congr 1
    · rw [mantissaEq, Nat.mod_eq_of_lt subnormal]
      exact (if_pos subnormal).symm
    · rw [exponentEq, doublings]
      show ((_ : ℕ) : ℤ) - (1023 + 52) + 1 = _
      omega
  · rw [if_neg (mt (exponent_eq_zero_iff (by unfold infinityWord; omega)).mp subnormal)]
    congr 1
    · have joined : (1#1 ++ @UnpackedFloat.unpackMantissa Format.binary64 pattern).toNat =
          2 ^ 52 ||| (@UnpackedFloat.unpackMantissa Format.binary64 pattern).toNat := rfl
      rw [joined, Nat.or_comm, Nat.or_two_pow_eq_add_of_lt (BitVec.isLt _), mantissaEq,
        Nat.add_comm]
      exact (if_neg subnormal).symm
    · rw [exponentEq, doublings]
      show ((_ : ℕ) : ℤ) - (1023 + 52) = _
      omega

/-! ## The order -/

/-- Greater words have more doublings, or as many and a greater significand. -/
private theorem doublings_lt_or {word greater : Nat} (le : word ≤ greater) :
    doublings word < doublings greater ∨
      (doublings word = doublings greater ∧ significand word ≤ significand greater) := by
  unfold doublings significand
  split <;> split <;> omega

theorem magnitudeWord_of_not_negative {value : Float} (sign : isNegative value = false) :
    magnitudeWord value = value.toBits.toBitVec.toNat := by
  have small := of_decide_eq_false sign
  rw [UInt64.toNat_toBitVec, magnitudeWord]
  exact Nat.mod_eq_of_lt (Nat.lt_of_not_le small)

/-- Unpacked patterns without a sign bit are ordered as the patterns are. -/
private theorem unpack_le {smaller greater : BitVec 64} (le : smaller.toNat ≤ greater.toNat)
    (bound : greater.toNat ≤ infinityWord) :
    (UnpackedFloat.unpack Format.binary64 smaller).le
      (UnpackedFloat.unpack Format.binary64 greater) = true := by
  rcases Nat.lt_or_eq_of_le bound with greaterFinite | greaterInfinite
  · by_cases greaterZero : greater.toNat = 0
    · rw [unpack_zero greaterZero, unpack_zero (by omega)]
      rfl
    · rw [unpack_finite greaterZero greaterFinite]
      by_cases smallerZero : smaller.toNat = 0
      · rw [unpack_zero smallerZero]
        rfl
      · rw [unpack_finite smallerZero (by omega)]
        show ((compare ((doublings smaller.toNat : ℤ) - 1074) (doublings greater.toNat - 1074)).then
          (compare (significand smaller.toNat) (significand greater.toNat))).isLE = true
        rw [Ordering.isLE_then_iff_or, Int.compare_eq_lt, Int.compare_eq_eq, Nat.isLE_compare]
        have ordered := doublings_lt_or le
        omega
  · rw [unpack_infinityWord greaterInfinite]
    rcases Nat.lt_or_eq_of_le (le.trans bound) with smallerFinite | smallerInfinite
    · by_cases smallerZero : smaller.toNat = 0
      · rw [unpack_zero smallerZero]
        rfl
      · rw [unpack_finite smallerZero smallerFinite]
        rfl
    · rw [unpack_infinityWord smallerInfinite]
      rfl

/-- Two doubles that are not negative are ordered as their magnitude words are. -/
theorem le_of_magnitudeWord_le {smaller greater : Float} (smallerSign : isNegative smaller = false)
    (greaterSign : isNegative greater = false) (bound : magnitudeWord greater ≤ infinityWord)
    (le : magnitudeWord smaller ≤ magnitudeWord greater) : smaller ≤ greater := by
  have smallerEq := magnitudeWord_of_not_negative smallerSign
  have greaterEq := magnitudeWord_of_not_negative greaterSign
  rw [greaterEq] at bound
  rw [smallerEq, greaterEq] at le
  exact decide_eq_true (unpack_le le bound)

end PocketCalc.Number
