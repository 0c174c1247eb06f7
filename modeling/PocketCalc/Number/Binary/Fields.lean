import Mathlib
import PocketCalc.Number.Binary

/-!
Contract: a double is determined by its sign and its magnitude word.

Owns:
- `toBits_ofBits`, which reads a pattern back;
- `ofMagnitude_magnitudeWord` and its converses, which make sign and magnitude word a second form
  of every double but the one that is not a number.

Does not own: the values of magnitude words; see `Number/Binary`.

A double of the logic holds its bit pattern, in which the value that is not a number has one
pattern only. Every other pattern is read back as it is.
-/

namespace PocketCalc.Number

open Float.Model

/-! ## Doubles and their patterns -/

theorem toNat_unpackMantissa (pattern : BitVec 64) :
    (@UnpackedFloat.unpackMantissa Format.binary64 pattern).toNat = pattern.toNat % 2 ^ 52 := by
  rw [UnpackedFloat.unpackMantissa_def, BitVec.extractLsb'_toNat]
  rfl

theorem toNat_unpackExponent (pattern : BitVec 64) :
    (@UnpackedFloat.unpackExponent Format.binary64 pattern).toNat =
      pattern.toNat / 2 ^ 52 % 2 ^ 11 := by
  rw [UnpackedFloat.unpackExponent_def, BitVec.extractLsb'_toNat, Nat.shiftRight_eq_div_pow]

theorem toNat_unpackSign (pattern : BitVec 64) :
    (@UnpackedFloat.unpackSign Format.binary64 pattern).toNat = pattern.toNat / 2 ^ 63 % 2 := by
  rw [UnpackedFloat.unpackSign_def, BitVec.extractLsb'_toNat, Nat.shiftRight_eq_div_pow]
  rfl

/-- A pattern whose magnitude word is at most that of infinity is read back. -/
theorem toBits_ofBits {pattern : UInt64}
    (bound : pattern.toNat % 0x8000000000000000 ≤ infinityWord) :
    (Float.ofBits pattern).toBits = pattern := by
  have valid : Format.binary64.Valid pattern.toBitVec := by
    constructor
    intro exponentLast fractionNonzero
    exfalso
    have exponentEq := toNat_unpackExponent pattern.toBitVec
    have fractionEq := toNat_unpackMantissa pattern.toBitVec
    have fractionPositive :
        (@UnpackedFloat.unpackMantissa Format.binary64 pattern.toBitVec).toNat ≠ 0 := by
      intro zero
      exact fractionNonzero (BitVec.eq_of_toNat_eq zero)
    have exponentNat : 2 ^ 11 - 1 = pattern.toNat / 2 ^ 52 % 2 ^ 11 := by
      rw [exponentLast] at exponentEq
      exact exponentEq
    have fractionNat : pattern.toNat % 2 ^ 52 ≠ 0 := by
      rw [fractionEq] at fractionPositive
      exact fractionPositive
    unfold infinityWord at bound
    omega
  exact congrArg UInt64.ofBitVec (UnpackedFloat.pack_unpack_of_valid valid)

/-! ## Sign and magnitude word -/

private theorem toBits_ofMagnitude {negative : Bool} {word : Nat} (bound : word ≤ infinityWord) :
    (ofMagnitude negative word).toBits.toNat =
      word + if negative then 0x8000000000000000 else 0 := by
  have wordLt : word < 0x8000000000000000 := by
    unfold infinityWord at bound
    omega
  have patternEq :
      (UInt64.ofNat (word + if negative then 0x8000000000000000 else 0)).toNat =
        word + if negative then 0x8000000000000000 else 0 := by
    apply UInt64.toNat_ofNat_of_lt'
    show _ < 2 ^ 64
    split <;> omega
  have reduced :
      (word + if negative then 0x8000000000000000 else 0) % 0x8000000000000000 = word := by
    split <;> omega
  unfold ofMagnitude
  rw [toBits_ofBits, patternEq]
  rw [patternEq, reduced]
  exact bound

/-- The magnitude word of a double made of a word is that word. -/
theorem magnitudeWord_ofMagnitude {negative : Bool} {word : Nat} (bound : word ≤ infinityWord) :
    magnitudeWord (ofMagnitude negative word) = word := by
  have wordLt : word < 0x8000000000000000 := by
    unfold infinityWord at bound
    omega
  unfold magnitudeWord
  rw [toBits_ofMagnitude bound]
  split <;> omega

/-- The sign of a double made with a sign is that sign. -/
theorem isNegative_ofMagnitude {negative : Bool} {word : Nat} (bound : word ≤ infinityWord) :
    isNegative (ofMagnitude negative word) = negative := by
  have wordLt : word < 0x8000000000000000 := by
    unfold infinityWord at bound
    omega
  unfold isNegative
  rw [toBits_ofMagnitude bound]
  cases negative with
  | false =>
      rw [if_neg Bool.false_ne_true]
      exact decide_eq_false (by omega)
  | true =>
      rw [if_pos rfl]
      exact decide_eq_true (by omega)

/-- Every double is made of its sign and its magnitude word. -/
theorem ofMagnitude_magnitudeWord (value : Float) :
    ofMagnitude (isNegative value) (magnitudeWord value) = value := by
  have patternLt : value.toBits.toNat < 2 ^ 64 := value.toBits.toNat_lt
  have restored :
      UInt64.ofNat (magnitudeWord value + if isNegative value then 0x8000000000000000 else 0) =
        value.toBits := by
    rw [← UInt64.ofNat_toNat (x := value.toBits)]
    congr 1
    unfold magnitudeWord isNegative
    by_cases negative : 0x8000000000000000 ≤ value.toBits.toNat
    · rw [if_pos (decide_eq_true negative)]
      omega
    · rw [if_neg (by rw [decide_eq_false negative]; exact Bool.false_ne_true)]
      omega
  unfold ofMagnitude
  rw [restored, Float.ofBits_toBits]

end PocketCalc.Number
