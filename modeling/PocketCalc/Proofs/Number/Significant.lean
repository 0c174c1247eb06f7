import PocketCalc.Proofs.Number.Positional

/-!
Contract: how many significant digits a decimal text has.

Owns:
- the significant digits of a text, without the zeros in front and behind and without the point;
- their count is the least for which the number is that many digits times a power of ten, whatever
  text the number is written as;
- a positional text counts as many as the decimal that it was taken from.

Does not own: which decimal has the fewest; see `Number/Shortest`.
-/

namespace PocketCalc.Number

open PocketCalc.Lexeme

/-- The digits of a text from the first to the last that is not zero. -/
def significantDigits (text : List Char) : List Char :=
  withoutTrailingZeros ((text.filter Char.isDigit).dropWhile (· == '0'))

/-- Whether a number is a whole number of at most that many digits times a power of ten. -/
def HasDigits (count : Nat) (size : ℚ) : Prop :=
  ∃ decimal : Decimal, decimal.coefficient < 10 ^ count ∧ decimal.toRat = size

theorem HasDigits.mono {count more : Nat} {size : ℚ} (hasDigits : HasDigits count size)
    (le : count ≤ more) : HasDigits more size := by
  obtain ⟨decimal, small, toRatEq⟩ := hasDigits
  exact ⟨decimal, small.trans_le (Nat.pow_le_pow_right (by decide) le), toRatEq⟩

/-! ## One number as two decimals -/

namespace Decimal

/-- Zeros behind the coefficient are a greater exponent. -/
theorem toRat_mul_pow (coefficient zeros : Nat) (exponent : Int) :
    (⟨coefficient * 10 ^ zeros, exponent⟩ : Decimal).toRat =
      (⟨coefficient, zeros + exponent⟩ : Decimal).toRat := by
  rw [toRat, toRat, zpow_add₀ (by norm_num), zpow_natCast, Nat.cast_mul, mul_assoc, Nat.cast_pow,
    Nat.cast_ofNat]

theorem coefficient_inj {left right : Nat} {exponent : Int} :
    (⟨left, exponent⟩ : Decimal).toRat = (⟨right, exponent⟩ : Decimal).toRat ↔ left = right := by
  have powerNonzero : (10 : ℚ) ^ exponent ≠ 0 := by positivity
  rw [toRat, toRat, mul_left_inj' powerNonzero, Nat.cast_inj]

/-- A coefficient that ends in no zero is the least one of its number. -/
theorem coefficient_le {coefficient other : Nat} {exponent power : Int}
    (noZero : coefficient % 10 ≠ 0)
    (same : (⟨other, power⟩ : Decimal).toRat = (⟨coefficient, exponent⟩ : Decimal).toRat) :
    coefficient ≤ other := by
  rcases le_total power exponent with le | le
  · obtain ⟨zeros, rfl⟩ := Int.le.dest le
    rw [Int.add_comm, ← toRat_mul_pow, coefficient_inj] at same
    rw [same]
    exact Nat.le_mul_of_pos_right _ (Nat.pow_pos (by decide))
  · obtain ⟨zeros, rfl⟩ := Int.le.dest le
    rw [Int.add_comm, ← toRat_mul_pow, coefficient_inj] at same
    cases zeros with
    | zero => omega
    | succ zeros =>
        rw [Nat.pow_succ, ← Nat.mul_assoc] at same
        exact absurd (same ▸ Nat.mul_mod_left _ 10) noZero

end Decimal

/-! ## Texts without zeros around -/

private theorem head?_dropWhile_zero (text : List Char) :
    (text.dropWhile (· == '0')).head? ≠ some '0' := by
  intro isZero
  have stops := List.head?_dropWhile_not (· == '0') text
  rw [isZero] at stops
  cases stops

theorem getLast?_withoutTrailingZeros (text : List Char) :
    (withoutTrailingZeros text).getLast? ≠ some '0' := by
  rw [withoutTrailingZeros, List.getLast?_reverse]
  exact head?_dropWhile_zero text.reverse

theorem head?_withoutTrailingZeros {text : List Char} (noZero : text.head? ≠ some '0') :
    (withoutTrailingZeros text).head? ≠ some '0' := by
  intro isZero
  obtain ⟨zeros, divided⟩ := exists_append_zeros text
  obtain ⟨rest, kept⟩ := List.head?_eq_some_iff.mp isZero
  rw [divided, kept] at noZero
  exact noZero rfl

private theorem lt_toNat_of_ne_zero {c : Char} (isDigit : c.isDigit = true) (notZero : c ≠ '0') :
    48 < c.toNat := by
  have atLeast : 48 ≤ c.toNat := (Char.isDigit_iff_toNat.mp isDigit).1
  refine lt_of_le_of_ne atLeast fun same => notZero ?_
  exact Char.toNat_inj.mp same.symm

/-- Digits that start with no zero write a number with as many digits. -/
theorem pow_le_ofDigitChars {c : Char} {rest : List Char} (digits : AllDigits (c :: rest))
    (notZero : c ≠ '0') : 10 ^ rest.length ≤ Nat.ofDigitChars 10 (c :: rest) 0 := by
  have leading := lt_toNat_of_ne_zero digits.head notZero
  have zeroCode : '0'.toNat = 48 := by decide
  have positive : 1 ≤ 10 * 0 + (c.toNat - '0'.toNat) := by omega
  rw [Nat.ofDigitChars_cons, Nat.ofDigitChars_eq_ofDigitChars_zero]
  exact (Nat.le_mul_of_pos_right _ positive).trans (Nat.le_add_right _ _)

/-- Digits that end in no zero write no multiple of ten. -/
theorem ofDigitChars_mod_ten {c : Char} {rest : List Char} (digits : AllDigits (c :: rest))
    (noTrailing : (c :: rest).getLast? ≠ some '0') :
    Nat.ofDigitChars 10 (c :: rest) 0 % 10 ≠ 0 := by
  obtain ⟨front, last, textEq⟩ : ∃ front last, c :: rest = front ++ [last] :=
    ⟨_, _, (List.dropLast_append_getLast (List.cons_ne_nil c rest)).symm⟩
  rw [textEq] at digits noTrailing ⊢
  have isDigit : last.isDigit = true := digits last (List.mem_append_right _ List.mem_cons_self)
  have notZero : last ≠ '0' := by
    rintro rfl
    exact noTrailing List.getLast?_concat
  have lower := lt_toNat_of_ne_zero isDigit notZero
  have upper : last.toNat ≤ 57 := (Char.isDigit_iff_toNat.mp isDigit).2
  have zeroCode : '0'.toNat = 48 := by decide
  rw [Nat.ofDigitChars_append, Nat.ofDigitChars_cons, Nat.ofDigitChars_nil]
  omega

/-! ## Counting -/

section

variable {text : List Char} (textDigits : AllDigits text)

include textDigits

/-- What is left out around the significant digits is zeros. -/
private theorem exists_zeros_around :
    ∃ before behind, text =
      List.replicate before '0' ++ (significantDigits text ++ List.replicate behind '0') := by
  obtain ⟨behind, divided⟩ := exists_append_zeros (text.dropWhile (· == '0'))
  refine ⟨(text.takeWhile (· == '0')).length, behind, ?_⟩
  rw [significantDigits, List.filter_eq_self.mpr textDigits, ← divided, ← takeWhile_zero,
    List.takeWhile_append_dropWhile]

private theorem allDigits_significantDigits : AllDigits (significantDigits text) := by
  obtain ⟨before, behind, divided⟩ := exists_zeros_around textDigits
  intro c member
  refine textDigits c ?_
  rw [divided]
  exact List.mem_append_right _ (List.mem_append_left _ member)

/-- The significant digits and a power of ten make up the number. -/
private theorem exists_ofDigitChars_eq :
    ∃ zeros, Nat.ofDigitChars 10 text 0 =
      Nat.ofDigitChars 10 (significantDigits text) 0 * 10 ^ zeros := by
  obtain ⟨before, behind, divided⟩ := exists_zeros_around textDigits
  refine ⟨behind, ?_⟩
  conv_lhs => rw [divided]
  rw [Nat.ofDigitChars_append, Nat.ofDigitChars_append, Nat.ofDigitChars_replicate_zero,
    Nat.ofDigitChars_replicate_zero, Nat.mul_zero, Nat.mul_comm]

/-- The significant digits are as many as a number needs at least, whatever decimal it is. -/
theorem length_significantDigits_le_iff {count : Nat} (exponent : Int) :
    (significantDigits text).length ≤ count ↔
      HasDigits count (⟨Nat.ofDigitChars 10 text 0, exponent⟩ : Decimal).toRat := by
  obtain ⟨zeros, numberEq⟩ := exists_ofDigitChars_eq textDigits
  have significant := allDigits_significantDigits textDigits
  rw [numberEq, Decimal.toRat_mul_pow]
  constructor
  · intro short
    exact ⟨_, (ofDigitChars_lt significant).trans_le (Nat.pow_le_pow_right (by decide) short), rfl⟩
  · rintro ⟨⟨coefficient, power⟩, small, same⟩
    have noLeading : (significantDigits text).head? ≠ some '0' :=
      head?_withoutTrailingZeros (head?_dropWhile_zero _)
    have noTrailing : (significantDigits text).getLast? ≠ some '0' :=
      getLast?_withoutTrailingZeros _
    generalize significantDigits text = kept at *
    cases kept with
    | nil => exact Nat.zero_le _
    | cons c rest =>
        have enough := pow_le_ofDigitChars significant fun isZero => noLeading (by rw [isZero]; rfl)
        have least := Decimal.coefficient_le (ofDigitChars_mod_ten significant noTrailing) same
        have lengthLt := (Nat.pow_lt_pow_iff_right (by decide)).mp
          (enough.trans_lt (least.trans_lt small))
        exact lengthLt

end

/-! ## Positional texts -/

namespace Decimal

/-- The point of a text is no digit. -/
private theorem significantDigits_pointed (whole fraction : List Char) :
    significantDigits (whole ++ '.' :: fraction) = significantDigits (whole ++ fraction) := by
  have noDigit : ¬Char.isDigit '.' = true := by decide
  rw [significantDigits, significantDigits, List.filter_append, List.filter_append,
    List.filter_cons_of_neg noDigit]

/-- A positional text has the significant digits that its number needs. -/
theorem length_significantDigits_positional_le_iff (decimal : Decimal) {count : Nat} :
    (significantDigits decimal.positional).length ≤ count ↔ HasDigits count decimal.toRat := by
  have wholeDigits := allDigits_digits (decimal.numerator / decimal.denominator)
  have textDigits : AllDigits
      (digits (decimal.numerator / decimal.denominator) ++ decimal.fraction) := by
    intro c member
    rcases List.mem_append.mp member with inWhole | inFraction
    · exact wholeDigits c inWhole
    · exact decimal.allDigits_fraction c inFraction
  have same : significantDigits decimal.positional =
      significantDigits (digits (decimal.numerator / decimal.denominator) ++ decimal.fraction) := by
    rcases decimal.positional_eq_or with ⟨noFraction, whole⟩ | pointed
    · rw [whole, noFraction, List.append_nil]
    · rw [pointed, significantDigits_pointed]
  rw [same, ← toRat_ofDigits_fraction]
  exact length_significantDigits_le_iff textDigits _

end Decimal

end PocketCalc.Number
