import PocketCalc.Proofs.Number.Notation

/-!
Contract: the double that a number is rounded to.

Owns:
- `RoundsTo`, rounding to the nearest double with ties to the even significand, said by distances
  from the doubles and not by the way that it is computed;
- a decimal behind a sign rounds to the double of that sign and the decimal's word, and to a double
  of no other magnitude.

Does not own: which texts are rounded so; see `Evaluation/Literal`.
-/

namespace PocketCalc.Number

/-- The least magnitude that is rounded to infinity: halfway from the greatest finite double to
2 ^ 1024. -/
def overflowThreshold : ℚ := 2 ^ 1024 - 2 ^ 970

/-- The greatest magnitude that is rounded to zero: half of the least positive double. -/
def underflowThreshold : ℚ := 1 / 2 ^ (1074 + 1)

/-- Whether a double is the one that a number is rounded to, a tie going to the even significand. -/
structure RoundsTo (number : ℚ) (value : Float) : Prop where
  /-- The double has the sign of the number. A zero has either sign. -/
  sign : number ≠ 0 → (isNegative value = true ↔ number < 0)
  /-- Magnitudes from the threshold on overflow, and no others. -/
  finite_iff : isFinite value = true ↔ |number| < overflowThreshold
  /-- What overflows is infinite. -/
  infinite : isFinite value = false → magnitudeWord value = infinityWord
  /-- No finite double is nearer. -/
  nearest : isFinite value = true → ∀ other, isFinite other = true →
    |number - exactValue value| ≤ |number - exactValue other|
  /-- Where another one is as near, the significand is even. -/
  even_of_tie : isFinite value = true → ∀ other, isFinite other = true →
    exactValue other ≠ exactValue value →
      |number - exactValue other| = |number - exactValue value| →
        significand (magnitudeWord value) % 2 = 0

/-! ## Distances from two values -/

private theorem abs_sub_le_abs_sub_iff {less more number : ℚ} (ordered : less < more) :
    |number - less| ≤ |number - more| ↔ number ≤ (less + more) / 2 := by
  rw [← sq_le_sq]
  constructor <;> intro le <;> nlinarith

private theorem abs_sub_le_abs_sub_iff' {less more number : ℚ} (ordered : less < more) :
    |number - more| ≤ |number - less| ↔ (less + more) / 2 ≤ number := by
  rw [← sq_le_sq]
  constructor <;> intro le <;> nlinarith

/-! ## The nearest word -/

/-- Whether no finite magnitude is nearer to a size than that of a word, and none as near unless the
word is even. -/
structure IsNearest (size : ℚ) (word : Nat) : Prop where
  nearest : ∀ other < infinityWord, |size - magnitude word| ≤ |size - magnitude other|
  even_of_tie : ∀ other < infinityWord, other ≠ word →
    |size - magnitude other| = |size - magnitude word| → word % 2 = 0

/-- A sum of multiples of powers of two, taken from whole numbers to rational ones. -/
private theorem eq_sub_of_add_mul_eq {total small large unit : Nat}
    (sum : total + 2 ^ small * unit = 2 ^ large * unit) :
    (total : ℚ) = (2 ^ large - 2 ^ small) * unit := by
  rw [sub_mul]
  exact eq_sub_of_add_eq (by exact_mod_cast sum)

theorem halfway_greatest : halfway (infinityWord - 1) = overflowThreshold := by
  have doubled : units (infinityWord - 1) + units (infinityWord - 1 + 1) +
      2 ^ 970 * (2 * unitsPerOne) = 2 ^ 1024 * (2 * unitsPerOne) := by
    decide +kernel
  have twicePositive : (0 : ℚ) < 2 * unitsPerOne := mul_pos two_pos unitsPerOne_pos
  have twiceEq : ((2 * unitsPerOne : ℕ) : ℚ) = 2 * unitsPerOne := Nat.cast_mul 2 unitsPerOne
  rw [halfway, magnitude, magnitude, ← add_div, div_div, mul_comm (unitsPerOne : ℚ),
    div_eq_iff twicePositive.ne', overflowThreshold, ← Nat.cast_add, ← twiceEq]
  exact eq_sub_of_add_mul_eq doubled

namespace Decimal

theorem word_lt_infinityWord_iff {decimal : Decimal} :
    decimal.word < infinityWord ↔ decimal.toRat < overflowThreshold := by
  have greatestFinite : infinityWord - 1 < infinityWord := by decide
  have greatestOdd : ¬(infinityWord - 1) % 2 = 0 := by decide
  have bounded : decimal.word < infinityWord ↔ decimal.word ≤ infinityWord - 1 :=
    Nat.lt_iff_le_pred (by decide)
  rw [bounded, word_le_iff greatestFinite, halfway_greatest]
  exact or_iff_left fun tie => greatestOdd tie.2

theorem word_eq_zero_iff {decimal : Decimal} :
    decimal.word = 0 ↔ decimal.toRat ≤ underflowThreshold := by
  have zeroFinite : 0 < infinityWord := by decide
  have thresholdEq : halfway 0 = underflowThreshold := by
    rw [halfway_zero]
    unfold underflowThreshold unitsPerOne
    generalize 1074 = places
    rw [Nat.pow_eq, Nat.cast_pow, Nat.cast_ofNat, ← pow_succ']
  rw [← Nat.le_zero, word_le_iff zeroFinite, thresholdEq, le_iff_lt_or_eq]
  exact or_congr_right (and_iff_left (Nat.zero_mod 2))

/-- The word of a decimal is the nearest one. -/
theorem isNearest_word {decimal : Decimal} (finite : decimal.word < infinityWord) :
    IsNearest decimal.toRat decimal.word := by
  have upper := (word_le_iff finite).mp le_rfl
  have lower {previous : Nat} (next : previous < decimal.word) :=
    mt (word_le_iff (next.trans finite)).mpr (Nat.not_le.mpr next)
  generalize decimal.word = word at *
  -- A word above is at least as far as the next one, and a word below as the previous one.
  have above {other : Nat} (greater : word < other) :
      halfway word ≤ (magnitude word + magnitude other) / 2 := by
    have atLeast := magnitude_strictMono.monotone (Nat.succ_le_of_lt greater)
    rw [halfway]
    linarith
  have below {other : Nat} (less : other < word) :
      ∃ previous, word = previous + 1 ∧
        (magnitude other + magnitude word) / 2 ≤ halfway previous ∧
          halfway previous ≤ decimal.toRat ∧
            (decimal.toRat = halfway previous → word % 2 = 0) := by
    obtain ⟨previous, rfl⟩ : ∃ previous, word = previous + 1 := ⟨word - 1, by omega⟩
    have notPassed := lower (Nat.lt_add_one previous)
    rw [not_or, not_lt] at notPassed
    refine ⟨previous, rfl, ?_, notPassed.1, fun meets => ?_⟩
    · have atMost := magnitude_strictMono.monotone (Nat.le_of_lt_succ less)
      rw [halfway]
      linarith
    · have odd : ¬previous % 2 = 0 := fun even => notPassed.2 ⟨meets, even⟩
      omega
  constructor
  · intro other otherFinite
    rcases Nat.lt_trichotomy other word with less | rfl | greater
    · obtain ⟨previous, -, midpointLe, passed, -⟩ := below less
      rw [abs_sub_le_abs_sub_iff' (magnitude_strictMono less)]
      exact midpointLe.trans passed
    · exact le_rfl
    · rw [abs_sub_le_abs_sub_iff (magnitude_strictMono greater)]
      refine le_trans ?_ (above greater)
      exact upper.elim le_of_lt fun tie => tie.1.le
  · intro other otherFinite different tie
    rcases Nat.lt_or_gt_of_ne different with less | greater
    · obtain ⟨previous, -, midpointLe, passed, evenOfMeets⟩ := below less
      have atMost := (abs_sub_le_abs_sub_iff (magnitude_strictMono less)).mp tie.le
      exact evenOfMeets (le_antisymm (atMost.trans midpointLe) passed)
    · have atLeast := (abs_sub_le_abs_sub_iff' (magnitude_strictMono greater)).mp tie.le
      have reached := (above greater).trans atLeast
      rcases upper with less | ⟨-, even⟩
      · exact absurd less (not_lt.mpr reached)
      · exact even

/-- A word that is nearest to a decimal is the decimal's word. -/
theorem word_eq_of_isNearest {decimal : Decimal} {word : Nat} (finite : word < infinityWord)
    (fits : decimal.toRat < overflowThreshold) (isNearest : IsNearest decimal.toRat word) :
    decimal.word = word := by
  refine Nat.le_antisymm ?_ ?_
  · rw [word_le_iff finite]
    rcases Nat.lt_or_eq_of_le (Nat.succ_le_of_lt finite) with nextFinite | greatest
    · have ordered := magnitude_strictMono (Nat.lt_add_one word)
      have atMost := (abs_sub_le_abs_sub_iff ordered).mp (isNearest.nearest _ nextFinite)
      rcases atMost.lt_or_eq with less | meets
      · exact Or.inl less
      · refine Or.inr ⟨meets, isNearest.even_of_tie _ nextFinite (Nat.succ_ne_self word) ?_⟩
        exact le_antisymm ((abs_sub_le_abs_sub_iff' ordered).mpr meets.ge)
          (isNearest.nearest _ nextFinite)
    · have wordEq : word = infinityWord - 1 := by omega
      rw [wordEq, halfway_greatest]
      exact Or.inl fits
  · by_contra less
    obtain ⟨previous, rfl⟩ : ∃ previous, word = previous + 1 := ⟨word - 1, by omega⟩
    have previousFinite : previous < infinityWord := by omega
    have ordered := magnitude_strictMono (Nat.lt_add_one previous)
    have atLeast := (abs_sub_le_abs_sub_iff' ordered).mp (isNearest.nearest _ previousFinite)
    rcases (word_le_iff previousFinite).mp (show decimal.word ≤ previous by omega) with
      notReached | ⟨meets, even⟩
    · exact absurd notReached (not_lt.mpr atLeast)
    · have tie : |decimal.toRat - magnitude previous| =
          |decimal.toRat - magnitude (previous + 1)| :=
        le_antisymm ((abs_sub_le_abs_sub_iff ordered).mpr meets.le)
          (isNearest.nearest _ previousFinite)
      have nextEven := isNearest.even_of_tie _ previousFinite (by omega) tie
      omega

end Decimal

/-! ## Signs -/

theorem significand_mod_two (word : Nat) : significand word % 2 = word % 2 := by
  unfold significand
  split <;> omega

theorem abs_signed {size : ℚ} (nonneg : 0 ≤ size) (negative : Bool) :
    |signed negative size| = size := by
  cases negative with
  | false => exact abs_of_nonneg nonneg
  | true => rw [signed, if_pos rfl, abs_neg, abs_of_nonneg nonneg]

theorem signed_zero (negative : Bool) : signed negative 0 = 0 := signed_eq_zero_iff.mpr rfl

theorem signed_injective (negative : Bool) : Function.Injective (signed negative) := by
  intro size other same
  have noDistance := abs_signed_sub_signed negative size other
  rw [same, sub_self, abs_zero, eq_comm, abs_eq_zero] at noDistance
  exact sub_eq_zero.mp noDistance

/-- Sizes on the two sides of zero are as far apart as they are large. -/
theorem abs_signed_sub_signed_not {size other : ℚ} (nonneg : 0 ≤ size) (otherNonneg : 0 ≤ other)
    (negative : Bool) : |signed negative size - signed (!negative) other| = size + other := by
  have oppositeEq : signed (!negative) other = signed negative (-other) := by
    cases negative with
    | false => rfl
    | true => exact (neg_neg other).symm
  rw [oppositeEq, abs_signed_sub_signed, sub_neg_eq_add,
    abs_of_nonneg (add_nonneg nonneg otherNonneg)]

theorem signed_neg_iff {size : ℚ} (positive : 0 < size) {negative : Bool} :
    signed negative size < 0 ↔ negative = true := by
  cases negative with
  | false => exact iff_of_false (not_lt.mpr positive.le) Bool.false_ne_true
  | true => exact iff_of_true (neg_neg_of_pos positive) rfl

theorem exactValue_ofMagnitude (negative : Bool) {word : Nat} (bound : word ≤ infinityWord) :
    exactValue (ofMagnitude negative word) = signed negative (magnitude word) := by
  rw [exactValue, isNegative_ofMagnitude bound, magnitudeWord_ofMagnitude bound]

theorem isFinite_ofMagnitude_iff (negative : Bool) {word : Nat} (bound : word ≤ infinityWord) :
    isFinite (ofMagnitude negative word) = true ↔ word < infinityWord := by
  rw [isFinite, magnitudeWord_ofMagnitude bound]
  exact decide_eq_true_iff

namespace Decimal

theorem toRat_nonneg (decimal : Decimal) : 0 ≤ decimal.toRat := by
  rw [toRat]
  positivity

/-- A decimal behind a sign rounds to the double of that sign and the decimal's word. -/
theorem roundsTo_ofMagnitude_word (decimal : Decimal) (negative : Bool) :
    RoundsTo (signed negative decimal.toRat) (ofMagnitude negative decimal.word) := by
  have bound := decimal.word_le_infinityWord
  have finiteIff := isFinite_ofMagnitude_iff negative bound
  have valueEq := exactValue_ofMagnitude negative bound
  have farther (other : Float) : |decimal.toRat - magnitude (magnitudeWord other)| ≤
      |signed negative decimal.toRat - exactValue other| := by
    have apart := abs_abs_sub_abs_le (signed negative decimal.toRat) (exactValue other)
    rw [abs_signed decimal.toRat_nonneg, abs_exactValue] at apart
    exact apart
  constructor
  · intro nonzero
    have positive : 0 < decimal.toRat :=
      lt_of_le_of_ne decimal.toRat_nonneg fun zero => nonzero (signed_eq_zero_iff.mpr zero.symm)
    rw [isNegative_ofMagnitude bound, signed_neg_iff positive]
  · rw [finiteIff, word_lt_infinityWord_iff, abs_signed decimal.toRat_nonneg]
  · intro notFinite
    rw [magnitudeWord_ofMagnitude bound]
    refine le_antisymm bound (Nat.le_of_not_lt fun finite => ?_)
    rw [finiteIff.mpr finite] at notFinite
    cases notFinite
  · intro finite other otherFinite
    have isNearest := isNearest_word (finiteIff.mp finite)
    rw [valueEq, abs_signed_sub_signed]
    exact (isNearest.nearest _ (of_decide_eq_true otherFinite)).trans (farther other)
  · intro finite other otherFinite different tie
    have isNearest := isNearest_word (finiteIff.mp finite)
    rw [valueEq] at different
    rw [valueEq, abs_signed_sub_signed] at tie
    rw [magnitudeWord_ofMagnitude bound, significand_mod_two]
    by_cases sameWord : magnitudeWord other = decimal.word
    · -- The two differ in their signs only, so they are as near at a zero only.
      have otherSide : isNegative other = !negative := by
        refine Bool.eq_not_of_ne fun sameSign => different ?_
        rw [exactValue, sameSign, sameWord]
      rw [exactValue, otherSide, sameWord,
        abs_signed_sub_signed_not decimal.toRat_nonneg (magnitude_nonneg _)] at tie
      have zero : decimal.word = 0 := by
        rcases abs_choice (decimal.toRat - magnitude decimal.word) with positive | negated
        · by_contra nonzero
          have := magnitude_pos nonzero
          rw [positive] at tie
          linarith
        · rw [negated] at tie
          exact word_of_toRat_eq (by decide) (by rw [magnitude_zero]; linarith)
      rw [zero]
    · refine isNearest.even_of_tie _ (of_decide_eq_true otherFinite) sameWord ?_
      exact le_antisymm ((farther other).trans tie.le)
        (isNearest.nearest _ (of_decide_eq_true otherFinite))

/-- A double that a decimal behind a sign rounds to has the decimal's word. -/
theorem magnitudeWord_of_roundsTo {decimal : Decimal} {negative : Bool} {value : Float}
    (rounds : RoundsTo (signed negative decimal.toRat) value) :
    magnitudeWord value = decimal.word := by
  have finiteIff := rounds.finite_iff
  rw [abs_signed decimal.toRat_nonneg, ← word_lt_infinityWord_iff] at finiteIff
  cases finite : isFinite value with
  | false =>
      have wordInfinite : ¬decimal.word < infinityWord := by
        rw [← finiteIff, finite]
        exact Bool.false_ne_true
      rw [rounds.infinite finite]
      exact le_antisymm (Nat.le_of_not_lt wordInfinite) decimal.word_le_infinityWord
  | true =>
      have wordFinite : magnitudeWord value < infinityWord := of_decide_eq_true finite
      have fits := word_lt_infinityWord_iff.mp (finiteIff.mp finite)
      refine (word_eq_of_isNearest wordFinite fits ?_).symm
      -- Seen from the number, the doubles with the sign of the value are as far as their sizes are.
      have sameSide (size : ℚ) :
          |signed negative decimal.toRat - signed (isNegative value) size| =
            |decimal.toRat - size| := by
        by_cases zero : decimal.toRat = 0
        · have distanceEq := abs_signed_sub_signed (isNegative value) 0 size
          rw [signed_zero] at distanceEq
          rw [zero, signed_zero, distanceEq]
        · have positive := lt_of_le_of_ne decimal.toRat_nonneg (Ne.symm zero)
          have sameSign : isNegative value = negative :=
            Bool.eq_iff_iff.mpr
              ((rounds.sign (mt signed_eq_zero_iff.mp zero)).trans (signed_neg_iff positive))
          rw [sameSign, abs_signed_sub_signed]
      have distanceEq {word : Nat} (otherFinite : word < infinityWord) :
          |signed negative decimal.toRat - exactValue (ofMagnitude (isNegative value) word)| =
            |decimal.toRat - magnitude word| := by
        rw [exactValue_ofMagnitude _ otherFinite.le, sameSide]
      have ownDistance : |signed negative decimal.toRat - exactValue value| =
          |decimal.toRat - magnitude (magnitudeWord value)| := sameSide _
      constructor
      · intro other otherFinite
        have nearest := rounds.nearest finite _
          ((isFinite_ofMagnitude_iff (isNegative value) otherFinite.le).mpr otherFinite)
        rw [distanceEq otherFinite, ownDistance] at nearest
        exact nearest
      · intro other otherFinite different tie
        rw [← significand_mod_two]
        refine rounds.even_of_tie finite _
          ((isFinite_ofMagnitude_iff (isNegative value) otherFinite.le).mpr otherFinite) ?_ ?_
        · rw [exactValue_ofMagnitude _ otherFinite.le]
          exact fun same =>
            different (magnitude_strictMono.injective (signed_injective _ same))
        · rw [distanceEq otherFinite, ownDistance, tie]

end Decimal

end PocketCalc.Number
