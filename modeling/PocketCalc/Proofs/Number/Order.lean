import PocketCalc.Proofs.Number.Halfway

/-!
Contract: rounding keeps the order of values.

Owns:
- a greater decimal has no smaller word, so the word of a decimal depends on its value only;
- a decimal with the value of a finite magnitude has that magnitude's word, and so does the decimal
  that is written for it;
- what the word of a decimal says about the decimal's place between finite magnitudes;
- a decimal that reads back as a normal magnitude is within 2 ^ -52 of it, as a share of it.

Does not own: that of two words the nearer one is taken; see `Number/Rounded`.
-/

namespace PocketCalc.Number

namespace Decimal

theorem word_le_infinityWord (decimal : Decimal) : decimal.word ≤ infinityWord := by
  rw [word]
  split_ifs
  · exact Nat.zero_le _
  · exact le_rfl
  · exact Nat.zero_le _
  · exact nearestWord_le_infinityWord _ _

/-- A greater decimal has no smaller word. -/
theorem word_mono {left right : Decimal} (le : left.toRat ≤ right.toRat) :
    left.word ≤ right.word := by
  rcases Nat.lt_or_eq_of_le right.word_le_infinityWord with finite | infinite
  · rw [word_le_iff finite]
    rcases (word_le_iff finite).mp le_rfl with less | ⟨meets, even⟩
    · exact Or.inl (le.trans_lt less)
    · rcases le.lt_or_eq with less | same
      · exact Or.inl (less.trans_eq meets)
      · exact Or.inr ⟨same.trans meets, even⟩
  · rw [infinite]
    exact left.word_le_infinityWord

/-- Decimals of the same value have the same word. -/
theorem word_congr {left right : Decimal} (same : left.toRat = right.toRat) :
    left.word = right.word :=
  le_antisymm (word_mono same.le) (word_mono same.ge)

/-- A decimal with the value of a finite magnitude has that magnitude's word. -/
theorem word_of_toRat_eq {decimal : Decimal} {word : Nat} (finite : word < infinityWord)
    (exact : decimal.toRat = magnitude word) : decimal.word = word := by
  refine Nat.le_antisymm ?_ ?_
  · rw [word_le_iff finite, exact]
    exact Or.inl (magnitude_lt_halfway word)
  · by_contra less
    obtain ⟨previous, rfl⟩ : ∃ previous, word = previous + 1 := ⟨word - 1, by omega⟩
    have notPassed := (word_le_iff (by omega)).mp (show decimal.word ≤ previous by omega)
    have passed := halfway_lt_magnitude_succ previous
    rw [exact] at notPassed
    rcases notPassed with below | ⟨meets, -⟩
    · exact absurd below (not_lt.mpr passed.le)
    · exact absurd meets passed.ne'

end Decimal

/-! ## Magnitudes as decimals -/

/-- A share of a power of two is the share of the power of ten that a power of five makes of it. -/
private theorem toRat_mul_five_pow (number : Nat) {places : Nat} {exponent : Int}
    (isShare : exponent = -places) :
    (⟨number * Nat.pow 5 places, exponent⟩ : Decimal).toRat = number / Nat.pow 2 places := by
  have factors : (10 : ℚ) = 5 * 2 := by norm_num
  simp only [Nat.pow_eq]
  rw [Decimal.toRat, isShare, zpow_neg, zpow_natCast, factors, mul_pow, mul_inv, Nat.cast_mul,
    Nat.cast_pow, Nat.cast_ofNat, mul_assoc, mul_inv_cancel_left₀ (by positivity), Nat.cast_pow,
    Nat.cast_ofNat, div_eq_mul_inv]

theorem toRat_exactDecimal (word : Nat) : (exactDecimal word).toRat = magnitude word := by
  unfold exactDecimal magnitude unitsPerOne
  -- The powers of 2 and 5 are too large to evaluate, so the places become a variable first.
  generalize isPlaces : 1074 = places
  exact toRat_mul_five_pow (units word) (by omega)

namespace Decimal

theorem toRat_lt_of_word_lt {left right : Decimal} (less : left.word < right.word) :
    left.toRat < right.toRat := by
  by_contra notLess
  exact absurd (word_mono (not_lt.mp notLess)) (Nat.not_le.mpr less)

/-- The word of a finite magnitude, as the word of the decimal that has its value. -/
theorem word_exactDecimal {word : Nat} (finite : word < infinityWord) :
    (exactDecimal word).word = word :=
  word_of_toRat_eq finite (toRat_exactDecimal word)

theorem toRat_lt_magnitude {decimal : Decimal} {word : Nat} (finite : word < infinityWord)
    (less : decimal.word < word) : decimal.toRat < magnitude word := by
  rw [← toRat_exactDecimal]
  refine toRat_lt_of_word_lt ?_
  rw [word_exactDecimal finite]
  exact less

theorem magnitude_lt_toRat {decimal : Decimal} {word : Nat} (less : word < decimal.word)
    (finite : word < infinityWord) : magnitude word < decimal.toRat := by
  rw [← toRat_exactDecimal]
  refine toRat_lt_of_word_lt ?_
  rw [word_exactDecimal finite]
  exact less

end Decimal

/-- The decimal that is written for a finite magnitude reads back as that magnitude. -/
theorem word_shortestDecimal {word : Nat} (finite : word < infinityWord) :
    (shortestDecimal word).word = word := by
  unfold shortestDecimal
  cases found : (List.range 17).findSome? fun (further : Nat) =>
      closestOnGrid? word (decade word - further) with
  | none => exact Decimal.word_of_toRat_eq finite (toRat_exactDecimal word)
  | some decimal =>
      obtain ⟨further, -, onGrid⟩ := List.exists_of_findSome?_eq_some found
      exact eq_of_beq (readsBackAs_of_closestOnGrid? onGrid)

/-! ## How close a decimal is -/

/-- One step of the significand is at most this share of a normal magnitude. -/
private theorem step_le {word exponent : Nat} (normal : 0x10000000000000 ≤ word)
    (le : exponent ≤ doublings word) :
    ((2 ^ exponent : ℕ) : ℚ) / unitsPerOne ≤ magnitude word / 2 ^ 52 := by
  have grown : 2 ^ exponent * 2 ^ 52 ≤ units word := by
    rw [units_eq, Nat.mul_comm]
    exact Nat.mul_le_mul (le_significand normal) (Nat.pow_le_pow_right Nat.two_pos le)
  have grown' : ((2 ^ exponent : ℕ) : ℚ) * 2 ^ 52 ≤ units word := by
    exact_mod_cast grown
  rw [magnitude, le_div_iff₀ (by positivity), div_mul_eq_mul_div]
  exact div_le_div_of_nonneg_right grown' unitsPerOne_pos.le

/-- A decimal that reads back as a normal magnitude is close to it. -/
theorem Decimal.abs_toRat_sub_magnitude_le {decimal : Decimal} {word : Nat}
    (normal : 0x10000000000000 ≤ word) (finite : word + 1 < infinityWord)
    (readsBack : decimal.word = word) :
    |decimal.toRat - magnitude word| ≤ magnitude word / 2 ^ 52 := by
  obtain ⟨previous, rfl⟩ : ∃ previous, word = previous + 1 := ⟨word - 1, by omega⟩
  have below : magnitude previous < decimal.toRat :=
    magnitude_lt_toRat (by omega) (by omega)
  have above : decimal.toRat < magnitude (previous + 1 + 1) :=
    toRat_lt_magnitude finite (by omega)
  have doublingsLe : doublings previous ≤ doublings (previous + 1) := by
    unfold doublings
    omega
  have stepBelow := step_le normal doublingsLe
  have stepAbove := step_le normal le_rfl
  rw [magnitude_succ (previous + 1)] at above
  have fromBelow := magnitude_succ previous
  rw [abs_le]
  constructor <;> linarith

end PocketCalc.Number
