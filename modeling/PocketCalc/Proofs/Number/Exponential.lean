import PocketCalc.Number.Exponential
import PocketCalc.Proofs.Number.Grid
import PocketCalc.Proofs.Number.Positional

/-!
Contract: exponential texts and the decimals that they write.

Owns:
- the parts of an exponential text: its digits, and the sign and the digits of its exponent;
- the text of a magnitude in exponential notation writes a decimal within half a unit of its last
  place.

Does not own: when a number is shown in this notation; see `Display`.
-/

namespace PocketCalc.Number

open PocketCalc.Lexeme

/-- The text of an exponent of at most three digits is its sign and two or three digits. -/
theorem exists_exponentText_eq {exponent : Int} (small : exponent.natAbs < 1000) :
    ∃ power, exponentText exponent = 'e' :: (if exponent < 0 then '-' else '+') :: power ∧
      (power.length = 2 ∨ power.length = 3) ∧ AllDigits power ∧
      Nat.ofDigitChars 10 power 0 = exponent.natAbs := by
  have atMostThree : (digits exponent.natAbs).length ≤ 3 :=
    (Nat.length_toDigits_le_iff (by decide) (by decide)).mpr small
  refine ⟨_, rfl, ?_, allDigits_padded (allDigits_digits _) _, ?_⟩
  · rw [length_padded]
    omega
  · rw [ofDigitChars_padded, ofDigitChars_digits]

/-- Digits of which at least one stands behind the point. -/
theorem exponential_of_two_le {significant : List Char} (two : 2 ≤ significant.length)
    (exponent : Int) :
    ∃ leading further, significant = leading :: further ∧
      exponential significant exponent = leading :: '.' :: further ++ exponentText exponent := by
  match significant, two with
  | leading :: next :: further, _ => exact ⟨leading, next :: further, rfl, rfl⟩

/-- Exponential notation writes one digit before the point and `places` behind it, and a decimal
that is within half a unit of the last place. -/
theorem exists_roundedExponential_eq {word : Nat} (nonzero : word ≠ 0) (places : Nat) :
    ∃ significant exponent, roundedExponential places word = exponential significant exponent ∧
      significant.length = places + 1 ∧ AllDigits significant ∧
      (exponent = decade word ∨ exponent = decade word + 1) ∧
      |(⟨Nat.ofDigitChars 10 significant 0, exponent - places⟩ : Decimal).toRat - magnitude word| ≤
        10 ^ (decade word - places) / 2 := by
  have close := abs_nearestNeighbour_sub_le word (decade word - places)
  obtain ⟨lower, upper⟩ := coefficient_nearestNeighbour_bounds nonzero places
  have exponentEq :
      (nearestNeighbour word (decade word - places)).exponent = decade word - places := rfl
  unfold roundedExponential
  dsimp only
  rw [Nat.pow_eq, Nat.pow_eq]
  generalize nearestNeighbour word (decade word - places) = nearest at *
  by_cases carry : nearest.coefficient = 10 ^ (places + 1)
  · -- The digits rounded up to a one and zeros, so the same value has the next exponent.
    rw [if_pos carry]
    refine ⟨_, _, rfl, ?_, allDigits_digits _, Or.inr rfl, ?_⟩
    · have present : 10 ^ places ≠ 0 := by positivity
      obtain ⟨further, lengthEq, leadingLe, less⟩ := Decimal.digits_bounds present
      have notMore := (Nat.pow_le_pow_iff_right (by decide)).mp leadingLe
      have notLess := (Nat.pow_lt_pow_iff_right (by decide)).mp less
      omega
    · have sameValue :
          (⟨10 ^ places, decade word + 1 - places⟩ : Decimal).toRat = nearest.toRat := by
        rw [Decimal.toRat, Decimal.toRat, exponentEq, carry]
        push_cast
        rw [add_sub_right_comm, zpow_add₀ (by norm_num), zpow_one, pow_succ]
        ring
      rw [ofDigitChars_digits, sameValue]
      exact close
  · rw [if_neg carry]
    refine ⟨_, _, rfl, ?_, allDigits_padded (allDigits_digits _) _, Or.inl rfl, ?_⟩
    · have fits : (digits nearest.coefficient).length ≤ places + 1 :=
        (Nat.length_toDigits_le_iff (by decide) (Nat.succ_pos places)).mpr
          (Nat.lt_of_le_of_ne upper carry)
      rw [length_padded, Nat.max_eq_left fits]
    · have sameValue :
          (⟨nearest.coefficient, decade word - places⟩ : Decimal).toRat = nearest.toRat := by
        rw [Decimal.toRat, Decimal.toRat, exponentEq]
      rw [ofDigitChars_padded, ofDigitChars_digits, sameValue]
      exact close

end PocketCalc.Number
