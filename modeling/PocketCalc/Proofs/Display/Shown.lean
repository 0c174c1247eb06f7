import PocketCalc.Display
import PocketCalc.Proofs.Number.Positional

/-!
Contract: which short texts the display can show of a longer one.

Owns:
- the forms and the characters of a result's text;
- short texts without an exponent, which the display shows of no text but themselves.

Does not own: how well the display shows a value.
-/

namespace PocketCalc

open PocketCalc.Lexeme

theorem Lexeme.IsNumeral.ne_nil {text : List Char} (numeral : IsNumeral text) : text ≠ [] := by
  rcases numeral with ⟨present, -⟩ | ⟨whole, fraction, rfl, -⟩
  · exact present
  · simp

namespace Number

theorem mem_exponential_of_mem_exponentText {c : Char} (significant : List Char) {exponent : Int}
    (member : c ∈ exponentText exponent) : c ∈ exponential significant exponent := by
  match significant with
  | [] => exact List.mem_cons_of_mem _ member
  | [_] => exact List.mem_cons_of_mem _ member
  | leading :: next :: further =>
      exact List.mem_append_right (leading :: '.' :: next :: further) member

/-- Exponential notation has the letter e in it. -/
theorem e_mem_roundedExponential (places word : Nat) : 'e' ∈ roundedExponential places word := by
  unfold roundedExponential
  dsimp only
  split <;> exact mem_exponential_of_mem_exponentText _ List.mem_cons_self

/-- The text of a result is a number without a sign, or the word for infinity or for no number,
behind a sign. -/
theorem exists_positionalText_eq (value : Float) :
    ∃ negative body, positionalText value = String.ofList (signText negative ++ body) ∧
      (IsNumeral body ∨ body = ['i', 'n', 'f'] ∨ body = ['n', 'a', 'n']) := by
  rw [positionalText]
  split
  · exact ⟨_, _, rfl, Or.inl (Decimal.isNumeral_positional _)⟩
  · split
    · exact ⟨_, _, rfl, Or.inr (Or.inl rfl)⟩
    · exact ⟨false, _, rfl, Or.inr (Or.inr rfl)⟩

theorem mem_positionalText {value : Float} {c : Char} (member : c ∈ (positionalText value).toList) :
    Numeral.IsPlain c ∨ c ∈ ['-', 'i', 'n', 'f', 'a'] := by
  obtain ⟨negative, body, textEq, form⟩ := exists_positionalText_eq value
  rw [textEq, String.toList_ofList] at member
  rcases List.mem_append.mp member with inSign | inBody
  · cases negative with
    | false => cases inSign
    | true => exact Or.inr (by simp [List.mem_singleton.mp inSign])
  · rcases form with numeral | rfl | rfl
    · exact Or.inl (Numeral.isPlain_of_isNumeral numeral c inBody)
    · revert inBody
      simp only [List.mem_cons, List.not_mem_nil, or_false]
      tauto
    · revert inBody
      simp only [List.mem_cons, List.not_mem_nil, or_false]
      tauto

theorem positionalText_ne_empty (value : Float) : positionalText value ≠ "" := by
  obtain ⟨negative, body, textEq, form⟩ := exists_positionalText_eq value
  intro empty
  rw [textEq] at empty
  have noCharacters : signText negative ++ body = [] := String.ofList_injective empty
  obtain ⟨-, rfl⟩ := List.append_eq_nil_iff.mp noCharacters
  rcases form with numeral | impossible | impossible
  · exact numeral.ne_nil rfl
  · cases impossible
  · cases impossible

end Number

namespace Display

/-- What the display shows is a whole text or as wide as the display, unless it has an exponent. A
shorter text without the letter e is therefore shown of itself only. -/
theorem eq_of_ofText_eq {text shown : String} (short : shown.toList.length < width)
    (noExponent : 'e' ∉ shown.toList) (same : ofText text = shown) : text = shown := by
  unfold ofText at same
  cases found : exponentialValue? text with
  | some value =>
      rw [found] at same
      subst same
      refine absurd ?_ noExponent
      dsimp only
      rw [exponentialText, String.toList_ofList]
      exact List.mem_append_right _ (Number.e_mem_roundedExponential 2 _)
  | none =>
      rw [found] at same
      dsimp only at same
      subst same
      rw [String.toList_ofList, List.length_take] at short
      have whole : text.toList.take width = text.toList :=
        List.take_of_length_le (by omega)
      rw [whole, String.ofList_toList]

end Display

end PocketCalc
