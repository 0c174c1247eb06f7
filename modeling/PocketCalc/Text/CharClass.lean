/-!
Contract: sets of characters given by spans of code points.

Owns:
- the span list `CharClass` and its membership test;
- the comparison of two span lists by which all of one class belongs to another.

Does not own: any particular class; each stands in the module named for it.
-/

namespace PocketCalc.Text

/-- A set of characters, given by the spans of code points that belong to it. A span holds both
its ends. -/
structure CharClass where
  spans : List (Nat × Nat)
deriving DecidableEq, Repr

namespace CharClass

/-- Whether some span of the class holds the character's code point. -/
def contains (charClass : CharClass) (c : Char) : Bool :=
  charClass.spans.any fun span => span.1 ≤ c.toNat && c.toNat ≤ span.2

theorem contains_iff {charClass : CharClass} {c : Char} :
    charClass.contains c = true ↔
      ∃ span ∈ charClass.spans, span.1 ≤ c.toNat ∧ c.toNat ≤ span.2 := by
  simp [contains]

/-- Whether every span of the class lies within one span of the other. -/
def within (inner outer : CharClass) : Bool :=
  inner.spans.all fun span => outer.spans.any fun wide => wide.1 ≤ span.1 && span.2 ≤ wide.2

theorem contains_of_within {inner outer : CharClass} (covered : inner.within outer = true)
    {c : Char} (contained : inner.contains c = true) : outer.contains c = true := by
  obtain ⟨span, isSpan, above, below⟩ := contains_iff.mp contained
  obtain ⟨wide, isWide, holdsSpan⟩ := List.any_eq_true.mp (List.all_eq_true.mp covered span isSpan)
  simp only [Bool.and_eq_true, decide_eq_true_eq] at holdsSpan
  exact contains_iff.mpr
    ⟨wide, isWide, Nat.le_trans holdsSpan.1 above, Nat.le_trans below holdsSpan.2⟩

end CharClass

end PocketCalc.Text
