import Mathlib.Data.List.Chain
import PocketCalc.Proofs.Yard.Depth

/-!
Contract: the tokens that wait, at every point of a reordering.

Owns:
- `Token.Tightens`, the order of two tokens that wait one right above the other, and that no more
  than three operators wait together;
- `Point`, the yards that a reordering passes through, also between two tokens that it takes;
- `Regular`, the invariant of these yards: the order, the groups that are open and the number of
  tokens held, kept by everything that is done to the yard;
- the invariant in full, and that nothing which waits stops a token from being taken.

Does not own: for which tokens a reordering fails; see `Yard/Outcome`.

An operator is put only upon tokens that it does not release, so among neighbours the precedence
falls on the way down. A function or an opening interrupts this order, and so does the end of a
group, which may uncover an operator that waits since before the group.
-/

namespace PocketCalc

open PocketCalc.Stage

namespace Token

/-- Whether the upper of two tokens binds more tightly, if both are operators. -/
def Tightens (upper lower : Token) : Prop :=
  ∀ upperLevel lowerLevel, upper.precedence = .ok upperLevel →
    lower.precedence = .ok lowerLevel → lowerLevel < upperLevel

theorem precedence_bounds {token : Token} {level : Nat} (known : token.precedence = .ok level) :
    0 < level ∧ level ≤ 3 := by
  obtain ⟨-, operator, -, rfl⟩ := precedence_eq_ok_iff.mp known
  exact ⟨operator.precedence_pos, operator.precedence_le_three⟩

theorem Named.exists_precedence {token : Token} (named : token.Named)
    (isOperator : token.kind = .operator) : ∃ level, token.precedence = .ok level := by
  obtain ⟨operator, found⟩ := Option.ne_none_iff_exists'.mp (named isOperator)
  exact ⟨operator.precedence, precedence_eq_ok_iff.mpr ⟨isOperator, operator, found, rfl⟩⟩

theorem named_of_precedence {token : Token} {level : Nat} (known : token.precedence = .ok level) :
    token.Named := by
  obtain ⟨-, operator, found, -⟩ := precedence_eq_ok_iff.mp known
  simp [Named, found]

theorem tightens_of_kind_ne {upper lower : Token} (noOperator : upper.kind ≠ .operator) :
    upper.Tightens lower := by
  intro upperLevel lowerLevel upperKnown
  exact absurd (precedence_eq_ok_iff.mp upperKnown).1 noOperator

/-- An operator may wait upon any token that it does not release. -/
theorem tightens_of_not_binds {upper lower : Token} {level : Nat}
    (known : upper.precedence = .ok level) (stays : ¬lower.Binds level) :
    upper.Tightens lower := by
  intro upperLevel lowerLevel upperKnown lowerKnown
  rw [known] at upperKnown
  cases upperKnown
  obtain ⟨isOperator, operator, found, rfl⟩ := precedence_eq_ok_iff.mp lowerKnown
  by_contra tight
  exact stays ⟨isOperator, operator, found, Nat.le_of_not_lt tight⟩

/-- Each operator on the way down costs at least one level. -/
theorem length_lt_of_tightens {top : Token} {below : List Token} {level : Nat}
    (tightens : (top :: below).IsChain Tightens)
    (known : ∀ token ∈ below, ∃ level, token.precedence = .ok level)
    (topKnown : top.precedence = .ok level) : below.length < level := by
  induction below generalizing top level with
  | nil => exact (precedence_bounds topKnown).1
  | cons next below inductionHypothesis =>
      obtain ⟨nextLevel, nextKnown⟩ := known next List.mem_cons_self
      obtain ⟨tighter, belowTightens⟩ := List.isChain_cons_cons.mp tightens
      have fewer := inductionHypothesis belowTightens
        (fun token member => known token (List.mem_cons_of_mem next member)) nextKnown
      have lower : nextLevel < level := tighter level nextLevel topKnown nextKnown
      rw [List.length_cons]
      omega

/-- As there are three levels, no more than three operators wait together. -/
theorem length_le_three_of_tightens {operators : List Token}
    (tightens : operators.IsChain Tightens)
    (known : ∀ token ∈ operators, ∃ level, token.precedence = .ok level) :
    operators.length ≤ 3 := by
  cases operators with
  | nil => exact Nat.zero_le 3
  | cons top below =>
      obtain ⟨level, topKnown⟩ := known top List.mem_cons_self
      have fewer := length_lt_of_tightens tightens
        (fun token member => known token (List.mem_cons_of_mem top member)) topKnown
      have few := (precedence_bounds topKnown).2
      rw [List.length_cons]
      omega

end Token

namespace Yard

open Token

/-! ## Points -/

/-- The yards that a reordering passes through, each with the tokens consumed so far. Between two
tokens the yard is as the run leaves it. Waiting tokens go to the output one at a time, for an
operator, for a closing, for the function of a group or at the end, and never past an opening. A
closing is consumed as it removes its opening. -/
inductive Point : List Token → Yard → Prop where
  | between {consumed : List Token} {reached : Yard} :
      consumed.foldlM step empty = .ok reached → Point consumed reached
  | sent {consumed : List Token} {output : Array Token} {top : Token} {below : List Token} :
      Point consumed ⟨output, top :: below⟩ → top.kind ≠ .leftParen →
        Point consumed ⟨output.push top, below⟩
  | closed {consumed : List Token} {output : Array Token} {opening closing : Token}
      {below : List Token} :
      Point consumed ⟨output, opening :: below⟩ → opening.kind = .leftParen →
        closing.kind = .rightParen → Point (consumed ++ [closing]) ⟨output, below⟩

/-! ## The invariant -/

/-- What is known of the yard at every point after some tokens are consumed. -/
structure Regular (consumed : List Token) (yard : Yard) : Prop where
  holds : yard.Holds Named
  tightens : yard.stack.IsChain Tightens
  depth : tally .leftParen yard.stack + tally .rightParen consumed = tally .leftParen consumed
  size : yard.output.size + yard.stack.length + 2 * tally .rightParen consumed = consumed.length

theorem regular_empty : Regular [] empty := ⟨holds_empty, .nil, rfl, rfl⟩

section Invariant

variable {consumed stack : List Token} {output : Array Token} {token : Token}

/-- Waiting tokens that are no openings may go to the output. -/
theorem Regular.moved {moved kept : List Token} (regular : Regular consumed ⟨output, moved ++ kept⟩)
    (noOpening : ∀ token ∈ moved, token.kind ≠ .leftParen) :
    Regular consumed ⟨output ++ moved, kept⟩ := by
  obtain ⟨holds, tightens, depth, size⟩ := regular
  refine ⟨holds.moved noOpening, tightens.right_of_append, ?_, ?_⟩
  · rw [tally_append, tally_eq_zero_iff.mpr noOpening, Nat.zero_add] at depth
    exact depth
  · simp only [← Array.length_toList, Array.toList_appendList, List.length_append] at size ⊢
    omega

theorem Regular.sent (regular : Regular consumed ⟨output, token :: stack⟩)
    (noOpening : token.kind ≠ .leftParen) : Regular consumed ⟨output.push token, stack⟩ := by
  have moved : Regular consumed ⟨output ++ [token], stack⟩ :=
    regular.moved (by simpa using noOpening)
  simpa using moved

/-- A closing takes its opening away, and neither is held from then on. -/
theorem Regular.closed {opening closing : Token}
    (regular : Regular consumed ⟨output, opening :: stack⟩) (isOpening : opening.kind = .leftParen)
    (isClosing : closing.kind = .rightParen) :
    Regular (consumed ++ [closing]) ⟨output, stack⟩ := by
  obtain ⟨holds, tightens, depth, size⟩ := regular
  refine ⟨holds.dropped, tightens.tail, ?_, ?_⟩
  · rw [tally_cons, if_pos isOpening] at depth
    simp only [tally_snoc, isClosing, reduceCtorEq, if_true, if_false]
    omega
  · simp only [tally_snoc, isClosing, if_true, List.length_cons, List.length_append,
      List.length_nil] at size ⊢
    omega

theorem Regular.takeFunction (regular : Regular consumed ⟨output, stack⟩) :
    Regular consumed (takeFunction output stack) := by
  rcases takeFunction_eq_or output stack with same | ⟨function, below, rfl, isFunction, taken⟩
  · rw [same]
    exact regular
  · rw [taken]
    exact regular.sent (by simp [isFunction])

/-- A token that waits joins those held, upon a token that it tightens. -/
theorem Regular.pushed (regular : Regular consumed ⟨output, stack⟩) (named : token.Named)
    (waits : token.kind ≠ .number ∧ token.kind ≠ .rightParen)
    (tightens : ∀ top ∈ stack.head?, token.Tightens top) :
    Regular (consumed ++ [token]) ⟨output, token :: stack⟩ := by
  obtain ⟨holds, chained, depth, size⟩ := regular
  refine ⟨holds.pushed named waits, chained.cons tightens, ?_, ?_⟩
  · simp only [tally_snoc, tally_cons, waits.2, if_false] at depth ⊢
    omega
  · simp only [tally_snoc, waits.2, if_false, List.length_cons, List.length_append,
      List.length_nil] at size ⊢
    omega

/-- Every step keeps the invariant. -/
theorem Regular.step {yard next : Yard} (regular : Regular consumed yard)
    (stepped : yard.step token = .ok next) : Regular (consumed ++ [token]) next := by
  obtain ⟨output, stack⟩ := yard
  rcases step_eq_ok stepped with ⟨isNumber, rfl⟩ | ⟨waits, rfl⟩ |
    ⟨isClosing, inner, opening, below, stackEq, innerOpen, isOpening, rfl⟩ |
    ⟨isOperator, level, released, kept, known, stackEq, binds, stops, rfl⟩
  · have named : token.Named := by simp [Named, isNumber]
    obtain ⟨holds, tightens, depth, size⟩ := regular
    refine ⟨holds.step named stepped, tightens, ?_, ?_⟩
    · simp only [tally_snoc, isNumber, reduceCtorEq, if_false]
      exact depth
    · simp only [tally_snoc, isNumber, reduceCtorEq, if_false, Array.size_push, List.length_append,
        List.length_singleton] at size ⊢
      omega
  · have noOperator : token.kind ≠ .operator ∧ token.kind ≠ .number ∧ token.kind ≠ .rightParen := by
      rcases waits with isFunction | isOpening
      · simp [isFunction]
      · simp [isOpening]
    exact regular.pushed (fun isOperator => absurd isOperator noOperator.1) noOperator.2
      fun _ _ => tightens_of_kind_ne noOperator.1
  · dsimp only at stackEq
    subst stackEq
    exact ((regular.moved innerOpen).closed isOpening isClosing).takeFunction
  · dsimp only at stackEq
    subst stackEq
    have noOpening : ∀ waiting ∈ released, waiting.kind ≠ .leftParen := by
      intro waiting member
      simp [(binds waiting member).1]
    -- What is kept is in order already, and the release has stopped at a token that may lie below.
    exact (regular.moved noOpening).pushed (named_of_precedence known) (by simp [isOperator])
      fun top isTop => tightens_of_not_binds known (stops top isTop)

theorem Regular.run {tokens : List Token} {yard final : Yard} (regular : Regular consumed yard)
    (ran : tokens.foldlM Yard.step yard = .ok final) : Regular (consumed ++ tokens) final :=
  foldlM_follows Regular (fun _ _ _ _ before stepped => before.step stepped) regular ran

/-- The invariant holds at every point, and not only between two tokens. -/
theorem Point.regular {yard : Yard} (point : Point consumed yard) : Regular consumed yard := by
  induction point with
  | between ran => exact regular_empty.run ran
  | sent _ noOpening inductionHypothesis => exact inductionHypothesis.sent noOpening
  | closed _ isOpening isClosing inductionHypothesis =>
      exact inductionHypothesis.closed isOpening isClosing

theorem Regular.exists_precedence {yard : Yard} (regular : Regular consumed yard)
    (waits : token ∈ yard.stack) (isOperator : token.kind = .operator) :
    ∃ level, token.precedence = .ok level :=
  (regular.holds.stack token waits).1.exists_precedence isOperator

/-- The release stops at no level for an operator that waits. -/
theorem Regular.exists_release {yard : Yard} (regular : Regular consumed yard) (level : Nat) :
    ∃ released kept, release level yard.stack = .ok (released, kept) := by
  cases split : release level yard.stack with
  | ok parts => exact ⟨parts.1, parts.2, rfl⟩
  | error cause =>
      obtain ⟨unknown, member, isOperator, notFound⟩ := release_eq_error split
      exact absurd notFound ((regular.holds.stack unknown member).1 isOperator)

/-- An operator with a precedence is taken, whatever waits. -/
theorem Regular.exists_step {yard : Yard} {level : Nat} (regular : Regular consumed yard)
    (known : token.precedence = .ok level) : ∃ next, yard.step token = .ok next := by
  have isOperator := (precedence_eq_ok_iff.mp known).1
  exact Yard.exists_step (named_of_precedence known)
    (fun waiting member => (regular.holds.stack waiting member).1)
    (fun isClosing => by simp [isOperator] at isClosing)

end Invariant

/-! ## Every point -/

/-- The yard at every point of a reordering, for tokens of any kinds and texts.

Only functions, openings and operators with a precedence wait. Of two operators that wait one right
above the other the upper one binds more tightly, so no more than three wait together. The openings
that wait are those consumed less the closings consumed, and no parenthesis is in the output. All
tokens held are as many as those consumed, less two for each closing. What waits is therefore never
the reason for a refusal of an operator: the release goes through at every level, and every operator
with a precedence of its own is taken. -/
theorem waiting_operators_tighten_at_every_point {consumed : List Token} {yard : Yard}
    (point : Point consumed yard) :
    (∀ token ∈ yard.stack, token.kind = .function ∨ token.kind = .leftParen ∨
        token.kind = .operator ∧ ∃ level, token.precedence = .ok level) ∧
      (∀ above upper lower below, yard.stack = above ++ upper :: lower :: below →
        upper.kind = .operator → lower.kind = .operator →
          ∃ upperLevel lowerLevel, upper.precedence = .ok upperLevel ∧
            lower.precedence = .ok lowerLevel ∧ lowerLevel < upperLevel) ∧
      (∀ above together below, yard.stack = above ++ together ++ below →
        (∀ token ∈ together, token.kind = .operator) → together.length ≤ 3) ∧
      tally .leftParen yard.stack + tally .rightParen consumed = tally .leftParen consumed ∧
      (∀ token ∈ yard.output.toList, token.kind ≠ .leftParen ∧ token.kind ≠ .rightParen) ∧
      yard.output.size + yard.stack.length + 2 * tally .rightParen consumed = consumed.length ∧
      (∀ level, ∃ released kept, release level yard.stack = .ok (released, kept)) ∧
      ∀ token level, token.precedence = .ok level → ∃ next, yard.step token = .ok next := by
  have regular := point.regular
  refine ⟨?_, ?_, ?_, regular.depth, ?_, regular.size, regular.exists_release,
    fun token level known => regular.exists_step known⟩
  · intro token waits
    obtain ⟨-, notNumber, notClosing⟩ := regular.holds.stack token waits
    cases kind : token.kind with
    | number => exact absurd kind notNumber
    | rightParen => exact absurd kind notClosing
    | function => exact Or.inl rfl
    | leftParen => exact Or.inr (Or.inl rfl)
    | operator => exact Or.inr (Or.inr ⟨rfl, regular.exists_precedence waits kind⟩)
  · intro above upper lower below split upperOperator lowerOperator
    have upperWaits : upper ∈ yard.stack := by simp [split]
    have lowerWaits : lower ∈ yard.stack := by simp [split]
    obtain ⟨upperLevel, upperKnown⟩ := regular.exists_precedence upperWaits upperOperator
    obtain ⟨lowerLevel, lowerKnown⟩ := regular.exists_precedence lowerWaits lowerOperator
    have tightens : upper.Tightens lower :=
      List.isChain_iff_forall_rel_of_append_cons_cons.mp regular.tightens split
    exact ⟨upperLevel, lowerLevel, upperKnown, lowerKnown,
      tightens upperLevel lowerLevel upperKnown lowerKnown⟩
  · intro above together below split areOperators
    have tightens := regular.tightens
    rw [split] at tightens
    refine length_le_three_of_tightens tightens.left_of_append.right_of_append fun token member => ?_
    exact regular.exists_precedence (by simp [split, member]) (areOperators token member)
  · intro token member
    exact (regular.holds.output token member).2

/-- Three operators wait upon a function in a group, and an operator waits below the group. When two
of the three are sent and the third still waits, the counts are right as well. -/
theorem three_operators_wait_in_a_group :
    let number (text : String) : Token := ⟨.number, text, none⟩
    let consumed := [number "2", ofOperator .multiply, opening, ofFunction .sine, number "3",
      ofOperator .add, number "4", ofOperator .multiply, number "5", ofOperator .power]
    let numbers := #[number "2", number "3", number "4", number "5"]
    let below := [ofFunction .sine, opening, ofOperator .multiply]
    let reached : Yard :=
      ⟨numbers, ofOperator .power :: ofOperator .multiply :: ofOperator .add :: below⟩
    let halfway : Yard :=
      ⟨(numbers.push (ofOperator .power)).push (ofOperator .multiply), ofOperator .add :: below⟩
    Point consumed reached ∧ [ofOperator .power, ofOperator .multiply, ofOperator .add].length ≤ 3 ∧
      Point consumed halfway ∧
      tally .leftParen halfway.stack + tally .rightParen consumed = tally .leftParen consumed ∧
      halfway.output.size + halfway.stack.length + 2 * tally .rightParen consumed =
        consumed.length ∧
      ∃ next, halfway.step (ofOperator .subtract) = .ok next := by
  intro number consumed numbers below reached halfway
  have ran : consumed.foldlM step empty = .ok reached := by decide
  have reachedPoint : Point consumed reached := .between ran
  have halfwayPoint : Point consumed halfway :=
    .sent (.sent reachedPoint (by decide)) (by decide)
  obtain ⟨-, -, together, -⟩ := waiting_operators_tighten_at_every_point reachedPoint
  obtain ⟨-, -, -, depth, -, size, -, taken⟩ :=
    waiting_operators_tighten_at_every_point halfwayPoint
  exact ⟨reachedPoint, together [] _ below rfl (by decide), halfwayPoint, depth, size,
    taken _ _ (precedence_ofOperator .subtract)⟩

end Yard

end PocketCalc
