import PocketCalc.Proofs.Stage.Offence
import PocketCalc.Proofs.Yard.Conservation
import PocketCalc.Proofs.Yard.Depth

/-!
Contract: all that a reordering can give.

Owns:
- `Offends`, the two ways in which a token cannot follow the tokens before it, with the reasons;
- `Follows`, what is known of the yard after tokens of which none offends, kept by every step;
- a run up to the first token that offends;
- the outcome of every reordering, with what a reordering that succeeds keeps.

Does not own: the order of the operations; see `Yard/Grouping`.

Whether a token offends is said of the tokens before it, with no mention of what waits. The link is
that the openings that wait are the openings read less the closings read.
-/

namespace PocketCalc

open PocketCalc.Stage

namespace Token

/-- The causes for which a token cannot follow the tokens before it, each with its reason: a closing
without an open group, and an operator that does not exist. -/
inductive Offends (before : List Token) (token : Token) : Failure → String → Prop where
  | unmatchedClosing : token.kind = .rightParen →
      tally .leftParen before ≤ tally .rightParen before →
      Offends before token .unmatchedClosing "unmatched ')'"
  | unknownOperator : token.kind = .operator →
      (∀ operator : Operator, operator.symbol ≠ token.text) →
      Offends before token (.noPrecedence token.text)
        ("no precedence for " ++ Text.quote token.text)

/-- Whether no token among some offends. -/
def Inoffensive (tokens : List Token) : Prop :=
  ∀ before token after, tokens = before ++ token :: after →
    ∀ cause reason, ¬Offends before token cause reason

/-- Whether the leftmost token that offends does so for a cause. -/
def FirstOffence (tokens : List Token) (cause : Failure) (reason : String) : Prop :=
  ∃ before token after, tokens = before ++ token :: after ∧ Inoffensive before ∧
    Offends before token cause reason

theorem Offends.reason_eq {before : List Token} {token : Token} {cause : Failure} {reason : String}
    (offends : Offends before token cause reason) : cause.reason = reason := by
  cases offends <;> rfl

theorem inoffensive_nil : Inoffensive [] := noneOffends_nil

theorem inoffensive_snoc_iff {before : List Token} {token : Token} :
    Inoffensive (before ++ [token]) ↔
      Inoffensive before ∧ ∀ cause reason, ¬Offends before token cause reason :=
  noneOffends_snoc_iff

/-- Some token offends first, unless none does. -/
theorem inoffensive_or_firstOffence (tokens : List Token) :
    Inoffensive tokens ∨ ∃ cause reason, FirstOffence tokens cause reason :=
  noneOffends_or_firstOffends Offends tokens

theorem named_of_not_offends {before : List Token} {token : Token}
    (inoffensive : ∀ cause reason, ¬Offends before token cause reason) : token.Named := by
  intro isOperator notFound
  refine inoffensive _ _ (.unknownOperator isOperator fun operator same => ?_)
  rw [Operator.ofSymbol?_eq_some_iff.mpr same] at notFound
  cases notFound

/-! ## Numbers -/

/-- The numbers among tokens, in their order. -/
def numbersAmong (tokens : List Token) : List Token := tokens.filter (·.kind = .number)

@[simp]
theorem numbersAmong_append (left right : List Token) :
    numbersAmong (left ++ right) = numbersAmong left ++ numbersAmong right :=
  List.filter_append left right

theorem numbersAmong_eq_nil {tokens : List Token} (none : ∀ token ∈ tokens, token.kind ≠ .number) :
    numbersAmong tokens = [] := by
  simpa [numbersAmong] using none

end Token

namespace Yard

open Token

theorem numbersAmong_output_takeFunction (output : Array Token) (stack : List Token) :
    numbersAmong (takeFunction output stack).output.toList = numbersAmong output.toList := by
  rcases takeFunction_eq_or output stack with same | ⟨function, below, rfl, isFunction, taken⟩
  · rw [same]
  · rw [taken]
    simp [numbersAmong, isFunction]

/-- No number waits, so a number only joins the output behind the numbers before it. -/
theorem numbersAmong_output_of_step {Allowed : Token → Prop} {yard next : Yard} {token : Token}
    (holds : Holds Allowed yard) (stepped : yard.step token = .ok next) :
    numbersAmong next.output.toList = numbersAmong yard.output.toList ++ numbersAmong [token] := by
  have noneWaits : ∀ waiting ∈ yard.stack, waiting.kind ≠ .number := fun waiting member =>
    (holds.stack waiting member).2.1
  rcases step_eq_ok stepped with ⟨isNumber, rfl⟩ | ⟨waits, rfl⟩ |
    ⟨isClosing, inner, opening, below, stackEq, -, -, rfl⟩ |
    ⟨isOperator, level, released, kept, -, stackEq, -, -, rfl⟩
  · simp
  · have noNumber : numbersAmong [token] = [] := by
      apply numbersAmong_eq_nil
      rcases waits with isFunction | isOpening
      · simp [isFunction]
      · simp [isOpening]
    rw [noNumber, List.append_nil]
  · rw [stackEq] at noneWaits
    have innerNumbers := numbersAmong_eq_nil fun waiting member =>
      noneWaits waiting (List.mem_append_left (opening :: below) member)
    have noNumber : numbersAmong [token] = [] := numbersAmong_eq_nil (by simp [isClosing])
    rw [numbersAmong_output_takeFunction, noNumber]
    simp [innerNumbers]
  · rw [stackEq] at noneWaits
    have releasedNumbers := numbersAmong_eq_nil fun waiting member =>
      noneWaits waiting (List.mem_append_left kept member)
    have noNumber : numbersAmong [token] = [] := numbersAmong_eq_nil (by simp [isOperator])
    rw [noNumber]
    simp [releasedNumbers]

/-! ## Runs -/

/-- What is known of the yard after tokens of which none offends. -/
structure Follows (tokens : List Token) (reached : Yard) : Prop where
  holds : reached.Holds Named
  depth : tally .leftParen reached.stack + tally .rightParen tokens = tally .leftParen tokens
  numbers : numbersAmong reached.output.toList = numbersAmong tokens

theorem follows_empty : Follows [] empty := ⟨holds_empty, rfl, rfl⟩

/-- A token that does not offend is taken. -/
theorem Follows.step {before : List Token} {reached : Yard} {token : Token}
    (follows : Follows before reached)
    (inoffensive : ∀ cause reason, ¬Offends before token cause reason) :
    ∃ next, reached.step token = .ok next ∧ Follows (before ++ [token]) next := by
  obtain ⟨holds, depth, numbers⟩ := follows
  have named := named_of_not_offends inoffensive
  have groupOpen : token.kind = .rightParen → 0 < tally .leftParen reached.stack := by
    intro isClosing
    have notMatched : ¬tally .leftParen before ≤ tally .rightParen before := fun matched =>
      inoffensive _ _ (.unmatchedClosing isClosing matched)
    omega
  obtain ⟨next, stepped⟩ := exists_step named (fun waiting member => (holds.stack waiting member).1)
    groupOpen
  have changed := tally_stack_of_step stepped
  refine ⟨next, stepped, holds.step named stepped, ?_, ?_⟩
  · simp only [tally_append, tally_cons, tally_nil]
    omega
  · rw [numbersAmong_output_of_step holds stepped, numbers, numbersAmong_append]

/-- A token that offends is refused for the cause. -/
theorem Follows.step_eq_error {before : List Token} {reached : Yard} {token : Token}
    {cause : Failure} {reason : String} (follows : Follows before reached)
    (offends : Offends before token cause reason) : reached.step token = .error cause := by
  cases offends with
  | unmatchedClosing isClosing matched =>
      have depth := follows.depth
      cases stepped : reached.step token with
      | ok next =>
          have changed := tally_stack_of_step stepped
          rw [if_pos isClosing, if_neg (by simp [isClosing])] at changed
          omega
      | error cause =>
          rcases Yard.step_eq_error stepped with ⟨-, rfl, -⟩ | ⟨isOperator, -⟩
          · rfl
          · simp [isClosing] at isOperator
  | unknownOperator isOperator unknown =>
      have noPrecedence : token.precedence = .error (.noPrecedence token.text) := by
        refine precedence_eq_error_iff.mpr ⟨rfl, fun _ => ?_⟩
        exact Option.eq_none_iff_forall_ne_some.mpr fun operator found =>
          unknown operator (Operator.ofSymbol?_eq_some_iff.mp found)
      rw [step_operator _ isOperator, takeOperator, noPrecedence]
      rfl

theorem run_of_inoffensive {tokens : List Token} (inoffensive : Inoffensive tokens) :
    ∃ reached, tokens.foldlM Yard.step empty = .ok reached ∧ Follows tokens reached :=
  foldlM_of_noneOffends follows_empty (fun _ _ _ follows kept => follows.step kept) inoffensive

theorem run_of_firstOffence {tokens : List Token} {cause : Failure} {reason : String}
    (offence : FirstOffence tokens cause reason) :
    tokens.foldlM Yard.step empty = .error cause :=
  foldlM_of_firstOffends follows_empty (fun _ _ _ follows kept => follows.step kept)
    (fun _ _ _ _ _ follows offends => follows.step_eq_error offends) offence

end Yard

namespace PostOrder

open Token

/-! ## Outcomes -/

theorem ofTokens_of_firstOffence {tokens : List Token} {cause : Failure} {reason : String}
    (offence : FirstOffence tokens cause reason) : ofTokens tokens = .error cause := by
  rw [ofTokens, Yard.run_of_firstOffence offence]
  rfl

/-- Tokens of which none offends are refused only for a group that is still open at their end. -/
theorem ofTokens_of_inoffensive {tokens : List Token} (inoffensive : Inoffensive tokens) :
    (tally .rightParen tokens < tally .leftParen tokens ∧
        ofTokens tokens = .error .unmatchedOpening) ∨
      (tally .leftParen tokens = tally .rightParen tokens ∧
        ∃ ordered, ofTokens tokens = .ok ordered ∧
          numbersAmong ordered = numbersAmong tokens) := by
  obtain ⟨reached, ran, follows⟩ := Yard.run_of_inoffensive inoffensive
  have depth := follows.depth
  rw [ofTokens, ran, ok_bind]
  cases finished : reached.finish with
  | error cause =>
      have groupOpen : 0 < tally .leftParen reached.stack := by
        refine Nat.pos_of_ne_zero fun noneOpen => ?_
        have accepted := Yard.finish_eq_ok_iff.mpr ⟨tally_eq_zero_iff.mp noneOpen, rfl⟩
        rw [finished] at accepted
        cases accepted
      exact Or.inl ⟨by omega, by rw [Yard.finish_eq_error finished]⟩
  | ok ordered =>
      obtain ⟨noneOpen, rfl⟩ := Yard.finish_eq_ok_iff.mp finished
      rw [tally_eq_zero_iff.mpr noneOpen] at depth
      have noneWaits := numbersAmong_eq_nil fun waiting member =>
        (follows.holds.stack waiting member).2.1
      refine Or.inr ⟨by omega, _, rfl, ?_⟩
      rw [numbersAmong_append, noneWaits, List.append_nil, follows.numbers]

/-- Every reordering of tokens with any kinds and texts comes out in one of the ways that their
parentheses and operators allow.

The leftmost token that offends decides the failure, with its reason. If none does, the reordering
fails for an opening without its closing exactly if there are more openings than closings, and
succeeds otherwise. What comes out are then the tokens other than parentheses, each unchanged and as
often as it was, and the numbers among them in their written order. -/
theorem reordering_outcomes (tokens : List Token) :
    (∀ cause reason, FirstOffence tokens cause reason →
        ofTokens tokens = .error cause ∧ cause.reason = reason) ∧
      (Inoffensive tokens → tally .rightParen tokens < tally .leftParen tokens →
        ofTokens tokens = .error .unmatchedOpening ∧
          Failure.unmatchedOpening.reason = "unmatched '('") ∧
      (Inoffensive tokens → tally .leftParen tokens ≤ tally .rightParen tokens →
        ∃ ordered, ofTokens tokens = .ok ordered) ∧
      (Inoffensive tokens ∨ ∃ cause reason, FirstOffence tokens cause reason) ∧
      ∀ ordered, ofTokens tokens = .ok ordered →
        ordered.Perm (tokens.filter fun token =>
            token.kind ≠ .leftParen ∧ token.kind ≠ .rightParen) ∧
          (∀ token ∈ ordered, token.kind ≠ .leftParen ∧ token.kind ≠ .rightParen) ∧
          ordered.filter (·.kind = .number) = tokens.filter (·.kind = .number) := by
  refine ⟨?_, ?_, ?_, inoffensive_or_firstOffence tokens, ?_⟩
  · intro cause reason offence
    have refused := ofTokens_of_firstOffence offence
    obtain ⟨before, token, after, -, -, offends⟩ := offence
    exact ⟨refused, offends.reason_eq⟩
  · intro inoffensive groupOpen
    rcases ofTokens_of_inoffensive inoffensive with ⟨-, refused⟩ | ⟨matched, -⟩
    · exact ⟨refused, rfl⟩
    · omega
  · intro inoffensive noneOpen
    rcases ofTokens_of_inoffensive inoffensive with ⟨groupOpen, -⟩ | ⟨-, ordered, accepted, -⟩
    · omega
    · exact ⟨ordered, accepted⟩
  · intro ordered accepted
    have fromInput : ∀ token ∈ tokens, token ∈ tokens := fun _ member => member
    have outside := forall_mem_of_ofTokens fromInput accepted
    refine ⟨?_, fun token member => (outside token member).2, ?_⟩
    · have conserved := perm_ungrouped_of_ofTokens accepted
      have sameFilter : ungrouped tokens = tokens.filter fun token =>
          token.kind ≠ .leftParen ∧ token.kind ≠ .rightParen := by
        simp [ungrouped, groups]
      rw [← sameFilter]
      exact conserved
    · rcases inoffensive_or_firstOffence tokens with inoffensive | ⟨cause, reason, offence⟩
      · rcases ofTokens_of_inoffensive inoffensive with ⟨-, refused⟩ | ⟨-, other, otherEq, numbers⟩
        · rw [accepted] at refused
          cases refused
        · rw [accepted] at otherEq
          cases otherEq
          exact numbers
      · rw [ofTokens_of_firstOffence offence] at accepted
        cases accepted

/-- Of an operator that does not exist and a closing without its opening the one on the left decides
the failure, and a group with an operation in it comes out without its parentheses. -/
theorem unknown_operator_is_refused_before_unmatched_closing :
    let number (text : String) : Token := ⟨.number, text, none⟩
    let remainder : Token := ⟨.operator, "%", none⟩
    let offending := [number "2", remainder, closing]
    let grouped := [opening, number "2", ofOperator .add, number "3", closing]
    FirstOffence offending (.noPrecedence "%") "no precedence for '%'" ∧
      ofTokens offending = .error (.noPrecedence "%") ∧
      ofTokens grouped = .ok [number "2", number "3", ofOperator .add] ∧
      [number "2", number "3", ofOperator .add].filter (·.kind = .number) =
        grouped.filter (·.kind = .number) := by
  intro number remainder offending grouped
  have numberInoffensive : Inoffensive [number "2"] := by
    refine inoffensive_snoc_iff.mpr ⟨inoffensive_nil, ?_⟩
    rintro cause reason (⟨isClosing, -⟩ | ⟨isOperator, -⟩)
    · cases isClosing
    · cases isOperator
  have offence : FirstOffence offending (.noPrecedence "%") "no precedence for '%'" := by
    have unknown : ∀ operator : Operator, operator.symbol ≠ remainder.text := by
      intro operator
      cases operator <;> decide
    have reasonEq : "no precedence for " ++ Text.quote remainder.text = "no precedence for '%'" := by
      decide +kernel
    have offends : Offends [number "2"] remainder _ _ := .unknownOperator rfl unknown
    rw [reasonEq] at offends
    exact ⟨[number "2"], remainder, [closing], rfl, numberInoffensive, offends⟩
  have accepted : ofTokens grouped = .ok [number "2", number "3", ofOperator .add] := by decide
  obtain ⟨refused, -⟩ := reordering_outcomes offending
  obtain ⟨-, -, -, -, kept⟩ := reordering_outcomes grouped
  exact ⟨offence, (refused _ _ offence).1, accepted, (kept _ accepted).2.2⟩

end PostOrder

end PocketCalc
