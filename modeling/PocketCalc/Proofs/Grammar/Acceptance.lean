import PocketCalc.Proofs.Grammar.Faults
import PocketCalc.Proofs.Yard.Depth

/-!
Contract: which texts have a value, by their faults against the infix grammar.

Owns:
- the depth of the open groups as the yard knows it, and the runs that it allows;
- `Settled`, what the output has computed while tokens without a fault are read;
- a text with a value has matched parentheses and as many juxtapositions as gaps, and a text without
  the one or the other has a value exactly if it is a sentence.

Does not own: which texts with faults of both kinds have a value.

Nothing compares neighbours while the tokens are reordered. A number that nothing asked for can make
up for an operand that is missing elsewhere, so only the counts of the faults are bound.
-/

namespace PocketCalc

open PocketCalc.Stage PocketCalc.Token

namespace PostOrder

/-! ## Operations that find their operands -/

theorem exists_push {values : List Float} {token : Token} (proper : token.Proper)
    (isOperation : token.kind = .function ∨ token.kind = .operator)
    (enough : (if token.kind = .operator then 1 else 0) < values.length) :
    ∃ next, push values token = .ok next := by
  cases proper with
  | function function =>
      match values with
      | [] => simp at enough
      | argument :: rest => exact ⟨_, push_function argument rest function none⟩
  | operator operator =>
      match values with
      | [] => simp at enough
      | [_] => simp at enough
      | right :: left :: rest => exact ⟨_, push_operator left right rest operator none⟩
  | number text value => simp [ofNumber] at isOperation
  | opening => simp at isOperation
  | closing => simp at isOperation

/-- Operations over more values than there are operators among them go through. -/
theorem exists_foldlM_push {values : List Float} {waiting : List Token}
    (operations : ∀ token ∈ waiting,
      token.Proper ∧ (token.kind = .function ∨ token.kind = .operator))
    (enough : operators waiting < values.length) :
    ∃ final, waiting.foldlM push values = .ok final ∧
      final.length + operators waiting = values.length := by
  induction waiting generalizing values with
  | nil => exact ⟨values, rfl, rfl⟩
  | cons token waiting inductionHypothesis =>
      rw [operators_cons] at enough ⊢
      obtain ⟨proper, isOperation⟩ := operations token List.mem_cons_self
      have tokenEnough : (if token.kind = .operator then 1 else 0) < values.length := by omega
      obtain ⟨next, pushed⟩ := exists_push proper isOperation tokenEnough
      have changed := length_of_push pushed
      have noNumber : token.kind ≠ .number := by
        rcases isOperation with isFunction | isOperator
        · simp [isFunction]
        · simp [isOperator]
      rw [if_neg noNumber] at changed
      have nextEnough : operators waiting < next.length := by omega
      obtain ⟨final, ran, counted⟩ := inductionHypothesis
        (fun other member => operations other (List.mem_cons_of_mem token member)) nextEnough
      exact ⟨final, foldlM_cons_eq_ok_iff.mpr ⟨next, pushed, ran⟩, by omega⟩

end PostOrder

namespace Yard

/-! ## Depth -/

/-- The openings that wait are the groups that are open. -/
theorem depthAfter?_of_step {yard next : Yard} {token : Token}
    (stepped : yard.step token = .ok next) :
    depthAfter? (tally .leftParen yard.stack) token = some (tally .leftParen next.stack) := by
  have changed := tally_stack_of_step stepped
  cases kind : token.kind with
  | leftParen =>
      simp [kind] at changed
      rw [depthAfter?_of_opening kind, changed]
  | rightParen =>
      simp [kind] at changed
      rw [← changed, depthAfter?_of_closing kind]
  | number | operator | function =>
      simp [kind] at changed
      rw [depthAfter?_of_other (by simp [kind]) (by simp [kind]), changed]

theorem foldlM_depthAfter?_of_run {yard final : Yard} {tokens : List Token}
    (ran : tokens.foldlM step yard = .ok final) :
    tokens.foldlM depthAfter? (tally .leftParen yard.stack) =
      some (tally .leftParen final.stack) := by
  induction tokens generalizing yard with
  | nil =>
      cases ran
      rfl
  | cons token rest inductionHypothesis =>
      obtain ⟨next, stepped, restRan⟩ := foldlM_cons_eq_ok_iff.mp ran
      rw [foldlM_depthAfter?_cons (depthAfter?_of_step stepped)]
      exact inductionHypothesis restRan

/-- Proper tokens are read to their end if none closes a group that is not open. -/
theorem exists_run {yard : Yard} {tokens : List Token} {depth : Nat} (holds : yard.Holds Proper)
    (proper : ∀ token ∈ tokens, token.Proper)
    (closes : tokens.foldlM depthAfter? (tally .leftParen yard.stack) = some depth) :
    ∃ final, tokens.foldlM step yard = .ok final := by
  induction tokens generalizing yard with
  | nil => exact ⟨yard, rfl⟩
  | cons token rest inductionHypothesis =>
      have tokenProper := proper token List.mem_cons_self
      have groupOpen : token.kind = .rightParen → 0 < tally .leftParen yard.stack := by
        intro isClosing
        refine Nat.pos_of_ne_zero fun noneOpen => ?_
        rw [List.foldlM_cons, depthAfter?, isClosing, noneOpen] at closes
        cases closes
      obtain ⟨next, stepped⟩ := exists_step tokenProper.named
        (fun waiting member => (holds.stack waiting member).1.named) groupOpen
      rw [foldlM_depthAfter?_cons (depthAfter?_of_step stepped)] at closes
      obtain ⟨final, ran⟩ := inductionHypothesis (holds.step tokenProper stepped)
        (fun other member => proper other (List.mem_cons_of_mem token member)) closes
      exact ⟨final, foldlM_cons_eq_ok_iff.mpr ⟨next, stepped, ran⟩⟩

/-! ## Values in the output -/

/-- The output has as many values as operators wait, and one more where an operand has ended. -/
structure Settled (ended : Bool) (yard : Yard) : Prop where
  holds : yard.Holds Proper
  computed : ∃ values, yard.output.toList.foldlM PostOrder.push [] = .ok values ∧
    values.length = operators yard.stack + if ended then 1 else 0

theorem settled_empty : Settled false empty := ⟨holds_empty, [], rfl, rfl⟩

/-- Where an operand has ended, the waiting operations above any others find their operands. -/
theorem Settled.moved {output : Array Token} {moved kept : List Token}
    (settled : Settled true ⟨output, moved ++ kept⟩)
    (noOpening : ∀ token ∈ moved, token.kind ≠ .leftParen) :
    Settled true ⟨output ++ moved, kept⟩ := by
  obtain ⟨holds, values, computed, counted⟩ := settled
  rw [operators_append, if_pos rfl] at counted
  have operations : ∀ token ∈ moved,
      token.Proper ∧ (token.kind = .function ∨ token.kind = .operator) := by
    intro token member
    obtain ⟨proper, notNumber, notClosing⟩ := holds.stack token (List.mem_append_left kept member)
    refine ⟨proper, ?_⟩
    cases kind : token.kind with
    | function => exact .inl rfl
    | operator => exact .inr rfl
    | number => exact absurd kind notNumber
    | leftParen => exact absurd kind (noOpening token member)
    | rightParen => exact absurd kind notClosing
  have enough : operators moved < values.length := by omega
  obtain ⟨final, ran, finalCounted⟩ := PostOrder.exists_foldlM_push operations enough
  refine ⟨holds.moved noOpening, final, ?_, ?_⟩
  · rw [Array.toList_appendList, List.foldlM_append, computed]
    exact ran
  · rw [if_pos rfl]
    dsimp only
    omega

theorem Settled.dropped {ended : Bool} {output : Array Token} {stack : List Token} {token : Token}
    (settled : Settled ended ⟨output, token :: stack⟩) (noOperator : token.kind ≠ .operator) :
    Settled ended ⟨output, stack⟩ := by
  obtain ⟨holds, values, computed, counted⟩ := settled
  rw [operators_cons, if_neg noOperator] at counted
  exact ⟨holds.dropped, values, computed, counted⟩

theorem Settled.takeFunction {output : Array Token} {stack : List Token}
    (settled : Settled true ⟨output, stack⟩) : Settled true (takeFunction output stack) := by
  rcases takeFunction_eq_or output stack with same | ⟨function, below, rfl, isFunction, taken⟩
  · rw [same]
    exact settled
  · rw [taken]
    have moved : Settled true ⟨output ++ [function], below⟩ := settled.moved (by simp [isFunction])
    simpa using moved

/-- A token that starts an operand where none has ended, or does not start one where one has, keeps
the count. -/
theorem Settled.step {ended : Bool} {yard next : Yard} {token : Token}
    (settled : Settled ended yard) (proper : token.Proper) (starts : token.startsOperand = !ended)
    (stepped : yard.step token = .ok next) : Settled token.endsOperand next := by
  have holds := settled.holds.step proper stepped
  rcases step_eq_ok stepped with ⟨isNumber, rfl⟩ | ⟨waits, rfl⟩ |
    ⟨isClosing, inner, opening, below, stackEq, innerOpen, isOpening, rfl⟩ |
    ⟨isOperator, level, released, kept, -, stackEq, binds, -, rfl⟩
  · obtain ⟨-, values, computed, counted⟩ := settled
    obtain rfl : ended = false := by simpa [startsOperand, isNumber] using starts
    have ends : token.endsOperand = true := by rw [endsOperand, isNumber]
    rw [ends]
    refine ⟨holds, token.value.getD Number.notANumber :: values, ?_, ?_⟩
    · rw [Array.toList_push, List.foldlM_append, computed, ok_bind, foldlM_cons_eq_ok_iff]
      exact ⟨_, PostOrder.push_eq_ok_iff.mpr (.inl ⟨isNumber, rfl⟩), rfl⟩
    · rw [List.length_cons, counted]
      rfl
  · obtain ⟨-, values, computed, counted⟩ := settled
    have unchanged : ended = false ∧ token.endsOperand = false ∧ token.kind ≠ .operator := by
      rcases waits with kind | kind <;> simpa [startsOperand, endsOperand, kind] using starts
    obtain ⟨rfl, ends, noOperator⟩ := unchanged
    rw [ends]
    refine ⟨holds, values, computed, ?_⟩
    rw [operators_cons, if_neg noOperator, counted]
    rfl
  · obtain rfl : ended = true := by simpa [startsOperand, isClosing] using starts
    have ends : token.endsOperand = true := by rw [endsOperand, isClosing]
    obtain ⟨output, stack⟩ := yard
    subst stackEq
    rw [ends]
    exact ((settled.moved innerOpen).dropped (by simp [isOpening])).takeFunction
  · obtain rfl : ended = true := by simpa [startsOperand, isOperator] using starts
    have ends : token.endsOperand = false := by rw [endsOperand, isOperator]
    have noOpening : ∀ other ∈ released, other.kind ≠ .leftParen := by
      intro other member
      simp [(binds other member).1]
    obtain ⟨output, stack⟩ := yard
    subst stackEq
    obtain ⟨-, values, computed, counted⟩ := settled.moved noOpening
    rw [ends]
    refine ⟨holds, values, computed, ?_⟩
    rw [operators_cons, if_pos isOperator, counted]
    rfl

theorem Settled.run {ended : Bool} {yard final : Yard} {tokens : List Token}
    (settled : Settled ended yard) (proper : ∀ token ∈ tokens, token.Proper)
    (faultless : Faultless ended tokens) (ran : tokens.foldlM Yard.step yard = .ok final) :
    Settled true final := by
  induction tokens generalizing ended yard with
  | nil =>
      cases ran
      obtain rfl := faultless_nil_iff.mp faultless
      exact settled
  | cons token rest inductionHypothesis =>
      obtain ⟨starts, restFaultless⟩ := faultless_cons_iff.mp faultless
      obtain ⟨next, stepped, restRan⟩ := foldlM_cons_eq_ok_iff.mp ran
      have nextSettled := settled.step (proper token List.mem_cons_self) starts stepped
      exact inductionHypothesis nextSettled
        (fun other member => proper other (List.mem_cons_of_mem token member)) restFaultless restRan

end Yard

namespace PostOrder

/-! ## Whole sequences -/

theorem matched_of_ofTokens {tokens ordered : List Token}
    (reordered : ofTokens tokens = .ok ordered) : Matched tokens := by
  obtain ⟨yard, ran, finished⟩ := bind_eq_ok_iff.mp reordered
  obtain ⟨noneOpen, -⟩ := Yard.finish_eq_ok_iff.mp finished
  have depth := Yard.foldlM_depthAfter?_of_run ran
  rw [tally_eq_zero_iff.mpr noneOpen] at depth
  exact depth

/-- A sentence is reordered, and its order has a value. -/
theorem exists_value_of_sentence {tokens : List Token} (proper : ∀ token ∈ tokens, token.Proper)
    (sentence : Sentence tokens) :
    ∃ ordered result, ofTokens tokens = .ok ordered ∧ value ordered = .ok result := by
  have matched : tokens.foldlM depthAfter? (tally .leftParen Yard.empty.stack) = some 0 :=
    sentence.matched
  obtain ⟨⟨output, stack⟩, ran⟩ := Yard.exists_run Yard.holds_empty proper matched
  have depth := Yard.foldlM_depthAfter?_of_run ran
  rw [matched] at depth
  have noneOpen := tally_eq_zero_iff.mp (Option.some.inj depth).symm
  have settled := Yard.settled_empty.run proper sentence.faultless ran
  -- At the end all that waits finds its operands, and one value is left.
  have emptied : Yard.Settled true ⟨output, stack ++ []⟩ := by
    rw [List.append_nil]
    exact settled
  obtain ⟨-, values, computed, counted⟩ := emptied.moved noneOpen
  obtain ⟨result, rfl⟩ := List.length_eq_one_iff.mp counted
  rw [Array.toList_appendList] at computed
  refine ⟨output.toList ++ stack, result, bind_eq_ok_iff.mpr ⟨_, ran, ?_⟩,
    value_eq_ok_iff.mpr computed⟩
  exact Yard.finish_eq_ok_iff.mpr ⟨noneOpen, rfl⟩

end PostOrder

/-! ## Texts -/

/-- Of a text with a value the parentheses match, and its tokens are a sentence of the infix grammar
or have faults of both kinds, as many juxtapositions as gaps. A text with faults of at most one kind
has a value if its tokens are a sentence, and else fails. -/
theorem accepted_texts_balance_faults {expression : String} (present : expression ≠ "") :
    (∀ value, evaluate (.text expression) = .ok value →
        ∃ tokens, Token.ofText expression = .ok tokens ∧ Matched tokens ∧
          juxtapositions false tokens = gaps false tokens ∧
          (Sentence tokens ∨ 0 < juxtapositions false tokens)) ∧
      ∀ tokens, Token.ofText expression = .ok tokens →
        juxtapositions false tokens = 0 ∨ gaps false tokens = 0 →
          (Sentence tokens ∧ ∃ value, evaluate (.text expression) = .ok value) ∨
            (¬Sentence tokens ∧ evaluate (.text expression) = .error ⟨⟩) := by
  have accepted {value : Float} (valued : evaluate (.text expression) = .ok value) :
      ∃ tokens, Token.ofText expression = .ok tokens ∧ Matched tokens ∧
        juxtapositions false tokens = gaps false tokens ∧
        (Sentence tokens ∨ 0 < juxtapositions false tokens) := by
    rw [evaluate_eq_ok_iff, Evaluation.result_run_text present] at valued
    obtain ⟨tokens, ordered, lexed, reordered, orderedValued⟩ :=
      Evaluation.ofText_eq_ok_iff.mp valued
    have matched := PostOrder.matched_of_ofTokens reordered
    have sameCount := (PostOrder.balanced_of_value reordered orderedValued).juxtapositions_eq_gaps
    refine ⟨tokens, lexed, matched, sameCount, ?_⟩
    rcases Nat.eq_zero_or_pos (juxtapositions false tokens) with none | some
    · exact .inl ((sentence_iff (proper_of_ofText lexed).1).mpr ⟨matched, none, sameCount ▸ none⟩)
    · exact .inr some
  refine ⟨fun value => accepted, fun tokens lexed oneKind => ?_⟩
  by_cases isSentence : Sentence tokens
  · obtain ⟨ordered, result, reordered, valued⟩ :=
      PostOrder.exists_value_of_sentence (proper_of_ofText lexed).1 isSentence
    refine .inl ⟨isSentence, result, ?_⟩
    rw [evaluate_eq_ok_iff, Evaluation.result_run_text present]
    exact Evaluation.ofText_eq_ok_iff.mpr ⟨tokens, ordered, lexed, reordered, valued⟩
  · refine .inr ⟨isSentence, ?_⟩
    cases evaluated : evaluate (.text expression) with
    | error cause => rfl
    | ok value =>
        obtain ⟨others, otherLexed, -, sameCount, sentenceOrBoth⟩ := accepted evaluated
        rw [lexed] at otherLexed
        cases otherLexed
        rcases sentenceOrBoth with sentence | bothKinds
        · exact absurd sentence isSentence
        · omega

/-- A sum with its operator behind the operands has one fault of each kind, and a value. Two numbers
without an operator have a juxtaposition only, and none. -/
theorem misordered_sum_has_value_and_two_numbers_have_none :
    "2 3 +" ≠ "" ∧ "2 3" ≠ "" ∧
      (∃ tokens, Token.ofText "2 3 +" = .ok tokens ∧ Matched tokens ∧
        juxtapositions false tokens = gaps false tokens ∧
        (Sentence tokens ∨ 0 < juxtapositions false tokens)) ∧
      evaluate (.text "2 3") = .error ⟨⟩ := by
  have misordered : evaluate (.text "2 3 +") = .ok 5 := by decide +kernel
  let numbers := [ofNumber "2" 2, ofNumber "3" 3]
  have lexed : Token.ofText "2 3" = .ok numbers := by decide +kernel
  have noGap : gaps false numbers = 0 := by decide
  have oneJuxtaposition : juxtapositions false numbers = 1 := by decide
  refine ⟨by decide, by decide, (accepted_texts_balance_faults (by decide)).1 5 misordered, ?_⟩
  rcases (accepted_texts_balance_faults (by decide)).2 numbers lexed (.inr noGap) with
    ⟨sentence, -⟩ | ⟨-, refused⟩
  · rw [sentence.faultless.1] at oneJuxtaposition
    cases oneJuxtaposition
  · exact refused

/-- A text may have a value although its tokens are no sentence. -/
theorem misordered_sum_is_no_sentence :
    evaluate (.text "2 3 +") = .ok 5 ∧
      Token.ofText "2 3 +" = .ok [ofNumber "2" 2, ofNumber "3" 3, ofOperator .add] ∧
      ¬Sentence [ofNumber "2" 2, ofNumber "3" 3, ofOperator .add] ∧
      ¬∀ expression value, expression ≠ "" → evaluate (.text expression) = .ok value →
        ∃ tokens, Token.ofText expression = .ok tokens ∧ Sentence tokens := by
  have valued : evaluate (.text "2 3 +") = .ok 5 := by decide +kernel
  have lexed : Token.ofText "2 3 +" = .ok [ofNumber "2" 2, ofNumber "3" 3, ofOperator .add] := by
    decide +kernel
  have noSentence : ¬Sentence [ofNumber "2" 2, ofNumber "3" 3, ofOperator .add] := by
    intro sentence
    exact absurd sentence.faultless.1 (by decide)
  refine ⟨valued, lexed, noSentence, fun always => ?_⟩
  obtain ⟨tokens, otherLexed, sentence⟩ := always "2 3 +" 5 (by decide) valued
  rw [lexed] at otherLexed
  cases otherLexed
  exact noSentence sentence

end PocketCalc
