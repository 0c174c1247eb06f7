import PocketCalc.Proofs.PostOrder.Balance
import PocketCalc.Proofs.Stage.Offence

/-!
Contract: which sequences of tokens have a value, and which tree it is the value of.

Owns:
- `Offends`, the ways in which a token cannot follow the tokens before it, with the reasons;
- a sequence is the post-order of at most one tree;
- `Follows`, the trees whose values are on the stack after tokens of which none offends;
- the outcome of every sequence of tokens with any kinds and texts.

Does not own: how a sequence arises from infix tokens; see `Yard/Outcome`.

Whether a token offends is said of the numbers and operators before it, with no mention of the
stack. The link is that the values on the stack are the numbers read less the operators read.
-/

namespace PocketCalc

open PocketCalc.Stage PocketCalc.Token

/-! ## One sequence, one tree -/

/-- The last tokens of a sequence are the post-order of at most one tree, and begin at one place. -/
theorem Tree.append_postOrder_inj {tree other : Tree} {left otherLeft : List Token}
    (same : left ++ tree.postOrder = otherLeft ++ other.postOrder) :
    left = otherLeft ∧ tree = other := by
  -- The last token is the root of both trees; the subtrees are read off from right to left.
  induction tree generalizing other left otherLeft with
  | number text value =>
      cases other with
      | number otherText otherValue =>
          obtain ⟨sameLeft, sameRoot⟩ := List.append_inj' same rfl
          cases sameRoot
          exact ⟨sameLeft, rfl⟩
      | apply function carried argument | combine operator carried first second =>
          simp only [postOrder, ← List.append_assoc] at same
          cases (List.append_inj' same rfl).2
  | apply function carried argument inductionHypothesis =>
      simp only [postOrder, ← List.append_assoc] at same
      cases other with
      | apply otherFunction otherCarried otherArgument =>
          simp only [postOrder, ← List.append_assoc] at same
          obtain ⟨sameFront, sameRoot⟩ := List.append_inj' same rfl
          obtain ⟨sameLeft, rfl⟩ := inductionHypothesis sameFront
          simp only [List.cons.injEq, Token.mk.injEq, true_and, and_true] at sameRoot
          obtain ⟨sameName, rfl⟩ := sameRoot
          obtain rfl := NamedFunction.name_injective sameName
          exact ⟨sameLeft, rfl⟩
      | number otherText otherValue | combine operator otherCarried first second =>
          simp only [postOrder, ← List.append_assoc] at same
          cases (List.append_inj' same rfl).2
  | combine operator carried first second firstHypothesis secondHypothesis =>
      simp only [postOrder, ← List.append_assoc] at same
      cases other with
      | combine otherOperator otherCarried otherFirst otherSecond =>
          simp only [postOrder, ← List.append_assoc] at same
          obtain ⟨sameFront, sameRoot⟩ := List.append_inj' same rfl
          obtain ⟨sameFirst, rfl⟩ := secondHypothesis sameFront
          obtain ⟨sameLeft, rfl⟩ := firstHypothesis sameFirst
          simp only [List.cons.injEq, Token.mk.injEq, true_and, and_true] at sameRoot
          obtain ⟨sameSymbol, rfl⟩ := sameRoot
          obtain rfl := Operator.symbol_injective sameSymbol
          exact ⟨sameLeft, rfl⟩
      | number otherText otherValue | apply function otherCarried argument =>
          simp only [postOrder, ← List.append_assoc] at same
          cases (List.append_inj' same rfl).2

theorem Tree.postOrder_injective {tree other : Tree} (same : tree.postOrder = other.postOrder) :
    tree = other :=
  (append_postOrder_inj (congrArg ([] ++ ·) same)).2

namespace PostOrder

/-! ## Tokens that offend -/

/-- Whether a token is a function or an operator that finds its operands but does not exist. -/
def Unknown (before : List Token) (token : Token) : Prop :=
  (token.kind = .function ∧ operators before < numbers before ∧
      ∀ function : NamedFunction, function.name ≠ token.text) ∨
    (token.kind = .operator ∧ operators before + 2 ≤ numbers before ∧
      ∀ operator : Operator, operator.symbol ≠ token.text)

/-- The causes for which a token cannot follow the tokens before it, each with its reason: a
parenthesis, a function without an operand, an operator with fewer than two, and a name that does
not exist. -/
inductive Offends (before : List Token) (token : Token) : Failure → String → Prop where
  | misplaced : token.kind = .leftParen ∨ token.kind = .rightParen →
      Offends before token (.misplaced token.kind)
        ("unexpected " ++ token.kind.name ++ " in postfix")
  | missingOperand : token.kind = .function → numbers before = operators before →
      Offends before token (.missingOperand token.text) ("missing operand for " ++ token.text)
  | missingOperands : token.kind = .operator → numbers before < operators before + 2 →
      Offends before token (.missingOperands token.text) ("missing operands for " ++ token.text)
  | unknown : Unknown before token →
      Offends before token (.internal (.unknownName token.text))
        ("internal error: " ++ Text.quote token.text)

theorem Offends.reason_eq {before : List Token} {token : Token} {cause : Failure} {reason : String}
    (offends : Offends before token cause reason) : cause.reason = reason := by
  cases offends <;> rfl

/-! ## One token -/

theorem push_of_parenthesis {token : Token}
    (isParenthesis : token.kind = .leftParen ∨ token.kind = .rightParen) (values : List Float) :
    push values token = .error (.misplaced token.kind) := by
  unfold push
  rcases isParenthesis with isOpening | isClosing
  · rw [isOpening]
  · rw [isClosing]

theorem push_nil_of_function {token : Token} (isFunction : token.kind = .function) :
    push [] token = .error (.missingOperand token.text) := by
  unfold push
  rw [isFunction]

theorem push_of_operator_of_short {token : Token} (isOperator : token.kind = .operator)
    {values : List Float} (short : values.length < 2) :
    push values token = .error (.missingOperands token.text) := by
  unfold push
  rw [isOperator]
  match values with
  | [] => rfl
  | [_] => rfl
  | _ :: _ :: _ => exact absurd short (by simp)

theorem push_of_unknown_function {token : Token} (isFunction : token.kind = .function)
    (unknown : NamedFunction.ofName? token.text = none) {values : List Float}
    (present : values ≠ []) :
    push values token = .error (.internal (.unknownName token.text)) := by
  obtain ⟨argument, rest, rfl⟩ := List.exists_cons_of_ne_nil present
  unfold push
  rw [isFunction]
  simp only [unknown]

theorem push_of_unknown_operator {token : Token} (isOperator : token.kind = .operator)
    (unknown : Operator.ofSymbol? token.text = none) {values : List Float}
    (enough : 2 ≤ values.length) :
    push values token = .error (.internal (.unknownName token.text)) := by
  unfold push
  rw [isOperator]
  match values with
  | [] => simp at enough
  | [_] => simp at enough
  | right :: left :: rest => simp only [unknown]

/-! ## Runs -/

/-- The post-orders of trees, the tree of the latest value first, one behind the other. -/
def forestOrder (trees : List Tree) : List Token := trees.reverse.flatMap Tree.postOrder

theorem forestOrder_cons (tree : Tree) (trees : List Tree) :
    forestOrder (tree :: trees) = forestOrder trees ++ tree.postOrder := by
  simp [forestOrder]

/-- What is known of the values after tokens of which none offends. -/
structure Follows (tokens : List Token) (values : List Float) : Prop where
  forest : ∃ trees, values = trees.map Tree.value ∧ tokens = forestOrder trees
  counted : numbers tokens = operators tokens + values.length

theorem follows_nil : Follows [] [] := ⟨⟨[], rfl, rfl⟩, rfl⟩

/-- A token that is taken makes a tree of its own and of the trees whose values it takes. -/
theorem Follows.of_push {before : List Token} {values next : List Float} {token : Token}
    (follows : Follows before values) (pushed : push values token = .ok next) :
    Follows (before ++ [token]) next := by
  obtain ⟨⟨trees, rfl, rfl⟩, counted⟩ := follows
  refine ⟨?_, ?_⟩
  · obtain ⟨kind, text, value⟩ := token
    rcases push_eq_ok_iff.mp pushed with ⟨isNumber, rfl⟩ |
      ⟨isFunction, function, argument, rest, found, valuesEq, rfl⟩ |
      ⟨isOperator, operator, right, left, rest, found, valuesEq, rfl⟩
    · dsimp only at isNumber
      subst isNumber
      refine ⟨.number text value :: trees, rfl, ?_⟩
      rw [forestOrder_cons, Tree.postOrder]
    · dsimp only at isFunction found
      obtain rfl := NamedFunction.ofName?_eq_some_iff.mp found
      subst isFunction
      obtain ⟨tree, others, rfl, rfl, rfl⟩ := List.map_eq_cons_iff.mp valuesEq
      refine ⟨.apply function value tree :: others, rfl, ?_⟩
      rw [forestOrder_cons, forestOrder_cons, Tree.postOrder, List.append_assoc]
    · dsimp only at isOperator found
      obtain rfl := Operator.ofSymbol?_eq_some_iff.mp found
      subst isOperator
      obtain ⟨rightTree, lower, rfl, rfl, lowerEq⟩ := List.map_eq_cons_iff.mp valuesEq
      obtain ⟨leftTree, others, rfl, rfl, rfl⟩ := List.map_eq_cons_iff.mp lowerEq
      refine ⟨.combine operator value leftTree rightTree :: others, rfl, ?_⟩
      rw [forestOrder_cons, forestOrder_cons, forestOrder_cons, Tree.postOrder]
      simp only [List.append_assoc]
  · have changed := length_of_push pushed
    rw [numbers_append, operators_append, numbers_cons, operators_cons, numbers_nil, operators_nil]
    omega

/-- A token that does not offend is taken. -/
theorem Follows.step {before : List Token} {values : List Float} {token : Token}
    (follows : Follows before values)
    (kept : ∀ cause reason, ¬Offends before token cause reason) :
    ∃ next, push values token = .ok next ∧ Follows (before ++ [token]) next := by
  have counted := follows.counted
  have taken : ∃ next, push values token = .ok next := by
    cases kind : token.kind with
    | number => exact ⟨_, push_eq_ok_iff.mpr (.inl ⟨kind, rfl⟩)⟩
    | function =>
        have present : numbers before ≠ operators before := fun none =>
          kept _ _ (.missingOperand kind none)
        have known : NamedFunction.ofName? token.text ≠ none := fun none =>
          kept _ _ (.unknown (.inl ⟨kind, by omega, fun function same => by
            rw [NamedFunction.ofName?_eq_some_iff.mpr same] at none
            cases none⟩))
        obtain ⟨function, found⟩ := Option.ne_none_iff_exists'.mp known
        match values with
        | [] => exact absurd counted present
        | argument :: rest =>
            exact ⟨_, push_eq_ok_iff.mpr
              (.inr (.inl ⟨kind, function, argument, rest, found, rfl, rfl⟩))⟩
    | operator =>
        have enough : ¬numbers before < operators before + 2 := fun few =>
          kept _ _ (.missingOperands kind few)
        have known : Operator.ofSymbol? token.text ≠ none := fun none =>
          kept _ _ (.unknown (.inr ⟨kind, by omega, fun operator same => by
            rw [Operator.ofSymbol?_eq_some_iff.mpr same] at none
            cases none⟩))
        obtain ⟨operator, found⟩ := Option.ne_none_iff_exists'.mp known
        match values with
        | [] => simp at counted; omega
        | [_] => simp at counted; omega
        | right :: left :: rest =>
            exact ⟨_, push_eq_ok_iff.mpr
              (.inr (.inr ⟨kind, operator, right, left, rest, found, rfl, rfl⟩))⟩
    | leftParen => exact absurd (.misplaced (.inl kind)) (kept _ _)
    | rightParen => exact absurd (.misplaced (.inr kind)) (kept _ _)
  obtain ⟨next, pushed⟩ := taken
  exact ⟨next, pushed, follows.of_push pushed⟩

/-- A token that offends is refused for the cause. -/
theorem Follows.step_eq_error {before : List Token} {values : List Float} {token : Token}
    {cause : Failure} {reason : String} (follows : Follows before values)
    (offends : Offends before token cause reason) : push values token = .error cause := by
  have counted := follows.counted
  cases offends with
  | misplaced isParenthesis => exact push_of_parenthesis isParenthesis values
  | missingOperand isFunction none =>
      have empty : values = [] := List.length_eq_zero_iff.mp (by omega)
      rw [empty]
      exact push_nil_of_function isFunction
  | missingOperands isOperator few => exact push_of_operator_of_short isOperator (by omega)
  | unknown unknown =>
      rcases unknown with ⟨isFunction, some_, noName⟩ | ⟨isOperator, enough, noSymbol⟩
      · have notFound : NamedFunction.ofName? token.text = none :=
          Option.eq_none_iff_forall_ne_some.mpr fun function found =>
            noName function (NamedFunction.ofName?_eq_some_iff.mp found)
        exact push_of_unknown_function isFunction notFound
          (List.ne_nil_of_length_pos (by omega))
      · have notFound : Operator.ofSymbol? token.text = none :=
          Option.eq_none_iff_forall_ne_some.mpr fun operator found =>
            noSymbol operator (Operator.ofSymbol?_eq_some_iff.mp found)
        exact push_of_unknown_operator isOperator notFound (by omega)

theorem run_of_noneOffends {tokens : List Token} (none : NoneOffends Offends tokens) :
    ∃ values, tokens.foldlM push [] = .ok values ∧ Follows tokens values :=
  foldlM_of_noneOffends follows_nil (fun _ _ _ follows kept => follows.step kept) none

/-! ## Outcomes -/

theorem value_of_firstOffends {tokens : List Token} {cause : Failure} {reason : String}
    (offence : FirstOffends Offends tokens cause reason) : value tokens = .error cause := by
  have refused := foldlM_of_firstOffends follows_nil (fun _ _ _ follows kept => follows.step kept)
    (fun _ _ _ _ _ follows offends => follows.step_eq_error offends) offence
  rw [value, refused]
  rfl

/-- Tokens of which none offends leave as many values as they have more numbers than operators, and
a single one is the value of a tree. -/
theorem value_of_noneOffends {tokens : List Token} (none : NoneOffends Offends tokens) :
    (∃ tree : Tree, tokens = tree.postOrder ∧ value tokens = .ok tree.value) ∨
      ∃ count, count ≠ 1 ∧ numbers tokens = operators tokens + count ∧
        value tokens = .error (.valuesLeft count) := by
  obtain ⟨values, ran, ⟨trees, rfl, tokensEq⟩, counted⟩ := run_of_noneOffends none
  rw [value, ran, ok_bind]
  rcases trees with _ | ⟨tree, _ | ⟨second, rest⟩⟩
  · exact .inr ⟨0, by decide, counted, rfl⟩
  · exact .inl ⟨tree, by simpa [forestOrder] using tokensEq, rfl⟩
  · refine .inr ⟨_, ?_, counted, rfl⟩
    simp

theorem exists_tree_of_value {tokens : List Token} {result : Float}
    (valued : value tokens = .ok result) :
    ∃ tree : Tree, tree.postOrder = tokens ∧ tree.value = result := by
  rcases noneOffends_or_firstOffends Offends tokens with none |
    ⟨cause, reason, offence⟩
  · rcases value_of_noneOffends none with ⟨tree, rfl, treeValued⟩ | ⟨count, -, -, refused⟩
    · rw [valued] at treeValued
      cases treeValued
      exact ⟨tree, rfl, rfl⟩
    · rw [valued] at refused
      cases refused
  · rw [value_of_firstOffends offence] at valued
    cases valued

/-- A name is refused as unknown exactly if its token is the leftmost that offends, and does so for
this cause. -/
theorem value_eq_unknownName_iff {tokens : List Token} {name : String} :
    value tokens = .error (.internal (.unknownName name)) ↔
      ∃ before token after, tokens = before ++ token :: after ∧ NoneOffends Offends before ∧
        Unknown before token ∧ token.text = name := by
  constructor
  · intro refused
    rcases noneOffends_or_firstOffends Offends tokens with none |
      ⟨cause, reason, offence⟩
    · rcases value_of_noneOffends none with ⟨tree, -, valued⟩ | ⟨count, -, -, left⟩
      · rw [refused] at valued
        cases valued
      · rw [refused] at left
        cases left
    · rw [value_of_firstOffends offence] at refused
      obtain ⟨before, token, after, split, none, offends⟩ := offence
      cases offends with
      | unknown unknown =>
          cases refused
          exact ⟨before, token, after, split, none, unknown, rfl⟩
      | misplaced | missingOperand | missingOperands => cases refused
  · rintro ⟨before, token, after, split, none, unknown, rfl⟩
    exact value_of_firstOffends ⟨before, token, after, split, none, .unknown unknown⟩

/-- Every sequence of tokens with any kinds and texts comes out in one of the ways that its numbers,
functions and operators allow.

It has a value exactly if it is the post-order of a tree, and of one tree only, whose value this is.
Otherwise the leftmost token that offends decides the failure, with its reason. If none does, there
are as many more numbers than operators as there are values left. An unknown name is the cause
exactly if its token is the leftmost that offends, so it never is where all names are known. -/
theorem sequence_outcomes (tokens : List Token) :
    (∀ result, value tokens = .ok result ↔
        ∃ tree : Tree, tree.postOrder = tokens ∧ tree.value = result) ∧
      (∀ tree other : Tree, tree.postOrder = tokens → other.postOrder = tokens → tree = other) ∧
      (∀ cause reason, FirstOffends Offends tokens cause reason →
        value tokens = .error cause ∧ cause.reason = reason) ∧
      (NoneOffends Offends tokens → ∃ count, numbers tokens = operators tokens + count ∧
        (count = 1 → ∃ result, value tokens = .ok result) ∧
        (count ≠ 1 → value tokens = .error (.valuesLeft count) ∧
          (Failure.valuesLeft count).reason =
            toString count ++ " values left after evaluation, expected 1")) ∧
      (NoneOffends Offends tokens ∨ ∃ cause reason, FirstOffends Offends tokens cause reason) ∧
      ∀ name, value tokens = .error (.internal (.unknownName name)) ↔
        ∃ before token after, tokens = before ++ token :: after ∧ NoneOffends Offends before ∧
          Unknown before token ∧ token.text = name := by
  refine ⟨fun result => ⟨exists_tree_of_value, ?_⟩, ?_, ?_, ?_,
    noneOffends_or_firstOffends Offends tokens, fun name => value_eq_unknownName_iff⟩
  · rintro ⟨tree, rfl, rfl⟩
    exact value_postOrder tree
  · intro tree other ofTree ofOther
    exact Tree.postOrder_injective (ofTree.trans ofOther.symm)
  · intro cause reason offence
    have refused := value_of_firstOffends offence
    obtain ⟨before, token, after, -, -, offends⟩ := offence
    exact ⟨refused, offends.reason_eq⟩
  · intro none
    rcases value_of_noneOffends none with ⟨tree, rfl, valued⟩ | ⟨count, notOne, counted, refused⟩
    · have counted := length_of_foldlM_push (value_eq_ok_iff.mp valued)
      refine ⟨1, ?_, fun _ => ⟨tree.value, valued⟩, fun notOne => absurd rfl notOne⟩
      simp only [List.length_singleton, List.length_nil] at counted
      omega
    · exact ⟨count, counted, fun isOne => absurd isOne notOne, fun _ => ⟨refused, rfl⟩⟩

/-- The root of 8 − 3 has its value, an operator without its operands is refused before a
function that does not exist, and this function is the cause where the operator is left out. -/
theorem root_of_difference_is_the_only_tree :
    let number (text : String) : Token := ⟨.number, text, Number.read? text⟩
    let halve : Token := ⟨.function, "half", none⟩
    let rooted := [number "8", number "3", ofOperator .subtract, ofFunction .squareRoot]
    let tree : Tree := .apply .squareRoot none
      (.combine .subtract none (.number "8" (Number.read? "8")) (.number "3" (Number.read? "3")))
    value rooted = .ok tree.value ∧ tree.value = 2.23606797749979 ∧
      (∀ other : Tree, other.postOrder = rooted → tree = other) ∧
      value [number "3", ofOperator .add, halve] = .error (.missingOperands "+") ∧
      (Failure.missingOperands "+").reason = "missing operands for +" ∧
      value [number "3", halve] = .error (.internal (.unknownName "half")) ∧
      value [number "8", number "3"] = .error (.valuesLeft 2) := by
  intro number halve rooted tree
  have numberKept (before : List Token) (text : String) :
      ∀ cause reason, ¬Offends before (number text) cause reason := by
    rintro cause reason (isParenthesis | ⟨isFunction, -⟩ | ⟨isOperator, -⟩ |
      (⟨isFunction, -⟩ | ⟨isOperator, -⟩))
    · rcases isParenthesis with isOpening | isClosing
      · cases isOpening
      · cases isClosing
    · cases isFunction
    · cases isOperator
    · cases isFunction
    · cases isOperator
  have oneNumber (text : String) : NoneOffends Offends [number text] :=
    noneOffends_snoc_iff.mpr ⟨noneOffends_nil, numberKept [] text⟩
  have twoNumbers : NoneOffends Offends [number "8", number "3"] :=
    noneOffends_snoc_iff.mpr ⟨oneNumber "8", numberKept [number "8"] "3"⟩
  have offence : FirstOffends Offends [number "3", ofOperator .add, halve]
      (.missingOperands "+") "missing operands for +" :=
    ⟨[number "3"], ofOperator .add, [halve], rfl, oneNumber "3", .missingOperands rfl (by decide)⟩
  have unknown : Unknown [number "3"] halve := by
    refine .inl ⟨rfl, by decide, fun function => ?_⟩
    cases function <;> decide
  obtain ⟨rootedValue, onlyTree, -⟩ := sequence_outcomes rooted
  obtain ⟨-, -, refused, -⟩ := sequence_outcomes [number "3", ofOperator .add, halve]
  obtain ⟨-, -, -, -, -, unknownName⟩ := sequence_outcomes [number "3", halve]
  obtain ⟨-, -, -, left, -⟩ := sequence_outcomes [number "8", number "3"]
  obtain ⟨count, counted, -, notOne⟩ := left twoNumbers
  have isTwo : count = 2 := by
    have : numbers [number "8", number "3"] = 2 := by decide
    have : operators [number "8", number "3"] = 0 := by decide
    omega
  subst isTwo
  have rootOfFive : tree.value = 2.23606797749979 := by decide +kernel
  exact ⟨(rootedValue _).mpr ⟨tree, rfl, rfl⟩, rootOfFive, fun other => onlyTree tree other rfl,
    (refused _ _ offence).1, (refused _ _ offence).2,
    (unknownName "half").mpr ⟨[number "3"], halve, [], rfl, oneNumber "3", unknown, rfl⟩,
    (notOne (by decide)).1⟩

end PostOrder

end PocketCalc
