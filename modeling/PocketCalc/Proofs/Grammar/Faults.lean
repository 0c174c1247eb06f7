import PocketCalc.Expr
import PocketCalc.Proofs.PostOrder.Balance

/-!
Contract: where a sequence of tokens departs from the infix grammar.

Owns:
- `juxtapositions`, the places where two operands stand next to each other;
- `gaps`, the places where an operand is missing;
- `Matched`, whether every parenthesis has its partner;
- the count that ties the faults to the numbers and the operators;
- the sentences of the grammar, which are the matched sequences without a fault.

Does not own: which sequences have a value; see `Grammar/Acceptance`.

The scan knows of the tokens before a place only whether they end an operand. At the start none has
ended, as behind an operator, a function or an opening.
-/

namespace PocketCalc

namespace Token

/-- Whether an operand may start with a token. -/
def startsOperand (token : Token) : Bool :=
  match token.kind with
  | .number | .function | .leftParen => true
  | .operator | .rightParen => false

/-- Whether an operand may end with a token. -/
def endsOperand (token : Token) : Bool :=
  match token.kind with
  | .number | .rightParen => true
  | .operator | .function | .leftParen => false

/-- At how many places an operand has ended and the next token starts another one. -/
def juxtapositions (ended : Bool) : List Token → Nat
  | [] => 0
  | token :: rest =>
      (if ended && token.startsOperand then 1 else 0) + juxtapositions token.endsOperand rest

/-- At how many places no operand has ended and the next token, or the end, starts none either. -/
def gaps (ended : Bool) : List Token → Nat
  | [] => if ended then 0 else 1
  | token :: rest =>
      (if ended || token.startsOperand then 0 else 1) + gaps token.endsOperand rest

/-- There are as many more juxtapositions than gaps as there are more numbers than operators, but for
the one operand that has ended before the tokens or is expected of them. -/
theorem juxtapositions_add_operators (ended : Bool) (tokens : List Token) :
    juxtapositions ended tokens + operators tokens + 1 =
      gaps ended tokens + numbers tokens + if ended then 1 else 0 := by
  induction tokens generalizing ended with
  | nil => cases ended <;> rfl
  | cons token rest inductionHypothesis =>
      have further := inductionHypothesis token.endsOperand
      rw [juxtapositions, gaps, operators_cons, numbers_cons]
      -- One equation for each kind of token and either side of it.
      cases kind : token.kind <;> cases ended <;>
        simp [startsOperand, endsOperand, kind] at further ⊢ <;> omega

/-- Balanced tokens have as many faults of the one kind as of the other. -/
theorem Balanced.juxtapositions_eq_gaps {tokens : List Token} (balanced : Balanced tokens) :
    juxtapositions false tokens = gaps false tokens := by
  have counted := juxtapositions_add_operators false tokens
  have numbersEq : numbers tokens = operators tokens + 1 := balanced
  rw [if_neg Bool.false_ne_true] at counted
  omega

/-! ## Faultless sequences -/

/-- Whether a sequence has neither a juxtaposition nor a gap. -/
def Faultless (ended : Bool) (tokens : List Token) : Prop :=
  juxtapositions ended tokens = 0 ∧ gaps ended tokens = 0

theorem faultless_nil_iff {ended : Bool} : Faultless ended [] ↔ ended = true := by
  cases ended <;> simp [Faultless, juxtapositions, gaps]

/-- An operand starts exactly where none has ended. -/
theorem faultless_cons_iff {ended : Bool} {token : Token} {rest : List Token} :
    Faultless ended (token :: rest) ↔
      token.startsOperand = !ended ∧ Faultless token.endsOperand rest := by
  cases ended <;> cases starts : token.startsOperand <;>
    simp [Faultless, juxtapositions, gaps, starts]

theorem faultless_cons_of_starts {ended : Bool} {token : Token}
    (starts : token.startsOperand = !ended) (rest : List Token) :
    Faultless ended (token :: rest) ↔ Faultless token.endsOperand rest := by
  rw [faultless_cons_iff, and_iff_right starts]

/-- A closing ends an operand, and what stands before it has to end one too. -/
theorem faultless_append_closing_iff {ended : Bool} {inner after : List Token} {closing : Token}
    (isClosing : closing.kind = .rightParen) :
    Faultless ended (inner ++ closing :: after) ↔ Faultless ended inner ∧ Faultless true after := by
  induction inner generalizing ended with
  | nil =>
      have starts : closing.startsOperand = false := by rw [startsOperand, isClosing]
      have ends : closing.endsOperand = true := by rw [endsOperand, isClosing]
      rw [List.nil_append, faultless_cons_iff, faultless_nil_iff, starts, ends]
      cases ended <;> simp
  | cons token inner inductionHypothesis =>
      rw [List.cons_append, faultless_cons_iff, faultless_cons_iff, inductionHypothesis, and_assoc]

/-! ## Matched parentheses -/

/-- How many groups are open behind one more token, unless it closes one that is not open. -/
def depthAfter? (depth : Nat) (token : Token) : Option Nat :=
  match token.kind with
  | .leftParen => some (depth + 1)
  | .rightParen => if depth = 0 then none else some (depth - 1)
  | _ => some depth

/-- Whether every parenthesis has its partner. -/
def Matched (tokens : List Token) : Prop := tokens.foldlM depthAfter? 0 = some 0

instance : DecidablePred Matched := fun tokens =>
  inferInstanceAs (Decidable (tokens.foldlM depthAfter? 0 = some 0))

theorem depthAfter?_of_other {token : Token} (notOpening : token.kind ≠ .leftParen)
    (notClosing : token.kind ≠ .rightParen) (depth : Nat) :
    depthAfter? depth token = some depth := by
  unfold depthAfter?
  split
  · exact absurd ‹_› notOpening
  · exact absurd ‹_› notClosing
  · rfl

theorem depthAfter?_of_opening {token : Token} (isOpening : token.kind = .leftParen) (depth : Nat) :
    depthAfter? depth token = some (depth + 1) := by
  rw [depthAfter?, isOpening]

theorem depthAfter?_of_closing {token : Token} (isClosing : token.kind = .rightParen)
    (depth : Nat) : depthAfter? (depth + 1) token = some depth := by
  rw [depthAfter?, isClosing]
  rfl

theorem foldlM_depthAfter?_cons {token : Token} {depth next : Nat}
    (changed : depthAfter? depth token = some next) (rest : List Token) :
    (token :: rest).foldlM depthAfter? depth = rest.foldlM depthAfter? next := by
  rw [List.foldlM_cons, changed]
  rfl

/-- The innermost of the open groups is closed somewhere, and what stands in it is matched. -/
theorem exists_closing {tokens : List Token} {inside outside : Nat}
    (closes : tokens.foldlM depthAfter? (inside + outside + 1) = some 0) :
    ∃ inner closing after, tokens = inner ++ closing :: after ∧ closing.kind = .rightParen ∧
      inner.foldlM depthAfter? inside = some 0 ∧ after.foldlM depthAfter? outside = some 0 := by
  induction tokens generalizing inside with
  | nil => cases closes
  | cons token rest inductionHypothesis =>
      -- Unless the token closes the innermost group, it belongs to what stands in the group.
      have extend {next : Nat} (changed : depthAfter? inside token = some next)
          (restCloses : rest.foldlM depthAfter? (next + outside + 1) = some 0) :
          ∃ inner closing after, token :: rest = inner ++ closing :: after ∧
            closing.kind = .rightParen ∧ inner.foldlM depthAfter? inside = some 0 ∧
            after.foldlM depthAfter? outside = some 0 := by
        obtain ⟨inner, closing, after, rfl, isClosing, innerCloses, afterCloses⟩ :=
          inductionHypothesis restCloses
        refine ⟨token :: inner, closing, after, rfl, isClosing, ?_, afterCloses⟩
        rw [foldlM_depthAfter?_cons changed, innerCloses]
      by_cases isOpening : token.kind = .leftParen
      · rw [foldlM_depthAfter?_cons (depthAfter?_of_opening isOpening _)] at closes
        refine extend (depthAfter?_of_opening isOpening inside) ?_
        rw [← closes]
        congr 1
        omega
      · by_cases isClosing : token.kind = .rightParen
        · rw [foldlM_depthAfter?_cons (depthAfter?_of_closing isClosing _)] at closes
          cases inside with
          | zero => 
              rw [Nat.zero_add] at closes
              exact ⟨[], token, rest, rfl, isClosing, rfl, closes⟩
          | succ inside =>
              refine extend (depthAfter?_of_closing isClosing inside) ?_
              rw [← closes]
              congr 1
              omega
        · rw [foldlM_depthAfter?_cons (depthAfter?_of_other isOpening isClosing _)] at closes
          exact extend (depthAfter?_of_other isOpening isClosing inside) closes

end Token

open Token

/-! ## Sentences -/

namespace Sentence

/-- A sentence is one operand to what follows it. -/
theorem faultless_append_iff {tokens : List Token} (sentence : Sentence tokens)
    (rest : List Token) : Faultless false (tokens ++ rest) ↔ Faultless true rest := by
  induction sentence generalizing rest with
  | number text value => exact faultless_cons_of_starts rfl rest
  | @group tokens _ inductionHypothesis =>
      rw [List.append_assoc, List.cons_append, faultless_cons_of_starts rfl]
      exact (inductionHypothesis _).trans (faultless_cons_of_starts rfl rest)
  | @call function tokens _ inductionHypothesis =>
      rw [List.append_assoc, List.cons_append, List.cons_append, faultless_cons_of_starts rfl,
        faultless_cons_of_starts rfl]
      exact (inductionHypothesis _).trans (faultless_cons_of_starts rfl rest)
  | @bare function tokens _ inductionHypothesis =>
      rw [List.cons_append, faultless_cons_of_starts rfl]
      exact inductionHypothesis rest
  | @binary operator left right _ _ leftHypothesis rightHypothesis =>
      rw [List.append_assoc, leftHypothesis, List.cons_append, faultless_cons_of_starts rfl]
      exact rightHypothesis rest

theorem foldlM_depthAfter? {tokens : List Token} (sentence : Sentence tokens) (depth : Nat) :
    tokens.foldlM depthAfter? depth = some depth := by
  induction sentence generalizing depth with
  | number text value => rfl
  | group _ inductionHypothesis =>
      rw [List.foldlM_append, foldlM_depthAfter?_cons (depthAfter?_of_opening rfl depth),
        inductionHypothesis]
      rfl
  | call function _ inductionHypothesis =>
      have function_ : depthAfter? depth (ofFunction function) = some depth := rfl
      rw [List.foldlM_append, foldlM_depthAfter?_cons function_,
        foldlM_depthAfter?_cons (depthAfter?_of_opening rfl depth), inductionHypothesis]
      rfl
  | bare function _ inductionHypothesis =>
      exact inductionHypothesis depth
  | binary operator _ _ leftHypothesis rightHypothesis =>
      rw [List.foldlM_append, leftHypothesis]
      exact rightHypothesis depth

theorem faultless {tokens : List Token} (sentence : Sentence tokens) : Faultless false tokens := by
  have alone := sentence.faultless_append_iff []
  rw [List.append_nil] at alone
  exact alone.mpr (faultless_nil_iff.mpr rfl)

theorem matched {tokens : List Token} (sentence : Sentence tokens) : Matched tokens :=
  sentence.foldlM_depthAfter? 0

end Sentence

namespace Token

/-- A sequence of proper tokens with matched parentheses and without a fault. -/
structure Regular (ended : Bool) (tokens : List Token) : Prop where
  proper : ∀ token ∈ tokens, token.Proper
  faultless : Faultless ended tokens
  matched : Matched tokens

namespace Regular

theorem tail {ended : Bool} {token : Token} {rest : List Token}
    (regular : Regular ended (token :: rest)) (sameDepth : depthAfter? 0 token = some 0) :
    Regular token.endsOperand rest where
  proper other member := regular.proper other (List.mem_cons_of_mem token member)
  faultless := (faultless_cons_iff.mp regular.faultless).2
  matched := (foldlM_depthAfter?_cons sameDepth rest).symm.trans regular.matched

/-- A group in front of a sequence divides it into the inside of the group and what follows. -/
theorem group {rest : List Token} (regular : Regular false (opening :: rest)) :
    ∃ inner after, rest = inner ++ closing :: after ∧ Regular false inner ∧ Regular true after := by
  obtain ⟨inner, last, after, rfl, isClosing, innerMatched, afterMatched⟩ :=
    @exists_closing rest 0 0 regular.matched
  have restFaultless := (faultless_cons_iff.mp regular.faultless).2
  obtain ⟨innerFaultless, afterFaultless⟩ :=
    (faultless_append_closing_iff isClosing).mp restFaultless
  have proper : ∀ token ∈ inner ++ last :: after, token.Proper := fun token member =>
    regular.proper token (List.mem_cons_of_mem opening member)
  have lastEq : last = closing := by
    cases proper last (by simp) with
    | closing => rfl
    | number text value => cases isClosing
    | function function => cases isClosing
    | opening => cases isClosing
    | operator operator => cases isClosing
  refine ⟨inner, after, by rw [lastEq], ⟨?_, innerFaultless, innerMatched⟩,
    ⟨?_, afterFaultless, afterMatched⟩⟩
  · exact fun token member => proper token (by simp [member])
  · exact fun token member => proper token (by simp [member])

/-- Behind a sentence stands nothing, or an operator and what is to be a sentence again. -/
theorem sentence_append {front rest : List Token} (regular : Regular true rest)
    (sentence : Sentence front)
    (further : ∀ right : List Token, right.length < rest.length → Regular false right →
      Sentence right) : Sentence (front ++ rest) := by
  cases rest with
  | nil =>
      rw [List.append_nil]
      exact sentence
  | cons token right =>
      obtain ⟨starts, -⟩ := faultless_cons_iff.mp regular.faultless
      cases regular.proper token List.mem_cons_self with
      | operator operator =>
          exact .binary operator sentence (further right (Nat.lt_succ_self _) (regular.tail rfl))
      | closing => cases regular.matched
      | number text value => cases starts
      | function function => cases starts
      | opening => cases starts

/-- Matched tokens without a fault are a sentence. -/
theorem sentence {tokens : List Token} (regular : Regular false tokens) : Sentence tokens := by
  -- The induction is on the length, since what follows a group is no tail of the sequence.
  induction bound : tokens.length using Nat.strong_induction_on generalizing tokens with
  | _ length inductionHypothesis =>
      subst bound
      have shorter (other : List Token) (isShorter : other.length < tokens.length)
          (otherRegular : Regular false other) : Sentence other :=
        inductionHypothesis other.length isShorter otherRegular rfl
      cases tokens with
      | nil => exact absurd (faultless_nil_iff.mp regular.faultless) (by decide)
      | cons token rest =>
          obtain ⟨starts, -⟩ := faultless_cons_iff.mp regular.faultless
          cases regular.proper token List.mem_cons_self with
          | number text value =>
              have front := Sentence.number text (some value)
              exact (regular.tail rfl).sentence_append front fun right isShorter =>
                shorter right (Nat.lt_succ_of_lt isShorter)
          | function function =>
              exact .bare function (shorter rest (Nat.lt_succ_self _) (regular.tail rfl))
          | opening =>
              obtain ⟨inner, after, rfl, innerRegular, afterRegular⟩ := regular.group
              simp only [List.length_cons, List.length_append] at shorter
              have front := Sentence.group (shorter inner (by omega) innerRegular)
              have whole := afterRegular.sentence_append front fun right isShorter =>
                shorter right (by omega)
              simpa using whole
          | operator operator => cases starts
          | closing => cases starts

end Regular

/-- The sentences of the grammar are the matched sequences in which no two operands stand next to
each other and none is missing. -/
theorem sentence_iff {tokens : List Token} (proper : ∀ token ∈ tokens, token.Proper) :
    Sentence tokens ↔
      Matched tokens ∧ juxtapositions false tokens = 0 ∧ gaps false tokens = 0 := by
  constructor
  · exact fun sentence => ⟨sentence.matched, sentence.faultless⟩
  · rintro ⟨matched, faultless⟩
    exact Regular.sentence ⟨proper, faultless, matched⟩

end Token

end PocketCalc
