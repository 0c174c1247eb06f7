import PocketCalc.Calculator
import PocketCalc.Expr
import PocketCalc.Proofs.Evaluation.Outcome
import PocketCalc.Proofs.Evaluation.ReadBack
import PocketCalc.Proofs.Evaluation.Transparency
import PocketCalc.Proofs.Yard.Grouping
import PocketCalc.Proofs.Evaluation.Composition
import PocketCalc.Proofs.PostOrder.Balance
import PocketCalc.Proofs.Calculator.Press
import PocketCalc.Proofs.Calculator.Invariant
import PocketCalc.Proofs.Evaluation.LeadingZero
import PocketCalc.Proofs.Calculator.Typing
import PocketCalc.Proofs.Calculator.Continuation
import PocketCalc.Proofs.Calculator.Recovery
import PocketCalc.Proofs.Lexeme.Joint
import PocketCalc.Proofs.Yard.Outcome
import PocketCalc.Proofs.Evaluation.Fusion
import PocketCalc.Proofs.Grammar.Faults
import PocketCalc.Proofs.Grammar.Acceptance
import PocketCalc.Proofs.PostOrder.Recognition
import PocketCalc.Proofs.Lexeme.Division
import PocketCalc.Proofs.Evaluation.Inspection
import PocketCalc.Proofs.Display.Fidelity
import PocketCalc.Proofs.Calculator.Undo
import PocketCalc.Proofs.Evaluation.Literal
import PocketCalc.Proofs.Number.Shortest
import PocketCalc.Proofs.Evaluation.Record
import PocketCalc.Proofs.Yard.Waiting
