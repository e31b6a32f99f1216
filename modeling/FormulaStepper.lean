import FormulaStepper.Main
import FormulaStepper.Proofs.Evaluation.Account
import FormulaStepper.Proofs.Evaluation.Transcript
import FormulaStepper.Proofs.Evaluation.Faults
import FormulaStepper.Proofs.Evaluation.Correspondence
import FormulaStepper.Proofs.Evaluation.Composition
import FormulaStepper.Proofs.Evaluation.Shape
import FormulaStepper.Proofs.Evaluation.Retrying
import FormulaStepper.Proofs.Evaluation.Nesting
import FormulaStepper.Proofs.Evaluation.Laziness
import FormulaStepper.Proofs.Evaluation.Visits
import FormulaStepper.Proofs.Evaluation.Boundedness
import FormulaStepper.Proofs.Text.Bytes
import FormulaStepper.Proofs.Text.Digits
import FormulaStepper.Proofs.Text.Slices
import FormulaStepper.Proofs.Decimal.Rounding
import FormulaStepper.Proofs.Decimal.Conversion
import FormulaStepper.Proofs.Value.Integers
import FormulaStepper.Proofs.Value.Comparison
import FormulaStepper.Proofs.Value.Equality
import FormulaStepper.Proofs.Value.Notation
import FormulaStepper.Proofs.Value.Candidates
import FormulaStepper.Proofs.Value.Aggregates
import FormulaStepper.Proofs.Grammar.Derivation
import FormulaStepper.Proofs.Grammar.Reading
import FormulaStepper.Proofs.Grammar.Acceptance
import FormulaStepper.Proofs.Grammar.Lexing
import FormulaStepper.Proofs.Grammar.Subformulas
import FormulaStepper.Proofs.Grammar.Spans
import FormulaStepper.Proofs.Grammar.Spacing
import FormulaStepper.Proofs.Grammar.Refusal
import FormulaStepper.Proofs.Debugger.Mirror
import FormulaStepper.Proofs.Debugger.Commands
import FormulaStepper.Proofs.Debugger.Independence
import FormulaStepper.Proofs.Debugger.History
import FormulaStepper.Proofs.Debugger.Lifecycle
import FormulaStepper.Proofs.Debugger.Truth
import FormulaStepper.Proofs.Debugger.Passage
import FormulaStepper.Proofs.Debugger.Stepping
import FormulaStepper.Proofs.Debugger.Reuse
import FormulaStepper.Proofs.Debugger.Events
import FormulaStepper.Proofs.Debugger.FirstMatch
import FormulaStepper.Proofs.Debugger.Progress
import FormulaStepper.Proofs.Debugger.Observation
import FormulaStepper.Proofs.Json.Tokens
import FormulaStepper.Proofs.Json.RoundTrip
import FormulaStepper.Proofs.Adapter.Frames
import FormulaStepper.Proofs.Adapter.Exchange
import FormulaStepper.Proofs.Adapter.Delivery
import FormulaStepper.Proofs.Adapter.Conversation
import FormulaStepper.Proofs.Adapter.Session
import FormulaStepper.Proofs.Adapter.EventOrder
import FormulaStepper.Proofs.Adapter.Handshake
import FormulaStepper.Proofs.Adapter.Views
import FormulaStepper.Proofs.Terminal.Script
import FormulaStepper.Proofs.Grammar.Writing
import FormulaStepper.Proofs.Grammar.Literals
import FormulaStepper.Proofs.Launch.Names
