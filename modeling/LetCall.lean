import LetCall.Main
import LetCall.Static
import LetCall.Token.Describe
import LetCall.Proofs.Grammar.Unique
import LetCall.Proofs.Reading
import LetCall.Proofs.Reading.Braces
import LetCall.Proofs.Reading.Sound
import LetCall.Proofs.Reading.Complete
import LetCall.Proofs.Parsing
import LetCall.Proofs.Parsing.Loops
import LetCall.Proofs.Parsing.Recovery
import LetCall.Proofs.Parsing.Termination
import LetCall.Proofs.Parsing.Acceptance
import LetCall.Proofs.Frame
import LetCall.Proofs.Frame.Imports
import LetCall.Proofs.Frame.Programs
import LetCall.Proofs.Lexing
import LetCall.Proofs.Source
import LetCall.Proofs.Source.Numerals
import LetCall.Proofs.Source.RoundTrip
import LetCall.Proofs.Lexing.Seams
import LetCall.Proofs.Lexing.Layout
import LetCall.Proofs.Lexing.Recovery
import LetCall.Proofs.Lexing.Kinds
import LetCall.Proofs.Phases
import LetCall.Proofs.Lexing.Scanner
import LetCall.Proofs.Source.Vocabulary
import LetCall.Proofs.Evaluation
import LetCall.Proofs.Twins
import LetCall.Proofs.Moments
import LetCall.Proofs.Calls
import LetCall.Proofs.Moments.Failing
import LetCall.Proofs.Calls.Depth
import LetCall.Proofs.Source.Confinement
import LetCall.Proofs.Twins.Calls
import LetCall.Proofs.Twins.Debugging
import LetCall.Proofs.Stepwise
import LetCall.Proofs.Stepwise.Ending
import LetCall.Proofs.Evaluation.Closed
import LetCall.Proofs.Lexing.Composition
import LetCall.Proofs.Parsing.Expressions
import LetCall.Proofs.Parsing.Segments
import LetCall.Proofs.Moments.Tracing
import LetCall.Proofs.Twins.Evaluation
import LetCall.Proofs.Twins.Programs
import LetCall.Proofs.Twins.Pruning
import LetCall.Proofs.Twins.Imports
import LetCall.Proofs.Reading.Layout
import LetCall.Proofs.Parsing.Layout
import LetCall.Proofs.Lexing.Shadowing
import LetCall.Proofs.Evaluation.Types
import LetCall.Proofs.Source.FallThrough
import LetCall.Proofs.Library.Overlong
import LetCall.Proofs.Library.Slices
import LetCall.Proofs.Library.Printing
import LetCall.Proofs.Evaluation.Arity
import LetCall.Proofs.Parsing.Resuming
