import Lexing.Main
import Lexing.Proofs.OpenQuote
import Lexing.Proofs.LineBreaks
import Lexing.Proofs.Caret
import Lexing.Proofs.Lookahead
import Lexing.Proofs.Composition
import Lexing.Proofs.Acceptance
import Lexing.Proofs.Case
import Lexing.Proofs.Progress
import Lexing.Proofs.Recovery
import Lexing.Proofs.Restart
import Lexing.Proofs.Iteration
import Lexing.Proofs.Outcome
import Lexing.Proofs.Reuse
import Lexing.Proofs.RoundTrip
import Lexing.Proofs.LongestMatch
import Lexing.Proofs.Keywords
import Lexing.Proofs.RuleOrder
import Lexing.Proofs.Neighbours
import Lexing.Proofs.LineEndings
import Lexing.Proofs.Spelling
import Lexing.Proofs.Separation
import Lexing.Proofs.Lines
import Lexing.Proofs.CaretRange
import Lexing.Proofs.Listing
import Lexing.Proofs.Trace
import Lexing.Proofs.Boundaries
import Lexing.Proofs.WrittenForms
