import Formulary.Main
import Formulary.Proofs.Printing.RoundTrip
import Formulary.Proofs.Typing.Soundness
import Formulary.Sharing.Workspace
import Formulary.Proofs.Formula.Alike
import Formulary.Proofs.Evaluation.Agreement
import Formulary.Proofs.Evaluation.Simulation
import Formulary.Proofs.Evaluation.Room
import Formulary.Proofs.Sharing.Store
import Formulary.Proofs.Sharing.Transparency
import Formulary.Proofs.Evaluation.Inlining
import Formulary.Proofs.Evaluation.Raising
import Formulary.Proofs.Evaluation.Cancellation
import Formulary.Proofs.Evaluation.Depth
import Formulary.Proofs.Evaluation.Visits
import Formulary.Proofs.Evaluation.Recursion
import Formulary.Proofs.Evaluation.Starting
import Formulary.Proofs.Evaluation.Nesting
import Formulary.Proofs.Evaluation.Rounds
import Formulary.Proofs.Sharing.Requests
import Formulary.Proofs.Sharing.Ownership
import Formulary.Proofs.Sharing.Steps
import Formulary.Proofs.Sharing.History
import Formulary.Proofs.Sharing.Places
import Formulary.Proofs.Sharing.Identity
import Formulary.Proofs.Lexing.Coverage
import Formulary.Proofs.Formula.Order
import Formulary.Proofs.Evaluation.Order
import Formulary.Proofs.Evaluation.Arguments
import Formulary.Proofs.Evaluation.Inert
import Formulary.Proofs.Evaluation.Varied
import Formulary.Proofs.Integers.Exact
import Formulary.Proofs.Comparison.Coherence
import Formulary.Proofs.Evaluation.Asking
import Formulary.Proofs.Evaluation.Laziness
import Formulary.Proofs.Lexing.Respacing
import Formulary.Proofs.Number.Divisors
import Formulary.Proofs.Printing.Nesting
import Formulary.Proofs.Integers.Printed
import Formulary.Proofs.Parsing.Blame
import Formulary.Proofs.Parsing.Order
import Formulary.Proofs.Parsing.Containment
import Formulary.Proofs.Evaluation.Respelling
import Formulary.Proofs.Integers.Bits
import Formulary.Proofs.Sharing.Population
import Formulary.Proofs.Real.Range
import Formulary.Proofs.Lexing.Numerals
import Formulary.Proofs.Parsing.Doubles
import Formulary.Proofs.Source.Boundaries
import Formulary.Proofs.Source.Columns
import Formulary.Proofs.Parsing.Showing
import Formulary.Proofs.Evaluation.Singles
import Formulary.Proofs.Text.Cutting
import Formulary.Proofs.CommandLine.Grouping
import Formulary.Proofs.CommandLine.Lines
import Formulary.Proofs.CommandLine.Bindings
import Formulary.Proofs.Tree.Search
