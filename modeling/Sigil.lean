import Sigil.Main
import Sigil.Registry.Journal
import Sigil.Statement.Printer
import Sigil.Proofs.Condition
import Sigil.Proofs.Evaluation
import Sigil.Proofs.Step
import Sigil.Proofs.Invariant
import Sigil.Proofs.Statement
import Sigil.Proofs.Termination
import Sigil.Proofs.Resume
import Sigil.Proofs.Runs
import Sigil.Proofs.Insertion
import Sigil.Proofs.Program
import Sigil.Proofs.Remark
import Sigil.Proofs.Block
import Sigil.Proofs.Flattening
import Sigil.Proofs.Structured
import Sigil.Proofs.Constants
import Sigil.Proofs.Frame
import Sigil.Proofs.Counting
import Sigil.Proofs.Token
import Sigil.Proofs.Written
import Sigil.Proofs.RoundTrip
import Sigil.Proofs.Typing
import Sigil.Proofs.Verdict
import Sigil.Proofs.Substitution
import Sigil.Proofs.Limit
import Sigil.Proofs.Registry
import Sigil.Proofs.Expanded
import Sigil.Proofs.Location
import Sigil.Proofs.Quotation
import Sigil.Proofs.Course
import Sigil.Proofs.Reduction
import Sigil.Proofs.Branch
import Sigil.Proofs.Driving
import Sigil.Proofs.Directive
import Sigil.Proofs.Listing
import Sigil.Proofs.Grouping
import Sigil.Proofs.Spacing
import Sigil.Proofs.Balance
import Sigil.Proofs.Literal
import Sigil.Proofs.Integer
