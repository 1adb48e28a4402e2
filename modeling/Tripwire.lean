import Tripwire.Config.Document
import Tripwire.Engine.History
import Tripwire.Engine.Listing
import Tripwire.Expr.Completeness
import Tripwire.Expr.Meaning
import Tripwire.Worker
import Tripwire.Proofs.Graph.Edges
import Tripwire.Proofs.Graph.Settled
import Tripwire.Proofs.Wave.Cascade
import Tripwire.Proofs.Wave.Settling
import Tripwire.Proofs.Wave.Transitions
import Tripwire.Proofs.Wave.Overwriting
import Tripwire.Proofs.Network.Soundness
import Tripwire.Proofs.Network.Delivery
import Tripwire.Proofs.Network.Examination
import Tripwire.Proofs.Graph.Growth
import Tripwire.Proofs.Graph.Formulas
import Tripwire.Proofs.Formula.Canonical
import Tripwire.Proofs.Graph.Canonical
import Tripwire.Proofs.Network.Wiring
import Tripwire.Proofs.Formula.Checking
import Tripwire.Proofs.Engine.Recorded
import Tripwire.Proofs.Engine.Soundness
import Tripwire.Proofs.Engine.Deliveries
import Tripwire.Proofs.Wave.Unclamped
import Tripwire.Proofs.Engine.Runs
import Tripwire.Proofs.Engine.Repeating
import Tripwire.Engine.Feeding
import Tripwire.Proofs.Engine.Batches
import Tripwire.Proofs.Engine.Unclamped
import Tripwire.Proofs.Engine.Reports
import Tripwire.Proofs.Graph.Counting
import Tripwire.Proofs.Wave.Order
import Tripwire.Proofs.Wave.Rounds
import Tripwire.Proofs.Engine.Propagating
import Tripwire.Proofs.Engine.Sharing
import Tripwire.Proofs.Network.Faithful
import Tripwire.Proofs.Engine.Meaning
import Tripwire.Proofs.Expr.Acceptance
import Tripwire.Proofs.Engine.Latching
import Tripwire.Proofs.Engine.Examining
import Tripwire.Proofs.Engine.Standing
import Tripwire.Proofs.Engine.Independence
import Tripwire.Proofs.Number.Rounding
import Tripwire.Proofs.Number.Reading
import Tripwire.Proofs.Value.Reading
import Tripwire.Proofs.Token.Lexemes
import Tripwire.Proofs.Formula.Printing
import Tripwire.Proofs.Network.Rewiring
import Tripwire.Proofs.Engine.Printing
import Tripwire.Proofs.Engine.Texts
import Tripwire.Proofs.Engine.WellFormed
import Tripwire.Proofs.Engine.Refusals
import Tripwire.Proofs.Engine.Confluence
import Tripwire.Proofs.Engine.Numbering
import Tripwire.Engine.InPlace
import Tripwire.Proofs.Formula.Faults
import Tripwire.Proofs.Engine.Declarations
import Tripwire.Proofs.Engine.Loading
import Tripwire.Proofs.Engine.Dormant
import Tripwire.Proofs.Engine.Reloading
import Tripwire.Proofs.Engine.Rebuilding
import Tripwire.Proofs.Config.Documents
import Tripwire.Proofs.Worker
import Tripwire.Proofs.Engine.Enlarging
import Tripwire.Proofs.Token.Tiling
import Tripwire.Proofs.Value.Literals
import Tripwire.Proofs.Expr.Viability
import Tripwire.Proofs.Token.Failing
import Tripwire.Proofs.Token.Spacing
import Tripwire.Proofs.Expr.Spacing
import Tripwire.Proofs.Value.Comparing
import Tripwire.Text.Slice
import Tripwire.Expr.Visit
import Tripwire.Proofs.Token.Slicing
import Tripwire.Proofs.Expr.Nesting
import Tripwire.Proofs.Expr.Sources
