import DocShell.Failure.Reply
import DocShell.Main
import DocShell.Proofs.Literal.Decoding
import DocShell.Proofs.Plan.ReadOnly
import DocShell.Proofs.Store.CursorPipeline
import DocShell.Proofs.Store.Selection
import DocShell.Proofs.Value.Equality
import DocShell.Proofs.Query.Path
import DocShell.Proofs.Query.Update
import DocShell.Proofs.Store.Updating
import DocShell.Proofs.Store.Identity
import DocShell.Proofs.Store.Lookup
import DocShell.Proofs.Plan.Rejection
import DocShell.Proofs.Plan.CursorChain
import DocShell.Proofs.Store.Counting
import DocShell.Proofs.Plan.Acknowledgement
import DocShell.Proofs.Session.CurrentDatabase
import DocShell.Proofs.Text.Trimming
import DocShell.Proofs.Value.Order
import DocShell.Proofs.Value.RoundTrip
import DocShell.Proofs.Command.Reference
import DocShell.Proofs.Command.Shorthand
import DocShell.Proofs.Text.Splitting
import DocShell.Proofs.Call.Arguments
import DocShell.Proofs.Call.Grammar
import DocShell.Proofs.List.StableSort
import DocShell.Proofs.Query.Sorting
import DocShell.Proofs.Query.BooleanAlgebra
import DocShell.Proofs.Query.Ranges
import DocShell.Proofs.Double.Integers
import DocShell.Proofs.Query.Distinct
import DocShell.Proofs.Query.Integers
import DocShell.Proofs.Query.Rewriting
import DocShell.Proofs.Query.Lens
import DocShell.Proofs.Query.Changes
import DocShell.Proofs.Store.ChangeCount
import DocShell.Proofs.Query.Projection
import DocShell.Proofs.Query.Reordering
import DocShell.Proofs.Query.Increments
import DocShell.Proofs.Store.Batch
import DocShell.Proofs.Literal.Strict
import DocShell.Proofs.Command.Routing
import DocShell.Proofs.Text.StringLiteral
import DocShell.Proofs.Command.Quoting
import DocShell.Proofs.Value.Wrappers
import DocShell.Proofs.Calendar.IsoText
import DocShell.Proofs.Value.IntegerPayloads
import DocShell.Proofs.Settings.Precedence
import DocShell.Proofs.Command.Separators
import DocShell.Proofs.Literal.Copying
