import RecordView.Host
import RecordView.Sample.Directory
import RecordView.Proofs.Mapping.Path
import RecordView.Proofs.Mapping.PathExpr
import RecordView.Proofs.Outcome
import RecordView.Proofs.Mapping.Declared
import RecordView.Proofs.Mapping.Projection
import RecordView.Proofs.Expr.Yields
import RecordView.Proofs.Mapping.Commuting
import RecordView.Sample.Users
import RecordView.Proofs.Service.View
import RecordView.Proofs.Store.Commit
import RecordView.Proofs.Store.Identity
import RecordView.Proofs.Service.Creation
import RecordView.Proofs.Store.Filter
import RecordView.Proofs.Mapping.Writes
import RecordView.Proofs.Mapping.Overwriting
import RecordView.Proofs.Service.Update
import RecordView.Proofs.Service.Deletion
import RecordView.Proofs.Service.RoundTrip
import RecordView.Sample.Residents
import RecordView.Proofs.Paging
import RecordView.Proofs.Aggregate.Order
import RecordView.Proofs.Expr.Environment
import RecordView.Proofs.Expr.Parts
import RecordView.Proofs.Expr.Rebinding
import RecordView.Proofs.Aggregate.Scoping
import RecordView.Proofs.Aggregate.Elements
import RecordView.Proofs.Mapping.Insertion
import RecordView.Proofs.Service.Interleaving
import RecordView.Proofs.Double.Nearest
import RecordView.Proofs.Value.Number
import RecordView.Proofs.Value.Order
import RecordView.Proofs.Accounting.Blocks
import RecordView.Proofs.Accounting.Balance
import RecordView.Proofs.Expr.Results
import RecordView.Proofs.Expr.Typing
import RecordView.Proofs.Expr.Chains
import RecordView.Proofs.Expr.Coercion
import RecordView.Proofs.Mapping.Agreement
import RecordView.Proofs.Value.Comparisons
import RecordView.Proofs.Store.Loading
import RecordView.Proofs.Mapping.Restoring
import RecordView.Proofs.Aggregate.Exactness
import RecordView.Proofs.Store.Batches
import RecordView.Proofs.Aggregate.Fallback
import RecordView.Proofs.Value.Integer
import RecordView.Proofs.Store.Integrity
import RecordView.Proofs.Expr.Integers
import RecordView.Proofs.Expr.Calls
import RecordView.Proofs.Expr.Quoting
import RecordView.Proofs.Expr.Binding
import RecordView.Proofs.Aggregate.Hygiene
import RecordView.Proofs.Mapping.Frames
import RecordView.Proofs.Mapping.Rewriting
import RecordView.Proofs.Service.Idempotence
import RecordView.Proofs.Expr.Independence
import RecordView.Proofs.Mapping.Resolution
