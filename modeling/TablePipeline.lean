import TablePipeline.Artifact
import TablePipeline.Backend
import TablePipeline.Cell.Basic
import TablePipeline.Cell.Encoding
import TablePipeline.Cell.Text
import TablePipeline.Chain.Basic
import TablePipeline.Chain.Demand
import TablePipeline.Chain.Error
import TablePipeline.Chain.Printer
import TablePipeline.Chain.Pushdown
import TablePipeline.Chain.Run
import TablePipeline.Chain.Signature
import TablePipeline.Config
import TablePipeline.Dictionary
import TablePipeline.Digest
import TablePipeline.Digest.Blake3
import TablePipeline.Digest.Bytes
import TablePipeline.Equivalence
import TablePipeline.Expr.Basic
import TablePipeline.Expr.Eval
import TablePipeline.Expr.Printer
import TablePipeline.Expr.Promise
import TablePipeline.Expr.Typing
import TablePipeline.Fingerprint
import TablePipeline.Graph.Basic
import TablePipeline.Graph.Builder
import TablePipeline.Graph.Reach
import TablePipeline.Main
import TablePipeline.Number.Decimal
import TablePipeline.Number.Notation
import TablePipeline.Number.Position
import TablePipeline.Number.Shortest
import TablePipeline.Pipeline.Basic
import TablePipeline.Pipeline.Build
import TablePipeline.Pipeline.Passengers
import TablePipeline.Pipeline.Report
import TablePipeline.Proofs.Chain.Alike
import TablePipeline.Proofs.Chain.Exchange
import TablePipeline.Proofs.Chain.Groups
import TablePipeline.Proofs.Chain.Invariants
import TablePipeline.Proofs.Chain.Joins
import TablePipeline.Proofs.Chain.KeyPositions
import TablePipeline.Proofs.Chain.Keys
import TablePipeline.Proofs.Chain.Names
import TablePipeline.Proofs.Chain.NestedLoops
import TablePipeline.Proofs.Chain.NormalForm
import TablePipeline.Proofs.Chain.Ordering
import TablePipeline.Proofs.Chain.Preservation
import TablePipeline.Proofs.Chain.Pushdown
import TablePipeline.Proofs.Chain.Reads
import TablePipeline.Proofs.Chain.RenamedPlans
import TablePipeline.Proofs.Chain.RenamedSteps
import TablePipeline.Proofs.Chain.Renaming
import TablePipeline.Proofs.Chain.Soundness
import TablePipeline.Proofs.Chain.Steps
import TablePipeline.Proofs.Chain.Texts
import TablePipeline.Proofs.Chain.Totals
import TablePipeline.Proofs.Chain.VerbTexts
import TablePipeline.Proofs.Chain.Widening
import TablePipeline.Proofs.Chain.Windows
import TablePipeline.Proofs.Dictionary
import TablePipeline.Proofs.Digest.Content
import TablePipeline.Proofs.Digest.Encoding
import TablePipeline.Proofs.Equivalence.Agreement
import TablePipeline.Proofs.Equivalence.Validation
import TablePipeline.Proofs.Except
import TablePipeline.Proofs.Expr.Evaluation
import TablePipeline.Proofs.Expr.Literals
import TablePipeline.Proofs.Expr.Nullability
import TablePipeline.Proofs.Expr.Scope
import TablePipeline.Proofs.Expr.Soundness
import TablePipeline.Proofs.Expr.Texts
import TablePipeline.Proofs.Graph.Built
import TablePipeline.Proofs.Graph.Closure
import TablePipeline.Proofs.Graph.Registration
import TablePipeline.Proofs.Number.Comparison
import TablePipeline.Proofs.Number.Notation
import TablePipeline.Proofs.Number.Places
import TablePipeline.Proofs.Number.Rounding
import TablePipeline.Proofs.Number.Shortest
import TablePipeline.Proofs.Number.Truncation
import TablePipeline.Proofs.Outcomes
import TablePipeline.Proofs.Rows.Grouping
import TablePipeline.Proofs.Rows.Joining
import TablePipeline.Proofs.Rows.Keys
import TablePipeline.Proofs.Rows.Matching
import TablePipeline.Proofs.Rows.Numbers
import TablePipeline.Proofs.Rows.Ordering
import TablePipeline.Proofs.Rows.Partition
import TablePipeline.Proofs.Rows.Sorting
import TablePipeline.Proofs.Rows.Soundness
import TablePipeline.Proofs.Rows.Totals
import TablePipeline.Proofs.Rows.Windows
import TablePipeline.Proofs.Run.Accounting
import TablePipeline.Proofs.Run.Addresses
import TablePipeline.Proofs.Run.Caching
import TablePipeline.Proofs.Run.Containment
import TablePipeline.Proofs.Run.Discipline
import TablePipeline.Proofs.Run.Effects
import TablePipeline.Proofs.Run.Explained
import TablePipeline.Proofs.Run.Invalidation
import TablePipeline.Proofs.Run.Moves
import TablePipeline.Proofs.Run.Plan
import TablePipeline.Proofs.Run.Produced
import TablePipeline.Proofs.Run.Selected
import TablePipeline.Proofs.Run.Session
import TablePipeline.Proofs.Run.Settling
import TablePipeline.Proofs.Run.Transparency
import TablePipeline.Proofs.Run.Truthful
import TablePipeline.Proofs.Run.Writes
import TablePipeline.Proofs.Sql.ChainQueries
import TablePipeline.Proofs.Sql.CompiledTexts
import TablePipeline.Proofs.Sql.Counterparts
import TablePipeline.Proofs.Sql.Drafts
import TablePipeline.Proofs.Sql.Faults
import TablePipeline.Proofs.Sql.Following
import TablePipeline.Proofs.Sql.Inlining
import TablePipeline.Proofs.Sql.Keywords
import TablePipeline.Proofs.Sql.Queries
import TablePipeline.Proofs.Sql.Relations
import TablePipeline.Proofs.Sql.RenamedQueries
import TablePipeline.Proofs.Sql.SelectLists
import TablePipeline.Proofs.Sql.Selections
import TablePipeline.Proofs.Sql.Symbols
import TablePipeline.Proofs.Sql.TermReading
import TablePipeline.Proofs.Sql.Terms
import TablePipeline.Proofs.Sql.Tokens
import TablePipeline.Proofs.Sql.Types
import TablePipeline.Proofs.Task.Bindings
import TablePipeline.Proofs.Task.Invocation
import TablePipeline.Proofs.Text.Notes
import TablePipeline.Proofs.Text.Reading
import TablePipeline.Random.ChaCha
import TablePipeline.Random.Generator
import TablePipeline.Raw.Loaded
import TablePipeline.Raw.Query
import TablePipeline.Raw.Result
import TablePipeline.Raw.Run
import TablePipeline.Raw.Select
import TablePipeline.Raw.Token
import TablePipeline.Registry
import TablePipeline.Rows.Aggregate
import TablePipeline.Rows.Group
import TablePipeline.Rows.Join
import TablePipeline.Rows.Order
import TablePipeline.Rows.Window
import TablePipeline.Run.Coordinator
import TablePipeline.Run.Flow
import TablePipeline.Run.Materialize
import TablePipeline.Run.Report
import TablePipeline.Schema
import TablePipeline.Sql.Basic
import TablePipeline.Sql.Dialect
import TablePipeline.Sql.Query
import TablePipeline.Store
import TablePipeline.Table
import TablePipeline.Task.Basic
import TablePipeline.Task.Identity
import TablePipeline.Task.Query
import TablePipeline.Text.CharWidth
import TablePipeline.Text.Emoji
import TablePipeline.Text.Follower
import TablePipeline.Text.Grid
import TablePipeline.Text.Listing
import TablePipeline.Text.Printable
import TablePipeline.Text.Quoted
import TablePipeline.Text.Ranges
import TablePipeline.Text.Width
import TablePipeline.Toml.Document
import TablePipeline.Toml.Scalar
import TablePipeline.Toml.Text
import TablePipeline.Proofs.Store.History
import TablePipeline.Proofs.Graph.Dependencies
import TablePipeline.Proofs.Raw.References
import TablePipeline.Proofs.Overflow.Arithmetic
import TablePipeline.Proofs.Raw.Supply
import TablePipeline.Proofs.Overflow.Evaluation
import TablePipeline.Proofs.Overflow.Rendering
import TablePipeline.Proofs.Expr.Conjuncts
import TablePipeline.Proofs.Raw.Inference
