import LogicalQuery.Aggregate
import LogicalQuery.Analysis.Analyzer
import LogicalQuery.Analysis.Binding
import LogicalQuery.Analysis.Coercion
import LogicalQuery.Analysis.Rule
import LogicalQuery.Binary64.Basic
import LogicalQuery.Binary64.Reading
import LogicalQuery.Binary64.Rounding
import LogicalQuery.Binary64.Shortest
import LogicalQuery.Binary64.Single
import LogicalQuery.Binary64.Text
import LogicalQuery.Calendar
import LogicalQuery.Cast.Registry
import LogicalQuery.Cast.Standard
import LogicalQuery.Catalog.Basic
import LogicalQuery.Catalog.NameTable
import LogicalQuery.DataType
import LogicalQuery.Error
import LogicalQuery.Expr.Basic
import LogicalQuery.Expr.Eval
import LogicalQuery.Expr.Transform
import LogicalQuery.Expr.Typing
import LogicalQuery.Instant.Basic
import LogicalQuery.Instant.Rfc3339
import LogicalQuery.Plan.Basic
import LogicalQuery.Plan.Schema
import LogicalQuery.Plan.Text
import LogicalQuery.Plan.Transform
import LogicalQuery.Row
import LogicalQuery.Schema
import LogicalQuery.Text.CodePoints
import LogicalQuery.Text.CodePoints.Table
import LogicalQuery.Text.LowerCase
import LogicalQuery.Text.LowerCase.Table
import LogicalQuery.Text.Numeral
import LogicalQuery.Value.Basic
import LogicalQuery.Value.Comparison
import LogicalQuery.Value.Conversion
import LogicalQuery.Value.ToValue
import LogicalQuery.Proofs.Aggregate.Buffer
import LogicalQuery.Proofs.Aggregate.ClosedForm
import LogicalQuery.Proofs.Aggregate.Fold
import LogicalQuery.Proofs.Aggregate.History
import LogicalQuery.Proofs.Aggregate.Partition
import LogicalQuery.Proofs.Aggregate.Soundness
import LogicalQuery.Proofs.Analysis.BoundForm
import LogicalQuery.Proofs.Analysis.ColumnNames
import LogicalQuery.Proofs.Analysis.Composition
import LogicalQuery.Proofs.Analysis.Congruence
import LogicalQuery.Proofs.Analysis.Convergence
import LogicalQuery.Proofs.Analysis.Conversion
import LogicalQuery.Proofs.Analysis.Diagnosis
import LogicalQuery.Proofs.Analysis.EqualPlans
import LogicalQuery.Proofs.Analysis.Growth
import LogicalQuery.Proofs.Analysis.Idempotence
import LogicalQuery.Proofs.Analysis.Invariant
import LogicalQuery.Proofs.Analysis.Limit
import LogicalQuery.Proofs.Analysis.Mirror
import LogicalQuery.Proofs.Analysis.Progress
import LogicalQuery.Proofs.Analysis.Qualifier
import LogicalQuery.Proofs.Analysis.Reach
import LogicalQuery.Proofs.Analysis.Refinement
import LogicalQuery.Proofs.Analysis.Settled
import LogicalQuery.Proofs.Analysis.Soundness
import LogicalQuery.Proofs.Analysis.StarExpansion
import LogicalQuery.Proofs.Analysis.Step
import LogicalQuery.Proofs.Analysis.TableColumns
import LogicalQuery.Proofs.Analysis.WellFormed
import LogicalQuery.Proofs.Binary64.Integer
import LogicalQuery.Proofs.Binary64.Reading
import LogicalQuery.Proofs.Binary64.Rounding
import LogicalQuery.Proofs.Binary64.Shortest
import LogicalQuery.Proofs.Binary64.Text
import LogicalQuery.Proofs.Calendar
import LogicalQuery.Proofs.Cast.Conversion
import LogicalQuery.Proofs.Cast.Order
import LogicalQuery.Proofs.Cast.Path
import LogicalQuery.Proofs.Cast.Registry
import LogicalQuery.Proofs.Cast.Standard
import LogicalQuery.Proofs.Cast.Text
import LogicalQuery.Proofs.Catalog.Growth
import LogicalQuery.Proofs.Catalog.History
import LogicalQuery.Proofs.Expr.BoundForm
import LogicalQuery.Proofs.Expr.Coerced
import LogicalQuery.Proofs.Expr.Conversion
import LogicalQuery.Proofs.Expr.Equality
import LogicalQuery.Proofs.Expr.Pending
import LogicalQuery.Proofs.Expr.Shape
import LogicalQuery.Proofs.Expr.Soundness
import LogicalQuery.Proofs.Expr.Subexpression
import LogicalQuery.Proofs.Expr.Visit
import LogicalQuery.Proofs.Instant.Rfc3339
import LogicalQuery.Proofs.Outcome
import LogicalQuery.Proofs.Plan.BoundForm
import LogicalQuery.Proofs.Plan.Equality
import LogicalQuery.Proofs.Plan.Operator
import LogicalQuery.Proofs.Plan.Output
import LogicalQuery.Proofs.Plan.Parts
import LogicalQuery.Proofs.Plan.Pending
import LogicalQuery.Proofs.Plan.Resolved
import LogicalQuery.Proofs.Plan.Shape
import LogicalQuery.Proofs.Plan.Visit
import LogicalQuery.Proofs.Text.Digits
import LogicalQuery.Proofs.Text.LowerCase
import LogicalQuery.Proofs.Text.Numeral
import LogicalQuery.Proofs.Value.Canonical
import LogicalQuery.Proofs.Value.Conformity
import LogicalQuery.Proofs.Value.Integer
import LogicalQuery.Proofs.Value.Order
