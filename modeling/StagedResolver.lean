import StagedResolver.Document.Assembly
import StagedResolver.Document.Basic
import StagedResolver.Document.BlockText
import StagedResolver.Document.Grammar
import StagedResolver.Document.Lexeme
import StagedResolver.Document.Literal
import StagedResolver.Engine.Basic
import StagedResolver.Entries
import StagedResolver.Evaluation.Basic
import StagedResolver.Evaluation.Context
import StagedResolver.Evaluation.Error
import StagedResolver.Evaluation.Lookup
import StagedResolver.Evaluation.Operation
import StagedResolver.Execution.Basic
import StagedResolver.Execution.Completion
import StagedResolver.Execution.FieldError
import StagedResolver.Expression.Basic
import StagedResolver.Expression.Draft
import StagedResolver.Expression.Lowering
import StagedResolver.Expression.Operator
import StagedResolver.Expression.Portable
import StagedResolver.Expression.Term
import StagedResolver.Json.Basic
import StagedResolver.Json.Portable
import StagedResolver.Json.Printer
import StagedResolver.Json.Reader
import StagedResolver.Json.Token
import StagedResolver.Number.Binary64
import StagedResolver.Number.Decimal
import StagedResolver.Number.Layout
import StagedResolver.OrderedMap
import StagedResolver.Plan.Assignment
import StagedResolver.Plan.Basic
import StagedResolver.Plan.Coercion
import StagedResolver.Plan.Collection
import StagedResolver.Plan.Error
import StagedResolver.Plan.Input
import StagedResolver.Plan.Planning
import StagedResolver.Plan.Validity
import StagedResolver.Proofs.Document.Agreement
import StagedResolver.Proofs.Document.Filling
import StagedResolver.Proofs.Document.Reachability
import StagedResolver.Proofs.Document.Reading
import StagedResolver.Proofs.Entries
import StagedResolver.Proofs.Evaluation.Arithmetic
import StagedResolver.Proofs.Evaluation.Comparison
import StagedResolver.Proofs.Evaluation.Elements
import StagedResolver.Proofs.Evaluation.Fitting
import StagedResolver.Proofs.Evaluation.Holding
import StagedResolver.Proofs.Evaluation.Stack
import StagedResolver.Proofs.Evaluation.Walking
import StagedResolver.Proofs.Execution.Accounting
import StagedResolver.Proofs.Execution.Conformity
import StagedResolver.Proofs.Execution.Contexts
import StagedResolver.Proofs.Execution.Enclosure
import StagedResolver.Proofs.Execution.Failure
import StagedResolver.Proofs.Execution.Independence
import StagedResolver.Proofs.Execution.Rearrangement
import StagedResolver.Proofs.Execution.Recording
import StagedResolver.Proofs.Expression.Acceptance
import StagedResolver.Proofs.Expression.FlatMapping
import StagedResolver.Proofs.Expression.Footprint
import StagedResolver.Proofs.Expression.Lowered
import StagedResolver.Proofs.Expression.LoweringMeaning
import StagedResolver.Proofs.Expression.Portability
import StagedResolver.Proofs.Expression.Renaming
import StagedResolver.Proofs.Expression.Slots
import StagedResolver.Proofs.Expression.Soundness
import StagedResolver.Proofs.Expression.Storage
import StagedResolver.Proofs.Expression.Transparency
import StagedResolver.Proofs.Json.Portable
import StagedResolver.Proofs.Json.Reading
import StagedResolver.Proofs.Json.Scanning
import StagedResolver.Proofs.Plan.Agreement
import StagedResolver.Proofs.Plan.Arguments
import StagedResolver.Proofs.Plan.Arrangement
import StagedResolver.Proofs.Plan.Coercion
import StagedResolver.Proofs.Plan.Correspondence
import StagedResolver.Proofs.Plan.Exactness
import StagedResolver.Proofs.Plan.Expansion
import StagedResolver.Proofs.Plan.Extension
import StagedResolver.Proofs.Plan.Faults
import StagedResolver.Proofs.Plan.Grouping
import StagedResolver.Proofs.Plan.Merging
import StagedResolver.Proofs.Plan.Nesting
import StagedResolver.Proofs.Plan.Termination
import StagedResolver.Proofs.Plan.Validity
import StagedResolver.Proofs.Plan.VariableChecks
import StagedResolver.Proofs.Plan.Variables
import StagedResolver.Proofs.Response.Classification
import StagedResolver.Proofs.Response.Omission
import StagedResolver.Proofs.Response.Rendering
import StagedResolver.Proofs.Response.Reporting
import StagedResolver.Proofs.Schema.ArgumentReads
import StagedResolver.Proofs.Schema.Checks
import StagedResolver.Proofs.Schema.Compiled
import StagedResolver.Proofs.Schema.Declared
import StagedResolver.Proofs.Schema.Dependence
import StagedResolver.Proofs.Schema.Durability
import StagedResolver.Proofs.Schema.Redeclaration
import StagedResolver.Proofs.Schema.Renumbering
import StagedResolver.Proofs.Schema.Storage
import StagedResolver.Proofs.Schema.TypeText
import StagedResolver.Proofs.Value.Collapsing
import StagedResolver.Proofs.Value.Extraction
import StagedResolver.Proofs.Value.Order
import StagedResolver.Proofs.Value.Projection
import StagedResolver.Response.Basic
import StagedResolver.Schema.Basic
import StagedResolver.Schema.Check
import StagedResolver.Schema.Compilation
import StagedResolver.Schema.Declaration
import StagedResolver.Schema.Portable
import StagedResolver.Schema.Resolution
import StagedResolver.Schema.Scalar
import StagedResolver.Schema.TypeReference
import StagedResolver.Settings.Basic
import StagedResolver.Settings.Decoding
import StagedResolver.Text.Basic
import StagedResolver.Text.Extending
import StagedResolver.Text.Reader
import StagedResolver.Text.Unprintable
import StagedResolver.Toml.Basic
import StagedResolver.Toml.Grammar
import StagedResolver.Toml.Lexeme
import StagedResolver.Toml.Section
import StagedResolver.Value.Basic
import StagedResolver.Value.Native
import StagedResolver.Value.Order
import StagedResolver.Value.Portable
import StagedResolver.Value.Projection
import StagedResolver.Value.Type
