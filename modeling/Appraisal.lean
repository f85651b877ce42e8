import Appraisal.Binary64.Basic
import Appraisal.Binary64.Text
import Appraisal.Configuration
import Appraisal.Decimal.Arithmetic
import Appraisal.Decimal.Text
import Appraisal.Dictionary
import Appraisal.Evaluation.AuditTrail
import Appraisal.Evaluation.Run
import Appraisal.Failure.Basic
import Appraisal.Failure.Issue
import Appraisal.Failure.Making
import Appraisal.Failure.Report
import Appraisal.Formula.Compute
import Appraisal.Formula.Definition
import Appraisal.Formula.Dependency
import Appraisal.Formula.DirectCap
import Appraisal.Formula.Registrar
import Appraisal.Income.FlatRecord
import Appraisal.Income.ModuleData
import Appraisal.Income.Stream
import Appraisal.Logging.Journal
import Appraisal.Logging.Layout
import Appraisal.Logging.Placeholder
import Appraisal.Logging.Template
import Appraisal.Model.Assembly
import Appraisal.Model.Basic
import Appraisal.Moment.Basic
import Appraisal.Moment.Reading
import Appraisal.Notation.Basic
import Appraisal.Payload.Basic
import Appraisal.Payload.Path
import Appraisal.Proofs.Binary64.Mean
import Appraisal.Proofs.Decimal.Correct
import Appraisal.Proofs.Decimal.Exact
import Appraisal.Proofs.Decimal.Nearest
import Appraisal.Proofs.Decimal.Range
import Appraisal.Proofs.Decimal.Shown
import Appraisal.Proofs.Decimal.Text
import Appraisal.Proofs.Decimal.Value
import Appraisal.Proofs.Dependency.Agenda
import Appraisal.Proofs.Dependency.CycleSearch
import Appraisal.Proofs.Dependency.FirstReady
import Appraisal.Proofs.Dictionary
import Appraisal.Proofs.Evaluation.Closure
import Appraisal.Proofs.Evaluation.Coherence
import Appraisal.Proofs.Evaluation.Completion
import Appraisal.Proofs.Evaluation.DirectCapitalization
import Appraisal.Proofs.Evaluation.Display
import Appraisal.Proofs.Evaluation.Explanation
import Appraisal.Proofs.Evaluation.Extension
import Appraisal.Proofs.Evaluation.Flags
import Appraisal.Proofs.Evaluation.Influence
import Appraisal.Proofs.Evaluation.MissingValues
import Appraisal.Proofs.Evaluation.Presentable
import Appraisal.Proofs.Evaluation.Record
import Appraisal.Proofs.Evaluation.Recordable
import Appraisal.Proofs.Evaluation.Requirements
import Appraisal.Proofs.Evaluation.RoundTrip
import Appraisal.Proofs.Evaluation.Solution
import Appraisal.Proofs.Fallible
import Appraisal.Proofs.Formula.Serialization
import Appraisal.Proofs.Income.Adjustment
import Appraisal.Proofs.Income.Bounds
import Appraisal.Proofs.Income.Conservation
import Appraisal.Proofs.Income.Grouping
import Appraisal.Proofs.Income.Identifiers
import Appraisal.Proofs.Income.Vacancy
import Appraisal.Proofs.Model.Assembly
import Appraisal.Proofs.Model.Escalation
import Appraisal.Proofs.Model.FieldMetadata
import Appraisal.Proofs.Model.Recordable
import Appraisal.Proofs.Model.RoundTrip
import Appraisal.Proofs.Model.Summary
import Appraisal.Proofs.Moment.Calendar
import Appraisal.Proofs.Moment.Text
import Appraisal.Proofs.Notation.Closing
import Appraisal.Proofs.Notation.Concatenation
import Appraisal.Proofs.Notation.Gap
import Appraisal.Proofs.Notation.Generation
import Appraisal.Proofs.Notation.Grammar
import Appraisal.Proofs.Notation.Segmentation
import Appraisal.Proofs.Notation.Template
import Appraisal.Proofs.Notation.Validation
import Appraisal.Proofs.Payload.Amount
import Appraisal.Proofs.Payload.Punctuation
import Appraisal.Proofs.Provenance.RoundTrip
import Appraisal.Proofs.Registry.Cycle
import Appraisal.Proofs.Registry.ExecutionOrder
import Appraisal.Proofs.Registry.Registration
import Appraisal.Proofs.Schema.Conversion
import Appraisal.Proofs.Schema.DirectCapitalization
import Appraisal.Proofs.Schema.Exchange
import Appraisal.Proofs.Schema.Extensions
import Appraisal.Proofs.Schema.Reading
import Appraisal.Proofs.Schema.Writing
import Appraisal.Proofs.Text.Digits
import Appraisal.Proofs.UserInput.Numbers
import Appraisal.Proofs.UserInput.RawInputs
import Appraisal.Proofs.UserInput.Recordable
import Appraisal.Proofs.UserInput.RoundTrip
import Appraisal.Provenance.Reference
import Appraisal.Schema.AuditTrail
import Appraisal.Schema.Extensions
import Appraisal.Schema.FieldMetadata
import Appraisal.Schema.Leaf
import Appraisal.Schema.Model
import Appraisal.Schema.Provenance
import Appraisal.Schema.Reading
import Appraisal.Schema.Reasoning
import Appraisal.Schema.UserInput
import Appraisal.Text.Character
import Appraisal.Text.Numeral
import Appraisal.Text.Printable
import Appraisal.UserInput.Basic
