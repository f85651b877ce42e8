import Appraisal.Evaluation.AuditTrail
import Appraisal.Formula.Definition
import Appraisal.Payload.Basic
import Appraisal.UserInput.Basic

/-!
# Financial models

A financial model holds what was entered, what was calculated, why, and how each field is to be understood.
-/

namespace Appraisal

/-!
## Metadata of fields

How the value of a field is to be shown and checked.
-/

/-- What kind of value a field holds. -/
inductive FieldValueType where
  | currency
  | percentage
  | number
  | date
  | text
  | boolean
  deriving DecidableEq, Repr

namespace FieldValueType

instance : Named FieldValueType where
  title := "FieldValueType"
  all := [currency, percentage, number, date, text, boolean]
  name
    | currency => "currency"
    | percentage => "percentage"
    | number => "number"
    | date => "date"
    | text => "text"
    | boolean => "boolean"

/-- The kind of value that is shown in a format; a ratio is a plain number. -/
def ofFormat : OutputFormat → FieldValueType
  | .currency => currency
  | .percentage => percentage
  | .number => number
  | .ratio => number

end FieldValueType

/-- The value that stood in a field before it was overridden. -/
inductive PriorValue where
  | number (value : Decimal)
  | text (value : String)
  deriving DecidableEq, Repr

/-- How the value of a field is shown and checked. -/
structure TypeMetadata where
  type : FieldValueType
  currency : Option String
  precision : Option Nat
  unit : Option String
  displayFormat : Option String
  footnotes : List Footnote
  sourceLocation : Option DocumentLocation
  isOverridden : Bool
  priorValue : Option PriorValue
  minValue : Option Decimal
  maxValue : Option Decimal
  required : Bool
  deriving DecidableEq, Repr

/-!
## Reasoning

Beside its numbers a model carries a summary in words, the decisions that were taken, the entries that a
person should look at, and how sure the whole is.
-/

/-- A decision taken while values were read or computed. -/
structure ReasoningDecision where
  decision : String
  rationale : String
  affectedFields : List String
  confidence : Measure
  alternatives : List String
  deriving DecidableEq, Repr

/-- An entry that a person should look at. -/
structure FlaggedItem where
  field : String
  reason : String
  severity : Severity
  suggestedAction : Option String
  confidence : Option Measure
  deriving DecidableEq, Repr

/-- The reasoning of a model. -/
structure BriefReasoning where
  summary : String
  decisions : List ReasoningDecision
  flaggedItems : List FlaggedItem
  overallConfidence : Binary64
  deriving DecidableEq, Repr

/-!
## Models

A financial model holds the user input, the audit trail of its evaluation, the metadata of its fields and
the reasoning behind it.
-/

/-- The approach of a valuation. -/
inductive FinancialModelType where
  | directCapitalization
  | discountedCashFlow
  | salesComparison
  | costApproach
  | developmentResidual
  | custom
  deriving DecidableEq, Repr

instance : Named FinancialModelType where
  title := "FinancialModelType"
  all :=
    [.directCapitalization, .discountedCashFlow, .salesComparison, .costApproach,
      .developmentResidual, .custom]
  name
    | .directCapitalization => "direct_capitalization"
    | .discountedCashFlow => "discounted_cash_flow"
    | .salesComparison => "sales_comparison"
    | .costApproach => "cost_approach"
    | .developmentResidual => "development_residual"
    | .custom => "custom"

/-- How a model came about. -/
structure ModelMetadata where
  modelVersion : String
  createdAt : String
  sourceFileName : Option String
  sourceFileType : Option String
  processingTimeMs : Option Binary64
  agentModel : Option String
  updatedAt : Option String
  parsingSessionId : Option String
  deriving DecidableEq, Repr

/-- A complete model. -/
structure FinancialModel where
  id : String
  title : String
  modelType : FinancialModelType
  briefReasoning : BriefReasoning
  userInput : UserInput
  calculations : AuditTrail
  metadata : ModelMetadata
  types : Dictionary TypeMetadata

namespace FinancialModel

/-- The model under an identifier; an empty one is replaced by a fresh one. -/
def withId (model : FinancialModel) (id : String) : Build FinancialModel := do
  let id ← Build.idOr (some id)
  return { model with id }

end FinancialModel

end Appraisal
