import Appraisal.Evaluation.AuditTrail
import Appraisal.Schema.Provenance

/-!
# Records of audit trails

The records of footnotes, of the formula, the steps and the result of a calculation, and of the audit
trail as a whole.
-/

namespace Appraisal

namespace Footnote

def title : String := "FootnoteSchema"

/-- The footnote of four fields. -/
def ofFields (id symbol text category : Option Payload) : Reading Footnote :=
  mk <$> Reading.required "id" Schema.text id
    <*> Reading.required "symbol" (Schema.textUpTo 3) symbol
    <*> Reading.required "text" Schema.nonEmptyText text
    <*> Reading.required "category" (Schema.option FootnoteCategory) category

/-- Reads a footnote. -/
def read : Reader Footnote :=
  Reading.record title fun field =>
    ofFields (field "id") (field "symbol") (field "text") (field "category")

def toPayload (footnote : Footnote) : Payload :=
  .object
    [("id", .text footnote.id), ("symbol", .text footnote.symbol), ("text", .text footnote.text),
      ("category", Named.toPayload footnote.category)]

def schema : Schema Footnote :=
  { title, read, toPayload }

/-- The footnote itself, if it can be recorded. -/
def recorded (footnote : Footnote) : Except Failure Footnote :=
  Reading.built title <|
    ofFields (some (.text footnote.id)) (some (.text footnote.symbol))
      (some (.text footnote.text)) (some (Named.toPayload footnote.category))

end Footnote

/-- The record of an operand. -/
structure OperandRecord where
  ref : String
  label : String
  key : Option String
  description : Option String
  coefficient : Option Decimal
  deriving DecidableEq, Repr

namespace OperandRecord

def title : String := "OperandRefSchema"

/-- The record of five fields. -/
def ofFields (ref label key description coefficient : Option Payload) : Reading OperandRecord :=
  mk <$> Reading.required "ref" Schema.text ref
    <*> Reading.required "label" Schema.text label
    <*> Reading.optional "key" Schema.text key
    <*> Reading.optional "description" Schema.text description
    <*> Reading.optional "coefficient" Schema.decimal coefficient

/-- Reads an operand. -/
def read : Reader OperandRecord :=
  Reading.record title fun field =>
    ofFields (field "ref") (field "label") (field "key") (field "description")
      (field "coefficient")

def toPayload (operand : OperandRecord) : Payload :=
  .object
    [("ref", .text operand.ref), ("label", .text operand.label), ("key", .ofText? operand.key),
      ("description", .ofText? operand.description),
      ("coefficient", .ofText? (operand.coefficient.map Decimal.toText))]

def schema : Schema OperandRecord :=
  { title, read, toPayload }

/-- The record of an operand; its default and its sign are not recorded. -/
def ofOperand (operand : Operand) : Except Failure OperandRecord :=
  Reading.built title <|
    ofFields (some (.text operand.path)) (some (.text operand.label)) (some (.text operand.key))
      (some (.ofText? operand.description)) (some (.ofDecimal? operand.coefficient))

/-- The operand of a record; without a key it reads the input of its path. -/
def toOperand (operand : OperandRecord) : Operand :=
  { key := if ReferenceKey.isGiven operand.key then operand.key.getD "" else operand.ref
    label := operand.label
    ref := operand.ref
    description := operand.description
    coefficient := operand.coefficient
    fallback := none
    positive := false }

end OperandRecord

/-- The record of how a value was calculated. -/
structure FormulaRecord where
  displayFormula : String
  expression : String
  operands : List OperandRecord
  operator : Option Operation
  calculationFn : Option String
  deriving DecidableEq, Repr

namespace FormulaRecord

def title : String := "CalculationFormulaSchema"

/-- The record of its fields, of which the operands have been read. -/
def ofFields (displayFormula expression : Option Payload) (operands : Reading (List OperandRecord))
    (operator calculationFn : Option Payload) : Reading FormulaRecord :=
  mk <$> Reading.required "displayFormula" Schema.nonEmptyText displayFormula
    <*> Reading.required "expression" Schema.nonEmptyText expression
    <*> operands
    <*> Reading.optional "operator" (Schema.option Operation) operator
    <*> Reading.optional "calculationFn" Schema.text calculationFn

/-- Reads how a value was calculated. -/
def read : Reader FormulaRecord :=
  Reading.record title fun field =>
    ofFields (field "displayFormula") (field "expression")
      (Reading.required "operands" (Reading.listOf OperandRecord.read) (field "operands"))
      (field "operator") (field "calculationFn")

def toPayload (formula : FormulaRecord) : Payload :=
  .object
    [("displayFormula", .text formula.displayFormula), ("expression", .text formula.expression),
      ("operands", .list (formula.operands.map OperandRecord.toPayload)),
      ("operator", .orNull Named.toPayload formula.operator),
      ("calculationFn", .ofText? formula.calculationFn)]

def schema : Schema FormulaRecord :=
  { title, read, toPayload }

/-- The record of how a value was calculated. -/
def ofFormula (formula : CalculationFormula) : Except Failure FormulaRecord := do
  let operands ← formula.operands.mapM OperandRecord.ofOperand
  Reading.built title <|
    ofFields (some (.text formula.displayFormula)) (some (.text formula.expression))
      (pure operands) (some (.orNull Named.toPayload formula.operator))
      (some (.ofText? formula.calculationFn))

/-- How a value was calculated, according to a record. -/
def toFormula (formula : FormulaRecord) : CalculationFormula :=
  { displayFormula := formula.displayFormula
    expression := formula.expression
    operands := formula.operands.map OperandRecord.toOperand
    operator := formula.operator
    calculationFn := formula.calculationFn }

end FormulaRecord

/-- The record of a step of a calculation. -/
structure StepRecord where
  description : String
  expression : String
  result : Option Decimal
  order : Option Nat
  deriving DecidableEq, Repr

namespace StepRecord

def title : String := "CalculationStepSchema"

/-- The record of four fields. -/
def ofFields (description expression result order : Option Payload) : Reading StepRecord :=
  mk <$> Reading.required "description" Schema.text description
    <*> Reading.required "expression" Schema.text expression
    <*> Reading.optional "result" Schema.decimal result
    <*> Reading.optional "order" Schema.natural order

/-- Reads a step. -/
def read : Reader StepRecord :=
  Reading.record title fun field =>
    ofFields (field "description") (field "expression") (field "result") (field "order")

def toPayload (step : StepRecord) : Payload :=
  .object
    [("description", .text step.description), ("expression", .text step.expression),
      ("result", .ofText? (step.result.map Decimal.toText)), ("order", .ofNat? step.order)]

def schema : Schema StepRecord :=
  { title, read, toPayload }

/-- The record of a step. -/
def ofStep (step : CalculationStep) : Except Failure StepRecord :=
  Reading.built title <|
    ofFields (some (.text step.description)) (some (.text step.expression))
      (some (.ofDecimal? step.result)) (some (.int step.order))

/-- The step of a record. -/
def toStep (step : StepRecord) : CalculationStep :=
  { description := step.description
    expression := step.expression
    result := step.result
    order := step.order.getD 0 }

end StepRecord

/-- The record of a value with its calculation. -/
structure ResultRecord where
  value : Option Decimal
  formula : FormulaRecord
  steps : List StepRecord
  isValid : Bool
  error : Option String
  warning : Option String
  source : SourceRecord
  outputFormat : Option OutputFormat
  currency : Option String
  precision : Option Nat
  footnotes : List Footnote
  deriving DecidableEq, Repr

namespace ResultRecord

def title : String := "CalculationResultSchema"

/-- The record of its fields, of which the parts have been read. -/
def ofFields (value : Option Payload) (formula : Reading FormulaRecord)
    (steps : Reading (List StepRecord)) (isValid error warning : Option Payload)
    (source : Reading SourceRecord) (outputFormat currency precision : Option Payload)
    (footnotes : Reading (List Footnote)) : Reading ResultRecord :=
  mk <$> Reading.optional "value" Schema.decimal value
    <*> formula
    <*> steps
    <*> Reading.required "isValid" Schema.truth isValid
    <*> Reading.optional "error" Schema.text error
    <*> Reading.optional "warning" Schema.text warning
    <*> source
    <*> Reading.optional "outputFormat" (Schema.option OutputFormat) outputFormat
    <*> Reading.optional "currency" Schema.text currency
    <*> Reading.optional "precision" Schema.natural precision
    <*> footnotes

/-- Reads a value with its calculation. -/
def read : Reader ResultRecord :=
  Reading.record title fun field =>
    ofFields (field "value")
      (Reading.required "formula" FormulaRecord.read (field "formula"))
      (Reading.orUsual "steps" (Reading.listOf StepRecord.read) [] (field "steps"))
      (field "isValid") (field "error") (field "warning")
      (Reading.required "source" SourceRecord.read (field "source"))
      (field "outputFormat") (field "currency") (field "precision")
      (Reading.orUsual "footnotes" (Reading.listOf Footnote.read) [] (field "footnotes"))

def toPayload (result : ResultRecord) : Payload :=
  .object
    [("value", .ofText? (result.value.map Decimal.toText)),
      ("formula", result.formula.toPayload),
      ("steps", .list (result.steps.map StepRecord.toPayload)),
      ("isValid", .bool result.isValid), ("error", .ofText? result.error),
      ("warning", .ofText? result.warning), ("source", result.source.toPayload),
      ("outputFormat", .orNull Named.toPayload result.outputFormat),
      ("currency", .ofText? result.currency), ("precision", .ofNat? result.precision),
      ("footnotes", .list (result.footnotes.map Footnote.toPayload))]

def schema : Schema ResultRecord :=
  { title, read, toPayload }

/-- The record of a result. -/
def ofResult (result : CalculationResult) : Except Failure ResultRecord := do
  let formula ← FormulaRecord.ofFormula result.formula
  let steps ← result.steps.mapM StepRecord.ofStep
  let source ← SourceRecord.ofSource result.source
  let footnotes ← result.footnotes.mapM Footnote.recorded
  Reading.built title <|
    ofFields (some (.ofDecimal? result.value)) (pure formula) (pure steps)
      (some (.bool result.isValid)) (some (.ofText? result.error))
      (some (.ofText? result.warning)) (pure source)
      (some (.orNull Named.toPayload result.outputFormat)) (some (.ofText? result.currency))
      (some (.ofNat? result.precision)) (pure footnotes)

/-- The result of a record. -/
def toResult (result : ResultRecord) : Except Failure CalculationResult := do
  let source ← result.source.toSource
  return {
    value := result.value
    formula := result.formula.toFormula
    source
    isValid := result.isValid
    steps := result.steps.map StepRecord.toStep
    error := result.error
    warning := result.warning
    outputFormat := result.outputFormat
    currency := result.currency
    precision := result.precision
    footnotes := result.footnotes }

end ResultRecord

/-- The record of an audit trail. -/
structure TrailRecord where
  modelId : String
  timestamp : Moment
  calculations : List ResultRecord
  results : Dictionary (Option Decimal)
  warnings : List String
  processingTimeMs : Option Binary64
  deriving DecidableEq, Repr

namespace TrailRecord

def title : String := "AuditTrailSchema"

/-- The record of its fields, of which the calculations have been read. -/
def ofFields (modelId timestamp : Option Payload) (calculations : Reading (List ResultRecord))
    (results warnings processingTimeMs : Option Payload) : Reading TrailRecord :=
  mk <$> Reading.required "modelId" Schema.text modelId
    <*> Reading.required "timestamp" Schema.moment timestamp
    <*> calculations
    <*> Reading.required "results" (Reading.dictionaryOf (Reading.orNull Schema.decimal)) results
    <*> Reading.orUsual "warnings" (Reading.listOf Schema.text) [] warnings
    <*> Reading.optional "processingTimeMs" Schema.nonNegativeReal processingTimeMs

/-- Reads an audit trail. -/
def read : Reader TrailRecord :=
  Reading.record title fun field =>
    ofFields (field "modelId") (field "timestamp")
      (Reading.required "calculations" (Reading.listOf ResultRecord.read) (field "calculations"))
      (field "results") (field "warnings") (field "processingTimeMs")

def toPayload (trail : TrailRecord) : Payload :=
  .object
    [("modelId", .text trail.modelId), ("timestamp", .text trail.timestamp.zuluText),
      ("calculations", .list (trail.calculations.map ResultRecord.toPayload)),
      ("results", .object (trail.results.map fun entry =>
        (entry.1, .ofText? (entry.2.map Decimal.toText)))),
      ("warnings", .list (trail.warnings.map .text)),
      ("processingTimeMs", .ofFloat? trail.processingTimeMs)]

def schema : Schema TrailRecord :=
  { title, read, toPayload }

/-- The record of an audit trail. -/
def ofTrail (trail : AuditTrail) : Except Failure TrailRecord := do
  let calculations ← trail.calculations.mapM ResultRecord.ofResult
  Reading.built title <|
    ofFields (some (.text trail.modelId)) (some (.text trail.timestamp)) (pure calculations)
      (some (.object (trail.results.map fun entry => (entry.1, .ofDecimal? entry.2))))
      (some (.list (trail.warnings.map .text))) (some (.ofFloat? trail.processingTimeMs))

/-- The audit trail of a record. -/
def toTrail (trail : TrailRecord) : Except Failure AuditTrail := do
  let calculations ← trail.calculations.mapM ResultRecord.toResult
  return {
    modelId := trail.modelId
    timestamp := trail.timestamp.isoText
    calculations
    results := trail.results
    warnings := trail.warnings
    processingTimeMs := trail.processingTimeMs }

end TrailRecord
end Appraisal
