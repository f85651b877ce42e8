import Appraisal.Evaluation.Run
import Appraisal.Model.Basic
import Appraisal.Notation.Basic

/-!
# Assembling a model

A model is made of a user input in one go: the formulas are evaluated on the raw inputs, entries that
need a look are flagged, a summary is written unless one is given, and the metadata is attached.

Flagged are, in this order: line items that are marked or whose confidence lies below the threshold,
results with an error, and faulty references in the summary.
-/

namespace Appraisal

/-- What can be chosen for one model. -/
structure ModelOptions where
  modelId : Option String
  modelType : Payload
  /-- The summary; one is written when none is given. -/
  summary : Option String
  decisions : List ReasoningDecision
  /-- The confidence below which an entry is flagged, in place of the configured one. -/
  reviewConfidenceThreshold : Option Measure
  sourceFileName : Option String
  sourceFileType : Option String
  agentModel : Option String
  parsingSessionId : Option String

namespace ModelOptions

/-- The options when nothing is chosen. -/
def usual : ModelOptions :=
  { modelId := none
    modelType := .text (Named.name FinancialModelType.directCapitalization)
    summary := none
    decisions := []
    reviewConfidenceThreshold := none
    sourceFileName := none
    sourceFileType := none
    agentModel := none
    parsingSessionId := none }

end ModelOptions

namespace FinancialModel

/-! ## Entries that need a look -/

/-- What should be done about a line item. -/
def verifyAmount : String := "Verify the amount against the source document"

/-- The path of a line item. -/
def itemPath (placed : PlacedItem) : String :=
  "userInput." ++ placed.part ++ "[" ++ toString placed.index ++ "]"

/-- A line item to be looked at, for a reason. -/
def itemFlag (placed : PlacedItem) (reason : String) : FlaggedItem :=
  { field := itemPath placed
    reason
    severity := .warning
    suggestedAction := some verifyAmount
    confidence := placed.item.source.confidence }

/-- The flag of a line item, if it needs a look. -/
def flagLineItem? (threshold : Measure) (placed : PlacedItem) : Option FlaggedItem :=
  let item := placed.item
  if item.flaggedForReview then
    some (itemFlag placed (item.label ++ " marked for review"))
  else
    match item.source.confidence with
    | some confidence =>
        if confidence.lt threshold then
          some (itemFlag placed
            ("Low extraction confidence for " ++ item.label ++ " (" ++
              confidence.toBinary64.twoPlaces ++ ")"))
        else none
    | none => none

/-- The line items that need a look. -/
def flagLineItems (input : UserInput) (threshold : Measure) : List FlaggedItem :=
  input.allItems.filterMap (flagLineItem? threshold)

/-- The flag of a result with an error. -/
def calculationFlag (result : CalculationResult) : FlaggedItem :=
  { field := "calculations." ++ result.formulaId
    reason := result.error.getD ""
    severity := .error
    suggestedAction := some "Review the inputs feeding this calculation"
    confidence := none }

/-- The results with an error. -/
def flagCalculations (trail : AuditTrail) : List FlaggedItem :=
  trail.failed.map calculationFlag

/-- The flag of a faulty reference in a summary. -/
def summaryFlag (error : Notation.NotationError) : FlaggedItem :=
  { field := "briefReasoning.summary"
    reason := error.message
    severity := .warning
    suggestedAction := some "Correct the source notation in the summary"
    confidence := none }

/-- The faulty references in a summary. -/
def flagSummary (summary : String) : List FlaggedItem :=
  (Notation.validate summary).map summaryFlag

/-! ## The summary -/

/-- The results that a summary mentions, each with the template of the sentence about it. -/
def keyFigures : List (String × String) :=
  [("grossPotentialIncome", "Gross potential income is \x7bvalue\x7d."),
    ("effectiveGrossIncome", "After vacancy, effective gross income is \x7bvalue\x7d."),
    ("totalOperatingExpenses", "Total operating expenses are \x7bvalue\x7d."),
    ("netOperatingIncome", "Net operating income is \x7bvalue\x7d."),
    ("propertyValue", "Indicated property value is \x7bvalue\x7d.")]

/-- The sentence about a result, if it was computed.  Filling a gap with a reference does not fail. -/
def figureSentence? (results : Dictionary (Option Decimal)) (figure : String × String) :
    Option String :=
  match (results.get? figure.1).join with
  | some _ =>
      (Notation.fillTemplate figure.2
        [("value", .reference (Notation.calculatedReference figure.1))]).toOption
  | none => none

/-- The formulas that have no result. -/
def uncomputed (results : Dictionary (Option Decimal)) : List String :=
  (results.filter fun entry => entry.2.isNone).map Prod.fst

/-- The sentence about the formulas that have no result, if there are any. -/
def uncomputedSentence (results : Dictionary (Option Decimal)) : List String :=
  match uncomputed results with
  | [] => []
  | names => ["Not computed due to missing inputs: " ++ ", ".intercalate names ++ "."]

/-- The summary of a user input and its evaluation. -/
def writeSummary (input : UserInput) (trail : AuditTrail) : String :=
  " ".intercalate <|
    ["Extracted " ++ toString input.revenueItems.length ++ " revenue items and " ++
        toString input.expenseItems.length ++ " expense items."]
      ++ keyFigures.filterMap (figureSentence? trail.results)
      ++ uncomputedSentence trail.results

/-! ## The model -/

/-- The metadata of a result. -/
def resultMetadata (result : CalculationResult) : TypeMetadata :=
  { type := .ofFormat (result.outputFormat.getD .number)
    currency := result.currency
    precision := result.precision
    unit := none
    displayFormat := none
    footnotes := result.footnotes
    sourceLocation := none
    isOverridden := false
    priorValue := none
    minValue := none
    maxValue := none
    required := false }

/-- The metadata of all results by path. -/
def typeMetadata (trail : AuditTrail) : Dictionary TypeMetadata :=
  .ofPairs <| trail.calculations.map fun result =>
    ("calculations." ++ result.formulaId, resultMetadata result)

/-- The confidence below which an entry is flagged. -/
def thresholdOf (options : ModelOptions) (settings : Settings) : Measure :=
  options.reviewConfidenceThreshold.getD (.real settings.reviewConfidenceThreshold)

/-- What the assembly of a model reads off the clock: what the evaluation reads, the moment when the metadata
is made, and the milliseconds that all of it takes. -/
structure Clock extends Evaluation.Clock where
  created : String
  assembled : Binary64

instance : Coe String Clock := ⟨fun now => { Evaluation.Clock.stopped now with created := now, assembled := .zero }⟩

/-- The metadata of a model that is being made. -/
def metadataOf (clock : Clock) (options : ModelOptions) (settings : Settings) : ModelMetadata :=
  { modelVersion := settings.modelVersion
    createdAt := clock.created
    sourceFileName := options.sourceFileName
    sourceFileType := options.sourceFileType
    processingTimeMs := some clock.assembled
    agentModel := options.agentModel
    updatedAt := none
    parsingSessionId := options.parsingSessionId }

/-- The registry of a model: the given one, or the usual one with the configured vacancy rate. -/
def registryOr (given : Option Registry) (settings : Settings) : Except Failure Registry :=
  match given with
  | some registry => .ok registry
  | none => Failure.ofRegistration (DirectCap.registry settings.defaultVacancyRate)

/-- The model of an identifier. -/
def assembleAs (id : String) (clock : Clock) (title : String) (input : UserInput)
    (given : Option Registry) (options : ModelOptions) (settings : Settings) : Except Failure FinancialModel := do
  let registry ← registryOr given settings
  let modelType ← Formula.optionOf FinancialModelType options.modelType
  let numbers ← Failure.ofDecimal input.rawInputs
  let trail ← Evaluation.evaluate settings clock.toClock id registry fun name => (numbers.get? name).join
  let summary := options.summary.getD (writeSummary input trail)
  return {
    id
    title
    modelType
    briefReasoning := {
      summary
      decisions := options.decisions
      flaggedItems :=
        flagLineItems input (thresholdOf options settings) ++ flagCalculations trail ++
          flagSummary summary
      overallConfidence := input.overallConfidence }
    userInput := input
    calculations := trail
    metadata := metadataOf clock options settings
    types := typeMetadata trail }

/-- The model of a user input. -/
def assemble (clock : Clock) (title : String) (input : UserInput) (given : Option Registry)
    (options : ModelOptions) (settings : Settings) : Build FinancialModel := do
  let id ← Build.idOr options.modelId
  Build.ofExcept (assembleAs id clock title input given options settings)

end FinancialModel
end Appraisal
