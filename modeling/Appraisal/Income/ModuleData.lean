import Appraisal.Configuration
import Appraisal.Income.Stream
import Appraisal.Model.Basic

/-!
# Data for the income module

The income module takes all revenue of a model as one stream after vacancy, the expenses as rows, and
what is known for the valuation.
-/

namespace Appraisal
namespace Income

/-- How an expense is given. -/
inductive ExpenseMethod where
  | direct
  | percentage
  | perMetric
  deriving DecidableEq, Repr

instance : Named ExpenseMethod where
  title := "ExpenseMethod"
  all := [.direct, .percentage, .perMetric]
  name
    | .direct => "direct"
    | .percentage => "percentage"
    | .perMetric => "perMetric"

/-- What a valuation starts from. -/
inductive ValuationMethod where
  | capRate
  | askingPrice
  deriving DecidableEq, Repr

instance : Named ValuationMethod where
  title := "ValuationMethod"
  all := [.capRate, .askingPrice]
  name
    | .capRate => "capRate"
    | .askingPrice => "askingPrice"

/-- A row of expenses. -/
structure ExpenseRow where
  id : String
  name : String
  amount : Option Decimal
  calculationMethod : ExpenseMethod
  lastModifiedMethod : ExpenseMethod
  dataSource : Option String
  deriving DecidableEq, Repr

/-- What is known for the valuation. -/
structure ValuationData where
  capRate : Option Decimal
  askingPrice : Option Decimal
  calculationMethod : ValuationMethod
  deriving DecidableEq, Repr

/-- The data that the income module takes. -/
structure ModuleData where
  revenueStreams : List RevenueStream
  expenseRows : List ExpenseRow
  valuationData : Option ValuationData
  deriving DecidableEq, Repr

namespace ModuleData

/-- The identifier of the stream of all revenue. -/
def importedStreamId : String := "imported-stream"

/-- Where a value comes from, in words. -/
def sourceWords : SourceType → String
  | .parsedDocument => "Imported from document"
  | _ => "User input"

/-- The row of an expense. -/
def expenseRow (item : LineItem) : ExpenseRow :=
  { id := item.id
    name := item.label
    amount := some item.amount
    calculationMethod := .direct
    lastModifiedMethod := .direct
    dataSource := some (sourceWords item.source.sourceType) }

/-- The number of a valuation input. -/
def valuationNumber (input : UserInput) (pick : ValuationInputs → Option SourcedValue) :
    Option Decimal :=
  (input.valuationInputs.bind pick).bind SourcedValue.number

/-- The vacancy rate of a model in percent. -/
def vacancyPercent (input : UserInput) : Except Decimal.Signal Payload :=
  match valuationNumber input ValuationInputs.vacancyRate with
  | some rate => do return .decimal (← rate.mul hundred)
  | none => .ok .null

/-- What is known for the valuation, if anything is. -/
def valuationDataOf (input : UserInput) : Option ValuationData :=
  let capRate := valuationNumber input ValuationInputs.capRate
  let askingPrice := valuationNumber input ValuationInputs.askingPrice
  match capRate, askingPrice with
  | none, none => none
  | some _, _ => some { capRate, askingPrice, calculationMethod := .capRate }
  | none, some _ => some { capRate, askingPrice, calculationMethod := .askingPrice }

/-- The data of a model, with a name and a kind for the stream of all revenue and a vacancy rate in
percent for a model without one. -/
def ofModel (model : FinancialModel) (streamName : String) (category defaultVacancyRate : Payload) :
    Except Failure ModuleData := do
  let input := model.userInput
  let unnamed ← Failure.ofDecimal
    (streamOf importedStreamId streamName .miscellaneous input.revenueItems)
  let category ← Formula.optionOf StreamCategory category
  let vacancyRate ← Failure.ofDecimal (vacancyPercent input)
  let stream ← { unnamed with category }.withVacancy vacancyRate defaultVacancyRate
  return {
    revenueStreams := [stream]
    expenseRows := input.expenseItems.map expenseRow
    valuationData := valuationDataOf input }

/-- The data of a model under the configured name and vacancy rate. -/
def ofModelWith (model : FinancialModel) (settings : Settings) : Except Failure ModuleData :=
  ofModel model settings.defaultStreamName (.text (Named.name StreamCategory.miscellaneous))
    (.decimal settings.defaultVacancyRatePercent)

end ModuleData
end Income
end Appraisal
