import Appraisal.Model.Basic

/-!
# Flat records

The flat record of a model maps the labels of its line items to amounts, list by list.  When several items
of a list have one label, the last one wins with its amount and its source.
-/

namespace Appraisal

/-- The flat record of a model. -/
structure FlatRecord where
  timeStamp : String
  agentReasoning : String
  revenue : Dictionary Decimal
  expenses : Dictionary Decimal
  adjustments : Dictionary Decimal
  sources : Dictionary (Dictionary SourceReference)
  deriving DecidableEq, Repr

namespace FlatRecord

/-- The amounts of some line items by label. -/
def amounts (items : List LineItem) : Dictionary Decimal :=
  .ofPairs (items.map fun item => (item.label, item.amount))

/-- The sources of some line items by label. -/
def sourcesOf (items : List LineItem) : Dictionary SourceReference :=
  .ofPairs (items.map fun item => (item.label, item.source))

/-- The flat record of a model. -/
def ofModel (model : FinancialModel) : FlatRecord :=
  let input := model.userInput
  { timeStamp := model.metadata.createdAt
    agentReasoning := model.briefReasoning.summary
    revenue := amounts input.revenueItems
    expenses := amounts input.expenseItems
    adjustments := amounts input.adjustmentItems
    sources :=
      [("revenue", sourcesOf input.revenueItems), ("expenses", sourcesOf input.expenseItems),
        ("adjustments", sourcesOf input.adjustmentItems)] }

/-- The results that are handed on, in the order in which they are shown. -/
def resultIds : List String :=
  ["grossPotentialIncome", "vacancyAllowance", "effectiveGrossIncome", "totalOperatingExpenses",
    "expenseRatio", "expensePerSqFt", "netOperatingIncome", "noiMargin", "noiPerSqFt",
    "propertyValue", "pricePerSqFt", "grossRentMultiplier", "impliedCapRate"]

/-- The results of a model that are handed on; none where there is no result. -/
def results (model : FinancialModel) : Dictionary (Option Decimal) :=
  resultIds.map fun id => (id, (model.calculations.results.get? id).join)

end FlatRecord
end Appraisal
