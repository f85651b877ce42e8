import Appraisal.Formula.Registrar

/-!
# Direct capitalization

The value of a property is its net operating income divided by a market rate of capitalization.  The
formulas lead from revenue and expense items over the effective gross income to the net operating income,
the property value and the usual ratios.
-/

namespace Appraisal
namespace DirectCap

/-- The share of income that is taken as lost to vacancy when nothing else is known. -/
def defaultVacancyRate : Decimal := .finite false 5 (-2)

/-- The factor from a share to a percentage. -/
def hundred : Decimal := .ofInt 100

/-- The name of the function for the implied capitalization rate. -/
def impliedCapRateName : String := "implied_cap_rate"

/-- Net operating income divided by the asking price, if both are known and the price is positive. -/
def impliedCapRate : CustomFunction := fun values =>
  match (values.get? "netOperatingIncome").join, (values.get? "askingPrice").join with
  | some income, some price =>
      Failure.ofDecimal do
        if ← price.le? .zero then return .null else return .decimal (← income.div price)
  | _, _ => .ok .null

/-- An operand that reads an entry of the user. -/
def entry (key label ref : String) (description : Option String) (fallback : Option Decimal)
    (positive : Bool) : Operand :=
  { key, label, ref, description, coefficient := none, fallback, positive }

/-- An operand that reads the result of another formula. -/
def result (key label : String) (fallback : Option Decimal) (positive : Bool) : Operand :=
  entry key label ("calculations." ++ key) none fallback positive

/-- The operand for the square footage. -/
def squareFootage : Operand :=
  entry "squareFootage" "Square Footage" "userInput.propertyInfo.squareFootage" none none true

/-- A bound for a result. -/
def bound (severity : Severity) (message : String) (minValue maxValue : Option Decimal) : Rule :=
  { severity, message, minValue, maxValue }

/-- The sum of all revenue items. -/
def grossPotentialIncome : Formula :=
  { id := "grossPotentialIncome"
    name := "Gross Potential Income"
    humanReadable := "Sum of all Revenue Items"
    expression := "SUM(userInput.revenueItems.amount)"
    operation := .sum
    operands :=
      [entry "totalRevenue" "Revenue Items" "userInput.revenueItems"
        (some "All revenue line items from rent roll and other income") none false]
    dependencies := []
    outputFormat := .currency
    function := none
    scale := none
    rules := []
    category := some "revenue"
    description := some "Total potential income if property was 100% occupied at market rates" }

/-- The income that is lost to vacancy. -/
def vacancyAllowance (vacancyRate : Decimal) : Formula :=
  { id := "vacancyAllowance"
    name := "Vacancy Allowance"
    humanReadable := "Gross Potential Income × Vacancy Rate"
    expression := "grossPotentialIncome * vacancyRate"
    operation := .multiply
    operands :=
      [result "grossPotentialIncome" "Gross Potential Income" none false,
        entry "vacancyRate" "Vacancy Rate" "userInput.valuationInputs.vacancyRate"
          (some "Expected vacancy as decimal (e.g., 0.05 for 5%)") (some vacancyRate) false]
    dependencies := ["grossPotentialIncome"]
    outputFormat := .currency
    function := none
    scale := none
    rules := []
    category := some "revenue"
    description := some "Estimated income loss due to vacancy and credit loss" }

/-- The income that is left after vacancy. -/
def effectiveGrossIncome : Formula :=
  { id := "effectiveGrossIncome"
    name := "Effective Gross Income"
    humanReadable := "Gross Potential Income - Vacancy Allowance"
    expression := "grossPotentialIncome - vacancyAllowance"
    operation := .subtract
    operands :=
      [result "grossPotentialIncome" "GPI" none false,
        result "vacancyAllowance" "Vacancy Allowance" (some .zero) false]
    dependencies := ["grossPotentialIncome", "vacancyAllowance"]
    outputFormat := .currency
    function := none
    scale := none
    rules := []
    category := some "revenue"
    description := some "Actual expected income after accounting for vacancy" }

/-- The sum of all expense items. -/
def totalOperatingExpenses : Formula :=
  { id := "totalOperatingExpenses"
    name := "Total Operating Expenses"
    humanReadable := "Sum of all Expense Items"
    expression := "SUM(userInput.expenseItems.amount)"
    operation := .sum
    operands :=
      [entry "totalExpenses" "Expense Items" "userInput.expenseItems"
        (some "All operating expense line items") none false]
    dependencies := []
    outputFormat := .currency
    function := none
    scale := none
    rules := []
    category := some "expenses"
    description := some "Total annual operating expenses for the property" }

/-- Expenses as a percentage of the effective gross income. -/
def expenseRatio : Formula :=
  { id := "expenseRatio"
    name := "Expense Ratio"
    humanReadable := "Total Operating Expenses / Effective Gross Income × 100"
    expression := "(totalOperatingExpenses / effectiveGrossIncome) * 100"
    operation := .divide
    operands :=
      [result "totalOperatingExpenses" "Total Expenses" none false,
        result "effectiveGrossIncome" "EGI" none true]
    dependencies := ["totalOperatingExpenses", "effectiveGrossIncome"]
    outputFormat := .percentage
    function := none
    scale := some hundred
    rules :=
      [bound .error "Expense ratio over 100% - expenses exceed income" none (some hundred),
        bound .warning "Expense ratio above 70% may indicate inefficient operations" none
          (some (.ofInt 70))]
    category := some "expenses"
    description := some "Operating expenses as a percentage of effective gross income" }

/-- The income that is left after expenses. -/
def netOperatingIncome : Formula :=
  { id := "netOperatingIncome"
    name := "Net Operating Income"
    humanReadable := "Effective Gross Income - Total Operating Expenses"
    expression := "effectiveGrossIncome - totalOperatingExpenses"
    operation := .subtract
    operands :=
      [result "effectiveGrossIncome" "Effective Gross Income" none false,
        result "totalOperatingExpenses" "Total Operating Expenses" (some .zero) false]
    dependencies := ["effectiveGrossIncome", "totalOperatingExpenses"]
    outputFormat := .currency
    function := none
    scale := none
    rules := [bound .warning "NOI is negative - expenses exceed income" (some .zero) none]
    category := some "income"
    description :=
      some "Income remaining after operating expenses, before debt service and income taxes" }

/-- Net operating income as a percentage of the effective gross income. -/
def noiMargin : Formula :=
  { id := "noiMargin"
    name := "NOI Margin"
    humanReadable := "Net Operating Income / Effective Gross Income × 100"
    expression := "(netOperatingIncome / effectiveGrossIncome) * 100"
    operation := .divide
    operands :=
      [result "netOperatingIncome" "NOI" none false,
        result "effectiveGrossIncome" "EGI" none true]
    dependencies := ["netOperatingIncome", "effectiveGrossIncome"]
    outputFormat := .percentage
    function := none
    scale := some hundred
    rules := []
    category := some "income"
    description := some "NOI as a percentage of effective gross income" }

/-- Expenses per square foot. -/
def expensePerSqFt : Formula :=
  { id := "expensePerSqFt"
    name := "Expenses per Square Foot"
    humanReadable := "Total Operating Expenses / Total Square Feet"
    expression := "totalOperatingExpenses / squareFootage"
    operation := .divide
    operands :=
      [result "totalOperatingExpenses" "Total Operating Expenses" none false, squareFootage]
    dependencies := ["totalOperatingExpenses"]
    outputFormat := .currency
    function := none
    scale := none
    rules := []
    category := some "expenses"
    description := some "Operating expenses per square foot" }

/-- Net operating income per square foot. -/
def noiPerSqFt : Formula :=
  { id := "noiPerSqFt"
    name := "NOI per Square Foot"
    humanReadable := "Net Operating Income / Total Square Feet"
    expression := "netOperatingIncome / squareFootage"
    operation := .divide
    operands := [result "netOperatingIncome" "Net Operating Income" none false, squareFootage]
    dependencies := ["netOperatingIncome"]
    outputFormat := .currency
    function := none
    scale := none
    rules := []
    category := some "income"
    description := some "Net operating income per square foot" }

/-- The value that the income indicates at the market rate. -/
def propertyValue : Formula :=
  { id := "propertyValue"
    name := "Property Value"
    humanReadable := "Net Operating Income / Cap Rate"
    expression := "netOperatingIncome / capRate"
    operation := .divide
    operands :=
      [result "netOperatingIncome" "Net Operating Income" none false,
        entry "capRate" "Capitalization Rate" "userInput.valuationInputs.capRate"
          (some "Market cap rate as decimal (e.g., 0.065 for 6.5%)") none true]
    dependencies := ["netOperatingIncome"]
    outputFormat := .currency
    function := none
    scale := none
    rules := [bound .error "Property value cannot be negative" (some .zero) none]
    category := some "valuation"
    description := some "Indicated property value using income capitalization approach" }

/-- The property value per square foot. -/
def pricePerSqFt : Formula :=
  { id := "pricePerSqFt"
    name := "Price per Square Foot"
    humanReadable := "Property Value / Total Square Feet"
    expression := "propertyValue / squareFootage"
    operation := .divide
    operands := [result "propertyValue" "Property Value" none false, squareFootage]
    dependencies := ["propertyValue"]
    outputFormat := .currency
    function := none
    scale := none
    rules := []
    category := some "valuation"
    description := some "Property value per square foot" }

/-- The property value as a multiple of the gross potential income. -/
def grossRentMultiplier : Formula :=
  { id := "grossRentMultiplier"
    name := "Gross Rent Multiplier"
    humanReadable := "Property Value / Gross Potential Income"
    expression := "propertyValue / grossPotentialIncome"
    operation := .divide
    operands :=
      [result "propertyValue" "Property Value" none false,
        result "grossPotentialIncome" "Gross Potential Income" none true]
    dependencies := ["propertyValue", "grossPotentialIncome"]
    outputFormat := .ratio
    function := none
    scale := none
    rules := [bound .warning "GRM outside typical range of 1-30x" (some .one) (some (.ofInt 30))]
    category := some "valuation"
    description := some "Ratio of property value to gross income (quick valuation metric)" }

/-- The rate of capitalization that the asking price implies. -/
def impliedCapRateFormula : Formula :=
  { id := "impliedCapRate"
    name := "Implied Cap Rate"
    humanReadable := "Net Operating Income / Asking Price"
    expression := "implied_cap_rate(netOperatingIncome, askingPrice)"
    operation := .custom
    operands :=
      [result "netOperatingIncome" "Net Operating Income" none false,
        entry "askingPrice" "Asking Price" "userInput.valuationInputs.askingPrice" none none false]
    dependencies := ["netOperatingIncome"]
    outputFormat := .ratio
    function := some impliedCapRateName
    scale := none
    rules := [bound .warning "Implied cap rate outside 0-100%" (some .zero) (some .one)]
    category := some "valuation"
    description := some "Cap rate implied by the asking price" }

/-- The formulas of direct capitalization, in the order of their registration. -/
def formulas (vacancyRate : Decimal) : List Formula :=
  [grossPotentialIncome, vacancyAllowance vacancyRate, effectiveGrossIncome, totalOperatingExpenses,
    expenseRatio, netOperatingIncome, noiMargin, expensePerSqFt, noiPerSqFt, propertyValue,
    pricePerSqFt, grossRentMultiplier, impliedCapRateFormula]

/-- The registry of the formulas of direct capitalization. -/
def registry (vacancyRate : Decimal) : Except RegistrationError Registry := do
  let registry ← Registry.empty.registerFunction impliedCapRateName impliedCapRate
  registry.register (formulas vacancyRate)

/-- The formula of an identifier. -/
def formula (id : String) : Except Failure Formula :=
  match Formula.find? (formulas defaultVacancyRate) id with
  | some formula => .ok formula
  | none => .error (.formulaNotFound id)

end DirectCap
end Appraisal
