import Appraisal.Configuration
import Appraisal.Evaluation.AuditTrail
import Appraisal.Formula.Registrar

/-!
# Evaluating a registry

The formulas run in the order of execution.  Each reads the raw inputs, except that the name of a declared
dependency always stands for the result of that dependency, missing or not.  What goes wrong while a value
is computed becomes an error of that value; numbers that have no text, or that cannot be compared with a
bound, end the run.
-/

namespace Appraisal
namespace Evaluation

/-- What is said of a value that could not be computed. -/
def uncomputable : String := "cannot be computed (missing or invalid inputs)"

/-- The text of a number in the trail. -/
def shown : Option Decimal → Except Decimal.Signal String
  | some value => value.shown
  | none => .ok "null"

/-! ## The steps of a calculation -/

/-- The step that reads an operand. -/
def operandStep (resolved : Resolved) (order : Nat) (operand : Operand) :
    Except Decimal.Signal CalculationStep := do
  let value := Formula.resolvedValue resolved operand
  return {
    description := "Get " ++ operand.label
    expression := ← shown value
    result := value
    order }

/-- The steps that read the operands, numbered from a place on. -/
def operandSteps (resolved : Resolved) (order : Nat) :
    List Operand → Except Decimal.Signal (List CalculationStep)
  | [] => .ok []
  | operand :: rest => do
      let step ← operandStep resolved order operand
      return step :: (← operandSteps resolved (order + 1) rest)

/-- An operand as it stands in the calculation: its number, times its coefficient. -/
def operandText (resolved : Resolved) (operand : Operand) : Except Decimal.Signal String := do
  let number ← shown (Formula.resolvedValue resolved operand)
  match operand.coefficient with
  | some coefficient => return number ++ " * " ++ (← coefficient.shown)
  | none => return number

/-- The sign between the operands of an operation. -/
def operationSign : Operation → String
  | .add | .sum => " + "
  | .subtract => " - "
  | .multiply => " * "
  | .divide => " / "
  | .custom => ", "

/-- The calculation with numbers in it. -/
def describe (formula : Formula) (resolved : Resolved) : Except Decimal.Signal String := do
  let texts ← formula.operands.mapM (operandText resolved)
  let joined := (operationSign formula.operation).intercalate texts
  let expression :=
    if formula.operation = .custom then formula.functionName ++ "(" ++ joined ++ ")" else joined
  match formula.scale with
  | some scale => return "(" ++ expression ++ ") * " ++ (← scale.shown)
  | none => return expression

/-- The footnotes for operands whose default stands in for a missing input, numbered from a place on. -/
def defaultFootnotes (formulaId : String) (inputs : Inputs) (symbol : Nat) :
    List Operand → Except Decimal.Signal (List Footnote)
  | [] => .ok []
  | operand :: rest =>
      match operand.fallback, inputs operand.key with
      | some fallback, none => do
          let footnote : Footnote :=
            { id := formulaId ++ "-" ++ operand.key ++ "-default"
              symbol := toString symbol
              text :=
                operand.label ++ " not provided; default of " ++ (← fallback.shown) ++ " applied"
              category := .assumption }
          return footnote :: (← defaultFootnotes formulaId inputs (symbol + 1) rest)
      | _, _ => defaultFootnotes formulaId inputs symbol rest

/-- The currency and the number of places of a result. -/
def placesFor (settings : Settings) : OutputFormat → Option String × Option Nat
  | .currency => (some settings.defaultCurrency, some settings.currencyPrecision)
  | .percentage => (none, some settings.percentagePrecision)
  | .number | .ratio => (none, none)

/-! ## One formula -/

/-- A value with the error or the warning that goes with it. -/
structure Verdict where
  value : Option Decimal
  isValid : Bool
  error : Option String
  warning : Option String
  deriving DecidableEq, Repr

/-- The verdict on a computed value, by the finding of the rules. -/
def verdictOf (value : Option Decimal) (finding : ValidationResult) : Verdict :=
  match finding.severity with
  | .error =>
      { value
        isValid := false
        error := finding.message
        warning := if value.isNone && finding.message.isNone then some uncomputable else none }
  | .warning =>
      { value
        isValid := true
        error := none
        warning := finding.message.or (if value.isNone then some uncomputable else none) }
  | .info =>
      { value, isValid := true, error := none
        warning := if value.isNone then some uncomputable else none }

/-- The verdict on a formula. -/
def verdict (formula : Formula) (computed : Except Failure (Option Decimal)) :
    Except Decimal.Signal Verdict :=
  match computed with
  | .error failure =>
      .ok { value := none, isValid := false
            error := some ("Computation failed: " ++ failure.message), warning := none }
  | .ok value => do
      return verdictOf value (← formula.validate value)

/-- The value of one formula with its record. -/
def evaluateFormula (settings : Settings) (now : String) (formula : Formula) (inputs : Inputs)
    (functions : Dictionary CustomFunction) : Except Failure CalculationResult := do
  let resolved ← Failure.ofDecimal (formula.resolve inputs)
  let steps ← Failure.ofDecimal (operandSteps resolved 0 formula.operands)
  let footnotes ← Failure.ofDecimal (defaultFootnotes formula.id inputs 1 formula.operands)
  let computed := formula.compute inputs functions
  let expression ← Failure.ofDecimal (describe formula resolved)
  let verdict ← Failure.ofDecimal (verdict formula computed)
  let source ← SourceReference.ofChecked (SourceReference.forCalculation now (some formula.id) none)
  let (currency, precision) := placesFor settings formula.outputFormat
  return {
    value := verdict.value
    formula := {
      displayFormula := formula.name ++ " = " ++ formula.humanReadable
      expression := formula.expression
      operands := formula.operands
      operator := some formula.operation
      calculationFn := formula.function }
    source
    isValid := verdict.isValid
    steps := steps ++ [{
      description := "Calculate " ++ formula.name
      expression
      result := verdict.value
      order := steps.length }]
    error := verdict.error
    warning := verdict.warning
    outputFormat := some formula.outputFormat
    currency
    precision
    footnotes }

/-! ## All formulas -/

/-- What a run reads off the clock: the moment when it begins, the moments when formulas are recorded, by their
identifiers, and the milliseconds that all of it takes. -/
structure Clock where
  begun : String
  recorded : String → String
  elapsed : Binary64

/-- A clock that stands still. -/
def Clock.stopped (now : String) : Clock :=
  { begun := now, recorded := fun _ => now, elapsed := .zero }

instance : Coe String Clock := ⟨Clock.stopped⟩

/-- The results so far. -/
structure Progress where
  calculations : List CalculationResult
  results : Dictionary (Option Decimal)
  warnings : List String

/-- The inputs of a formula: its dependencies stand for their results, all else for raw inputs. -/
def overlay (raw : Inputs) (results : Dictionary (Option Decimal)) (dependencies : List String) :
    Inputs := fun name =>
  if name ∈ dependencies then (results.get? name).join else raw name

/-- What a result adds to the warnings. -/
def warningLine (formula : Formula) (result : CalculationResult) : List String :=
  if ReferenceKey.isGiven result.error then [formula.name ++ ": " ++ result.error.getD ""]
  else if ReferenceKey.isGiven result.warning then [formula.name ++ ": " ++ result.warning.getD ""]
  else []

/-- Evaluates one more formula.  The value must have a text, because it is written to the log. -/
def advance (settings : Settings) (clock : Clock) (raw : Inputs)
    (functions : Dictionary CustomFunction) (progress : Progress) (formula : Formula) :
    Except Failure Progress := do
  let inputs := overlay raw progress.results formula.dependencies
  let result ← evaluateFormula settings (clock.recorded formula.id) formula inputs functions
  let _ ← Failure.ofDecimal (shown result.value)
  return {
    calculations := progress.calculations ++ [result]
    results := progress.results.put formula.id result.value
    warnings := progress.warnings ++ warningLine formula result }

/-- Evaluates all formulas of a registry on raw inputs. -/
def evaluate (settings : Settings) (clock : Clock) (modelId : String) (registry : Registry)
    (raw : Inputs) : Except Failure AuditTrail := do
  let progress ← registry.executionOrder.foldlM (advance settings clock raw registry.functions)
    { calculations := [], results := [], warnings := [] }
  return {
    modelId
    timestamp := clock.begun
    calculations := progress.calculations
    results := progress.results
    warnings := progress.warnings
    processingTimeMs := some clock.elapsed }

/-- The raw inputs that a dictionary of payloads stands for. -/
def rawInputs (entries : Dictionary Payload) : Inputs := fun name =>
  (entries.get? name).bind Payload.amount?

end Evaluation
end Appraisal
