import Appraisal.Decimal.Arithmetic
import Appraisal.Decimal.Text
import Appraisal.Failure.Basic
import Appraisal.Payload.Basic

/-!
# Formulas

A formula says which inputs it reads, what is done with them and which rules its result has to pass.
-/

namespace Appraisal

/-!
## Operands

An operand of a formula reads one named input.  It may have a default for a missing input, a coefficient
by which the number is multiplied, and the requirement that the number be positive.
-/

/-- An operand of a formula. -/
structure Operand where
  key : String
  label : String
  /-- The path that is shown to a reader; the key when it is empty. -/
  ref : String
  description : Option String
  coefficient : Option Decimal
  fallback : Option Decimal
  positive : Bool
  deriving DecidableEq, Repr

namespace Operand

/-- The path that is shown to a reader. -/
def path (operand : Operand) : String :=
  if operand.ref = "" then operand.key else operand.ref

/-- The operand as an object; what is absent or usual is left out. -/
def toPayload (operand : Operand) : Payload :=
  .object <|
    [("ref", .text operand.path), ("label", .text operand.label), ("key", .text operand.key)]
      ++ ((operand.description.filter (· ≠ "")).map fun text => ("description", .text text)).toList
      ++ (operand.coefficient.map fun x => ("coefficient", .text x.toText)).toList
      ++ (operand.fallback.map fun x => ("default", .text x.toText)).toList
      ++ if operand.positive then [("positive", .bool true)] else []

end Operand

/-!
## Rules for results

A rule bounds the result of a formula from below, from above or both.  A result outside of the bounds is
flagged with the severity and the message of the rule; a missing result is never flagged.
-/

/-- How serious a finding is. -/
inductive Severity where
  | error
  | warning
  | info
  deriving DecidableEq, Repr

instance : Named Severity where
  title := "Severity"
  all := [.error, .warning, .info]
  name
    | .error => "error"
    | .warning => "warning"
    | .info => "info"

/-- The outcome of checking a result. -/
structure ValidationResult where
  isValid : Bool
  severity : Severity
  message : Option String
  deriving DecidableEq, Repr

namespace ValidationResult

/-- Nothing was found. -/
def valid : ValidationResult :=
  { isValid := true, severity := .info, message := none }

/-- The result is accepted with a warning. -/
def warning (message : String) : ValidationResult :=
  { isValid := true, severity := .warning, message := some message }

/-- The result is not accepted. -/
def error (message : String) : ValidationResult :=
  { isValid := false, severity := .error, message := some message }

end ValidationResult

/-- Bounds for a result. -/
structure Rule where
  severity : Severity
  message : String
  minValue : Option Decimal
  maxValue : Option Decimal
  deriving DecidableEq, Repr

namespace Rule

/-- Whether a number lies below a bound. -/
def below (value : Decimal) : Option Decimal → Except Decimal.Signal Bool
  | some bound => value.lt? bound
  | none => .ok false

/-- Whether a number lies above a bound. -/
def above (value : Decimal) : Option Decimal → Except Decimal.Signal Bool
  | some bound => bound.lt? value
  | none => .ok false

/-- The finding of a rule about a result, if there is one. -/
def check (rule : Rule) : Option Decimal → Except Decimal.Signal (Option ValidationResult)
  | none => .ok none
  | some value => do
      let isBelow ← below value rule.minValue
      let isAbove ← above value rule.maxValue
      if isBelow || isAbove then
        return some
          { isValid := rule.severity ≠ .error
            severity := rule.severity
            message := some rule.message }
      else
        return none

/-- The finding of the first rule that has one. -/
def firstFinding (rules : List Rule) (value : Option Decimal) :
    Except Decimal.Signal ValidationResult :=
  match rules with
  | [] => .ok .valid
  | rule :: rest => do
      match ← rule.check value with
      | some finding => return finding
      | none => firstFinding rest value

/-- The rule as an object. -/
def toPayload (rule : Rule) : Payload :=
  .object
    [("severity", .text (Named.name rule.severity)), ("message", .text rule.message),
      ("min_value", .ofText? (rule.minValue.map Decimal.toText)),
      ("max_value", .ofText? (rule.maxValue.map Decimal.toText))]

end Rule

/-!
## Definitions of formulas

A formula names an operation and the operands that it is applied to, the formulas whose results it uses,
and rules for its result.  A custom operation is a named function that is registered beside the formulas.
A definition holds no code, so it can be written out and compared.
-/

/-- What a formula does with its operands. -/
inductive Operation where
  | add
  /-- Takes all others from the first. -/
  | subtract
  | multiply
  /-- Divides the first by all others. -/
  | divide
  | sum
  | custom
  deriving DecidableEq, Repr

instance : Named Operation where
  title := "Operation"
  all := [.add, .subtract, .multiply, .divide, .sum, .custom]
  name
    | .add => "add"
    | .subtract => "subtract"
    | .multiply => "multiply"
    | .divide => "divide"
    | .sum => "sum"
    | .custom => "custom"

/-- How a result is shown. -/
inductive OutputFormat where
  | currency
  | percentage
  | number
  | ratio
  deriving DecidableEq, Repr

instance : Named OutputFormat where
  title := "OutputFormat"
  all := [.currency, .percentage, .number, .ratio]
  name
    | .currency => "currency"
    | .percentage => "percentage"
    | .number => "number"
    | .ratio => "ratio"

/-- The definition of a named calculation. -/
structure Formula where
  id : String
  name : String
  humanReadable : String
  expression : String
  operation : Operation
  operands : List Operand
  dependencies : List String
  outputFormat : OutputFormat
  function : Option String
  scale : Option Decimal
  rules : List Rule
  category : Option String
  description : Option String
  deriving DecidableEq, Repr

namespace Formula

/-- The name of the function of a custom operation, empty when there is none. -/
def functionName (formula : Formula) : String :=
  formula.function.getD ""

/-- Whether a custom operation names its function. -/
def namesFunction (formula : Formula) : Bool :=
  formula.operation ≠ .custom || formula.functionName ≠ ""

/-- Whether the result is checked by any rule. -/
def hasValidation (formula : Formula) : Bool :=
  !formula.rules.isEmpty

/-- The option that a payload names. -/
def optionOf (α : Type) [Named α] (given : Payload) : Except Failure α :=
  match Named.ofPayload? given with
  | some option => .ok option
  | none => .error (.unknownOption given (Named.title α))

/-- A formula whose operation and output format are given by name. -/
def ofNames (operation outputFormat : Payload) (formula : Operation → OutputFormat → Formula) :
    Except Failure Formula := do
  let operation ← optionOf Operation operation
  let outputFormat ← optionOf OutputFormat outputFormat
  let formula := formula operation outputFormat
  if formula.namesFunction then
    return formula
  else
    throw (.functionNotNamed formula.id)

/-- The formula as an object. -/
def toPayload (formula : Formula) : Payload :=
  .object
    [("id", .text formula.id), ("name", .text formula.name),
      ("humanReadable", .text formula.humanReadable), ("expression", .text formula.expression),
      ("operation", .text (Named.name formula.operation)),
      ("operands", .list (formula.operands.map Operand.toPayload)),
      ("dependencies", .list (formula.dependencies.map .text)),
      ("outputFormat", .text (Named.name formula.outputFormat)),
      ("function", .ofText? formula.function),
      ("scale", .ofText? (formula.scale.map Decimal.toText)),
      ("rules", .list (formula.rules.map Rule.toPayload)),
      ("category", .ofText? formula.category), ("description", .ofText? formula.description)]

end Formula

end Appraisal
