import Appraisal.Decimal.Arithmetic
import Appraisal.Dictionary
import Appraisal.Formula.Definition
import Appraisal.Payload.Basic

/-!
# Computing a formula

The operands are resolved first: each reads its input, takes its default when there is none, and is
dropped when it must be positive and is not.  An operation needs all operands; a custom function is
called even if some are missing and has to cope.  A result that is not finite counts as missing.
-/

namespace Appraisal

/-- The finite numbers known under a name. -/
abbrev Inputs := String → Option Decimal

/-- Operands with the numbers found for them. -/
abbrev Resolved := Dictionary (Option Decimal)

/-- A function for custom operations. -/
abbrev CustomFunction := Resolved → Except Failure Payload

namespace Operand

/-- The number of an input that must be positive, unless it is not. -/
def ifPositive (required : Bool) (value : Decimal) : Except Decimal.Signal (Option Decimal) :=
  if required then do
    if ← value.le? .zero then return none else return some value
  else .ok (some value)

/-- The number that an operand stands for. -/
def resolve (operand : Operand) (inputs : Inputs) : Except Decimal.Signal (Option Decimal) :=
  match (inputs operand.key).or operand.fallback with
  | some value => ifPositive operand.positive value
  | none => .ok none

/-- The number of an operand times its coefficient. -/
def weighted (operand : Operand) (value : Decimal) : Except Decimal.Signal Decimal :=
  match operand.coefficient with
  | some coefficient => value.mul coefficient
  | none => .ok value

end Operand

namespace Operation

/-- The first number divided by all others in turn; none if one of them is zero. -/
def quotient (value : Decimal) : List Decimal → Except Decimal.Signal (Option Decimal)
  | [] => .ok (some value)
  | denominator :: rest => do
      if ← denominator.isZero? then return none
      else quotient (← value.div denominator) rest

/-- The result of an operation on numbers; none on no numbers and for a custom operation. -/
def apply (operation : Operation) (values : List Decimal) :
    Except Decimal.Signal (Option Decimal) :=
  match operation, values with
  | _, [] => .ok none
  | .add, values | .sum, values => do return some (← Decimal.sum values)
  | .subtract, first :: rest => do return some (← first.sub (← Decimal.sum rest))
  | .multiply, values => do return some (← Decimal.product values)
  | .divide, first :: rest => quotient first rest
  | .custom, _ => .ok none

end Operation

namespace Formula

/-- The numbers of the operands by key. -/
def resolve (formula : Formula) (inputs : Inputs) : Except Decimal.Signal Resolved :=
  formula.operands.foldlM (fun resolved operand => do
    return resolved.put operand.key (← operand.resolve inputs)) []

/-- The number found for an operand. -/
def resolvedValue (resolved : Resolved) (operand : Operand) : Option Decimal :=
  (resolved.get? operand.key).join

/-- The numbers of all operands with their coefficients, if none is missing. -/
def weightedOperands (operands : List Operand) (resolved : Resolved) :
    Except Decimal.Signal (Option (List Decimal)) :=
  match operands.mapM (resolvedValue resolved) with
  | none => .ok none
  | some values => do
      return some (← (operands.zip values).mapM fun pair => pair.1.weighted pair.2)

/-- The result of the operation before scaling. -/
def rawResult (formula : Formula) (resolved : Resolved) (functions : Dictionary CustomFunction) :
    Except Failure (Option Decimal) :=
  if formula.operation = .custom then
    match functions.get? formula.functionName with
    | some function => do return (← function resolved).amount?
    | none => .ok none
  else
    Failure.ofDecimal do
      match ← weightedOperands formula.operands resolved with
      | some values => formula.operation.apply values
      | none => return none

/-- A result times the scale, if it is finite. -/
def scaled (formula : Formula) (result : Decimal) : Except Decimal.Signal (Option Decimal) := do
  match formula.scale with
  | some scale => return Payload.finiteOnly (← result.mul scale)
  | none => return Payload.finiteOnly result

/-- The value of a formula; none when an operand is missing, a denominator is zero or the result is not
finite. -/
def compute (formula : Formula) (inputs : Inputs) (functions : Dictionary CustomFunction) :
    Except Failure (Option Decimal) := do
  let resolved ← Failure.ofDecimal (formula.resolve inputs)
  match ← formula.rawResult resolved functions with
  | some result => Failure.ofDecimal (formula.scaled result)
  | none => return none

/-- The finding of the rules about a result. -/
def validate (formula : Formula) (result : Option Decimal) :
    Except Decimal.Signal ValidationResult :=
  Rule.firstFinding formula.rules result

end Formula
end Appraisal
