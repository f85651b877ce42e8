import Appraisal.Formula.Definition
import Appraisal.Provenance.Reference

/-!
# Audit trails

An audit trail records one evaluation: for every formula the value with its steps, its source and what
was found about it, in the order of execution, and beside that the values by formula and all warnings.
-/

namespace Appraisal

/-- What a footnote is about. -/
inductive FootnoteCategory where
  | assumption
  | exception
  | clarification
  | warning
  deriving DecidableEq, Repr

instance : Named FootnoteCategory where
  title := "FootnoteCategory"
  all := [.assumption, .exception, .clarification, .warning]
  name
    | .assumption => "assumption"
    | .exception => "exception"
    | .clarification => "clarification"
    | .warning => "warning"

/-- A note attached to a value. -/
structure Footnote where
  id : String
  symbol : String
  text : String
  category : FootnoteCategory
  deriving DecidableEq, Repr

/-- A step of a calculation. -/
structure CalculationStep where
  description : String
  expression : String
  result : Option Decimal
  /-- The place among the steps, counted from zero. -/
  order : Nat
  deriving DecidableEq, Repr

/-- How a value was calculated. -/
structure CalculationFormula where
  displayFormula : String
  expression : String
  operands : List Operand
  operator : Option Operation
  calculationFn : Option String
  deriving DecidableEq, Repr

/-- The value of one formula with its record. -/
structure CalculationResult where
  value : Option Decimal
  formula : CalculationFormula
  source : SourceReference
  isValid : Bool
  steps : List CalculationStep
  error : Option String
  warning : Option String
  outputFormat : Option OutputFormat
  currency : Option String
  precision : Option Nat
  footnotes : List Footnote
  deriving DecidableEq, Repr

namespace CalculationResult

/-- The identifier of the formula. -/
def formulaId (result : CalculationResult) : String :=
  result.source.reference.key.getD ""

/-- Whether the result carries an error. -/
def hasError (result : CalculationResult) : Bool :=
  ReferenceKey.isGiven result.error

end CalculationResult

/-- The record of one evaluation. -/
structure AuditTrail where
  modelId : String
  timestamp : String
  calculations : List CalculationResult
  results : Dictionary (Option Decimal)
  warnings : List String
  processingTimeMs : Option Binary64
  deriving DecidableEq, Repr

namespace AuditTrail

/-- The identifiers of the formulas in the order of execution. -/
def executionOrder (trail : AuditTrail) : List String :=
  trail.calculations.map CalculationResult.formulaId

/-- The result of a formula. -/
def get? (trail : AuditTrail) (formulaId : String) : Option CalculationResult :=
  trail.calculations.find? fun result => result.formulaId == formulaId

/-- The results that carry an error. -/
def failed (trail : AuditTrail) : List CalculationResult :=
  trail.calculations.filter CalculationResult.hasError

end AuditTrail
end Appraisal
