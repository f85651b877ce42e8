import Appraisal.Proofs.Evaluation.Solution

/-!
# The records of a run

A run that returns holds one record for each formula, in the order of execution.  The record of a formula
is what the formula evaluates to when the results of the whole run stand for its dependencies; so it can be
described without saying how far the run had come.
-/

namespace Appraisal
namespace Evaluation

variable {settings : Settings} {clock : Clock} {now modelId : String} {formula : Formula} {inputs : Inputs}
  {functions : Dictionary CustomFunction} {result : CalculationResult} {registry : Registry}
  {raw : Inputs} {values : String → Option Decimal} {done after : List Formula}
  {progress next : Progress} {trail : AuditTrail}

/-! ## One record -/

/-- A formula is evaluated when its operands, its footnotes and its expression can be written, the rules
can be checked, and its identifier can be pointed at. -/
theorem evaluateFormula_eq_ok_iff :
    evaluateFormula settings now formula inputs functions = .ok result ↔
      ∃ resolved steps footnotes expression found source,
        formula.resolve inputs = .ok resolved ∧
        operandSteps resolved 0 formula.operands = .ok steps ∧
        defaultFootnotes formula.id inputs 1 formula.operands = .ok footnotes ∧
        describe formula resolved = .ok expression ∧
        verdict formula (formula.compute inputs functions) = .ok found ∧
        SourceReference.forCalculation now (some formula.id) none = .ok source ∧
        result = {
          value := found.value
          formula := {
            displayFormula := formula.name ++ " = " ++ formula.humanReadable
            expression := formula.expression
            operands := formula.operands
            operator := some formula.operation
            calculationFn := formula.function }
          source
          isValid := found.isValid
          steps := steps ++ [{
            description := "Calculate " ++ formula.name
            expression
            result := found.value
            order := steps.length }]
          error := found.error
          warning := found.warning
          outputFormat := some formula.outputFormat
          currency := (placesFor settings formula.outputFormat).1
          precision := (placesFor settings formula.outputFormat).2
          footnotes } := by
  simp only [evaluateFormula, bind_eq_ok, ofDecimal_eq_ok, ofChecked_eq_ok, pure_eq_ok]
  constructor
  · rintro ⟨resolved, hresolved, steps, hsteps, footnotes, hfootnotes, expression, hexpression,
      found, hfound, source, hsource, hresult⟩
    exact ⟨resolved, steps, footnotes, expression, found, source, hresolved, hsteps, hfootnotes,
      hexpression, hfound, hsource, hresult.symm⟩
  · rintro ⟨resolved, steps, footnotes, expression, found, source, hresolved, hsteps, hfootnotes,
      hexpression, hfound, hsource, hresult⟩
    exact ⟨resolved, hresolved, steps, hsteps, footnotes, hfootnotes, expression, hexpression,
      found, hfound, source, hsource, hresult.symm⟩

/-- The source of a result names its formula, which is refused only when the formula has no name. -/
theorem forCalculation_eq_ok_iff {id : String} {source : SourceReference} :
    SourceReference.forCalculation now (some id) none = .ok source ↔
      source = .plain now .calculated (.ofKey? (some id)) ("calculations." ++ id) ∧ id ≠ "" := by
  unfold SourceReference.forCalculation
  rw [SourceReference.check_eq_ok_iff]
  refine and_congr_right fun _ => ?_
  simp [SourceReference.Sound, SourceReference.plain, ReferenceKey.ofKey?, ReferenceKey.isEmpty,
    ReferenceKey.isGiven]

theorem formulaId_of_evaluateFormula
    (h : evaluateFormula settings now formula inputs functions = .ok result) :
    result.formulaId = formula.id := by
  obtain ⟨_, _, _, _, _, source, -, -, -, -, -, hsource, rfl⟩ := evaluateFormula_eq_ok_iff.1 h
  obtain ⟨rfl, -⟩ := forCalculation_eq_ok_iff.1 hsource
  rfl

/-- The step shows the number that was found for the operand. -/
structure Reads (resolved : Resolved) (operand : Operand) (step : CalculationStep) : Prop where
  description : step.description = "Get " ++ operand.label
  result : step.result = Formula.resolvedValue resolved operand
  shown : Evaluation.shown step.result = .ok step.expression

/-- The steps that read operands, one for each, in order and numbered. -/
theorem reads_of_operandSteps {resolved : Resolved} {order : Nat} {operands : List Operand}
    {steps : List CalculationStep} (h : operandSteps resolved order operands = .ok steps) :
    List.Forall₂ (Reads resolved) operands steps ∧
      steps.map CalculationStep.order = List.range' order operands.length := by
  -- Each step takes the next number in the order, so the count is carried along.
  induction operands generalizing order steps with
  | nil =>
      obtain rfl := Except.ok.inj h
      exact ⟨.nil, rfl⟩
  | cons operand rest ih =>
      obtain ⟨first, hfirst, h⟩ := bind_eq_ok.1 h
      obtain ⟨others, hothers, h⟩ := bind_eq_ok.1 h
      obtain ⟨text, htext, hfirst⟩ := bind_eq_ok.1 hfirst
      obtain rfl := pure_eq_ok.1 hfirst
      obtain rfl := pure_eq_ok.1 h
      obtain ⟨hreads, horders⟩ := ih hothers
      rw [List.length_cons, List.range'_succ, List.map_cons, horders]
      exact ⟨.cons ⟨rfl, rfl, htext⟩ hreads, rfl⟩

/-- The steps stand in the order of the operands, numbered on from the first, each with the number found. -/
theorem operandSteps_eq_ok {resolved : Resolved} {order : Nat} {operands : List Operand}
    {steps : List CalculationStep} (h : operandSteps resolved order operands = .ok steps) :
    steps.map CalculationStep.description = operands.map (fun operand => "Get " ++ operand.label) ∧
      steps.map CalculationStep.result = operands.map (Formula.resolvedValue resolved) ∧
      steps.map CalculationStep.order = List.range' order operands.length := by
  obtain ⟨hreads, horders⟩ := reads_of_operandSteps h
  refine ⟨?_, ?_, horders⟩
  all_goals rw [← List.forall₂_eq_eq_eq, List.forall₂_map_left_iff, List.forall₂_map_right_iff]
  · exact hreads.flip.imp fun _ _ hstep => hstep.description
  · exact hreads.flip.imp fun _ _ hstep => hstep.result

/-! ## Results so far -/

/-- The results so far are the values that are assigned to the formulas that have run. -/
def Follows (values : String → Option Decimal) (done : List Formula) (progress : Progress) : Prop :=
  ∀ formula ∈ done, valuesOf progress.results formula.id = values formula.id

/-- In a run that follows a solution, every formula reads what the solution assigns. -/
theorem Follows.overlay_eq (hregistry : registry.Consistent)
    (horder : registry.executionOrder = done ++ formula :: after)
    (h : Follows values done progress) :
    overlay raw progress.results formula.dependencies =
      overlaid raw values formula.dependencies := by
  obtain ⟨-, hdependencies, -⟩ :=
    Registry.dependencies_subset_of_executionOrder hregistry horder
  rw [overlay_eq_overlaid]
  refine overlaid_congr fun dependency hdependency => ?_
  obtain ⟨other, hother, rfl⟩ := List.mem_map.1 (hdependencies hdependency)
  exact h other hother

/-- Storing the assigned value keeps the run in step with the solution. -/
theorem Follows.put (h : Follows values done progress) {value : Option Decimal}
    (hvalue : value = values formula.id) (calculations : List CalculationResult)
    (warnings : List String) :
    Follows values (done ++ [formula])
      { calculations, results := progress.results.put formula.id value, warnings } := by
  intro other hother
  by_cases hid : other.id = formula.id
  · rw [hid, valuesOf_put_self, hvalue]
  · rcases List.mem_append.1 hother with hdone | hlast
    · rw [valuesOf_put_of_ne _ _ hid, h other hdone]
    · exact absurd (congrArg Formula.id (List.mem_singleton.1 hlast)) hid

/-- When the values satisfy the equations, one more formula is evaluated on them, and its result is its
value. -/
theorem Follows.advance (hregistry : registry.Consistent) (hvalues : Solves registry raw values)
    (horder : registry.executionOrder = done ++ formula :: after)
    (h : Follows values done progress)
    (hnext : Evaluation.advance settings clock raw registry.functions progress formula = .ok next) :
    ∃ result, evaluateFormula settings (clock.recorded formula.id) formula
        (overlaid raw values formula.dependencies) registry.functions = .ok result ∧
      next.calculations = progress.calculations ++ [result] ∧
      Follows values (done ++ [formula]) next := by
  obtain ⟨result, hresult, rfl⟩ := advance_eq_ok hnext
  obtain ⟨hmem, -, -⟩ := Registry.dependencies_subset_of_executionOrder hregistry horder
  rw [h.overlay_eq hregistry horder] at hresult
  refine ⟨result, hresult, rfl, h.put ?_ _ _⟩
  rw [value_of_evaluateFormula hresult, hvalues formula hmem]

/-! ## All records -/

/-- The records of some formulas, evaluated on values that are assigned to formulas. -/
def Records (settings : Settings) (clock : Clock) (registry : Registry) (raw : Inputs)
    (values : String → Option Decimal) : List Formula → List CalculationResult → Prop :=
  List.Forall₂ fun formula result =>
    evaluateFormula settings (clock.recorded formula.id) formula
      (overlaid raw values formula.dependencies) registry.functions = .ok result

theorem Records.concat {results : List CalculationResult}
    (h : Records settings clock registry raw values done results)
    (hresult : evaluateFormula settings (clock.recorded formula.id) formula
      (overlaid raw values formula.dependencies) registry.functions = .ok result) :
    Records settings clock registry raw values (done ++ [formula]) (results ++ [result]) :=
  List.rel_append h (.cons hresult .nil)

/-- Every record of a run can be made again from the solution alone, formula by formula. -/
theorem records_of_evaluate (hregistry : registry.Consistent)
    (h : evaluate settings clock modelId registry raw = .ok trail) :
    Records settings clock registry raw (valuesOf trail.results) registry.executionOrder
      trail.calculations := by
  have hvalues := (solved_of_evaluate hregistry h).2
  obtain ⟨progress, hprogress, rfl⟩ := evaluate_eq_ok h
  let values := valuesOf progress.results
  refine (foldlM_invariant (fun done progress => Follows values done progress ∧
    Records settings clock registry raw values done progress.calculations) ?_ ?_ hprogress).2
  · exact ⟨by simp [Follows], .nil⟩
  · rintro done formula after progress next horder ⟨hfollows, hrecords⟩ hnext
    obtain ⟨result, hresult, hcalculations, hnextFollows⟩ :=
      hfollows.advance hregistry hvalues horder hnext
    exact ⟨hnextFollows, hcalculations ▸ hrecords.concat hresult⟩

theorem Records.map_formulaId {formulas : List Formula} {results : List CalculationResult}
    (h : Records settings clock registry raw values formulas results) :
    results.map CalculationResult.formulaId = formulas.map Formula.id := by
  induction h with
  | nil => rfl
  | cons hresult _ ih => simp [formulaId_of_evaluateFormula hresult, ih]

/-- A formula is found by its identifier, with the record that it yields. -/
theorem Records.find? {formulas : List Formula} {results : List CalculationResult}
    (h : Records settings clock registry raw values formulas results)
    (hdistinct : (formulas.map Formula.id).Nodup) (hmem : formula ∈ formulas) :
    ∃ result, (results.find? fun result => result.formulaId == formula.id) = some result ∧
      evaluateFormula settings (clock.recorded formula.id) formula
        (overlaid raw values formula.dependencies) registry.functions = .ok result := by
  induction h with
  | nil => simp at hmem
  | @cons head result formulas results hresult _ ih =>
      rw [List.map_cons, List.nodup_cons] at hdistinct
      have hid := formulaId_of_evaluateFormula hresult
      rcases List.mem_cons.1 hmem with rfl | htail
      · exact ⟨result, by simp [hid], hresult⟩
      · have hne : head.id ≠ formula.id := fun heq =>
          hdistinct.1 (heq ▸ List.mem_map_of_mem htail)
        obtain ⟨found, hfound, hevaluated⟩ := ih hdistinct.2 htail
        exact ⟨found, by simpa [List.find?_cons, hid, hne] using hfound, hevaluated⟩

/-- The trail tells the order in which the formulas were evaluated. -/
theorem executionOrder_of_evaluate (hregistry : registry.Consistent)
    (h : evaluate settings clock modelId registry raw = .ok trail) :
    trail.executionOrder = registry.executionOrder.map Formula.id :=
  (records_of_evaluate hregistry h).map_formulaId

/-- The record that a run holds of a formula. -/
theorem get?_of_evaluate (hregistry : registry.Consistent)
    (h : evaluate settings clock modelId registry raw = .ok trail)
    (hmem : formula ∈ registry.formulas) :
    ∃ result, trail.get? formula.id = some result ∧
      evaluateFormula settings (clock.recorded formula.id) formula
        (overlaid raw (valuesOf trail.results) formula.dependencies) registry.functions =
          .ok result :=
  (records_of_evaluate hregistry h).find?
    ((Registry.isSchedule_executionOrder hregistry).complete.nodup_iff.2 hregistry.distinct)
    ((Registry.executionOrder_perm hregistry).mem_iff.2 hmem)

end Evaluation
end Appraisal
