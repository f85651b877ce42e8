import Appraisal.Proofs.Evaluation.Completion

/-!
# How the parts of a trail agree

A trail holds the same things more than once: values in the records and by formula, errors and warnings in
the records and in a list of their own, numbers in the steps and in the value.  Whatever fails on the way,
the parts of a record agree with each other, and the lists of the trail agree with its records.
-/

namespace Appraisal

/-! ## Findings -/

namespace Rule

/-- What the rule finds about a number outside of its bounds. -/
def finding (rule : Rule) : ValidationResult :=
  { isValid := rule.severity ≠ .error, severity := rule.severity, message := some rule.message }

theorem finding_of_check {rule : Rule} {value : Option Decimal} {found : ValidationResult}
    (h : rule.check value = .ok (some found)) : found = rule.finding := by
  cases value with
  | none => cases h
  | some number =>
      obtain ⟨isBelow, -, h⟩ := bind_eq_ok.1 h
      obtain ⟨isAbove, -, h⟩ := bind_eq_ok.1 h
      split at h
      · exact (Option.some.inj (pure_eq_ok.1 h)).symm
      · cases h

/-- What is found is the finding of a rule, unless nothing was found. -/
theorem finding_of_firstFinding {rules : List Rule} {value : Option Decimal}
    {found : ValidationResult} (h : firstFinding rules value = .ok found) :
    found = .valid ∨ ∃ rule ∈ rules, found = rule.finding := by
  induction rules with
  | nil => exact .inl (Except.ok.inj h).symm
  | cons rule rest ih =>
      obtain ⟨answer, hanswer, h⟩ := bind_eq_ok.1 h
      cases answer with
      | none =>
          refine (ih h).imp_right ?_
          rintro ⟨other, hmem, hfinding⟩
          exact ⟨other, List.mem_cons_of_mem rule hmem, hfinding⟩
      | some first =>
          obtain rfl := pure_eq_ok.1 h
          exact .inr ⟨rule, List.mem_cons_self, finding_of_check hanswer⟩

/-- A finding has the message of a rule, unless nothing was found. -/
theorem message_of_firstFinding {rules : List Rule} {value : Option Decimal}
    {finding : ValidationResult} (h : firstFinding rules value = .ok finding) :
    finding = .valid ∨ ∃ rule ∈ rules, finding.message = some rule.message := by
  refine (finding_of_firstFinding h).imp_right ?_
  rintro ⟨rule, hmem, rfl⟩
  exact ⟨rule, hmem, rfl⟩

end Rule

namespace Evaluation

variable {settings : Settings} {clock : Clock} {now modelId : String} {formula : Formula} {inputs raw : Inputs}
  {functions : Dictionary CustomFunction} {result : CalculationResult} {registry : Registry}
  {done after : List Formula} {progress next : Progress} {trail : AuditTrail}

/-! ## Verdicts -/

/-- The value, the flag, the error and the warning of a verdict agree. -/
structure Verdict.Coherent (found : Verdict) : Prop where
  flagged : found.isValid = false ↔ found.error.isSome = true
  exclusive : found.error = none ∨ found.warning = none
  explained : found.value = none → found.error.isSome = true ∨ found.warning.isSome = true

/-- Error and warning are taken from one finding, and a value that is missing without a finding gets the
standard warning. -/
theorem coherent_verdictOf (value : Option Decimal) {rules : List Rule} {finding : ValidationResult}
    (h : finding = .valid ∨ ∃ rule ∈ rules, finding.message = some rule.message) :
    (verdictOf value finding).Coherent := by
  rcases h with rfl | ⟨rule, -, hmessage⟩
  · constructor <;> cases value <;> simp [verdictOf, ValidationResult.valid]
  · cases hseverity : finding.severity <;> constructor <;> cases value <;>
      simp [verdictOf, hseverity, hmessage]

/-- A failed computation has an error and no value, so it is explained as well. -/
theorem coherent_verdict {computed : Except Failure (Option Decimal)} {found : Verdict}
    (h : verdict formula computed = .ok found) : found.Coherent := by
  cases computed with
  | error failure =>
      obtain rfl := Except.ok.inj h
      constructor <;> simp
  | ok value =>
      obtain ⟨finding, hfinding, h⟩ := bind_eq_ok.1 h
      obtain rfl := pure_eq_ok.1 h
      exact coherent_verdictOf value (Rule.message_of_firstFinding hfinding)

/-! ## Footnotes -/

/-- Whether the default of an operand stands in for a missing number. -/
def isDefaulted (inputs : Inputs) (operand : Operand) : Bool :=
  operand.fallback.isSome && (inputs operand.key).isNone

/-- The footnote of a number says that the default of an operand has been applied. -/
structure NotesDefault (formulaId : String) (operand : Operand) (number : Nat)
    (footnote : Footnote) : Prop where
  id : footnote.id = formulaId ++ "-" ++ operand.key ++ "-default"
  symbol : footnote.symbol = toString number
  text : ∃ fallback text, operand.fallback = some fallback ∧ fallback.shown = .ok text ∧
    footnote.text = operand.label ++ " not provided; default of " ++ text ++ " applied"
  category : footnote.category = .assumption

/-- The footnotes are those of the operands whose defaults are applied, in order and numbered. -/
theorem defaultFootnotes_eq_ok {formulaId : String} {number : Nat} {operands : List Operand}
    {footnotes : List Footnote}
    (h : defaultFootnotes formulaId inputs number operands = .ok footnotes) :
    List.Forall₂ (fun entry footnote => NotesDefault formulaId entry.1 entry.2 footnote)
      ((operands.filter (isDefaulted inputs)).zipIdx number) footnotes := by
  induction operands generalizing number footnotes with
  | nil =>
      obtain rfl := Except.ok.inj h
      exact .nil
  | cons operand rest ih =>
      unfold defaultFootnotes at h
      split at h
      -- A default is applied, so this operand is the next one to be marked.
      · next fallback hfallback hinput =>
          have hdefaulted : isDefaulted inputs operand = true := by
            simp [isDefaulted, hfallback, hinput]
          obtain ⟨text, htext, h⟩ := bind_eq_ok.1 h
          obtain ⟨others, hothers, h⟩ := bind_eq_ok.1 h
          obtain rfl := pure_eq_ok.1 h
          rw [List.filter_cons_of_pos hdefaulted, List.zipIdx_cons]
          exact .cons ⟨rfl, rfl, ⟨fallback, text, hfallback, htext, rfl⟩, rfl⟩ (ih hothers)
      · next hother =>
          have hkept : ¬ isDefaulted inputs operand = true := by
            simpa [isDefaulted, Option.isSome_iff_exists] using hother
          rw [List.filter_cons_of_neg hkept]
          exact ih h

/-! ## Records -/

/-- The parts of a record agree with the formula, with what it found in its inputs and with each other. -/
structure Coherent (formula : Formula) (inputs : Inputs) (result : CalculationResult) : Prop where
  formulaId : result.formulaId = formula.id
  descriptions : result.steps.map CalculationStep.description =
    formula.operands.map (fun operand => "Get " ++ operand.label) ++ ["Calculate " ++ formula.name]
  orders : result.steps.map CalculationStep.order = List.range (formula.operands.length + 1)
  finite : ∀ number, result.value = some number → number.isFinite = true
  flagged : result.isValid = false ↔ result.error.isSome = true
  exclusive : result.error = none ∨ result.warning = none
  explained : result.value = none → result.error.isSome = true ∨ result.warning.isSome = true
  footnotes : List.Forall₂ (fun entry footnote => NotesDefault formula.id entry.1 entry.2 footnote)
    ((formula.operands.filter (isDefaulted inputs)).zipIdx 1) result.footnotes

/-- Every record is coherent, whatever is evaluated and whatever it is evaluated on. -/
theorem coherent_of_evaluateFormula
    (h : evaluateFormula settings now formula inputs functions = .ok result) :
    Coherent formula inputs result := by
  have hid := formulaId_of_evaluateFormula h
  have hvalue := value_of_evaluateFormula h
  obtain ⟨resolved, steps, footnotes, expression, found, source, -, hsteps, hfootnotes, -, hfound, -,
    rfl⟩ := evaluateFormula_eq_ok_iff.1 h
  obtain ⟨hdescriptions, -, horders⟩ := operandSteps_eq_ok hsteps
  have hlength : steps.length = formula.operands.length := by
    simpa using congrArg List.length hdescriptions
  have hverdict := coherent_verdict hfound
  exact
    { formulaId := hid
      descriptions := by rw [List.map_append, hdescriptions, List.map_singleton]
      -- One step for each operand, numbered from zero, and the result behind them.
      orders := by
        rw [List.map_append, horders, List.map_singleton, hlength, List.range_succ,
          List.range_eq_range']
      finite := fun number hnumber => Formula.isFinite_of_compute
        (Formula.outcome_eq_some_iff.1 (hvalue.symm.trans hnumber))
      flagged := hverdict.flagged
      exclusive := hverdict.exclusive
      explained := hverdict.explained
      footnotes := defaultFootnotes_eq_ok hfootnotes }

/-! ## Trails -/

/-- What a record adds to the warnings of a run: its error or else its warning, unless that is empty, after
the name of the formula. -/
def notice? (name : String) (result : CalculationResult) : Option String :=
  ((result.error.filter (· ≠ "")).or (result.warning.filter (· ≠ ""))).map fun text =>
    name ++ ": " ++ text

/-- A record has one notice at most, its error or its warning. -/
theorem warningLine_eq (formula : Formula) (result : CalculationResult) :
    warningLine formula result = (notice? formula.name result).toList := by
  unfold warningLine notice? ReferenceKey.isGiven
  cases result.error <;> cases result.warning <;> simp [Option.filter] <;> grind

/-- The results and the warnings so far are those of the records, which are those of the formulas that have
run. -/
structure Tallies (done : List Formula) (progress : Progress) : Prop where
  ids : progress.calculations.map CalculationResult.formulaId = done.map Formula.id
  results : progress.results =
    progress.calculations.map fun result => (result.formulaId, result.value)
  warnings : progress.warnings =
    (done.zip progress.calculations).filterMap fun entry => notice? entry.1.name entry.2

/-- One step adds one record, one result and at most one warning, each at the end. -/
theorem Tallies.advance (h : Tallies done progress) (hfresh : formula.id ∉ done.map Formula.id)
    (hnext : Evaluation.advance settings clock raw functions progress formula = .ok next) :
    Tallies (done ++ [formula]) next := by
  obtain ⟨result, hresult, rfl⟩ := advance_eq_ok hnext
  have hid := formulaId_of_evaluateFormula hresult
  have hkeys : progress.results.keys = done.map Formula.id := by
    rw [h.results, ← h.ids, Dictionary.keys, List.map_map]
    rfl
  have hlength : done.length = progress.calculations.length := by
    simpa using (congrArg List.length h.ids).symm
  -- The new record stands at the end of all three lists, as its identifier is new.
  constructor
  · rw [List.map_append, List.map_append, h.ids, List.map_singleton, List.map_singleton, hid]
  · rw [Dictionary.put_of_not_mem _ _ (hkeys ▸ hfresh), List.map_append, h.results,
      List.map_singleton, hid]
  · rw [List.zip_append hlength, List.filterMap_append, h.warnings, warningLine_eq]
    cases hnotice : notice? formula.name result <;> simp [hnotice]

theorem tallies_of_evaluate (hregistry : registry.Consistent)
    (h : evaluate settings clock modelId registry raw = .ok trail) :
    Tallies registry.executionOrder
      { calculations := trail.calculations, results := trail.results, warnings := trail.warnings } := by
  obtain ⟨progress, hprogress, rfl⟩ := evaluate_eq_ok h
  refine foldlM_invariant Tallies ⟨rfl, rfl, rfl⟩ ?_ hprogress
  intro done formula after state next horder hdone hnext
  obtain ⟨-, -, hfresh⟩ := Registry.dependencies_subset_of_executionOrder hregistry horder
  exact hdone.advance hfresh hnext

/-- The results are what the records say, in the order of the records. -/
theorem results_of_evaluate (hregistry : registry.Consistent)
    (h : evaluate settings clock modelId registry raw = .ok trail) :
    trail.results = trail.calculations.map fun result => (result.formulaId, result.value) :=
  (tallies_of_evaluate hregistry h).results

/-- Looking a value up by formula is looking its record up. -/
theorem get?_map_formulaId (results : List CalculationResult) (id : String) :
    Dictionary.get? (results.map fun result => (result.formulaId, result.value)) id =
      (results.find? fun result => result.formulaId == id).map CalculationResult.value := by
  induction results with
  | nil => rfl
  | cons result rest ih =>
      rw [List.map_cons]
      by_cases hid : result.formulaId = id
      · rw [hid, Dictionary.get?_cons_self, List.find?_cons_of_pos (by simpa using hid)]
        rfl
      · rw [Dictionary.get?_cons_of_ne _ _ (Ne.symm hid), ih,
          List.find?_cons_of_neg (by simpa using hid)]

/-- A trail that a run returns agrees with itself and with the registry: the records follow the order of
execution and are coherent, the values by formula are those of the records, and the warnings are what the
records add to them. -/
theorem trail_coherent {registry : Registry} (hregistry : registry.Reached) {settings : Settings}
    {clock : Clock} {modelId : String} {entries : Dictionary Payload} {trail : AuditTrail}
    (h : evaluate settings clock modelId registry (rawInputs entries) = .ok trail) :
    registry.order? = some trail.executionOrder ∧
      trail.results.keys = trail.executionOrder ∧
      (∀ id, trail.results.get? id = (trail.get? id).map CalculationResult.value) ∧
      List.Forall₂ (fun formula result => Coherent formula
          (overlaid (rawInputs entries) (valuesOf trail.results) formula.dependencies) result)
        registry.executionOrder trail.calculations ∧
      trail.warnings = (registry.executionOrder.zip trail.calculations).filterMap fun entry =>
        notice? entry.1.name entry.2 := by
  have hconsistent := hregistry.consistent
  have hrecords := records_of_evaluate hconsistent h
  have hresults := results_of_evaluate hconsistent h
  refine ⟨?_, ?_, fun id => ?_, ?_, (tallies_of_evaluate hconsistent h).warnings⟩
  · rw [Registry.order?_eq_some hconsistent, executionOrder_of_evaluate hconsistent h]
  · rw [hresults, Dictionary.keys, List.map_map]
    rfl
  · rw [hresults]
    exact get?_map_formulaId trail.calculations id
  · exact hrecords.imp fun _ _ hresult => coherent_of_evaluateFormula hresult

open DirectCap

/-- An income statement with more expenses than income, registered from its last line to its first. -/
def overspent : List Formula :=
  [expenseRatio, totalOperatingExpenses, effectiveGrossIncome, surveyedVacancy, grossPotentialIncome]

/-- The trail stays coherent when the survey fails, a default stands in for the vacancy and the ratio of the
expenses breaks a rule. -/
theorem trail_coherent_overspent :
    ∃ trail,
      evaluate .usual "monday" "a" (surveyed overspent)
        (rawInputs [("totalRevenue", .int 1000), ("totalExpenses", .int 1200)]) = .ok trail ∧
      trail.results.keys = trail.executionOrder ∧
      trail.executionOrder = ["totalOperatingExpenses", "grossPotentialIncome", "vacancyAllowance",
        "effectiveGrossIncome", "expenseRatio"] ∧
      trail.warnings = ["Vacancy Allowance: Computation failed: no survey",
        "Expense Ratio: Expense ratio over 100% - expenses exceed income"] ∧
      List.Forall₂ (fun formula result =>
          result.steps.map CalculationStep.order = List.range (formula.operands.length + 1) ∧
            (result.isValid = false ↔ result.error.isSome = true))
        (surveyed overspent).executionOrder trail.calculations := by
  obtain ⟨trail, htrail, hwarnings⟩ := Option.map_eq_some_iff.1
    (show (evaluate .usual "monday" "a" (surveyed overspent)
        (rawInputs [("totalRevenue", .int 1000), ("totalExpenses", .int 1200)])).toOption.map
          AuditTrail.warnings =
      some ["Vacancy Allowance: Computation failed: no survey",
        "Expense Ratio: Expense ratio over 100% - expenses exceed income"] by decide +kernel)
  rw [toOption_eq_some] at htrail
  obtain ⟨horder, hkeys, -, hrecords, -⟩ := trail_coherent (reached_surveyed (by cbv)) htrail
  have hnamed : (surveyed overspent).order? = some ["totalOperatingExpenses",
      "grossPotentialIncome", "vacancyAllowance", "effectiveGrossIncome", "expenseRatio"] := by cbv
  exact ⟨trail, htrail, hkeys, Option.some.inj (horder.symm.trans hnamed), hwarnings,
    hrecords.imp fun _ _ hrecord => ⟨hrecord.orders, hrecord.flagged⟩⟩

end Evaluation
end Appraisal
