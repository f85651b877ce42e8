import Appraisal.Proofs.Decimal.Range
import Appraisal.Proofs.Evaluation.Record
import Appraisal.Proofs.Payload.Amount

/-!
# What a run asks of its formulas

What goes wrong while a value is computed is recorded and does no harm.  But the numbers of a calculation
are also written down and compared with bounds, and that may be impossible: a whole number beyond the range
of results cannot be shown, and an undefined number has no order.  A run returns a trail exactly when
neither happens to any formula.
-/

namespace Appraisal

/-! ## Comparing -/

/-- The number has a place in the order of all numbers. -/
def Decimal.Ordered : Decimal → Prop
  | .nan .. => False
  | _ => True

theorem Decimal.ordered_of_isFinite {x : Decimal} (h : x.isFinite = true) : x.Ordered := by
  cases x with
  | finite => trivial
  | infinite => trivial
  | nan => cases h

/-- Only signaling numbers cannot be compared. -/
theorem Decimal.testOrder_returns_iff (x y : Decimal) (test : Ordering → Bool) :
    Returns (testOrder x y test) ↔ x.Ordered ∧ y.Ordered := by
  cases x <;> cases y <;> simp [testOrder, compare?, Ordered]

namespace Rule

/-- The bounds can be compared with numbers. -/
def Ordered (rule : Rule) : Prop :=
  (∀ bound, rule.minValue = some bound → bound.Ordered) ∧
    ∀ bound, rule.maxValue = some bound → bound.Ordered

/-- The rules can be checked on a number, up to the first that has a finding. -/
def Checkable (value : Decimal) : List Rule → Prop
  | [] => True
  | rule :: rest => rule.Ordered ∧ (rule.check (some value) = .ok none → Checkable value rest)

theorem below_returns_iff {value : Decimal} (hvalue : value.Ordered) (bound : Option Decimal) :
    Returns (below value bound) ↔ ∀ least, bound = some least → least.Ordered := by
  cases bound with
  | none => simp [below]
  | some least => simp [below, Decimal.lt?, Decimal.testOrder_returns_iff, hvalue]

theorem above_returns_iff {value : Decimal} (hvalue : value.Ordered) (bound : Option Decimal) :
    Returns (above value bound) ↔ ∀ most, bound = some most → most.Ordered := by
  cases bound with
  | none => simp [above]
  | some most => simp [above, Decimal.lt?, Decimal.testOrder_returns_iff, hvalue]

/-- A rule can be checked when its bounds can be compared. -/
theorem check_returns_iff {rule : Rule} {value : Decimal} (hvalue : value.Ordered) :
    Returns (rule.check (some value)) ↔ rule.Ordered := by
  rw [Ordered, ← below_returns_iff hvalue, ← above_returns_iff hvalue]
  refine returns_bind_iff_and fun isBelow => ?_
  refine (returns_bind_iff_and fun isAbove => ?_).trans (and_iff_left trivial)
  split <;> simp

/-- A rule that comes after a finding is not looked at, so its bounds do not matter. -/
theorem firstFinding_returns_iff {rules : List Rule} {value : Decimal} (hvalue : value.Ordered) :
    Returns (firstFinding rules (some value)) ↔ Checkable value rules := by
  induction rules with
  | nil => exact iff_of_true (returns_ok _) trivial
  | cons rule rest ih =>
      rw [firstFinding, returns_bind_iff, Checkable, ← check_returns_iff hvalue, ← ih]
      cases rule.check (some value) with
      | error signal => simp
      | ok finding => cases finding <;> simp

theorem firstFinding_none (rules : List Rule) : firstFinding rules none = .ok .valid := by
  induction rules with
  | nil => rfl
  | cons rule rest ih => exact ih

end Rule

/-! ## Writing down -/

theorem Operand.ifPositive_returns_iff (required : Bool) (number : Decimal) :
    Returns (ifPositive required number) ↔ (required = true → number.Ordered) := by
  unfold ifPositive
  cases required with
  | false => simp
  | true =>
      have hzero : Decimal.zero.Ordered := trivial
      -- Zero can always be compared, so the number alone decides.
      have hcompared := Decimal.testOrder_returns_iff number .zero (· != .gt)
      simp only [if_true, forall_const, returns_bind_iff]
      constructor
      · rintro ⟨isAtMost, hatMost, -⟩
        exact (hcompared.1 ⟨isAtMost, hatMost⟩).1
      · intro hnumber
        obtain ⟨isAtMost, hatMost⟩ := hcompared.2 ⟨hnumber, hzero⟩
        refine ⟨isAtMost, hatMost, ?_⟩
        split <;> exact returns_pure _

/-- To find the number of an operand is to compare it with zero, if it must be positive, and nothing else can
fail. -/
theorem Operand.resolve_returns_iff (operand : Operand) (inputs : Inputs) :
    Returns (operand.resolve inputs) ↔ (operand.positive = true →
      ∀ number, (inputs operand.key).or operand.fallback = some number → number.Ordered) := by
  unfold resolve
  cases (inputs operand.key).or operand.fallback with
  | none => simp
  | some number => simp [ifPositive_returns_iff]

theorem Formula.resolve_returns_iff (formula : Formula) (inputs : Inputs) :
    Returns (formula.resolve inputs) ↔ ∀ operand ∈ formula.operands, operand.positive = true →
      ∀ number, (inputs operand.key).or operand.fallback = some number → number.Ordered := by
  refine foldlM_returns_iff (fun operand resolved => ?_) _ _
  rw [bind_pure_comp, returns_map_iff, Operand.resolve_returns_iff]

namespace Evaluation

/-- The value can be shown, if there is one. -/
def Showable (value : Option Decimal) : Prop :=
  ∀ number, value = some number → number.Writable

theorem shown_returns_iff (value : Option Decimal) : Returns (shown value) ↔ Showable value := by
  cases value with
  | none => simp [shown, Showable]
  | some number => simp [shown, Showable, Decimal.shown_returns_iff]

/-- The steps can be written when the numbers found can be shown. -/
theorem operandSteps_returns_iff (resolved : Resolved) (order : Nat) (operands : List Operand) :
    Returns (operandSteps resolved order operands) ↔
      ∀ operand ∈ operands, Showable (Formula.resolvedValue resolved operand) := by
  induction operands generalizing order with
  | nil => simp [operandSteps]
  | cons operand rest ih =>
      have hstep : Returns (operandStep resolved order operand) ↔
          Showable (Formula.resolvedValue resolved operand) := by
        rw [← shown_returns_iff]
        exact returns_map_iff
      rw [List.forall_mem_cons, ← ih (order + 1), ← hstep]
      exact returns_bind_iff_and fun step => returns_map_iff

theorem operandText_returns_iff (resolved : Resolved) (operand : Operand) :
    Returns (operandText resolved operand) ↔
      Showable (Formula.resolvedValue resolved operand) ∧ Showable operand.coefficient := by
  rw [← shown_returns_iff, ← shown_returns_iff]
  refine returns_bind_iff_and fun number => ?_
  cases operand.coefficient <;> simp [shown]

/-- The calculation as a whole shows the numbers, the coefficients and the scale. -/
theorem describe_returns_iff (formula : Formula) (resolved : Resolved) :
    Returns (describe formula resolved) ↔
      (∀ operand ∈ formula.operands, Showable (Formula.resolvedValue resolved operand) ∧
        Showable operand.coefficient) ∧ Showable formula.scale := by
  simp only [← operandText_returns_iff, ← mapM_returns_iff]
  rw [← shown_returns_iff]
  refine returns_bind_iff_and fun texts => ?_
  cases formula.scale <;> simp [shown]

/-- A footnote shows a default, and is written only where the input is missing. -/
theorem defaultFootnotes_returns_iff (formulaId : String) (inputs : Inputs) (symbol : Nat)
    (operands : List Operand) :
    Returns (defaultFootnotes formulaId inputs symbol operands) ↔
      ∀ operand ∈ operands, inputs operand.key = none → Showable operand.fallback := by
  induction operands generalizing symbol with
  | nil => simp [defaultFootnotes]
  | cons operand rest ih =>
      rw [List.forall_mem_cons, defaultFootnotes]
      cases hinput : inputs operand.key with
      | some number =>
        cases hfallback : operand.fallback <;> simp [ih]
      | none =>
        -- Without an input, the default stands in, if there is one, and gets a footnote.
        cases hfallback : operand.fallback with
        | none => simp [ih, Showable]
        | some fallback => 
          simp only [forall_const]
          rw [← ih, ← shown_returns_iff]
          exact returns_bind_iff_and fun text => returns_map_iff

/-- A failed or missing value needs no checking. -/
theorem verdict_returns_iff (formula : Formula) {computed : Except Failure (Option Decimal)}
    (hcomputed : ∀ number, computed = .ok (some number) → number.Ordered) :
    Returns (verdict formula computed) ↔
      ∀ number, computed = .ok (some number) → Rule.Checkable number formula.rules := by
  unfold verdict Formula.validate
  cases computed with
  | error failure => simp
  | ok value =>
      cases value with
      | none => simp [Rule.firstFinding_none]
      | some number =>
          have hnumber := hcomputed number rfl
          simp [Rule.firstFinding_returns_iff hnumber]

end Evaluation

/-! ## What a formula asks for -/

open Evaluation (Showable)

/-- A value comes from numbers found, a raw result and its scale. -/
theorem Formula.compute_eq_some {formula : Formula} {inputs : Inputs}
    {functions : Dictionary CustomFunction} {number : Decimal}
    (h : formula.compute inputs functions = .ok (some number)) :
    ∃ resolved result, formula.resolve inputs = .ok resolved ∧
      formula.rawResult resolved functions = .ok (some result) ∧
      formula.scaled result = .ok (some number) := by
  unfold compute at h
  obtain ⟨resolved, hresolved, h⟩ := bind_eq_ok.1 h
  obtain ⟨answer, hanswer, h⟩ := bind_eq_ok.1 h
  cases answer with
  | none => cases h
  | some result =>
      exact ⟨resolved, result, ofDecimal_eq_ok.1 hresolved, hanswer, ofDecimal_eq_ok.1 h⟩

/-- What is not finite is no value. -/
theorem Formula.scaled_eq_some {formula : Formula} {result number : Decimal}
    (h : formula.scaled result = .ok (some number)) :
    number.isFinite = true ∧ (number = result ∨ ∃ scale, result.mul scale = .ok number) := by
  unfold scaled at h
  cases hscale : formula.scale with
  | none =>
      rw [hscale] at h
      obtain ⟨rfl, hfinite⟩ := Payload.finiteOnly_eq_some (pure_eq_ok.1 h)
      exact ⟨hfinite, .inl rfl⟩
  | some scale =>
      rw [hscale] at h
      obtain ⟨product, hproduct, h⟩ := bind_eq_ok.1 h
      obtain ⟨rfl, hfinite⟩ := Payload.finiteOnly_eq_some (pure_eq_ok.1 h)
      exact ⟨hfinite, .inr ⟨scale, hproduct⟩⟩

theorem Formula.outcome_eq_some_iff {formula : Formula} {inputs : Inputs}
    {functions : Dictionary CustomFunction} {number : Decimal} :
    formula.outcome inputs functions = some number ↔
      formula.compute inputs functions = .ok (some number) := by
  unfold outcome
  cases formula.compute inputs functions <;> simp

/-- Every value is finite, whatever the inputs are. -/
theorem Formula.isFinite_of_compute {formula : Formula} {inputs : Inputs}
    {functions : Dictionary CustomFunction} {number : Decimal}
    (h : formula.compute inputs functions = .ok (some number)) : number.isFinite = true := by
  obtain ⟨resolved, result, -, -, hscaled⟩ := compute_eq_some h
  exact (scaled_eq_some hscaled).1

/-- What a formula must satisfy not to end the run: it can be pointed at, what is compared has an order, and
what is written down can be shown. -/
structure Formula.Presentable (formula : Formula) (inputs : Inputs)
    (functions : Dictionary CustomFunction) : Prop where
  named : formula.id ≠ ""
  comparable : ∀ operand ∈ formula.operands, operand.positive = true →
    ∀ number, (inputs operand.key).or operand.fallback = some number → number.Ordered
  numbers : ∀ resolved, formula.resolve inputs = .ok resolved →
    ∀ operand ∈ formula.operands, Showable (Formula.resolvedValue resolved operand)
  defaults : ∀ operand ∈ formula.operands, inputs operand.key = none → Showable operand.fallback
  coefficients : ∀ operand ∈ formula.operands, Showable operand.coefficient
  scale : Showable formula.scale
  value : Showable (formula.outcome inputs functions)
  rules : ∀ number, formula.outcome inputs functions = some number →
    Rule.Checkable number formula.rules

namespace Evaluation

theorem verdict_returns_iff_of_outcome (formula : Formula) (inputs : Inputs)
    (functions : Dictionary CustomFunction) :
    Returns (verdict formula (formula.compute inputs functions)) ↔
      ∀ number, formula.outcome inputs functions = some number →
        Rule.Checkable number formula.rules := by
  simp only [Formula.outcome_eq_some_iff]
  exact verdict_returns_iff formula fun number hnumber =>
    Decimal.ordered_of_isFinite (Formula.isFinite_of_compute hnumber)

/-- The conditions are necessary: each of them is that of a step which has been taken. -/
theorem presentable_of_evaluateFormula {settings : Settings} {now : String} {formula : Formula}
    {inputs : Inputs} {functions : Dictionary CustomFunction} {result : CalculationResult}
    (h : evaluateFormula settings now formula inputs functions = .ok result)
    (hshown : Showable result.value) : formula.Presentable inputs functions := by
  rw [value_of_evaluateFormula h] at hshown
  obtain ⟨resolved, steps, footnotes, expression, found, source, hresolved, hsteps, hfootnotes,
    hexpression, hfound, hsource, -⟩ := evaluateFormula_eq_ok_iff.1 h
  have hdescribed := (describe_returns_iff formula resolved).1 ⟨expression, hexpression⟩
  -- Every part of the evaluation returned, and each one tells what it needed.
  exact
    { named := (forCalculation_eq_ok_iff.1 hsource).2
      comparable := (Formula.resolve_returns_iff formula inputs).1 ⟨resolved, hresolved⟩
      numbers := fun other hother => by
        obtain rfl := Except.ok.inj (hresolved.symm.trans hother)
        exact (operandSteps_returns_iff resolved 0 formula.operands).1 ⟨steps, hsteps⟩
      defaults := (defaultFootnotes_returns_iff _ _ _ _).1 ⟨footnotes, hfootnotes⟩
      coefficients := fun operand hoperand => (hdescribed.1 operand hoperand).2
      scale := hdescribed.2
      value := hshown
      rules := (verdict_returns_iff_of_outcome _ _ _).1 ⟨found, hfound⟩ }

/-- The conditions are sufficient, whatever the settings and the moment are. -/
theorem evaluateFormula_returns {formula : Formula} {inputs : Inputs}
    {functions : Dictionary CustomFunction} (h : formula.Presentable inputs functions)
    (settings : Settings) (now : String) :
    Returns (evaluateFormula settings now formula inputs functions) := by
  obtain ⟨resolved, hresolved⟩ := (Formula.resolve_returns_iff formula inputs).2 h.comparable
  have hnumbers := h.numbers resolved hresolved
  obtain ⟨steps, hsteps⟩ := (operandSteps_returns_iff resolved 0 formula.operands).2 hnumbers
  obtain ⟨footnotes, hfootnotes⟩ :=
    (defaultFootnotes_returns_iff formula.id inputs 1 formula.operands).2 h.defaults
  obtain ⟨expression, hexpression⟩ := (describe_returns_iff formula resolved).2
    ⟨fun operand hoperand => ⟨hnumbers operand hoperand, h.coefficients operand hoperand⟩, h.scale⟩
  obtain ⟨found, hfound⟩ := (verdict_returns_iff_of_outcome formula inputs functions).2 h.rules
  simp only [evaluateFormula, returns_bind_iff, ofDecimal_eq_ok, ofChecked_eq_ok]
  exact ⟨resolved, hresolved, steps, hsteps, footnotes, hfootnotes, expression, hexpression,
    found, hfound, _, forCalculation_eq_ok_iff.2 ⟨rfl, h.named⟩, returns_pure _⟩

/-- One more formula is evaluated exactly when it asks for nothing impossible. -/
theorem advance_returns_iff {settings : Settings} {clock : Clock} {raw : Inputs}
    {functions : Dictionary CustomFunction} {progress : Progress} {formula : Formula} :
    Returns (advance settings clock raw functions progress formula) ↔
      formula.Presentable (overlay raw progress.results formula.dependencies) functions := by
  constructor
  · rintro ⟨next, hnext⟩
    obtain ⟨result, hresult, hnext⟩ := bind_eq_ok.1 hnext
    obtain ⟨text, htext, -⟩ := bind_eq_ok.1 hnext
    exact presentable_of_evaluateFormula hresult
      ((shown_returns_iff result.value).1 ⟨text, ofDecimal_eq_ok.1 htext⟩)
  · intro h
    obtain ⟨result, hresult⟩ := evaluateFormula_returns h settings (clock.recorded formula.id)
    have hshown := h.value
    rw [← value_of_evaluateFormula hresult] at hshown
    obtain ⟨text, htext⟩ := (shown_returns_iff result.value).2 hshown
    exact returns_bind_iff.2 ⟨result, hresult,
      returns_bind_iff.2 ⟨text, ofDecimal_eq_ok.2 htext, returns_pure _⟩⟩

/-- A run returns exactly when no formula asks for anything impossible on the values that solve the
equations. -/
theorem evaluate_returns_iff {registry : Registry} (hregistry : registry.Consistent)
    (settings : Settings) (clock : Clock) (modelId : String) (raw : Inputs) :
    Returns (evaluate settings clock modelId registry raw) ↔
      ∃ values, Solves registry raw values ∧ ∀ formula ∈ registry.formulas,
        formula.Presentable (overlaid raw values formula.dependencies) registry.functions := by
  have horder := Registry.executionOrder_perm hregistry
  constructor
  -- The values of the run are a solution, and along the run each formula met its conditions.
  · rintro ⟨trail, h⟩
    have hvalues := (solved_of_evaluate hregistry h).2
    obtain ⟨progress, hprogress, rfl⟩ := evaluate_eq_ok h
    let values := valuesOf progress.results
    refine ⟨values, hvalues, fun formula hmem => ?_⟩
    refine (foldlM_invariant (fun done progress => Follows values done progress ∧
      ∀ formula ∈ done, formula.Presentable (overlaid raw values formula.dependencies)
        registry.functions) ?_ ?_ hprogress).2 formula (horder.mem_iff.2 hmem)
    · exact ⟨by simp [Follows], by simp⟩
    · rintro done formula after progress next hsplit ⟨hfollows, hpresentable⟩ hnext
      obtain ⟨-, -, -, hnextFollows⟩ := hfollows.advance hregistry hvalues hsplit hnext
      have hlast := advance_returns_iff.1 ⟨next, hnext⟩
      rw [hfollows.overlay_eq hregistry hsplit] at hlast
      refine ⟨hnextFollows, fun other hother => ?_⟩
      rcases List.mem_append.1 hother with hdone | hnew
      · exact hpresentable other hdone
      · exact List.mem_singleton.1 hnew ▸ hlast
  -- By uniqueness the run follows the given solution, so the conditions stated for it are those of the run.
  · rintro ⟨values, hvalues, hpresentable⟩
    refine returns_map_iff.2 (foldlM_returns (Follows values) (by simp [Follows]) ?_)
    intro done formula after progress hsplit hfollows
    have hmem : formula ∈ registry.formulas := horder.mem_iff.1 (hsplit ▸ by simp)
    have hformula := hpresentable formula hmem
    rw [← hfollows.overlay_eq hregistry hsplit] at hformula
    obtain ⟨next, hnext⟩ := advance_returns_iff.2 hformula
    obtain ⟨-, -, -, hnextFollows⟩ := hfollows.advance hregistry hvalues hsplit hnext
    exact ⟨next, hnext, hnextFollows⟩

end Evaluation

end Appraisal
