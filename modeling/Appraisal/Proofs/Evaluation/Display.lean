import Appraisal.Proofs.Decimal.Shown
import Appraisal.Proofs.Evaluation.Closure
import Appraisal.Proofs.Schema.Writing

/-!
# The numbers that a trail shows

A record has a step for each operand, with the number that was found for it and a text in which the number is
shown.  The text denotes the number used, unless that is a whole number with more than 28 digits before the
zeros at its end: then it denotes the nearest number of 28 digits.  What arithmetic yields is always shown as
it is, so in a run on numbers that are short enough every step shows the number that was used.
-/

namespace Appraisal

open Decimal (Denotes Held Legible)

variable {x : Decimal}

/-- The amounts of payloads lie within the range of texts. -/
theorem Payload.WellFormed.textual {payload : Payload} (hpayload : payload.WellFormed)
    (h : payload.amount? = some x) : x.Textual := by
  -- A payload that has no amount falls away.
  cases hpayload with
  | null => cases h
  | bool value => cases h
  | int digits =>
      obtain rfl := Option.some.inj h
      exact Decimal.textual_ofInt digits
  | float value => exact Decimal.textual_of_ofChars? (Option.ite_none_right_eq_some.1 h).2
  | decimal textual =>
      obtain ⟨rfl, -⟩ := finiteOnly_eq_some h
      exact textual
  | text value =>
      simp only [amount?, amountOfChars?_eq_bind] at h
      obtain ⟨y, hread, hfinite⟩ := Option.bind_eq_some_iff.1 h
      obtain ⟨rfl, -⟩ := finiteOnly_eq_some hfinite
      exact Decimal.textual_of_ofChars? hread
  | list parts => cases h
  | object names parts => cases h

namespace Evaluation

variable {settings : Settings} {clock : Clock} {now modelId : String} {formula : Formula} {inputs raw : Inputs}
  {functions : Dictionary CustomFunction} {result : CalculationResult} {registry : Registry}
  {trail : AuditTrail} {number : Option Decimal} {expression : String}

/-! ## Texts of numbers -/

/-- How a text of the trail stands to the number that it shows. -/
structure Displays (expression : String) (number : Option Decimal) : Prop where
  missing : number = none → expression = "null"
  special : ∀ x, number = some x → x.isFinite = false → expression = x.toText
  whole : ∀ x, number = some x → x.isFinite = true → x.IsWhole → Denotes expression (Decimal.nearest x.value)
  fraction : ∀ x, number = some x → ¬ x.IsWhole → expression = x.toText
  /-- The text denotes the number exactly when no digit of it is lost. -/
  exact : ∀ x, number = some x → x.isFinite = true → (Denotes expression x.value ↔ x.Legible)

/-- However a number is shown, its text says what `Displays` asks for, case by case. -/
theorem displays_of_shown (h : shown number = .ok expression) : Displays expression number := by
  cases number with
  | none =>
      obtain rfl := Except.ok.inj h
      exact ⟨fun _ => rfl, nofun, nofun, nofun, nofun⟩
  | some x =>
      refine ⟨nofun, ?_, ?_, ?_, ?_⟩
      all_goals rintro y hy
      all_goals obtain rfl := Option.some.inj hy
      · exact fun hinfinite => Decimal.eq_toText_of_isFinite_eq_false hinfinite h
      · exact fun hfinite hwhole => Decimal.denotes_of_isWhole hfinite hwhole h
      · exact fun hfraction => Decimal.eq_toText_of_not_isWhole hfraction h
      · exact fun hfinite => Decimal.denotes_iff_legible hfinite h

/-! ## The steps of a record -/

/-- The record has a step for each operand, in order, and a last one; the steps of the operands have the
property. -/
def Gets (result : CalculationResult) (property : CalculationStep → Prop) : Prop :=
  ∃ gets last, result.steps = gets ++ [last] ∧
    List.Forall₂ (fun operand step => step.description = "Get " ++ operand.label ∧ property step)
      result.formula.operands gets

theorem Gets.mono {property other : CalculationStep → Prop} (h : Gets result property)
    (himplies : ∀ step, property step → other step) : Gets result other := by
  obtain ⟨gets, last, hsteps, hgets⟩ := h
  exact ⟨gets, last, hsteps, hgets.imp fun _ step hstep => ⟨hstep.1, himplies step hstep.2⟩⟩

/-- Every step but the last shows the number found for one operand. -/
theorem gets_of_evaluateFormula
    (h : evaluateFormula settings now formula inputs functions = .ok result) :
    ∃ resolved, formula.resolve inputs = .ok resolved ∧ Gets result fun step =>
      (∃ operand, step.result = Formula.resolvedValue resolved operand) ∧
        Displays step.expression step.result := by
  obtain ⟨resolved, steps, footnotes, expression, found, source, hresolved, hsteps, -, -, -, -, rfl⟩ :=
    evaluateFormula_eq_ok_iff.1 h
  refine ⟨resolved, hresolved, steps, _, rfl, (reads_of_operandSteps hsteps).1.imp ?_⟩
  intro operand step hreads
  exact ⟨hreads.description, ⟨operand, hreads.result⟩, displays_of_shown hreads.shown⟩

/-- A step shows a number that is given or stands in for a missing one. -/
theorem gets_property {property : Decimal → Prop} (hdefaults : formula.AllDefaults property)
    (hinputs : inputs.All property)
    (h : evaluateFormula settings now formula inputs functions = .ok result) :
    Gets result fun step => (∀ x, step.result = some x → property x) ∧
      Displays step.expression step.result := by
  obtain ⟨resolved, hresolved, hgets⟩ := gets_of_evaluateFormula h
  refine hgets.mono fun step hstep => ⟨fun x hx => ?_, hstep.2⟩
  obtain ⟨operand, hoperand⟩ := hstep.1
  exact hdefaults.found hinputs hresolved (hoperand.symm.trans hx)

/-! ## The steps of a trail -/

/-- In every record of a run the numbers are displayed alike. -/
theorem displays_of_evaluate (hregistry : registry.Consistent)
    (h : evaluate settings clock modelId registry raw = .ok trail) (hmem : result ∈ trail.calculations) :
    Gets result fun step => Displays step.expression step.result := by
  obtain ⟨formula, -, hresult⟩ := exists_of_mem_right (records_of_evaluate hregistry h) hmem
  obtain ⟨resolved, -, hgets⟩ := gets_of_evaluateFormula hresult
  exact hgets.mono fun _ hstep => hstep.2

/-- When no given number loses a digit, no number of the trail does. -/
theorem denotes_of_evaluate (hregistry : registry.Consistent) (hgiven : registry.AllGiven Legible)
    (hraw : raw.All Legible) (h : evaluate settings clock modelId registry raw = .ok trail)
    (hmem : result ∈ trail.calculations) :
    Gets result fun step =>
      ∀ x, step.result = some x → x.isFinite = true → Denotes step.expression x.value := by
  have hresults := all_of_evaluate (fun _ => Decimal.Rounded.legible) hregistry hgiven hraw h
  obtain ⟨formula, hformula, hresult⟩ := exists_of_mem_right (records_of_evaluate hregistry h) hmem
  have hregistered := (Registry.executionOrder_perm hregistry).mem_iff.1 hformula
  have hgets := gets_property (hgiven.defaults formula hregistered)
    (all_overlay hraw hresults formula.dependencies) hresult
  exact hgets.mono fun step hstep x hx hfinite =>
    (hstep.2.exact x hx hfinite).2 (hstep.1 x hx)

/-- What is shown of amounts and in the steps of trails.  An amount is shown unless it is a whole number beyond
the range of results; the text denotes the amount, unless that is a whole number of more digits than can be
held.  Each step of a trail that reads an operand has such a text, and when nothing is lost of the numbers that
are given, every such text denotes the number that was used. -/
theorem numbers_displayed {registry : Registry} (hregistry : registry.Reached)
    (settings : Settings) (clock : Clock) (modelId : String) (entries : Dictionary Payload) :
    (∀ payload : Payload, payload.WellFormed → ∀ x, payload.amount? = some x →
      (Returns x.shown ↔ (x.IsWhole → |x.value| < Decimal.overflowThreshold)) ∧
        ∀ text, x.shown = .ok text →
          (Denotes text x.value ↔ (x.IsWhole → Held x.value)) ∧ Displays text (some x)) ∧
      ∀ trail, evaluate settings clock modelId registry (rawInputs entries) = .ok trail →
        (∀ result ∈ trail.calculations, Gets result fun step => Displays step.expression step.result) ∧
          (registry.AllGiven Legible → (rawInputs entries).All Legible →
            ∀ result ∈ trail.calculations, Gets result fun step =>
              ∀ x, step.result = some x → x.isFinite = true → Denotes step.expression x.value) := by
  constructor
  · intro payload hpayload x hx
    have hfinite := Payload.isFinite_of_amount? hx
    refine ⟨Decimal.shown_returns_iff_lt hfinite, fun text htext => ⟨?_, displays_of_shown htext⟩⟩
    rw [Decimal.denotes_iff_legible hfinite htext]
    exact ⟨And.left, fun hheld => ⟨hheld, fun _ => hpayload.textual hx⟩⟩
  · intro trail htrail
    have hconsistent := hregistry.consistent
    exact ⟨fun result hmem => displays_of_evaluate hconsistent htrail hmem,
      fun hgiven hraw result hmem => denotes_of_evaluate hconsistent hgiven hraw htrail hmem⟩

open DirectCap

/-- No number in the registry of the example has more digits than can be kept. -/
theorem allGiven_surveyed :
    (surveyed [grossPotentialIncome, surveyedVacancy, effectiveGrossIncome]).AllGiven Legible := by
  have hrate : defaultVacancyRate.Legible := Decimal.Rounded.legible ⟨false, 5, -2, by decide +kernel⟩
  have hzero : Decimal.zero.Legible := Decimal.rounded_zero.legible
  refine ⟨?_, fun name function hfunction resolved answer hanswer => ?_⟩
  · simp [Formula.AllDefaults, surveyed, grossPotentialIncome, surveyedVacancy, vacancyAllowance,
      effectiveGrossIncome, entry, DirectCap.result, hrate, hzero]
  · by_cases hname : name = "survey"
    · rw [hname] at hfunction
      obtain rfl := Option.some.inj hfunction
      cases hanswer
    · simp [surveyed, Dictionary.get?_cons_of_ne _ _ hname] at hfunction

/-- An amount with cents and a default are shown as they are used, and so is a round number of more than 28
digits. -/
theorem numbers_displayed_surveyed :
    Denotes "10000000000000000000000000000000" (10 ^ (31 : Int)) ∧
      ∃ trail,
        evaluate .usual "monday" "a"
          (surveyed [grossPotentialIncome, surveyedVacancy, effectiveGrossIncome])
          (rawInputs [("totalRevenue", .text "1,000.50")]) = .ok trail ∧
        ∀ result ∈ trail.calculations, Gets result fun step =>
          ∀ x, step.result = some x → x.isFinite = true → Denotes step.expression x.value := by
  have hreached : (surveyed [grossPotentialIncome, surveyedVacancy, effectiveGrossIncome]).Reached :=
    reached_surveyed (by cbv)
  obtain ⟨hnumbers, hruns⟩ :=
    numbers_displayed hreached .usual "monday" "a" [("totalRevenue", .text "1,000.50")]
  constructor
  · have hshown : (Decimal.ofInt (10 ^ 31)).shown = .ok "10000000000000000000000000000000" :=
      toOption_eq_some.1 (by decide +kernel)
    have hvalue : (Decimal.ofInt (10 ^ 31)).value = 10 ^ (31 : Int) := by
      rw [Decimal.value_ofInt]
      norm_num
    -- The number has 32 digits, but all of them except the first are zeros.
    have hheld : Held (Decimal.ofInt (10 ^ 31)).value :=
      hvalue ▸ Decimal.held_zpow (by decide)
    obtain ⟨-, htext⟩ := hnumbers (.int (10 ^ 31)) (.int (by decide +kernel)) _ rfl
    exact hvalue ▸ (htext _ hshown).1.2 fun _ => hheld
  · have hraw : (rawInputs [("totalRevenue", .text "1,000.50")]).All Legible := by
      intro name number hnumber
      by_cases hname : name = "totalRevenue"
      · rw [hname, show rawInputs [("totalRevenue", .text "1,000.50")] "totalRevenue" =
          some (.finite false 100050 (-2)) by decide +kernel] at hnumber
        obtain rfl := Option.some.inj hnumber
        exact Decimal.Rounded.legible ⟨false, 100050, -2, by decide +kernel⟩
      · simp [rawInputs, Dictionary.get?_cons_of_ne _ _ hname] at hnumber
    obtain ⟨trail, htrail⟩ := Option.isSome_iff_exists.1
      (show (evaluate .usual "monday" "a"
        (surveyed [grossPotentialIncome, surveyedVacancy, effectiveGrossIncome])
        (rawInputs [("totalRevenue", .text "1,000.50")])).toOption.isSome = true by decide +kernel)
    rw [toOption_eq_some] at htrail
    exact ⟨trail, htrail, (hruns trail htrail).2 allGiven_surveyed hraw⟩

/-- A revenue of 32 digits is shown as another number than the one that is used, and one beyond the range of
results cannot be shown. -/
theorem numbers_displayed_rounded :
    (surveyed [grossPotentialIncome]).Reached ∧
      (∃ trail get last x,
        evaluate .usual "" "" (surveyed [grossPotentialIncome])
          (rawInputs [("totalRevenue", .text "12345678901234567890123456789012")]) = .ok trail ∧
        trail.calculations.map CalculationResult.steps = [[get, last]] ∧
        get.description = "Get Revenue Items" ∧ get.result = some x ∧
        (Payload.text "12345678901234567890123456789012").amount? = some x ∧
        ¬ Denotes get.expression x.value) ∧
      ∃ x, (Payload.text "1e1000000").amount? = some x ∧ x.isFinite = true ∧
        x.shown = .error .overflow := by
  refine ⟨reached_surveyed (by cbv), ?_, .finite false 1 1000000, by decide +kernel, rfl, ?_⟩
  · obtain ⟨trail, htrail, hsteps⟩ := Option.map_eq_some_iff.1
      (show (evaluate .usual "" "" (surveyed [grossPotentialIncome])
          (rawInputs [("totalRevenue", .text "12345678901234567890123456789012")])).toOption.map
            (fun trail => trail.calculations.map CalculationResult.steps) =
        some [[
          { description := "Get Revenue Items", expression := "12345678901234567890123456790000"
            result := some (.finite false 12345678901234567890123456789012 0), order := 0 },
          { description := "Calculate Gross Potential Income"
            expression := "12345678901234567890123456790000"
            result := some (.finite false 1234567890123456789012345679 4), order := 1 }]] by
        decide +kernel)
    rw [toOption_eq_some] at htrail
    refine ⟨trail, _, _, .finite false 12345678901234567890123456789012 0, htrail, hsteps, rfl, rfl,
      by decide +kernel, fun hdenotes => ?_⟩
    -- The displayed text denotes a number of its own, and a text denotes one number only.
    have hread : (Payload.text "12345678901234567890123456790000").amount? =
        some (.finite false 12345678901234567890123456790000 0) := by decide +kernel
    have hsame := hdenotes.unique (Decimal.denotes_of_amount hread)
    norm_num [Decimal.value, Decimal.signed] at hsame
  -- A whole number of a million digits is beyond the range of results, so showing it overflows.
  · have hround : Decimal.round false 1 1000000 = .error .overflow := by
      rw [Decimal.round, if_neg (by decide), if_pos (by decide +kernel)]
    rw [Decimal.shown, Decimal.normalize, hround]
    rfl

end Evaluation
end Appraisal
