import Appraisal.Proofs.Evaluation.Coherence
import Appraisal.Proofs.Model.Assembly
import Appraisal.Proofs.Notation.Grammar

/-!
# Escalation

A model flags neither too much nor too little.  A line item is flagged when it is marked or when its
confidence lies below the threshold, a result when it is not accepted, and the summary once for every error
in its notation; nothing is flagged twice, and a higher threshold flags no line item less.
-/

namespace Appraisal

/-! ## The order of measures -/

namespace Measure

/-- The place of a measure: before the integers, among them or behind them, and there the number of units of
`2 ^ -1074`.  An undefined measure has no place. -/
def place? : Measure → Option (Int × Int)
  | whole n => some (0, n * Binary64.unitsPerOne)
  | real (.finite negative significand scale) =>
      some (0, Binary64.units negative significand scale)
  | real (.infinite negative) => some (if negative then -1 else 1, 0)
  | real .nan => none

/-- The order of two places. -/
def comparePlaces : Int × Int → Int × Int → Ordering :=
  compareLex (compareOn Prod.fst) (compareOn Prod.snd)

theorem compare_mul_pos {unit : Int} (hunit : 0 < unit) (m n : Int) :
    compare (m * unit) (n * unit) = compare m n := by
  rcases Int.lt_trichotomy m n with hlt | rfl | hgt
  · rw [Int.compare_eq_lt.2 hlt, Int.compare_eq_lt.2 (Int.mul_lt_mul_of_pos_right hlt hunit)]
  · rw [Int.compare_eq_eq.2 rfl, Int.compare_eq_eq.2 rfl]
  · rw [Int.compare_eq_gt.2 hgt, Int.compare_eq_gt.2 (Int.mul_lt_mul_of_pos_right hgt hunit)]

/-- Measures are compared by their places. -/
theorem compare?_eq (a b : Measure) :
    a.compare? b = a.place?.bind fun x => b.place?.map (comparePlaces x) := by
  have hunit : (0 : Int) < Binary64.unitsPerOne := Int.natCast_pos.2 (twoTo_pos 1074)
  rcases a with m | _ | (_ | _) | _ <;> rcases b with n | _ | (_ | _) | _ <;>
    simp only [compare?, Binary64.compareInt?, Binary64.compare?, place?, Option.map_some,
      Option.bind_some, Option.bind_none, Option.map_none, comparePlaces, compareLex, compareOn,
      compare_mul_pos hunit]
  -- What is left has an infinity in it, or the integer in the first place.
  all_goals first
    | rfl
    | exact congrArg some Std.OrientedOrd.eq_swap.symm

/-- Measures are comparable when they have a place on the common scale, whichever of the two kinds they are.
-/
theorem lt_iff {a b : Measure} :
    a.lt b = true ↔ ∃ x y, a.place? = some x ∧ b.place? = some y ∧ comparePlaces x y = .lt := by
  rw [lt, compare?_eq]
  cases a.place? <;> cases b.place? <;> simp

theorem le_iff {a b : Measure} :
    a.le b = true ↔
      ∃ x y, a.place? = some x ∧ b.place? = some y ∧ (comparePlaces x y).isLE = true := by
  rw [le, compare?_eq]
  cases a.place? <;> cases b.place? <;> simp [Ordering.isLE_iff_eq_lt_or_eq_eq]

/-- The order of integers and floating-point numbers together is transitive. -/
theorem lt_of_lt_of_le {a b c : Measure} (hab : a.lt b = true) (hbc : b.le c = true) :
    a.lt c = true := by
  obtain ⟨x, y, hx, hy, hlt⟩ := lt_iff.1 hab
  obtain ⟨other, z, hother, hz, hle⟩ := le_iff.1 hbc
  obtain rfl := Option.some.inj (hy.symm.trans hother)
  have htrans : Std.TransCmp comparePlaces :=
    inferInstanceAs (Std.TransCmp (compareLex (compareOn Prod.fst) (compareOn Prod.snd)))
  exact lt_iff.2 ⟨x, z, hx, hz, Std.TransCmp.lt_of_lt_of_isLE hlt hle⟩

end Measure

/-! ## Errors of results -/

/-- Every rule of every formula has something to say. -/
def Registry.HasMessages (registry : Registry) : Prop :=
  ∀ formula ∈ registry.formulas, ∀ rule ∈ formula.rules, rule.message ≠ ""

instance (registry : Registry) : Decidable registry.HasMessages :=
  inferInstanceAs
    (Decidable (∀ formula ∈ registry.formulas, ∀ rule ∈ formula.rules, rule.message ≠ ""))

theorem DirectCap.hasMessages_capitalization (rate : Decimal) : (capitalization rate).HasMessages :=
  of_decide_eq_true rfl

namespace Evaluation

variable {settings : Settings} {clock : Clock} {now modelId : String} {formula : Formula} {inputs raw : Inputs}
  {functions : Dictionary CustomFunction} {result : CalculationResult} {registry : Registry}
  {trail : AuditTrail}

/-- An error always has words, as long as the messages of the rules have. -/
theorem error_ne_of_verdict (hrules : ∀ rule ∈ formula.rules, rule.message ≠ "")
    {computed : Except Failure (Option Decimal)} {found : Verdict}
    (h : verdict formula computed = .ok found) : found.error ≠ some "" := by
  cases computed with
  | error failure =>
      obtain rfl := Except.ok.inj h
      simp
  | ok value =>
      obtain ⟨finding, hfinding, h⟩ := bind_eq_ok.1 h
      obtain rfl := pure_eq_ok.1 h
      intro herror
      rcases Rule.message_of_firstFinding hfinding with rfl | ⟨rule, hmem, hmessage⟩
      · cases herror
      -- Only an error of a rule becomes the error of the record, with the message of that rule.
      · cases hseverity : finding.severity <;> simp [verdictOf, hseverity, hmessage] at herror
        exact hrules rule hmem herror

/-- A record has an error exactly when its value is not accepted. -/
theorem hasError_of_evaluateFormula (hrules : ∀ rule ∈ formula.rules, rule.message ≠ "")
    (h : evaluateFormula settings now formula inputs functions = .ok result) :
    result.hasError = !result.isValid := by
  have hflagged := (coherent_of_evaluateFormula h).flagged
  obtain ⟨_, _, _, _, found, _, -, -, -, -, hfound, -, rfl⟩ := evaluateFormula_eq_ok_iff.1 h
  have hne := error_ne_of_verdict hrules hfound
  simp only [CalculationResult.hasError, ReferenceKey.isGiven] at hflagged ⊢
  cases herror : found.error with
  | none => simp_all
  | some text => simp_all

theorem Records.hasError {values : String → Option Decimal} {formulas : List Formula}
    {results : List CalculationResult}
    (hmessages : ∀ formula ∈ formulas, ∀ rule ∈ formula.rules, rule.message ≠ "")
    (h : Records settings clock registry raw values formulas results) :
    ∀ result ∈ results, result.hasError = !result.isValid := by
  induction h with
  | nil => simp
  | cons hresult _ ih =>
      rw [List.forall_mem_cons] at hmessages ⊢
      exact ⟨hasError_of_evaluateFormula hmessages.1 hresult, ih hmessages.2⟩

/-- The results that carry an error are those that are not accepted. -/
theorem failed_of_evaluate (hregistry : registry.Consistent) (hmessages : registry.HasMessages)
    (h : evaluate settings clock modelId registry raw = .ok trail) :
    trail.failed = trail.calculations.filter fun result => !result.isValid := by
  have hordered : ∀ formula ∈ registry.executionOrder, ∀ rule ∈ formula.rules, rule.message ≠ "" :=
    fun formula hmem => hmessages formula ((Registry.executionOrder_perm hregistry).mem_iff.1 hmem)
  exact List.filter_congr ((records_of_evaluate hregistry h).hasError hordered)

end Evaluation

namespace FinancialModel

variable {threshold low high : Measure} {input : UserInput} {placed : PlacedItem} {flag : FlaggedItem}

/-! ## Line items -/

/-- Whether a line item needs a look: it is marked, or its confidence lies below the threshold. -/
def NeedsLook (threshold : Measure) (item : LineItem) : Prop :=
  item.flaggedForReview = true ∨
    ∃ confidence, item.source.confidence = some confidence ∧ confidence.lt threshold = true

instance (threshold : Measure) : DecidablePred (NeedsLook threshold) := fun item =>
  decidable_of_iff
    (item.flaggedForReview = true ∨
      item.source.confidence.any (fun confidence => confidence.lt threshold) = true)
    (or_congr_right (Option.any_eq_true _ _))

/-- With a higher threshold, no item stops needing a look. -/
theorem NeedsLook.mono {item : LineItem} (h : NeedsLook low item) (hle : low.le high = true) :
    NeedsLook high item := by
  rcases h with hmarked | ⟨confidence, hconfidence, hlt⟩
  · exact .inl hmarked
  · exact .inr ⟨confidence, hconfidence, Measure.lt_of_lt_of_le hlt hle⟩

/-- Why a line item needs a look. -/
def lookReason (item : LineItem) : String :=
  if item.flaggedForReview then item.label ++ " marked for review"
  else
    "Low extraction confidence for " ++ item.label ++ " (" ++
      (item.source.confidence.elim "" fun confidence => confidence.toBinary64.twoPlaces) ++ ")"

/-- The flag of a line item does not depend on the threshold, only whether it is raised. -/
theorem flagLineItem?_eq (threshold : Measure) (placed : PlacedItem) :
    flagLineItem? threshold placed =
      if NeedsLook threshold placed.item then some (itemFlag placed (lookReason placed.item))
      else none := by
  unfold flagLineItem? lookReason NeedsLook
  by_cases hmarked : placed.item.flaggedForReview = true
  · simp [hmarked]
  · obtain hnone | ⟨confidence, hsome⟩ := Option.eq_none_or_eq_some placed.item.source.confidence
    · simp [hmarked, hnone]
    · simp [hmarked, hsome]

/-- The flagged items are those that need a look, in order. -/
theorem flagLineItems_eq (input : UserInput) (threshold : Measure) :
    flagLineItems input threshold =
      (input.allItems.filter fun placed => NeedsLook threshold placed.item).map fun placed =>
        itemFlag placed (lookReason placed.item) := by
  unfold flagLineItems
  rw [← List.filterMap_eq_map, List.filterMap_filter]
  refine List.filterMap_congr fun placed _ => ?_
  simp [flagLineItem?_eq]

/-- A higher threshold flags more items and none out of order. -/
theorem flagLineItems_sublist (input : UserInput) (h : low.le high = true) :
    (flagLineItems input low).Sublist (flagLineItems input high) := by
  rw [flagLineItems_eq, flagLineItems_eq]
  refine (List.monotone_filter_right _ fun placed hlook => ?_).map _
  exact decide_eq_true ((of_decide_eq_true hlook).mono h)

/-! ## The paths of line items -/

/-- The path of a position in a list of line items. -/
def pathOf (part : String) (index : Nat) : String :=
  "userInput." ++ part ++ "[" ++ toString index ++ "]"

/-- The lists of line items with their names in paths. -/
def parts (input : UserInput) : List (String × List LineItem) :=
  [("revenueItems", input.revenueItems), ("expenseItems", input.expenseItems),
    ("adjustmentItems", input.adjustmentItems)]

/-- A path gives back the name of the list and the position in it. -/
theorem eq_of_pathOf_eq {part other : String} {i j : Nat} (hpart : '[' ∉ part.toList)
    (hother : '[' ∉ other.toList) (h : pathOf part i = pathOf other j) : part = other ∧ i = j := by
  have hchars : part.toList ++ '[' :: (Nat.toDigits 10 i ++ [']']) =
      other.toList ++ '[' :: (Nat.toDigits 10 j ++ [']']) := by
    have htexts := congrArg String.toList h
    simpa [pathOf, Nat.toList_repr] using htexts
  have hname {name : String} (hfree : '[' ∉ name.toList) (rest : List Char) :
      (name.toList ++ '[' :: rest).takeWhile (fun c => c ≠ '[') = name.toList :=
    Notation.takeWhile_append_cons (fun c hc => decide_eq_true (ne_of_mem_of_not_mem hc hfree))
      (decide_eq_false (not_not.2 rfl)) rest
  have hnames : part.toList = other.toList := by
    rw [← hname hpart, hchars, hname hother]
  rw [hnames] at hchars
  have hdigits := List.append_cancel_right (List.cons.inj (List.append_cancel_left hchars)).2
  have hindices := congrArg (fun digits => Nat.ofDigitChars 10 digits 0) hdigits
  exact ⟨String.toList_inj.1 hnames, by simpa using hindices⟩

theorem map_itemPath_placed (part : String) (items : List LineItem) :
    (UserInput.placed part items).map itemPath = (List.range items.length).map (pathOf part) := by
  rw [List.range_eq_range', ← List.zipIdx_map_snd 0 items, UserInput.placed, List.map_map,
    List.map_map]
  rfl

/-- No two places of the input have one path: a part has no bracket in its name, so name and position can be
told apart. -/
theorem nodup_map_itemPath (input : UserInput) : (input.allItems.map itemPath).Nodup := by
  have hnodup (part : String) (items : List LineItem) (hpart : '[' ∉ part.toList) :
      ((UserInput.placed part items).map itemPath).Nodup := by
    rw [map_itemPath_placed]
    exact List.nodup_range.map fun i j h => (eq_of_pathOf_eq hpart hpart h).2
  -- Paths in different parts differ in the part already.
  have hapart {part other : String} (items others : List LineItem) (hpart : '[' ∉ part.toList)
      (hother : '[' ∉ other.toList) (hne : part ≠ other) :
      List.Disjoint ((UserInput.placed part items).map itemPath)
        ((UserInput.placed other others).map itemPath) := by
    rw [map_itemPath_placed, map_itemPath_placed]
    intro path hfirst hsecond
    obtain ⟨i, -, rfl⟩ := List.mem_map.1 hfirst
    obtain ⟨j, -, hpath⟩ := List.mem_map.1 hsecond
    exact hne (eq_of_pathOf_eq hother hpart hpath).1.symm
  unfold UserInput.allItems
  rw [List.map_append, List.map_append]
  refine ((hnodup _ _ (by decide)).append (hnodup _ _ (by decide))
    (hapart _ _ (by decide) (by decide) (by decide))).append (hnodup _ _ (by decide)) ?_
  exact List.disjoint_append_left.2 ⟨hapart _ _ (by decide) (by decide) (by decide),
    hapart _ _ (by decide) (by decide) (by decide)⟩

theorem map_field_flagLineItems (input : UserInput) (threshold : Measure) :
    (flagLineItems input threshold).map FlaggedItem.field =
      (input.allItems.filter fun placed => NeedsLook threshold placed.item).map itemPath := by
  rw [flagLineItems_eq, List.map_map]
  rfl

/-- No field is flagged twice for its confidence. -/
theorem nodup_map_field (input : UserInput) (threshold : Measure) :
    ((flagLineItems input threshold).map FlaggedItem.field).Nodup := by
  rw [map_field_flagLineItems]
  exact (nodup_map_itemPath input).sublist (List.filter_sublist.map itemPath)

/-- The paths of the line items that need a look, list by list. -/
theorem map_field_eq_flatMap (input : UserInput) (threshold : Measure) :
    (flagLineItems input threshold).map FlaggedItem.field =
      (parts input).flatMap fun part =>
        (part.2.zipIdx.filter fun entry => NeedsLook threshold entry.1).map fun entry =>
          pathOf part.1 entry.2 := by
  have hpart (part : String) (items : List LineItem) :
      ((UserInput.placed part items).filter fun placed => NeedsLook threshold placed.item).map
          itemPath =
        (items.zipIdx.filter fun entry => NeedsLook threshold entry.1).map fun entry =>
          pathOf part entry.2 := by
    rw [UserInput.placed, List.filter_map, List.map_map]
    rfl
  rw [map_field_flagLineItems, UserInput.allItems, List.filter_append, List.filter_append,
    List.map_append, List.map_append, hpart, hpart, hpart]
  simp [parts]

/-! ## All flags -/

theorem reason_calculationFlag {result : CalculationResult} (h : result.hasError = true) :
    some (calculationFlag result).reason = result.error := by
  cases herror : result.error with
  | none => simp [CalculationResult.hasError, ReferenceKey.isGiven, herror] at h
  | some text => simp [calculationFlag, herror]

/-- The calculations flagged are those that are not valid, with their errors as reasons. -/
theorem map_flagCalculations {registry : Registry} (hregistry : registry.Consistent)
    (hmessages : registry.HasMessages) {settings : Settings} {clock : Evaluation.Clock}
    {modelId : String} {raw : Inputs} {trail : AuditTrail}
    (h : Evaluation.evaluate settings clock modelId registry raw = .ok trail) :
    (flagCalculations trail).map (fun flag => (flag.field, flag.severity, some flag.reason)) =
      (trail.calculations.filter fun result => !result.isValid).map fun result =>
        ("calculations." ++ result.formulaId, Severity.error, result.error) := by
  rw [← Evaluation.failed_of_evaluate hregistry hmessages h, flagCalculations, List.map_map]
  refine List.map_congr_left fun result hresult => ?_
  show (_, _, some (calculationFlag result).reason) = _
  rw [reason_calculationFlag (List.mem_filter.1 hresult).2]
  rfl

/-- The flags of a model are those of the line items that need a look, with their paths, of the results
that are not accepted, with their errors, and of the errors in the notation of the summary, in this order;
no line item is flagged twice, and a higher threshold flags all that a lower one does. -/
theorem flaggedItems_exact {clock : Clock} {title : String} {given : Option Registry}
    {options : ModelOptions} {settings : Settings} {supply rest : IdSupply} {model : FinancialModel}
    (hgiven : ∀ registry, given = some registry → registry.Reached ∧ registry.HasMessages)
    (h : assemble clock title input given options settings supply = .ok (model, rest)) :
    let threshold :=
      options.reviewConfidenceThreshold.getD (.real settings.reviewConfidenceThreshold)
    let trail := model.calculations
    let reasoning := model.briefReasoning
    reasoning.flaggedItems =
        flagLineItems input threshold ++ flagCalculations trail ++ flagSummary reasoning.summary ∧
      (flagLineItems input threshold).map FlaggedItem.field =
        ([("revenueItems", input.revenueItems), ("expenseItems", input.expenseItems),
            ("adjustmentItems", input.adjustmentItems)].flatMap fun part =>
          (part.2.zipIdx.filter fun entry => NeedsLook threshold entry.1).map fun entry =>
            "userInput." ++ part.1 ++ "[" ++ toString entry.2 ++ "]") ∧
      ((flagLineItems input threshold).map FlaggedItem.field).Nodup ∧
      (∃ registry, registryOr given settings = .ok registry ∧
        trail.executionOrder = registry.executionOrder.map Formula.id) ∧
      (flagCalculations trail).map (fun flag => (flag.field, flag.severity, some flag.reason)) =
        (trail.calculations.filter fun result => !result.isValid).map (fun result =>
          ("calculations." ++ result.formulaId, Severity.error, result.error)) ∧
      (flagSummary reasoning.summary).map (fun flag => (flag.field, flag.reason)) =
        (Notation.validate reasoning.summary).map (fun error =>
          ("briefReasoning.summary", error.message)) ∧
      ∀ higher, threshold.le higher = true →
        (flagLineItems input threshold).Sublist (flagLineItems input higher) := by
  intro threshold trail reasoning
  obtain ⟨registry, id, raw, modelType, evaluated, hregistry, -, -, -, hevaluated, rfl⟩ :=
    assemble_given_eq_ok h
  -- A registry that is given comes with what is known of it; the usual one has it by construction.
  obtain ⟨hreached, hmessages⟩ : registry.Reached ∧ registry.HasMessages := by
    cases given with
    | some own =>
        obtain rfl := Except.ok.inj hregistry
        exact hgiven own rfl
    | none =>
        obtain rfl := eq_capitalization_of_registryOr hregistry
        exact ⟨DirectCap.reached_capitalization _, DirectCap.hasMessages_capitalization _⟩
  refine ⟨rfl, map_field_eq_flatMap input threshold, nodup_map_field input threshold,
    ⟨registry, hregistry, Evaluation.executionOrder_of_evaluate hreached.consistent hevaluated⟩, ?_,
    ?_, fun higher hle => flagLineItems_sublist input hle⟩
  · exact map_flagCalculations hreached.consistent hmessages hevaluated
  · rw [flagSummary, List.map_map]
    rfl

/-- A line of which a document says so much with some confidence. -/
def readLine (label : String) (amount : Int) (confidence : Measure) (flaggedForReview : Bool) :
    LineItem :=
  { id := label, label, amount := .ofInt amount
    source := { SourceReference.plain "" .parsedDocument (.ofKey? (some label)) label with
      confidence := some confidence }
    category := none, notes := none, flaggedForReview }

/-- Two lines of revenue, the second of them hard to read, and a line of expense that is marked. -/
def doubtful : UserInput :=
  { revenueItems :=
      [readLine "Rent" 900 (.whole 1) false,
        readLine "Parking" 100 (.real (.ofScientific false 4 (-1))) false]
    expenseItems := [readLine "Repairs" 1200 (.real (.ofScientific false 99 (-2))) true]
    adjustmentItems := []
    propertyInfo := none
    valuationInputs := none }

/-- Options with a summary that opens a reference and does not close it. -/
def unclosedSummary : ModelOptions :=
  { ModelOptions.usual with summary := some "Rent is $\x7brent" }

/-- An unsure revenue line, a marked expense line, a failed and a refused calculation, and a summary with an
unclosed reference. -/
theorem flaggedItems_exact_doubtful :
    ∃ model rest,
      assemble "monday" "Doubtful" doubtful
        (some (Evaluation.surveyed Evaluation.overspent)) unclosedSummary .usual .fresh =
          .ok (model, rest) ∧
      model.briefReasoning.flaggedItems.map FlaggedItem.field =
        ["userInput.revenueItems[1]", "userInput.expenseItems[0]", "calculations.vacancyAllowance",
          "calculations.expenseRatio", "briefReasoning.summary"] ∧
      model.briefReasoning.flaggedItems =
        flagLineItems doubtful (.real Settings.usual.reviewConfidenceThreshold) ++
          flagCalculations model.calculations ++ flagSummary model.briefReasoning.summary ∧
      (flagCalculations model.calculations).map
          (fun flag => (flag.field, flag.severity, some flag.reason)) =
        (model.calculations.calculations.filter fun result => !result.isValid).map (fun result =>
          ("calculations." ++ result.formulaId, Severity.error, result.error)) ∧
      (flagLineItems doubtful (.real Settings.usual.reviewConfidenceThreshold)).Sublist
        (flagLineItems doubtful (.whole 1)) := by
  obtain ⟨⟨model, rest⟩, hrun, hfields⟩ := Option.map_eq_some_iff.1
    (show (assemble "monday" "Doubtful" doubtful
        (some (Evaluation.surveyed Evaluation.overspent)) unclosedSummary .usual
          .fresh).toOption.map (fun answer =>
            answer.1.briefReasoning.flaggedItems.map FlaggedItem.field) =
      some ["userInput.revenueItems[1]", "userInput.expenseItems[0]", "calculations.vacancyAllowance",
        "calculations.expenseRatio", "briefReasoning.summary"] by decide +kernel)
  rw [toOption_eq_some] at hrun
  have hgiven : ∀ registry, some (Evaluation.surveyed Evaluation.overspent) = some registry →
      registry.Reached ∧ registry.HasMessages := by
    rintro registry ⟨⟩
    exact ⟨Evaluation.reached_surveyed (by cbv), of_decide_eq_true rfl⟩
  obtain ⟨hflagged, -, -, -, hcalculations, -, hraised⟩ := flaggedItems_exact hgiven hrun
  exact ⟨model, rest, hrun, hfields, hflagged, hcalculations, hraised _ (by decide +kernel)⟩

end FinancialModel
end Appraisal
