import Appraisal.Proofs.Provenance.RoundTrip
import Appraisal.Schema.AuditTrail

/-!
# The audit trail survives being written and read

The record of an operand holds what a reader is shown, but neither the number that stands in for a missing
input nor the requirement that the number be positive.  Apart from these two, an audit trail comes back as
it was: the values with their digits, the steps, the footnotes and the sources.
-/

namespace Appraisal

open Reading Schema

/-! ## What comes back -/

/-- The operand without its default and its sign. -/
def Operand.bare (operand : Operand) : Operand :=
  { operand with fallback := none, positive := false }

/-- The calculation on operands without their defaults and signs. -/
def CalculationFormula.bare (formula : CalculationFormula) : CalculationFormula :=
  { formula with operands := formula.operands.map Operand.bare }

/-- The result with operands without their defaults and signs. -/
def CalculationResult.bare (result : CalculationResult) : CalculationResult :=
  { result with formula := result.formula.bare }

/-- The audit trail with operands without their defaults and signs. -/
def AuditTrail.bare (trail : AuditTrail) : AuditTrail :=
  { trail with calculations := trail.calculations.map CalculationResult.bare }

/-! ## What can be recorded -/

/-- The footnote has a short sign and a text. -/
structure Footnote.Recordable (footnote : Footnote) : Prop where
  symbol : footnote.symbol.toList.length ≤ 3
  text : footnote.text ≠ ""

/-- The operand has a key, a path and an exact coefficient. -/
structure Operand.Recordable (operand : Operand) : Prop where
  key : operand.key ≠ ""
  ref : operand.ref ≠ ""
  coefficient : ∀ x, operand.coefficient = some x → Exact x

/-- The calculation is described, and its operands can be recorded. -/
structure CalculationFormula.Recordable (formula : CalculationFormula) : Prop where
  displayFormula : formula.displayFormula ≠ ""
  expression : formula.expression ≠ ""
  operands : ∀ operand ∈ formula.operands, operand.Recordable

/-- The result and its parts can be recorded. -/
structure CalculationResult.Recordable (result : CalculationResult) : Prop where
  value : ∀ x, result.value = some x → Exact x
  formula : result.formula.Recordable
  steps : ∀ step ∈ result.steps, ∀ x, step.result = some x → Exact x
  footnotes : ∀ footnote ∈ result.footnotes, footnote.Recordable
  source : result.source.Recordable

/-- The text is written for a moment of the calendar. -/
def IsMomentText (text : String) : Prop :=
  ∃ moment : Moment, moment.Valid ∧ text = moment.isoText

/-- The audit trail and its parts can be recorded. -/
structure AuditTrail.Recordable (trail : AuditTrail) : Prop where
  timestamp : IsMomentText trail.timestamp
  calculations : ∀ result ∈ trail.calculations, result.Recordable
  distinct : trail.results.keys.Nodup
  results : ∀ entry ∈ trail.results, ∀ x, entry.2 = some x → Exact x
  processingTimeMs : ∀ x, trail.processingTimeMs = some x → x.isFinite = true ∧ isAtLeast x 0 = true

/-! ## Footnotes -/

namespace Footnote

variable {footnote : Footnote}

theorem ofFields_accepted (h : footnote.Recordable) :
    ofFields (some (.text footnote.id)) (some (.text footnote.symbol)) (some (.text footnote.text))
      (some (Named.toPayload footnote.category)) = accepted footnote := by
  rw [ofFields, required_accepted (read_textUpTo h.symbol),
    required_accepted (read_nonEmptyText h.text), required_accepted (read_option _)]
  rfl

theorem ensures_recordable (payload : Payload) : Ensures Recordable (read payload) := by
  intro footnote h
  obtain ⟨fields, -, h⟩ := value?_record h
  simp only [ofFields, value?_seq, value?_map, Option.bind_map, Option.bind_assoc,
    Option.bind_eq_some_iff, Option.map_eq_some_iff, Function.comp_apply] at h
  obtain ⟨_, -, symbol, hsymbol, text, htext, _, -, rfl⟩ := h
  exact
    { symbol := ensures_required ensures_textUpTo _ _ symbol hsymbol
      text := ensures_required ensures_nonEmptyText _ _ text htext }

theorem restores (h : footnote.Recordable) : schema.Restores footnote where
  isDocument := by
    refine .object (by simp) ?_
    simp only [List.forall_mem_cons]
    exact ⟨.text _, .text _, .text _, .text _, List.forall_mem_nil _⟩
  read_toPayload := ofFields_accepted h

theorem recorded_eq (h : footnote.Recordable) : footnote.recorded = .ok footnote := by
  rw [recorded, ofFields_accepted h]
  rfl

/-- Recordable footnotes are their own records. -/
theorem mapM_recorded {footnotes : List Footnote} (h : ∀ footnote ∈ footnotes, footnote.Recordable) :
    footnotes.mapM recorded = .ok footnotes :=
  mapM_eq_self fun footnote hfootnote => recorded_eq (h footnote hfootnote)

end Footnote

/-! ## Operands and calculations -/

namespace OperandRecord

/-- The record of an operand that can be recorded. -/
def described (operand : Operand) : OperandRecord :=
  { ref := operand.ref
    label := operand.label
    key := some operand.key
    description := operand.description
    coefficient := operand.coefficient }

/-- How operands are exchanged with their records. -/
def exchange : Exchange (Except Failure) Operand OperandRecord :=
  { schema, ofValue := ofOperand, toValue := fun operand => pure operand.toOperand }

/-- An operand comes back without its default and without the request for a positive number, which are not
written. -/
theorem carries {operand : Operand} (h : operand.Recordable) :
    exchange.Carries operand (described operand) operand.bare where
  ofValue_eq := by
    -- The path that is written is the reference, as that one is not empty.
    have hpath : operand.path = operand.ref := if_neg h.ref
    show Reading.built title (ofFields (some (.text operand.path)) (some (.text operand.label))
      (some (.ofText? (some operand.key))) (some (.ofText? operand.description))
      (some (.ofDecimal? operand.coefficient))) = _
    rw [hpath, ofFields, optional_text, optional_text,
      optional_decimal fun x hx => (h.coefficient x hx).1]
    rfl
  restores :=
    { isDocument := by
        refine .object (by simp) ?_
        simp only [List.forall_mem_cons]
        exact ⟨.text _, .text _, .text _, Payload.isDocument_ofText? _,
          Payload.isDocument_ofText? _, List.forall_mem_nil _⟩
      read_toPayload := by
        show ofFields (some (.text operand.ref)) (some (.text operand.label))
          (some (.ofText? (some operand.key))) (some (.ofText? operand.description))
          (some (.ofText? (operand.coefficient.map Decimal.toText))) = _
        rw [ofFields, optional_text, optional_text, optional_decimalText h.coefficient]
        rfl }
  toValue_eq := by
    have hkey : ReferenceKey.isGiven (some operand.key) = true := decide_eq_true h.key
    show (pure (described operand).toOperand : Except Failure Operand) = pure operand.bare
    unfold toOperand described
    dsimp only
    rw [if_pos hkey]
    rfl

end OperandRecord

namespace FormulaRecord

/-- How calculations are exchanged with their records. -/
def exchange : Exchange (Except Failure) CalculationFormula FormulaRecord :=
  { schema, ofValue := ofFormula, toValue := fun formula => pure formula.toFormula }

/-- A formula whose texts are not empty passes the checks of its fields. -/
theorem ofFields_accepted (formula : FormulaRecord) (hdisplay : formula.displayFormula ≠ "")
    (hexpression : formula.expression ≠ "") :
    ofFields (some (.text formula.displayFormula)) (some (.text formula.expression))
      (accepted formula.operands) (some (.orNull Named.toPayload formula.operator))
      (some (.ofText? formula.calculationFn)) = accepted formula := by
  rw [ofFields, required_accepted (read_nonEmptyText hdisplay),
    required_accepted (read_nonEmptyText hexpression), optional_option,
    optional_text]
  rfl

/-- A formula comes back with the operands in the order in which they were written. -/
theorem carries {formula : CalculationFormula} (h : formula.Recordable) :
    ∃ record, exchange.Carries formula record formula.bare := by
  obtain ⟨operands, hoperandsOf, hoperands, hoperandsTo⟩ := Exchange.exists_list
    (List.forall₂_map_right_iff.2 (List.forall₂_same.2 fun operand hoperand =>
      ⟨_, OperandRecord.carries (h.operands operand hoperand)⟩))
  let record : FormulaRecord :=
    { displayFormula := formula.displayFormula
      expression := formula.expression
      operands
      operator := formula.operator
      calculationFn := formula.calculationFn }
  -- The texts are checked while the record is built, and once more while it is read.
  have hrecord := ofFields_accepted record h.displayFormula h.expression
  refine ⟨record,
    { ofValue_eq := ?ofValue
      restores := { isDocument := ?document, read_toPayload := ?read }
      toValue_eq := ?toValue }⟩
  case ofValue =>
    refine bind_eq_ok.2 ⟨operands, hoperandsOf, ?_⟩
    exact congrArg (Reading.built title) hrecord
  case document =>
    refine .object (by simp) ?_
    simp only [List.forall_mem_cons]
    exact ⟨.text _, .text _, isDocument_list hoperands,
      Payload.isDocument_orNull fun _ _ => .text _, Payload.isDocument_ofText? _, List.forall_mem_nil _⟩
  case read =>
    have hread : Reading.required "operands" (listOf OperandRecord.read)
        (some (.list (operands.map OperandRecord.toPayload))) = accepted operands :=
      required_accepted (listOf_toPayload hoperands) _
    show ofFields (some (.text formula.displayFormula)) (some (.text formula.expression))
      (Reading.required "operands" (listOf OperandRecord.read)
        (some (.list (operands.map OperandRecord.toPayload))))
      (some (.orNull Named.toPayload formula.operator)) (some (.ofText? formula.calculationFn)) = _
    rw [hread]
    exact hrecord
  case toValue =>
    show (pure record.toFormula : Except Failure CalculationFormula) = pure formula.bare
    unfold toFormula
    rw [show record.operands.map OperandRecord.toOperand = formula.operands.map Operand.bare from
      map_eq_of_mapM_pure hoperandsTo]
    rfl

end FormulaRecord

/-! ## Steps -/

namespace StepRecord

/-- The record of a step. -/
def described (step : CalculationStep) : StepRecord :=
  { description := step.description
    expression := step.expression
    result := step.result
    order := some step.order }

/-- How steps are exchanged with their records. -/
def exchange : Exchange (Except Failure) CalculationStep StepRecord :=
  { schema, ofValue := ofStep, toValue := fun step => pure step.toStep }

/-- A step comes back as it was; its number goes through a text. -/
theorem carries {step : CalculationStep} (h : ∀ x, step.result = some x → Exact x) :
    exchange.Carries step (described step) step where
  ofValue_eq := by
    show Reading.built title (ofFields (some (.text step.description))
      (some (.text step.expression)) (some (.ofDecimal? step.result))
      (some (.ofNat? (some step.order)))) = _
    rw [ofFields, optional_decimal fun x hx => (h x hx).1, optional_natural]
    rfl
  restores :=
    { isDocument := by
        refine .object (by simp) ?_
        simp only [List.forall_mem_cons]
        exact ⟨.text _, .text _, Payload.isDocument_ofText? _, Payload.isDocument_ofNat? _,
          List.forall_mem_nil _⟩
      read_toPayload := by
        show ofFields (some (.text step.description)) (some (.text step.expression))
          (some (.ofText? (step.result.map Decimal.toText)))
          (some (.ofNat? (some step.order))) = _
        rw [ofFields, optional_decimalText h, optional_natural]
        rfl }
  toValue_eq := rfl

end StepRecord

/-! ## Results -/

namespace ResultRecord

/-- How results are exchanged with their records. -/
def exchange : Exchange (Except Failure) CalculationResult ResultRecord :=
  { schema, ofValue := ofResult, toValue := toResult }

theorem ofFields_accepted (result : ResultRecord) {value : Option Payload}
    (hvalue : Reading.optional "value" decimal value = accepted result.value) :
    ofFields value (accepted result.formula) (accepted result.steps) (some (.bool result.isValid))
      (some (.ofText? result.error)) (some (.ofText? result.warning)) (accepted result.source)
      (some (.orNull Named.toPayload result.outputFormat)) (some (.ofText? result.currency))
      (some (.ofNat? result.precision)) (accepted result.footnotes) = accepted result := by
  rw [ofFields, hvalue, optional_text, optional_text, optional_option,
    optional_text, optional_natural]
  rfl

/-- A result is restored when its parts are. -/
theorem restores {result : ResultRecord} (hvalue : ∀ x, result.value = some x → Exact x)
    (hformula : FormulaRecord.schema.Restores result.formula)
    (hsteps : ∀ step ∈ result.steps, StepRecord.schema.Restores step)
    (hsource : SourceRecord.schema.Restores result.source)
    (hfootnotes : ∀ footnote ∈ result.footnotes, Footnote.schema.Restores footnote) :
    schema.Restores result where
  isDocument := by
    refine .object (by simp) ?_
    simp only [List.forall_mem_cons]
    exact ⟨Payload.isDocument_ofText? _, hformula.isDocument, isDocument_list hsteps, .bool _,
      Payload.isDocument_ofText? _, Payload.isDocument_ofText? _, hsource.isDocument,
      Payload.isDocument_orNull fun _ _ => .text _, Payload.isDocument_ofText? _,
      Payload.isDocument_ofNat? _, isDocument_list hfootnotes, List.forall_mem_nil _⟩
  read_toPayload := by
    have hformulaRead : Reading.required "formula" FormulaRecord.read
        (some result.formula.toPayload) = accepted result.formula :=
      required_accepted hformula.read_toPayload _
    have hstepsRead : Reading.orUsual "steps" (listOf StepRecord.read) []
        (some (.list (result.steps.map StepRecord.toPayload))) = accepted result.steps :=
      orUsual_accepted (listOf_toPayload hsteps) _ _
    have hsourceRead : Reading.required "source" SourceRecord.read
        (some result.source.toPayload) = accepted result.source :=
      required_accepted hsource.read_toPayload _
    have hfootnotesRead : Reading.orUsual "footnotes" (listOf Footnote.read) []
        (some (.list (result.footnotes.map Footnote.toPayload))) = accepted result.footnotes :=
      orUsual_accepted (listOf_toPayload hfootnotes) _ _
    show ofFields (some (.ofText? (result.value.map Decimal.toText)))
      (Reading.required "formula" FormulaRecord.read (some result.formula.toPayload))
      (Reading.orUsual "steps" (listOf StepRecord.read) []
        (some (.list (result.steps.map StepRecord.toPayload))))
      (some (.bool result.isValid)) (some (.ofText? result.error)) (some (.ofText? result.warning))
      (Reading.required "source" SourceRecord.read (some result.source.toPayload))
      (some (.orNull Named.toPayload result.outputFormat)) (some (.ofText? result.currency))
      (some (.ofNat? result.precision))
      (Reading.orUsual "footnotes" (listOf Footnote.read) []
        (some (.list (result.footnotes.map Footnote.toPayload)))) = _
    rw [hformulaRead, hstepsRead, hsourceRead, hfootnotesRead]
    exact ofFields_accepted result (optional_decimalText hvalue _)

/-- A result comes back with all of its parts; only its formula loses what is not written. -/
theorem carries {result : CalculationResult} (h : result.Recordable) :
    ∃ record, exchange.Carries result record result.bare := by
  obtain ⟨formula, hformula⟩ := FormulaRecord.carries h.formula
  obtain ⟨steps, hstepsOf, hsteps, hstepsTo⟩ := Exchange.exists_list
    (List.forall₂_same.2 fun step hstep => ⟨_, StepRecord.carries (h.steps step hstep)⟩)
  obtain ⟨source, hsource⟩ := h.source.carries
  let record : ResultRecord :=
    { value := result.value
      formula
      steps
      isValid := result.isValid
      error := result.error
      warning := result.warning
      source
      outputFormat := result.outputFormat
      currency := result.currency
      precision := result.precision
      footnotes := result.footnotes }
  refine ⟨record, { ofValue_eq := ?ofValue, restores := ?restores, toValue_eq := ?toValue }⟩
  case ofValue =>
    have hvalue : Reading.optional "value" decimal (some (.ofDecimal? result.value)) =
        accepted result.value := optional_decimal (fun x hx => (h.value x hx).1) _
    exact bind_eq_ok.2 ⟨formula, hformula.ofValue_eq, bind_eq_ok.2 ⟨steps, hstepsOf,
      bind_eq_ok.2 ⟨source, hsource.ofValue_eq, bind_eq_ok.2 ⟨result.footnotes,
        Footnote.mapM_recorded h.footnotes,
        congrArg (Reading.built title) (ofFields_accepted record hvalue)⟩⟩⟩⟩
  -- The parts have been carried one by one; the record only puts them together.
  case restores =>
    exact restores h.value hformula.restores hsteps hsource.restores
      fun footnote hfootnote => Footnote.restores (h.footnotes footnote hfootnote)
  case toValue =>
    have hback : formula.toFormula = result.formula.bare := pure_eq_ok.1 hformula.toValue_eq
    have hstepsBack : steps.map StepRecord.toStep = result.steps := map_eq_of_mapM_pure hstepsTo
    refine bind_eq_ok.2 ⟨result.source, hsource.toValue_eq, ?_⟩
    rw [hback, hstepsBack]
    rfl

end ResultRecord

/-! ## Audit trails -/

namespace TrailRecord

/-- How audit trails are exchanged with their records. -/
def exchange : Exchange (Except Failure) AuditTrail TrailRecord :=
  { schema, ofValue := ofTrail, toValue := toTrail }

theorem ofFields_accepted (trail : TrailRecord) {timestamp : String}
    (htimestamp : Schema.moment (.text timestamp) = accepted trail.timestamp)
    (write : Option Decimal → Payload)
    (hwrite : ∀ entry ∈ trail.results, orNull decimal (write entry.2) = accepted entry.2)
    (hduration : ∀ x, trail.processingTimeMs = some x → isAtLeast x 0 = true) :
    ofFields (some (.text trail.modelId)) (some (.text timestamp)) (accepted trail.calculations)
      (some (.object (trail.results.map fun entry => (entry.1, write entry.2))))
      (some (.list (trail.warnings.map .text))) (some (.ofFloat? trail.processingTimeMs)) =
      accepted trail := by
  rw [ofFields, required_accepted htimestamp, required_accepted (dictionaryOf_accepted hwrite),
    orUsual_accepted (listOf_text _), optional_nonNegativeReal hduration]
  rfl

/-- A trail is restored when its results are, with its moment written in universal time. -/
theorem restores {trail : TrailRecord} (hmoment : trail.timestamp.Valid)
    (hcalculations : ∀ result ∈ trail.calculations, ResultRecord.schema.Restores result)
    (hdistinct : trail.results.keys.Nodup)
    (hresults : ∀ entry ∈ trail.results, ∀ x, entry.2 = some x → Exact x)
    (hduration : ∀ x, trail.processingTimeMs = some x → x.isFinite = true ∧ isAtLeast x 0 = true) :
    schema.Restores trail where
  isDocument := by
    have hvalues : (Payload.object (trail.results.map fun entry =>
        (entry.1, .ofText? (entry.2.map Decimal.toText)))).IsDocument :=
      Payload.isDocument_dictionary (fun value => .ofText? (value.map Decimal.toText)) hdistinct
        fun _ _ => Payload.isDocument_ofText? _
    refine .object (by simp) ?_
    simp only [List.forall_mem_cons]
    exact ⟨.text _, .text _, isDocument_list hcalculations, hvalues, Payload.isDocument_texts _,
      Payload.isDocument_ofFloat? fun x hx => (hduration x hx).1, List.forall_mem_nil _⟩
  read_toPayload := by
    have hread : Reading.required "calculations" (listOf ResultRecord.read)
        (some (.list (trail.calculations.map ResultRecord.toPayload))) =
        accepted trail.calculations :=
      required_accepted (listOf_toPayload hcalculations) _
    have hvalues : ∀ entry ∈ trail.results,
        orNull decimal (.ofText? (entry.2.map Decimal.toText)) = accepted entry.2 :=
      fun entry hentry => orNull_decimalText (hresults entry hentry)
    show ofFields (some (.text trail.modelId)) (some (.text trail.timestamp.zuluText))
      (Reading.required "calculations" (listOf ResultRecord.read)
        (some (.list (trail.calculations.map ResultRecord.toPayload))))
      (some (.object (trail.results.map fun entry =>
        (entry.1, .ofText? (entry.2.map Decimal.toText)))))
      (some (.list (trail.warnings.map .text))) (some (.ofFloat? trail.processingTimeMs)) = _
    rw [hread]
    exact ofFields_accepted trail (read_moment hmoment).2
      (fun value => .ofText? (value.map Decimal.toText)) hvalues fun x hx => (hduration x hx).2

/-- A trail comes back in full, provided that its moment, its numbers and its duration can be written. -/
theorem carries {trail : AuditTrail} (h : trail.Recordable) :
    ∃ record, exchange.Carries trail record trail.bare := by
  obtain ⟨moment, hmoment, htimestamp⟩ := h.timestamp
  obtain ⟨calculations, hcalculationsOf, hcalculations, hcalculationsTo⟩ := Exchange.exists_list
    (List.forall₂_map_right_iff.2 (List.forall₂_same.2 fun result hresult =>
      ResultRecord.carries (h.calculations result hresult)))
  let record : TrailRecord :=
    { modelId := trail.modelId
      timestamp := moment
      calculations
      results := trail.results
      warnings := trail.warnings
      processingTimeMs := trail.processingTimeMs }
  refine ⟨record,
    { ofValue_eq := ?ofValue
      restores := restores hmoment hcalculations h.distinct h.results h.processingTimeMs
      toValue_eq := ?toValue }⟩
  -- Values are checked as numbers on the way in and as texts on the way back, so both readings are needed.
  case ofValue =>
    have hvalues : ∀ entry ∈ record.results,
        orNull decimal (.ofDecimal? entry.2) = accepted entry.2 := fun entry hentry =>
      orNull_accepted .decimal (fun x hx => read_decimal (h.results entry hentry x hx).1) nofun
    refine bind_eq_ok.2 ⟨calculations, hcalculationsOf, ?_⟩
    rw [htimestamp]
    exact congrArg (Reading.built title) (ofFields_accepted record (read_moment hmoment).1 .ofDecimal?
      hvalues fun x hx => (h.processingTimeMs x hx).2)
  case toValue =>
    refine bind_eq_ok.2 ⟨_, hcalculationsTo, ?_⟩
    unfold AuditTrail.bare
    rw [htimestamp]
    rfl

end TrailRecord
end Appraisal
